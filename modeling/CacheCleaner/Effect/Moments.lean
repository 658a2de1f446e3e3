import CacheCleaner.Effect.Program

namespace Effect.Program

variable {Request : Type} {Reply : Request → Type} {α β σ : Type}

def Moments (handler : Handler Request Reply σ) (moment : σ → Request → Prop)
    (post : α → σ → Prop) : Program Request Reply α → σ → Prop
  | .done value, state => post value state
  | .abort, _ => False
  | .call request next, state =>
    moment state request ∧ Moments handler moment post (next (handler.respond request state).1)
        (handler.respond request state).2

namespace Moments

variable {handler : Handler Request Reply σ} {moment moment' : σ → Request → Prop} {state : σ}

variable {program : Program Request Reply α}

theorem bind (first : Moments handler moment middle program state)
    (rest : ∀ value state, middle value state → Moments handler moment post (next value) state) :
    Moments handler moment post (program >>= next) state := by
  induction program generalizing state with
  | done value => exact rest value state first
  | abort => exact first.elim
  | call request continuation ih =>
    exact ⟨first.1, ih _ first.2⟩

theorem returns
    (moments : Moments handler moment post program state) : Returns handler post program state := by
  induction program generalizing state with
  | done value => exact Returns.done moments
  | abort => exact moments.elim
  | call request next ih => exact Returns.call (ih _ moments.2)

theorem stateAfter (moments : Moments handler moment post program state) (count : Nat) :
    (∃ request, (program.trace handler state)[count]? = some request ∧
        moment (program.stateAfter handler count state) request) ∨
      (program.trace handler state)[count]? = none ∧ program.stateAfter handler count state =
          (program.run handler state).2 := by
  induction program generalizing state count with
  | done value => cases count <;> exact Or.inr ⟨rfl, rfl⟩
  | abort => exact moments.elim
  | call request next ih =>
    cases count with
    | zero => exact Or.inl ⟨request, rfl, moments.1⟩
    | succ count => exact ih _ moments.2 count

end Moments

theorem Spec.moments (spec : Spec handler (fun _ _ => True) crash post program state)
    (total : Total program) (issues : Issues allowed program)
    (each : ∀ state request, crash state → allowed request → moment state request) :
    Moments handler moment post program state := by
  induction program generalizing state with
  | done value => exact spec.2
  | abort => exact total.elim
  | call request next ih =>
    exact ⟨each _ _ spec.1 issues.1, ih _ (spec.2 trivial) (total _) (issues.2 _)⟩

end Effect.Program
