import CacheCleaner.Effect.Log

namespace Effect.Protocol.Obeys

variable {Phase Code Request α β σ : Type} {Reply : Request → Type}
  {protocol : Protocol Phase Code Request Reply} {phase : Phase}

theorem perform_bind (permitted : protocol.permits phase request)
    (rest : ∀ reply, protocol.Obeys post (protocol.advance phase ⟨request, reply⟩) (next reply)) :
    protocol.Obeys post phase (Program.perform request >>= next) :=
  ⟨permitted, rest⟩

theorem of_issues (issues : program.Issues allowed)
    (permitted : ∀ request, allowed request → protocol.permits phase request)
    (stays : ∀ request reply, allowed request → protocol.advance phase ⟨request, reply⟩ = phase) :
    protocol.Obeys (fun after _ => after = phase) phase program := by
  induction program with
  | done value => exact rfl
  | abort => trivial
  | call request next ih =>
    refine ⟨permitted request issues.1, fun reply => ?_⟩
    rw [stays request reply issues.1]
    exact ih reply (issues.2 reply)

section

variable {post : Phase → α → Prop} {program : Program Request Reply α}
  (handler : Handler Request Reply σ)

theorem permitted (obeys : protocol.Obeys post phase program)
    (next : (program.trace handler state)[count]? = some request) : protocol.permits
      (((program.log handler state).take count).foldl protocol.advance phase) request := by
  induction program generalizing phase state count with
  | done value => simp [Program.trace] at next
  | abort => simp [Program.trace] at next
  | call asked rest ih =>
    cases count with
    | zero =>
      cases next
      exact obeys.1
    | succ count => exact ih _ (obeys.2 _) next

theorem returned (obeys : protocol.Obeys post phase program)
    (ran : program.run handler state = (some value, final)) :
    post ((program.log handler state).foldl protocol.advance phase) value := by
  induction program generalizing phase state with
  | done result =>
    cases ran
    exact obeys
  | abort => cases ran
  | call asked rest ih => exact ih _ (obeys.2 _) ran

end

section

variable {handler : Handler Request Reply σ} {holds : Phase → σ → Prop}
  (keeps : ∀ phase request state, protocol.permits phase request → holds phase state →
    holds (protocol.advance phase ⟨request, (handler.respond request state).1⟩)
      (handler.respond request state).2)
variable {program : Program Request Reply α}

include keeps

theorem stateAfter (obeys : protocol.Obeys post phase program)
    (start : holds phase state) (count : Nat) :
    ∃ reached, holds reached (program.stateAfter handler count state) ∧
      ∀ request, (program.trace handler state)[count]? = some request →
        protocol.permits reached request := by
  induction program generalizing phase state count with
  | done value => cases count <;> exact ⟨phase, start, by simp [Program.trace]⟩
  | abort => cases count <;> exact ⟨phase, start, by simp [Program.trace]⟩
  | call request next ih =>
    cases count with
    | zero =>
      refine ⟨phase, start, fun other found => ?_⟩
      cases found
      exact obeys.1
    | succ count =>
      exact ih _ (obeys.2 _) (keeps _ _ _ obeys.1 start) count

theorem run (obeys : protocol.Obeys post phase program)
    (start : holds phase state) (ran : program.run handler state = (some value, final)) :
    ∃ reached, holds reached final ∧ post reached value := by
  induction program generalizing phase state with
  | done result =>
    cases ran
    exact ⟨phase, start, obeys⟩
  | abort => cases ran
  | call request next ih =>
    exact ih _ (obeys.2 _) (keeps _ _ _ obeys.1 start) ran

end

end Effect.Protocol.Obeys
