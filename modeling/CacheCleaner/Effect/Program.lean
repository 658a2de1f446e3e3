import Mathlib

namespace Effect

/-! Programs that talk to their surroundings through typed requests.  A program
is a tree of requests; everything else about the surroundings is a handler. -/

/-- A program over an interface of requests with dependently typed replies.
`abort` ends the whole process: nothing after it runs and no value is
returned. -/
inductive Program (Request : Type) (Reply : Request → Type) (α : Type) where
  | done (value : α)
  | abort
  | call (request : Request) (next : Reply request → Program Request Reply α)

structure Handler (Request : Type) (Reply : Request → Type) (σ : Type) where
  respond : (request : Request) → σ → Reply request × σ

namespace Program

variable {Request : Type} {Reply : Request → Type} {α β γ σ : Type}

variable {program : Program Request Reply α} {next : α → Program Request Reply β}

protected def bind (program : Program Request Reply α)
    (next : α → Program Request Reply β) : Program Request Reply β :=
  match program with
  | .done value => next value
  | .abort => .abort
  | .call request rest => .call request fun reply => (rest reply).bind next

instance : Monad (Program Request Reply) where
  pure := .done
  bind := Program.bind

def perform (request : Request) : Program Request Reply (Reply request) := .call request .done

@[simp] theorem pure_eq : (pure value : Program Request Reply α) = .done value := rfl

@[simp] theorem done_bind : (Program.done value >>= next) = next value := rfl

@[simp] theorem abort_bind (next : α → Program Request Reply β) :
    ((.abort : Program Request Reply α) >>= next) = .abort := rfl

@[simp] theorem call_bind (request : Request) (rest : Reply request → Program Request Reply α)
    (next : α → Program Request Reply β) : (Program.call request rest >>= next) =
      .call request fun reply => rest reply >>= next := rfl

@[simp] theorem perform_bind (request : Request) (next : Reply request → Program Request Reply β) :
    (perform request >>= next) = .call request next := rfl

theorem bind_assoc (program : Program Request Reply α)
    (next : α → Program Request Reply β) (last : β → Program Request Reply γ) :
    (program >>= next) >>= last = program >>= fun value => next value >>= last := by
  induction program with
  | done value => rfl
  | abort => rfl
  | call request rest ih =>
    simp only [call_bind]
    exact congrArg (Program.call request) (funext ih)

variable (handler : Handler Request Reply σ)

/-- The value and state a run ends with; no value when the run aborts. -/
def run : Program Request Reply α → σ → Option α × σ
  | .done value, state => (some value, state)
  | .abort, state => (none, state)
  | .call request next, state =>
    run (next (handler.respond request state).1) (handler.respond request state).2

def trace : Program Request Reply α → σ → List Request
  | .done _, _ => []
  | .abort, _ => []
  | .call request next, state =>
    request :: trace (next (handler.respond request state).1) (handler.respond request state).2

/-- The state left behind when the process dies after `count` requests. -/
def stateAfter : Nat → Program Request Reply α → σ → σ
  | 0, _, state => state
  | _ + 1, .done _, state => state
  | _ + 1, .abort, state => state
  | count + 1, .call request next, state =>
    stateAfter count (next (handler.respond request state).1) (handler.respond request state).2

@[simp] theorem run_done (value : α) (state : σ) :
    (Program.done value : Program Request Reply α).run handler state = (some value, state) := rfl

@[simp] theorem run_abort (state : σ) :
    (.abort : Program Request Reply α).run handler state = (none, state) := rfl

@[simp] theorem run_call (request : Request)
    (next : Reply request → Program Request Reply α) (state : σ) :
    (Program.call request next).run handler state =
      (next (handler.respond request state).1).run handler (handler.respond request state).2 := rfl

theorem run_bind (program : Program Request Reply α)
    (next : α → Program Request Reply β) (state : σ) : (program >>= next).run handler state =
      match program.run handler state with
      | (some value, after) => (next value).run handler after
      | (none, after) => (none, after) := by
  induction program generalizing state with
  | done value => rfl
  | abort => rfl
  | call request rest ih => exact ih _ _

theorem trace_bind (program : Program Request Reply α)
    (next : α → Program Request Reply β) (state : σ) :
    (program >>= next).trace handler state = program.trace handler state ++
      match program.run handler state with
      | (some value, after) => (next value).trace handler after
      | (none, _) => [] := by
  induction program generalizing state with
  | done value => rfl
  | abort => rfl
  | call request rest ih => exact congrArg (request :: ·) (ih _ _)

theorem trace_bind_silent {program : Program Request Reply α} {next : α → Program Request Reply β}
    (silent : ∀ value state, (next value).trace handler state = []) (state : σ) :
    (program >>= next).trace handler state = program.trace handler state := by
  rw [trace_bind]
  obtain ⟨value, after⟩ := program.run handler state
  cases value with
  | none => exact List.append_nil _
  | some value =>
    dsimp only
    rw [silent, List.append_nil]

theorem run_bind_some (first : program.run handler state = (some value, after)) :
    (program >>= next).run handler state = (next value).run handler after := by
  rw [run_bind, first]

theorem exists_of_run_bind
    (whole : (program >>= next).run handler state = (some result, final)) : ∃ value middle,
      program.run handler state = (some value, middle) ∧
      (next value).run handler middle = (some result, final) := by
  rw [run_bind] at whole
  cases first : program.run handler state with
  | mk outcome middle =>
    cases outcome with
    | none => simp [first] at whole
    | some value => exact ⟨value, middle, rfl, by simpa [first] using whole⟩

section

variable {handler} {clock : σ → Nat}
  (ticks : ∀ request state, clock (handler.respond request state).2 = clock state + 1)
include ticks

theorem clock_run (program : Program Request Reply α) (state : σ) :
    clock (program.run handler state).2 = clock state + (program.trace handler state).length := by
  induction program generalizing state with
  | done value => rfl
  | abort => rfl
  | call request next ih =>
    rw [run_call, ih, ticks, trace, List.length_cons]
    omega

theorem run_eq_of_agree {other : Handler Request Reply σ}
    (ran : program.run handler state = (outcome, final))
    (agree : ∀ request state', clock state ≤ clock state' → clock state' < clock final →
      other.respond request state' = handler.respond request state') :
    program.run other state = (outcome, final) := by
  induction program generalizing state with
  | done value => exact ran
  | abort => exact ran
  | call request next ih =>
    have later := clock_run ticks (.call request next) state
    rw [ran, trace, List.length_cons] at later
    dsimp only at later
    rw [run_call, agree request state (Nat.le_refl _) (by omega)]
    refine ih _ ran fun request' state' after => agree request' state' ?_
    rw [ticks] at after
    exact Nat.le_of_succ_le after

end

/-! Crash-aware pre- and postconditions, relative to what may be answered.
`Spec answers crash post` holds of a program in a state when, as long as every
reply satisfies `answers`, every state the run passes through, the first and
the last included, satisfies `crash`, and a returned value satisfies `post`. -/

def Spec (answers : (request : Request) → Reply request → Prop)
    (crash : σ → Prop) (post : α → σ → Prop) : Program Request Reply α → σ → Prop
  | .done value, state => crash state ∧ post value state
  | .abort, state => crash state
  | .call request next, state =>
    crash state ∧ (answers request (handler.respond request state).1 →
        Spec answers crash post (next (handler.respond request state).1)
          (handler.respond request state).2)

/-- The first `count` replies of a run all satisfy `answers`. -/
def Answered (answers : (request : Request) → Reply request → Prop) :
    Nat → Program Request Reply α → σ → Prop
  | 0, _, _ => True
  | _ + 1, .done _, _ => True
  | _ + 1, .abort, _ => True
  | count + 1, .call request next, state =>
    answers request (handler.respond request state).1 ∧
      Answered answers count (next (handler.respond request state).1)
        (handler.respond request state).2

variable {handler}
variable {answers : (request : Request) → Reply request → Prop}
variable {crash crash' : σ → Prop}

theorem Answered.of_respond
    (holds : ∀ request state, answers request (handler.respond request state).1)
    (program : Program Request Reply α) (state : σ) (count : Nat) :
    Answered handler answers count program state := by
  induction program generalizing state count with
  | done value => cases count <;> trivial
  | abort => cases count <;> trivial
  | call request next ih =>
    cases count with
    | zero => trivial
    | succ count => exact ⟨holds _ _, ih _ _ _⟩

def answeredThroughout (answers : (request : Request) → Reply request → Prop)
    [∀ request reply, Decidable (answers request reply)]
    (handler : Handler Request Reply σ) : Program Request Reply α → σ → Bool
  | .done _, _ => true
  | .abort, _ => true
  | .call request next, state =>
    decide (answers request (handler.respond request state).1) && answeredThroughout answers handler
        (next (handler.respond request state).1) (handler.respond request state).2

theorem Answered.of_throughout [∀ request reply, Decidable (answers request reply)]
    (tested : answeredThroughout answers handler program state = true)
    (count : Nat) : Answered handler answers count program state := by
  induction program generalizing state count with
  | done value => cases count <;> trivial
  | abort => cases count <;> trivial
  | call request next ih =>
    rw [answeredThroughout, Bool.and_eq_true, decide_eq_true_eq] at tested
    cases count with
    | zero => trivial
    | succ count => exact ⟨tested.1, ih _ tested.2 count⟩

theorem Answered.always (program : Program Request Reply α) (state : σ)
    (holds : ∀ request reply, answers request reply) (count : Nat) :
    Answered handler answers count program state :=
  Answered.of_respond (fun request _ => holds request _) program state count

namespace Spec

variable {program : Program Request Reply α} {post : α → σ → Prop} {state : σ}

theorem done (safe : crash state) (holds : post value state) :
    Spec handler answers crash post (.done value) state :=
  ⟨safe, holds⟩

theorem call {next : Reply request → Program Request Reply α} (safe : crash state)
    (rest : answers request (handler.respond request state).1 →
      Spec handler answers crash post (next (handler.respond request state).1)
        (handler.respond request state).2) :
    Spec handler answers crash post (.call request next) state :=
  ⟨safe, rest⟩

theorem mono (spec : Spec handler answers crash post program state)
    (crashes : ∀ state, crash state → crash' state)
    (posts : ∀ value state, post value state → post' value state) :
    Spec handler answers crash' post' program state := by
  induction program generalizing state with
  | done value => exact ⟨crashes _ spec.1, posts _ _ spec.2⟩
  | abort => exact crashes _ spec
  | call request next ih =>
    exact ⟨crashes _ spec.1, fun answered => ih _ (spec.2 answered)⟩

theorem top (program : Program Request Reply α) (state : σ) :
    Spec handler answers (fun _ => True) (fun _ _ => True) program state := by
  induction program generalizing state with
  | done value => exact ⟨trivial, trivial⟩
  | abort => trivial
  | call request next ih => exact ⟨trivial, fun _ => ih _ _⟩

theorem post_safe (spec : Spec handler answers crash post program state) :
    Spec handler answers crash (fun value final => crash final ∧ post value final)
      program state := by
  induction program generalizing state with
  | done value => exact ⟨spec.1, spec⟩
  | abort => exact spec
  | call request next ih =>
    exact ⟨spec.1, fun answered => ih _ (spec.2 answered)⟩

theorem bind {post : β → σ → Prop} (first : Spec handler answers crash middle program state)
    (rest : ∀ value state, middle value state →
      Spec handler answers crash post (next value) state) :
    Spec handler answers crash post (program >>= next) state := by
  induction program generalizing state with
  | done value => exact rest value state first.2
  | abort => exact first
  | call request continuation ih =>
    exact ⟨first.1, fun answered => ih _ (first.2 answered)⟩

theorem stateAfter (spec : Spec handler answers crash post program state)
    (answered : Answered handler answers count program state) :
    crash (program.stateAfter handler count state) := by
  induction program generalizing state count with
  | done value => cases count <;> exact spec.1
  | abort => cases count <;> exact spec
  | call request next ih =>
    cases count with
    | zero => exact spec.1
    | succ count => exact ih _ (spec.2 answered.1) answered.2

theorem run_safe (spec : Spec handler answers crash post program state)
    (answered : ∀ count, Answered handler answers count program state) :
    crash (program.run handler state).2 := by
  induction program generalizing state with
  | done value => exact spec.1
  | abort => exact spec
  | call request next ih =>
    exact ih _ (spec.2 (answered 1).1) fun count => (answered (count + 1)).2

theorem run_post (spec : Spec handler answers crash post program state)
    (answered : ∀ count, Answered handler answers count program state)
    (ran : program.run handler state = (some value, final)) : post value final := by
  induction program generalizing state with
  | done result =>
    cases ran
    exact spec.2
  | abort => cases ran
  | call request next ih =>
    exact ih _ (spec.2 (answered 1).1) (fun count => (answered (count + 1)).2) ran

end Spec

def Returns (handler : Handler Request Reply σ) (post : α → σ → Prop)
    (program : Program Request Reply α) (state : σ) : Prop :=
  ∃ value final, program.run handler state = (some value, final) ∧ post value final

def Total : Program Request Reply α → Prop
  | .done _ => True
  | .abort => False
  | .call _ next => ∀ reply, Total (next reply)

namespace Total

@[simp] theorem done (value : α) : Total (.done value : Program Request Reply α) := trivial

theorem bind (first : Total program)
    (rest : ∀ value, Total (next value)) : Total (program >>= next) := by
  induction program with
  | done value => exact rest value
  | abort => exact first
  | call request continuation ih =>
    exact fun reply => ih reply (first reply)

end Total

namespace Returns

theorem done (holds : post value state) :
    Returns handler post (.done value : Program Request Reply α) state :=
  ⟨value, state, rfl, holds⟩

theorem call {next : Reply request → Program Request Reply α}
    (rest : Returns handler post (next (handler.respond request state).1)
      (handler.respond request state).2) : Returns handler post (.call request next) state := rest

theorem bind (first : Returns handler middle program state)
    (rest : ∀ value state, middle value state → Returns handler post (next value) state) :
    Returns handler post (program >>= next) state := by
  obtain ⟨value, between, ran, holds⟩ := first
  obtain ⟨result, final, ended, post⟩ := rest value between holds
  exact ⟨result, final, (run_bind_some handler ran).trans ended, post⟩

end Returns

def Aborts (handler : Handler Request Reply σ)
    (program : Program Request Reply α) (state : σ) : Prop :=
  (program.run handler state).1 = none

namespace Aborts

variable {program : Program Request Reply α} {next : α → Program Request Reply β} {state : σ}

theorem bind (first : Aborts handler program state) : Aborts handler (program >>= next) state := by
  unfold Aborts at first ⊢
  rw [run_bind]
  cases ran : program.run handler state with
  | mk outcome after =>
    rw [ran] at first
    cases first
    rfl

theorem after (first : Returns handler middle program state)
    (rest : ∀ value state, middle value state → Aborts handler (next value) state) :
    Aborts handler (program >>= next) state := by
  obtain ⟨value, between, ran, holds⟩ := first
  unfold Aborts
  rw [run_bind_some handler ran]
  exact rest value between holds

end Aborts

/-- The run returns a value that satisfies `post`, or aborts and `aborted`
holds. -/
def Ends (handler : Handler Request Reply σ) (post : α → σ → Prop) (aborted : Prop)
    (program : Program Request Reply α) (state : σ) : Prop :=
  match program.run handler state with
  | (some value, final) => post value final
  | (none, _) => aborted

namespace Ends

variable {program : Program Request Reply α} {post : α → σ → Prop} {state : σ}

theorem mono (ends : Ends handler post aborted program state)
    (posts : ∀ value final, post value final → post' value final) (aborts : aborted → aborted') :
    Ends handler post' aborted' program state := by
  unfold Ends at ends ⊢
  split at ends
  · exact posts _ _ ends
  · exact aborts ends

theorem bind {next : α → Program Request Reply β} {post : β → σ → Prop}
    (first : Ends handler middle aborted program state)
    (rest : ∀ value state, middle value state → Ends handler post aborted (next value) state) :
    Ends handler post aborted (program >>= next) state := by
  unfold Ends at first
  rw [Ends, run_bind]
  split at first
  · exact rest _ _ first
  · exact first

theorem after {next : α → Program Request Reply β} {post : β → σ → Prop}
    (ran : program.run handler state = (some value, middle))
    (rest : Ends handler post aborted (next value) middle) :
    Ends handler post aborted (program >>= next) state := by
  rw [Ends, run_bind, ran]
  exact rest

theorem run_post (ends : Ends handler post aborted program state)
    (ran : program.run handler state = (some value, final)) : post value final := by
  rwa [Ends, ran] at ends

theorem returns (ends : Ends handler post aborted program state) (never : ¬ aborted) :
    Returns handler post program state := by
  unfold Ends at ends
  split at ends
  · rename_i value final ran
    exact ⟨value, final, ran, ends⟩
  · exact absurd ends never

theorem aborts (ends : Ends handler post aborted program state)
    (never : ∀ value final, ¬ post value final) : Aborts handler program state := by
  unfold Ends at ends
  split at ends
  · exact absurd ends (never _ _)
  · rename_i final ran
    rw [Aborts, ran]

theorem spec (ends : Ends handler post aborted program state) :
    Spec handler answers (fun _ => True) post program state := by
  induction program generalizing state with
  | done value => exact ⟨trivial, ends⟩
  | abort => trivial
  | call request next ih => exact ⟨trivial, fun _ => ih _ ends⟩

end Ends

/-- Every value the program can return, whatever is replied, satisfies
`values`. -/
def Yields (values : α → Prop) : Program Request Reply α → Prop
  | .done value => values value
  | .abort => True
  | .call _ next => ∀ reply, Yields values (next reply)

namespace Yields

variable {values values' : α → Prop}

variable {program : Program Request Reply α}

theorem any (program : Program Request Reply α) : Yields (fun _ => True) program := by
  induction program with
  | done value => trivial
  | abort => trivial
  | call request next ih => exact ih

theorem mono (yields : Yields values program)
    (weaken : ∀ value, values value → values' value) : Yields values' program := by
  induction program with
  | done value => exact weaken value yields
  | abort => trivial
  | call request next ih =>
    exact fun reply => ih reply (yields reply)

theorem bind (first : Yields values program)
    (rest : ∀ value, values value → Yields results (next value)) :
    Yields results (program >>= next) := by
  induction program with
  | done value => exact rest value first
  | abort => trivial
  | call request continuation ih =>
    exact fun reply => ih reply (first reply)

theorem run
    (yields : Yields values program) (ran : program.run handler state = (some value, final)) :
    values value := by
  induction program generalizing state with
  | done result =>
    cases ran
    exact yields
  | abort => cases ran
  | call request next ih => exact ih _ (yields _) ran

theorem spec (yields : Yields values program)
    (spec : Spec handler answers crash post program state) : Spec handler answers crash
      (fun value final => values value ∧ post value final) program state := by
  induction program generalizing state with
  | done value => exact ⟨spec.1, yields, spec.2⟩
  | abort => exact spec
  | call request next ih =>
    exact ⟨spec.1, fun answered =>
      ih _ (yields _) (spec.2 answered)⟩

end Yields

/-- Every request the program can issue, whatever is replied, satisfies
`allowed`. -/
def Issues (allowed : Request → Prop) : Program Request Reply α → Prop
  | .done _ => True
  | .abort => True
  | .call request next =>
    allowed request ∧ ∀ reply, Issues allowed (next reply)

namespace Issues

variable {allowed allowed' : Request → Prop}

variable {program : Program Request Reply α} {next : α → Program Request Reply β}

@[simp] theorem done (value : α) : Issues allowed (.done value : Program Request Reply α) := trivial

@[simp] theorem abort : Issues allowed (.abort : Program Request Reply α) := trivial

theorem perform (here : allowed request) : Issues allowed
      (Program.perform request : Program Request Reply (Reply request)) :=
  ⟨here, fun _ => trivial⟩

theorem bind (first : Issues allowed program) (rest : ∀ value, Issues allowed (next value)) :
    Issues allowed (program >>= next) := by
  induction program with
  | done value => exact rest value
  | abort => trivial
  | call request continuation ih =>
    exact ⟨first.1, fun reply => ih reply (first.2 reply)⟩

theorem bind_yields (first : Issues allowed program) (yields : Yields values program)
    (rest : ∀ value, values value → Issues allowed (next value)) :
    Issues allowed (program >>= next) := by
  induction program with
  | done value => exact rest value yields
  | abort => trivial
  | call request continuation ih =>
    exact ⟨first.1, fun reply => ih reply (first.2 reply) (yields reply)⟩

theorem mono (issues : Issues allowed program)
    (weaken : ∀ request, allowed request → allowed' request) : Issues allowed' program := by
  induction program with
  | done value => trivial
  | abort => trivial
  | call request next ih =>
    exact ⟨weaken _ issues.1, fun reply => ih reply (issues.2 reply)⟩

theorem mem_trace (issues : Issues allowed program) :
    ∀ request ∈ program.trace handler state, allowed request := by
  induction program generalizing state with
  | done value => simp [trace]
  | abort => simp [trace]
  | call request next ih =>
    intro other mem
    rcases List.mem_cons.mp mem with rfl | mem
    · exact issues.1
    · exact ih _ (issues.2 _) other mem

theorem spec (issues : Issues allowed program)
    (keeps : ∀ request state, allowed request → crash state →
      crash (handler.respond request state).2) (start : crash state) :
    Spec handler answers crash (fun _ final => crash final) program state := by
  induction program generalizing state with
  | done value => exact ⟨start, start⟩
  | abort => exact start
  | call request next ih =>
    exact ⟨start, fun _ =>
      ih _ (issues.2 _) (keeps _ _ issues.1 start)⟩

theorem stateAfter_keeps (issues : Issues allowed program)
    (keeps : ∀ request state, allowed request → crash state →
      crash (handler.respond request state).2) (start : crash state) (count : Nat) :
    crash (program.stateAfter handler count state) := by
  induction program generalizing state count with
  | done value => cases count <;> exact start
  | abort => cases count <;> exact start
  | call request next ih =>
    cases count with
    | zero => exact start
    | succ count => exact ih _ (issues.2 _) (keeps _ _ issues.1 start) count

theorem run_keeps (issues : Issues allowed program)
    (keeps : ∀ request state, allowed request → crash state →
      crash (handler.respond request state).2) (start : crash state) :
    crash (program.run handler state).2 := by
  have spec : Spec handler (fun _ _ => True) crash
      (fun _ final => crash final) program state := issues.spec keeps start
  exact spec.run_safe (Answered.always program state fun _ _ => trivial)

end Issues

end Program

end Effect
