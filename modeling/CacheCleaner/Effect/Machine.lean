import Mathlib

namespace Effect

structure Machine (σ Call Answer : Type) where
  step : σ → Call → Answer × σ

namespace Machine

variable {σ Call Answer : Type} (machine : Machine σ Call Answer)

def after : σ → List Call → σ
  | state, [] => state
  | state, call :: rest => after (machine.step state call).2 rest

def history : σ → List Call → List (Call × Answer)
  | _, [] => []
  | state, call :: rest =>
    (call, (machine.step state call).1) :: history (machine.step state call).2 rest

def visits : σ → List Call → List (σ × Call)
  | _, [] => []
  | state, call :: rest =>
    (state, call) :: visits (machine.step state call).2 rest

variable {machine} {state : σ} {calls front back : List Call}

@[simp] theorem after_nil : machine.after state [] = state := rfl

@[simp] theorem after_cons : machine.after state (call :: calls) =
      machine.after (machine.step state call).2 calls := rfl

@[simp] theorem after_append : machine.after state (front ++ back) =
      machine.after (machine.after state front) back := by
  induction front generalizing state with
  | nil => rfl
  | cons call rest ih => exact ih

theorem after_invariant (holds : σ → Prop) (start : holds state)
    (kept : ∀ state, ∀ call ∈ calls, holds state → holds (machine.step state call).2) :
    holds (machine.after state calls) := by
  induction calls generalizing state with
  | nil => exact start
  | cons call rest ih =>
    apply ih
    · exact kept state call List.mem_cons_self start
    · intro state other mem
      exact kept state other (List.mem_cons_of_mem call mem)

theorem after_persists (holds : σ → Prop) (ends : Call × Answer → Prop) (start : holds state)
    (kept : ∀ state, ∀ call ∈ calls, holds state → ends (call, (machine.step state call).1) ∨
        holds (machine.step state call).2) : (∃ entry ∈ machine.history state calls, ends entry) ∨
      holds (machine.after state calls) := by
  induction calls generalizing state with
  | nil => exact .inr start
  | cons call rest ih =>
    rcases kept state call List.mem_cons_self start with ended | holds
    · exact .inl ⟨_, List.mem_cons_self, ended⟩
    · have onward := ih holds fun state other mem =>
        kept state other (List.mem_cons_of_mem call mem)
      rcases onward with ⟨entry, mem, ended⟩ | holds
      · exact .inl ⟨entry, List.mem_cons_of_mem _ mem, ended⟩
      · exact .inr holds

/-- What one call keeps exactly if it fits is kept by a sequence of calls exactly
if each of them fits. -/
theorem throughout_iff (always holds : σ → Prop) (fits : σ → Call → Prop) (base : always state)
    (start : holds state) (kept : ∀ state call, always state → always (machine.step state call).2)
    (step : ∀ state call, always state → holds state →
      (holds (machine.step state call).2 ↔ fits state call)) :
    (∀ front, front <+: calls → holds (machine.after state front)) ↔
      ∀ visit ∈ machine.visits state calls, fits visit.1 visit.2 := by
  induction calls generalizing state with
  | nil => simp [visits, start]
  | cons call rest ih =>
    rw [visits, List.forall_mem_cons]
    constructor
    · intro all
      have next := all [call] (by simp)
      refine ⟨(step state call base start).mp next, (ih (kept state call base) next).mp ?_⟩
      exact fun front initial => all (call :: front) (by simpa using initial)
    · rintro ⟨first, later⟩ front initial
      rcases List.prefix_cons_iff.mp initial with rfl | ⟨front, rfl, within⟩
      · exact start
      · have next := (step state call base start).mpr first
        exact (ih (kept state call base) next).mpr later front within

theorem exists_of_history_eq_append
    (whole : machine.history state calls = first ++ second) : ∃ front back, calls = front ++ back ∧
      machine.history state front = first ∧
      machine.history (machine.after state front) back = second := by
  induction first generalizing state calls with
  | nil => exact ⟨[], calls, rfl, rfl, whole⟩
  | cons entry rest ih =>
    cases calls with
    | nil => cases whole
    | cons call calls =>
      obtain ⟨same, onward⟩ := List.cons.inj whole
      obtain ⟨front, back, rfl, early, late⟩ := ih onward
      exact ⟨call :: front, back, rfl, by rw [history, same, early], late⟩

theorem exists_of_history_eq_cons
    (whole : machine.history state calls = entry :: rest) : ∃ later, calls = entry.1 :: later ∧
      (machine.step state entry.1).1 = entry.2 ∧
      machine.history (machine.step state entry.1).2 later = rest := by
  cases calls with
  | nil => cases whole
  | cons call calls =>
    obtain ⟨rfl, onward⟩ := List.cons.inj whole
    exact ⟨calls, rfl, rfl, onward⟩

end Machine

end Effect
