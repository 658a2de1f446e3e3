import CacheCleaner.Effect.Machine

namespace Effect

section

variable {K : Type} [Field K] [LinearOrder K]

def supply (rate start stop : K) : List (K × Option K) → K
  | [] => rate * (stop - start)
  | (time, change) :: rest =>
    let cut := max start (min time stop)
    rate * (cut - start) + supply (change.getD rate) cut stop rest

variable {rate start stop time : K} {change : Option K} {rest : List (K × Option K)}

theorem supply_before (early : time ≤ start) : supply rate start stop ((time, change) :: rest) =
      supply (change.getD rate) start stop rest := by
  have cut : max start (min time stop) = start := max_eq_left ((min_le_left _ _).trans early)
  rw [supply, cut]
  simp

theorem supply_within (late : start ≤ time) (early : time ≤ stop) :
    supply rate start stop ((time, change) :: rest) =
      rate * (time - start) + supply (change.getD rate) time stop rest := by
  rw [supply, min_eq_left early, max_eq_right late]

theorem supply_self : supply rate stop stop changes = 0 := by
  induction changes generalizing rate with
  | nil => simp [supply]
  | cons first rest ih =>
    have cut : max stop (min first.1 stop) = stop := max_eq_left (min_le_right _ _)
    rw [supply, cut, ih]
    simp

theorem supply_after (ordered : start ≤ stop) (late : stop ≤ time) :
    supply rate start stop ((time, change) :: rest) = rate * (stop - start) := by
  rw [supply, min_eq_right late, max_eq_right ordered, supply_self]
  simp

end

namespace Machine

section

variable {K σ Call : Type} [LinearOrder K] {machine : Machine σ (K × Call) Bool}

def passed (machine : Machine σ (K × Call) Bool) (start stop : K) (state : σ)
    (calls : List (K × Call)) : Nat :=
  (machine.history state calls).countP fun entry =>
    entry.2 && decide (start ≤ entry.1.1) && decide (entry.1.1 ≤ stop)

theorem passed_cons : machine.passed start stop state (call :: rest) =
      machine.passed start stop (machine.step state call).2 rest +
        if start ≤ call.1 ∧ call.1 ≤ stop then
          (machine.step state call).1.toNat
        else 0 := by
  unfold passed
  rw [history, List.countP_cons]
  congr 1
  cases (machine.step state call).1 <;>
    by_cases late : start ≤ call.1 <;> by_cases early : call.1 ≤ stop <;> simp [late, early]

theorem passed_eq_zero
    (late : ∀ call ∈ calls, stop < call.1) : machine.passed start stop state calls = 0 := by
  induction calls generalizing state with
  | nil => rfl
  | cons call rest ih =>
    obtain ⟨first, others⟩ := List.forall_mem_cons.mp late
    rw [passed_cons, ih others, if_neg fun inside => not_le.mpr first inside.2]

end

variable {K σ Call : Type} [Field K] [LinearOrder K] {machine : Machine σ (K × Call) Bool}

/-- A machine with a level that what passes is taken from: it is bounded, and
between calls it rises by no more than the rate. -/
structure Metered (machine : Machine σ (K × Call) Bool)
    (change : Call → Option K) (rate : σ → K) (level : σ → K → K) (bound : K)
    (sound : σ → K → Prop) (fair : σ → K × Call → Prop) : Prop where
  rate_nonneg : ∀ state, 0 ≤ rate state
  rate_step : ∀ state time call,
    rate (machine.step state (time, call)).2 = (change call).getD (rate state)
  sound_later : ∀ state time later, sound state time → time ≤ later → sound state later
  sound_step : ∀ state time call, sound state time → sound (machine.step state (time, call)).2 time
  level_nonneg : ∀ state time, sound state time → 0 ≤ level state time
  level_le : ∀ state time, sound state time → level state time ≤ bound
  level_later : ∀ state time later, sound state time → time ≤ later →
    level state later ≤ level state time + rate state * (later - time)
  level_step : ∀ state time call, sound state time → fair state (time, call) →
    level (machine.step state (time, call)).2 time + (machine.step state (time, call)).1.toNat ≤
      level state time

namespace Metered

variable {change : Call → Option K} {rate : σ → K} {level : σ → K → K}
  {bound : K} {sound : σ → K → Prop} {fair : σ → K × Call → Prop}
  (metered : machine.Metered change rate level bound sound fair)

variable {calls : List (K × Call)} {state : σ}

def changes (change : Call → Option K) (calls : List (K × Call)) : List (K × Option K) :=
  calls.map fun call => (call.1, change call.2)

include metered

theorem sound_after (here : sound state origin)
    (ordered : calls.Pairwise fun early late => early.1 ≤ late.1)
    (future : ∀ call ∈ calls, origin ≤ call.1) :
    ∃ time, sound (machine.after state calls) time := by
  induction calls generalizing state origin with
  | nil => exact ⟨origin, here⟩
  | cons call rest ih =>
    obtain ⟨soon, later⟩ := List.pairwise_cons.mp ordered
    obtain ⟨next, -⟩ := List.forall_mem_cons.mp future
    apply ih _ later soon
    apply metered.sound_step
    exact metered.sound_later state origin call.1 here next

variable [IsStrictOrderedRing K]

theorem passed_le_level (here : sound state now)
    (ordered : calls.Pairwise fun early late => early.1 ≤ late.1)
    (future : ∀ call ∈ calls, now ≤ call.1)
    (fairly : ∀ visit ∈ machine.visits state calls, fair visit.1 visit.2)
    (begun : start ≤ now) (proper : now ≤ stop) : (machine.passed start stop state calls : K) ≤
      level state now + supply (rate state) now stop (changes change calls) := by
  have filled := metered.level_nonneg state now here
  have flows : 0 ≤ rate state * (stop - now) :=
    mul_nonneg (metered.rate_nonneg state) (sub_nonneg.mpr proper)
  induction calls generalizing state now with
  | nil =>
    change ((0 : Nat) : K) ≤ level state now + rate state * (stop - now)
    rw [Nat.cast_zero]
    exact add_nonneg filled flows
  | cons call rest ih =>
    obtain ⟨time, call⟩ := call
    obtain ⟨soon, later⟩ := List.pairwise_cons.mp ordered
    obtain ⟨next, -⟩ := List.forall_mem_cons.mp future
    obtain ⟨fairNow, fairLater⟩ := List.forall_mem_cons.mp fairly
    change now ≤ time at next
    change fair state (time, call) at fairNow
    by_cases inside : time ≤ stop
    · have there := metered.sound_later state now time here next
      have stepped := metered.sound_step state time call there
      have onward := ih stepped later soon fairLater
        (begun.trans next) inside (metered.level_nonneg _ _ stepped)
        (mul_nonneg (metered.rate_nonneg _) (sub_nonneg.mpr inside))
      have spent := metered.level_step state time call there fairNow
      have risen := metered.level_later state now time here next
      rw [metered.rate_step] at onward
      rw [passed_cons, if_pos ⟨begun.trans next, inside⟩, changes,
        List.map_cons, supply_within next inside]
      rw [changes] at onward
      push_cast
      linarith
    · have after : ∀ other ∈ (time, call) :: rest, stop < other.1 := by
        intro other mem
        have least : time ≤ other.1 := by
          rcases List.mem_cons.mp mem with rfl | mem
          · exact le_refl _
          · exact soon other mem
        exact lt_of_lt_of_le (not_le.mp inside) least
      rw [passed_eq_zero after, changes, List.map_cons,
        supply_after proper (not_le.mp inside).le, Nat.cast_zero]
      exact add_nonneg filled flows

theorem passed_le_of_begun (here : sound state start)
    (ordered : calls.Pairwise fun early late => early.1 ≤ late.1)
    (future : ∀ call ∈ calls, start ≤ call.1)
    (fairly : ∀ visit ∈ machine.visits state calls, fair visit.1 visit.2) (proper : start ≤ stop) :
    (machine.passed start stop state calls : K) ≤
      bound + supply (rate state) start stop (changes change calls) := by
  have paid := metered.passed_le_level here ordered future fairly (le_refl start) proper
  have bounded := metered.level_le state start here
  linarith

theorem passed_le (here : sound state origin)
    (ordered : calls.Pairwise fun early late => early.1 ≤ late.1)
    (future : ∀ call ∈ calls, origin ≤ call.1)
    (fairly : ∀ visit ∈ machine.visits state calls, fair visit.1 visit.2)
    (begun : origin ≤ start) (proper : start ≤ stop) : (machine.passed start stop state calls : K) ≤
      bound + supply (rate state) start stop (changes change calls) := by
  induction calls generalizing state origin with
  | nil =>
    apply metered.passed_le_of_begun _ ordered _ fairly proper
    · exact metered.sound_later state origin start here begun
    · exact List.forall_mem_nil _
  | cons call rest ih =>
    obtain ⟨soon, later⟩ := List.pairwise_cons.mp ordered
    by_cases inside : start ≤ call.1
    · apply metered.passed_le_of_begun _ ordered _ fairly proper
      · exact metered.sound_later state origin start here begun
      · exact List.forall_mem_cons.mpr ⟨inside, fun other mem => inside.trans (soon other mem)⟩
    · obtain ⟨time, call⟩ := call
      obtain ⟨next, -⟩ := List.forall_mem_cons.mp future
      obtain ⟨-, fairLater⟩ := List.forall_mem_cons.mp fairly
      have early : time ≤ start := (not_le.mp inside).le
      have stepped := metered.sound_step state time call
        (metered.sound_later state origin time here next)
      have onward := ih stepped later soon fairLater early
      rw [metered.rate_step] at onward
      rw [passed_cons, if_neg fun both => inside both.1, changes,
        List.map_cons, supply_before early]
      exact onward

end Metered

end Machine

end Effect
