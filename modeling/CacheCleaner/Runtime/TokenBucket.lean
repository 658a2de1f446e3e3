import CacheCleaner.Runtime.RateLimiter
import CacheCleaner.Effect.Meter

namespace CacheCleaner

/-! What the token bucket lets through in a window of time.  A call of
`acquire` is a number of looks at the bucket, and between them others may set
the mode. -/

inductive BucketCall where
  | setMode (mode : ThrottleMode)
  | look
  deriving DecidableEq, Repr

namespace BucketState

def bucket : Effect.Machine BucketState (ℚ × BucketCall) Bool where
  step state
    | (_, .setMode mode) => (false, state.setMode mode)
    | (now, .look) =>
      match state.look now with
      | .paused => (false, state)
      | .granted state => (true, state)
      | .asleep state _ => (false, state)

open Effect (Machine supply)

variable {state : BucketState} {now next : ℚ} {mode : ThrottleMode}

theorem step_setMode : bucket.step state (now, .setMode mode) = (false, state.setMode mode) := rfl

theorem step_look : bucket.step state (now, .look) = if state.opsPerSec = 0 then (false, state)
    else
      let tokens := min (state.tokens + (now - state.lastRefill) * state.opsPerSec) state.capacity
      if 1 ≤ tokens then
        (true, { state with tokens := tokens - 1, lastRefill := now })
      else (false, { state with tokens, lastRefill := now }) := by
  simp only [bucket, look]
  by_cases paused : state.opsPerSec = 0
  · simp [paused]
  · simp only [if_neg paused]
    split_ifs <;> rfl

theorem one_le_capacityOf (rate : Nat) : 1 ≤ capacityOf rate := le_max_left _ _

theorem capacityOf_le : capacityOf rate ≤ maxBurstCapacity := by
  apply max_le
  · norm_num [maxBurstCapacity]
  · exact min_le_right _ _

theorem capacityOf_mono (slower : rate ≤ rate') : capacityOf rate ≤ capacityOf rate' := by
  apply max_le_max (le_refl 1)
  exact min_le_min (Nat.cast_le.mpr slower) (le_refl _)

structure Sound (state : BucketState) (now : ℚ) : Prop where
  nonneg : 0 ≤ state.tokens
  fits : state.tokens ≤ state.capacity
  capacity : state.capacity = capacityOf state.opsPerSec
  past : state.lastRefill ≤ now

def level (state : BucketState) (now : ℚ) : ℚ :=
  min (state.tokens + (now - state.lastRefill) * state.opsPerSec) state.capacity

/-- A rate is raised only with no time left to refill for, or with the new
capacity already reached at the old rate. -/
def Settled (state : BucketState) : ℚ × BucketCall → Prop
  | (now, .setMode mode) =>
    mode.targetOpsPerSec ≤ state.opsPerSec ∨ state.lastRefill = now ∨
      capacityOf mode.targetOpsPerSec ≤
        min (state.tokens + (now - state.lastRefill) * state.opsPerSec) state.capacity
  | (_, .look) => True

instance (state : BucketState) : (entry : ℚ × BucketCall) → Decidable (Settled state entry)
  | (_, .setMode _) => inferInstanceAs (Decidable (_ ∨ _ ∨ _))
  | (_, .look) => inferInstanceAs (Decidable True)

theorem Sound.new (mode : ThrottleMode) (now : ℚ) : Sound (BucketState.new mode now) now where
  nonneg := zero_le_one.trans (one_le_capacityOf _)
  fits := le_refl _
  capacity := rfl
  past := le_refl _

theorem Sound.later (sound : Sound state now) (passes : now ≤ next) : Sound state next :=
  ⟨sound.nonneg, sound.fits, sound.capacity, sound.past.trans passes⟩

theorem Sound.refill_nonneg (sound : Sound state now) :
    0 ≤ (now - state.lastRefill) * state.opsPerSec :=
  mul_nonneg (sub_nonneg.mpr sound.past) (Nat.cast_nonneg _)

theorem Sound.level_nonneg (sound : Sound state now) : 0 ≤ level state now := by
  apply le_min
  · exact add_nonneg sound.nonneg sound.refill_nonneg
  · exact sound.nonneg.trans sound.fits

theorem Sound.level_le (sound : Sound state now) : level state now ≤ maxBurstCapacity := by
  apply (min_le_right _ _).trans
  rw [sound.capacity]
  exact capacityOf_le

theorem level_later (passes : now ≤ next) :
    level state next ≤ level state now + state.opsPerSec * (next - now) := by
  have rises : 0 ≤ (state.opsPerSec : ℚ) * (next - now) :=
    mul_nonneg (Nat.cast_nonneg _) (sub_nonneg.mpr passes)
  unfold level
  rw [← min_add_add_right]
  apply min_le_min
  · apply le_of_eq
    ring
  · linarith

theorem Sound.setMode (sound : Sound state now) : Sound (state.setMode mode) now := by
  have room := one_le_capacityOf mode.targetOpsPerSec
  constructor
  · change 0 ≤ ite _ _ _
    split
    · linarith
    · exact sound.nonneg
  · change ite _ _ _ ≤ capacityOf mode.targetOpsPerSec
    split
    · exact le_refl _
    · rename_i small
      exact not_lt.mp small
  · rfl
  · exact sound.past

theorem Sound.look (sound : Sound state now) : Sound (bucket.step state (now, .look)).2 now := by
  have filled := sound.level_nonneg
  unfold level at filled
  rw [step_look]
  split
  · exact sound
  · dsimp only
    split
    · rename_i granted
      constructor
      · exact sub_nonneg.mpr granted
      · exact (sub_le_self _ zero_le_one).trans (min_le_right _ _)
      · exact sound.capacity
      · exact le_refl now
    · exact ⟨filled, min_le_right _ _, sound.capacity, le_refl now⟩

theorem level_look : level (bucket.step state (now, .look)).2 now +
        (bucket.step state (now, .look)).1.toNat ≤ level state now := by
  rw [step_look]
  split
  · simp
  · dsimp only
    split
    · simp [level]
    · simp [level]

theorem level_setMode (sound : Sound state now) : level (state.setMode mode) now =
      min (state.tokens + (now - state.lastRefill) * mode.targetOpsPerSec)
        (capacityOf mode.targetOpsPerSec) := by
  have refill : 0 ≤ (now - state.lastRefill) * (mode.targetOpsPerSec : ℚ) :=
    mul_nonneg (sub_nonneg.mpr sound.past) (Nat.cast_nonneg _)
  change min ((if capacityOf mode.targetOpsPerSec < state.tokens then
    capacityOf mode.targetOpsPerSec else state.tokens) +
      (now - state.lastRefill) * mode.targetOpsPerSec)
    (capacityOf mode.targetOpsPerSec) = _
  split
  · rename_i clamped
    rw [min_eq_right (by linarith), min_eq_right (by linarith)]
  · rfl

theorem level_setMode_le_iff (sound : Sound state now) :
    level (state.setMode mode) now ≤ level state now ↔ Settled state (now, .setMode mode) := by
  rw [level_setMode sound]
  constructor
  · intro kept
    by_contra unsettled
    simp only [Settled, not_or, not_le] at unsettled
    obtain ⟨faster, unrefilled, small⟩ := unsettled
    have elapsed : 0 < now - state.lastRefill := sub_pos.mpr (lt_of_le_of_ne sound.past unrefilled)
    have gain : (now - state.lastRefill) * (state.opsPerSec : ℚ) <
        (now - state.lastRefill) * mode.targetOpsPerSec :=
      mul_lt_mul_of_pos_left (Nat.cast_lt.mpr faster) elapsed
    have below : level state now ≤ state.tokens + (now - state.lastRefill) * state.opsPerSec :=
      min_le_left _ _
    rcases min_le_iff.mp kept with filled | full
    · linarith
    · exact absurd full (not_le.mpr small)
  · rintro (slower | refilled | full)
    · apply min_le_min
      · have less := mul_le_mul_of_nonneg_left
          (Nat.cast_le (α := ℚ) |>.mpr slower) (sub_nonneg.mpr sound.past)
        linarith
      · rw [sound.capacity]
        exact capacityOf_mono slower
    · rw [refilled, sub_self, zero_mul, add_zero]
      apply (min_le_left _ _).trans
      apply le_min
      · rw [refilled, sub_self, zero_mul, add_zero]
      · exact sound.fits
    · exact (min_le_right _ _).trans full

end BucketState

def BucketCall.rate : BucketCall → Option ℚ
  | .setMode mode => some mode.targetOpsPerSec
  | .look => none

namespace BucketState

open Effect (Machine supply)

theorem metered : bucket.Metered BucketCall.rate (fun state => state.opsPerSec)
    level maxBurstCapacity Sound Settled where
  rate_nonneg _ := Nat.cast_nonneg _
  rate_step state now call := by
    cases call with
    | setMode mode => rfl
    | look =>
      rw [step_look]
      split
      · rfl
      · dsimp only
        split <;> rfl
  sound_later _ _ _ sound passes := sound.later passes
  sound_step state now call sound := by
    cases call with
    | setMode mode => exact sound.setMode
    | look => exact sound.look
  level_nonneg _ _ sound := sound.level_nonneg
  level_le _ _ sound := sound.level_le
  level_later _ _ _ _ passes := level_later passes
  level_step state now call sound settled := by
    cases call with
    | setMode mode =>
      rw [step_setMode, Bool.toNat_false, Nat.cast_zero, add_zero]
      exact (level_setMode_le_iff sound).mpr settled
    | look => exact level_look

/-- The tokens stay within the bucket.  What passes in a window is at most a
burst and the integral of the rate, as long as no rate is raised over time
that is still to be refilled for. -/
theorem no_windfall (mode : ThrottleMode) (origin : ℚ) (calls : List (ℚ × BucketCall))
    (ordered : calls.Pairwise fun early late => early.1 ≤ late.1)
    (future : ∀ call ∈ calls, origin ≤ call.1) : (∀ before later, calls = before ++ later →
      0 ≤ (bucket.after (new mode origin) before).tokens ∧
      (bucket.after (new mode origin) before).tokens ≤
        (bucket.after (new mode origin) before).capacity) ∧
    ((∀ visit ∈ bucket.visits (new mode origin) calls, Settled visit.1 visit.2) →
      ∀ start stop, origin ≤ start → start ≤ stop →
        (bucket.passed start stop (new mode origin) calls : ℚ) ≤
          32 + supply (mode.targetOpsPerSec : ℚ) start stop
            (calls.map fun call => (call.1, call.2.rate))) := by
  constructor
  · rintro before later rfl
    obtain ⟨time, sound⟩ := metered.sound_after (Sound.new mode origin)
      (List.pairwise_append.mp ordered).1
      (fun call member => future call (List.mem_append_left _ member))
    exact ⟨sound.nonneg, sound.fits⟩
  · intro settled start stop begun proper
    exact metered.passed_le (Sound.new mode origin) ordered future settled begun proper

/-- A burst, a pause and a second in it: the switch back to normal refills for
the pause. -/
def paused : List (ℚ × BucketCall) :=
  List.replicate 32 (0, .look) ++ [(0, .setMode .paused), (1, .setMode .normal), (1, .look)]

theorem pause_earns : bucket.passed 0 1 (new .normal 0) paused = 33 ∧
    supply ((ThrottleMode.normal.targetOpsPerSec : ℚ)) 0 1
      (paused.map fun call => (call.1, call.2.rate)) = 0 := by
  decide +kernel

theorem no_windfall_settled : (bucket.passed 0 1 (new .normal 0)
      [(0, .setMode .ioPressure), (1, .look), (1, .setMode .normal)] : ℚ) ≤
    32 + supply ((ThrottleMode.normal.targetOpsPerSec : ℚ)) 0 1
      [(0, some 50), (1, none), (1, some 500)] :=
  (no_windfall .normal 0 [(0, .setMode .ioPressure), (1, .look), (1, .setMode .normal)]
    (by decide) (by decide)).2 (by decide +kernel) 0 1 (le_refl 0) zero_le_one

variable {state after : BucketState} {now next : ℚ}

end BucketState

end CacheCleaner
