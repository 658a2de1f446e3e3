import CacheCleaner.Idle.Gating

namespace CacheCleaner

open Ipc (IdleState ThermalHysteresisState MaintenanceEligibility)

variable {ctx ctx' : IdleContext} {thermal thermal' : ThermalHysteresisState}
  {gracePeriod : Nat} {current : IdleState}

namespace IdlePolicy

open IdleContext

theorem rate_evaluate : (evaluate ctx current thermal gracePeriod).rateLimitOpsPerSec =
      match thermal with
      | .critical | .hot => 0
      | .warm => 300
      | .normal =>
        if below ctx.ioPsiPct 8 then
          if below ctx.cpuPsiPct 10 then 500 else 150
        else 50 := by
  have tally := weighs ctx thermal gracePeriod
  change rateLimitOpsPerSec thermal ((ctx.marks thermal gracePeriod).filterMap Mark.blocker?) = _
  unfold rateLimitOpsPerSec
  rw [tally.cpu, tally.io]
  cases thermal with
  | normal =>
    cases below ctx.ioPsiPct 8 <;> cases below ctx.cpuPsiPct 10 <;> rfl
  | warm => rfl
  | hot => rfl
  | critical => rfl

theorem not_below_iff : below reading bound = false ↔
      ∃ pct, reading.value = some pct ∧ bound ≤ pct := by
  cases found : reading.value <;> simp [below, found]

theorem rate_le_of_lower (cpu : Lower ctx'.cpuPsiPct ctx.cpuPsiPct)
    (io : Lower ctx'.ioPsiPct ctx.ioPsiPct) :
    (evaluate ctx' current thermal gracePeriod).rateLimitOpsPerSec ≤
      (evaluate ctx current thermal gracePeriod).rateLimitOpsPerSec := by
  rw [rate_evaluate, rate_evaluate]
  cases thermal with
  | normal =>
    dsimp only
    by_cases easy : below ctx'.ioPsiPct 8 = true
    · rw [if_pos easy, if_pos (io.below easy)]
      by_cases light : below ctx'.cpuPsiPct 10 = true
      · rw [if_pos light, if_pos (cpu.below light)]
      · rw [if_neg light]
        split <;> omega
    · rw [if_neg easy]
      repeat' split
      all_goals omega
  | warm => exact Nat.le_refl _
  | hot => exact Nat.le_refl _
  | critical => exact Nat.le_refl _

def Pressed (ctx : IdleContext) : Prop :=
  (∃ pct, ctx.cpuPsiPct.value = some pct ∧ 10 ≤ pct) ∨
    ∃ pct, ctx.ioPsiPct.value = some pct ∧ 8 ≤ pct

theorem pressed_iff : Pressed ctx ↔
    below ctx.cpuPsiPct 10 = false ∨ below ctx.ioPsiPct 8 = false := by
  rw [not_below_iff, not_below_iff]
  exact Iff.rfl

theorem warm_le_normal_iff : (evaluate ctx' current .warm gracePeriod).rateLimitOpsPerSec ≤
        (evaluate ctx current .normal gracePeriod).rateLimitOpsPerSec ↔ ¬Pressed ctx := by
  rw [rate_evaluate, rate_evaluate, pressed_iff]
  cases below ctx.ioPsiPct 8 <;> cases below ctx.cpuPsiPct 10 <;> simp

/-- The caps compose, and a worse device works no faster, exactly as long as
it is not both warm and pressed. -/
theorem rate_capped_iff (ctx : IdleContext) (current : IdleState)
    (thermal : ThermalHysteresisState) (gracePeriod : Nat) :
    ((thermal = .hot ∨ thermal = .critical →
        (evaluate ctx current thermal gracePeriod).rateLimitOpsPerSec ≤ 0) ∧ (thermal = .warm →
        (evaluate ctx current thermal gracePeriod).rateLimitOpsPerSec ≤ 300) ∧
      ((∃ pct, ctx.cpuPsiPct.value = some pct ∧ 10 ≤ pct) →
        (evaluate ctx current thermal gracePeriod).rateLimitOpsPerSec ≤ 150) ∧
      ((∃ pct, ctx.ioPsiPct.value = some pct ∧ 8 ≤ pct) →
        (evaluate ctx current thermal gracePeriod).rateLimitOpsPerSec ≤ 50) ↔
      ¬(thermal = .warm ∧ Pressed ctx)) ∧
    ∀ (ctx' : IdleContext) (thermal' : ThermalHysteresisState), thermal.level ≤ thermal'.level →
      Lower ctx'.cpuPsiPct ctx.cpuPsiPct → Lower ctx'.ioPsiPct ctx.ioPsiPct →
      ((evaluate ctx' current thermal' gracePeriod).rateLimitOpsPerSec ≤
          (evaluate ctx current thermal gracePeriod).rateLimitOpsPerSec ↔
        ¬(thermal = .normal ∧ thermal' = .warm ∧ Pressed ctx)) := by
  constructor
  · rw [pressed_iff, ← not_below_iff, ← not_below_iff, rate_evaluate]
    cases thermal with
    | normal =>
      cases below ctx.ioPsiPct 8 <;> cases below ctx.cpuPsiPct 10 <;> simp
    | warm =>
      cases below ctx.ioPsiPct 8 <;> cases below ctx.cpuPsiPct 10 <;> simp
    | hot => simp
    | critical => simp
  · intro ctx' thermal' hotter cpu io
    by_cases same : thermal' = thermal
    · subst same
      apply iff_of_true (rate_le_of_lower cpu io)
      rintro ⟨rfl, clash, -⟩
      cases clash
    · by_cases warmed : thermal = .normal ∧ thermal' = .warm
      · obtain ⟨rfl, rfl⟩ := warmed
        simpa using warm_le_normal_iff
      · apply iff_of_true
        · rw [rate_evaluate]
          cases thermal <;> cases thermal' <;> simp_all [ThermalHysteresisState.level]
        · rintro ⟨cool, warm, -⟩
          exact warmed ⟨cool, warm⟩

theorem warm_ignores_pressure : Pressed { resting with ioPsiPct := ⟨some 8, .available⟩ } ∧
    (evaluate { resting with ioPsiPct := ⟨some 8, .available⟩ } .active
      .normal 300).rateLimitOpsPerSec = 50 ∧
    (evaluate { resting with ioPsiPct := ⟨some 8, .available⟩ } .active
      .warm 300).rateLimitOpsPerSec = 300 := by
  refine ⟨.inr ⟨8, rfl, le_refl 8⟩, by decide, by decide⟩

theorem rate_capped_iff_cool : ¬Pressed resting ∧
    (evaluate resting .active .hot 300).rateLimitOpsPerSec ≤
      (evaluate resting .active .warm 300).rateLimitOpsPerSec := by
  have eased : ¬Pressed resting := by
    rw [pressed_iff]
    decide
  have slower := (rate_capped_iff resting .active .warm 300).2 resting .hot
    (by decide) (le_refl 4) trivial
  exact ⟨eased, slower.mpr fun normal => by cases normal.1⟩

end IdlePolicy

namespace Ipc.ThermalHysteresisState

def heat (state : ThermalHysteresisState) (temps : List ℚ) : ThermalHysteresisState :=
  temps.foldl nextState state

theorem heat_concat : heat state (temps ++ [temp]) = (heat state temps).nextState temp := by
  rw [heat, List.foldl_concat]
  rfl

variable {state : ThermalHysteresisState} {temp : ℚ}

def Overheated (state : ThermalHysteresisState) : Prop := state = .hot ∨ state = .critical

theorem nextState_eq_critical_iff : state.nextState temp = .critical ↔ 50 ≤ temp := by
  unfold nextState
  by_cases boiling : 50 ≤ temp
  · simp [boiling]
  · rw [if_neg boiling]
    apply iff_of_false _ boiling
    repeat' split
    all_goals exact fun clash => by cases clash

theorem heat_eq_critical_iff : heat .normal temps = .critical ↔
      ∃ temp, temps.getLast? = some temp ∧ 50 ≤ temp := by
  rcases List.eq_nil_or_concat' temps with rfl | ⟨front, last, rfl⟩
  · simp [heat]
  · rw [heat_concat, nextState_eq_critical_iff, List.getLast?_concat]
    simp

theorem overheated_of_le (hot : 45 ≤ temp) : (state.nextState temp).Overheated := by
  unfold nextState
  split
  · exact .inr rfl
  · exact .inl rfl

theorem nextState_between (above : 40 < temp) (under : temp < 45) :
    state.nextState temp = if state = .hot then .hot else .warm := by
  have mild : ¬50 ≤ temp := by linarith
  unfold nextState
  rw [if_neg mild, if_neg (not_le.mpr under), if_pos above]
  cases state <;> rfl

def Drops (temps : List ℚ) : Prop :=
  ∃ before boiling warm later, temps = before ++ boiling :: warm :: later ∧
    50 ≤ boiling ∧ 40 < warm ∧ warm < 45

theorem overheated_heat {hot : ℚ} (start : 45 ≤ hot)
    (warm : ∀ temp ∈ since, 40 < temp) (gradual : ¬Drops (before ++ hot :: since)) :
    (heat state (before ++ hot :: since)).Overheated := by
  induction since using List.reverseRecOn with
  | nil =>
    rw [heat_concat]
    exact overheated_of_le start
  | append_singleton since temp ih =>
    have gradual' : ¬Drops (before ++ hot :: since) := by
      rintro ⟨front, boiling, cool, later, split, drop⟩
      apply gradual
      exact ⟨front, boiling, cool, later ++ [temp], by
        rw [← List.cons_append, ← List.append_assoc, split]
        simp, drop⟩
    have ongoing := ih (fun temp mem => warm temp (List.mem_append_left _ mem)) gradual'
    rw [← List.cons_append, ← List.append_assoc, heat_concat]
    by_cases again : 45 ≤ temp
    · exact overheated_of_le again
    · have above : 40 < temp := warm temp (by simp)
      have under : temp < 45 := not_le.mp again
      rw [nextState_between above under]
      rcases ongoing with still | boiling
      · rw [if_pos still]
        exact .inl rfl
      · -- the reading before was critical, so this one is a drop
        exfalso
        obtain ⟨front, last, ends⟩ := List.eq_nil_or_concat' (hot :: since)
          |>.resolve_left (List.cons_ne_nil hot since)
        rw [ends, ← List.append_assoc, heat_concat, nextState_eq_critical_iff] at boiling
        apply gradual
        exact ⟨before ++ front, last, temp, [], by
          rw [← List.cons_append, ends]
          simp, boiling, above, under⟩

structure Halts (state : ThermalHysteresisState) : Prop where
  overheated : state = .hot ∨ state = .critical
  standard : ∀ ctx current gracePeriod,
    (IdlePolicy.evaluate ctx current state gracePeriod).standardMaintenance ≠ .allowed
  heavy : ∀ ctx current gracePeriod,
    (IdlePolicy.evaluate ctx current state gracePeriod).heavyMaintenance ≠ .allowed
  rate : ∀ ctx current gracePeriod,
    (IdlePolicy.evaluate ctx current state gracePeriod).rateLimitOpsPerSec = 0

theorem Overheated.halts (hot : state.Overheated) : state.Halts := by
  have standard : ∀ ctx current gracePeriod, (IdlePolicy.evaluate ctx current state
        gracePeriod).standardMaintenance ≠ .allowed := by
    intro ctx current gracePeriod allowed
    have gate := IdlePolicy.standard_allowed_iff.mp allowed
    rcases hot with hot | critical
    · exact gate.1 hot
    · exact gate.2.1 critical
  refine ⟨hot, standard, ?_, ?_⟩
  · intro ctx current gracePeriod allowed
    exact standard ctx current gracePeriod (IdlePolicy.heavy_allowed_iff.mp allowed).1
  · intro ctx current gracePeriod
    rw [IdlePolicy.rate_evaluate]
    rcases hot with rfl | rfl <;> rfl

/-- A device that was hot is halted until it has cooled, exactly when no
reading drops from the critical range into the warm one. -/
theorem cools_first_iff (temps : List ℚ) :
    (∀ before hot since later, temps = before ++ hot :: since ++ later →
      45 ≤ hot → (∀ temp ∈ since, 40 < temp) → (heat .normal (before ++ hot :: since)).Halts) ↔
    ¬∃ before boiling warm later, temps = before ++ boiling :: warm :: later ∧
        50 ≤ boiling ∧ 40 < warm ∧ warm < 45 := by
  constructor
  · rintro halts ⟨before, boiling, warm, later, rfl, critical, above, under⟩
    have halted := halts before boiling [warm] later (by simp) (by linarith) (by simpa using above)
    have fallen : heat .normal (before ++ [boiling, warm]) = .warm := by
      rw [List.append_cons, heat_concat, heat_concat, nextState_between above under,
        nextState_eq_critical_iff.mpr critical]
      rfl
    rw [fallen] at halted
    rcases halted.overheated with clash | clash <;> cases clash
  · rintro gradual before hot since later rfl start warm
    apply Overheated.halts
    apply overheated_heat start warm
    rintro ⟨front, boiling, cool, rest, split, drop⟩
    apply gradual
    exact ⟨front, boiling, cool, rest ++ later, by
      rw [split]
      simp, drop⟩

theorem critical_to_warm : heat .normal [52, 42] = .warm ∧
    (IdlePolicy.evaluate IdlePolicy.resting .active (heat .normal [52, 42])
      300).standardMaintenance = .allowed ∧
    (IdlePolicy.evaluate IdlePolicy.resting .active (heat .normal [52, 42])
      300).rateLimitOpsPerSec = 300 := by
  decide

theorem cools_first_iff_slow : (heat .normal [52, 47, 42]).Halts := by
  apply (cools_first_iff [52, 47, 42]).mpr _ [] 52 [47, 42] [] rfl
  · norm_num
  · norm_num
  · rintro ⟨before, boiling, warm, later, split, critical, above, under⟩
    match before, split with
    | [], split =>
      cases split
      norm_num at under
    | [_], split =>
      cases split
      norm_num at critical
    | [_, _], split => cases split
    | _ :: _ :: _ :: _, split => simp at split

end Ipc.ThermalHysteresisState

end CacheCleaner
