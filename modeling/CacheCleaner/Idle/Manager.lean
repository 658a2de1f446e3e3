import CacheCleaner.Idle.Thermal
import CacheCleaner.Effect.Machine

namespace CacheCleaner

/-! The idle manager: a grace period kept over a sequence of calls.  The clock
is read once a call. -/

open Ipc (IdleState ThermalHysteresisState)

structure IdleManager where
  state : IdleState
  candidateSince : Option Instant
  lastActivity : Option Instant
  thermalState : ThermalHysteresisState
  gracePeriod : Nat

namespace IdleManager

def new (gracePeriod : Nat) : IdleManager where
  state := .active
  candidateSince := none
  lastActivity := none
  thermalState := .normal
  gracePeriod

def candidateAfter (candidateSince : Option Instant) (now : Instant) : ScreenState → Option Instant
  | .off => candidateSince.or (some now)
  | .on => none
  | .unknown => candidateSince

def timed (candidateSince : Option Instant) (now : Instant) (ctx : IdleContext) : IdleContext :=
  match candidateSince with
  | some since => { ctx with screenOffDuration := some (now - since) }
  | none => ctx

def thermalAfter (state : ThermalHysteresisState) : Option ℚ → ThermalHysteresisState
  | some temp => state.nextState temp
  | none => state

variable (manager : IdleManager)

def update (now : Instant) (ctx : IdleContext) :
    IdleAssessment × IdleContext × IdleManager :=
  let candidateSince := candidateAfter manager.candidateSince now ctx.screen
  let ctx := timed candidateSince now ctx
  let thermalState := thermalAfter manager.thermalState ctx.thermalCelsius.value
  let assessment := IdlePolicy.evaluate ctx manager.state thermalState manager.gracePeriod
  (assessment, ctx, { manager with candidateSince, thermalState, state := assessment.state })

def onScreenStateChange (now : Instant)
    (newScreen : ScreenState) : IdleManager :=
  { manager with
    candidateSince := candidateAfter manager.candidateSince now newScreen
    state := if newScreen = .on then .active else manager.state }

def onThermalUpdate (tempC : ℚ) : ThermalHysteresisState × IdleManager :=
  let next := manager.thermalState.nextState tempC
  let manager :=
    if next ≠ manager.thermalState then { manager with thermalState := next }
    else manager
  (manager.thermalState, manager)

def onUserActivity (now : Instant) : IdleManager :=
  { manager with lastActivity := some now, state := .active }

end IdleManager

inductive IdleCall where
  | update (ctx : IdleContext)
  | onScreenStateChange (newScreen : ScreenState)
  | onUserActivity
  | onThermalUpdate (tempC : ℚ)
  deriving DecidableEq

inductive IdleAnswer where
  | assessed (assessment : IdleAssessment)
  | thermal (state : ThermalHysteresisState)
  | none

def idleManager : Effect.Machine IdleManager (Instant × IdleCall) IdleAnswer where
  step manager
    | (now, .update ctx) =>
      let (assessment, _, manager) := manager.update now ctx
      (.assessed assessment, manager)
    | (now, .onScreenStateChange newScreen) =>
      (.none, manager.onScreenStateChange now newScreen)
    | (now, .onUserActivity) => (.none, manager.onUserActivity now)
    | (_, .onThermalUpdate tempC) =>
      let (state, manager) := manager.onThermalUpdate tempC
      (.thermal state, manager)

namespace IdleCall

def screen? : IdleCall → Option ScreenState
  | .update ctx => some ctx.screen
  | .onScreenStateChange newScreen => some newScreen
  | .onUserActivity => none
  | .onThermalUpdate _ => none

def temp? : IdleCall → Option ℚ
  | .update ctx => ctx.thermalCelsius.value
  | .onScreenStateChange _ => none
  | .onUserActivity => none
  | .onThermalUpdate tempC => some tempC

end IdleCall

variable (calls : List (Instant × IdleCall))

def sinceOn : List (Instant × IdleCall) :=
  (calls.reverse.takeWhile fun entry => decide (entry.2.screen? ≠ some .on)).reverse

def firstOff : Option Instant :=
  ((sinceOn calls).find? fun entry =>
    decide (entry.2.screen? = some .off)).map Prod.fst

def lastActive : Option Instant :=
  ((calls.filter fun entry => decide (entry.2 = .onUserActivity)).map Prod.fst).getLast?

def temps : List ℚ := calls.filterMap fun entry => entry.2.temp?

section

variable {calls : List (Instant × IdleCall)} {now : Instant} {call : IdleCall}

theorem sinceOn_concat : sinceOn (calls ++ [(now, call)]) =
    if call.screen? = some .on then [] else sinceOn calls ++ [(now, call)] := by
  by_cases lit : call.screen? = some .on <;> simp [sinceOn, lit]

theorem firstOff_concat : firstOff (calls ++ [(now, call)]) = match call.screen? with
    | some screen =>
      IdleManager.candidateAfter (firstOff calls) now screen
    | none => firstOff calls := by
  rw [firstOff, sinceOn_concat]
  rcases reported : call.screen? with _ | _ | _ | _
  · rw [if_neg (by simp), List.find?_append]
    simp [firstOff, reported]
  · rfl
  · rw [if_neg (by simp), List.find?_append, Option.map_or]
    simp [firstOff, reported, IdleManager.candidateAfter]
  · rw [if_neg (by simp), List.find?_append]
    simp [firstOff, reported, IdleManager.candidateAfter]

theorem lastActive_concat : lastActive (calls ++ [(now, call)]) =
    if call = .onUserActivity then some now else lastActive calls := by
  by_cases active : call = .onUserActivity
  · simp [lastActive, active]
  · simp [lastActive, active]

theorem temps_concat : temps (calls ++ [(now, call)]) = temps calls ++ call.temp?.toList := by
  cases reported : call.temp? <;> simp [temps, reported]

theorem firstOff_le (past : ∀ entry ∈ calls, entry.1 ≤ now)
    (found : firstOff calls = some first) : first ≤ now := by
  obtain ⟨entry, search, rfl⟩ := Option.map_eq_some_iff.mp found
  have mem := List.mem_of_find?_eq_some search
  rw [sinceOn, List.mem_reverse] at mem
  have called := (List.takeWhile_sublist _).subset mem
  exact past entry (List.mem_reverse.mp called)

end

namespace IdleManager

variable {manager : IdleManager} {calls : List (Instant × IdleCall)}
  {gracePeriod : Nat} {now : Instant} {ctx : IdleContext}

@[simp] theorem timed_screen : (timed since now ctx).screen = ctx.screen := by
  cases since <;> rfl

@[simp] theorem timed_userActive : (timed since now ctx).userActive = ctx.userActive := by
  cases since <;> rfl

@[simp] theorem timed_thermalCelsius (since : Option Instant) :
    (timed since now ctx).thermalCelsius = ctx.thermalCelsius := by
  cases since <;> rfl

/-- The manager's fields are functions of the calls made. -/
structure Tracks (gracePeriod : Nat) (calls : List (Instant × IdleCall))
    (manager : IdleManager) : Prop where
  candidateSince : manager.candidateSince = firstOff calls
  lastActivity : manager.lastActivity = lastActive calls
  thermalState : manager.thermalState = ThermalHysteresisState.heat .normal (temps calls)
  gracePeriod : manager.gracePeriod = gracePeriod

theorem thermalAfter_heat (temps : List ℚ) (reading : Option ℚ) :
    thermalAfter (ThermalHysteresisState.heat .normal temps) reading =
      ThermalHysteresisState.heat .normal (temps ++ reading.toList) := by
  cases reading with
  | none => rw [Option.toList_none, List.append_nil]; rfl
  | some temp => exact ThermalHysteresisState.heat_concat.symm

theorem onThermalUpdate_eq (tempC : ℚ) : manager.onThermalUpdate tempC =
    (manager.thermalState.nextState tempC,
      { manager with thermalState := manager.thermalState.nextState tempC }) := by
  unfold onThermalUpdate
  by_cases same : manager.thermalState.nextState tempC = manager.thermalState
  · simp [same]
  · simp [same]

theorem Tracks.step (tracks : Tracks gracePeriod calls manager) (entry : Instant × IdleCall) :
    Tracks gracePeriod (calls ++ [entry]) (idleManager.step manager entry).2 := by
  obtain ⟨now, call⟩ := entry
  cases call with
  | update ctx =>
    constructor
    · rw [firstOff_concat, ← tracks.candidateSince]
      rfl
    · rw [lastActive_concat]
      exact tracks.lastActivity
    · rw [temps_concat, ← thermalAfter_heat, ← tracks.thermalState]
      change thermalAfter _ (timed _ now ctx).thermalCelsius.value = _
      rw [timed_thermalCelsius]
      rfl
    · exact tracks.gracePeriod
  | onScreenStateChange newScreen =>
    constructor
    · rw [firstOff_concat, ← tracks.candidateSince]
      rfl
    · rw [lastActive_concat]
      exact tracks.lastActivity
    · rw [temps_concat, ← thermalAfter_heat, ← tracks.thermalState]
      rfl
    · exact tracks.gracePeriod
  | onUserActivity =>
    constructor
    · rw [firstOff_concat]
      exact tracks.candidateSince
    · rw [lastActive_concat]
      rfl
    · rw [temps_concat, ← thermalAfter_heat, ← tracks.thermalState]
      rfl
    · exact tracks.gracePeriod
  | onThermalUpdate tempC =>
    have next : (idleManager.step manager (now, .onThermalUpdate tempC)).2 =
        { manager with
          thermalState := manager.thermalState.nextState tempC } :=
      congrArg Prod.snd (onThermalUpdate_eq tempC)
    rw [next]
    constructor
    · rw [firstOff_concat]
      exact tracks.candidateSince
    · rw [lastActive_concat]
      exact tracks.lastActivity
    · rw [temps_concat, ← thermalAfter_heat, ← tracks.thermalState]
      rfl
    · exact tracks.gracePeriod

theorem tracks (gracePeriod : Nat) (calls : List (Instant × IdleCall)) :
    Tracks gracePeriod calls (idleManager.after (new gracePeriod) calls) := by
  induction calls using List.reverseRecOn with
  | nil => exact ⟨rfl, rfl, rfl, rfl⟩
  | append_singleton calls entry ih =>
    rw [Effect.Machine.after_append]
    exact ih.step entry

theorem graceElapsed_timed (past : first ≤ now) :
    (timed (some first) now ctx).graceElapsed gracePeriod = true ↔
      ctx.screen = .off ∧ first + gracePeriod ≤ now := by
  rw [IdleContext.graceElapsed_iff, timed_screen]
  apply and_congr_right
  intro _
  change gracePeriod ≤ now - first ↔ _
  rw [Nat.le_sub_iff_add_le past, Nat.add_comm]

theorem update_idle_iff (tracks : Tracks gracePeriod calls manager)
    (past : ∀ entry ∈ calls, entry.1 ≤ now) : (manager.update now ctx).1.state = .idle ∨
        (manager.update now ctx).1.state = .deepIdle ↔ ctx.userActive = false ∧
      (¬∃ temp, (temps (calls ++ [(now, .update ctx)])).getLast? = some temp ∧ 50 ≤ temp) ∧
      ctx.screen = .off ∧ ∃ first, firstOff (calls ++ [(now, .update ctx)]) = some first ∧
        first + gracePeriod ≤ now := by
  have since : candidateAfter manager.candidateSince now ctx.screen =
      firstOff (calls ++ [(now, .update ctx)]) := by
    rw [firstOff_concat, tracks.candidateSince]
    rfl
  have thermal : thermalAfter manager.thermalState ctx.thermalCelsius.value =
      ThermalHysteresisState.heat .normal (temps (calls ++ [(now, .update ctx)])) := by
    rw [temps_concat, tracks.thermalState, thermalAfter_heat]
    rfl
  have state : (manager.update now ctx).1.state = IdlePolicy.nextState
        (timed (firstOff (calls ++ [(now, .update ctx)])) now ctx)
        (ThermalHysteresisState.heat .normal
          (temps (calls ++ [(now, .update ctx)]))) gracePeriod := by
    rw [← since, ← thermal, ← tracks.gracePeriod,
      ← timed_thermalCelsius (candidateAfter manager.candidateSince now ctx.screen)]
    rfl
  have recent : ∀ entry ∈ calls ++ [(now, IdleCall.update ctx)], entry.1 ≤ now := by
    intro entry mem
    rcases List.mem_append.mp mem with mem | mem
    · exact past entry mem
    · rw [List.mem_singleton.mp mem]
  rw [state, IdlePolicy.nextState_idle_iff, timed_userActive, ne_eq,
    ThermalHysteresisState.heat_eq_critical_iff]
  apply and_congr_right
  intro _
  apply and_congr_right
  intro _
  cases found : firstOff (calls ++ [(now, .update ctx)]) with
  | some first =>
    rw [graceElapsed_timed (firstOff_le recent found)]
    simp
  | none =>
    -- an update with a dark screen is itself a dark report
    have lit : ctx.screen ≠ .off := by
      intro dark
      rw [← since, dark, candidateAfter] at found
      simp at found
    rw [IdleContext.graceElapsed_iff, timed_screen]
    simp [lit]

theorem run_idle_iff (ordered : calls.Pairwise fun early late => early.1 ≤ late.1)
    (split : calls = before ++ (now, .update ctx) :: later) :
    ((idleManager.after (new gracePeriod) before).update now ctx).1.state = .idle ∨
        ((idleManager.after (new gracePeriod) before).update now ctx).1.state = .deepIdle ↔
      ctx.userActive = false ∧ (¬∃ temp, (temps (before ++ [(now, .update ctx)])).getLast? =
        some temp ∧ 50 ≤ temp) ∧ ctx.screen = .off ∧
      ∃ first, firstOff (before ++ [(now, .update ctx)]) = some first ∧
        first + gracePeriod ≤ now := by
  apply update_idle_iff (tracks gracePeriod before)
  intro entry mem
  rw [split, List.pairwise_append] at ordered
  exact ordered.2.2 entry mem _ List.mem_cons_self

/-- The grace period is kept after the screen went dark; after activity it is
kept exactly as long as the updates themselves show that the device is in use
or critical, or the screen has not been dark for so long. -/
theorem grace_honoured_iff (gracePeriod : Nat) (calls : List (Instant × IdleCall))
    (ordered : calls.Pairwise fun early late => early.1 ≤ late.1) :
    (∀ before now ctx later, calls = before ++ (now, .update ctx) :: later →
      ((idleManager.after (new gracePeriod) before).update now ctx).1.state = .idle ∨
        ((idleManager.after (new gracePeriod) before).update now ctx).1.state = .deepIdle →
      ctx.screen = .off ∧ (∃ first, firstOff (before ++ [(now, .update ctx)]) = some first ∧
        first + gracePeriod ≤ now) ∧
      ∀ last, lastActive before = some last → last + gracePeriod ≤ now) ↔
    ∀ before now ctx later, calls = before ++ (now, .update ctx) :: later →
      ∀ last, lastActive before = some last → now < last + gracePeriod → ctx.screen = .off →
        (∃ first, firstOff (before ++ [(now, .update ctx)]) = some first ∧
          first + gracePeriod ≤ now) → ctx.userActive = true ∨
        ∃ temp, (temps (before ++ [(now, .update ctx)])).getLast? = some temp ∧ 50 ≤ temp := by
  constructor
  · intro honoured before now ctx later split last active soon dark waited
    by_contra idle
    rw [not_or, Bool.not_eq_true] at idle
    have found := (run_idle_iff ordered split).mpr ⟨idle.1, idle.2, dark, waited⟩
    have kept := (honoured before now ctx later split found).2.2 last active
    exact absurd kept (Nat.not_le.mpr soon)
  · intro covered before now ctx later split found
    obtain ⟨rested, cool, dark, waited⟩ := (run_idle_iff ordered split).mp found
    refine ⟨dark, waited, ?_⟩
    intro last active
    by_contra soon
    rcases covered before now ctx later split last active (Nat.not_le.mp soon)
      dark waited with used | critical
    · rw [rested] at used
      cases used
    · exact cool critical

theorem idle_after_activity : ((idleManager.after (new 300)
      [(0, .onScreenStateChange .off), (400, .onUserActivity)]).update 400
      IdlePolicy.resting).1.state = .idle ∧
    lastActive [(0, .onScreenStateChange .off), (400, .onUserActivity)] = some 400 := by
  decide

theorem grace_honoured_iff_rested : ((idleManager.after (new 300)
      [(0, .onScreenStateChange .off), (100, .onUserActivity)]).update 450
      IdlePolicy.resting).1.state = .idle ∧ ∀ last, lastActive [(0, .onScreenStateChange .off),
      (100, .onUserActivity)] = some last → last + 300 ≤ 450 := by
  have idle : ((idleManager.after (new 300)
      [(0, .onScreenStateChange .off), (100, .onUserActivity)]).update 450
      IdlePolicy.resting).1.state = .idle := by decide
  have honoured := (grace_honoured_iff 300 [(0, .onScreenStateChange .off), (100, .onUserActivity),
      (450, .update IdlePolicy.resting)] (by simp)).mpr (by
    intro before now ctx later split last active soon
    match before, split with
    | [], split => cases split
    | [_], split => cases split
    | [_, _], split =>
      cases split
      cases active
      exact absurd soon (by decide)
    | [_, _, _], split => cases split
    | _ :: _ :: _ :: _ :: _, split => simp at split)
  exact ⟨idle, (honoured [(0, .onScreenStateChange .off),
    (100, .onUserActivity)] 450 IdlePolicy.resting [] rfl (.inl idle)).2.2⟩

end IdleManager

end CacheCleaner
