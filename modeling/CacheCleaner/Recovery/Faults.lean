import CacheCleaner.Recovery.Attempts

namespace CacheCleaner

open Effect Effect.Program

namespace Store

def Resolved (store : Store) : Prop :=
  ∀ attempt ∈ store.attempts.rows, attempt.state ≠ .running →
    ∀ row ∈ store.intents.rows, row.attemptId = attempt.attemptId → row.state.isTerminal = true

instance (store : Store) : Decidable store.Resolved := by
  unfold Resolved
  infer_instance

structure Tended (store : Store) : Prop where
  resolved : store.Resolved
  claimed : ∀ row ∈ store.intents.rows,
    ∃ attempt ∈ store.attempts.rows, attempt.attemptId = row.attemptId

namespace Tended

variable {before after : Store}

theorem congr (tended : before.Tended) (attempts : after.attempts = before.attempts)
    (intents : after.intents = before.intents) : after.Tended := by
  obtain ⟨resolved, claimed⟩ := tended
  refine ⟨?_, ?_⟩
  · unfold Resolved
    rw [attempts, intents]
    exact resolved
  · rw [attempts, intents]
    exact claimed

theorem setIntentState (tended : before.Tended)
    (terminal : state.isTerminal = true) (attempt : AttemptId)
    (op : OperationId) (now : UnixTimestamp) :
    (before.setIntentState attempt op state now).Tended := by
  have origin : ∀ row ∈ (before.setIntentState attempt op state now).intents.rows,
      ∃ old ∈ before.intents.rows, old.attemptId = row.attemptId ∧
        (row.state = old.state ∨ row.state = state) := by
    intro row mem
    obtain ⟨old, inside, rfl⟩ := List.mem_map.mp mem
    refine ⟨old, inside, ?_⟩
    split
    · exact ⟨rfl, Or.inr rfl⟩
    · exact ⟨rfl, Or.inl rfl⟩
  refine ⟨?_, ?_⟩
  · intro finished listed ended row mem own
    obtain ⟨old, inside, same, kept | set⟩ := origin row mem
    · rw [kept]
      exact tended.resolved finished listed ended old inside (same.trans own)
    · rw [set]
      exact terminal
  · intro row mem
    obtain ⟨old, inside, same, -⟩ := origin row mem
    rw [← same]
    exact tended.claimed old inside

theorem setAttemptState (tended : before.Tended)
    (settled : ∀ row ∈ before.intents.rows, row.attemptId = attempt →
      row.state.isTerminal = true) (state : AttemptState) :
    (before.setAttemptState attempt state).Tended := by
  refine ⟨?_, ?_⟩
  · intro finished listed ended row mem own
    obtain ⟨old, inside, rfl⟩ := List.mem_map.mp listed
    by_cases chosen : old.attemptId = attempt
    · simp only [chosen, decide_true, if_true] at own
      exact settled row mem own
    · simp only [chosen, decide_false, Bool.false_eq_true, if_false] at own ended
      exact tended.resolved old inside ended row mem own
  · intro row mem
    obtain ⟨owner, inside, same⟩ := tended.claimed row mem
    refine ⟨_, List.mem_map_of_mem inside, ?_⟩
    split <;> exact same

end Tended

end Store

/-- The intent log takes every state, the executor's directories open, and the
largest attempt id can be read. -/
def attends : (request : Request) → Reply request → Bool
  | .write (.updateIntentState _ _ _), .error _ => false
  | .openRoot .executor _, .error _ => false
  | .openChild .executor _ _, .error _ => false
  | .maxAttemptId, .error _ => false
  | _, _ => true

def Attended (request : Request) (reply : Reply request) : Prop := attends request reply = true

instance (request : Request) (reply : Reply request) : Decidable (Attended request reply) :=
  inferInstanceAs (Decidable (_ = true))

namespace PostconditionVerifier

theorem verifyBeneath_quiet (expected : FileIdentity) (leaf : String) (directory : FileIdentity) :
    Issues (fun request => request.quiet = true)
      (verifyBeneath expected leaf directory names) := by
  induction names generalizing directory with
  | nil => exact ⟨rfl, fun _ => trivial⟩
  | cons name rest ih =>
    refine ⟨rfl, fun opened => ?_⟩
    cases opened with
    | error errno => trivial
    | ok child => exact ih child

theorem verifyOperationPostcondition_quiet (basePath : String)
    (path : RelativePath) (expected : FileIdentity) : Issues (fun request => request.quiet = true)
      (verifyOperationPostcondition basePath path expected) := by
  refine ⟨rfl, fun opened => ?_⟩
  cases opened with
  | error errno => trivial
  | ok root =>
    dsimp only
    cases path.leafName? with
    | none => trivial
    | some leaf => exact verifyBeneath_quiet expected leaf root

end PostconditionVerifier

namespace RecoveryEngine

variable {intents : List OperationIntent}

/-- Recovery is at work on an attempt; `left` are the operations whose intents
it has yet to look at. -/
structure Pursued (attempt : AttemptId) (left : List OperationId) (store : Store) : Prop where
  tended : store.Tended
  rest : ∀ row ∈ store.intents.rows, row.attemptId = attempt →
    row.state.isTerminal = true ∨ row.opId ∈ left

variable {env : Env} {attempt : AttemptId} {op : OperationId}
  {left : List OperationId} {store : Store} {world : World}

theorem judge_isTerminal (intent : OperationIntent) (outcome : VerificationOutcome) :
    (judge intent outcome).state.isTerminal = true := by
  cases outcome <;> rfl

theorem Pursued.resolve (pursued : Pursued attempt (op :: left) store)
    (terminal : state.isTerminal = true) (now : UnixTimestamp) :
    Pursued attempt left (store.setIntentState attempt op state now) := by
  refine ⟨pursued.tended.setIntentState terminal attempt op now, ?_⟩
  intro row mem own
  obtain ⟨old, inside, rfl⟩ := List.mem_map.mp mem
  by_cases chosen : old.attemptId = attempt ∧ old.opId = op
  · simp only [chosen, and_self, decide_true, if_true]
    exact Or.inl terminal
  · simp only [chosen, decide_false, Bool.false_eq_true, if_false] at own ⊢
    rcases pursued.rest old inside own with settled | listed
    · exact Or.inl settled
    · rcases List.mem_cons.mp listed with same | later
      · exact absurd ⟨own, same⟩ chosen
      · exact Or.inr later

theorem Pursued.congr (pursued : Pursued attempt left store)
    (attempts : after.attempts = store.attempts)
    (intents : after.intents = store.intents) : Pursued attempt left after :=
  ⟨pursued.tended.congr attempts intents, intents ▸ pursued.rest⟩

section

variable (snapshot : CatalogSnapshot)

theorem reconcileIntent_pursues (job : JobId) (tally : Tally)
    (pursued : Pursued attempt (intent.opId :: left) world.store) :
    Spec env.handler Attended (fun after => after.store.Tended)
      (fun _ after => Pursued attempt left after.store)
      (reconcileIntent snapshot attempt job intent tally) world := by
  unfold reconcileIntent
  split
  · refine Rules.write pursued.tended ?_ ?_
    · exact fun error answered => (Bool.false_ne_true answered).elim
    · intro store _ updated
      have next := pursued.resolve (show IntentState.isTerminal .resolvedUnknown = true from rfl)
        (env.now world.tick)
      rw [← Store.updateIntentState_ok updated] at next
      exact Spec.done next.tended next
  · refine Spec.bind ((Rules.keeps_store (Pursued attempt (intent.opId :: left))
      (PostconditionVerifier.verifyOperationPostcondition_quiet _ _ _)
      pursued).mono (fun after pursued => pursued.tended) fun _ _ pursued => pursued) ?_
    intro outcome middle pursued
    refine Rules.write pursued.tended ?_ ?_
    · exact fun error answered => (Bool.false_ne_true answered).elim
    · intro store _ updated
      have next := pursued.resolve (judge_isTerminal intent outcome) (env.now middle.tick)
      rw [← Store.updateIntentState_ok updated] at next
      refine Rules.write next.tended ?_ ?_
      · exact fun error _ => Spec.done next.tended next
      · intro store' _ recorded
        have kept : Pursued attempt left store' := by
          rw [Store.recordOperationResult_ok recorded]
          exact next.congr rfl rfl
        exact Spec.done kept.tended kept

theorem reconcileIntents_pursues (job : JobId) (tally : Tally)
    (pursued : Pursued attempt (intents.map (·.opId)) world.store) :
    Spec env.handler Attended (fun after => after.store.Tended)
      (fun _ after => Pursued attempt [] after.store)
      (reconcileIntents snapshot attempt job intents tally) world := by
  induction intents generalizing tally world with
  | nil => exact Spec.done pursued.tended pursued
  | cons intent rest ih =>
    exact Spec.bind (reconcileIntent_pursues snapshot job tally pursued)
      fun tally after pursued => ih tally pursued

theorem closeAttempt_tends (job : JobId) (tally : Tally)
    (pursued : Pursued attempt [] world.store) :
    Spec env.handler Attended (fun after => after.store.Tended)
      (fun _ after => after.store.Tended) (closeAttempt attempt job tally) world := by
  have settled : ∀ row ∈ world.store.intents.rows, row.attemptId = attempt →
      row.state.isTerminal = true := by
    intro row mem own
    rcases pursued.rest row mem own with terminal | listed
    · exact terminal
    · cases listed
  refine Rules.write pursued.tended ?_ ?_
  · exact fun error _ => Spec.done pursued.tended pursued.tended
  · intro store _ updated
    have tended : store.Tended := by
      rw [Store.updateAttemptState_ok updated]
      exact pursued.tended.setAttemptState settled _
    refine Rules.write_only tended ?_ ?_
    · exact fun error _ => ⟨tended, tended⟩
    · intro store' _ closed
      have kept : store'.Tended := by
        rw [Store.updateJobState_ok closed]
        exact tended.congr rfl rfl
      exact ⟨kept, kept⟩

theorem map_opId_of_mapM {rows : List IntentRow}
    (decoded : rows.mapM Store.decodeIntent = some intents) :
    intents.map (·.opId) = rows.map IntentRow.opId := by
  induction rows generalizing intents with
  | nil =>
    cases decoded
    rfl
  | cons row rest ih =>
    rw [List.mapM_cons] at decoded
    cases first : Store.decodeIntent row with
    | none => simp [first] at decoded
    | some intent =>
      cases others : rest.mapM Store.decodeIntent with
      | none => simp [first, others] at decoded
      | some tail =>
        simp only [first, others, Option.bind_eq_bind, Option.bind_some,
          Option.pure_def, Option.some.injEq] at decoded
        rw [← decoded, List.map_cons, List.map_cons, ih others, (Store.decodeIntent_opId first).1]

theorem reconcileAttempt_tends
    (attempt : AttemptId) (job : JobId) (tended : world.store.Tended) :
    Spec env.handler Attended (fun after => after.store.Tended) (fun _ after => after.store.Tended)
      (reconcileAttempt snapshot attempt job) world := by
  refine Rules.quiet rfl tended fun selected _ asked => ?_
  cases selected with
  | error error => exact Spec.done tended tended
  | ok rows =>
    have listed : rows = world.store.intentsForAttempt attempt := Env.query_ok asked
    dsimp only
    cases decoded : rows.mapM Store.decodeIntent with
    | none => exact tended
    | some intents =>
      have pursued : Pursued attempt (intents.map (·.opId)) world.advance.store := by
        refine ⟨tended, fun row mem own => Or.inr ?_⟩
        rw [map_opId_of_mapM decoded, listed]
        exact List.mem_map_of_mem (Store.mem_intentsForAttempt.mpr ⟨mem, own⟩)
      refine Spec.bind (reconcileIntents_pursues snapshot job _ pursued) ?_
      intro tally after pursued
      refine Spec.bind (closeAttempt_tends job tally pursued) ?_
      intro closed after tended
      cases closed <;> exact Spec.done tended tended

theorem reconcileAttempts_tends
    (attempts : List (AttemptId × JobId)) (recovered : Nat) (tended : world.store.Tended) :
    Spec env.handler Attended (fun after => after.store.Tended) (fun _ after => after.store.Tended)
      (reconcileAttempts snapshot attempts recovered) world := by
  induction attempts generalizing recovered world with
  | nil => exact Spec.done tended tended
  | cons pair rest ih =>
    refine Spec.bind (reconcileAttempt_tends snapshot pair.1 pair.2 tended) ?_
    intro result after tended
    cases result with
    | error error => exact Spec.done tended tended
    | ok succeeded => exact ih _ tended

end

theorem reconcileStartupCrashes_tends (tended : world.store.Tended) :
    Spec env.handler Attended (fun after => after.store.Tended)
      (fun _ after => after.store.Tended) (reconcileStartupCrashes snapshot) world := by
  refine Rules.quiet rfl tended fun uncompleted _ _ => ?_
  cases uncompleted with
  | error error => exact Spec.done tended tended
  | ok attempts => exact reconcileAttempts_tends snapshot attempts 0 tended

/-- What recovery asks while it is at work on the attempts it was told of. -/
def Repairs (listed : List (AttemptId × JobId)) : Request → Prop
  | .write (.updateIntentState attempt _ _) => attempt ∈ listed.map Prod.fst
  | .write (.updateAttemptState attempt state) =>
    attempt ∈ listed.map Prod.fst ∧ state ≠ .running
  | .write (.updateJobState job _ _) => job ∈ listed.map Prod.snd
  | .write (.recordOperationResult _) => True
  | request => request.quiet = true

section

variable {listed : List (AttemptId × JobId)} {snapshot : CatalogSnapshot}

theorem Repairs.of_quiet (quiet : request.quiet = true) : Repairs listed request := by
  cases request with
  | write write => cases quiet
  | _ => exact quiet

theorem reconcileIntent_repairs (mem : attempt ∈ listed.map Prod.fst) : Issues (Repairs listed)
      (reconcileIntent snapshot attempt job intent tally) := by
  unfold reconcileIntent
  cases snapshot.get intent.targetId with
  | none => exact asks mem fun _ => trivial
  | some target =>
    refine ((PostconditionVerifier.verifyOperationPostcondition_quiet
      target.basePath intent.relPath intent.expectedIdentity).mono
        fun _ quiet => .of_quiet quiet).bind fun outcome => ?_
    exact asks mem fun _ => asks trivial fun _ => trivial

theorem reconcileIntents_repairs
    (mem : attempt ∈ listed.map Prod.fst) (intents : List OperationIntent) (tally : Tally) :
    Issues (Repairs listed) (reconcileIntents snapshot attempt job intents tally) := by
  induction intents generalizing tally with
  | nil => trivial
  | cons intent rest ih =>
    exact (reconcileIntent_repairs mem).bind fun tally => ih tally

theorem attemptState_ne_running (tally : Tally) : tally.attemptState ≠ .running := by
  unfold Tally.attemptState
  split
  · nofun
  · split <;> nofun

theorem reconcileAttempt_repairs (mem : (attempt, job) ∈ listed) :
    Issues (Repairs listed) (reconcileAttempt snapshot attempt job) := by
  have attempts : attempt ∈ listed.map Prod.fst := List.mem_map_of_mem mem
  refine asks rfl fun reply => ?_
  cases reply with
  | error error => trivial
  | ok rows =>
    simp only
    cases rows.mapM Store.decodeIntent with
    | none => trivial
    | some intents =>
      refine (reconcileIntents_repairs attempts intents _).bind fun tally => ?_
      have closes : Issues (Repairs listed) (closeAttempt attempt job tally) := by
        refine asks ⟨attempts, attemptState_ne_running tally⟩ fun updated => ?_
        cases updated with
        | error error => trivial
        | ok done =>
          exact Issues.perform (List.mem_map_of_mem (f := Prod.snd) mem)
      refine closes.bind fun closed => ?_
      cases closed <;> trivial

theorem reconcileAttempts_repairs (subset : ∀ pair ∈ pairs, pair ∈ listed) (recovered : Nat) :
    Issues (Repairs listed) (reconcileAttempts snapshot pairs recovered) := by
  induction pairs generalizing recovered with
  | nil => trivial
  | cons pair rest ih =>
    refine (reconcileAttempt_repairs (subset pair (List.mem_cons_self ..))).bind fun reply => ?_
    cases reply with
    | error error => trivial
    | ok succeeded =>
      exact ih (fun pair mem =>
        subset pair (List.mem_cons_of_mem _ mem)) _

end

end RecoveryEngine

end CacheCleaner
