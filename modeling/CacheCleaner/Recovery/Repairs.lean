import CacheCleaner.Effect.Moments
import CacheCleaner.Effect.Overwrite
import CacheCleaner.Recovery.Faults
import CacheCleaner.Runtime.Tables

namespace CacheCleaner

open Effect Effect.Program

inductive Cell where
  | job (job : JobId)
  | attempt (attempt : AttemptId)
  | intent (attempt : AttemptId) (op : OperationId)
  | operation (job : JobId) (op : OperationId)
  deriving DecidableEq

namespace Cell

def Row : Cell → Type
  | .job _ => JobRow
  | .attempt _ => AttemptRow
  | .intent _ _ => IntentRow
  | .operation _ _ => OperationRow

inductive Edit : Cell → Type
  | job {job : JobId} (state : JobRowState) (total : ByteCount) : Edit (.job job)
  | attempt {attempt : AttemptId} (state : AttemptState) : Edit (.attempt attempt)
  | intent {attempt : AttemptId} {op : OperationId} (state : IntentState) :
      Edit (.intent attempt op)
  | operation (row : OperationRow) : Edit (.operation row.jobId row.opId)

def Edit.apply : {cell : Cell} → cell.Edit → Option cell.Row → Option cell.Row
  | .job _, .job state total, row =>
    row.map fun row : JobRow =>
      { row with state := state, totalReclaimedBytes := total }
  | .attempt _, .attempt state, row =>
    row.map fun row : AttemptRow => { row with state := state }
  | .intent _ _, .intent state, row =>
    row.map fun row : IntentRow => { row with state := state }
  | .operation _ _, .operation row, _ => some row

end Cell

def repairing : Overwriting Cell where
  Content cell := Option cell.Row
  Edit := Cell.Edit
  edit := Cell.Edit.apply
  hides := by
    intro cell later earlier content
    cases later with
    | operation row => rfl
    | _ => cases earlier; cases content <;> rfl

abbrev Repair := repairing.Entry

def IntentRow.untimed (row : IntentRow) : IntentRow := { row with resolvedAt := none }

namespace Store

def cells (store : Store) : repairing.State
  | .job job => store.jobs.find job
  | .attempt attempt => store.attempts.find attempt
  | .intent attempt op =>
    (store.intents.find (attempt, op)).map IntentRow.untimed
  | .operation job op => store.operations.find (job, op)

def repaired (store : Store) (now : UnixTimestamp) : Repair → Store
  | ⟨.job job, .job state total⟩ => store.setJobState job state total
  | ⟨.attempt attempt, .attempt state⟩ => store.setAttemptState attempt state
  | ⟨.intent attempt op, .intent state⟩ =>
    store.setIntentState attempt op state now
  | ⟨.operation _ _, .operation row⟩ => store.putOperation row

end Store

namespace Repair

def write : Repair → StoreWrite
  | ⟨.job job, .job state total⟩ => .updateJobState job state total
  | ⟨.attempt attempt, .attempt state⟩ => .updateAttemptState attempt state
  | ⟨.intent attempt op, .intent state⟩ => .updateIntentState attempt op state
  | ⟨.operation _ _, .operation row⟩ => .recordOperationResult row

def Fits (store : Store) : Repair → Prop
  | ⟨.job job, .job _ total⟩ => job.val ≤ sqliteMax ∧ total ≤ sqliteMax
  | ⟨.attempt attempt, .attempt _⟩ => attempt.val ≤ sqliteMax
  | ⟨.intent attempt op, .intent _⟩ =>
    attempt.val ≤ sqliteMax ∧ op.val ≤ sqliteMax
  | ⟨.operation _ _, .operation row⟩ =>
    (∀ now ≤ sqliteMax, Store.bindable [row.jobId.val, row.opId.val,
      row.planId.val, row.expectedIdentity.dev, row.expectedIdentity.ino,
      row.estimatedBytes, row.reclaimedBytes, now] = true) ∧ store.hasJob row.jobId = true

variable {store : Store} {now : UnixTimestamp}

theorem Fits.statement {repair : Repair} (fits : repair.Fits store) (clock : now ≤ sqliteMax) :
    repair.write.statement now store = .ok ((), store.repaired now repair) := by
  obtain ⟨cell, edit⟩ := repair
  cases edit with
  | job state total => exact Store.updateJobState_bound clock fits.1 fits.2
  | attempt state => exact Store.updateAttemptState_bound clock fits
  | intent state => exact Store.updateIntentState_bound _ clock fits.1 fits.2
  | operation row =>
    change Store.recordOperationResult row now store = _
    unfold Store.recordOperationResult
    rw [if_pos (fits.1 now clock), if_pos fits.2]
    rfl

end Repair

theorem Store.cells_repaired (store : Store) (now : UnixTimestamp) (repair : Repair) :
    (store.repaired now repair).cells = repairing.write store.cells repair := by
  funext cell
  obtain ⟨edited, edit⟩ := repair
  by_cases same : cell = edited
  · subst same
    rw [Overwriting.write_self]
    cases edit with
    | job state total =>
      refine Table.find_update_of_selected (by intro _; rfl) ?_
      exact fun row found => decide_eq_true found
    | attempt state =>
      refine Table.find_update_of_selected (by intro _; rfl) ?_
      exact fun row found => decide_eq_true found
    | intent state =>
      refine (congrArg (Option.map IntentRow.untimed)
        (Table.find_update_of_selected (by intro _; rfl) ?_)).trans ?_
      · exact fun row found => decide_eq_true (Prod.mk.inj found)
      · change _ = ((store.intents.find _).map IntentRow.untimed).map
          fun row : IntentRow => { row with state := state }
        cases store.intents.find _ <;> rfl
    | operation row => exact Table.find_upsert_self _ row
  · rw [Overwriting.write_of_ne same]
    cases edit with
    | @job job state total =>
      cases cell with
      | job other =>
        refine Table.find_update_of_not (by intro _; rfl) fun row found => ?_
        refine decide_eq_false fun here => same ?_
        rw [← found, here]
      | _ => rfl
    | @attempt attempt state =>
      cases cell with
      | attempt other =>
        refine Table.find_update_of_not (by intro _; rfl) fun row found => ?_
        refine decide_eq_false fun here => same ?_
        rw [← found, here]
      | _ => rfl
    | @intent attempt op state =>
      cases cell with
      | intent other number =>
        refine congrArg (Option.map _) (Table.find_update_of_not (by intro _; rfl) ?_)
        intro row found
        refine decide_eq_false fun here => same ?_
        rw [← (Prod.mk.inj found).1, ← (Prod.mk.inj found).2, here.1, here.2]
      | _ => rfl
    | operation row =>
      cases cell with
      | operation job op =>
        refine Table.find_upsert_of_ne _ fun here => same ?_
        cases here
        rfl
      | _ => rfl

def IntentRow.bare (row : IntentRow) : IntentRow :=
  { row with state := .committed, resolvedAt := none }

def OperationIntent.bare (intent : OperationIntent) : OperationIntent :=
  { intent with state := .committed, resolvedAt := none }

def AttemptRow.pair (row : AttemptRow) : AttemptId × JobId := (row.attemptId, row.jobId)

def Request.rewords : Request → Bool
  | .write (.updateJobState _ _ _) | .write (.updateAttemptState _ _)
  | .write (.updateIntentState _ _ _) | .write (.recordOperationResult _) => true
  | request => request.quiet

structure Reworded (before after : Store) : Prop where
  intents : after.intents.rows.map IntentRow.bare = before.intents.rows.map IntentRow.bare
  attempts : after.attempts.rows.map AttemptRow.pair = before.attempts.rows.map AttemptRow.pair
  jobs : ∀ job, after.hasJob job = before.hasJob job

namespace Reworded

variable {before middle after : Store}

theorem refl (store : Store) : Reworded store store := ⟨rfl, rfl, fun _ => rfl⟩

theorem trans (first : Reworded before middle)
    (second : Reworded middle after) : Reworded before after where
  intents := second.intents.trans first.intents
  attempts := second.attempts.trans first.attempts
  jobs job := (second.jobs job).trans (first.jobs job)

theorem repaired (store : Store) (now : UnixTimestamp) (repair : Repair) :
    Reworded store (store.repaired now repair) := by
  obtain ⟨cell, edit⟩ := repair
  cases edit with
  | @job job state total =>
    refine ⟨rfl, rfl, fun other => ?_⟩
    change ((store.setJobState job state total).jobs.find other).isSome = _
    rw [Store.setJobState, Table.find_update, Option.isSome_map]
    rfl
  | @attempt attempt state =>
    refine ⟨rfl, ?_, fun _ => rfl⟩
    refine (List.map_map ..).trans (List.map_congr_left fun row _ => ?_)
    simp only [Function.comp_apply]
    split <;> rfl
  | @intent attempt op state =>
    refine ⟨?_, rfl, fun _ => rfl⟩
    refine (List.map_map ..).trans (List.map_congr_left fun row _ => ?_)
    simp only [Function.comp_apply]
    split <;> rfl
  | operation row => exact ⟨rfl, rfl, fun _ => rfl⟩

theorem respond {request : Request} (rewords : request.rewords = true) (env : Env)
    (world : World) : Reworded world.store (env.respond request world).2.store := by
  rcases env.respond_effected request world with ⟨-, kept⟩ | ⟨write, written, ran⟩
  · refine ⟨by rw [kept.intents], by rw [kept.attempts], fun job => ?_⟩
    rw [Store.hasJob, Store.hasJob, kept.jobs]
  · cases request_of_written written
    cases write with
    | updateJobState job state total =>
      rw [Store.updateJobState_ok ran]
      exact .repaired _ 0 ⟨.job job, .job state total⟩
    | updateAttemptState attempt state =>
      rw [Store.updateAttemptState_ok ran]
      exact .repaired _ 0 ⟨.attempt attempt, .attempt state⟩
    | updateIntentState attempt op state =>
      rw [Store.updateIntentState_ok ran]
      exact .repaired _ (env.now world.tick) ⟨.intent attempt op, .intent state⟩
    | recordOperationResult row =>
      rw [Store.recordOperationResult_ok ran]
      exact .repaired _ 0 ⟨.operation row.jobId row.opId, .operation row⟩
    | _ => cases rewords

theorem exists_intent (reworded : Reworded before after)
    (mem : row ∈ after.intents.rows) : ∃ old ∈ before.intents.rows, old.bare = row.bare := by
  have inside := List.mem_map_of_mem (f := IntentRow.bare) mem
  rw [reworded.intents] at inside
  exact List.mem_map.mp inside

theorem exists_attempt (reworded : Reworded before after)
    (mem : row ∈ after.attempts.rows) : ∃ old ∈ before.attempts.rows, old.pair = row.pair := by
  have inside := List.mem_map_of_mem (f := AttemptRow.pair) mem
  rw [reworded.attempts] at inside
  exact List.mem_map.mp inside

theorem intentsForAttempt (reworded : Reworded before after) (attempt : AttemptId) :
    (after.intentsForAttempt attempt).map IntentRow.bare =
      (before.intentsForAttempt attempt).map IntentRow.bare := by
  have selected : ∀ store : Store, (store.intentsForAttempt attempt).map IntentRow.bare =
        (store.intents.rows.map IntentRow.bare).filter fun row => row.attemptId = attempt := by
    intro store
    rw [List.filter_map]
    rfl
  rw [selected, selected, reworded.intents]

theorem decodedIntents (reworded : Reworded before after) (attempt : AttemptId) :
    (after.decodedIntents attempt).map OperationIntent.bare =
      (before.decodedIntents attempt).map OperationIntent.bare := by
  have decoded : ∀ store : Store, (store.decodedIntents attempt).map OperationIntent.bare =
        ((store.intentsForAttempt attempt).map IntentRow.bare).filterMap Store.decodeIntent := by
    intro store
    rw [Store.decodedIntents, List.map_filterMap, List.filterMap_map]
    refine List.filterMap_congr fun row _ => ?_
    exact Option.map_map ..
  rw [decoded, decoded, reworded.intentsForAttempt]

theorem sound (reworded : Reworded before after) (sound : before.Sound) : after.Sound where
  intents := by
    intro row mem
    obtain ⟨old, inside, same⟩ := reworded.exists_intent mem
    have columns : old.bare.columns = row.bare.columns := congrArg IntentRow.columns same
    change Store.bindable row.bare.columns = true
    rw [← columns]
    exact sound.intents old inside
  attempts := by
    intro row mem
    obtain ⟨old, inside, same⟩ := reworded.exists_attempt mem
    obtain ⟨attempt, job⟩ := Prod.mk.inj same
    rw [← attempt, ← job, reworded.jobs]
    exact sound.attempts old inside

theorem legible (reworded : Reworded before after) (legible : before.Legible) : after.Legible where
  targets := by
    intro row mem
    obtain ⟨old, inside, same⟩ := reworded.exists_intent mem
    have target : old.bare.targetId = row.bare.targetId := congrArg IntentRow.targetId same
    change (TargetId.new? row.bare.targetId).isSome = true
    rw [← target]
    exact legible.targets old inside
  totals := by
    intro attempt
    have amounts := congrArg (List.map IntentRow.estimatedBytes)
      (reworded.intentsForAttempt attempt)
    rw [List.map_map, List.map_map] at amounts
    exact le_of_eq_of_le (congrArg List.sum amounts) (legible.totals attempt)

end Reworded

namespace RecoveryEngine

namespace Disk

def intentRepairs (disk : Disk) (attempt : AttemptId) (job : JobId)
    (intent : OperationIntent) : List Repair :=
  match disk.verdict? intent with
  | none => [⟨.intent attempt intent.opId, .intent .resolvedUnknown⟩]
  | some verdict =>
    [⟨.intent attempt intent.opId, .intent verdict.state⟩,
      ⟨.operation job intent.opId, .operation (resultRow job intent verdict)⟩]

def closing (attempt : AttemptId) (job : JobId) (tally : Tally) : List Repair :=
  [⟨.attempt attempt, .attempt tally.attemptState⟩,
    ⟨.job job, .job tally.jobState tally.totalReclaimed⟩]

def attemptRepairs (disk : Disk) (attempt : AttemptId) (job : JobId)
    (intents : List OperationIntent) : List Repair :=
  intents.flatMap (disk.intentRepairs attempt job) ++ closing attempt job (disk.tally intents)

def repairs (disk : Disk) (store : Store) (pairs : List (AttemptId × JobId)) : List Repair :=
  pairs.flatMap fun pair =>
    disk.attemptRepairs pair.1 pair.2 (store.decodedIntents pair.1)

theorem attemptRepairs_bare (disk : Disk) (attempt : AttemptId) (job : JobId)
    (intents : List OperationIntent) :
    disk.attemptRepairs attempt job (intents.map OperationIntent.bare) =
      disk.attemptRepairs attempt job intents := by
  unfold attemptRepairs tally
  rw [List.flatMap_map, List.foldl_map]
  rfl

end Disk

variable {disk : Disk} {before after : Store}

theorem attemptRepairs_reworded (reworded : Reworded before after)
    (attempt : AttemptId) (job : JobId) :
    disk.attemptRepairs attempt job (after.decodedIntents attempt) =
      disk.attemptRepairs attempt job (before.decodedIntents attempt) := by
  rw [← disk.attemptRepairs_bare, reworded.decodedIntents, disk.attemptRepairs_bare]

theorem Recordable.fits (recordable : Recordable attempt job intent)
    (known : store.hasJob job = true) :
    ∀ repair ∈ disk.intentRepairs attempt job intent, repair.Fits store := by
  have bounds := recordable.bounds
  intro repair mem
  unfold Disk.intentRepairs at mem
  cases seen : disk.verdict? intent with
  | none =>
    rw [seen] at mem
    cases List.mem_singleton.mp mem
    exact ⟨bounds.1, bounds.2.2.1⟩
  | some verdict =>
    rw [seen] at mem
    obtain ⟨target, -, judged⟩ := Option.map_eq_some_iff.mp seen
    have reclaimed := judge_reclaimed_le intent
      (PostconditionVerifier.inspect disk.fs disk.openat2 target.basePath
        intent.relPath intent.expectedIdentity)
    rw [judged] at reclaimed
    rcases List.mem_cons.mp mem with rfl | mem
    · exact ⟨bounds.1, bounds.2.2.1⟩
    · cases List.mem_singleton.mp mem
      refine ⟨fun now clock => ?_, known⟩
      have first : 1 ≤ sqliteMax := by decide
      have amount := reclaimed.trans bounds.2.2.2.2.2
      simp [resultRow, Store.operationRow, Store.bindable, bounds, clock, first, amount]

theorem fits_attemptRepairs (sound : store.Sound)
    (legible : store.Legible) (listed : row ∈ store.attempts.rows) :
    ∀ repair ∈ disk.attemptRepairs row.attemptId row.jobId
      (store.decodedIntents row.attemptId), repair.Fits store := by
  obtain ⟨attemptBound, jobBound, known⟩ := attempt_bounds sound listed
  intro repair mem
  rcases List.mem_append.mp mem with inside | last
  · obtain ⟨intent, decoded, inside⟩ := List.mem_flatMap.mp inside
    exact (recordable_decodedIntents sound listed intent decoded).fits known repair inside
  · rcases List.mem_cons.mp last with rfl | last
    · exact attemptBound
    · cases List.mem_singleton.mp last
      exact ⟨jobBound, totalReclaimed_tally_le legible row.attemptId⟩

theorem rewords_of_repairs (repairs : Repairs listed request) : request.rewords = true := by
  cases request with
  | write write =>
    cases write with
    | updateIntentState | updateAttemptState | updateJobState | recordOperationResult => rfl
    | _ => cases repairs
  | _ => exact repairs

theorem reconcileStartupCrashes_rewords (snapshot : CatalogSnapshot) (env : Env) (count : Nat)
    (world : World) : Reworded world.store
      ((reconcileStartupCrashes snapshot).stateAfter env.handler count world).store := by
  have issues : Issues (·.rewords = true) (reconcileStartupCrashes snapshot) := by
    refine ⟨rfl, fun read => ?_⟩
    cases read with
    | error error => trivial
    | ok uncompleted =>
      exact (reconcileAttempts_repairs (fun _ mem => mem) 0).mono fun _ => rewords_of_repairs
  have keeps (request : Request) (state : World) (rewords : request.rewords = true)
      (reworded : Reworded world.store state.store) :
      Reworded world.store (env.handler.respond request state).2.store :=
    reworded.trans (.respond rewords env state)
  exact issues.stateAfter_keeps keeps (.refl _) count

theorem fits_reworded (reworded : Reworded before after) {repair : Repair}
    (fits : repair.Fits before) : repair.Fits after := by
  obtain ⟨cell, edit⟩ := repair
  cases edit with
  | operation row => exact ⟨fits.1, (reworded.jobs row.jobId).trans fits.2⟩
  | _ => exact fits

end RecoveryEngine

end CacheCleaner
