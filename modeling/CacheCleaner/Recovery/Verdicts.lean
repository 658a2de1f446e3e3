import CacheCleaner.Recovery.Consistency

namespace CacheCleaner.RecoveryEngine

/-! What recovery finds for the intents, and which of its verdicts stay: attempts may
share a job, and the last one to be reconciled has the last word. -/

open Effect Effect.Program

def Disk.look (disk : Disk) (row : IntentRow) : Option Fs.Presence :=
  (disk.snapshot.get ⟨row.targetId⟩).map fun target =>
    disk.fs.presence disk.openat2 target.basePath
      ((RelativePath.parse row.relPath).getD RelativePath.empty)

def Disk.resolution (disk : Disk) (row : IntentRow) : IntentState :=
  match disk.look row with
  | none => .resolvedUnknown
  | some presence => presence.intentState

def Disk.gain (disk : Disk) (row : IntentRow) : Nat :=
  if disk.look row = some .gone then row.estimatedBytes else 0

section

variable {disk : Disk} {row : IntentRow} {intent : OperationIntent}

theorem judge_columns (intent : OperationIntent) (outcome : VerificationOutcome) :
    (Store.statusColumns (judge intent outcome).status).1 = (match (judge intent outcome).state with
        | .verifiedSuccess => .success
        | .verifiedFailed => .failed
        | _ => .skipped) ∧
      (judge intent outcome).reclaimed = if (judge intent outcome).state = .verifiedSuccess then
          intent.estimatedBytes else 0 := by
  cases outcome <;> exact ⟨rfl, rfl⟩

theorem rowState_eq (decoded : Store.decodeIntent row = some intent) :
    disk.rowState row = disk.resolution row := by
  obtain ⟨target, accepted, rfl⟩ := Option.map_eq_some_iff.mp decoded
  have same : target = ⟨row.targetId⟩ := TargetId.new?_val accepted
  simp only [Disk.rowState, Disk.resolution, Disk.look, decoded, Disk.state, Disk.verdict?, same]
  cases disk.snapshot.get ⟨row.targetId⟩ with
  | none => rfl
  | some target => exact judge_inspect

theorem gain_eq (decoded : Store.decodeIntent row = some intent) : disk.gain row =
      if disk.rowState row = .verifiedSuccess then row.estimatedBytes else 0 := by
  unfold Disk.gain
  rw [rowState_eq decoded, Disk.resolution]
  cases disk.look row with
  | none => simp
  | some presence => cases presence <;> simp [Fs.Presence.intentState]

theorem look_eq_none_iff (decoded : Store.decodeIntent row = some intent) :
    disk.look row = none ↔ disk.verdict? intent = none := by
  obtain ⟨target, accepted, rfl⟩ := Option.map_eq_some_iff.mp decoded
  have same : target = ⟨row.targetId⟩ := TargetId.new?_val accepted
  simp [Disk.look, Disk.verdict?, same]

theorem resultRow_columns (job : JobId) (decoded : Store.decodeIntent row = some intent)
    (judged : disk.verdict? intent = some verdict) : (∀ {presence}, disk.look row = some presence →
      (resultRow job intent verdict).status = presence.rowStatus) ∧
    (resultRow job intent verdict).reclaimedBytes = disk.gain row := by
  have state : disk.rowState row = verdict.state := by
    simp [Disk.rowState, decoded, Disk.state, judged]
  obtain ⟨target, -, rfl⟩ := Option.map_eq_some_iff.mp judged
  obtain ⟨status, reclaimed⟩ := judge_columns intent
    (PostconditionVerifier.inspect disk.fs disk.openat2 target.basePath
      intent.relPath intent.expectedIdentity)
  refine ⟨?_, ?_⟩
  · intro presence seen
    rw [rowState_eq decoded, Disk.resolution, seen] at state
    rw [← state] at status
    refine status.trans ?_
    cases presence <;> rfl
  · rw [gain_eq decoded, state, ← (Store.decodeIntent_opId decoded).2.2]
    exact reclaimed

theorem gain_le (disk : Disk) (row : IntentRow) : disk.gain row ≤ row.estimatedBytes := by
  unfold Disk.gain
  split
  · exact Nat.le_refl _
  · exact Nat.zero_le _

theorem totalReclaimed_count (decoded : Store.decodeIntent row = some intent)
    (bound : tally.totalReclaimed + row.estimatedBytes ≤ sqliteMax) :
    (disk.count tally intent).totalReclaimed = tally.totalReclaimed + disk.gain row := by
  have state : disk.rowState row = disk.state intent := by
    simp [Disk.rowState, decoded]
  unfold Disk.count
  cases judged : disk.verdict? intent with
  | none =>
    have none : disk.gain row = 0 := by
      simp [gain_eq decoded, state, Disk.state, judged]
    simp [none, Tally.lost]
  | some verdict =>
    have reclaimed : verdict.reclaimed = disk.gain row := (resultRow_columns ⟨0⟩ decoded judged).2
    have small : tally.totalReclaimed + disk.gain row ≤ u64Max :=
      (Nat.add_le_add_left (gain_le disk row) _).trans (bound.trans (by decide))
    have zero : verdict.state ≠ .verifiedSuccess → disk.gain row = 0 := by
      intro other
      simp [gain_eq decoded, state, Disk.state, judged, other]
    simp only [Tally.count]
    split
    · rw [reclaimed]
      exact Nat.min_eq_left small
    · rename_i unknown
      rw [zero (by simp [unknown]), Nat.add_zero]
    · rename_i success _
      rw [zero success, Nat.add_zero]

end

theorem totalReclaimed_tally {disk : Disk} {store : Store}
    (legible : store.Legible) (attempt : AttemptId) :
    (disk.tally (store.decodedIntents attempt)).totalReclaimed =
      ((store.intentsForAttempt attempt).map disk.gain).sum := by
  have rows : ∀ row ∈ store.intentsForAttempt attempt,
      ∃ intent, Store.decodeIntent row = some intent :=
    fun row mem => legible.decode (Store.mem_intentsForAttempt.mp mem).1
  have bound := legible.totals attempt
  unfold Store.decodedIntents Disk.tally
  generalize store.intentsForAttempt attempt = selected at rows bound
  suffices general : ∀ tally : Tally, tally.totalReclaimed +
      (selected.map IntentRow.estimatedBytes).sum ≤ sqliteMax →
      ((selected.filterMap Store.decodeIntent).foldl disk.count tally).totalReclaimed =
      tally.totalReclaimed + (selected.map disk.gain).sum by
    simpa [Tally.start] using general Tally.start (by simpa [Tally.start])
  clear bound
  induction selected with
  | nil => simp
  | cons row rest ih =>
    intro tally bound
    obtain ⟨intent, decoded⟩ := rows row (by simp)
    rw [List.map_cons, List.sum_cons, ← Nat.add_assoc] at bound
    have step : (disk.count tally intent).totalReclaimed = tally.totalReclaimed + disk.gain row :=
      totalReclaimed_count decoded ((Nat.le_add_right _ _).trans bound)
    rw [List.filterMap_cons, decoded, List.foldl_cons,
      ih (fun other mem => rows other (by simp [mem])), step]
    · simp [Nat.add_assoc]
    · rw [step]
      refine le_trans ?_ bound
      exact Nat.add_le_add_right (Nat.add_le_add_left (gain_le disk row) _) _

/-- The attempt of a job that recovery comes to last. -/
def lastAttempt? (pairs : List (AttemptId × JobId)) (job : JobId) : Option AttemptId :=
  (pairs.filter fun pair => pair.2 = job).getLast?.map Prod.fst

def Disk.checks (disk : Disk) (store : Store) (attempt : AttemptId) (op : OperationId) : Bool :=
  ((store.intents.find (attempt, op)).bind disk.look).isSome

/-- The intent whose verdict is the last to be recorded for an operation of a job. -/
def lastChecked? (disk : Disk) (store : Store) (pairs : List (AttemptId × JobId)) (job : JobId)
    (op : OperationId) : Option IntentRow :=
  (pairs.filter fun pair => pair.2 = job && disk.checks store pair.1 op).getLast?.bind
    fun pair => store.intents.find (pair.1, op)

namespace ReconciledAll

variable {disk : Disk} {pairs : List (AttemptId × JobId)} {before after : Store}
  {attempt : AttemptId} {job : JobId}

theorem jobs (all : ReconciledAll disk pairs before after)
    (last : lastAttempt? pairs job = some attempt) (found : before.jobs.find job = some row) :
    after.jobs.find job = some { row with
      state := (disk.tally (before.decodedIntents attempt)).jobState
      totalReclaimedBytes :=
        (disk.tally (before.decodedIntents attempt)).totalReclaimed } := by
  obtain ⟨pair, listed, rfl⟩ := Option.map_eq_some_iff.mp last
  have shown := all.shown_last (.job job) (fun pair => pair.2 = job) fun pair => by
    have known : Cell.job job ∈ (disk.repairs before [pair]).map Sigma.fst ↔
        job ∈ [pair].map Prod.snd := job_mem_repairs
    simpa [Disk.repairs, eq_comm] using known.symm
  rw [listed] at shown
  obtain ⟨edit, made, written⟩ := shown
  cases made
  refine written.trans ?_
  change (before.jobs.find _).map _ = _
  rw [found]
  rfl

theorem made_operation {owner : JobId} {edit : Cell.Edit (.operation job op)}
    (made : MadeFor disk (before.decodedIntents attempt) attempt owner ⟨.operation job op, edit⟩) :
    owner = job ∧ ∃ row intent verdict, before.intents.find (attempt, op) = some row ∧
      Store.decodeIntent row = some intent ∧ disk.verdict? intent = some verdict ∧
      ∀ content, edit.apply content = some (resultRow job intent verdict) := by
  cases made with
  | @operation intent verdict known judged =>
    obtain ⟨row, mem, rfl, decoded⟩ := Store.mem_decodedIntents.mp known
    have found : before.intents.find (row.attemptId, row.opId) = some row := Table.find_of_mem mem
    rw [← (Store.decodeIntent_opId decoded).1] at found
    exact ⟨rfl, row, intent, verdict, found, decoded, judged, fun _ => rfl⟩

theorem operation_touched (legible : before.Legible) (pair : AttemptId × JobId) :
    (decide (pair.2 = job) && disk.checks before pair.1 op) = true ↔ Cell.operation job op ∈
      (disk.attemptRepairs pair.1 pair.2 (before.decodedIntents pair.1)).map Sigma.fst := by
  rw [Bool.and_eq_true, decide_eq_true_eq]
  constructor
  · rintro ⟨rfl, checks⟩
    obtain ⟨presence, seen⟩ := Option.isSome_iff_exists.mp checks
    obtain ⟨row, found, looked⟩ := Option.bind_eq_some_iff.mp seen
    obtain ⟨mem, key⟩ := Table.find_some found
    obtain ⟨intent, decoded⟩ := legible.decode mem
    cases judged : disk.verdict? intent with
    | none =>
      rw [(look_eq_none_iff decoded).mpr judged] at looked
      cases looked
    | some verdict =>
      have known : intent ∈ before.decodedIntents pair.1 :=
        Store.mem_decodedIntents.mpr ⟨row, mem, congrArg Prod.fst key, decoded⟩
      have made : MadeFor disk _ pair.1 pair.2 _ := .operation known judged
      have listed := made.mem (List.mem_singleton_self pair)
      rw [Disk.repairs, List.flatMap_singleton] at listed
      have named : intent.opId = op :=
        (Store.decodeIntent_opId decoded).1.trans (congrArg Prod.snd key)
      exact List.mem_map.mpr ⟨_, listed, congrArg (Cell.operation pair.2) named⟩
  · intro touched
    obtain ⟨repair, inside, cell⟩ := List.mem_map.mp touched
    have listed : repair ∈ disk.repairs before [pair] :=
      List.mem_flatMap.mpr ⟨pair, List.mem_singleton_self pair, inside⟩
    obtain ⟨other, same, made⟩ := madeFor listed
    cases List.mem_singleton.mp same
    obtain ⟨touched, edit⟩ := repair
    cases cell
    obtain ⟨owner, row, intent, verdict, found, decoded, judged, -⟩ := made_operation made
    have looked : (disk.look row).isSome = true := by
      rw [Option.isSome_iff_ne_none, Ne, look_eq_none_iff decoded, judged]
      exact Option.some_ne_none _
    exact ⟨owner, by rwa [Disk.checks, found]⟩

theorem operations (all : ReconciledAll disk pairs before after) (job : JobId)
    (op : OperationId) : match lastChecked? disk before pairs job op with
      | none => after.operations.find (job, op) = before.operations.find (job, op)
      | some row => ∃ intent verdict, Store.decodeIntent row = some intent ∧
          disk.verdict? intent = some verdict ∧
          after.operations.find (job, op) = some (resultRow job intent verdict) := by
  have shown := all.shown_last (.operation job op) _ (operation_touched all.legible)
  unfold lastChecked?
  cases last : (pairs.filter fun pair => decide (pair.2 = job) &&
      disk.checks before pair.1 op).getLast? with
  | none =>
    rw [last] at shown
    exact shown
  | some pair =>
    rw [last] at shown
    obtain ⟨edit, made, written⟩ := shown
    obtain ⟨-, row, intent, verdict, found, decoded, judged, applied⟩ := made_operation made
    rw [Option.bind_some, found]
    exact ⟨intent, verdict, decoded, judged, written.trans (applied _)⟩

end ReconciledAll

end CacheCleaner.RecoveryEngine
