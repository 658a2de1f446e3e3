import CacheCleaner.Fs.Presence
import CacheCleaner.Recovery.Program
import CacheCleaner.Runtime.Inspect
import CacheCleaner.Store.Log

namespace CacheCleaner

/-! Recovery without faults, as a function of the tree and the catalog: every
intent of an interrupted attempt is judged anew, whatever it said before. -/

namespace Store

variable {intent : OperationIntent} {store : Store} {row : IntentRow}

/-- What the columns and the foreign keys guarantee about rows recovery reads
back. -/
structure Sound (store : Store) : Prop where
  intents : ∀ row ∈ store.intents.rows, bindable row.columns = true
  attempts : ∀ row ∈ store.attempts.rows, bindable [row.attemptId.val, row.jobId.val] = true ∧
      store.hasJob row.jobId = true

/-- The intents decode, and those of one attempt add up to an amount the store
can hold. -/
structure Legible (store : Store) : Prop where
  targets : ∀ row ∈ store.intents.rows, (TargetId.new? row.targetId).isSome = true
  totals : ∀ attempt, ((store.intentsForAttempt attempt).map
    IntentRow.estimatedBytes).sum ≤ sqliteMax

def decodedIntents (store : Store) (attempt : AttemptId) : List OperationIntent :=
  (store.intentsForAttempt attempt).filterMap decodeIntent

theorem decodeIntent_opId (decoded : decodeIntent row = some intent) :
    intent.opId = row.opId ∧ intent.expectedIdentity = row.expectedIdentity ∧
      intent.estimatedBytes = row.estimatedBytes := by
  obtain ⟨target, -, rfl⟩ := Option.map_eq_some_iff.mp decoded
  exact ⟨rfl, rfl, rfl⟩

theorem mem_intentsForAttempt :
    row ∈ store.intentsForAttempt attempt ↔ row ∈ store.intents.rows ∧ row.attemptId = attempt := by
  simp [intentsForAttempt]

theorem mem_decodedIntents :
    intent ∈ store.decodedIntents attempt ↔ ∃ row ∈ store.intents.rows, row.attemptId = attempt ∧
        decodeIntent row = some intent := by
  simp [decodedIntents, mem_intentsForAttempt, and_assoc]

theorem decodedIntents_distinct : ((store.decodedIntents attempt).map (·.opId)).Nodup := by
  have rows : ((store.intentsForAttempt attempt).map IntentRow.opId).Nodup := by
    refine List.Nodup.of_map (fun op => (attempt, op)) ?_
    rw [List.map_map]
    refine (List.map_congr_left ?_ : _ = (store.intentsForAttempt attempt).map IntentRow.key) ▸ ?_
    · intro row mem
      simp [IntentRow.key, (mem_intentsForAttempt.mp mem).2]
    · exact store.intents.distinct.sublist (List.filter_sublist.map _)
  refine rows.sublist ?_
  unfold decodedIntents
  induction store.intentsForAttempt attempt with
  | nil => exact List.Sublist.refl _
  | cons row rest ih =>
    rw [List.filterMap_cons]
    cases decoded : decodeIntent row with
    | none => exact ih.cons _
    | some intent =>
      rw [List.map_cons, List.map_cons, (decodeIntent_opId decoded).1]
      exact ih.cons_cons _

theorem Legible.decode (legible : store.Legible) (mem : row ∈ store.intents.rows) :
    ∃ intent, decodeIntent row = some intent := by
  obtain ⟨target, read⟩ := Option.isSome_iff_exists.mp (legible.targets row mem)
  exact ⟨_, by rw [decodeIntent, read, Option.map_some]⟩

theorem Legible.mapM (legible : store.Legible) (attempt : AttemptId) :
    (store.intentsForAttempt attempt).mapM decodeIntent = some (store.decodedIntents attempt) := by
  have rows : ∀ row ∈ store.intentsForAttempt attempt, ∃ intent, decodeIntent row = some intent :=
    fun row mem => legible.decode (mem_intentsForAttempt.mp mem).1
  unfold decodedIntents
  generalize store.intentsForAttempt attempt = selected at rows
  induction selected with
  | nil => rfl
  | cons row rest ih =>
    obtain ⟨intent, decoded⟩ := rows row (by simp)
    have tail := ih fun other mem => rows other (by simp [mem])
    simp [decoded, tail]

end Store

namespace RecoveryEngine

open Effect Effect.Program

structure Disk where
  fs : Fs
  openat2 : Bool
  snapshot : CatalogSnapshot

namespace Disk

def verdict? (disk : Disk) (intent : OperationIntent) : Option Verdict :=
  (disk.snapshot.get intent.targetId).map fun target =>
    judge intent (PostconditionVerifier.inspect disk.fs disk.openat2
      target.basePath intent.relPath intent.expectedIdentity)

def state (disk : Disk) (intent : OperationIntent) : IntentState :=
  match disk.verdict? intent with
  | none => .resolvedUnknown
  | some verdict => verdict.state

def count (disk : Disk) (tally : Tally) (intent : OperationIntent) : Tally :=
  match disk.verdict? intent with
  | none => tally.lost
  | some verdict => tally.count verdict

def tally (disk : Disk) (intents : List OperationIntent) : Tally :=
  intents.foldl disk.count Tally.start

end Disk

def Disk.rowState (disk : Disk) (row : IntentRow) : IntentState :=
  match Store.decodeIntent row with
  | none => row.state
  | some intent => disk.state intent

variable {disk : Disk} {attempt : AttemptId} {job : JobId} {before : Store}
  {intent : OperationIntent}

def Recordable (attempt : AttemptId) (job : JobId) (intent : OperationIntent) : Prop :=
  Store.bindable [attempt.val, job.val, intent.opId.val,
    intent.expectedIdentity.dev, intent.expectedIdentity.ino, intent.estimatedBytes] = true

theorem judge_reclaimed_le (intent : OperationIntent) (outcome : VerificationOutcome) :
    (judge intent outcome).reclaimed ≤ intent.estimatedBytes := by
  cases outcome <;> simp [judge]

theorem Recordable.bounds (recordable : Recordable attempt job intent) :
    attempt.val ≤ sqliteMax ∧ job.val ≤ sqliteMax ∧ intent.opId.val ≤ sqliteMax ∧
      intent.expectedIdentity.dev ≤ sqliteMax ∧ intent.expectedIdentity.ino ≤ sqliteMax ∧
      intent.estimatedBytes ≤ sqliteMax := by
  simpa only [Recordable, Store.bindable, List.all_cons, List.all_nil,
    Bool.and_true, Bool.and_eq_true, decide_eq_true_eq] using recordable

theorem totalReclaimed_foldl_le (intents : List OperationIntent) (tally : Tally) :
    (intents.foldl disk.count tally).totalReclaimed ≤
      tally.totalReclaimed + (intents.map (·.estimatedBytes)).sum := by
  induction intents generalizing tally with
  | nil => simp
  | cons intent rest ih =>
    have step : (disk.count tally intent).totalReclaimed ≤
        tally.totalReclaimed + intent.estimatedBytes := by
      unfold Disk.count Disk.verdict?
      cases disk.snapshot.get intent.targetId with
      | none => simp [Tally.lost]
      | some target =>
        have bound := judge_reclaimed_le intent (PostconditionVerifier.inspect disk.fs disk.openat2
            target.basePath intent.relPath intent.expectedIdentity)
        simp only [Option.map_some, Tally.count]
        split
        · exact (Nat.min_le_left _ _).trans (Nat.add_le_add_left bound _)
        · exact Nat.le_add_right _ _
        · exact Nat.le_add_right _ _
    rw [List.foldl_cons, List.map_cons, List.sum_cons, ← Nat.add_assoc]
    exact (ih (disk.count tally intent)).trans (Nat.add_le_add_right step _)

theorem estimated_decodedIntents (legible : before.Legible) (attempt : AttemptId) :
    (before.decodedIntents attempt).map (·.estimatedBytes) =
      (before.intentsForAttempt attempt).map IntentRow.estimatedBytes := by
  have rows : ∀ row ∈ before.intentsForAttempt attempt,
      ∃ intent, Store.decodeIntent row = some intent :=
    fun row mem =>
      legible.decode (Store.mem_intentsForAttempt.mp mem).1
  unfold Store.decodedIntents
  generalize before.intentsForAttempt attempt = selected at rows
  induction selected with
  | nil => rfl
  | cons row rest ih =>
    obtain ⟨intent, decoded⟩ := rows row (by simp)
    have tail := ih fun other mem => rows other (by simp [mem])
    rw [List.filterMap_cons, decoded]
    simp only [List.map_cons, tail, (Store.decodeIntent_opId decoded).2.2]

theorem total_verifyBeneath (expected : FileIdentity) (leaf : String)
    (directory : FileIdentity) (names : List String) :
    Total (PostconditionVerifier.verifyBeneath expected leaf directory names) := by
  induction names generalizing directory with
  | nil => exact fun _ => trivial
  | cons name rest ih =>
    intro reply
    cases reply with
    | error errno => trivial
    | ok child => exact ih child

theorem total_verifyOperationPostcondition :
    Total (PostconditionVerifier.verifyOperationPostcondition basePath path expected) := by
  intro reply
  cases reply with
  | error errno => trivial
  | ok root =>
    dsimp only
    cases path.leafName? with
    | none => trivial
    | some leaf => exact total_verifyBeneath _ _ _ _

section

variable {store : Store} {row : AttemptRow}

theorem attempt_bounds (sound : store.Sound) (listed : row ∈ store.attempts.rows) :
    row.attemptId.val ≤ sqliteMax ∧ row.jobId.val ≤ sqliteMax ∧ store.hasJob row.jobId = true := by
  obtain ⟨columns, known⟩ := sound.attempts row listed
  simp only [Store.bindable, List.all_cons, List.all_nil, Bool.and_true,
    Bool.and_eq_true, decide_eq_true_eq] at columns
  exact ⟨columns.1, columns.2, known⟩

theorem recordable_decodedIntents (sound : store.Sound) (listed : row ∈ store.attempts.rows) :
    ∀ intent ∈ store.decodedIntents row.attemptId, Recordable row.attemptId row.jobId intent := by
  intro intent mem
  obtain ⟨attemptBound, jobBound, -⟩ := attempt_bounds sound listed
  obtain ⟨old, inside, -, decoded⟩ := Store.mem_decodedIntents.mp mem
  obtain ⟨op, expected, estimated⟩ := Store.decodeIntent_opId decoded
  have bounds := sound.intents old inside
  simp only [Store.bindable, IntentRow.columns, List.all_cons, List.all_nil,
    Bool.and_true, Bool.and_eq_true, decide_eq_true_eq] at bounds
  simp [Recordable, Store.bindable, op, expected, estimated, attemptBound, jobBound, bounds]

theorem totalReclaimed_tally_le (legible : store.Legible) (attempt : AttemptId) :
    (disk.tally (store.decodedIntents attempt)).totalReclaimed ≤ sqliteMax := by
  refine (totalReclaimed_foldl_le _ Tally.start).trans ?_
  rw [estimated_decodedIntents legible]
  simpa [Tally.start] using legible.totals attempt

end

end RecoveryEngine

end CacheCleaner
