import CacheCleaner.Domain.Plan
import CacheCleaner.Effect.Machine
import CacheCleaner.Json.Text

namespace CacheCleaner

open Effect

structure JobAuditRecord where
  jobId : JobId
  attemptId : Nat
  recordedAt : UnixTimestamp
  durationMs : Nat
  totalReclaimedBytes : Nat
  operationsTotal : Nat
  operationsSuccessful : Nat
  operationsFailed : Nat
  operationsSkipped : Nat
  success : Bool
  deriving DecidableEq, Repr

namespace JobAuditRecord

def of (result : JobResult) (durationMs : Nat) (now : UnixTimestamp) : JobAuditRecord where
  jobId := result.jobId
  attemptId := result.attemptId.val
  recordedAt := now
  durationMs := durationMs
  totalReclaimedBytes := result.totalReclaimed
  operationsTotal := result.totalOperations
  operationsSuccessful := result.successfulOperations
  operationsFailed := result.failedOperations
  operationsSkipped := result.skippedOperations
  success := result.failedOperations = 0

def counts (record : JobAuditRecord) : List (String × Nat) :=
  [("job_id", record.jobId.val), ("attempt_id", record.attemptId),
    ("recorded_at", record.recordedAt), ("duration_ms", record.durationMs),
    ("total_reclaimed_bytes", record.totalReclaimedBytes),
    ("operations_total", record.operationsTotal),
    ("operations_successful", record.operationsSuccessful),
    ("operations_failed", record.operationsFailed),
    ("operations_skipped", record.operationsSkipped)]

def value (record : JobAuditRecord) : Json.Value F :=
  .obj (record.counts.map (Prod.map id .nat) ++ [("success", .bool record.success)])

def toJson (library : Json.Library F) (record : JobAuditRecord) : List Char :=
  library.print record.value

def line (library : Json.Library F) (record : JobAuditRecord) : List Char :=
  record.toJson library ++ ['\n']

end JobAuditRecord

def maxAuditLogSizeBytes : Nat := 10 * 1024 * 1024

/-- What becomes of the calls to the file system; a failing write leaves the
first `write` characters of the line. -/
structure AuditFaults where
  rename : Bool
  reopen : Bool
  write : Option Nat
  sync : Bool
  deriving DecidableEq, Repr

/-- A call of `record_job` and what surrounds it. -/
structure AuditCall where
  result : JobResult
  durationMs : Nat
  now : UnixTimestamp
  faults : AuditFaults

def AuditCall.record (call : AuditCall) : JobAuditRecord := .of call.result call.durationMs call.now

/-- The file at the log's path; the writer has it open only where it is
`held`. -/
inductive AuditFile where
  | missing
  | shut (text : List Char)
  | held (text : List Char)

def AuditFile.text : AuditFile → List Char
  | .missing => []
  | .shut text | .held text => text

structure AuditLogger where
  file : AuditFile
  rotated : Option (List Char)

namespace AuditLogger

variable {F : Type} {library : Json.Library F} {logger : AuditLogger} {call : AuditCall}

/-- A file that is missing has no length, so nothing is rotated then. -/
def full (logger : AuditLogger) : Bool := maxAuditLogSizeBytes ≤ logger.file.text.length

/-- The writer is closed before it is known that a new one opens. -/
def rotate (logger : AuditLogger) (faults : AuditFaults) : AuditLogger :=
  match faults.rename, faults.reopen with
  | true, true => { logger with file := .shut logger.file.text }
  | true, false => { logger with file := .held logger.file.text }
  | false, true => ⟨.missing, some logger.file.text⟩
  | false, false => ⟨.held [], some logger.file.text⟩

def ready (logger : AuditLogger) (faults : AuditFaults) : AuditLogger :=
  if logger.full then logger.rotate faults else logger

section

variable (library : Json.Library F)

def written (call : AuditCall) : List Char :=
  let line := call.record.line library
  line.take (call.faults.write.getD line.length)

variable (logger : AuditLogger)

/-- `record_job`, with whether it returns `Ok`. -/
def recordJob (call : AuditCall) :
    Bool × AuditLogger :=
  let ready := logger.ready call.faults
  match ready.file with
  | .held text =>
    (call.faults.write.isNone && !call.faults.sync,
      { ready with file := .held (text ++ written library call) })
  | _ => (true, ready)

def recording : Machine AuditLogger AuditCall Bool :=
  ⟨recordJob library⟩

def AtLineStart (text : List Char) : Prop := ∀ c ∈ text.getLast?, c = '\n'

/-- The record is the last line of the current file, after what was there before
or in a file of its own. -/
def Appended (before : AuditLogger) (call : AuditCall)
    (after : AuditLogger) : Prop :=
  ∃ text, after.file = .held (text ++ call.record.line library) ∧ AtLineStart text ∧
    '\n' ∉ call.record.toJson library ∧
    (text = before.file.text ∨ text = [] ∧ after.rotated = some before.file.text)

def contents : List Char := logger.rotated.getD [] ++ logger.file.text

def adds (call : AuditCall) : List Char :=
  match (logger.ready call.faults).file with
  | .held _ => written library call
  | _ => []

structure DropsNothing (calls : List AuditCall) :
    Prop where
  appended : ∀ visit ∈ (recording library).visits logger calls,
    (visit.1.recordJob library visit.2).1 = true →
      Appended library visit.1 visit.2 (visit.1.recordJob library visit.2).2
  ordered : ∀ front, front <+: calls → ((recording library).after logger front).contents <:+
    logger.contents ++ ((recording library).visits logger front).flatMap fun visit =>
      visit.1.adds library visit.2

end

structure Fits (logger : AuditLogger) (call : AuditCall) : Prop where
  reopens : logger.full = true → call.faults.reopen = false
  held : logger.full = false → ∃ text, logger.file = .held text
  starts : call.faults.write = none → call.faults.sync = false →
    logger.full = true ∧ call.faults.rename = false ∨ AtLineStart logger.file.text

theorem appended_iff_of_held (opened : logger.ready call.faults = ⟨.held text, aside⟩)
    (origin : text = logger.file.text ∨ text = [] ∧ aside = some logger.file.text) :
    ((logger.recordJob library call).1 = true →
      Appended library logger call (logger.recordJob library call).2) ↔
      (call.faults.write = none → call.faults.sync = false → AtLineStart text) := by
  simp only [recordJob, opened, Bool.and_eq_true, Option.isNone_iff_eq_none, Bool.not_eq_true',
    and_imp]
  refine imp_congr_right fun whole => imp_congr_right fun _ => ?_
  have all : written library call = call.record.line library := by simp [written, whole]
  rw [all]
  constructor
  · rintro ⟨other, same, starts, -⟩
    obtain rfl : text = other := List.append_cancel_right (AuditFile.held.inj same)
    exact starts
  · exact fun starts => ⟨text, rfl, starts, library.oneLine _, origin⟩

theorem recordJob_of_not_held (lost : ∀ text, (logger.ready call.faults).file ≠ .held text) :
    logger.recordJob library call = (true, logger.ready call.faults) := by
  cases file : (logger.ready call.faults).file with
  | held text => exact absurd file (lost text)
  | _ => simp only [recordJob, file]

theorem fits_iff :
    ((logger.recordJob library call).1 = true →
      Appended library logger call (logger.recordJob library call).2) ↔
      Fits logger call := by
  have lost (shut : ∀ text, (logger.ready call.faults).file ≠ .held text) :
      ¬ ((logger.recordJob library call).1 = true →
        Appended library logger call (logger.recordJob library call).2) := by
    rw [recordJob_of_not_held shut]
    intro appended
    obtain ⟨text, held, -⟩ := appended rfl
    exact shut _ held
  cases full : logger.full with
  | true =>
    have rotates : logger.ready call.faults = logger.rotate call.faults := if_pos full
    cases reopen : call.faults.reopen with
    | true =>
      refine iff_of_false (lost fun text => ?_) fun fits => ?_
      · rw [rotates, rotate, reopen]
        cases call.faults.rename <;> exact nofun
      · simpa [reopen] using fits.reopens full
    | false =>
      cases rename : call.faults.rename with
      | true =>
        have opened : logger.ready call.faults = ⟨.held logger.file.text, logger.rotated⟩ := by
          rw [rotates, rotate, rename, reopen]
        rw [appended_iff_of_held opened (.inl rfl)]
        refine ⟨fun starts => ⟨fun _ => reopen, by simp [full], fun whole synced => ?_⟩, ?_⟩
        · exact .inr (starts whole synced)
        · intro fits whole synced
          simpa [rename] using fits.starts whole synced
      | false =>
        have opened : logger.ready call.faults = ⟨.held [], some logger.file.text⟩ := by
          rw [rotates, rotate, rename, reopen]
        rw [appended_iff_of_held opened (.inr ⟨rfl, rfl⟩)]
        exact iff_of_true (fun _ _ => nofun)
          ⟨fun _ => reopen, by simp [full], fun _ _ => .inl ⟨full, rename⟩⟩
  | false =>
    have same : logger.ready call.faults = logger := if_neg (by simp [full])
    cases file : logger.file with
    | held text =>
      have opened : logger.ready call.faults = ⟨.held text, logger.rotated⟩ := by
        rw [same, ← file]
      rw [appended_iff_of_held opened (.inl (by rw [file, AuditFile.text]))]
      refine ⟨fun starts => ⟨by simp [full], fun _ => ⟨text, file⟩, fun whole synced => ?_⟩, ?_⟩
      · rw [file]
        exact .inr (starts whole synced)
      · intro fits whole synced
        simpa [full, file, AuditFile.text] using fits.starts whole synced
    | _ =>
      refine iff_of_false (lost fun text => by simp [same, file]) fun fits => ?_
      simpa [file] using fits.held full

theorem contents_ready (logger : AuditLogger) (faults : AuditFaults) :
    (logger.ready faults).contents <:+ logger.contents := by
  unfold ready
  split
  · unfold rotate
    split <;> simp [contents, AuditFile.text]
  · exact List.suffix_rfl

theorem contents_recordJob :
    (logger.recordJob library call).2.contents =
      (logger.ready call.faults).contents ++ logger.adds library call := by
  cases file : (logger.ready call.faults).file <;>
    simp [recordJob, adds, file, contents, AuditFile.text]

theorem contents_after (library : Json.Library F) (logger : AuditLogger) (calls : List AuditCall) :
    ((recording library).after logger calls).contents <:+ logger.contents ++
      ((recording library).visits logger calls).flatMap fun visit =>
        visit.1.adds library visit.2 := by
  induction calls generalizing logger with
  | nil => simp [Machine.visits]
  | cons call rest ih =>
    refine (ih _).trans ?_
    rw [Machine.visits, List.flatMap_cons, ← List.append_assoc]
    change (logger.recordJob library call).2.contents ++ _ <:+ _
    obtain ⟨older, ready⟩ := contents_ready logger call.faults
    rw [contents_recordJob, ← ready]
    exact ⟨older, by simp⟩

/-- Nothing is dropped silently exactly when every call finds a writer or opens
one and starts a line. -/
theorem dropsNothing_iff (library : Json.Library F) (logger : AuditLogger)
    (calls : List AuditCall) :
    DropsNothing library logger calls ↔
      ∀ visit ∈ (recording library).visits logger calls, Fits visit.1 visit.2 := by
  constructor
  · intro drops visit member
    exact fits_iff.mp (drops.appended visit member)
  · intro fits
    exact ⟨fun visit member => fits_iff.mpr (fits visit member),
      fun front _ => contents_after library logger front⟩

theorem recordJob_failed_reopen (full : logger.full = true) (renamed : call.faults.rename = false)
    (failed : call.faults.reopen = true) :
    logger.recordJob library call = (true, ⟨.missing, some logger.file.text⟩) := by
  have rotates : logger.ready call.faults = ⟨.missing, some logger.file.text⟩ := by
    rw [ready, if_pos full, rotate, renamed, failed]
  rw [recordJob_of_not_held (by simp [rotates]), rotates]

theorem after_missing (library : Json.Library F) (calls : List AuditCall) :
    (recording library).after ⟨.missing, aside⟩ calls = ⟨.missing, aside⟩ := by
  induction calls with
  | nil => rfl
  | cons call rest ih => exact ih

/-- A log of full size is set aside and cannot be opened again: the records of all
later jobs are dropped with `Ok`. -/
theorem dropped_after_failed_reopen : ∃ (start : AuditLogger) (failing : AuditCall),
    ∀ {F : Type} (library : Json.Library F),
    (∀ later, (recording library).after start (failing :: later) =
      (recording library).after start [failing]) ∧
      ∀ call, (((recording library).after start [failing]).recordJob library call).1 = true := by
  obtain ⟨text, long⟩ : ∃ text : List Char, text.length = maxAuditLogSizeBytes :=
    ⟨List.replicate _ '\n', List.length_replicate⟩
  have full : full ⟨.held text, none⟩ = true := decide_eq_true (Nat.le_of_eq long.symm)
  refine ⟨⟨.held text, none⟩, ⟨⟨⟨1⟩, ⟨1⟩, 0, 0, 0, 0, 0⟩, 0, 0, false, true, none, false⟩, ?_⟩
  intro F library
  simp only [Machine.after_cons, Machine.after_nil]
  rw [show (recording library).step _ _ = _ from recordJob_failed_reopen full rfl rfl]
  exact ⟨after_missing library, fun _ => rfl⟩

end AuditLogger

end CacheCleaner
