import Mathlib

namespace CacheCleaner

/-! Identifiers, counters and errors shared by every layer.  Unsigned 64-bit
values are natural numbers; the operations that saturate or wrap say so. -/

def u64Max : Nat := 2 ^ 64 - 1

/-- Largest integer a SQLite column holds; binding a larger `u64` fails. -/
def sqliteMax : Nat := 2 ^ 63 - 1

def saturatingAdd (left right : Nat) : Nat := min (left + right) u64Max

def saturatingMul (left right : Nat) : Nat := min (left * right) u64Max

def saturatingSum (values : List Nat) : Nat := values.foldl saturatingAdd 0

theorem saturatingSum_append : saturatingSum (values ++ [value]) =
      saturatingAdd (saturatingSum values) value := by
  rw [saturatingSum, List.foldl_append]
  rfl

theorem saturatingSum_eq_min : saturatingSum values = min values.sum u64Max := by
  induction values using List.reverseRecOn with
  | nil => rfl
  | append_singleton values value ih =>
    rw [saturatingSum_append, saturatingAdd, ih, List.sum_append, List.sum_singleton]
    omega

def dedup [DecidableEq α] : List α → List α
  | [] => []
  | [item] => [item]
  | first :: second :: rest =>
    if first = second then dedup (second :: rest)
    else first :: dedup (second :: rest)

theorem mem_dedup [DecidableEq α] {items : List α} {item : α} :
    item ∈ dedup items ↔ item ∈ items := by
  fun_induction dedup items with
  | case1 => rfl
  | case2 => rfl
  | case3 first rest ih => simp [ih]
  | case4 first second rest different ih => simp [ih]

structure JobId where
  val : Nat
  deriving DecidableEq, Repr

structure AttemptId where
  val : Nat
  deriving DecidableEq, Repr

structure OperationId where
  val : Nat
  deriving DecidableEq, Repr

structure PlanId where
  val : Nat
  deriving DecidableEq, Repr

structure WorkerId where
  val : Nat
  deriving DecidableEq, Repr

structure GrantId where
  val : Nat
  deriving DecidableEq, Repr

structure CandidateId where
  val : Nat
  deriving DecidableEq, Repr

structure ConfigGeneration where
  val : Nat
  deriving DecidableEq, Repr

structure CatalogGeneration where
  val : Nat
  deriving DecidableEq, Repr

def ConfigGeneration.initial : ConfigGeneration := ⟨1⟩

def CatalogGeneration.initial : CatalogGeneration := ⟨1⟩

def ConfigGeneration.nextSaturating (generation : ConfigGeneration) : ConfigGeneration :=
  ⟨saturatingAdd generation.val 1⟩

def CatalogGeneration.next? (generation : CatalogGeneration) : Option CatalogGeneration :=
  if generation.val + 1 ≤ u64Max then some ⟨generation.val + 1⟩ else none

abbrev ByteCount := Nat

def ByteCount.maxSafe : ByteCount := 10 * 1024 * 1024 * 1024

/-- `ByteCount::new`; `none` is its assertion failure. -/
def ByteCount.new? (bytes : Nat) : Option ByteCount :=
  if bytes ≤ ByteCount.maxSafe then some bytes else none

abbrev UnixTimestamp := Nat

/-- `age_secs`: natural subtraction saturates as `saturating_sub` does. -/
def UnixTimestamp.ageSecs (time now : UnixTimestamp) : Nat := now - time

structure FileIdentity where
  dev : Nat
  ino : Nat
  deriving DecidableEq, Repr

instance : ToString JobId := ⟨fun job => s!"job-{job.val}"⟩
instance : ToString AttemptId := ⟨fun attempt => s!"attempt-{attempt.val}"⟩
instance : ToString OperationId := ⟨fun op => s!"op-{op.val}"⟩
instance : ToString ConfigGeneration := ⟨fun generation => s!"ConfigGeneration-{generation.val}"⟩
instance : ToString CatalogGeneration := ⟨fun generation => s!"CatalogGeneration-{generation.val}"⟩
instance : ToString FileIdentity := ⟨fun identity => s!"[dev:{identity.dev}:ino:{identity.ino}]"⟩

def isControl (character : Char) : Bool :=
  character.toNat < 0x20 || (0x7f ≤ character.toNat && character.toNat ≤ 0x9f)

def isWhitespace (character : Char) : Bool :=
  let code := character.toNat
  (0x09 ≤ code && code ≤ 0x0d) || code == 0x20 || code == 0x85 ||
    code == 0xa0 || code == 0x1680 || (0x2000 ≤ code && code ≤ 0x200a) ||
    code == 0x2028 || code == 0x2029 || code == 0x202f || code == 0x205f ||
    code == 0x3000

def isBlank (text : String) : Bool := text.toList.all isWhitespace

def containsChar (text : String) (character : Char) : Bool := text.toList.contains character

/-- Whether one character list occurs in another as a contiguous block. -/
def occursIn (pattern : List Char) : List Char → Bool
  | [] => pattern.isEmpty
  | text@(_ :: rest) => pattern.isPrefixOf text || occursIn pattern rest

def containsText (text pattern : String) : Bool := occursIn pattern.toList text.toList

def startsWithText (text pattern : String) : Bool := pattern.toList.isPrefixOf text.toList

def endsWithText (text pattern : String) : Bool := pattern.toList.isSuffixOf text.toList

def toAsciiLower (character : Char) : Char :=
  if 'A' ≤ character ∧ character ≤ 'Z' then
    Char.ofNat (character.toNat + 32)
  else character

def eqIgnoreAsciiCase (left right : String) : Bool :=
  left.toList.map toAsciiLower == right.toList.map toAsciiLower

structure TargetId where
  val : String
  deriving DecidableEq, Repr

instance : ToString TargetId := ⟨fun target => s!"target:{target.val}"⟩

/-- `TargetId::new`; `none` is its panic. -/
def TargetId.new? (id : String) : Option TargetId :=
  if isBlank id || decide (512 < id.utf8ByteSize) || containsChar id '\x00' ||
      containsChar id '\n' then none
  else some ⟨id⟩

/-- `TargetId::try_new`, which admits a newline that `TargetId::new` rejects. -/
def TargetId.tryNew (id : String) : Option TargetId :=
  if isBlank id || decide (512 < id.utf8ByteSize) || containsChar id '\x00' then
    none
  else some ⟨id⟩

inductive Errno where
  | noent | access | perm | io | stale | busy | rofs | notDir | inval | xdev
  | loop | isDir | notEmpty | nameTooLong
  | other (code : Nat)
  deriving DecidableEq, Repr

def Errno.code : Errno → Nat
  | .noent => 2
  | .access => 13
  | .perm => 1
  | .io => 5
  | .stale => 116
  | .busy => 16
  | .rofs => 30
  | .notDir => 20
  | .inval => 22
  | .xdev => 18
  | .loop => 40
  | .isDir => 21
  | .notEmpty => 39
  | .nameTooLong => 36
  | .other code => code

instance : ToString Errno := ⟨fun errno => s!"os error {errno.code}"⟩

/-- The safety violations the modelled functions report, each with the values
its message prints. -/
inductive Violation where
  | targetForbidsMutation (target : TargetId) (tier : String)
  | candidateTargetMismatch (candidate target : TargetId)
  | mountBoundary (candidateDev targetDev : Nat)
  | rootAsCandidate
  | readOnlyTarget (target : TargetId) (tier : String)
  | mutateTargetRoot
  | deviceMismatch (expectedDev targetDev : Nat)
  | targetGenerationMismatch (target expected : CatalogGeneration)
  | rootTargeted
  | protectedRoot (root path : String)
  | identityMismatch (noun name : String) (current expected : FileIdentity)
  | lockCollision (target : TargetId) (holder : AttemptId)
  | planCatalogStale (plan current : CatalogGeneration)
  | planConfigStale (plan current : ConfigGeneration)
  | executionRejected
  | leaseUnavailable (job : JobId)
  | invalidLeafName
  deriving DecidableEq, Repr

def Violation.message : Violation → String
  | .targetForbidsMutation target tier =>
    s!"Target {target} safety tier {tier} strictly forbids mutation"
  | .candidateTargetMismatch candidate target =>
    s!"Candidate target ID mismatch: candidate {candidate} vs target {target}"
  | .mountBoundary candidateDev targetDev =>
    s!"Mount boundary violation: candidate dev dev:{candidateDev} != " ++
      s!"target root dev dev:{targetDev}"
  | .rootAsCandidate =>
    "Attempted to validate root target directory itself as a deletion candidate"
  | .readOnlyTarget target tier =>
    s!"Mutation boundary rejected: Target {target} safety tier {tier} is read-only"
  | .mutateTargetRoot =>
    "Mutation boundary rejected: Attempted to mutate target root directory directly"
  | .deviceMismatch expectedDev targetDev =>
    s!"Mutation boundary rejected: Device mismatch expected dev:{expectedDev} vs " ++
      s!"target root dev:{targetDev}"
  | .targetGenerationMismatch target expected =>
    s!"Catalog generation mismatch: target {target} vs expected {expected}"
  | .rootTargeted =>
    "Critical invariant violation: Root '/' must never be targeted for mutation"
  | .protectedRoot root path =>
    s!"Critical invariant violation: Protected system root '{root}' must never be targeted " ++
      s!"for mutation (path: {path})"
  | .identityMismatch noun name current expected =>
    s!"TOCTOU race detected: {noun} {name} identity {current} does not match expected {expected}"
  | .lockCollision target holder =>
    s!"Concurrent mutation collision: Target {target} is already locked by attempt {holder.val}"
  | .planCatalogStale plan current =>
    s!"Authorization rejected: plan catalog generation {plan} is stale against " ++
      s!"catalog generation {current}"
  | .planConfigStale plan current =>
    s!"Authorization rejected: plan config generation {plan} is stale against " ++
      s!"config generation {current}"
  | .executionRejected =>
    "Execution rejected: AuthorizedPlan has expired or generation is invalid"
  | .leaseUnavailable job =>
    s!"Failed to acquire execution lease for job {job}: already claimed by another worker"
  | .invalidLeafName => "Invalid UTF-8 in leaf filename"

inductive CleanerError where
  | io (errno : Errno)
  | config (message : String)
  | configError (message : String)
  | safetyViolation (violation : Violation)
  | storage (message : String)
  | planBudgetExceeded (count limit : Nat)
  | planValidationFailed (message : String)
  deriving DecidableEq, Repr

def CleanerError.display : CleanerError → String
  | .io errno => s!"I/O error: {errno}"
  | .config message => s!"Configuration error: {message}"
  | .configError message => s!"Configuration error: {message}"
  | .safetyViolation violation => s!"Safety violation: {violation.message}"
  | .storage message => s!"Storage error: {message}"
  | .planBudgetExceeded count limit =>
    s!"Plan budget exceeded: candidate count {count} exceeds limit {limit}"
  | .planValidationFailed message => s!"Plan validation failed: {message}"

instance : ToString CleanerError := ⟨CleanerError.display⟩

abbrev Result (α : Type) := Except CleanerError α

end CacheCleaner
