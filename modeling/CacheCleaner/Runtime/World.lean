import CacheCleaner.Catalog.Discovery
import CacheCleaner.Effect.Program
import CacheCleaner.Fs.Below
import CacheCleaner.Store.Sqlite

namespace CacheCleaner

/-! The boundary between the program and its surroundings: the requests it
makes, the world that persists between them, and an environment that decides
everything the program cannot. -/

inductive StoreWrite where
  | registerJob (job : JobId) (jobType : String) (catalog : CatalogGeneration)
      (config : ConfigGeneration)
  | updateJobState (job : JobId) (state : JobRowState) (total : ByteCount)
  | createAttempt (attempt : AttemptId) (job : JobId) (worker : WorkerId) (lease : Nat)
  | updateAttemptState (attempt : AttemptId) (state : AttemptState)
  | commitOperationIntent (intent : OperationIntent)
  | updateIntentState (attempt : AttemptId) (op : OperationId) (state : IntentState)
  | recordOperationResult (row : OperationRow)
  | releaseLease (resource : String) (worker : WorkerId)
  deriving DecidableEq

namespace StoreWrite

def statement (now : UnixTimestamp) : StoreWrite → Store.Statement Unit
  | .registerJob job jobType catalog config =>
    Store.registerJob job jobType catalog config now
  | .updateJobState job state total => Store.updateJobState job state total now
  | .createAttempt attempt job worker lease =>
    Store.createAttempt attempt job worker lease now
  | .updateAttemptState attempt state =>
    Store.updateAttemptState attempt state now
  | .commitOperationIntent intent => Store.commitOperationIntent intent
  | .updateIntentState attempt op state =>
    Store.updateIntentState attempt op state now
  | .recordOperationResult row => Store.recordOperationResult row now
  | .releaseLease resource worker => Store.releaseLease resource worker

def failureText : StoreWrite → String
  | .registerJob job _ _ _ => s!"Failed to register job {job}: "
  | .updateJobState job _ _ => s!"Failed to update job {job} state: "
  | .createAttempt attempt _ _ _ => s!"Failed to create attempt {attempt}: "
  | .updateAttemptState attempt _ => s!"Failed to update attempt {attempt} state: "
  | .commitOperationIntent _ => "Failed to commit operation intent: "
  | .updateIntentState _ _ _ => "Failed to update intent state: "
  | .recordOperationResult _ => "Failed to record operation result: "
  | .releaseLease resource _ => s!"Failed to release lease {resource}: "

end StoreWrite

structure SafeDirEntry where
  name : String
  isDir : Bool
  isSymlink : Bool
  identity : FileIdentity
  sizeBytes : Nat
  mtimeSecs : Nat
  deriving DecidableEq, Repr

inductive Caller where
  | scanner | executor | verifier
  deriving DecidableEq, Repr

inductive Request where
  | now
  | isCancelled
  | throttleMutation
  | acquireTargetLock (target : TargetId) (attempt : AttemptId)
  | acquireFdPermit
  | discover
  | frozenUids
  | trimMounts
  | recordAudit (result : JobResult)
  | openRoot (caller : Caller) (path : String)
  | openChild (caller : Caller) (directory : FileIdentity) (name : String)
  | statChild (directory : FileIdentity) (name : String)
  | unlink (directory : FileIdentity) (name : String)
  | rmdir (directory : FileIdentity) (name : String)
  | readEntries (directory : FileIdentity)
  | pathExists (path : String)
  | write (write : StoreWrite)
  | acquireLease (resource : String) (worker : WorkerId) (ttl : Nat)
  | maxJobId
  | maxAttemptId
  | uncompletedAttempts
  | intentsForAttempt (attempt : AttemptId)
  /-- The clock reading that opens `execute_plan`, with its arguments. -/
  | enterExecutePlan (authorized : AuthorizedPlan)
      (catalog : CatalogGeneration) (config : ConfigGeneration) (attempt : AttemptId)

abbrev Reply : Request → Type
  | .now => UnixTimestamp
  | .isCancelled => Bool
  | .throttleMutation => Unit
  | .acquireTargetLock _ _ => Result Unit
  | .acquireFdPermit => Bool
  | .discover => PlatformView
  | .frozenUids => List Nat
  | .trimMounts => Bool
  | .recordAudit _ => Bool
  | .openRoot _ _ => Except Errno FileIdentity
  | .openChild _ _ _ => Except Errno FileIdentity
  | .statChild _ _ => Except Errno FileIdentity
  | .unlink _ _ => Except Errno Unit
  | .rmdir _ _ => Except Errno Unit
  | .readEntries _ => Except Errno (List SafeDirEntry)
  | .pathExists _ => Bool
  | .write _ => Result Unit
  | .acquireLease _ _ _ => Result Bool
  | .maxJobId => Result Nat
  | .maxAttemptId => Result Nat
  | .uncompletedAttempts => Result (List (AttemptId × JobId))
  | .intentsForAttempt _ => Result (List IntentRow)
  | .enterExecutePlan _ _ _ _ => UnixTimestamp

abbrev Act := Effect.Program Request Reply

def ask (request : Request) : Act (Reply request) := Effect.Program.perform request

/-- An errno other than `ENOENT`, which is only ever reported for a missing
name. -/
structure Fault where
  errno : Errno
  exists_ : errno ≠ .noent

/-- Everything decided outside the program, indexed by the number of requests
made so far.  A fault makes a call fail without any effect. -/
structure Env where
  now : Nat → UnixTimestamp
  nowBounded : ∀ tick, now tick ≤ u64Max
  cancelled : Nat → Bool
  lockHolder : Nat → Option AttemptId
  fdPermit : Nat → Bool
  platform : Nat → PlatformView
  frozenUids : Nat → List Nat
  trimmed : Nat → Bool
  audited : Nat → Bool
  openat2 : Bool
  openFault : Nat → Option Fault
  statFault : Nat → Option Fault
  /-- A stat of a missing name that does not say so. -/
  absentFault : Nat → Option Fault
  removeFault : Nat → Option Fault
  readFault : Nat → Option Fault
  /-- Entries of a listing that cannot be examined. -/
  hidden : Nat → String → Bool
  /-- Failures of `Path::exists`, which reads them as absence. -/
  existsFault : Nat → Bool
  writeFault : Nat → StoreWrite → Bool
  queryFault : Nat → Bool
  /-- The order of rows a query does not order. -/
  rowOrder : IterationOrder (AttemptId × JobId)

structure World where
  tick : Nat
  fs : Fs
  store : Store
  audit : List JobResult

def World.advance (world : World) : World := { world with tick := world.tick + 1 }

def World.withFs (world : World) (fs : Fs) : World := { world with fs }

def World.withStore (world : World) (store : Store) : World := { world with store }

/-- The entries `read_entries_fd` keeps: files, directories and links that can
be examined, in listing order. -/
def Fs.safeEntries (fs : Fs) (hidden : String → Bool)
    (directory : FileIdentity) : List SafeDirEntry :=
  match fs.inode directory with
  | none => []
  | some inode =>
    inode.listing.entries.filterMap fun (name, entry) =>
      if hidden name then none
      else
        (fs.inode entry.node).bind fun node =>
          match node.kind with
          | .special => none
          | .regular => some ⟨name, false, false, entry.node, node.size, node.mtime⟩
          | .directory => some ⟨name, true, false, entry.node, node.size, node.mtime⟩
          | .symlink _ => some ⟨name, false, true, entry.node, node.size, node.mtime⟩

namespace Env

def guarded (fault : Option Fault) (answer : Except Errno α) : Except Errno α :=
  match fault with
  | some fault => .error fault.errno
  | none => answer

variable (env : Env)

def stat (tick : Nat) (answer : Except Errno FileIdentity) :
    Except Errno FileIdentity :=
  match answer with
  | .ok identity => guarded (env.statFault tick) (.ok identity)
  | .error .noent => guarded (env.absentFault tick) (.error .noent)
  | .error errno => .error errno

def removal (world : World) (answer : Except Errno Fs) : Except Errno Unit × World :=
  match guarded (env.removeFault world.tick) answer with
  | .ok fs => (.ok (), world.advance.withFs fs)
  | .error errno => (.error errno, world.advance)

def execute (world : World) (write : StoreWrite) : Result Unit × World :=
  let outcome :=
    if env.writeFault world.tick write then .error SqliteFailure.unavailable
    else write.statement (env.now world.tick) world.store
  match outcome with
  | .ok (_, store) => (.ok (), world.advance.withStore store)
  | .error failure =>
    (.error (.storage (write.failureText ++ toString failure)), world.advance)

def query (world : World) (answer : α) : Result α :=
  if env.queryFault world.tick then
    .error (.storage (toString SqliteFailure.unavailable))
  else .ok answer

def lease (world : World) (resource : String) (worker : WorkerId)
    (ttl : Nat) : Result Bool × World :=
  let outcome :=
    if env.queryFault world.tick then .error SqliteFailure.unavailable
    else Store.acquireLease resource worker ttl (env.now world.tick) world.store
  match outcome with
  | .ok (acquired, store) => (.ok acquired, world.advance.withStore store)
  | .error failure => (.error (.storage (toString failure)), world.advance)

def respond : (request : Request) → World → Reply request × World
  | .now, world => (env.now world.tick, world.advance)
  | .isCancelled, world => (env.cancelled world.tick, world.advance)
  | .throttleMutation, world => ((), world.advance)
  | .acquireTargetLock target _, world =>
    match env.lockHolder world.tick with
    | some holder =>
      (.error (.safetyViolation (.lockCollision target holder)), world.advance)
    | none => (.ok (), world.advance)
  | .acquireFdPermit, world => (env.fdPermit world.tick, world.advance)
  | .discover, world => (env.platform world.tick, world.advance)
  | .frozenUids, world => (env.frozenUids world.tick, world.advance)
  | .trimMounts, world => (env.trimmed world.tick, world.advance)
  | .recordAudit result, world =>
    if env.audited world.tick then
      (true, { world.advance with audit := world.audit ++ [result] })
    else (false, world.advance)
  | .openRoot _ path, world =>
    (guarded (env.openFault world.tick) (world.fs.openRoot path), world.advance)
  | .openChild _ directory name, world =>
    (guarded (env.openFault world.tick)
      (world.fs.openChild env.openat2 directory name), world.advance)
  | .statChild directory name, world =>
    (env.stat world.tick (world.fs.statChild directory name), world.advance)
  | .unlink directory name, world =>
    env.removal world (world.fs.unlink directory name)
  | .rmdir directory name, world =>
    env.removal world (world.fs.rmdir directory name)
  | .readEntries directory, world =>
    (guarded (env.readFault world.tick)
      (.ok (world.fs.safeEntries (env.hidden world.tick) directory)), world.advance)
  | .pathExists path, world =>
    (!env.existsFault world.tick && world.fs.pathExists path, world.advance)
  | .write write, world => env.execute world write
  | .acquireLease resource worker ttl, world =>
    env.lease world resource worker ttl
  | .maxJobId, world =>
    (env.query world world.store.maxJobId, world.advance)
  | .maxAttemptId, world =>
    (env.query world world.store.maxAttemptId, world.advance)
  | .uncompletedAttempts, world =>
    (env.query world (env.rowOrder.order world.store.uncompletedAttempts), world.advance)
  | .intentsForAttempt attempt, world =>
    (env.query world (world.store.intentsForAttempt attempt), world.advance)
  | .enterExecutePlan _ _ _ _, world => (env.now world.tick, world.advance)

def handler : Effect.Handler Request Reply World := ⟨env.respond⟩

theorem thousand_le : 1000 ≤ u64Max := by decide

def calm (time : UnixTimestamp) (platform : PlatformView) (bounded : time ≤ u64Max) : Env where
  now := fun _ => time
  nowBounded := fun _ => bounded
  cancelled := fun _ => false
  lockHolder := fun _ => none
  fdPermit := fun _ => true
  platform := fun _ => platform
  frozenUids := fun _ => []
  trimmed := fun _ => true
  audited := fun _ => true
  openat2 := true
  openFault := fun _ => none
  statFault := fun _ => none
  absentFault := fun _ => none
  removeFault := fun _ => none
  readFault := fun _ => none
  hidden := fun _ _ => false
  existsFault := fun _ => false
  writeFault := fun _ _ => false
  queryFault := fun _ => false
  rowOrder := .inserted _

end Env

end CacheCleaner
