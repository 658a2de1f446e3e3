import CacheCleaner.Runtime.World

namespace CacheCleaner

/-! Directory handles and what is done through them.  A handle is the identity
of the directory it holds open. -/

open Effect

inductive RemovalKind where
  | file
  | directory
  deriving DecidableEq, Repr

namespace RemovalKind

def noun : RemovalKind → String
  | .file => "file"
  | .directory => "dir"

def request (kind : RemovalKind) (directory : FileIdentity) (name : String) :
    Act (Except Errno Unit) :=
  match kind with
  | .file => ask (.unlink directory name)
  | .directory => ask (.rmdir directory name)

end RemovalKind

namespace SafeDirHandle

/-- The body `unlink_child_file` and `rmdir_child_dir` share. -/
def removeChild (kind : RemovalKind) (directory : FileIdentity) (name : String)
    (expected : FileIdentity) : Act (Result Unit) :=
  if Fs.validateSingleComponent name then do
    match ← ask (.statChild directory name) with
    | .error errno => pure (.error (.io errno))
    | .ok current =>
      if current ≠ expected then
        pure (.error (.safetyViolation (.identityMismatch kind.noun name current expected)))
      else
        match ← kind.request directory name with
        | .error errno => pure (.error (.io errno))
        | .ok () => pure (.ok ())
  else pure (.error (.io .inval))

def unlinkChildFile : FileIdentity → String → FileIdentity → Act (Result Unit) := removeChild .file

def rmdirChildDir : FileIdentity → String → FileIdentity → Act (Result Unit) :=
  removeChild .directory

/-- `open_root_with_permit`; a missing permit does not stop it. -/
def openRootWithPermit (caller : Caller) (path : String) : Act (Result FileIdentity) := do
  let _ ← ask .acquireFdPermit
  match ← ask (.openRoot caller path) with
  | .error errno => pure (.error (.io errno))
  | .ok directory => pure (.ok directory)

def openChildDirWithPermit (caller : Caller) (directory : FileIdentity)
    (name : String) : Act (Result FileIdentity) := do
  let _ ← ask .acquireFdPermit
  match ← ask (.openChild caller directory name) with
  | .error errno => pure (.error (.io errno))
  | .ok child => pure (.ok child)

end SafeDirHandle

inductive VerificationOutcome where
  | confirmedDeleted | alreadyGone | stillPresent | identityMismatch
  | parentUnavailable | targetUnavailable | stale | unknown
  deriving DecidableEq, Repr

namespace VerificationOutcome

def debug : VerificationOutcome → String
  | .confirmedDeleted => "ConfirmedDeleted"
  | .alreadyGone => "AlreadyGone"
  | .stillPresent => "StillPresent"
  | .identityMismatch => "IdentityMismatch"
  | .parentUnavailable => "ParentUnavailable"
  | .targetUnavailable => "TargetUnavailable"
  | .stale => "Stale"
  | .unknown => "Unknown"

def isSuccessfulDeletion : VerificationOutcome → Bool
  | .confirmedDeleted | .alreadyGone => true
  | _ => false

end VerificationOutcome

namespace PostconditionVerifier

def classifyStat (expected : FileIdentity) : Except Errno FileIdentity → VerificationOutcome
  | .ok current =>
    if current = expected then .stillPresent else .identityMismatch
  | .error .noent => .confirmedDeleted
  | .error .rofs | .error .busy => .targetUnavailable
  | .error .notDir | .error .stale => .parentUnavailable
  | .error _ => .unknown

def classifyOpen : Errno → VerificationOutcome
  | .noent => .alreadyGone
  | .access | .perm => .parentUnavailable
  | .io | .stale => .unknown
  | .busy | .rofs => .targetUnavailable
  | _ => .parentUnavailable

def verifyWithParentHandle (directory : FileIdentity) (leaf : String)
    (expected : FileIdentity) : Act VerificationOutcome := do
  let answer ← ask (.statChild directory leaf)
  pure (classifyStat expected answer)

/-- The walk to the parent, and the verdict there. -/
def verifyBeneath (expected : FileIdentity) (leaf : String) :
    FileIdentity → List String → Act VerificationOutcome
  | directory, [] => verifyWithParentHandle directory leaf expected
  | directory, name :: rest => do
    match ← ask (.openChild .verifier directory name) with
    | .error errno => pure (classifyOpen errno)
    | .ok child => verifyBeneath expected leaf child rest

def verifyOperationPostcondition (basePath : String) (path : RelativePath)
    (expected : FileIdentity) : Act VerificationOutcome := do
  match ← ask (.openRoot .verifier basePath) with
  | .error _ => pure .targetUnavailable
  | .ok root =>
    match path.leafName? with
    | none => pure .unknown
    | some leaf => verifyBeneath expected leaf root path.parentNames

end PostconditionVerifier

end CacheCleaner
