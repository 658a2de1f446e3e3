import CacheCleaner.Runtime.Handle

namespace CacheCleaner.CandidateScanner

open Effect

def maxCandidatesPerTarget : Nat := 50000

def maxDepth : Nat := 16

inductive ScanStatus where
  | complete | partial_ | failed
  deriving DecidableEq, Repr

structure ScanResult where
  candidates : List Candidate
  status : ScanStatus
  errors : List String
  deriving DecidableEq

structure Progress where
  candidates : List Candidate
  errors : List String
  hitLimit : Bool
  nextId : Nat
  deriving DecidableEq

namespace Progress

variable (progress : Progress)

def full : Bool :=
  decide (maxCandidatesPerTarget ≤ progress.candidates.length)

def limited : Progress := { progress with hitLimit := true }

def complain (error : String) : Progress :=
  { progress with errors := progress.errors ++ [error] }

def push (target : TargetDescriptor)
    (path : RelativePath) (entry : SafeDirEntry) (size : ByteCount) : Progress :=
  { progress with
    candidates := progress.candidates ++ [{
      candidateId := ⟨progress.nextId⟩
      targetId := target.targetId
      relPath := path
      identity := entry.identity
      sizeBytes := size
      mtime := entry.mtimeSecs
      isDir := entry.isDir && !entry.isSymlink
      isSymlink := entry.isSymlink }]
    nextId := progress.nextId + 1 }

def status : ScanStatus :=
  if progress.hitLimit then .partial_
  else if progress.errors.isEmpty then .complete
  else if progress.candidates.isEmpty then .failed
  else .partial_

end Progress

/-- One entry; `descend` scans a directory one level further down.  A size that
`ByteCount::new` rejects ends the process. -/
def scanEntry (target : TargetDescriptor)
    (descend : FileIdentity → RelativePath → Progress → Act Progress)
    (directory : FileIdentity) (relPrefix : RelativePath)
    (entry : SafeDirEntry) (progress : Progress) : Act Progress :=
  match relPrefix.join entry.name with
  | none => pure progress
  | some path =>
    if entry.isDir && !entry.isSymlink then do
      let progress := progress.push target path entry 0
      if ← ask .acquireFdPermit then
        match ← ask (.openChild .scanner directory entry.name) with
        | .error _ => pure progress
        | .ok child => descend child path progress
      else pure progress
    else
      match ByteCount.new? entry.sizeBytes with
      | none => .abort
      | some size => pure (progress.push target path entry size)

def scanEntries (target : TargetDescriptor)
    (descend : FileIdentity → RelativePath → Progress → Act Progress)
    (directory : FileIdentity) (relPrefix : RelativePath) :
    List SafeDirEntry → Progress → Act Progress
  | [], progress => pure progress
  | entry :: rest, progress =>
    if progress.full then pure progress.limited
    else do
      let progress ← scanEntry target descend directory relPrefix entry progress
      scanEntries target descend directory relPrefix rest progress

def unreadable (relPrefix : RelativePath) (errno : Errno) : String :=
  let error := CleanerError.display (.io errno)
  let shown := relPrefix.raw
  s!"Failed to read directory {shown}: {error}"

/-- `scan_safe_recursive`, with the number of levels left. -/
def scanSafeRecursive (target : TargetDescriptor) :
    Nat → FileIdentity → RelativePath → Progress → Act Progress
  | 0, _, _, progress => pure progress
  | levels + 1, directory, relPrefix, progress =>
    if progress.full then pure progress.limited
    else do
      match ← ask (.readEntries directory) with
      | .error errno => pure (progress.complain (unreadable relPrefix errno))
      | .ok entries =>
        scanEntries target (scanSafeRecursive target levels) directory relPrefix entries progress

/-- `scan_target_with_resource`; it never fails. -/
def scanTargetWithResource (target : TargetDescriptor) (nextId : Nat) : Act (ScanResult × Nat) := do
  match ← SafeDirHandle.openRootWithPermit .scanner target.basePath with
  | .error error =>
    if ← ask (.pathExists target.basePath) then
      let path := target.basePath
      let shown := error.display
      pure (⟨[], .failed, [s!"Failed to open target root {path}: {shown}"]⟩, nextId)
    else pure (⟨[], .complete, []⟩, nextId)
  | .ok root =>
    let progress ← scanSafeRecursive target maxDepth root RelativePath.empty ⟨[], [], false, nextId⟩
    pure (⟨progress.candidates, progress.status, progress.errors⟩, progress.nextId)

end CacheCleaner.CandidateScanner
