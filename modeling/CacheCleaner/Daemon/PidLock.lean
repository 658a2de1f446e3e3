import CacheCleaner.Domain.Types
import CacheCleaner.Effect.Threads

namespace CacheCleaner

/-! The lock file and the PID file: `PidLock` and `clean_stale_pid_files` as
programs of system calls, run by any number of processes against one kernel. -/

open Effect

inductive CandidatePath where
  | primary | fallback
  deriving DecidableEq, Repr

namespace CandidatePath

def lockPath : CandidatePath → String
  | .primary => "/data/adb/cleaner/run/cleaner_daemon.lock"
  | .fallback => "/tmp/cleaner_daemon.lock"

def candidates (isRoot : Bool) : List CandidatePath :=
  if isRoot then [.primary] else [.primary, .fallback]

end CandidatePath

/-- An open lock file: the inode that its path led to, and the open file
description that `flock` works on. -/
structure LockFile where
  inode : Nat
  description : Nat
  deriving DecidableEq, Repr

structure PidFile where
  place : CandidatePath
  inode : Nat
  deriving DecidableEq, Repr

/-- What processes see of the two files of each candidate.  Inodes and
descriptions are numbered as they are made. -/
structure Kernel where
  lockLink : CandidatePath → Option Nat
  pidLink : CandidatePath → Option Nat
  pidText : CandidatePath → Nat → Option Nat
  lockOwner : Nat → Option Nat
  nextInode : Nat
  nextDescription : Nat

namespace Kernel

def new : Kernel := ⟨fun _ => none, fun _ => none, fun _ _ => none, fun _ => none, 0, 0⟩

/-- System calls.  Closing a lock file gives its lock back; closing a file that
holds no lock changes nothing and is left out. -/
inductive Call where
  | lockExists (place : CandidatePath)
  | openLock (place : CandidatePath) (create : Bool)
  | flock (file : LockFile)
  | unlock (file : LockFile)
  | close (file : LockFile)
  | openPid (place : CandidatePath)
  | writePid (file : PidFile) (pid : Nat)
  | readPid (place : CandidatePath)
  | unlinkPid (place : CandidatePath)
  | unlinkLock (place : CandidatePath)
  /-- The daemon runs until it is told to stop, or is killed. -/
  | serve
  deriving DecidableEq, Repr

abbrev Return : Call → Type
  | .lockExists _ => Bool
  | .openLock _ _ => Except Errno LockFile
  | .flock _ => Except Errno Unit
  | .openPid _ => Except Errno PidFile
  | .writePid _ _ => Except Errno Unit
  | .readPid _ => Nat
  | .serve => Bool
  | _ => Unit

def wouldBlock : Errno := .other 11

def setOwner (kernel : Kernel) (file : LockFile) (owner : Option Nat) : Kernel :=
  { kernel with lockOwner := Function.update kernel.lockOwner file.inode owner }

def release (kernel : Kernel) (file : LockFile) : Kernel :=
  if kernel.lockOwner file.inode = some file.description then
    kernel.setOwner file none
  else kernel

def setText (kernel : Kernel) (place : CandidatePath) (inode : Nat) (text : Option Nat) : Kernel :=
  { kernel with pidText := fun other inode' =>
      if other = place ∧ inode' = inode then text
      else kernel.pidText other inode' }

def answer (fault : Option Errno) (call : Call) (kernel : Kernel) : Option (Return call × Kernel) :=
  match call with
  | .lockExists place => some ((kernel.lockLink place).isSome, kernel)
  | .openLock place create =>
    match fault, kernel.lockLink place with
    | some errno, _ => some (.error errno, kernel)
    | none, some inode => some (.ok ⟨inode, kernel.nextDescription⟩,
        { kernel with nextDescription := kernel.nextDescription + 1 })
    | none, none =>
      if create then
        some (.ok ⟨kernel.nextInode, kernel.nextDescription⟩,
          { kernel with
            lockLink := Function.update kernel.lockLink place
              (some kernel.nextInode)
            nextInode := kernel.nextInode + 1
            nextDescription := kernel.nextDescription + 1 })
      else some (.error .noent, kernel)
  | .flock file =>
    match fault, kernel.lockOwner file.inode with
    | some errno, _ => some (.error errno, kernel)
    | none, none => some (.ok (), kernel.setOwner file (some file.description))
    | none, some owner =>
      if owner = file.description then some (.ok (), kernel)
      else some (.error wouldBlock, kernel)
  | .unlock file => some ((), kernel.release file)
  | .close file => some ((), kernel.release file)
  | .openPid place =>
    match fault, kernel.pidLink place with
    | some errno, _ => some (.error errno, kernel)
    | none, some inode => some (.ok ⟨place, inode⟩, kernel.setText place inode none)
    | none, none => some (.ok ⟨place, kernel.nextInode⟩,
        { kernel.setText place kernel.nextInode none with
          pidLink := Function.update kernel.pidLink place
            (some kernel.nextInode)
          nextInode := kernel.nextInode + 1 })
  | .writePid file pid =>
    match fault with
    | some errno => some (.error errno, kernel)
    | none => some (.ok (), kernel.setText file.place file.inode (some pid))
  | .readPid place => some (if fault.isSome then 0 else
      ((kernel.pidLink place).bind (kernel.pidText place)).getD 0, kernel)
  | .unlinkPid place => some ((), if fault.isSome then kernel else
      { kernel with pidLink := Function.update kernel.pidLink place none })
  | .unlinkLock place => some ((), if fault.isSome then kernel else
      { kernel with lockLink := Function.update kernel.lockLink place none })
  | .serve => some (fault.isNone, kernel)

end Kernel

inductive PidLockError where
  | daemonAlreadyRunning (pid : Nat)
  | io (errno : Errno)
  | other (message : String)
  deriving DecidableEq, Repr

structure PidLock where
  place : CandidatePath
  lockFile : LockFile

namespace PidLock

open Kernel

abbrev Routine := Effect.Program Call Return

def syscall (call : Call) : Routine (Return call) := Effect.Program.perform call

/-- The part of `try_lock_paths` that writes the PID file; an error closes the
lock file. -/
def writePidFile (place : CandidatePath) (file : LockFile) (pid : Nat) :
    Routine (Except PidLockError PidLock) := do
  match ← syscall (.openPid place) with
  | .error errno =>
    syscall (.close file)
    pure (.error (.io errno))
  | .ok pidFile =>
    match ← syscall (.writePid pidFile pid) with
    | .error errno =>
      syscall (.close file)
      pure (.error (.io errno))
    | .ok () => pure (.ok ⟨place, file⟩)

def tryLockPaths (place : CandidatePath) (pid : Nat) : Routine (Except PidLockError PidLock) := do
  match ← syscall (.openLock place true) with
  | .error errno => pure (.error (.io errno))
  | .ok file =>
    match ← syscall (.flock file) with
    | .error errno =>
      if errno.code = wouldBlock.code then do
        let running ← syscall (.readPid place)
        pure (.error (.daemonAlreadyRunning running))
      else pure (.error (.io errno))
    | .ok () => writePidFile place file pid

/-- The loop of `acquire`, with the last error so far. -/
def acquireFrom (pid : Nat) : List CandidatePath → Option PidLockError →
    Routine (Except PidLockError PidLock)
  | [], lastErr =>
    let path := CandidatePath.primary.lockPath
    pure (.error (lastErr.getD (.other s!"Failed to acquire PID lock on mandatory path {path}")))
  | place :: places, _ => do
    match ← tryLockPaths place pid with
    | .ok lock => pure (.ok lock)
    | .error (.daemonAlreadyRunning running) =>
      pure (.error (.daemonAlreadyRunning running))
    | .error error => acquireFrom pid places (some error)

def acquire (isRoot : Bool) (pid : Nat) : Routine (Except PidLockError PidLock) :=
  acquireFrom pid (CandidatePath.candidates isRoot) none

def drop (lock : PidLock) : Routine Unit := do
  syscall (.unlock lock.lockFile)
  syscall (.unlinkPid lock.place)
  syscall (.unlinkLock lock.place)

def cleanStale (place : CandidatePath) : Routine Unit := do
  if ← syscall (.lockExists place) then
    match ← syscall (.openLock place false) with
    | .error _ => pure ()
    | .ok file =>
      match ← syscall (.flock file) with
      | .error _ => pure ()
      | .ok () =>
        syscall (.unlock file)
        syscall (.unlinkLock place)
        syscall (.unlinkPid place)
  else pure ()

def cleanStalePidFiles : Routine Unit := do
  cleanStale .primary
  cleanStale .fallback

def runLocked (pid : Nat) : Routine Unit := do
  match ← acquire true pid with
  | .error _ => pure ()
  | .ok lock =>
    if ← syscall .serve then drop lock
    else syscall (.close lock.lockFile)

inductive Process where
  | daemon (pid : Nat)
  | cleaner
  deriving DecidableEq, Repr

def body : Process → Routine Unit
  | .daemon pid => runLocked pid
  | .cleaner => cleanStalePidFiles

def system : System Process (Option Errno) Call Return Kernel :=
  ⟨body, fun _ kernel => some kernel, answer⟩

end PidLock

end CacheCleaner
