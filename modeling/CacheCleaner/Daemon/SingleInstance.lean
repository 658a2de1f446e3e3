import CacheCleaner.Daemon.PidLock

namespace CacheCleaner.PidLock

open Effect Kernel

variable {place : CandidatePath} {kernel after : Kernel} {file : LockFile} {fault : Option Errno}
  {stage : Stage}

inductive Stage where
  | idle (process : Process)
  | opened (process : Process) (place : CandidatePath) (file : LockFile)
  | locked (process : Process) (place : CandidatePath) (file : LockFile)
  | writing (pid : Nat) (place : CandidatePath) (file : LockFile) (pidFile : PidFile)
  | held (pid : Nat) (place : CandidatePath) (file : LockFile)
  /-- The lock is given back and two files, or one, are to be unlinked. -/
  | unlinking (process : Process) (place : CandidatePath) (last : Bool)
  deriving DecidableEq, Repr

namespace Stage

def unlinks : Process → CandidatePath → Bool → Call
  | .daemon _, place, false => .unlinkPid place
  | .daemon _, place, true => .unlinkLock place
  | .cleaner, place, false => .unlinkLock place
  | .cleaner, place, true => .unlinkPid place

def advance : Stage → Exchange Call Return → Stage
  | .idle process, ⟨.openLock place _, .ok file⟩ => .opened process place file
  | .opened process place file, ⟨.flock _, .ok ()⟩ => .locked process place file
  | .opened process _ _, ⟨.flock _, .error _⟩ => .idle process
  | .locked (.daemon pid) place file, ⟨.openPid _, .ok pidFile⟩ =>
    .writing pid place file pidFile
  | .locked process _ _, ⟨.close _, _⟩ => .idle process
  | .locked process place _, ⟨.unlock _, _⟩ => .unlinking process place false
  | .writing pid place file _, ⟨.writePid _ _, .ok ()⟩ => .held pid place file
  | .writing pid _ _ _, ⟨.close _, _⟩ => .idle (.daemon pid)
  | .held pid place _, ⟨.unlock _, _⟩ => .unlinking (.daemon pid) place false
  | .held pid _ _, ⟨.close _, _⟩ => .idle (.daemon pid)
  | .unlinking process place false, _ => .unlinking process place true
  | .unlinking process _ true, _ => .idle process
  | stage, _ => stage

def permits : Stage → Call → Bool
  | .idle _, .lockExists _ => true
  | .idle (.daemon _), .openLock place _ => place = .primary
  | .idle .cleaner, .openLock _ _ => true
  | .idle _, .readPid _ => true
  | .opened _ _ file, .flock other => other = file
  | .locked (.daemon _) place _, .openPid other => other = place
  | .locked (.daemon _) _ file, .close other => other = file
  | .locked .cleaner _ file, .unlock other => other = file
  | .writing pid _ _ pidFile, .writePid other text =>
    other = pidFile ∧ text = pid
  | .writing _ _ file _, .close other => other = file
  | .held _ _ _, .serve => true
  | .held _ _ file, .unlock other => other = file
  | .held _ _ file, .close other => other = file
  | .unlinking process place last, call => call = unlinks process place last
  | _, _ => false

def process : Stage → Process
  | .idle process => process
  | .opened process _ _ => process
  | .locked process _ _ => process
  | .writing pid _ _ _ => .daemon pid
  | .held pid _ _ => .daemon pid
  | .unlinking process _ _ => process

def file? : Stage → Option LockFile
  | .opened _ _ file => some file
  | .locked _ _ file => some file
  | .writing _ _ file _ => some file
  | .held _ _ file => some file
  | _ => none

def opens? : Stage → Option CandidatePath
  | .opened _ place _ => some place
  | _ => none

def locks? : Stage → Option (CandidatePath × LockFile)
  | .locked _ place file => some (place, file)
  | .writing _ place file _ => some (place, file)
  | .held _ place file => some (place, file)
  | _ => none

def unlinks? : Stage → Option CandidatePath
  | .unlinking _ place _ => some place
  | _ => none

end Stage

def protocol : Protocol Stage Process Call Return :=
  ⟨Stage.idle, Stage.advance, fun stage call => stage.permits call⟩

@[simp] theorem protocol_initial (process : Process) :
    protocol.initial process = .idle process := rfl

@[simp] theorem protocol_advance (stage : Stage) (exchange : Exchange Call Return) :
    protocol.advance stage exchange = stage.advance exchange := rfl

@[simp] theorem protocol_permits (stage : Stage) (call : Call) :
    protocol.permits stage call = (stage.permits call = true) := rfl

section

attribute [local simp] syscall Program.perform Stage.advance Stage.permits Stage.unlinks

def Acquired (pid : Nat) (stage : Stage) : Except PidLockError PidLock → Prop
  | .ok lock => stage = .held pid lock.place lock.lockFile
  | .error _ => stage = .idle (.daemon pid)

theorem writePidFile_obeys (place : CandidatePath) (file : LockFile) (pid : Nat) :
    protocol.Obeys (Acquired pid) (.locked (.daemon pid) place file)
      (writePidFile place file pid) := by
  simp [writePidFile]
  rintro (errno | pidFile)
  · simp [Acquired]
  · simp
    rintro (errno | _)
    · simp [Acquired]
    · simp [Acquired]

theorem tryLockPaths_obeys (pid : Nat) : protocol.Obeys (Acquired pid) (.idle (.daemon pid))
      (tryLockPaths .primary pid) := by
  simp [tryLockPaths]
  rintro (errno | file)
  · simp [Acquired]
  · simp
    rintro (errno | _)
    · by_cases blocked : errno.code = wouldBlock.code <;> simp [blocked, Acquired]
    · exact writePidFile_obeys .primary file pid

theorem acquire_obeys (pid : Nat) : protocol.Obeys (Acquired pid) (.idle (.daemon pid))
      (acquire true pid) := by
  apply (tryLockPaths_obeys pid).bind
  rintro stage (error | lock) acquired
  · obtain rfl : stage = .idle (.daemon pid) := acquired
    cases error <;> simp [acquireFrom, Acquired]
  · exact acquired

theorem runLocked_obeys (pid : Nat) : protocol.Obeys (fun stage _ => stage = .idle (.daemon pid))
      (.idle (.daemon pid)) (runLocked pid) := by
  apply (acquire_obeys pid).bind
  rintro stage (error | lock) acquired
  · exact acquired
  · obtain rfl : stage = .held pid lock.place lock.lockFile := acquired
    simp [drop]

theorem cleanStale_obeys (place : CandidatePath) :
    protocol.Obeys (fun stage _ => stage = .idle .cleaner) (.idle .cleaner) (cleanStale place) := by
  simp [cleanStale]
  rintro (errno | file)
  · simp
  · simp
    rintro (errno | _) <;> simp

theorem body_obeys (process : Process) : protocol.Obeys (fun _ _ => True) (protocol.initial process)
      (body process) := by
  cases process with
  | daemon pid => exact (runLocked_obeys pid).mono fun _ _ _ => trivial
  | cleaner =>
    apply (cleanStale_obeys .primary).bind
    rintro stage _ rfl
    exact (cleanStale_obeys .fallback).mono fun _ _ _ => trivial

end

abbrev Processes (ι : Type) := Pool ι Process Call Return Kernel

abbrev Happening (ι : Type) := Event ι Process Call Return

def Owns (kernel : Kernel) (place : CandidatePath) (file : LockFile) : Prop :=
  kernel.lockLink place = some file.inode ∧ kernel.lockOwner file.inode = some file.description

def Stage.Secure (kernel : Kernel) : Stage → Prop
  | .opened process place _ => process ≠ .cleaner → place = .primary
  | .locked process place file =>
    (process ≠ .cleaner → place = .primary) ∧ Owns kernel place file
  | .writing _ place file pidFile => place = .primary ∧ Owns kernel place file ∧
      pidFile.place = place ∧ kernel.pidLink place = some pidFile.inode
  | .held pid place file => place = .primary ∧ Owns kernel place file ∧
      ∃ inode, kernel.pidLink place = some inode ∧ kernel.pidText place inode = some pid
  | _ => True

structure Agrees (kernel after : Kernel) (place : CandidatePath) (file : LockFile) : Prop where
  lockLink : after.lockLink place = kernel.lockLink place
  lockOwner : after.lockOwner file.inode = kernel.lockOwner file.inode
  pidLink : after.pidLink place = kernel.pidLink place
  pidText : after.pidText place = kernel.pidText place

theorem Stage.Secure.owns (secure : stage.Secure kernel)
    (locks : stage.locks? = some (place, file)) : Owns kernel place file := by
  cases stage <;> cases locks
  · exact secure.2
  · exact secure.2.1
  · exact secure.2.1

theorem Agrees.owns (agrees : Agrees kernel after place file)
    (owns : Owns kernel place file) : Owns after place file :=
  ⟨agrees.lockLink.trans owns.1, agrees.lockOwner.trans owns.2⟩

theorem release_nextDescription (kernel : Kernel) (file : LockFile) :
    (kernel.release file).nextDescription = kernel.nextDescription := by
  unfold Kernel.release
  split <;> rfl

theorem agrees_setText (different : other ≠ place) :
    Agrees kernel (kernel.setText place inode text) other file := by
  refine ⟨rfl, rfl, rfl, ?_⟩
  funext inode'
  simp [Kernel.setText, different]

theorem Stage.Secure.frame (secure : stage.Secure kernel)
    (agrees : ∀ place file, stage.locks? = some (place, file) →
      Agrees kernel after place file) : stage.Secure after := by
  cases stage with
  | locked process place file =>
    exact ⟨secure.1, (agrees place file rfl).owns secure.2⟩
  | writing pid place file pidFile =>
    obtain ⟨root, owns, same, linked⟩ := secure
    have agrees := agrees place file rfl
    exact ⟨root, agrees.owns owns, same, agrees.pidLink.trans linked⟩
  | held pid place file =>
    obtain ⟨root, owns, inode, linked, text⟩ := secure
    have agrees := agrees place file rfl
    refine ⟨root, agrees.owns owns, inode, agrees.pidLink.trans linked, ?_⟩
    rw [agrees.pidText, text]
  | _ => exact secure

theorem Stage.file?_of_locks? (locks : stage.locks? = some (place, file)) :
    stage.file? = some file := by
  cases stage <;> cases locks <;> rfl

structure Stage.Sound (kernel : Kernel) (stage : Stage) : Prop where
  numbered : ∀ {file}, stage.file? = some file → file.description < kernel.nextDescription
  secure : stage.Secure kernel

/-- Two processes share no open lock file, and neither unlinks the files of a
place whose lock the other has. -/
structure Stage.Apart (one two : Stage) : Prop where
  distinct : ∀ {file file'}, one.file? = some file → two.file? = some file' →
    file.description ≠ file'.description
  spares : ∀ {place file}, two.locks? = some (place, file) → one.unlinks? ≠ some place
  spared : ∀ {place file}, one.locks? = some (place, file) → two.unlinks? ≠ some place

theorem Stage.Apart.symm (apart : Apart one two) : Apart two one :=
  ⟨fun opened opened' => (apart.distinct opened' opened).symm, apart.spared, apart.spares⟩

/-- What a process may count on while the others are at the stages `rivals`. -/
structure Faces (kernel : Kernel) (rivals : Stage → Prop) (stage : Stage) : Prop where
  sound : stage.Sound kernel
  rivals : ∀ {rival}, rivals rival → rival.Sound kernel ∧ stage.Apart rival

namespace Faces

variable {rivals : Stage → Prop} {process : Process}

theorem elsewhere (faces : Faces kernel rivals stage) (locks : stage.locks? = some (place, file))
    (among : rivals rival) (locks' : rival.locks? = some (place', file')) : place' ≠ place := by
  rintro rfl
  obtain ⟨sound, apart⟩ := faces.rivals among
  have owns := faces.sound.secure.owns locks
  have owns' := sound.secure.owns locks'
  have inode : file.inode = file'.inode := Option.some.inj (owns.1.symm.trans owns'.1)
  apply apart.distinct (Stage.file?_of_locks? locks) (Stage.file?_of_locks? locks')
  exact Option.some.inj (owns.2.symm.trans (inode ▸ owns'.2))

theorem move (faces : Faces kernel rivals stage)
    (next : kernel.nextDescription ≤ after.nextDescription)
    (files : ∀ {file}, stage'.file? = some file → stage.file? = some file ∨
      file.description = kernel.nextDescription ∧ file.description < after.nextDescription)
    (secure : Stage.Secure after stage')
    (agrees : ∀ {rival place file}, rivals rival → rival.locks? = some (place, file) →
      Agrees kernel after place file)
    (spares : ∀ {rival place file}, rivals rival → rival.locks? = some (place, file) →
      stage'.unlinks? ≠ some place)
    (spared : ∀ {rival place file}, rivals rival → stage'.locks? = some (place, file) →
      rival.unlinks? ≠ some place) : Faces after rivals stage' := by
  refine ⟨⟨fun opened => ?_, secure⟩, fun {rival} among => ?_⟩
  · rcases files opened with before | ⟨-, below⟩
    · exact Nat.lt_of_lt_of_le (faces.sound.numbered before) next
    · exact below
  · obtain ⟨sound, apart⟩ := faces.rivals among
    refine ⟨⟨fun opened => Nat.lt_of_lt_of_le (sound.numbered opened) next,
      sound.secure.frame fun _ _ => agrees among⟩, fun opened opened' same => ?_,
      spares among, spared among⟩
    -- A file just opened has a number that no file had before.
    rcases files opened with before | ⟨fresh, -⟩
    · exact apart.distinct before opened' same
    · have below := sound.numbered opened'
      omega

theorem openLock (faces : Faces kernel rivals (.idle process))
    (root : process ≠ .cleaner → place = .primary)
    (answered : answer fault (.openLock place create) kernel = some (reply, after)) :
    Faces after rivals ((Stage.idle process).advance ⟨.openLock place create, reply⟩) := by
  have fresh : ∀ {inode file}, (Stage.opened process place
      ⟨inode, kernel.nextDescription⟩).file? = some file →
      (Stage.idle process).file? = some file ∨ file.description = kernel.nextDescription ∧
        file.description < kernel.nextDescription + 1 := by
    rintro inode file ⟨⟩
    exact .inr ⟨rfl, Nat.lt_succ_self _⟩
  simp only [answer] at answered
  split at answered
  next => cases answered; exact faces
  next =>
    cases answered
    exact faces.move (Nat.le_succ _) fresh root (fun _ _ => ⟨rfl, rfl, rfl, rfl⟩) (fun _ _ => nofun)
      (fun _ => nofun)
  next absent =>
    split at answered
    · cases answered
      refine faces.move (Nat.le_succ _) fresh root ?_ (fun _ _ => nofun) (fun _ => nofun)
      intro rival place' file among locks
      refine ⟨Function.update_of_ne ?_ .., rfl, rfl, rfl⟩
      rintro rfl
      cases absent.symm.trans ((faces.rivals among).1.secure.owns locks).1
    · cases answered
      exact faces

def Free (kernel : Kernel) (rivals : Stage → Prop) (place : CandidatePath) (file : LockFile) :
    Prop :=
  kernel.lockLink place = some file.inode ∧ ∀ {rival}, rivals rival → rival.unlinks? ≠ some place

theorem flock (faces : Faces kernel rivals (.opened process place file))
    (free : reply = .ok () → Free kernel rivals place file)
    (answered : answer fault (.flock file) kernel = some (reply, after)) :
    Faces after rivals ((Stage.opened process place file).advance ⟨.flock file, reply⟩) := by
  have refused : Faces kernel rivals (.idle process) :=
    faces.move (Nat.le_refl _) nofun trivial (fun _ _ => ⟨rfl, rfl, rfl, rfl⟩) (fun _ _ => nofun)
      (fun _ => nofun)
  have granted (unowned : ∀ owner, kernel.lockOwner file.inode = some owner →
      owner = file.description) (ok : reply = .ok ()) :
      Faces (kernel.setOwner file (some file.description)) rivals (.locked process place file) := by
    obtain ⟨linked, nobody⟩ := free ok
    refine faces.move (Nat.le_refl _) .inl ⟨faces.sound.secure, linked, Function.update_self ..⟩ ?_
      (fun _ _ => nofun) ?_
    · intro rival place' file' among locks
      refine ⟨rfl, Function.update_of_ne ?_ .., rfl, rfl⟩
      intro inode
      obtain ⟨sound, apart⟩ := faces.rivals among
      have owner := (sound.secure.owns locks).2
      rw [inode] at owner
      exact apart.distinct rfl (Stage.file?_of_locks? locks) (unowned _ owner).symm
    · rintro rival place file among ⟨⟩
      exact nobody among
  simp only [answer] at answered
  split at answered
  next => cases answered; exact refused
  next unlocked =>
    cases answered
    exact granted (fun owner owned => by simp [unlocked] at owned) rfl
  next owner owned =>
    split at answered
    next own =>
      cases answered
      have faces := granted (fun other owned' => (Option.some.inj (owned.symm.trans owned')) ▸ own)
        rfl
      rw [Kernel.setOwner, ← own, ← owned, Function.update_eq_self] at faces
      exact faces
    next =>
      cases answered
      exact refused

theorem openPid (faces : Faces kernel rivals (.locked (.daemon pid) place file))
    (answered : answer fault (.openPid place) kernel = some (reply, after)) : Faces after rivals
      ((Stage.locked (.daemon pid) place file).advance ⟨.openPid place, reply⟩) := by
  obtain ⟨root, owns⟩ := faces.sound.secure
  simp only [answer] at answered
  split at answered
  next => cases answered; exact faces
  next linked =>
    cases answered
    exact faces.move (Nat.le_refl _) .inl ⟨root nofun, owns, rfl, linked⟩
      (fun among locks => agrees_setText (faces.elsewhere rfl among locks)) (fun _ _ => nofun)
      fun among => (faces.rivals among).2.spared
  next absent =>
    cases answered
    refine faces.move (Nat.le_refl _) .inl ⟨root nofun, owns, rfl, Function.update_self ..⟩
      (fun {_ place' file'} among locks => ?_) (fun _ _ => nofun)
      fun among => (faces.rivals among).2.spared
    have distinct := faces.elsewhere rfl among locks
    have text : Agrees kernel (kernel.setText place kernel.nextInode none) place' file' :=
      agrees_setText distinct
    exact ⟨rfl, rfl, Function.update_of_ne distinct .., text.pidText⟩

theorem writePid {pidFile : PidFile}
    (faces : Faces kernel rivals (.writing pid place file pidFile)) :
    Faces (kernel.setText pidFile.place pidFile.inode (some pid)) rivals
      (.held pid place file) := by
  obtain ⟨root, owned, rfl, linked⟩ := faces.sound.secure
  refine faces.move (Nat.le_refl _) .inl ⟨root, owned, _, linked, ?_⟩
    (fun among locks => agrees_setText (faces.elsewhere rfl among locks)) (fun _ _ => nofun)
    fun among => (faces.rivals among).2.spared
  simp [Kernel.setText]

theorem release (faces : Faces kernel rivals stage) (locks : stage.locks? = some (place, file))
    (closed : stage'.file? = none) (released : stage'.locks? = none)
    (secure : Stage.Secure (kernel.release file) stage')
    (spares : ∀ place' ∈ stage'.unlinks?, place' = place) :
    Faces (kernel.release file) rivals stage' := by
  refine faces.move (release_nextDescription ..).ge (by simp [closed]) secure ?_ ?_
    (by simp [released])
  · intro rival place' file' among locks'
    obtain ⟨sound, apart⟩ := faces.rivals among
    have owns := sound.secure.owns locks'
    unfold Kernel.release
    split
    next owned =>
      refine ⟨rfl, Function.update_of_ne ?_ .., rfl, rfl⟩
      intro inode
      have owner := owns.2
      rw [inode, owned] at owner
      exact apart.distinct (Stage.file?_of_locks? locks) (Stage.file?_of_locks? locks')
        (Option.some.inj owner)
    next => exact ⟨rfl, rfl, rfl, rfl⟩
  · intro rival place' file' among locks' unlinks
    exact faces.elsewhere locks among locks' (spares place' unlinks)

theorem close (faces : Faces kernel rivals stage) (locks : stage.locks? = some (place, file)) :
    Faces (kernel.release file) rivals (.idle process) :=
  faces.release locks rfl rfl trivial nofun

theorem unlock (faces : Faces kernel rivals stage) (locks : stage.locks? = some (place, file)) :
    Faces (kernel.release file) rivals (.unlinking process place false) :=
  faces.release locks rfl rfl trivial (by rintro _ ⟨⟩; rfl)

theorem unlink (faces : Faces kernel rivals (.unlinking process place last))
    (answered : answer fault (Stage.unlinks process place last) kernel = some (reply, after)) :
    Faces after rivals ((Stage.unlinking process place last).advance
      ⟨Stage.unlinks process place last, reply⟩) := by
  have files : after = kernel ∨
      after = { kernel with pidLink := Function.update kernel.pidLink place none } ∨
      after = { kernel with lockLink := Function.update kernel.lockLink place none } := by
    cases fault <;> cases process <;> cases last <;> cases answered <;> simp
  have same : ∀ {rival place' file}, rivals rival → rival.locks? = some (place', file) →
      Agrees kernel after place' file := by
    intro rival place' file' among locks
    have distinct : place' ≠ place := by
      rintro rfl
      exact (faces.rivals among).2.spares locks rfl
    rcases files with rfl | rfl | rfl
    · exact ⟨rfl, rfl, rfl, rfl⟩
    · exact ⟨rfl, rfl, Function.update_of_ne distinct .., rfl⟩
    · exact ⟨Function.update_of_ne distinct .., rfl, rfl, rfl⟩
  have next : kernel.nextDescription ≤ after.nextDescription := by
    rcases files with rfl | rfl | rfl <;> exact Nat.le_refl _
  cases last with
  | true => exact faces.move next nofun trivial same (fun _ _ => nofun) (fun _ => nofun)
  | false =>
    exact faces.move next nofun trivial same (fun among => (faces.rivals among).2.spares)
      (fun _ => nofun)

theorem advance (faces : Faces kernel rivals stage) (permitted : stage.permits call = true)
    (answered : answer fault call kernel = some (reply, after))
    (free : ∀ {place file}, stage.opens? = some place →
      (⟨call, reply⟩ : Exchange Call Return) = ⟨.flock file, .ok ()⟩ →
      Free kernel rivals place file) :
    Faces after rivals (stage.advance ⟨call, reply⟩) := by
  cases stage with
  | idle process =>
    cases call with
    | lockExists place =>
      cases answered
      exact faces
    | readPid place =>
      cases answered
      exact faces
    | openLock place create =>
      refine faces.openLock ?_ answered
      cases process <;> simp_all [Stage.permits]
    | _ => cases process <;> simp [Stage.permits] at permitted
  | opened process place file =>
    cases call with
    | flock other =>
      obtain rfl := of_decide_eq_true permitted
      refine faces.flock (fun ok => free rfl ?_) answered
      rw [ok]
    | _ => simp [Stage.permits] at permitted
  | locked process place file =>
    cases call with
    | openPid other =>
      cases process with
      | daemon pid =>
        obtain rfl := of_decide_eq_true permitted
        exact faces.openPid answered
      | cleaner => simp [Stage.permits] at permitted
    | close other =>
      cases process with
      | daemon pid =>
        obtain rfl := of_decide_eq_true permitted
        cases answered
        exact faces.close rfl
      | cleaner => simp [Stage.permits] at permitted
    | unlock other =>
      cases process with
      | daemon pid => simp [Stage.permits] at permitted
      | cleaner =>
        obtain rfl := of_decide_eq_true permitted
        cases answered
        exact faces.unlock rfl
    | _ => cases process <;> simp [Stage.permits] at permitted
  | writing pid place file pidFile =>
    cases call with
    | writePid other text =>
      obtain ⟨rfl, rfl⟩ := of_decide_eq_true permitted
      cases fault with
      | none =>
        cases answered
        exact faces.writePid
      | some errno =>
        cases answered
        exact faces
    | close other =>
      obtain rfl := of_decide_eq_true permitted
      cases answered
      exact faces.close rfl
    | _ => simp [Stage.permits] at permitted
  | held pid place file =>
    cases call with
    | serve =>
      cases answered
      exact faces
    | unlock other =>
      obtain rfl := of_decide_eq_true permitted
      cases answered
      exact faces.unlock rfl
    | close other =>
      obtain rfl := of_decide_eq_true permitted
      cases answered
      exact faces.close rfl
    | _ => simp [Stage.permits] at permitted
  | unlinking process place last =>
    obtain rfl := of_decide_eq_true permitted
    exact faces.unlink answered

end Faces

variable {ι : Type}

def Unlinking (place : CandidatePath) (thread : Thread Process Call Return) : Prop :=
  (protocol.phase thread).unlinks? = some place

instance (place : CandidatePath) : DecidablePred (Unlinking place) :=
  fun _ => inferInstanceAs (Decidable (_ = some place))

def granted? : Happening ι → Option (ι × LockFile)
  | .acted name ⟨.flock file, .ok ()⟩ => some (name, file)
  | _ => none

/-- A lock is granted on the file that the path still leads to, while no process
is between giving the lock back and its last unlink. -/
def Undisturbed (pool : Processes ι) (event : Happening ι) (_ : Processes ι) : Prop :=
  ∀ grant ∈ granted? event, ∀ thread ∈ pool.threads grant.1,
    ∀ place ∈ (protocol.phase thread).opens?, pool.shared.lockLink place = some grant.2.inode ∧
        pool.Nobody (Unlinking place)

instance [Fintype ι] (pool : Processes ι) (event : Happening ι)
    (pool' : Processes ι) : Decidable (Undisturbed pool event pool') :=
  inferInstanceAs (Decidable (∀ grant ∈ granted? event, ∀ thread ∈ pool.threads grant.1,
      ∀ place ∈ (protocol.phase thread).opens?, _ ∧ _))

def Others (pool : Processes ι) (name : ι) (stage : Stage) : Prop :=
  ∃ other thread, other ≠ name ∧ pool.threads other = some thread ∧ protocol.phase thread = stage

def Safe (pool : Processes ι) : Prop :=
  ∀ name thread, pool.threads name = some thread →
    Faces pool.shared (Others pool name) (protocol.phase thread)

abbrev Orderly (pool : Processes ι) : Prop := protocol.Kept (fun _ _ => True) pool

variable [DecidableEq ι]

theorem Safe.set {name : ι} {resumed : Thread Process Call Return} (safe : Safe pool)
    (faces : Faces shared (Others pool name) (protocol.phase resumed)) :
    Safe (pool.set shared name resumed) := by
  intro other thread found
  rcases Pool.found_set found with ⟨rfl, rfl⟩ | ⟨different, found⟩
  · refine ⟨faces.sound, ?_⟩
    rintro _ ⟨third, thread', different, found', rfl⟩
    rcases Pool.found_set found' with ⟨same, -⟩ | ⟨-, found'⟩
    · exact absurd same different
    · exact faces.rivals ⟨third, thread', different, found', rfl⟩
  · obtain ⟨sound, apart⟩ := faces.rivals ⟨other, thread, different, found, rfl⟩
    refine ⟨sound, ?_⟩
    rintro _ ⟨third, thread', distinct, found', rfl⟩
    rcases Pool.found_set found' with ⟨rfl, rfl⟩ | ⟨different', found'⟩
    · exact ⟨faces.sound, apart.symm⟩
    · exact ⟨(faces.rivals ⟨third, thread', different', found', rfl⟩).1,
        ((safe other thread found).rivals ⟨third, thread', distinct, found', rfl⟩).2⟩

theorem Safe.step {event : Happening ι}
    (safe : Safe pool) (orderly : Orderly pool) (step : system.Step pool event pool')
    (undisturbed : Undisturbed pool event pool') : Safe pool' := by
  cases step with
  | @launched name process shared free launched =>
    cases launched
    have idle : Faces pool.shared (Others pool name) (.idle process) := by
      refine ⟨⟨nofun, trivial⟩, ?_⟩
      rintro _ ⟨other, thread, -, found, rfl⟩
      exact ⟨(safe other thread found).sound, nofun, fun _ => nofun, nofun⟩
    exact safe.set idle
  | @acted name thread call next oracle reply shared found waits answered =>
    apply safe.set
    rw [Protocol.phase_resume]
    refine (safe name thread found).advance (orderly.permits found waits) answered ?_
    rintro place file opens granted
    cases granted
    obtain ⟨linked, nobody⟩ := undisturbed (name, file) rfl thread found place opens
    refine ⟨linked, ?_⟩
    rintro _ ⟨other, thread', -, found', rfl⟩
    exact nobody other thread' found'

theorem safe {pool : Processes ι}
    (run : system.Run Undisturbed (.start kernel) events pool) : Safe pool := by
  have both : Orderly pool ∧ Safe pool := by
    apply run.invariant
    · exact ⟨.empty _ _, fun _ _ => nofun⟩
    · rintro pool event pool' ⟨orderly, safe⟩ step undisturbed
      exact ⟨.step body_obeys orderly step, safe.step orderly step undisturbed⟩
  exact both.2

def Holds (thread : Thread Process Call Return) : Prop :=
  ∃ pid place file, protocol.phase thread = .held pid place file

theorem process_advance (exchange : Exchange Call Return) :
    (stage.advance exchange).process = stage.process := by
  unfold Stage.advance
  split <;> rfl

theorem process_phase (thread : Thread Process Call Return) :
    (protocol.phase thread).process = thread.code := by
  rw [Protocol.phase]
  generalize thread.log = log
  induction log using List.reverseRecOn with
  | nil => rfl
  | append_singleton log exchange ih =>
    rw [List.foldl_append]
    exact (process_advance exchange).trans ih

/-- Whatever files are there at the start, in every run whose locks are granted
undisturbed at most one process holds a `PidLock`, and the PID file names it. -/
theorem single_instance {kernel : Kernel} {events : List (Happening ι)} {pool : Processes ι}
    (run : system.Run Undisturbed (.start kernel) events pool) :
    (∀ {name other thread thread'}, pool.threads name = some thread →
      pool.threads other = some thread' → Holds thread → Holds thread' → name = other) ∧
    (∀ {name thread pid}, pool.threads name = some thread →
      thread.code = .daemon pid → Holds thread →
      ∃ inode, pool.shared.pidLink .primary = some inode ∧
        pool.shared.pidText .primary inode = some pid) := by
  have reached := safe run
  constructor
  · rintro name other thread thread' found found' ⟨pid, place, file, held⟩
      ⟨pid', place', file', held'⟩
    by_contra different
    have rival : Others pool name (.held pid' place' file') :=
      ⟨other, thread', Ne.symm different, found', held'⟩
    have faces := reached name thread found
    rw [held] at faces
    have root' := (faces.rivals rival).1.secure.1
    exact faces.elsewhere rfl rival rfl (root'.trans faces.sound.secure.1.symm)
  · rintro name thread pid found code ⟨pid', place, file, held⟩
    have secure := (reached name thread found).sound.secure
    have owner := process_phase thread
    rw [held] at secure owner
    obtain ⟨rfl, -, inode, linked, text⟩ := secure
    cases owner.trans code
    exact ⟨inode, linked, text⟩

abbrev Schedule := List (System.Move (Fin 3) Process (Option Errno))

def leaveAndEnter : Schedule :=
  .launch 0 (.daemon 1) :: System.acts 0 none 6 ++ .launch 1 (.daemon 2) ::
    System.acts 1 none 4 ++ System.acts 0 none 2 ++ .launch 2 (.daemon 3) :: System.acts 2 none 4

def twoDaemons : List (Happening (Fin 3)) × Processes (Fin 3) :=
  system.replayed System.anyhow leaveAndEnter (.start .new) (by decide +kernel)

/-- The first daemon unlinks the file whose lock the second has got, and the
third locks a new one: two processes hold a `PidLock`. -/
theorem unlink_admits_second_instance :
    system.Run System.anyhow (.start .new) twoDaemons.1 twoDaemons.2 ∧
      (twoDaemons.2.threads 1).map protocol.phase = some (.held 2 .primary ⟨0, 1⟩) ∧
      (twoDaemons.2.threads 2).map protocol.phase = some (.held 3 .primary ⟨2, 2⟩) := by
  refine ⟨.replayed _ _, ?_⟩
  decide +kernel

def enterAndRefuse : Schedule :=
  .launch 0 (.daemon 1) :: System.acts 0 none 4 ++
    .launch 1 (.daemon 2) :: System.acts 1 none 2

def oneDaemon : List (Happening (Fin 3)) × Processes (Fin 3) :=
  system.replayed Undisturbed enterAndRefuse (.start .new) (by decide +kernel)

theorem refused_second_instance : ∃ inode, oneDaemon.2.shared.pidLink .primary = some inode ∧
      oneDaemon.2.shared.pidText .primary inode = some 1 := by
  apply (single_instance (.replayed enterAndRefuse (by decide +kernel))).2
  · have running : (oneDaemon.2.threads 0).isSome = true := by decide +kernel
    exact (Option.some_get running).symm
  · decide +kernel
  · exact ⟨1, .primary, ⟨0, 0⟩, by decide +kernel⟩

end CacheCleaner.PidLock
