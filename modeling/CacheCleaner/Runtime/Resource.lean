import CacheCleaner.Domain.Types
import CacheCleaner.Effect.Machine
import CacheCleaner.Effect.Registry

namespace CacheCleaner

open Effect

structure StorageId where
  val : String
  deriving DecidableEq, Repr

structure MountId where
  val : String
  deriving DecidableEq, Repr

structure ReservationId where
  val : Nat
  deriving DecidableEq, Repr

structure ResourceManager where
  activeFds : Nat
  maxFds : Nat
  lockedTargets : TargetId → Option (AttemptId × ReservationId)
  lockedStorages : StorageId → Option ReservationId
  lockedMounts : MountId → Option ReservationId
  reservationCounter : Nat

inductive Permit where
  | fd
  | target (target : TargetId) (attempt : AttemptId) (reservation : ReservationId)
  | storage (storage : StorageId) (reservation : ReservationId)
  | mount (mount : MountId) (reservation : ReservationId)
  deriving DecidableEq, Repr

inductive ResourceRefusal where
  | exhausted (maxFds : Nat) (waited : Option String)
  | targetLocked (target : TargetId) (holder : AttemptId)
  | storageLocked (storage : StorageId)
  | mountLocked (mount : MountId)
  deriving DecidableEq, Repr

def ResourceRefusal.message : ResourceRefusal → String
  | .exhausted maxFds (some timeout) =>
    s!"Resource pool exhausted: maximum concurrent FD limit ({maxFds}) reached " ++
      s!"after waiting {timeout}"
  | .exhausted maxFds none =>
    s!"Resource pool exhausted: maximum concurrent FD limit ({maxFds}) reached"
  | .targetLocked target holder =>
    s!"Concurrent mutation collision: Target {target} is already locked by attempt {holder.val}"
  | .storageLocked storage => s!"Storage {storage.val} is already locked"
  | .mountLocked mount => s!"Mount {mount.val} is already locked"

namespace ResourceManager

def new (maxFds : Nat) : ResourceManager :=
  ⟨0, maxFds, fun _ => none, fun _ => none, fun _ => none, 1⟩

variable (manager : ResourceManager)

def reserve : ReservationId × ResourceManager :=
  (⟨manager.reservationCounter⟩,
    { manager with
      reservationCounter := (manager.reservationCounter + 1) % 2 ^ 64 })

/-- The end of `acquire_fd_permit`, after any wait; which of the two messages a
refusal has depends on where the timeout is noticed. -/
def acquireFdPermit (waited : Option String) :
    Except ResourceRefusal (Permit × ResourceManager) :=
  if manager.maxFds ≤ manager.activeFds then
    .error (.exhausted manager.maxFds waited)
  else .ok (.fd, { manager with activeFds := manager.activeFds + 1 })

def acquireTargetLockForAttempt
    (target : TargetId) (attempt : AttemptId) : Except ResourceRefusal (Permit × ResourceManager) :=
  match manager.lockedTargets target with
  | some (holder, _) => .error (.targetLocked target holder)
  | none =>
    let (reservation, manager) := manager.reserve
    .ok (.target target attempt reservation,
      { manager with
        lockedTargets := Function.update manager.lockedTargets target
          (some (attempt, reservation)) })

def acquireTargetLock (target : TargetId) :
    Except ResourceRefusal (Permit × ResourceManager) :=
  manager.acquireTargetLockForAttempt target ⟨0⟩

def acquireStorageLock (storage : StorageId) :
    Except ResourceRefusal (Permit × ResourceManager) :=
  if (manager.lockedStorages storage).isSome then
    .error (.storageLocked storage)
  else
    let (reservation, manager) := manager.reserve
    .ok (.storage storage reservation,
      { manager with
        lockedStorages := Function.update manager.lockedStorages storage
          (some reservation) })

def acquireMountLock (mount : MountId) :
    Except ResourceRefusal (Permit × ResourceManager) :=
  if (manager.lockedMounts mount).isSome then .error (.mountLocked mount)
  else
    let (reservation, manager) := manager.reserve
    .ok (.mount mount reservation,
      { manager with
        lockedMounts := Function.update manager.lockedMounts mount
          (some reservation) })

/-- What the destructors of the lock permits do to their map: the entry goes
if it is still of the permit's reservation. -/
def unlock {κ ν : Type} [DecidableEq κ] (reservationOf : ν → ReservationId)
    (entries : κ → Option ν) (key : κ) (reservation : ReservationId) : κ → Option ν :=
  match entries key with
  | some held =>
    if reservationOf held = reservation then Function.update entries key none
    else entries
  | none => entries

def drop : Permit → ResourceManager
  | .fd => { manager with activeFds := manager.activeFds - 1 }
  | .target target _ reservation =>
    { manager with
      lockedTargets := unlock Prod.snd manager.lockedTargets target
        reservation }
  | .storage storage reservation =>
    { manager with
      lockedStorages := unlock id manager.lockedStorages storage reservation }
  | .mount mount reservation =>
    { manager with
      lockedMounts := unlock id manager.lockedMounts mount reservation }

def activeFdCount : Nat := manager.activeFds

def isTargetLocked (target : TargetId) : Bool :=
  (manager.lockedTargets target).isSome

def isStorageLocked (storage : StorageId) : Bool :=
  (manager.lockedStorages storage).isSome

def isMountLocked (mount : MountId) : Bool :=
  (manager.lockedMounts mount).isSome

end ResourceManager

namespace Permit

def isFd : Permit → Bool
  | .fd => true
  | _ => false

def targetHold : Permit → Option (TargetId × AttemptId × ReservationId)
  | .target key attempt reservation => some (key, attempt, reservation)
  | _ => none

def storageHold : Permit → Option (StorageId × ReservationId)
  | .storage key reservation => some (key, reservation)
  | _ => none

def mountHold : Permit → Option (MountId × ReservationId)
  | .mount key reservation => some (key, reservation)
  | _ => none

end Permit

inductive Lockable where
  | target (key : TargetId)
  | storage (key : StorageId)
  | mount (key : MountId)
  deriving DecidableEq, Repr

def Permit.locks : Permit → Option Lockable
  | .fd => none
  | .target key _ _ => some (.target key)
  | .storage key _ => some (.storage key)
  | .mount key _ => some (.mount key)

def ResourceManager.isLocked (manager : ResourceManager) : Lockable → Bool
  | .target key => manager.isTargetLocked key
  | .storage key => manager.isStorageLocked key
  | .mount key => manager.isMountLocked key

def ResourceManager.entry (manager : ResourceManager) :
    Lockable → Option (Option AttemptId × ReservationId)
  | .target key => (manager.lockedTargets key).map fun (attempt, reservation) =>
    (some attempt, reservation)
  | .storage key => (manager.lockedStorages key).map fun reservation =>
    (none, reservation)
  | .mount key => (manager.lockedMounts key).map fun reservation =>
    (none, reservation)

structure Holdings where
  manager : ResourceManager
  live : List Permit

inductive ResourceCall where
  | acquireFdPermit (waited : Option String)
  | acquireTargetLock (target : TargetId)
  | acquireTargetLockForAttempt (target : TargetId) (attempt : AttemptId)
  | acquireStorageLock (storage : StorageId)
  | acquireMountLock (mount : MountId)
  /-- The permit at a place in the list of live ones goes out of scope. -/
  | drop (place : Nat)

namespace Holdings

def acquired (holdings : Holdings) : Except ResourceRefusal (Permit × ResourceManager) →
      Except ResourceRefusal (Option Permit) × Holdings
  | .ok (permit, manager) => (.ok (some permit), ⟨manager, permit :: holdings.live⟩)
  | .error refusal => (.error refusal, holdings)

def calls : Machine Holdings ResourceCall (Except ResourceRefusal (Option Permit)) where
  step := fun holdings call =>
    match call with
    | .acquireFdPermit waited =>
      holdings.acquired (holdings.manager.acquireFdPermit waited)
    | .acquireTargetLock target =>
      holdings.acquired (holdings.manager.acquireTargetLock target)
    | .acquireTargetLockForAttempt target attempt =>
      holdings.acquired (holdings.manager.acquireTargetLockForAttempt target attempt)
    | .acquireStorageLock storage =>
      holdings.acquired (holdings.manager.acquireStorageLock storage)
    | .acquireMountLock mount =>
      holdings.acquired (holdings.manager.acquireMountLock mount)
    | .drop place =>
      match holdings.live[place]? with
      | some permit =>
        (.ok none, ⟨holdings.manager.drop permit, holdings.live.eraseIdx place⟩)
      | none => (.ok none, holdings)

/-- The maps and the counter say which permits are alive. -/
structure Exact (holdings : Holdings) : Prop where
  targets : Registered holdings.manager.lockedTargets (holdings.live.filterMap Permit.targetHold)
  storages : Registered holdings.manager.lockedStorages (holdings.live.filterMap Permit.storageHold)
  mounts : Registered holdings.manager.lockedMounts (holdings.live.filterMap Permit.mountHold)
  fds : holdings.manager.activeFds = holdings.live.countP Permit.isFd
  bounded : holdings.manager.activeFds ≤ holdings.manager.maxFds

variable {holdings : Holdings}

theorem exact_new (maxFds : Nat) : Exact ⟨.new maxFds, []⟩ :=
  ⟨.nil, .nil, .nil, rfl, Nat.zero_le maxFds⟩

theorem Exact.acquireFdPermit (sound : holdings.Exact) (waited : Option String) :
    (holdings.acquired (holdings.manager.acquireFdPermit waited)).2.Exact := by
  unfold ResourceManager.acquireFdPermit
  split
  · exact sound
  · rename_i room
    refine ⟨sound.targets, sound.storages, sound.mounts, ?_, ?_⟩
    · change holdings.manager.activeFds + 1 = _
      rw [sound.fds]
      exact (List.countP_cons_of_pos rfl).symm
    · exact Nat.lt_of_not_le room

theorem Exact.acquireTargetLockForAttempt (sound : holdings.Exact)
    (target : TargetId) (attempt : AttemptId) : (holdings.acquired
      (holdings.manager.acquireTargetLockForAttempt target attempt)).2.Exact := by
  unfold ResourceManager.acquireTargetLockForAttempt
  split
  · exact sound
  · rename_i free
    exact ⟨sound.targets.claim free, sound.storages, sound.mounts, sound.fds, sound.bounded⟩

theorem Exact.acquireStorageLock (sound : holdings.Exact) (storage : StorageId) : (holdings.acquired
      (holdings.manager.acquireStorageLock storage)).2.Exact := by
  unfold ResourceManager.acquireStorageLock
  split
  · exact sound
  · rename_i free
    rw [Option.not_isSome_iff_eq_none] at free
    exact ⟨sound.targets, sound.storages.claim free, sound.mounts, sound.fds, sound.bounded⟩

theorem Exact.acquireMountLock (sound : holdings.Exact) (mount : MountId) :
    (holdings.acquired (holdings.manager.acquireMountLock mount)).2.Exact := by
  unfold ResourceManager.acquireMountLock
  split
  · exact sound
  · rename_i free
    rw [Option.not_isSome_iff_eq_none] at free
    exact ⟨sound.targets, sound.storages, sound.mounts.claim free, sound.fds, sound.bounded⟩

section

variable {manager : ResourceManager} {front back : List Permit} {permit : Permit}

theorem unlock_own {κ ν : Type} [DecidableEq κ]
    {reservationOf : ν → ReservationId} {entries : κ → Option ν} {key : κ}
    {held : ν} {front back : List (κ × ν)}
    (registered : Registered entries (front ++ (key, held) :: back)) :
    ResourceManager.unlock reservationOf entries key (reservationOf held) =
      Function.update entries key none := by
  have found : entries key = some held := by
    rw [registered.entry_iff]
    exact List.mem_append_right _ List.mem_cons_self
  simp only [ResourceManager.unlock, found, if_true]

theorem filterMap_of_none (other : hold permit = none) :
    (front ++ permit :: back).filterMap hold = (front ++ back).filterMap hold := by
  rw [List.filterMap_append, List.filterMap_append, List.filterMap_cons_none other]

theorem countP_of_not_fd (other : permit.isFd = false) :
    (front ++ permit :: back).countP Permit.isFd = (front ++ back).countP Permit.isFd := by
  simp [other]

theorem registered_drop {κ ν : Type} [DecidableEq κ]
    {hold : Permit → Option (κ × ν)} (reservationOf : ν → ReservationId)
    {entries : κ → Option ν} {key : κ} {held : ν} (registered : Registered entries
      ((front ++ permit :: back).filterMap hold)) (own : hold permit = some (key, held)) :
    ResourceManager.unlock reservationOf entries key (reservationOf held) =
        Function.update entries key none ∧ Registered (Function.update entries key none)
        ((front ++ back).filterMap hold) := by
  rw [List.filterMap_append, List.filterMap_cons_some own] at registered
  refine ⟨unlock_own registered, ?_⟩
  rw [List.filterMap_append]
  exact registered.release

theorem Exact.drop (sound : Exact ⟨manager, front ++ permit :: back⟩) :
    Exact ⟨manager.drop permit, front ++ back⟩ := by
  obtain ⟨targets, storages, mounts, fds, bounded⟩ := sound
  cases permit with
  | fd =>
    rw [filterMap_of_none rfl] at targets storages mounts
    refine ⟨targets, storages, mounts, ?_, Nat.le_trans (Nat.sub_le _ 1) bounded⟩
    change manager.activeFds - 1 = (front ++ back).countP Permit.isFd
    have counted : (front ++ Permit.fd :: back).countP Permit.isFd =
        (front ++ back).countP Permit.isFd + 1 := by
      rw [List.countP_append, List.countP_append, List.countP_cons_of_pos rfl]
      rfl
    rw [fds, counted]
    rfl
  | target key attempt reservation =>
    rw [filterMap_of_none rfl] at storages mounts
    rw [countP_of_not_fd rfl] at fds
    obtain ⟨freed, released⟩ := registered_drop Prod.snd targets rfl
    refine ⟨?_, storages, mounts, fds, bounded⟩
    rw [← freed] at released
    exact released
  | storage key reservation =>
    rw [filterMap_of_none rfl] at targets mounts
    rw [countP_of_not_fd rfl] at fds
    obtain ⟨freed, released⟩ := registered_drop id storages rfl
    refine ⟨targets, ?_, mounts, fds, bounded⟩
    rw [← freed] at released
    exact released
  | mount key reservation =>
    rw [filterMap_of_none rfl] at targets storages
    rw [countP_of_not_fd rfl] at fds
    obtain ⟨freed, released⟩ := registered_drop id mounts rfl
    refine ⟨targets, storages, ?_, fds, bounded⟩
    rw [← freed] at released
    exact released

end

theorem exists_of_getElem? {live : List Permit}
    (found : live[place]? = some permit) : ∃ front back, live = front ++ permit :: back ∧
      live.eraseIdx place = front ++ back := by
  obtain ⟨inside, rfl⟩ := List.getElem?_eq_some_iff.mp found
  refine ⟨live.take place, live.drop (place + 1), ?_, List.eraseIdx_eq_take_drop_succ live place⟩
  rw [← List.drop_eq_getElem_cons inside, List.take_append_drop]

theorem Exact.step (sound : holdings.Exact) (call : ResourceCall) :
    (calls.step holdings call).2.Exact := by
  cases call with
  | acquireFdPermit waited => exact sound.acquireFdPermit waited
  | acquireTargetLock target =>
    exact sound.acquireTargetLockForAttempt target ⟨0⟩
  | acquireTargetLockForAttempt target attempt =>
    exact sound.acquireTargetLockForAttempt target attempt
  | acquireStorageLock storage => exact sound.acquireStorageLock storage
  | acquireMountLock mount => exact sound.acquireMountLock mount
  | drop place =>
    simp only [calls]
    split
    · rename_i permit found
      obtain ⟨front, back, whole, rest⟩ := exists_of_getElem? found
      rw [rest]
      apply Exact.drop
      rw [← whole]
      exact sound
    · exact sound

theorem exact_after (maxFds : Nat) (made : List ResourceCall) :
    (calls.after ⟨.new maxFds, []⟩ made).Exact :=
  Machine.after_invariant Exact (exact_new maxFds) fun _ call _ sound => sound.step call

theorem maxFds_drop (manager : ResourceManager) (permit : Permit) :
    (manager.drop permit).maxFds = manager.maxFds := by
  cases permit <;> rfl

theorem maxFds_step (call : ResourceCall) :
    (calls.step holdings call).2.manager.maxFds = holdings.manager.maxFds := by
  cases call with
  | acquireFdPermit waited =>
    simp only [calls, ResourceManager.acquireFdPermit]
    split <;> rfl
  | acquireTargetLock target =>
    simp only [calls, ResourceManager.acquireTargetLock,
      ResourceManager.acquireTargetLockForAttempt]
    split <;> rfl
  | acquireTargetLockForAttempt target attempt =>
    simp only [calls, ResourceManager.acquireTargetLockForAttempt]
    split <;> rfl
  | acquireStorageLock storage =>
    simp only [calls, ResourceManager.acquireStorageLock]
    split <;> rfl
  | acquireMountLock mount =>
    simp only [calls, ResourceManager.acquireMountLock]
    split <;> rfl
  | drop place =>
    simp only [calls]
    split
    · exact maxFds_drop _ _
    · rfl

theorem step_refused (refused : (calls.step holdings call).1 = .error refusal) :
    (calls.step holdings call).2 = holdings := by
  have acquired : ∀ outcome, (holdings.acquired outcome).1 = .error refusal →
      (holdings.acquired outcome).2 = holdings := by
    intro outcome refused
    cases outcome with
    | ok granted => cases refused
    | error refusal => rfl
  cases call with
  | drop place =>
    simp only [calls] at refused
    split at refused <;> cases refused
  | _ => exact acquired _ refused

section

variable {κ ν : Type} [DecidableEq κ] {entries : κ → Option ν}
  {hold : Permit → Option (κ × ν)} {lockable : κ → Lockable}

theorem countP_locks {live : List Permit} (registered : Registered entries (live.filterMap hold))
    (agrees : ∀ permit, permit.locks = some (lockable key) ↔
      (hold permit).map Prod.fst = some key) : ((entries key).isSome = true ↔
      live.countP (fun permit => permit.locks = some (lockable key)) = 1) ∧
    live.countP (fun permit => permit.locks = some (lockable key)) ≤ 1 := by
  have counted : live.countP (fun permit => permit.locks = some (lockable key)) =
      ((live.filterMap hold).map Prod.fst).count key := by
    rw [List.map_filterMap, List.count_eq_countP, List.countP_filterMap]
    apply List.countP_congr
    intro permit _
    rw [decide_eq_true_eq, agrees]
    cases (hold permit).map Prod.fst <;> simp
  rw [counted]
  exact ⟨registered.isSome_iff_count, List.nodup_iff_count_le_one.mp registered.distinct key⟩

end

/-- What holds of a manager of `maxFds` descriptors at every point. -/
structure Kept (maxFds : Nat) (holdings : Holdings) : Prop where
  locked_iff : ∀ lockable, holdings.manager.isLocked lockable = true ↔
    holdings.live.countP (fun permit => permit.locks = some lockable) = 1
  alone : ∀ lockable, holdings.live.countP (fun permit => permit.locks = some lockable) ≤ 1
  frees : ∀ place permit, holdings.live[place]? = some permit →
    ∀ lockable, (calls.step holdings (.drop place)).2.manager.entry lockable =
      if permit.locks = some lockable then none
      else holdings.manager.entry lockable
  refused : ∀ call refusal, (calls.step holdings call).1 = .error refusal →
    (calls.step holdings call).2 = holdings
  counted : holdings.manager.activeFdCount = holdings.live.countP Permit.isFd
  bounded : holdings.manager.activeFdCount ≤ maxFds

theorem Exact.countP_locks (sound : holdings.Exact) (lockable : Lockable) :
    (holdings.manager.isLocked lockable = true ↔
      holdings.live.countP (fun permit => permit.locks = some lockable) = 1) ∧
    holdings.live.countP (fun permit => permit.locks = some lockable) ≤ 1 := by
  cases lockable with
  | target key =>
    apply Holdings.countP_locks sound.targets
    intro permit
    cases permit <;> simp [Permit.locks, Permit.targetHold]
  | storage key =>
    apply Holdings.countP_locks sound.storages
    intro permit
    cases permit <;> simp [Permit.locks, Permit.storageHold]
  | mount key =>
    apply Holdings.countP_locks sound.mounts
    intro permit
    cases permit <;> simp [Permit.locks, Permit.mountHold]

theorem map_update_none {κ ν β : Type} [DecidableEq κ] {entries : κ → Option ν}
    {key other : κ} {f : ν → β} : (Function.update entries key none other).map f =
      if key = other then none else (entries other).map f := by
  by_cases same : key = other
  · simp [same]
  · simp [same, Ne.symm same]

theorem Exact.frees (sound : holdings.Exact) {place : Nat}
    (found : holdings.live[place]? = some permit) (lockable : Lockable) :
    (calls.step holdings (.drop place)).2.manager.entry lockable =
      if permit.locks = some lockable then none
      else holdings.manager.entry lockable := by
  obtain ⟨front, back, whole, -⟩ := exists_of_getElem? found
  obtain ⟨targets, storages, mounts, -, -⟩ := sound
  rw [whole] at targets storages mounts
  simp only [calls, found]
  cases permit with
  | fd => cases lockable <;> rfl
  | target key attempt reservation =>
    have freed := (registered_drop Prod.snd targets rfl).1
    cases lockable with
    | target other =>
      simp only [ResourceManager.entry, ResourceManager.drop, freed,
        map_update_none, Permit.locks, Option.some.injEq, Lockable.target.injEq]
    | _ => rfl
  | storage key reservation =>
    have freed := (registered_drop id storages rfl).1
    rw [id_eq] at freed
    cases lockable with
    | storage other =>
      simp only [ResourceManager.entry, ResourceManager.drop, freed,
        map_update_none, Permit.locks, Option.some.injEq, Lockable.storage.injEq]
    | _ => rfl
  | mount key reservation =>
    have freed := (registered_drop id mounts rfl).1
    rw [id_eq] at freed
    cases lockable with
    | mount other =>
      simp only [ResourceManager.entry, ResourceManager.drop, freed,
        map_update_none, Permit.locks, Option.some.injEq, Lockable.mount.injEq]
    | _ => rfl

/-- Whatever is acquired and dropped, in whatever order and through whichever
clones, the manager stays exact; the reservation numbers may even wrap. -/
theorem permits_exact (maxFds : Nat) (made : List ResourceCall) :
    Kept maxFds (calls.after ⟨.new maxFds, []⟩ made) := by
  have sound := exact_after maxFds made
  have limit : (calls.after ⟨.new maxFds, []⟩ made).manager.maxFds = maxFds :=
    Machine.after_invariant (fun holdings : Holdings => holdings.manager.maxFds = maxFds)
      rfl fun _ call _ same => (maxFds_step call).trans same
  have bounded := sound.bounded
  rw [limit] at bounded
  exact {
    locked_iff := fun lockable => (sound.countP_locks lockable).1
    alone := fun lockable => (sound.countP_locks lockable).2
    frees := fun place permit found lockable => sound.frees found lockable
    refused := fun call refusal refused => step_refused refused
    counted := sound.fds
    bounded := bounded }

end Holdings

end CacheCleaner
