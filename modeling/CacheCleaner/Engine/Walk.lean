import CacheCleaner.Engine.Scanner
import CacheCleaner.Runtime.Inspect

namespace CacheCleaner

open Effect Effect.Program
open ByteCount (maxSafe new?)

structure Found where
  path : RelativePath
  entry : SafeDirEntry

namespace Found

def isDirectory (found : Found) : Bool := found.entry.isDir && !found.entry.isSymlink

def size (found : Found) : Nat := if found.isDirectory then 0 else found.entry.sizeBytes

def candidate (target : TargetDescriptor) (found : Found) : Candidate where
  candidateId := ⟨0⟩
  targetId := target.targetId
  relPath := found.path
  identity := found.entry.identity
  sizeBytes := found.size
  mtime := found.entry.mtimeSecs
  isDir := found.isDirectory
  isSymlink := found.entry.isSymlink

end Found

def Candidate.unnumbered (candidate : Candidate) : Candidate :=
  { candidate with candidateId := ⟨0⟩ }

namespace Fs

variable (fs : Fs) (openat2 : Bool)

def reachEntry (deeper : FileIdentity → RelativePath → List Found)
    (directory : FileIdentity) (relPrefix : RelativePath) (entry : SafeDirEntry) : List Found :=
  match relPrefix.join entry.name with
  | none => []
  | some path =>
    ⟨path, entry⟩ :: if entry.isDir && !entry.isSymlink then
        match fs.openChild openat2 directory entry.name with
        | .error _ => []
        | .ok child => deeper child path
      else []

def reach : Nat → FileIdentity → RelativePath → List Found
  | 0, _, _ => []
  | levels + 1, directory, relPrefix =>
    (fs.safeEntries (fun _ => false) directory).flatMap
      (reachEntry fs openat2 (reach levels) directory relPrefix)

def reachTarget (target : TargetDescriptor) : List Found :=
  match fs.openRoot target.basePath with
  | .error _ => []
  | .ok root =>
    fs.reach openat2 CandidateScanner.maxDepth root RelativePath.empty

end Fs

structure Env.Enters (env : Env) : Prop where
  opens : ∀ tick, env.openFault tick = none
  reads : ∀ tick, env.readFault tick = none
  permits : ∀ tick, env.fdPermit tick = true

/-- Nothing fails that a scan needs, and nothing is hidden from it. -/
structure Env.Clear (env : Env) : Prop extends env.Enters where
  shows : ∀ tick name, env.hidden tick name = false

namespace CandidateScanner

def Fit (walked : List Found) : Prop := ∀ found ∈ walked, found.size ≤ maxSafe

instance (walked : List Found) : Decidable (Fit walked) :=
  inferInstanceAs (Decidable (∀ found ∈ walked, found.size ≤ maxSafe))

/-- What a scan comes to: entries, of which some cannot be examined and some have a
name that is rejected, and directories, of which some cannot be read and some are
not entered. -/
inductive Sight where
  | found (found : Found)
  | hidden (names : List String)
  | rejected (names : List String)
  | listed
  | unreadable (relPrefix : RelativePath) (errno : Errno)
  | closed (names : List String)

def Sight.checked : Sight → Bool
  | hidden _ | closed _ => false
  | _ => true

def Sight.found? : Sight → Option Found
  | found entry => some entry
  | _ => none

section

variable (env : Env) (fs : Fs)

def sightEntry (deeper : FileIdentity → RelativePath → Nat → List Sight × Nat)
    (directory : FileIdentity) (relPrefix : RelativePath) (entry : SafeDirEntry) (tick : Nat) :
    List Sight × Nat :=
  match relPrefix.join entry.name with
  | none => ([.rejected (relPrefix.names ++ [entry.name])], tick)
  | some path =>
    if entry.isDir && !entry.isSymlink then
      if env.fdPermit tick then
        match Env.guarded (env.openFault (tick + 1))
            (fs.openChild env.openat2 directory entry.name) with
        | .error _ => ([.found ⟨path, entry⟩, .closed path.names], tick + 2)
        | .ok child =>
          let beneath := deeper child path (tick + 2)
          (.found ⟨path, entry⟩ :: beneath.1, beneath.2)
      else ([.found ⟨path, entry⟩, .closed path.names], tick + 1)
    else ([.found ⟨path, entry⟩], tick)

def sightEntries (deeper : FileIdentity → RelativePath → Nat → List Sight × Nat)
    (directory : FileIdentity) (relPrefix : RelativePath) :
    List SafeDirEntry → Nat → List Sight × Nat
  | [], tick => ([], tick)
  | entry :: rest, tick =>
    let front := sightEntry env fs deeper directory relPrefix entry tick
    let back := sightEntries deeper directory relPrefix rest front.2
    (front.1 ++ back.1, back.2)

/-- What a scan without a limit comes to beneath a directory, in order, when its
first request has the number `tick`; and the number of the request after its last. -/
def sights : Nat → FileIdentity → RelativePath → Nat → List Sight × Nat
  | 0, _, relPrefix, tick => ([.closed relPrefix.names], tick)
  | levels + 1, directory, relPrefix, tick =>
    match env.readFault tick with
    | some fault => ([.unreadable relPrefix fault.errno], tick + 1)
    | none =>
      let unseen := (fs.safeEntries (fun _ => false) directory).filter (env.hidden tick ·.name)
      let inside := sightEntries env fs (sights levels) directory relPrefix
        (fs.safeEntries (env.hidden tick) directory) (tick + 1)
      (.listed :: (unseen.map (fun entry => .hidden (relPrefix.names ++ [entry.name])) ++
        inside.1), inside.2)

inductive Glance (deeper : FileIdentity → RelativePath → Nat → List Sight × Nat)
    (directory : FileIdentity) (relPrefix : RelativePath) (entry : SafeDirEntry) (tick : Nat) :
    List Sight × Nat → Prop
  | rejected (unjoined : relPrefix.join entry.name = none) :
      Glance deeper directory relPrefix entry tick
        ([.rejected (relPrefix.names ++ [entry.name])], tick)
  | leaf (joined : relPrefix.join entry.name = some path)
      (plain : (entry.isDir && !entry.isSymlink) = false) :
      Glance deeper directory relPrefix entry tick ([.found ⟨path, entry⟩], tick)
  | shut (joined : relPrefix.join entry.name = some path)
      (isDir : (entry.isDir && !entry.isSymlink) = true) :
      Glance deeper directory relPrefix entry tick
        ([.found ⟨path, entry⟩, .closed path.names], later)
  | entered (joined : relPrefix.join entry.name = some path)
      (isDir : (entry.isDir && !entry.isSymlink) = true)
      (opened : fs.openChild env.openat2 directory entry.name = .ok child) :
      Glance deeper directory relPrefix entry tick
        (.found ⟨path, entry⟩ :: (deeper child path (tick + 2)).1,
          (deeper child path (tick + 2)).2)

theorem glance (deeper : FileIdentity → RelativePath → Nat → List Sight × Nat)
    (directory : FileIdentity) (relPrefix : RelativePath) (entry : SafeDirEntry) (tick : Nat) :
    Glance env fs deeper directory relPrefix entry tick
      (sightEntry env fs deeper directory relPrefix entry tick) := by
  unfold sightEntry
  cases joined : relPrefix.join entry.name with
  | none => exact .rejected joined
  | some path =>
    cases isDir : entry.isDir && !entry.isSymlink with
    | false => exact .leaf joined isDir
    | true =>
      cases env.fdPermit tick with
      | false => exact .shut joined isDir
      | true =>
        simp only [if_true]
        cases opened : Env.guarded (env.openFault (tick + 1))
            (fs.openChild env.openat2 directory entry.name) with
        | error errno => exact .shut joined isDir
        | ok child => exact .entered joined isDir (Env.guarded_ok opened)

end

/-- What the scan does about a sight; a size that `ByteCount::new` refuses ends the
process. -/
def see (target : TargetDescriptor) (progress : Progress) (sight : Sight) : Option Progress :=
  if sight.checked && progress.full then some progress.limited
  else
    match sight with
    | .found found =>
      (new? found.size).map (progress.push target found.path found.entry)
    | .unreadable relPrefix errno => some (progress.complain (unreadable relPrefix errno))
    | _ => some progress

theorem safeEntries_eq_filter (fs : Fs) (hidden : String → Bool) (directory : FileIdentity) :
    fs.safeEntries hidden directory =
      (fs.safeEntries (fun _ => false) directory).filter (!hidden ·.name) := by
  unfold Fs.safeEntries
  cases fs.inode directory with
  | none => rfl
  | some inode =>
    rw [List.filter_filterMap]
    refine List.filterMap_congr fun (name, entry) _ => ?_
    simp only [Bool.false_eq_true, if_false]
    cases fs.inode entry.node with
    | none => simp
    | some node =>
      simp only [Option.bind_some]
      cases out : hidden name <;> cases node.kind <;> simp [out, Option.filter]

section

variable {env : Env} {target : TargetDescriptor} {world : World} {progress : Progress}

theorem see_found (room : progress.full = false) (path : RelativePath) (entry : SafeDirEntry) :
    see target progress (.found ⟨path, entry⟩) =
      (new? (Found.mk path entry).size).map (progress.push target path entry) := by
  simp [see, room]

theorem see_unchecked {sight : Sight} (unchecked : sight.checked = false) :
    see target progress sight = some progress := by
  cases sight <;> first | rfl | cases unchecked

theorem foldlM_see_full (full : progress.full = true) (sights : List Sight) :
    sights.foldlM (see target) progress =
      some (if sights.any Sight.checked then progress.limited else progress) := by
  induction sights generalizing progress with
  | nil => rfl
  | cons sight rest ih =>
    rw [List.foldlM_cons, List.any_cons]
    cases checked : sight.checked with
    | false =>
      rw [see_unchecked checked]
      exact ih full
    | true =>
      have stops : see target progress sight = some progress.limited := by
        simp [see, checked, full]
      rw [stops]
      refine (@ih progress.limited full).trans ?_
      split <;> rfl

theorem foldlM_see_hidden (entries : List SafeDirEntry) (names : SafeDirEntry → List String) :
    (entries.map fun entry => Sight.hidden (names entry)).foldlM (see target) progress =
      some progress := by
  induction entries with
  | nil => rfl
  | cons _ _ ih => exact ih

theorem checked_sightEntry (env : Env) (fs : Fs) {deeper} (directory : FileIdentity)
    (relPrefix : RelativePath) (entry : SafeDirEntry) (tick : Nat) :
    (sightEntry env fs deeper directory relPrefix entry tick).1.any Sight.checked = true := by
  have seen := glance env fs deeper directory relPrefix entry tick
  generalize sightEntry env fs deeper directory relPrefix entry tick = tour at seen ⊢
  cases seen <;> rfl

/-- The program does what a scan does about its sights.  The numbers of its requests
are theirs until it reaches its limit. -/
def Follows (env : Env) (target : TargetDescriptor) (world : World) (progress : Progress)
    (tour : List Sight × Nat) (program : Act Progress) : Prop :=
  Ends env.handler
    (fun after final => (final.fs = world.fs ∧ (after.full = false → final.tick = tour.2)) ∧
      tour.1.foldlM (see target) progress = some after)
    (tour.1.foldlM (see target) progress = none) program world

section

variable {descend : FileIdentity → RelativePath → Progress → Act Progress}
  {deeper : FileIdentity → RelativePath → Nat → List Sight × Nat}
  (follows : ∀ child path progress tick (world' : World), world'.fs = world.fs →
    (progress.full = false → world'.tick = tick) →
    Follows env target world' progress (deeper child path tick) (descend child path progress))
include follows

theorem scanEntry_follows (directory : FileIdentity) (relPrefix : RelativePath)
    (entry : SafeDirEntry) (room : progress.full = false) :
    Follows env target world progress
      (sightEntry env world.fs deeper directory relPrefix entry world.tick)
      (scanEntry target descend directory relPrefix entry progress) := by
  unfold scanEntry sightEntry
  cases relPrefix.join entry.name with
  | none =>
    refine ⟨⟨rfl, fun _ => rfl⟩, ?_⟩
    simp [see, Sight.checked, room]
  | some path =>
    have seen := @see_found target progress room path entry
    by_cases isDir : (entry.isDir && !entry.isSymlink) = true
    · simp only [isDir, if_true]
      have pushed : see target progress (.found ⟨path, entry⟩) =
          some (progress.push target path entry 0) := by
        rw [seen, Found.size, Found.isDirectory, if_pos isDir]
        rfl
      have shut : [Sight.found ⟨path, entry⟩, .closed path.names].foldlM (see target) progress =
          some (progress.push target path entry 0) := by
        rw [List.foldlM_cons, pushed]
        rfl
      refine Rules.quiet_ends rfl fun permit given => ?_
      change permit = env.fdPermit world.tick at given
      rw [← given]
      cases permit with
      | false => exact ⟨⟨rfl, fun _ => rfl⟩, shut⟩
      | true =>
        refine Rules.quiet_ends rfl fun reply replied => ?_
        change reply = Env.guarded (env.openFault (world.tick + 1))
          (world.fs.openChild env.openat2 directory entry.name) at replied
        rw [← replied]
        cases reply with
        | error errno => exact ⟨⟨rfl, fun _ => rfl⟩, shut⟩
        | ok child =>
          have beneath := follows child path (progress.push target path entry 0)
            (world.tick + 2) world.advance.advance rfl fun _ => rfl
          simp only [if_true, List.foldlM_cons, pushed]
          exact beneath
    · simp only [isDir, Bool.false_eq_true, if_false]
      have size : (Found.mk path entry).size = entry.sizeBytes := by
        simp [Found.size, Found.isDirectory, isDir]
      rw [size] at seen
      unfold Follows
      rw [List.foldlM_cons, seen]
      cases new? entry.sizeBytes with
      | none => rfl
      | some size => exact ⟨⟨rfl, fun _ => rfl⟩, rfl⟩

theorem scanEntries_follows (directory : FileIdentity) (relPrefix : RelativePath)
    (entries : List SafeDirEntry) (progress : Progress) (tick : Nat)
    (start : progress.full = false → world.tick = tick) : Follows env target world progress
      (sightEntries env world.fs deeper directory relPrefix entries tick)
      (scanEntries target descend directory relPrefix entries progress) := by
  induction entries generalizing progress tick world with
  | nil => exact ⟨⟨rfl, start⟩, rfl⟩
  | cons entry rest ih =>
    unfold scanEntries sightEntries
    cases full : progress.full with
    | true =>
      refine ⟨⟨rfl, fun room => ?_⟩, ?_⟩
      · cases full.symm.trans room
      · rw [foldlM_see_full full, List.any_append, checked_sightEntry]
        rfl
    | false =>
      cases start full
      have first := scanEntry_follows follows directory relPrefix entry full
      unfold Follows at first ⊢
      simp only [List.foldlM_append, Bool.false_eq_true, if_false]
      refine Ends.bind (first.mono (fun _ _ ended => ended) fun stuck => ?_) ?_
      · rw [stuck]
        rfl
      · rintro middle state ⟨⟨fs, onward⟩, folded⟩
        rw [folded]
        rw [← fs] at follows onward ⊢
        exact ih follows middle _ onward

end

theorem scanSafeRecursive_follows (levels : Nat) (directory : FileIdentity)
    (relPrefix : RelativePath) (progress : Progress) (tick : Nat)
    (start : progress.full = false → world.tick = tick) : Follows env target world progress
      (sights env world.fs levels directory relPrefix tick)
      (scanSafeRecursive target levels directory relPrefix progress) := by
  induction levels generalizing directory relPrefix progress tick world with
  | zero => exact ⟨⟨rfl, start⟩, rfl⟩
  | succ levels ih =>
    unfold scanSafeRecursive sights
    cases full : progress.full with
    | true =>
      refine ⟨⟨rfl, fun room => ?_⟩, ?_⟩
      · cases full.symm.trans room
      · rw [foldlM_see_full full]
        split <;> rfl
    | false =>
      cases start full
      simp only [Bool.false_eq_true, if_false]
      refine Rules.quiet_ends rfl fun reply replied => ?_
      change reply = Env.guarded (env.readFault world.tick)
        (.ok (world.fs.safeEntries (env.hidden world.tick) directory)) at replied
      cases fault : env.readFault world.tick with
      | some fault =>
        rw [fault] at replied
        subst replied
        refine ⟨⟨rfl, fun _ => rfl⟩, ?_⟩
        simp [see, Sight.checked, full]
      | none =>
        rw [fault] at replied
        subst replied
        have listed : see target progress .listed = some progress := by
          simp [see, Sight.checked, full]
        simp only [List.foldlM_cons, List.foldlM_append, listed, foldlM_see_hidden]
        exact @scanEntries_follows env target world.advance _ _
          (fun child path progress tick world' same onward =>
            same ▸ @ih world' child path progress tick onward) directory relPrefix
          (world.fs.safeEntries (env.hidden world.tick) directory) progress (world.tick + 1)
          fun _ => rfl

end

def Progress.seen (progress : Progress) : List Candidate :=
  progress.candidates.map Candidate.unnumbered

theorem seen_push (progress : Progress) (target : TargetDescriptor) (found : Found) :
    (progress.push target found.path found.entry found.size).seen =
      progress.seen ++ [found.candidate target] := by
  unfold Progress.seen Progress.push
  rw [List.map_append]
  rfl

def fitting (progress : Progress) (sights : List Sight) : List Found :=
  (sights.filterMap Sight.found?).take
    (maxCandidatesPerTarget - progress.candidates.length)

section

variable {target : TargetDescriptor} {progress : Progress}

theorem fitting_full (full : progress.full = true) (sights : List Sight) :
    fitting progress sights = [] := by
  have limit : maxCandidatesPerTarget ≤ progress.candidates.length := of_decide_eq_true full
  rw [fitting, Nat.sub_eq_zero_of_le limit, List.take_zero]

theorem fitting_cons (room : progress.full = false) (found : Found) (sights : List Sight) :
    fitting progress (.found found :: sights) =
      found :: fitting (progress.push target found.path found.entry found.size) sights := by
  have limit : progress.candidates.length < maxCandidatesPerTarget :=
    Nat.lt_of_not_le (of_decide_eq_false room)
  have left : maxCandidatesPerTarget - progress.candidates.length =
      maxCandidatesPerTarget - (progress.candidates.length + 1) + 1 := by omega
  have pushed : (progress.push target found.path found.entry found.size).candidates.length =
      progress.candidates.length + 1 := by
    rw [Progress.push, List.length_append, List.length_singleton]
  rw [fitting, fitting, pushed, left]
  rfl

def Records (target : TargetDescriptor) (before : Progress) (walked : List Found) :
    Option Progress → Prop
  | some after => Fit walked ∧ after.seen = before.seen ++ walked.map (Found.candidate target)
  | none => ¬ Fit walked

theorem Records.cons (small : found.size ≤ maxSafe)
    (later : Records target (progress.push target found.path found.entry found.size)
      walked outcome) : Records target progress (found :: walked) outcome := by
  cases outcome with
  | none => exact fun fit => later (List.forall_mem_cons.mp fit).2
  | some after =>
    obtain ⟨fit, shown⟩ := later
    refine ⟨List.forall_mem_cons.mpr ⟨small, fit⟩, ?_⟩
    rw [shown, seen_push, List.append_assoc]
    rfl

theorem foldlM_see_records (sights : List Sight) : Records target progress
      (fitting progress sights) (sights.foldlM (see target) progress) := by
  induction sights generalizing progress with
  | nil => simp [Records, fitting, Fit]
  | cons sight rest ih =>
    cases full : progress.full with
    | true =>
      rw [foldlM_see_full full, fitting_full full]
      refine ⟨List.forall_mem_nil _, ?_⟩
      rw [List.map_nil, List.append_nil]
      split <;> rfl
    | false =>
      rw [List.foldlM_cons]
      cases sight with
      | found found =>
        rw [see_found full, @fitting_cons target _ full]
        by_cases small : found.size ≤ maxSafe
        · have taken : new? found.size = some found.size := if_pos small
          rw [taken]
          exact Records.cons small ih
        · have refused : new? found.size = none := if_neg small
          rw [refused]
          exact fun fit => small (fit _ (List.mem_cons_self ..))
      | _ =>
        simp only [see, Sight.checked, full, Bool.and_false, Bool.false_eq_true, if_false]
        exact ih

end

section

variable {env : Env} {target : TargetDescriptor} {world : World}

def Progress.start (nextId : Nat) : Progress := ⟨[], [], false, nextId⟩

/-- What a scan of a target comes to, when its first request has the number `tick`
and its root opens. -/
def tour (env : Env) (fs : Fs) (root : FileIdentity) (tick : Nat) : List Sight :=
  (sights env fs maxDepth root RelativePath.empty (tick + 2)).1

theorem scanTargetWithResource_opened (opened : Env.guarded (env.openFault (world.tick + 1))
      (world.fs.openRoot target.basePath) = .ok root) (nextId : Nat) :
    Ends env.handler (fun result final => final.fs = world.fs ∧ ∃ after,
        (tour env world.fs root world.tick).foldlM (see target) (.start nextId) = some after ∧
        result.1 = ⟨after.candidates, after.status, after.errors⟩)
      ((tour env world.fs root world.tick).foldlM (see target) (.start nextId) = none)
      (scanTargetWithResource target nextId) world := by
  refine Rules.quiet_ends rfl fun _ _ => Rules.quiet_ends rfl fun reply replied => ?_
  cases (replied.trans opened : reply = .ok root)
  have follows := @scanSafeRecursive_follows env target world.advance.advance maxDepth root
    RelativePath.empty (.start nextId) (world.tick + 2) fun _ => rfl
  change Ends _ _ _ (scanSafeRecursive target maxDepth root
    RelativePath.empty (.start nextId) >>= _) _
  refine Ends.bind follows ?_
  rintro after final ⟨⟨fs, -⟩, folded⟩
  exact ⟨fs, after, folded, rfl⟩

theorem scanTargetWithResource_unopened (failed : Env.guarded (env.openFault (world.tick + 1))
      (world.fs.openRoot target.basePath) = .error errno) (nextId : Nat) :
    Ends env.handler (fun result final => final.fs = world.fs ∧ result.1.candidates = [] ∧
        (result.1.status = .complete ↔ env.existsFault (world.tick + 2) = true ∨
          world.fs.pathExists target.basePath = false)) False
      (scanTargetWithResource target nextId) world := by
  refine Rules.quiet_ends rfl fun _ _ => Rules.quiet_ends rfl fun reply replied => ?_
  cases (replied.trans failed : reply = .error errno)
  refine Rules.quiet_ends rfl fun there answered => ?_
  change there = (!env.existsFault (world.tick + 2) &&
    world.fs.pathExists target.basePath) at answered
  rw [← Bool.not_eq_false', ← Bool.and_eq_false_iff, ← answered]
  cases there
  · exact ⟨rfl, rfl, iff_of_true rfl rfl⟩
  · exact ⟨rfl, rfl, iff_of_false ScanStatus.noConfusion Bool.noConfusion⟩

/-- The entries that a scan of a target comes to and has room for. -/
def glimpsed (env : Env) (fs : Fs) (target : TargetDescriptor) (tick : Nat) : List Found :=
  match Env.guarded (env.openFault (tick + 1)) (fs.openRoot target.basePath) with
  | .error _ => []
  | .ok root => fitting (.start 0) (tour env fs root tick)

theorem scanTargetWithResource_glimpses (env : Env) (target : TargetDescriptor) (world : World)
    (nextId : Nat) : Ends env.handler (fun result final => final.fs = world.fs ∧
        Fit (glimpsed env world.fs target world.tick) ∧
        result.1.candidates.map Candidate.unnumbered =
          (glimpsed env world.fs target world.tick).map (Found.candidate target))
      (¬ Fit (glimpsed env world.fs target world.tick))
      (scanTargetWithResource target nextId) world := by
  unfold glimpsed
  cases opened : Env.guarded (env.openFault (world.tick + 1))
      (world.fs.openRoot target.basePath) with
  | error errno =>
    refine (scanTargetWithResource_unopened opened nextId).mono ?_ False.elim
    rintro result final ⟨fs, none, -⟩
    rw [none]
    exact ⟨fs, List.forall_mem_nil _, rfl⟩
  | ok root =>
    have records := @foldlM_see_records target (.start nextId) (tour env world.fs root world.tick)
    refine (scanTargetWithResource_opened opened nextId).mono ?_ fun stuck => ?_
    · rintro result final ⟨fs, after, folded, shown⟩
      rw [folded] at records
      rw [shown]
      exact ⟨fs, records⟩
    · rwa [stuck] at records

end

end CandidateScanner

end CacheCleaner
