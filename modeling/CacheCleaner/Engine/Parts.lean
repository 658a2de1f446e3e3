import CacheCleaner.Engine.Reachable

namespace CacheCleaner

namespace Fs

variable (fs : Fs) (openat2 : Bool)

inductive PartEntries (deeper : FileIdentity → RelativePath → List Found → Prop)
    (directory : FileIdentity) (relPrefix : RelativePath) :
    List SafeDirEntry → List Found → Prop
  | nil : PartEntries deeper directory relPrefix [] []
  | skip (later : PartEntries deeper directory relPrefix rest part) :
      PartEntries deeper directory relPrefix (entry :: rest) part
  | leaf (joined : relPrefix.join entry.name = some path)
      (later : PartEntries deeper directory relPrefix rest part) :
      PartEntries deeper directory relPrefix (entry :: rest) (⟨path, entry⟩ :: part)
  | under (joined : relPrefix.join entry.name = some path)
      (isDir : (entry.isDir && !entry.isSymlink) = true)
      (opened : fs.openChild openat2 directory entry.name = .ok within)
      (inner : deeper within path beneath)
      (later : PartEntries deeper directory relPrefix rest part) :
      PartEntries deeper directory relPrefix (entry :: rest) (⟨path, entry⟩ :: (beneath ++ part))

/-- Entries that a scan can be left with when others cannot be examined or
entered: nothing without the directory it is in. -/
def Part : Nat → FileIdentity → RelativePath → List Found → Prop
  | 0, _, _, part => part = []
  | levels + 1, directory, relPrefix, part =>
    PartEntries fs openat2 (Part levels) directory relPrefix
      (fs.safeEntries (fun _ => false) directory) part

structure TargetPart (target : TargetDescriptor) (part : List Found) : Prop where
  beneath : part = [] ∨ ∃ root, fs.openRoot target.basePath = .ok root ∧
    fs.Part openat2 CandidateScanner.maxDepth root RelativePath.empty part
  limit : part.length ≤ CandidateScanner.maxCandidatesPerTarget

section

variable {fs : Fs} {openat2 : Bool} {levels : Nat} {directory : FileIdentity}
  {relPrefix : RelativePath} {entries : List SafeDirEntry} {part : List Found}

section

variable {deeper : FileIdentity → RelativePath → List Found → Prop}

theorem partEntries_nil (entries : List SafeDirEntry) :
    fs.PartEntries openat2 deeper directory relPrefix entries [] := by
  induction entries with
  | nil => exact .nil
  | cons entry rest ih => exact .skip ih

theorem PartEntries.among (some : fs.PartEntries openat2 deeper directory relPrefix entries part)
    (less : entries.Sublist all) :
    fs.PartEntries openat2 deeper directory relPrefix all part := by
  induction less generalizing part with
  | slnil => exact some
  | cons entry _ ih => exact .skip (ih some)
  | cons_cons entry _ ih =>
    cases some with
    | skip later => exact .skip (ih later)
    | leaf joined later => exact .leaf joined (ih later)
    | under joined isDir opened inner later => exact .under joined isDir opened inner (ih later)

theorem PartEntries.take (some : fs.PartEntries openat2 deeper directory relPrefix entries part)
    (taken : ∀ {child path beneath}, deeper child path beneath →
      ∀ count, deeper child path (beneath.take count)) (count : Nat) :
    fs.PartEntries openat2 deeper directory relPrefix entries (part.take count) := by
  induction some generalizing count with
  | nil =>
    rw [List.take_nil]
    exact .nil
  | skip _ ih => exact .skip (ih count)
  | leaf joined _ ih =>
    cases count with
    | zero => exact partEntries_nil _
    | succ count => exact .leaf joined (ih count)
  | under joined isDir opened inner _ ih =>
    cases count with
    | zero => exact partEntries_nil _
    | succ count =>
      rw [List.take_succ_cons, List.take_append]
      exact .under joined isDir opened (taken inner count) (ih _)

theorem PartEntries.sublist {whole : FileIdentity → RelativePath → List Found}
    (some : fs.PartEntries openat2 deeper directory relPrefix entries part)
    (less : ∀ {child path beneath}, deeper child path beneath →
      beneath.Sublist (whole child path)) :
    part.Sublist (entries.flatMap (fs.reachEntry openat2 whole directory relPrefix)) := by
  induction some with
  | nil => exact .slnil
  | skip _ ih => exact ih.trans (List.sublist_append_right ..)
  | leaf joined _ ih =>
    rw [List.flatMap_cons, reachEntry, joined]
    exact ((List.nil_sublist _).cons_cons _).append ih
  | under joined isDir opened inner _ ih =>
    rw [List.flatMap_cons, reachEntry, joined]
    simp only [isDir, if_true, opened]
    exact ((less inner).append ih).cons_cons _

end

theorem part_nil : fs.Part openat2 levels directory relPrefix [] := by
  cases levels with
  | zero => rfl
  | succ levels => exact partEntries_nil _

theorem Part.take (some : fs.Part openat2 levels directory relPrefix part) (count : Nat) :
    fs.Part openat2 levels directory relPrefix (part.take count) := by
  induction levels generalizing directory relPrefix part count with
  | zero =>
    cases some
    exact List.take_nil
  | succ levels ih => exact PartEntries.take some ih count

theorem Part.sublist (some : fs.Part openat2 levels directory relPrefix part) :
    part.Sublist (fs.reach openat2 levels directory relPrefix) := by
  induction levels generalizing directory relPrefix part with
  | zero =>
    cases some
    exact .slnil
  | succ levels ih => exact PartEntries.sublist some ih

theorem exists_part (mem : found ∈ fs.reach openat2 levels directory relPrefix) :
    ∃ part, fs.Part openat2 levels directory relPrefix part ∧ found ∈ part ∧
      part.length ≤ levels := by
  induction levels generalizing directory relPrefix with
  | zero => cases mem
  | succ levels ih =>
    obtain ⟨entry, listed, inside⟩ := List.mem_flatMap.mp mem
    have alone : [entry].Sublist (fs.safeEntries (fun _ => false) directory) :=
      List.singleton_sublist.mpr listed
    unfold reachEntry at inside
    cases joined : relPrefix.join entry.name with
    | none =>
      rw [joined] at inside
      cases inside
    | some path =>
      rw [joined] at inside
      rcases List.mem_cons.mp inside with rfl | below
      · exact ⟨[⟨path, entry⟩], (PartEntries.leaf joined .nil).among alone,
          List.mem_singleton_self _, Nat.succ_le_succ (Nat.zero_le _)⟩
      · split at below
        · rename_i isDir
          split at below
          · cases below
          · rename_i child opened
            obtain ⟨part, some, there, short⟩ := ih below
            refine ⟨⟨path, entry⟩ :: (part ++ []),
              (PartEntries.under joined isDir opened some .nil).among alone, ?_, ?_⟩
            · simp [there]
            · simpa using short
        · cases below

theorem exists_targetPart (mem : found ∈ fs.reachTarget openat2 target) :
    ∃ part, fs.TargetPart openat2 target part ∧ found ∈ part := by
  unfold reachTarget at mem
  cases opened : fs.openRoot target.basePath with
  | error errno =>
    rw [opened] at mem
    cases mem
  | ok root =>
    rw [opened] at mem
    obtain ⟨part, some, inside, short⟩ := exists_part mem
    refine ⟨part, ⟨Or.inr ⟨root, opened, some⟩, short.trans (by decide)⟩, inside⟩

theorem TargetPart.sublist (some : fs.TargetPart openat2 target part) :
    part.Sublist (fs.reachTarget openat2 target) := by
  rcases some.beneath with rfl | ⟨root, opened, beneath⟩
  · exact List.nil_sublist _
  · rw [reachTarget, opened]
    exact beneath.sublist

end

end Fs

namespace CandidateScanner

open Effect Effect.Program

section

variable {env : Env} {fs : Fs} {directory : FileIdentity} {relPrefix : RelativePath}

section

variable {deeper : FileIdentity → RelativePath → Nat → List Sight × Nat}

theorem part_sightEntries {parts : FileIdentity → RelativePath → List Found → Prop}
    (some : ∀ child path tick, parts child path ((deeper child path tick).1.filterMap Sight.found?))
    (entries : List SafeDirEntry) (tick : Nat) :
    fs.PartEntries env.openat2 parts directory relPrefix entries
      ((sightEntries env fs deeper directory relPrefix entries tick).1.filterMap Sight.found?) := by
  induction entries generalizing tick with
  | nil => exact .nil
  | cons entry rest ih =>
    rw [sightEntries, List.filterMap_append]
    have seen := glance env fs deeper directory relPrefix entry tick
    generalize sightEntry env fs deeper directory relPrefix entry tick = tour at seen ⊢
    cases seen with
    | rejected => exact .skip (ih _)
    | leaf joined => exact .leaf joined (ih _)
    | shut joined => exact .leaf joined (ih _)
    | entered joined isDir opened =>
      exact .under joined isDir opened (some _ _ _) (ih _)

theorem found_sightEntries {whole : FileIdentity → RelativePath → List Found}
    (enters : env.Enters) (all : ∀ child path tick,
      (deeper child path tick).1.filterMap Sight.found? = whole child path)
    (entries : List SafeDirEntry) (tick : Nat) :
    (sightEntries env fs deeper directory relPrefix entries tick).1.filterMap Sight.found? =
      entries.flatMap (fs.reachEntry env.openat2 whole directory relPrefix) := by
  induction entries generalizing tick with
  | nil => rfl
  | cons entry rest ih =>
    rw [sightEntries, List.filterMap_append, List.flatMap_cons, ih]
    congr 1
    unfold sightEntry Fs.reachEntry
    cases relPrefix.join entry.name with
    | none => rfl
    | some path =>
      by_cases isDir : (entry.isDir && !entry.isSymlink) = true
      · simp only [isDir, if_true, enters.permits, enters.opens, Env.guarded]
        cases fs.openChild env.openat2 directory entry.name with
        | error errno => rfl
        | ok child => exact congrArg _ (all child path (tick + 2))
      · simp only [isDir]
        rfl

end

theorem filterMap_hidden (entries : List SafeDirEntry) (names : SafeDirEntry → List String)
    (sights : List Sight) :
    (.listed :: ((entries.map fun entry => .hidden (names entry)) ++ sights)).filterMap
      Sight.found? = sights.filterMap Sight.found? := by
  rw [List.filterMap_cons_none rfl, List.filterMap_append, List.filterMap_map,
    List.filterMap_eq_nil_iff.mpr, List.nil_append]
  exact fun _ _ => rfl

theorem part_sights (levels : Nat) (directory : FileIdentity) (relPrefix : RelativePath)
    (tick : Nat) : fs.Part env.openat2 levels directory relPrefix
      ((sights env fs levels directory relPrefix tick).1.filterMap Sight.found?) := by
  induction levels generalizing directory relPrefix tick with
  | zero => rfl
  | succ levels ih =>
    unfold sights
    cases env.readFault tick with
    | some fault => exact Fs.part_nil
    | none =>
      simp only [filterMap_hidden]
      rw [safeEntries_eq_filter]
      exact (part_sightEntries ih _ _).among List.filter_sublist

theorem found_sights (clear : env.Clear) (levels : Nat) (directory : FileIdentity)
    (relPrefix : RelativePath) (tick : Nat) :
    (sights env fs levels directory relPrefix tick).1.filterMap Sight.found? =
      fs.reach env.openat2 levels directory relPrefix := by
  induction levels generalizing directory relPrefix tick with
  | zero => rfl
  | succ levels ih =>
    unfold sights
    simp only [clear.reads, filterMap_hidden, funext (clear.shows tick)]
    exact found_sightEntries clear.toEnters ih _ _

end

theorem glimpsed_part (env : Env) (fs : Fs) (target : TargetDescriptor) (tick : Nat) :
    fs.TargetPart env.openat2 target (glimpsed env fs target tick) := by
  unfold glimpsed
  cases opened : Env.guarded (env.openFault (tick + 1)) (fs.openRoot target.basePath) with
  | error errno => exact ⟨Or.inl rfl, Nat.zero_le _⟩
  | ok root =>
    refine ⟨Or.inr ⟨root, Env.guarded_ok opened, ?_⟩, List.length_take_le ..⟩
    exact (part_sights maxDepth root RelativePath.empty (tick + 2)).take _

theorem scanTargetWithResource_sees {env : Env} {world : World} (nextId : Nat) :
    Spec env.handler (fun _ _ => True) (fun _ => True) (fun result final => final.fs = world.fs ∧
        ∀ candidate ∈ result.1.candidates, ∃ found ∈ world.fs.reachTarget env.openat2 target,
            candidate.unnumbered = found.candidate target)
      (scanTargetWithResource target nextId) world := by
  refine ((scanTargetWithResource_glimpses env target world nextId).mono ?_ id).spec
  rintro result final ⟨fs, -, shown⟩
  refine ⟨fs, fun candidate mem => ?_⟩
  have listed := List.mem_map_of_mem (f := Candidate.unnumbered) mem
  rw [shown] at listed
  obtain ⟨found, inside, same⟩ := List.mem_map.mp listed
  exact ⟨found, (glimpsed_part env world.fs target world.tick).sublist.subset inside, same.symm⟩

theorem glimpsed_clear {env : Env} (clear : env.Clear) (fs : Fs) (target : TargetDescriptor)
    (tick : Nat) : glimpsed env fs target tick =
      (fs.reachTarget env.openat2 target).take maxCandidatesPerTarget := by
  unfold glimpsed Fs.reachTarget
  rw [clear.opens]
  simp only [Env.guarded]
  cases fs.openRoot target.basePath with
  | error errno => rfl
  | ok root => exact congrArg _ (found_sights clear maxDepth root RelativePath.empty (tick + 2))

end CandidateScanner

def Env.conceal (env : Env) (hidden : Nat → String → Bool) : Env := { env with hidden }

theorem Env.run_conceal {env : Env} {program : Act α} {hidden : Nat → String → Bool}
    (ran : program.run env.handler world = (outcome, final))
    (same : ∀ moment, world.tick ≤ moment → moment < final.tick →
      hidden moment = env.hidden moment) :
    program.run (env.conceal hidden).handler world = (outcome, final) := by
  refine Effect.Program.run_eq_of_agree env.tick_respond ran fun request state late soon => ?_
  cases request with
  | readEntries directory =>
    change (Env.guarded _ (.ok (state.fs.safeEntries (hidden state.tick) _)), _) = _
    rw [same state.tick late soon]
    rfl
  | _ => rfl

namespace CandidateScanner

/-- With some entries hidden between two requests, a scan comes to a part. -/
def Realised (start stop : Nat) (tours : (Nat → String → Bool) → List Sight × Nat)
    (part : List Found) : Prop :=
  start ≤ stop ∧ ∃ hidden : Nat → String → Bool, ∀ hidden',
    (∀ moment, start ≤ moment → moment < stop → hidden' moment = hidden moment) →
      (tours hidden').2 = stop ∧ (tours hidden').1.filterMap Sight.found? = part

theorem Realised.append {first second whole : (Nat → String → Bool) → List Sight × Nat}
    (early : Realised start middle first front) (late : Realised middle stop second back)
    (joins : ∀ hidden, (first hidden).2 = middle →
      whole hidden = ((first hidden).1 ++ (second hidden).1, (second hidden).2)) :
    Realised start stop whole (front ++ back) := by
  obtain ⟨order, hidden, shows⟩ := early
  obtain ⟨order', hidden', shows'⟩ := late
  refine ⟨order.trans order', fun moment =>
    if moment < middle then hidden moment else hidden' moment, fun other same => ?_⟩
  have before := shows other fun moment late soon =>
    (same moment late (soon.trans_le order')).trans (if_pos soon)
  have after := shows' other fun moment late soon =>
    (same moment (order.trans late) soon).trans (if_neg late.not_gt)
  rw [joins other before.1, List.filterMap_append, before.2, after.2]
  exact ⟨after.1, rfl⟩

section

variable {env : Env} {fs : Fs} {levels : Nat} {directory : FileIdentity}
  {relPrefix : RelativePath} (enters : env.Enters)
include enters

theorem realised_entry (opened : fs.openChild env.openat2 directory entry.name = .ok child)
    (joined : relPrefix.join entry.name = some path)
    (isDir : (entry.isDir && !entry.isSymlink) = true)
    (beneath : Realised (tick + 2) stop
      (fun hidden => sights (env.conceal hidden) fs levels child path (tick + 2)) part) :
    Realised tick stop (fun hidden => sightEntry (env.conceal hidden) fs
      (sights (env.conceal hidden) fs levels) directory relPrefix entry tick)
      (⟨path, entry⟩ :: part) := by
  obtain ⟨order, hidden, shows⟩ := beneath
  refine ⟨by omega, hidden, fun other same => ?_⟩
  have shown := shows other fun moment late => same moment (by omega)
  have permit : (env.conceal other).fdPermit tick = true := enters.permits tick
  have opens : (env.conceal other).openFault (tick + 1) = none := enters.opens _
  have found : fs.openChild (env.conceal other).openat2 directory entry.name = .ok child := opened
  simp only [sightEntry, joined, isDir, permit, opens, Env.guarded, found, if_true]
  exact ⟨shown.1, congrArg _ shown.2⟩

theorem realised_leaf (joined : relPrefix.join entry.name = some path)
    (empty : ∀ child, ∃ stop, Realised (tick + 2) stop
      (fun hidden => sights (env.conceal hidden) fs levels child path (tick + 2)) []) :
    ∃ stop, Realised tick stop (fun hidden => sightEntry (env.conceal hidden) fs
      (sights (env.conceal hidden) fs levels) directory relPrefix entry tick)
      [⟨path, entry⟩] := by
  cases isDir : entry.isDir && !entry.isSymlink with
  | false =>
    refine ⟨tick, Nat.le_refl _, env.hidden, fun other _ => ?_⟩
    simp [sightEntry, joined, isDir, Sight.found?]
  | true =>
    cases opened : fs.openChild env.openat2 directory entry.name with
    | ok child =>
      obtain ⟨stop, beneath⟩ := empty child
      exact ⟨stop, realised_entry enters opened joined isDir beneath⟩
    | error errno =>
      refine ⟨tick + 2, Nat.le_add_right .., env.hidden, fun other _ => ?_⟩
      have permit : (env.conceal other).fdPermit tick = true := enters.permits tick
      have opens : (env.conceal other).openFault (tick + 1) = none := enters.opens _
      have failed : fs.openChild (env.conceal other).openat2 directory entry.name =
          .error errno := opened
      simp [sightEntry, joined, isDir, permit, opens, Env.guarded, failed, Sight.found?]

theorem exists_kept (deeper : ∀ {child path part}, fs.Part env.openat2 levels child path part →
      ∀ tick, ∃ stop, Realised tick stop
        (fun hidden => sights (env.conceal hidden) fs levels child path tick) part)
    (some : fs.PartEntries env.openat2 (fs.Part env.openat2 levels) directory relPrefix
      entries part) (tick : Nat) : ∃ kept stop, kept.Sublist entries ∧
      Realised tick stop (fun hidden => sightEntries (env.conceal hidden) fs
        (sights (env.conceal hidden) fs levels) directory relPrefix kept tick) part := by
  induction some generalizing tick with
  | nil => exact ⟨[], tick, .slnil, Nat.le_refl _, env.hidden, fun _ _ => ⟨rfl, rfl⟩⟩
  | skip _ ih =>
    obtain ⟨kept, stop, less, realised⟩ := ih tick
    exact ⟨kept, stop, less.cons _, realised⟩
  | leaf joined _ ih =>
    obtain ⟨middle, first⟩ := realised_leaf enters joined fun _ => deeper Fs.part_nil (tick + 2)
    obtain ⟨kept, stop, less, later⟩ := ih middle
    refine ⟨_ :: kept, stop, less.cons_cons _, first.append later fun hidden same => ?_⟩
    rw [sightEntries, same]
  | under joined isDir opened inner _ ih =>
    obtain ⟨middle, within⟩ := deeper inner (tick + 2)
    obtain ⟨kept, stop, less, later⟩ := ih middle
    refine ⟨_ :: kept, stop, less.cons_cons _,
      (realised_entry enters opened joined isDir within).append later fun hidden same => ?_⟩
    rw [sightEntries, same]

omit enters in
theorem filter_kept {kept entries : List SafeDirEntry} (less : kept.Sublist entries)
    (distinct : entries.Pairwise fun early late => early.name ≠ late.name) :
    entries.filter (fun entry => decide (entry.name ∈ kept.map SafeDirEntry.name)) = kept := by
  induction less with
  | slnil => rfl
  | @cons kept rest entry less ih =>
    obtain ⟨apart, distinct⟩ := List.pairwise_cons.mp distinct
    have dropped : entry.name ∉ kept.map SafeDirEntry.name := by
      intro mem
      obtain ⟨other, inside, same⟩ := List.mem_map.mp mem
      exact apart other (less.subset inside) same.symm
    rw [List.filter_cons_of_neg (by simpa using dropped), ih distinct]
  | @cons_cons kept rest entry less ih =>
    obtain ⟨apart, distinct⟩ := List.pairwise_cons.mp distinct
    rw [List.filter_cons_of_pos (by simp)]
    refine congrArg _ (Eq.trans (List.filter_congr fun other mem => ?_) (ih distinct))
    simp [(apart other mem).symm]

theorem exists_realised (some : fs.Part env.openat2 levels directory relPrefix part)
    (tick : Nat) : ∃ stop, Realised tick stop
      (fun hidden => sights (env.conceal hidden) fs levels directory relPrefix tick) part := by
  induction levels generalizing directory relPrefix part tick with
  | zero =>
    cases some
    exact ⟨tick, Nat.le_refl _, env.hidden, fun _ _ => ⟨rfl, rfl⟩⟩
  | succ levels ih =>
    obtain ⟨kept, stop, less, order, hidden, shows⟩ := exists_kept enters ih some (tick + 1)
    refine ⟨stop, Nat.le_of_succ_le order, fun moment => if moment = tick then
      fun name => !decide (name ∈ kept.map SafeDirEntry.name) else hidden moment, ?_⟩
    intro other same
    have reads : (env.conceal other).readFault tick = none := enters.reads tick
    have now : (env.conceal other).hidden tick =
        fun name => !decide (name ∈ kept.map SafeDirEntry.name) :=
      (same tick (Nat.le_refl _) order).trans (if_pos rfl)
    have listed : fs.safeEntries ((env.conceal other).hidden tick) directory = kept := by
      rw [safeEntries_eq_filter, now]
      simp only [Bool.not_not]
      exact filter_kept less (Fs.safeEntries_distinct fs directory)
    have later := shows other fun moment late soon =>
      (same moment (Nat.le_of_succ_le late) soon).trans (if_neg (Nat.ne_of_gt late))
    simp only [sights, reads, filterMap_hidden, listed]
    exact later

end

theorem exists_glimpsed {env : Env} (enters : env.Enters)
    (some : fs.TargetPart env.openat2 target part)
    (tick : Nat) : ∃ hidden, glimpsed (env.conceal hidden) fs target tick = part := by
  have opens : ∀ hidden, (env.conceal hidden).openFault (tick + 1) = none :=
    fun _ => enters.opens _
  cases opened : fs.openRoot target.basePath with
  | error errno =>
    rcases some.beneath with rfl | ⟨root, again, -⟩
    · refine ⟨env.hidden, ?_⟩
      simp only [glimpsed, opens, Env.guarded, opened]
    · cases opened.symm.trans again
  | ok root =>
    have beneath : fs.Part env.openat2 maxDepth root RelativePath.empty part := by
      rcases some.beneath with rfl | ⟨root', again, beneath⟩
      · exact Fs.part_nil
      · cases opened.symm.trans again
        exact beneath
    obtain ⟨stop, -, hidden, shows⟩ := exists_realised enters beneath (tick + 2)
    refine ⟨hidden, ?_⟩
    simp only [glimpsed, opens, Env.guarded, opened, fitting, tour,
      (shows hidden fun _ _ _ => rfl).2]
    exact List.take_of_length_le some.limit

end CandidateScanner

end CacheCleaner
