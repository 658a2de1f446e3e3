import CacheCleaner.Engine.Scanners

namespace CacheCleaner

namespace Fs

section

variable {fs : Fs} {directory final root : FileIdentity}

theorem Walks.resolve (walks : fs.Walks final links directory path crossed) :
    fs.resolve links directory path = some final := by
  induction walks with
  | @arrived links => cases links <;> rfl
  | @root links _ _ _ _ ih => cases links <;> exact ih
  | @stay links _ _ _ _ ih => cases links <;> exact ih
  | @up _ _ links _ _ found _ ih =>
    cases links <;> simpa only [Fs.resolve, resolveWith, found, Option.bind_some] using ih
  | @enter _ _ _ links _ _ found isDir _ ih =>
    cases links <;> simpa only [Fs.resolve, resolveWith, found, isDir] using ih
  | follow found link more _ ih => simpa only [Fs.resolve, resolveWith, found, link] using ih

theorem pathExists_of_openRoot
    (opened : fs.openRoot path = .ok root) : fs.pathExists path = true := by
  obtain ⟨filled, crossed, walks⟩ := openRoot_ok_iff.mp opened
  simp [pathExists, filled, walks.resolve]

end

end Fs

namespace CandidateScanner

open Effect Effect.Program

structure Progress.Silent (progress : Progress) : Prop where
  unlimited : progress.hitLimit = false
  errors : progress.errors = []

theorem status_eq_complete_iff {progress : Progress} :
    progress.status = .complete ↔ progress.Silent := by
  unfold Progress.status
  constructor
  · intro complete
    split at complete
    · cases complete
    · rename_i unlimited
      split at complete
      · rename_i none
        exact ⟨Bool.eq_false_iff.mpr unlimited, List.isEmpty_iff.mp none⟩
      · split at complete <;> cases complete
  · intro silent
    rw [silent.unlimited, silent.errors]
    rfl

end CandidateScanner

namespace Fs

/-- A regular file, a directory or a link on the device of a root that it is
beneath, not through links. -/
structure Object (fs : Fs) (root : FileIdentity) (names : List String) (node : FileIdentity) :
    Prop where
  leads : fs.Leads root names node
  device : node.dev = root.dev
  ordinary : ∃ inode, fs.inode node = some inode ∧ inode.kind ≠ .special

end Fs

namespace CandidateScanner

namespace Sight

def Shows (names : List String) (node : FileIdentity) : Sight → Prop
  | found entry => entry.path.names = names ∧ entry.entry.identity = node
  | _ => False

/-- A place is passed over: an entry and what is beneath it, or only what is beneath
a directory. -/
def Hides (names : List String) : Sight → Prop
  | hidden above | rejected above => above <+: names
  | closed above => above <+: names ∧ above ≠ names
  | _ => False

def Concerns (names : List String) (sight : Sight) : Prop :=
  (∃ node, sight.Shows names node) ∨ sight.Hides names

end Sight

inductive Way (fs : Fs) (entry : SafeDirEntry) : List String → FileIdentity → Prop
  | here : Way fs entry [] entry.identity
  | beneath (isDir : (entry.isDir && !entry.isSymlink) = true)
      (leads : fs.Leads entry.identity rest node) : Way fs entry rest node

section

variable {env : Env} {fs : Fs} {directory : FileIdentity} {relPrefix : RelativePath}
  {entry : SafeDirEntry} {names : List String} {sight : Sight}

section

variable {deeper : FileIdentity → RelativePath → Nat → List Sight × Nat}

theorem mem_sightEntries {entries : List SafeDirEntry}
    (mem : sight ∈ (sightEntries env fs deeper directory relPrefix entries tick).1) :
    ∃ entry ∈ entries, ∃ tick', sight ∈ (sightEntry env fs deeper directory relPrefix
      entry tick').1 := by
  induction entries generalizing tick with
  | nil => cases mem
  | cons entry rest ih =>
    rcases List.mem_append.mp mem with here | later
    · exact ⟨entry, List.mem_cons_self .., tick, here⟩
    · obtain ⟨other, inside, found⟩ := ih later
      exact ⟨other, List.mem_cons_of_mem _ inside, found⟩

theorem exists_tick {entries : List SafeDirEntry} (mem : entry ∈ entries)
    (distinct : entries.Pairwise fun early late => early.name ≠ late.name) (tick : Nat) :
    ∃ tick', (sightEntry env fs deeper directory relPrefix entry tick').1 ⊆
        (sightEntries env fs deeper directory relPrefix entries tick).1 ∧
      ∀ sight ∈ (sightEntries env fs deeper directory relPrefix entries tick).1,
        sight ∈ (sightEntry env fs deeper directory relPrefix entry tick').1 ∨
        ∃ other ∈ entries, other.name ≠ entry.name ∧ ∃ tick',
          sight ∈ (sightEntry env fs deeper directory relPrefix other tick').1 := by
  induction entries generalizing tick with
  | nil => cases mem
  | cons head rest ih =>
    obtain ⟨apart, distinct⟩ := List.pairwise_cons.mp distinct
    rw [sightEntries]
    rcases List.mem_cons.mp mem with rfl | mem
    · refine ⟨tick, List.subset_append_left .., fun sight inside => ?_⟩
      rcases List.mem_append.mp inside with here | later
      · exact Or.inl here
      · obtain ⟨other, listed, found⟩ := mem_sightEntries later
        exact Or.inr ⟨other, List.mem_cons_of_mem _ listed, (apart other listed).symm, found⟩
    · obtain ⟨tick', part, others⟩ := ih mem distinct
        (sightEntry env fs deeper directory relPrefix head tick).2
      refine ⟨tick', List.Subset.trans part (List.subset_append_right ..), fun sight inside => ?_⟩
      rcases List.mem_append.mp inside with here | later
      · exact Or.inr ⟨head, List.mem_cons_self .., apart entry mem, tick, here⟩
      · exact (others sight later).imp_right <|
          Exists.imp fun other => And.imp_left (List.mem_cons_of_mem _)

theorem names_of_sightEntry (named : fs.Named)
    (listed : entry ∈ fs.safeEntries (fun _ => false) directory)
    (beneath : ∀ child path tick, ∀ sight ∈ (deeper child path tick).1, sight.Concerns names →
      ∃ name more, names = path.names ++ name :: more)
    (mem : sight ∈ (sightEntry env fs deeper directory relPrefix entry tick).1)
    (concerns : sight.Concerns names) : ∃ more, names = relPrefix.names ++ entry.name :: more := by
  have seen := glance env fs deeper directory relPrefix entry tick
  generalize sightEntry env fs deeper directory relPrefix entry tick = tour at seen mem
  have here {path} (joined : relPrefix.join entry.name = some path)
      (concerns : (Sight.found ⟨path, entry⟩).Concerns names) :
      ∃ more, names = relPrefix.names ++ entry.name :: more := by
    rcases concerns with ⟨node, rfl, -⟩ | hides
    · exact ⟨[], Fs.names_of_join named listed joined⟩
    · exact hides.elim
  cases seen with
  | rejected =>
    cases List.mem_singleton.mp mem
    rcases concerns with ⟨node, shows⟩ | ⟨more, rfl⟩
    · exact shows.elim
    · exact ⟨more, by simp⟩
  | leaf joined =>
    cases List.mem_singleton.mp mem
    exact here joined concerns
  | shut joined =>
    rcases List.mem_cons.mp mem with rfl | mem
    · exact here joined concerns
    · cases List.mem_singleton.mp mem
      rcases concerns with ⟨node, shows⟩ | ⟨⟨more, rfl⟩, -⟩
      · exact shows.elim
      · exact ⟨more, by simp [Fs.names_of_join named listed joined]⟩
  | entered joined =>
    rcases List.mem_cons.mp mem with rfl | mem
    · exact here joined concerns
    · obtain ⟨name, more, rfl⟩ := beneath _ _ _ sight mem concerns
      exact ⟨name :: more, by simp [Fs.names_of_join named listed joined]⟩

end

theorem mem_sights (mem : sight ∈ (sights env fs (levels + 1) directory relPrefix tick).1)
    (concerns : sight.Concerns names) :
    (∃ entry ∈ fs.safeEntries (fun _ => false) directory, env.hidden tick entry.name = true ∧
        sight = .hidden (relPrefix.names ++ [entry.name])) ∨
      sight ∈ (sightEntries env fs (sights env fs levels) directory relPrefix
        (fs.safeEntries (env.hidden tick) directory) (tick + 1)).1 := by
  unfold sights at mem
  split at mem
  · cases List.mem_singleton.mp mem
    rcases concerns with ⟨node, shows⟩ | hides
    · exact shows.elim
    · exact hides.elim
  · rcases List.mem_cons.mp mem with rfl | mem
    · rcases concerns with ⟨node, shows⟩ | hides
      · exact shows.elim
      · exact hides.elim
    · refine (List.mem_append.mp mem).imp_left fun unseen => ?_
      obtain ⟨entry, inside, rfl⟩ := List.mem_map.mp unseen
      obtain ⟨listed, hidden⟩ := List.mem_filter.mp inside
      exact ⟨entry, listed, hidden, rfl⟩

theorem names_of_sights (named : fs.Named) (levels : Nat) (directory : FileIdentity)
    (relPrefix : RelativePath) (tick : Nat) :
    ∀ sight ∈ (sights env fs levels directory relPrefix tick).1, sight.Concerns names →
      ∃ name more, names = relPrefix.names ++ name :: more := by
  induction levels generalizing directory relPrefix tick with
  | zero =>
    intro sight mem concerns
    cases List.mem_singleton.mp mem
    rcases concerns with ⟨node, shows⟩ | ⟨⟨more, rfl⟩, strict⟩
    · exact shows.elim
    · cases more with
      | nil => exact absurd (List.append_nil _).symm strict
      | cons name more => exact ⟨name, more, rfl⟩
  | succ levels ih =>
    intro sight mem concerns
    rcases mem_sights mem concerns with ⟨entry, -, -, rfl⟩ | inside
    · rcases concerns with ⟨node, shows⟩ | ⟨more, rfl⟩
      · exact shows.elim
      · exact ⟨entry.name, more, by simp⟩
    · obtain ⟨entry, listed, tick', here⟩ := mem_sightEntries inside
      rw [safeEntries_eq_filter] at listed
      obtain ⟨more, whole⟩ := names_of_sightEntry named (List.mem_of_mem_filter listed)
        ih here concerns
      exact ⟨entry.name, more, whole⟩

theorem exists_way (leads : fs.Leads directory names node)
    (ordinary : ∃ inode, fs.inode node = some inode ∧ inode.kind ≠ .special) :
    ∃ entry rest, entry ∈ fs.safeEntries (fun _ => false) directory ∧
      names = entry.name :: rest ∧ Way fs entry rest node := by
  cases leads with
  | @last _ name child there =>
    obtain ⟨inode, present, kind⟩ := ordinary
    exact ⟨inode.shown name child.node, [], Fs.mem_safeEntries_iff.mpr
      ⟨child, inode, there, present, kind, rfl⟩, rfl, .here⟩
  | @step _ name above rest _ there isDir leads =>
    obtain ⟨inode, present, kind⟩ := Option.map_eq_some_iff.mp isDir
    refine ⟨inode.shown name above.node, rest, Fs.mem_safeEntries_iff.mpr
      ⟨above, inode, there, present, ?_, rfl⟩, rfl, .beneath ?_ leads⟩
    · rw [kind]
      exact FileKind.noConfusion
    · simp [Inode.shown, kind, FileKind.isSymlink]

theorem identity_of_openChild (listed : entry ∈ fs.safeEntries (fun _ => false) directory)
    (opened : fs.openChild openat2 directory entry.name = .ok child) : child = entry.identity := by
  obtain ⟨found, there, rfl, -⟩ := Fs.openChild_ok opened
  obtain ⟨other, inode, again, -, -, shown⟩ := Fs.mem_safeEntries_iff.mp listed
  cases there.symm.trans again
  rw [shown]
  rfl

/-- What is beneath a directory is recorded unless it is passed over. -/
def Decided (names : List String) (node : FileIdentity) (sights : List Sight) : Prop :=
  (∀ relPrefix errno, .unreadable relPrefix errno ∉ sights) →
    ((∃ sight ∈ sights, sight.Shows names node) ↔ ¬ ∃ sight ∈ sights, sight.Hides names)

theorem decided_sightEntry {deeper : FileIdentity → RelativePath → Nat → List Sight × Nat}
    (named : fs.Named) (listed : entry ∈ fs.safeEntries (fun _ => false) directory)
    (apart : ∀ child (path : RelativePath) tick, ∀ sight ∈ (deeper child path tick).1,
      ¬ sight.Concerns path.names)
    (decided : ∀ path tick, fs.Leads entry.identity rest node →
      Decided (path.names ++ rest) node (deeper entry.identity path tick).1)
    (way : Way fs entry rest node) (tick : Nat) :
    Decided (relPrefix.names ++ entry.name :: rest) node
      (sightEntry env fs deeper directory relPrefix entry tick).1 := by
  intro readable
  have seen := glance env fs deeper directory relPrefix entry tick
  generalize sightEntry env fs deeper directory relPrefix entry tick = tour at seen readable ⊢
  cases seen with
  | rejected => simp [Sight.Shows, Sight.Hides]
  | leaf joined plain =>
    have path := Fs.names_of_join named listed joined
    cases way with
    | here => simp [Sight.Shows, Sight.Hides, path]
    | beneath isDir => cases plain.symm.trans isDir
  | shut joined =>
    have path := Fs.names_of_join named listed joined
    cases way with
    | here => simp [Sight.Shows, Sight.Hides, path]
    | beneath isDir leads =>
      obtain ⟨name, more, rfl⟩ := List.exists_cons_of_ne_nil leads.ne_nil
      simp [Sight.Shows, Sight.Hides, path]
  | @entered path child joined isDir opened =>
    cases identity_of_openChild listed opened
    have whole : relPrefix.names ++ entry.name :: rest = path.names ++ rest := by
      simp [Fs.names_of_join named listed joined]
    rw [whole]
    simp only [List.exists_mem_cons_iff]
    cases way with
    | here =>
      rw [List.append_nil]
      refine iff_of_true (Or.inl ⟨rfl, rfl⟩) ?_
      rintro (⟨⟨⟩⟩ | ⟨sight, mem, hides⟩)
      exact apart _ _ _ sight mem (Or.inr hides)
    | beneath isDir leads =>
      have below := decided path (tick + 2) leads fun relPrefix errno mem =>
        readable relPrefix errno (List.mem_cons_of_mem _ mem)
      have longer : path.names ≠ path.names ++ rest :=
        fun same => leads.ne_nil (List.self_eq_append_right.mp same)
      simp only [Sight.Shows, Sight.Hides, longer, false_and, false_or]
      exact below

theorem apart_sights (named : fs.Named) (levels : Nat) (child : FileIdentity)
    (path : RelativePath) (tick : Nat) :
    ∀ sight ∈ (sights env fs levels child path tick).1, ¬ sight.Concerns path.names := by
  intro sight mem concerns
  obtain ⟨name, more, same⟩ := names_of_sights named levels child path tick sight mem concerns
  simp at same

theorem mem_sights_of_concerns (named : fs.Named)
    (mem : sight ∈ (sights env fs (levels + 1) directory relPrefix tick).1)
    (concerns : sight.Concerns (relPrefix.names ++ name :: rest)) :
    (env.hidden tick name = true ∧ sight = .hidden (relPrefix.names ++ [name])) ∨
      sight ∈ (sightEntries env fs (sights env fs levels) directory relPrefix
        (fs.safeEntries (env.hidden tick) directory) (tick + 1)).1 ∧
      ∀ other ∈ fs.safeEntries (env.hidden tick) directory, ∀ tick',
        sight ∈ (sightEntry env fs (sights env fs levels) directory relPrefix other tick').1 →
          other.name = name := by
  rcases mem_sights mem concerns with ⟨entry, -, hidden, rfl⟩ | inside
  · rcases concerns with ⟨node, shows⟩ | ⟨more, same⟩
    · exact shows.elim
    · have name : entry.name = name := by simp_all
      rw [← name]
      exact Or.inl ⟨hidden, rfl⟩
  · refine Or.inr ⟨inside, fun other listed tick' here => ?_⟩
    rw [safeEntries_eq_filter] at listed
    obtain ⟨more, same⟩ := names_of_sightEntry named (List.mem_of_mem_filter listed)
      (names_of_sights named levels) here concerns
    simp_all

theorem decided_sights (named : fs.Named) (levels : Nat) (relPrefix : RelativePath) (tick : Nat)
    (leads : fs.Leads directory names node)
    (ordinary : ∃ inode, fs.inode node = some inode ∧ inode.kind ≠ .special) :
    Decided (relPrefix.names ++ names) node
      (sights env fs levels directory relPrefix tick).1 := by
  induction levels generalizing directory relPrefix names tick with
  | zero =>
    intro _
    simp [sights, Sight.Shows, Sight.Hides, leads.ne_nil]
  | succ levels ih =>
    intro readable
    obtain ⟨entry, rest, listed, rfl, way⟩ := exists_way leads ordinary
    have reads : env.readFault tick = none := by
      cases failed : env.readFault tick with
      | none => rfl
      | some fault =>
        refine absurd ?_ (readable relPrefix fault.errno)
        simp [sights, failed]
    cases hidden : env.hidden tick entry.name with
    | true =>
      refine iff_of_false ?_ (not_not_intro ⟨.hidden (relPrefix.names ++ [entry.name]), ?_, ?_⟩)
      · rintro ⟨sight, mem, shows⟩
        rcases mem_sights_of_concerns named mem (.inl ⟨node, shows⟩) with ⟨-, rfl⟩ | ⟨inside, only⟩
        · exact shows
        · obtain ⟨other, shown, tick', here⟩ := mem_sightEntries inside
          have same := only other shown tick' here
          rw [safeEntries_eq_filter, List.mem_filter, same, hidden] at shown
          cases shown.2
      · simp only [sights, reads]
        refine List.mem_cons_of_mem _ (List.mem_append_left _ (List.mem_map.mpr ⟨entry, ?_, rfl⟩))
        exact List.mem_filter.mpr ⟨listed, hidden⟩
      · exact ⟨rest, by simp⟩
    | false =>
      have shown : entry ∈ fs.safeEntries (env.hidden tick) directory := by
        rw [safeEntries_eq_filter]
        exact List.mem_filter.mpr ⟨listed, by simp [hidden]⟩
      have distinct : (fs.safeEntries (env.hidden tick) directory).Pairwise
          fun early late => early.name ≠ late.name := by
        rw [safeEntries_eq_filter]
        exact (Fs.safeEntries_distinct fs directory).filter _
      obtain ⟨tick', part, others⟩ := @exists_tick env fs directory relPrefix entry
        (sights env fs levels) _ shown distinct (tick + 1)
      have whole : (sightEntry env fs (sights env fs levels) directory relPrefix entry tick').1 ⊆
          (sights env fs (levels + 1) directory relPrefix tick).1 := by
        simp only [sights, reads]
        exact fun sight mem => List.mem_cons_of_mem _ (List.mem_append_right _ (part mem))
      have keeps : ∀ sight ∈ (sights env fs (levels + 1) directory relPrefix tick).1,
          sight.Concerns (relPrefix.names ++ entry.name :: rest) →
          sight ∈ (sightEntry env fs (sights env fs levels) directory relPrefix entry tick').1 := by
        intro sight mem concerns
        rcases mem_sights_of_concerns named mem concerns with ⟨unseen, -⟩ | ⟨inside, only⟩
        · cases hidden.symm.trans unseen
        · rcases others sight inside with here | ⟨other, listed, apart, tick, there⟩
          · exact here
          · exact absurd (only other listed tick there) apart
      have decided := decided_sightEntry named listed (apart_sights named levels)
        (fun path tick leads => ih path tick leads) way tick' fun relPrefix errno mem =>
          readable relPrefix errno (whole mem)
      refine Iff.trans ⟨?_, ?_⟩ (decided.trans (not_congr ⟨?_, ?_⟩))
      · rintro ⟨sight, mem, shows⟩
        exact ⟨sight, keeps sight mem (Or.inl ⟨node, shows⟩), shows⟩
      · exact Exists.imp fun sight => And.imp_left (@whole sight)
      · exact Exists.imp fun sight => And.imp_left (@whole sight)
      · rintro ⟨sight, mem, hides⟩
        exact ⟨sight, keeps sight mem (Or.inr hides), hides⟩

end

/-- A sight that a scan with `count` candidates does not report: no unreadable
directory, not its limit and not a size that ends it. -/
structure Passed (count : Nat) (sight : Sight) : Prop where
  readable : ∀ relPrefix errno, sight ≠ .unreadable relPrefix errno
  room : sight.checked = true → count < maxCandidatesPerTarget
  fit : ∀ found, sight.found? = some found → found.size ≤ ByteCount.maxSafe

def Quiet : Nat → List Sight → Prop
  | _, [] => True
  | count, sight :: rest =>
    Passed count sight ∧ Quiet (count + ([sight].filterMap Sight.found?).length) rest

section

variable {count : Nat} {sight : Sight} {sights : List Sight} {target : TargetDescriptor}
  {progress : Progress}

theorem Quiet.readable (quiet : Quiet count sights) (relPrefix : RelativePath) (errno : Errno) :
    .unreadable relPrefix errno ∉ sights := by
  induction sights generalizing count with
  | nil => exact List.not_mem_nil
  | cons sight rest ih =>
    intro mem
    rcases List.mem_cons.mp mem with same | later
    · exact quiet.1.readable relPrefix errno same.symm
    · exact ih quiet.2 later

theorem see_silent_iff : (∃ next, see target progress sight = some next ∧ next.Silent) ↔
    progress.Silent ∧ Passed progress.candidates.length sight := by
  have limit : progress.full = true ↔ ¬ progress.candidates.length < maxCandidatesPerTarget :=
    decide_eq_true_iff.trans Nat.not_lt.symm
  unfold see
  by_cases stops : (sight.checked && progress.full) = true
  · rw [if_pos stops]
    obtain ⟨checked, full⟩ := Bool.and_eq_true_iff.mp stops
    refine iff_of_false ?_ fun passed => limit.mp full (passed.2.room checked)
    rintro ⟨_, ⟨⟩, silent⟩
    cases silent.unlimited
  · rw [if_neg stops]
    have room : sight.checked = true → progress.candidates.length < maxCandidatesPerTarget := by
      intro checked
      by_contra full
      exact stops (Bool.and_eq_true_iff.mpr ⟨checked, limit.mpr full⟩)
    cases sight with
    | found found =>
      by_cases small : found.size ≤ ByteCount.maxSafe
      · have taken : ByteCount.new? found.size = some found.size := if_pos small
        simp only [taken, Option.map_some, Option.some.injEq, exists_eq_left']
        constructor
        · exact fun silent => ⟨⟨silent.unlimited, silent.errors⟩, nofun, room,
            fun _ same => Option.some.inj same ▸ small⟩
        · exact fun passed => ⟨passed.1.unlimited, passed.1.errors⟩
      · have refused : ByteCount.new? found.size = none := if_neg small
        exact iff_of_false (by simp [refused]) fun passed => small (passed.2.fit found rfl)
    | unreadable relPrefix errno =>
      refine iff_of_false ?_ fun passed => passed.2.readable relPrefix errno rfl
      rintro ⟨_, ⟨⟩, silent⟩
      exact List.append_ne_nil_of_right_ne_nil _ (List.cons_ne_nil _ _) silent.errors
    | _ =>
      simp only [Option.some.injEq, exists_eq_left']
      exact ⟨fun silent => ⟨silent, nofun, room, nofun⟩, And.left⟩

theorem length_see (seen : see target progress sight = some next) (silent : next.Silent) :
    next.candidates.length =
      progress.candidates.length + ([sight].filterMap Sight.found?).length := by
  unfold see at seen
  split at seen
  · cases seen
    cases silent.unlimited
  · cases sight with
    | found found =>
      obtain ⟨size, -, rfl⟩ := Option.map_eq_some_iff.mp seen
      simp [Progress.push, Sight.found?]
    | _ =>
      cases seen
      rfl

theorem foldlM_see_silent_iff :
    (∃ after, sights.foldlM (see target) progress = some after ∧ after.Silent) ↔
      progress.Silent ∧ Quiet progress.candidates.length sights := by
  induction sights generalizing progress with
  | nil => simp [Quiet]
  | cons sight rest ih =>
    rw [Quiet, ← and_assoc, ← @see_silent_iff sight target progress]
    constructor
    · rintro ⟨after, folded, silent⟩
      rw [List.foldlM_cons] at folded
      obtain ⟨next, seen, later⟩ := Option.bind_eq_some_iff.mp folded
      obtain ⟨quiet, rest⟩ := ih.mp ⟨after, later, silent⟩
      rw [length_see seen quiet] at rest
      exact ⟨⟨next, seen, quiet⟩, rest⟩
    · rintro ⟨⟨next, seen, silent⟩, quiet⟩
      rw [← length_see seen silent] at quiet
      obtain ⟨after, folded, still⟩ := ih.mpr ⟨silent, quiet⟩
      refine ⟨after, ?_, still⟩
      rw [List.foldlM_cons, seen]
      exact folded

theorem Quiet.length_le (quiet : Quiet count sights) (start : count ≤ maxCandidatesPerTarget) :
    count + (sights.filterMap Sight.found?).length ≤ maxCandidatesPerTarget := by
  induction sights generalizing count with
  | nil => exact start
  | cons sight rest ih =>
    have split : (sight :: rest).filterMap Sight.found? =
        [sight].filterMap Sight.found? ++ rest.filterMap Sight.found? :=
      List.filterMap_append (l := [sight])
    rw [split, List.length_append, ← Nat.add_assoc]
    refine ih quiet.2 ?_
    cases sight with
    | found found => exact quiet.1.room rfl
    | _ => exact start

end

def TellsAll (env : Env) (world : World) (target : TargetDescriptor) (nextId : Nat) : Prop :=
  ∀ result final,
    (scanTargetWithResource target nextId).run env.handler world = (some result, final) →
    result.1.status = .complete → ∀ root names node, world.fs.openRoot target.basePath = .ok root →
      world.fs.Object root names node → ∃ candidate ∈ result.1.candidates,
        candidate.relPath.names = names ∧ candidate.identity = node

structure Exposed (env : Env) (fs : Fs) (root : FileIdentity) (tick : Nat) : Prop where
  shut : env.openFault (tick + 1) ≠ none → env.existsFault (tick + 2) = false ∨
    ∀ names node, ¬ fs.Object root names node
  seen : env.openFault (tick + 1) = none → Quiet 0 (tour env fs root tick) →
    ∀ names node, fs.Object root names node → ∀ sight ∈ tour env fs root tick, ¬ sight.Hides names

section

variable {env : Env} {world : World} {target : TargetDescriptor} {root : FileIdentity}
  {nextId : Nat}

theorem tellsAll_of_shut (opened : world.fs.openRoot target.basePath = .ok root)
    (fault : env.openFault (world.tick + 1) ≠ none) : TellsAll env world target nextId ↔
      (env.existsFault (world.tick + 2) = false ∨
        ∀ names node, ¬ world.fs.Object root names node) := by
  obtain ⟨fault, failed⟩ := Option.ne_none_iff_exists'.mp fault
  have shut : Env.guarded (env.openFault (world.tick + 1))
      (world.fs.openRoot target.basePath) = .error fault.errno := by
    rw [failed]
    rfl
  obtain ⟨result, final, ran, -, empty, status⟩ :=
    (scanTargetWithResource_unopened shut nextId).returns not_false
  rw [Fs.pathExists_of_openRoot opened, Bool.true_eq_false, or_false] at status
  constructor
  · intro tells
    by_contra hides
    rw [not_or, Bool.not_eq_false] at hides
    obtain ⟨lost, there⟩ := hides
    refine there fun names node object => ?_
    obtain ⟨candidate, mem, -⟩ := tells result final ran (status.mpr lost) root names node
      opened object
    rw [empty] at mem
    cases mem
  · intro safe result' final' ran' complete root' names node opened' object
    cases ran.symm.trans ran'
    cases opened.symm.trans opened'
    rcases safe with told | none
    · cases told.symm.trans (status.mp complete)
    · exact absurd object (none names node)

theorem exists_shows_iff {candidates : List Candidate} {seen : List Sight}
    (shown : candidates.map Candidate.unnumbered =
      (seen.filterMap Sight.found?).map (Found.candidate target)) :
    (∃ candidate ∈ candidates, candidate.relPath.names = names ∧ candidate.identity = node) ↔
      ∃ sight ∈ seen, sight.Shows names node := by
  constructor
  · rintro ⟨candidate, mem, path, identity⟩
    have listed := List.mem_map_of_mem (f := Candidate.unnumbered) mem
    rw [shown] at listed
    obtain ⟨found, inside, same⟩ := List.mem_map.mp listed
    obtain ⟨sight, there, is⟩ := List.mem_filterMap.mp inside
    cases sight with
    | found entry =>
      cases is
      refine ⟨.found found, there, ?_, ?_⟩
      · exact (congrArg (fun other => other.relPath.names) same).trans path
      · exact (congrArg Candidate.identity same).trans identity
    | _ => cases is
  · rintro ⟨sight, mem, shows⟩
    cases sight with
    | found found =>
      have listed : found.candidate target ∈ candidates.map Candidate.unnumbered := by
        rw [shown]
        exact List.mem_map_of_mem (List.mem_filterMap.mpr ⟨_, mem, rfl⟩)
      obtain ⟨candidate, inside, same⟩ := List.mem_map.mp listed
      refine ⟨candidate, inside, ?_, ?_⟩
      · exact (congrArg (fun other => other.relPath.names) same).trans shows.1
      · exact (congrArg Candidate.identity same).trans shows.2
    | _ => exact shows.elim

theorem tellsAll_of_opened (named : world.fs.Named)
    (opened : world.fs.openRoot target.basePath = .ok root)
    (opens : env.openFault (world.tick + 1) = none) : TellsAll env world target nextId ↔
      (Quiet 0 (tour env world.fs root world.tick) → ∀ names node,
        world.fs.Object root names node → ∀ sight ∈ tour env world.fs root world.tick,
          ¬ sight.Hides names) := by
  have started : Env.guarded (env.openFault (world.tick + 1))
      (world.fs.openRoot target.basePath) = .ok root := by
    rw [opens]
    exact opened
  have ends := scanTargetWithResource_opened started nextId
  have decided {names node} (object : world.fs.Object root names node) :
      Decided names node (tour env world.fs root world.tick) :=
    decided_sights named maxDepth RelativePath.empty _ object.leads object.ordinary
  have silent_iff := @foldlM_see_silent_iff (tour env world.fs root world.tick) target
    (.start nextId)
  have shows {after names node} (quiet : Quiet 0 (tour env world.fs root world.tick))
      (folded : (tour env world.fs root world.tick).foldlM (see target) (.start nextId) =
        some after) : (∃ candidate ∈ after.candidates, candidate.relPath.names = names ∧
          candidate.identity = node) ↔
        ∃ sight ∈ tour env world.fs root world.tick, sight.Shows names node := by
    have records := @foldlM_see_records target (.start nextId) (tour env world.fs root world.tick)
    rw [folded] at records
    have few := quiet.length_le (Nat.zero_le _)
    rw [Nat.zero_add] at few
    have all : fitting (.start nextId) (tour env world.fs root world.tick) =
        (tour env world.fs root world.tick).filterMap Sight.found? := List.take_of_length_le few
    rw [all] at records
    exact exists_shows_iff records.2
  constructor
  · intro tells quiet names node object sight mem hides
    obtain ⟨after, folded, silent⟩ := silent_iff.mpr ⟨⟨rfl, rfl⟩, quiet⟩
    obtain ⟨result, final, ran, -, after', again, same⟩ := ends.returns (by simp [folded])
    cases folded.symm.trans again
    have complete : result.1.status = .complete := by
      rw [same]
      exact status_eq_complete_iff.mpr silent
    have told := tells result final ran complete root names node opened object
    rw [same, shows quiet folded] at told
    exact (decided object quiet.readable).mp told ⟨sight, mem, hides⟩
  · intro seen result final ran complete root' names node opened' object
    cases opened.symm.trans opened'
    obtain ⟨-, after, folded, same⟩ := ends.run_post ran
    rw [same] at complete ⊢
    obtain ⟨-, quiet⟩ := silent_iff.mp ⟨after, folded, status_eq_complete_iff.mp complete⟩
    refine (shows quiet folded).mpr ((decided object quiet.readable).mpr ?_)
    rintro ⟨sight, mem, hides⟩
    exact seen quiet names node object sight mem hides

end

/-- A scan that says `Complete` can be taken at its word exactly when no object is out
of its sight without a report. -/
theorem complete_tells_all_iff (env : Env) (world : World) (named : world.fs.Named)
    (target : TargetDescriptor) (nextId : Nat) : TellsAll env world target nextId ↔
      ∀ root, world.fs.openRoot target.basePath = .ok root →
        Exposed env world.fs root world.tick := by
  constructor
  · intro tells root opened
    exact ⟨fun fault => (tellsAll_of_shut opened fault).mp tells,
      fun opens => (tellsAll_of_opened named opened opens).mp tells⟩
  · intro exposed
    cases opened : world.fs.openRoot target.basePath with
    | error errno =>
      intro result final _ _ root names node again
      cases opened.symm.trans again
    | ok root =>
      obtain ⟨shut, seen⟩ := exposed root opened
      by_cases opens : env.openFault (world.tick + 1) = none
      · exact (tellsAll_of_opened named opened opens).mpr (seen opens)
      · exact (tellsAll_of_shut opened opens).mpr (shut opens)

namespace Sample

def denied : Fault := ⟨.access, nofun⟩

/-- One request to open a directory fails. -/
def locked (request : Nat) : Env :=
  { env with openFault := fun tick => if tick = request then some denied else none }

end Sample

open Sample in
theorem empty_directory_tells_all : TellsAll (locked 7) (world .directory) target 1 := by
  refine (complete_tells_all_iff (locked 7) (world .directory) named target 1).mpr ?_
  intro root started
  cases opened.symm.trans started
  refine ⟨fun fault => absurd rfl fault, fun _ _ names node object sight mem hides => ?_⟩
  obtain ⟨s, g, f, l, seen⟩ : ∃ s g f l,
      tour (locked 7) (world .directory).fs ⟨1, 1⟩ (world .directory).tick =
        [.listed, .found s, .listed, .found g, .found f, .closed ["f"], .found l] :=
    ⟨_, _, _, _, rfl⟩
  rw [seen] at mem
  have beneath : ["f"] <+: names ∧ ["f"] ≠ names := by
    fin_cases mem <;> first | exact hides | exact hides.elim
  obtain ⟨⟨rest, rfl⟩, strict⟩ := beneath
  have other : "f" ≠ "s" := by decide
  cases object.leads with
  | last => exact strict rfl
  | step found _ deeper =>
    cases deeper with
    | last inside => exact other (nested_of_child found inside).1
    | step inside => exact other (nested_of_child found inside).1

open Sample in
/-- A directory that cannot be opened is listed, what is in it is not, and the scan
says `Complete`. -/
theorem locked_directory_complete : (tree .directory).Object ⟨1, 1⟩ ["s", "g"] ⟨1, 5⟩ ∧
      ((scanTargetWithResource target 1).run (locked 4).handler (world .directory)).1.map
          (fun result => (result.1.status, result.1.candidates.map (·.relPath.names))) =
        some (.complete, [["s"], ["f"], ["l"]]) := by
  have outer : (tree .directory).child ⟨1, 1⟩ "s" = some ⟨⟨1, 2⟩, false⟩ := by decide
  have nested : (tree .directory).child ⟨1, 2⟩ "g" = some ⟨⟨1, 5⟩, false⟩ := by decide
  refine ⟨⟨.step outer (by decide) (.last nested), rfl, _, rfl, by decide⟩, ?_⟩
  decide +kernel

end CandidateScanner

end CacheCleaner
