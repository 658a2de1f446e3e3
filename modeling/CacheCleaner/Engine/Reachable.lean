import CacheCleaner.Engine.Draft
import CacheCleaner.Engine.Walk

namespace CacheCleaner

def FileKind.isSymlink : FileKind → Bool
  | .symlink _ => true
  | _ => false

def Inode.shown (inode : Inode) (name : String) (node : FileIdentity) : SafeDirEntry where
  name := name
  isDir := inode.kind == .directory
  isSymlink := inode.kind.isSymlink
  identity := node
  sizeBytes := inode.size
  mtimeSecs := inode.mtime

def RelativePath.joins (path : RelativePath) (names : List String) : Option RelativePath :=
  names.foldlM RelativePath.join path

theorem RelativePath.names_joins {path joined : RelativePath} {names : List String}
    (valid : ∀ name ∈ names, Fs.validateSingleComponent name = true)
    (made : path.joins names = some joined) : joined.names = path.names ++ names := by
  induction names generalizing path with
  | nil =>
    cases made
    simp
  | cons name rest ih =>
    obtain ⟨next, first, others⟩ := Option.bind_eq_some_iff.mp made
    have single := singleName_of_valid (valid name (List.mem_cons_self ..))
    have later := ih (fun other mem => valid other (List.mem_cons_of_mem _ mem)) others
    rw [later, join_names single first]
    simp

theorem RelativePath.joins_isSome {path : RelativePath} {names : List String} :
    (path.joins names).isSome = true ↔ ∀ name ∈ names, (parse name).isSome = true := by
  induction names generalizing path with
  | nil => simp [joins]
  | cons name rest ih =>
    unfold joins join at *
    cases parsed : parse name with
    | none => simp [List.foldlM_cons, parsed]
    | some sub => simp [List.foldlM_cons, parsed, ih]

namespace Fs

def Named (fs : Fs) : Prop :=
  ∀ id inode, fs.inode id = some inode →
    ∀ listed ∈ inode.listing.entries, validateSingleComponent listed.1 = true

structure Describes (fs : Fs) (entry : SafeDirEntry) : Prop where
  name : validateSingleComponent entry.name = true
  metadata : fs.metadata entry.identity =
    some ⟨entry.identity, entry.sizeBytes, entry.isDir, entry.isSymlink⟩
  single : (entry.isDir && entry.isSymlink) = false

inductive Passes (fs : Fs) (openat2 : Bool) : FileIdentity → List String → SafeDirEntry → Prop
  | here {directory entry} : entry ∈ fs.safeEntries (fun _ => false) directory →
      Passes fs openat2 directory [entry.name] entry
  | through {directory child name names entry} : fs.openChild openat2 directory name = .ok child →
      Passes fs openat2 child names entry → Passes fs openat2 directory (name :: names) entry

section

variable {fs : Fs} {openat2 : Bool} {directory : FileIdentity}

variable {entry : SafeDirEntry} {relPrefix : RelativePath} {name : String} {found : Found}

theorem Passes.ne_nil (passes : fs.Passes openat2 directory names entry) : names ≠ [] := by
  cases passes <;> exact List.cons_ne_nil _ _

theorem lookup_of_mem {listing : Directory} {entry : DirEntry}
    (mem : (name, entry) ∈ listing.entries) : listing.lookup name = some entry := by
  obtain ⟨entries, distinct⟩ := listing
  unfold Directory.lookup
  dsimp only at mem ⊢
  induction entries with
  | nil => cases mem
  | cons head rest ih =>
    obtain ⟨label, value⟩ := head
    rw [List.map_cons, List.nodup_cons] at distinct
    rw [List.lookup_cons]
    rcases List.mem_cons.mp mem with same | later
    · cases same
      simp
    · have other : (name == label) = false := by
        refine beq_false_of_ne fun same => distinct.1 ?_
        rw [← same]
        exact List.mem_map.mpr ⟨_, later, rfl⟩
      rw [other]
      exact ih distinct.2 later

theorem child_mem {entry : DirEntry} (found : fs.child directory name = some entry) :
    ∃ inode, fs.inode directory = some inode ∧ (name, entry) ∈ inode.listing.entries := by
  obtain ⟨inode, read, looked⟩ := Option.bind_eq_some_iff.mp found
  obtain ⟨before, after, whole, -⟩ := List.lookup_eq_some_iff.mp looked
  refine ⟨inode, read, ?_⟩
  rw [whole]
  simp

theorem valid_of_child (named : fs.Named) {entry : DirEntry}
    (found : fs.child directory name = some entry) : validateSingleComponent name = true := by
  obtain ⟨inode, read, mem⟩ := child_mem found
  exact named directory inode read _ mem

theorem openChild_eq_ok_iff (named : fs.Named) {child : FileIdentity} :
    fs.openChild openat2 directory name = .ok child ↔
      ∃ entry, fs.child directory name = some entry ∧ entry.node = child ∧
        fs.kind child = some .directory ∧ child.dev = directory.dev ∧
        (openat2 && entry.mount) = false := by
  unfold openChild
  constructor
  · intro opened
    split at opened
    · split at opened
      · cases opened
      · rename_i entry found
        split at opened
        · cases opened
        · rename_i unmounted
          split at opened
          · rename_i isDir
            split at opened
            · rename_i same
              cases opened
              exact ⟨entry, found, rfl, isDir, same, Bool.eq_false_iff.mpr unmounted⟩
            · cases opened
          · cases opened
          · cases opened
    · cases opened
  · intro opens
    obtain ⟨entry, found, rfl, isDir, same, unmounted⟩ := opens
    simp only [valid_of_child named found, found, unmounted, isDir, same, if_true,
      Bool.false_eq_true, if_false]

theorem mem_safeEntries_iff : entry ∈ fs.safeEntries (fun _ => false) directory ↔
      ∃ child inode, fs.child directory entry.name = some child ∧
        fs.inode child.node = some inode ∧ inode.kind ≠ .special ∧
        entry = inode.shown entry.name child.node := by
  constructor
  · intro mem
    unfold safeEntries at mem
    cases read : fs.inode directory with
    | none =>
      rw [read] at mem
      cases mem
    | some inode =>
      rw [read] at mem
      obtain ⟨⟨name, child⟩, inside, shown⟩ := List.mem_filterMap.mp mem
      have there : fs.child directory name = some child := by
        rw [Fs.child, read]
        exact lookup_of_mem inside
      obtain ⟨node, present, shown⟩ := Option.bind_eq_some_iff.mp shown
      have told : node.kind ≠ .special ∧ entry = node.shown name child.node := by
        unfold Inode.shown
        split at shown <;> rename_i kind <;> cases shown <;> simp [kind, FileKind.isSymlink]
      obtain ⟨ordinary, rfl⟩ := told
      exact ⟨child, node, there, present, ordinary, rfl⟩
  · intro shown
    obtain ⟨child, node, there, present, ordinary, told⟩ := shown
    obtain ⟨inode, read, inside⟩ := child_mem there
    unfold safeEntries
    rw [read]
    apply List.mem_filterMap.mpr
    refine ⟨_, inside, ?_⟩
    simp only [Bool.false_eq_true, if_false, present, Option.bind_some]
    rw [told]
    unfold Inode.shown
    cases kind : node.kind with
    | special => exact absurd kind ordinary
    | regular => rfl
    | directory => rfl
    | symlink text => rfl

theorem openChild_listed {child : FileIdentity}
    (opened : fs.openChild openat2 directory name = .ok child) :
    ∃ entry ∈ fs.safeEntries (fun _ => false) directory,
      entry.name = name ∧ entry.isDir = true ∧ entry.isSymlink = false := by
  obtain ⟨found, there, rfl, isDir⟩ := openChild_ok opened
  obtain ⟨inode, present, kind⟩ := Option.map_eq_some_iff.mp isDir
  refine ⟨inode.shown name found.node, ?_, rfl, ?_, ?_⟩
  · apply mem_safeEntries_iff.mpr
    refine ⟨found, inode, there, present, ?_, rfl⟩
    rw [kind]
    exact FileKind.noConfusion
  · simp [Inode.shown, kind]
  · simp [Inode.shown, kind, FileKind.isSymlink]

theorem Passes.valid (named : fs.Named) {names : List String}
    (passes : fs.Passes openat2 directory names entry) :
    ∀ name ∈ names, validateSingleComponent name = true := by
  induction passes with
  | here listed =>
    obtain ⟨child, inode, there, -⟩ := mem_safeEntries_iff.mp listed
    intro name mem
    rw [List.mem_singleton.mp mem]
    exact valid_of_child named there
  | through opened _ ih =>
    obtain ⟨found, there, -⟩ := openChild_ok opened
    exact List.forall_mem_cons.mpr ⟨valid_of_child named there, ih⟩

theorem describes_of_mem (named : fs.Named)
    (listed : entry ∈ fs.safeEntries (fun _ => false) directory) : fs.Describes entry := by
  obtain ⟨child, inode, there, present, ordinary, told⟩ := mem_safeEntries_iff.mp listed
  have name := valid_of_child named there
  rw [told] at name ⊢
  refine ⟨name, ?_, ?_⟩
  · simp only [metadata, Inode.shown, present, Option.map_some]
    cases inode.kind <;> rfl
  · simp only [Inode.shown]
    cases inode.kind <;> rfl

theorem Passes.leads (passes : fs.Passes openat2 directory names entry) :
    fs.Leads directory names entry.identity := by
  induction passes with
  | here listed =>
    obtain ⟨child, inode, there, -, -, told⟩ := mem_safeEntries_iff.mp listed
    rw [told]
    exact .last there
  | through opened _ ih =>
    obtain ⟨found, there, rfl, isDir⟩ := openChild_ok opened
    exact .step there isDir ih

theorem Passes.listed (passes : fs.Passes openat2 directory names entry) :
    names.getLast? = some entry.name ∧
      ∃ parent, entry ∈ fs.safeEntries (fun _ => false) parent := by
  induction passes with
  | here listed => exact ⟨rfl, _, listed⟩
  | through _ passes ih =>
    rw [List.getLast?_cons_of_ne_nil passes.ne_nil]
    exact ih

theorem mem_reach_iff {levels : Nat} : found ∈ fs.reach openat2 levels directory relPrefix ↔
      ∃ names, fs.Passes openat2 directory names found.entry ∧
        names.length ≤ levels ∧ relPrefix.joins names = some found.path := by
  induction levels generalizing directory relPrefix with
  | zero =>
    constructor
    · intro mem
      cases mem
    · intro walked
      obtain ⟨names, passes, short, -⟩ := walked
      exact absurd (List.length_eq_zero_iff.mp (Nat.le_zero.mp short)) passes.ne_nil
  | succ levels ih =>
    constructor
    · intro mem
      obtain ⟨entry, listed, inside⟩ := List.mem_flatMap.mp mem
      unfold reachEntry at inside
      cases joined : relPrefix.join entry.name with
      | none =>
        rw [joined] at inside
        cases inside
      | some path =>
        rw [joined] at inside
        rcases List.mem_cons.mp inside with rfl | below
        · refine ⟨[entry.name], .here listed, Nat.succ_le_succ (Nat.zero_le _), ?_⟩
          simp [RelativePath.joins, joined]
        · split at below
          · split at below
            · cases below
            · rename_i child opened
              obtain ⟨names, passes, short, made⟩ := ih.mp below
              refine ⟨entry.name :: names, .through opened passes, Nat.succ_le_succ short, ?_⟩
              rw [RelativePath.joins, List.foldlM_cons, joined]
              exact made
          · cases below
    · intro walked
      obtain ⟨names, passes, short, made⟩ := walked
      apply List.mem_flatMap.mpr
      obtain ⟨path, entry⟩ := found
      cases passes with
      | here listed =>
        refine ⟨entry, listed, ?_⟩
        have joined : relPrefix.join entry.name = some path := by
          simpa [RelativePath.joins] using made
        rw [reachEntry, joined]
        exact List.mem_cons_self ..
      | @through _ child name names _ opened passes =>
        obtain ⟨next, joined, others⟩ := Option.bind_eq_some_iff.mp made
        obtain ⟨above, listed, rfl, isDir, real⟩ := openChild_listed opened
        refine ⟨above, listed, ?_⟩
        rw [reachEntry, joined]
        apply List.mem_cons_of_mem
        rw [isDir, real, opened]
        exact ih.mpr ⟨names, passes, Nat.le_of_succ_le_succ short, others⟩

/-- Where a found object is: its path leads to it, its own name last. -/
structure Beneath (fs : Fs) (root : FileIdentity) (found : Found) : Prop where
  leads : fs.Leads root found.path.names found.entry.identity
  last : found.path.names.getLast? = some found.entry.name
  parsed : (RelativePath.parse found.entry.name).isSome = true
  describes : fs.Describes found.entry

theorem mem_reachTarget (named : fs.Named) (mem : found ∈ fs.reachTarget openat2 target) :
    ∃ root, fs.openRoot target.basePath = .ok root ∧ fs.Beneath root found := by
  unfold reachTarget at mem
  split at mem
  · cases mem
  · rename_i root opened
    obtain ⟨names, passes, -, made⟩ := mem_reach_iff.mp mem
    obtain ⟨last, parent, listed⟩ := passes.listed
    have path : found.path.names = names := RelativePath.names_joins (passes.valid named) made
    refine ⟨root, opened, ?_, ?_, ?_, describes_of_mem named listed⟩
    · rw [path]
      exact passes.leads
    · rw [path, last]
    · exact RelativePath.joins_isSome.mp (by rw [made]; rfl) _ (List.mem_of_getLast? last)

theorem safeEntries_distinct (fs : Fs) (directory : FileIdentity) :
    (fs.safeEntries (fun _ => false) directory).Pairwise
      fun early late => early.name ≠ late.name := by
  unfold safeEntries
  cases fs.inode directory with
  | none => exact .nil
  | some inode =>
    have distinct := List.pairwise_map.mp inode.listing.distinct
    apply distinct.filterMap
    intro early late other shown first shown' second
    obtain ⟨node, -, told⟩ := Option.bind_eq_some_iff.mp first
    obtain ⟨node', -, told'⟩ := Option.bind_eq_some_iff.mp second
    split at told <;> cases told <;> split at told' <;> cases told' <;> exact other

theorem names_of_join (named : fs.Named) {relPrefix path : RelativePath}
    (listed : entry ∈ fs.safeEntries (fun _ => false) directory)
    (joined : relPrefix.join entry.name = some path) :
    path.names = relPrefix.names ++ [entry.name] := by
  obtain ⟨child, inode, there, -⟩ := mem_safeEntries_iff.mp listed
  apply RelativePath.join_names _ joined
  exact RelativePath.singleName_of_valid (valid_of_child named there)

theorem names_of_mem_reach (named : fs.Named) {levels : Nat}
    (mem : found ∈ fs.reach openat2 levels directory relPrefix) :
    ∃ name more, found.path.names = relPrefix.names ++ name :: more := by
  obtain ⟨names, passes, -, made⟩ := mem_reach_iff.mp mem
  have whole := RelativePath.names_joins (passes.valid named) made
  obtain ⟨name, more, rfl⟩ := List.exists_cons_of_ne_nil passes.ne_nil
  exact ⟨name, more, whole⟩

theorem names_of_mem_reachEntry (named : fs.Named)
    (listed : entry ∈ fs.safeEntries (fun _ => false) directory) (mem : found ∈
      fs.reachEntry openat2 (fs.reach openat2 levels) directory relPrefix entry) :
    ∃ more, found.path.names = relPrefix.names ++ entry.name :: more := by
  unfold reachEntry at mem
  cases joined : relPrefix.join entry.name with
  | none =>
    rw [joined] at mem
    cases mem
  | some path =>
    have names := names_of_join named listed joined
    rw [joined] at mem
    rcases List.mem_cons.mp mem with rfl | below
    · exact ⟨[], names⟩
    · split at below
      · split at below
        · cases below
        · obtain ⟨name, more, deeper⟩ := names_of_mem_reach named below
          refine ⟨name :: more, ?_⟩
          rw [deeper, names]
          simp
      · cases below

theorem reach_ordered (named : fs.Named) (levels : Nat) (directory : FileIdentity)
    (relPrefix : RelativePath) : (fs.reach openat2 levels directory relPrefix).Pairwise
      fun early late => ¬ late.path.names <+: early.path.names := by
  induction levels generalizing directory relPrefix with
  | zero => exact .nil
  | succ levels ih =>
    apply List.pairwise_flatMap.mpr
    constructor
    · intro entry listed
      unfold reachEntry
      cases joined : relPrefix.join entry.name with
      | none => exact .nil
      | some path =>
        apply List.pairwise_cons.mpr
        constructor
        · intro found below
          split at below
          · split at below
            · cases below
            · obtain ⟨name, more, deeper⟩ := names_of_mem_reach named below
              intro above
              have longer : found.path.names.length ≤ path.names.length := above.length_le
              rw [deeper, List.length_append, List.length_cons] at longer
              omega
          · cases below
        · split
          · split
            · exact .nil
            · exact ih _ _
          · exact .nil
    · apply (safeEntries_distinct fs directory).imp_of_mem
      intro early late listed listed' other found inside found' inside' above
      obtain ⟨more, path⟩ := names_of_mem_reachEntry named listed inside
      obtain ⟨more', path'⟩ := names_of_mem_reachEntry named listed' inside'
      rw [path, path', List.prefix_append_right_inj, List.cons_prefix_cons] at above
      exact other above.1.symm

end

end Fs

end CacheCleaner
