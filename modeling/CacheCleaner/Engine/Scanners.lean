import CacheCleaner.Engine.Parts
import CacheCleaner.Engine.Streaming

namespace CacheCleaner

namespace Fs

inductive Reaches (fs : Fs) (device : Nat) : FileIdentity → List String → DirEntry → Prop
  | here {directory name entry} : fs.child directory name = some entry →
      Reaches fs device directory [name] entry
  | beneath {directory name above names entry} : fs.child directory name = some above →
      fs.kind above.node = some .directory → above.node.dev = device →
      Reaches fs device above.node names entry → Reaches fs device directory (name :: names) entry

structure Holds (fs : Fs) (root : FileIdentity) (names : List String) (entry : DirEntry) :
    Prop where
  reaches : fs.Reaches root.dev root names entry
  depth : names.length ≤ 16

/-- What the scanners are ready for.  With `openat2` a directory cannot be
opened where a filesystem is mounted on it, even one of the same device.  Names are
accepted, so that every object has a path to be listed under. -/
structure Ordinary (fs : Fs) (openat2 : Bool) (root : FileIdentity) : Prop where
  opens : ∀ names entry, fs.Holds root names entry →
    fs.kind entry.node = some .directory → entry.node.dev = root.dev →
    openat2 = true → entry.mount = false
  accepted : ∀ names entry, fs.Holds root names entry →
    ∀ name ∈ names, (RelativePath.parse name).isSome = true
  sizes : ∀ names entry inode, fs.Holds root names entry →
    fs.inode entry.node = some inode → inode.size ≤ ByteCount.maxSafe
  few : ∀ paths : List (List String), paths.Nodup →
    (∀ names ∈ paths, ∃ entry, fs.Holds root names entry) → paths.length ≤ 49999

section

variable {fs : Fs} {openat2 : Bool} {directory : FileIdentity} {names : List String}

theorem Passes.reaches (named : fs.Named) (passes : fs.Passes openat2 directory names entry) :
    ∃ found inode, fs.Reaches directory.dev directory names found ∧
      fs.inode found.node = some inode ∧ inode.kind ≠ .special ∧
      entry = inode.shown entry.name found.node := by
  induction passes with
  | here listed =>
    obtain ⟨found, inode, there, present, ordinary, shown⟩ := mem_safeEntries_iff.mp listed
    exact ⟨found, inode, .here there, present, ordinary, shown⟩
  | through opened _ ih =>
    obtain ⟨above, there, rfl, isDir, same, -⟩ := (openChild_eq_ok_iff named).mp opened
    obtain ⟨found, inode, reaches, rest⟩ := ih
    rw [same] at reaches
    exact ⟨found, inode, .beneath there isDir same reaches, rest⟩

theorem Reaches.passes (named : fs.Named) {inode : Inode}
    (opens : ∀ names entry, fs.Reaches device directory names entry →
      names.length ≤ levels → fs.kind entry.node = some .directory →
      entry.node.dev = device → openat2 = true → entry.mount = false)
    (here : directory.dev = device) (short : names.length ≤ levels)
    (present : fs.inode found.node = some inode) (ordinary : inode.kind ≠ .special)
    (reaches : fs.Reaches device directory names found) :
    ∃ entry, fs.Passes openat2 directory names entry ∧
      entry = inode.shown entry.name found.node := by
  induction reaches generalizing levels with
  | @here directory name found there =>
    have listed : inode.shown name found.node ∈ fs.safeEntries (fun _ => false) directory :=
      mem_safeEntries_iff.mpr ⟨found, inode, there, present, ordinary, rfl⟩
    exact ⟨inode.shown name found.node, .here listed, rfl⟩
  | @beneath directory name above names found there isDir onward reaches ih =>
    obtain ⟨levels, rfl⟩ := Nat.exists_eq_succ_of_ne_zero
      (Nat.ne_of_gt (Nat.lt_of_lt_of_le (Nat.succ_pos _) short))
    have unmounted : (openat2 && above.mount) = false := by
      cases mode : openat2 with
      | false => rfl
      | true =>
        rw [Bool.true_and]
        apply opens [name] above (.here there) _ isDir onward mode
        exact Nat.succ_le_succ (Nat.zero_le _)
    have opened : fs.openChild openat2 directory name = .ok above.node :=
      (openChild_eq_ok_iff named).mpr ⟨above, there, rfl, isDir, onward.trans here.symm, unmounted⟩
    have deeper : ∀ names entry, fs.Reaches device above.node names entry →
        names.length ≤ levels → fs.kind entry.node = some .directory →
        entry.node.dev = device → openat2 = true → entry.mount = false := by
      intro names entry reaches short
      apply opens (name :: names) entry (.beneath there isDir onward reaches)
      exact Nat.succ_le_succ short
    obtain ⟨entry, passes, shown⟩ := ih deeper onward (Nat.le_of_succ_le_succ short) present
    exact ⟨entry, .through opened passes, shown⟩

end

end Fs

def Inode.candidate (inode : Inode) (target : TargetDescriptor) (path : RelativePath)
    (node : FileIdentity) : Candidate where
  candidateId := ⟨0⟩
  targetId := target.targetId
  relPath := path
  identity := node
  sizeBytes := if inode.kind = .directory then 0 else inode.size
  mtime := inode.mtime
  isDir := inode.kind == .directory
  isSymlink := inode.kind.isSymlink

theorem candidate_shown (inode : Inode) (target : TargetDescriptor) (path : RelativePath)
    (name : String) (node : FileIdentity) : Found.candidate target ⟨path, inode.shown name node⟩ =
      inode.candidate target path node := by
  cases kind : inode.kind <;>
    simp [Found.candidate, Found.size, Found.isDirectory, Inode.shown, Inode.candidate,
      kind, FileKind.isSymlink]

namespace CandidateScanner

open Effect Effect.Program Stream

/-- Exactly the files, directories and links held at depth 1 to 16, each once and
none before a directory that it is in. -/
structure Lists (fs : Fs) (root : FileIdentity) (target : TargetDescriptor)
    (listed : List Candidate) : Prop where
  exactly : ∀ candidate, candidate ∈ listed ↔ ∃ names entry inode path, fs.Holds root names entry ∧
      fs.inode entry.node = some inode ∧ inode.kind ≠ .special ∧
      RelativePath.empty.joins names = some path ∧
      candidate = inode.candidate target path entry.node
  once : (listed.map fun candidate => candidate.relPath.names).Nodup
  ordered : listed.Pairwise fun early late =>
    ¬ late.relPath.names <+: early.relPath.names

/-- How a streaming scan hands over a list: `chunks` are all there are, and any
`on_chunk` gets them in order up to its first answer other than yes. -/
structure Streamable (env : Env) (world : World) (target : TargetDescriptor)
    (chunkSize nextId : Nat) (listed : List Candidate) (chunks : List (List Candidate)) : Prop where
  whole : chunks.flatten.map Candidate.unnumbered = listed
  full : ∀ chunk ∈ chunks.dropLast, chunk.length = chunkSize
  bounded : ∀ chunk ∈ chunks, 0 < chunk.length ∧ chunk.length ≤ chunkSize
  delivered : ∀ onChunk : OnChunk, Returns env.handler (fun reply _ =>
      let calls := reply.2.feed.delivered
      ((∀ history, onChunk history = .ok true) → calls = chunks) ∧
        ∀ count, 0 < count → count ≤ calls.length →
          onChunk (calls.take count) = .ok false → calls = chunks.take count)
    (scanTargetStreaming target chunkSize onChunk nextId) world

section

variable {fs : Fs} {openat2 : Bool} {root : FileIdentity} {target : TargetDescriptor}
  (named : fs.Named)
include named

theorem holds_of_mem_reach (mem : found ∈ fs.reach openat2 maxDepth root RelativePath.empty) :
    ∃ entry inode, fs.Holds root found.path.names entry ∧
      fs.inode entry.node = some inode ∧ inode.kind ≠ .special ∧
      RelativePath.empty.joins found.path.names = some found.path ∧
      found.entry = inode.shown found.entry.name entry.node := by
  obtain ⟨names, passes, short, made⟩ := Fs.mem_reach_iff.mp mem
  have same : found.path.names = names := RelativePath.names_joins (passes.valid named) made
  obtain ⟨entry, inode, reaches, present, kind, shown⟩ := passes.reaches named
  rw [same]
  exact ⟨entry, inode, ⟨reaches, short⟩, present, kind, made, shown⟩

variable (ordinary : fs.Ordinary openat2 root)
include ordinary

theorem mem_reach_of_holds {inode : Inode} (holds : fs.Holds root names entry)
    (present : fs.inode entry.node = some inode) (kind : inode.kind ≠ .special)
    (made : RelativePath.empty.joins names = some path) :
    ∃ name, Found.mk path (inode.shown name entry.node) ∈
      fs.reach openat2 maxDepth root RelativePath.empty := by
  have opens : ∀ names entry, fs.Reaches root.dev root names entry → names.length ≤ 16 →
      fs.kind entry.node = some .directory → entry.node.dev = root.dev →
      openat2 = true → entry.mount = false := by
    intro names entry reaches depth
    exact ordinary.opens names entry ⟨reaches, depth⟩
  obtain ⟨shown, passes, same⟩ := holds.reaches.passes named opens rfl holds.depth present kind
  refine ⟨shown.name, ?_⟩
  rw [← same]
  exact Fs.mem_reach_iff.mpr ⟨names, passes, holds.depth, made⟩

omit ordinary in
theorem paths_nodup (openat2 : Bool) (root : FileIdentity) :
    ((fs.reach openat2 maxDepth root RelativePath.empty).map
      fun found => found.path.names).Nodup := by
  apply List.pairwise_map.mpr
  apply (Fs.reach_ordered named maxDepth root RelativePath.empty).imp
  intro early late apart same
  apply apart
  exact same ▸ List.prefix_rfl

theorem lists_reach : Lists fs root target
      ((fs.reach openat2 maxDepth root RelativePath.empty).map (Found.candidate target)) := by
  constructor
  · intro candidate
    constructor
    · intro mem
      obtain ⟨found, inside, rfl⟩ := List.mem_map.mp mem
      obtain ⟨entry, inode, holds, present, kind, made, shown⟩ := holds_of_mem_reach named inside
      refine ⟨_, entry, inode, found.path, holds, present, kind, made, ?_⟩
      rw [← candidate_shown inode target found.path found.entry.name, ← shown]
    · intro held
      obtain ⟨names, entry, inode, path, holds, present, kind, made, rfl⟩ := held
      obtain ⟨name, mem⟩ := mem_reach_of_holds named ordinary holds present kind made
      rw [← candidate_shown inode target path name]
      exact List.mem_map_of_mem mem
  · rw [List.map_map]
    exact paths_nodup named openat2 root
  · exact List.pairwise_map.mpr (Fs.reach_ordered named maxDepth root RelativePath.empty)

theorem fit_reach : Fit (fs.reach openat2 maxDepth root RelativePath.empty) := by
  intro found mem
  obtain ⟨entry, inode, holds, present, -, -, shown⟩ := holds_of_mem_reach named mem
  unfold Found.size
  split
  · exact Nat.zero_le _
  · rw [shown]
    exact ordinary.sizes _ entry inode holds present

theorem length_reach : (fs.reach openat2 maxDepth root RelativePath.empty).length ≤ 49999 := by
  have few := ordinary.few _ (paths_nodup named openat2 root)
  rw [List.length_map] at few
  apply few
  intro names mem
  obtain ⟨found, inside, rfl⟩ := List.mem_map.mp mem
  obtain ⟨entry, inode, holds, -⟩ := holds_of_mem_reach named inside
  exact ⟨entry, holds⟩

end

section

variable {env : Env} {world : World} {target : TargetDescriptor} {root : FileIdentity}

theorem streamable (clear : env.Clear) (opened : world.fs.openRoot target.basePath = .ok root)
    (fit : Fit (world.fs.reachTarget env.openat2 target))
    (positive : 1 ≤ chunkSize) (nextId : Nat) :
    ∃ chunks, Streamable env world target chunkSize nextId
      ((world.fs.reachTarget env.openat2 target).map (Found.candidate target)) chunks := by
  let items := number target nextId (world.fs.reachTarget env.openat2 target)
  have room : ([] : List Candidate).length < chunkSize := positive
  refine ⟨pieces chunkSize [] items, ?_, ?_, ?_, ?_⟩
  · rw [flatten_pieces]
    exact map_unnumbered_number target nextId
  · intro chunk mem
    exact length_of_mem_dropLast_pieces room mem
  · intro chunk mem
    exact length_pieces room mem
  · intro onChunk
    have returned : Returns env.handler
        (fun reply _ => (reply.1, reply.2.feed) = Feed.start.stream chunkSize onChunk items)
        (scanTargetStreaming target chunkSize onChunk nextId) world :=
      scanTargetStreaming_returns clear opened fit nextId
    obtain ⟨reply, final, ran, fed⟩ := returned
    have offered := stream_eq_offer chunkSize onChunk items .start
    rw [← fed] at offered
    obtain ⟨calls, whole, served⟩ := offer_served onChunk [] (pieces chunkSize [] items)
    have delivered : reply.2.feed.delivered = calls := (congrArg Prod.snd offered).trans whole
    subst delivered
    exact ⟨reply, final, ran, served.all, fun count positive bound =>
      served.refused positive bound⟩

/-- Both scanners give the files, directories and links at depth 1 to 16 that are
reached through real directories on the root's device, in one order: all at once
or in chunks, and up to the first refusal. -/
theorem scanners_agree (clear : env.Clear) (named : world.fs.Named)
    (opened : world.fs.openRoot target.basePath = .ok root)
    (ordinary : world.fs.Ordinary env.openat2 root) : ∃ listed, Lists world.fs root target listed ∧
      (∀ nextId, Returns env.handler
        (fun result _ => result.1.candidates.map Candidate.unnumbered = listed)
        (scanTargetWithResource target nextId) world) ∧ ∀ chunkSize nextId, 1 ≤ chunkSize →
        ∃ chunks, Streamable env world target chunkSize nextId listed chunks := by
  have walk : world.fs.reachTarget env.openat2 target =
      world.fs.reach env.openat2 maxDepth root RelativePath.empty := by
    simp only [Fs.reachTarget, opened]
  have fit : Fit (world.fs.reachTarget env.openat2 target) := by
    rw [walk]
    exact fit_reach named ordinary
  have room : (world.fs.reachTarget env.openat2 target).length ≤ maxCandidatesPerTarget := by
    rw [walk]
    exact (length_reach named ordinary).trans (by decide)
  refine ⟨(world.fs.reachTarget env.openat2 target).map (Found.candidate target), ?_, ?_, ?_⟩
  · rw [walk]
    exact lists_reach named ordinary
  · intro nextId
    have ends := scanTargetWithResource_glimpses env target world nextId
    rw [glimpsed_clear clear, List.take_of_length_le room] at ends
    obtain ⟨result, final, ran, -, -, listed⟩ := ends.returns (not_not_intro fit)
    exact ⟨result, final, ran, listed⟩
  · intro chunkSize nextId positive
    exact streamable clear opened fit positive nextId

end

namespace Sample

def tree (kind : FileKind) : Fs where
  root := ⟨1, 1⟩
  cwd := ⟨1, 1⟩
  inode := fun id =>
    if id = ⟨1, 1⟩ then
      some ⟨.directory, 0, 0, ⟨1, 1⟩, ⟨[("s", ⟨⟨1, 2⟩, false⟩), ("f", ⟨⟨1, 3⟩, false⟩),
        ("l", ⟨⟨1, 4⟩, false⟩)], by decide⟩⟩
    else if id = ⟨1, 2⟩ then some (.folder ⟨1, 1⟩ "g" ⟨1, 5⟩)
    else if id = ⟨1, 3⟩ then some ⟨kind, 5, 0, ⟨1, 1⟩, .empty⟩
    else if id = ⟨1, 4⟩ then some ⟨.symlink "s", 1, 0, ⟨1, 1⟩, .empty⟩
    else if id = ⟨1, 5⟩ then some (.file ⟨1, 2⟩ 7 0)
    else none

def target : TargetDescriptor := ⟨⟨"t"⟩, .appCache, "/", 1, 1, 0, 0, none, .standardCache, ⟨2⟩⟩

def env : Env :=
  .calm 1000 ⟨[], fun _ => .unknown, fun _ => none, fun _ => none, fun _ => none⟩ Env.thousand_le

def world (kind : FileKind) : World := ⟨0, tree kind, Store.empty, []⟩

theorem env_clear : env.Clear := ⟨⟨fun _ => rfl, fun _ => rfl, fun _ => rfl⟩, fun _ _ => rfl⟩

variable {kind : FileKind}

theorem opened : (tree kind).openRoot target.basePath = .ok ⟨1, 1⟩ := by
  have parts : components "/" = [.rootDir] := by decide
  have filled : "/" ≠ "" := by decide
  rw [target, Fs.openRoot, if_neg filled, parts]
  rfl

def entries : List (FileIdentity × String × DirEntry) :=
  [(⟨1, 1⟩, "s", ⟨⟨1, 2⟩, false⟩), (⟨1, 1⟩, "f", ⟨⟨1, 3⟩, false⟩),
    (⟨1, 1⟩, "l", ⟨⟨1, 4⟩, false⟩), (⟨1, 2⟩, "g", ⟨⟨1, 5⟩, false⟩)]

theorem mem_entries {id : FileIdentity} (read : (tree kind).inode id = some inode)
    (mem : (name, entry) ∈ inode.listing.entries) : (id, name, entry) ∈ entries := by
  simp only [tree] at read
  split at read
  · rename_i same
    cases read
    rw [same]
    fin_cases mem <;> decide
  · split at read
    · rename_i same
      cases read
      rw [same]
      fin_cases mem
      decide
    · repeat' split at read
      all_goals cases read <;> cases mem

theorem named : (tree kind).Named := by
  intro id inode read listed mem
  have valid : ∀ listed ∈ entries, Fs.validateSingleComponent listed.2.1 = true := by decide
  exact valid _ (mem_entries read mem)

theorem child_mem {id : FileIdentity} (found : (tree kind).child id name = some entry) :
    (id, name, entry) ∈ entries := by
  obtain ⟨inode, read, mem⟩ := Fs.child_mem found
  exact mem_entries read mem

def paths : List (List String × DirEntry) :=
  [(["s"], ⟨⟨1, 2⟩, false⟩), (["f"], ⟨⟨1, 3⟩, false⟩), (["l"], ⟨⟨1, 4⟩, false⟩),
    (["s", "g"], ⟨⟨1, 5⟩, false⟩)]

/-- Only the directory `s` has anything in it. -/
theorem nested_of_child {above : DirEntry} (found : (tree kind).child ⟨1, 1⟩ name = some above)
    (deeper : (tree kind).child above.node leaf = some entry) :
    name = "s" ∧ above = ⟨⟨1, 2⟩, false⟩ ∧ leaf = "g" ∧ entry = ⟨⟨1, 5⟩, false⟩ := by
  have first := child_mem found
  have second := child_mem deeper
  simp only [entries, List.mem_cons, Prod.mk.injEq, List.not_mem_nil, or_false] at first second
  aesop

theorem mem_paths {names : List String} (holds : (tree kind).Holds ⟨1, 1⟩ names entry) :
    (names, entry) ∈ paths := by
  cases holds.reaches with
  | @here _ name _ found =>
    have top : ∀ name entry, (⟨1, 1⟩, name, entry) ∈ entries → ([name], entry) ∈ paths := by
      simp [entries, paths]
    exact top name entry (child_mem found)
  | beneath found _ _ deeper =>
    cases deeper with
    | here inner =>
      obtain ⟨rfl, rfl, rfl, rfl⟩ := nested_of_child found inner
      decide
    | beneath inner isDir =>
      obtain ⟨-, -, -, rfl⟩ := nested_of_child found inner
      cases isDir

theorem small {id : FileIdentity} (read : (tree kind).inode id = some inode) :
    inode.size ≤ ByteCount.maxSafe := by
  simp only [tree] at read
  repeat' split at read
  all_goals cases read <;> exact of_decide_eq_true rfl

theorem ordinary (kind : FileKind) : (tree kind).Ordinary true ⟨1, 1⟩ where
  opens := by
    intro names entry holds _ _ _
    have unmounted : ∀ path ∈ paths, path.2.mount = false := by decide
    exact unmounted _ (mem_paths holds)
  accepted := by
    intro names entry holds
    have parsed : ∀ path ∈ paths, ∀ name ∈ path.1, (RelativePath.parse name).isSome = true := by
      decide
    exact parsed _ (mem_paths holds)
  sizes := by
    intro names entry inode _ present
    exact small present
  few := by
    intro found nodup held
    have within : found ⊆ paths.map Prod.fst := by
      intro names mem
      obtain ⟨entry, holds⟩ := held names mem
      exact List.mem_map_of_mem (mem_paths holds)
    exact (List.subperm_of_subset nodup within).length_le.trans (by decide)

end Sample

open Sample in
theorem tree_scanners_agree : ∃ listed, Lists (world .regular).fs ⟨1, 1⟩ target listed ∧
      (∀ nextId, Returns env.handler
        (fun result _ => result.1.candidates.map Candidate.unnumbered = listed)
        (scanTargetWithResource target nextId) (world .regular)) ∧
      ∀ chunkSize nextId, 1 ≤ chunkSize →
        ∃ chunks, Streamable env (world .regular) target chunkSize nextId listed chunks :=
  scanners_agree env_clear named opened (ordinary .regular)

open Sample in
/-- A pipe is an entry like any other, and `read_entries_fd` leaves it out. -/
theorem pipe_not_listed : env.Clear ∧ (tree .special).Named ∧
      (tree .special).openRoot target.basePath = .ok ⟨1, 1⟩ ∧
      (tree .special).Ordinary env.openat2 ⟨1, 1⟩ ∧
      (tree .special).Holds ⟨1, 1⟩ ["f"] ⟨⟨1, 3⟩, false⟩ ∧
      ((scanTargetWithResource target 1).run env.handler (world .special)).1.map
          (fun result => (result.1.status, result.1.candidates.map (·.relPath.names))) =
        some (.complete, [["s"], ["s", "g"], ["l"]]) := by
  have held : (tree .special).Holds ⟨1, 1⟩ ["f"] ⟨⟨1, 3⟩, false⟩ := ⟨.here (by decide), by decide⟩
  refine ⟨env_clear, named, opened, ordinary .special, held, ?_⟩
  decide +kernel

end CandidateScanner

end CacheCleaner
