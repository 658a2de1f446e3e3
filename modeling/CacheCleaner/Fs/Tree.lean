import CacheCleaner.Domain.Path

namespace CacheCleaner

/-! The filesystem as a table of inodes.  Directories map names to objects, so
hard links, bind mounts and symbolic links are all representable, and an object
of the tree is a directory entry: a directory and a name in it. -/

inductive FileKind where
  | regular
  | directory
  | symlink (target : String)
  | special
  deriving DecidableEq, Repr

/-- What a name leads to: with a filesystem mounted on the name, the root of
that filesystem. -/
structure DirEntry where
  node : FileIdentity
  mount : Bool
  deriving DecidableEq, Repr

structure Directory where
  entries : List (String × DirEntry)
  distinct : (entries.map Prod.fst).Nodup

namespace Directory

def empty : Directory := ⟨[], List.nodup_nil⟩

section

variable (directory : Directory)

def lookup (name : String) : Option DirEntry :=
  directory.entries.lookup name

def isEmpty : Bool := directory.entries.isEmpty

def remove (name : String) : Directory where
  entries := directory.entries.filter fun entry => entry.1 ≠ name
  distinct := directory.distinct.sublist (List.filter_sublist.map _)

private theorem lookup_filter_ne (entries : List (String × DirEntry)) (name other : String) :
    (entries.filter fun entry => entry.1 ≠ name).lookup other =
      if other = name then none else entries.lookup other := by
  induction entries with
  | nil => simp
  | cons entry rest ih =>
    obtain ⟨label, value⟩ := entry
    by_cases same : label = name
    · subst same
      rw [List.filter_cons_of_neg (by simp), ih, List.lookup_cons]
      by_cases equal : other = label
      · simp [equal]
      · simp [equal, beq_false_of_ne equal]
    · rw [List.filter_cons_of_pos (by simpa using same), List.lookup_cons, List.lookup_cons, ih]
      by_cases equal : other = label
      · simp [equal, same]
      · simp [beq_false_of_ne equal]

@[simp] theorem lookup_remove (name other : String) :
    (directory.remove name).lookup other = if other = name then none else directory.lookup other :=
  lookup_filter_ne directory.entries name other

end

theorem lookup_of_isEmpty {directory : Directory} (empty : directory.isEmpty = true)
    (name : String) : directory.lookup name = none := by
  unfold isEmpty at empty
  unfold lookup
  rw [List.isEmpty_iff.mp empty]
  rfl

theorem isEmpty_remove {directory : Directory} (empty : directory.isEmpty = true)
    (name : String) : (directory.remove name).isEmpty = true := by
  unfold isEmpty at empty ⊢
  simp [remove, List.isEmpty_iff.mp empty]

end Directory

structure Inode where
  kind : FileKind
  size : Nat
  mtime : Nat
  parent : FileIdentity
  listing : Directory

namespace Inode

def file (parent : FileIdentity) (size mtime : Nat) : Inode :=
  ⟨.regular, size, mtime, parent, .empty⟩

def folder (parent : FileIdentity) (name : String) (node : FileIdentity) : Inode :=
  ⟨.directory, 0, 0, parent, [(name, ⟨node, false⟩)], List.nodup_singleton _⟩

end Inode

def Inode.header (inode : Inode) : FileKind × Nat × Nat × FileIdentity :=
  (inode.kind, inode.size, inode.mtime, inode.parent)

structure Fs where
  root : FileIdentity
  cwd : FileIdentity
  inode : FileIdentity → Option Inode

namespace Fs

def kind (fs : Fs) (id : FileIdentity) : Option FileKind := (fs.inode id).map Inode.kind

def child (fs : Fs) (directory : FileIdentity) (name : String) : Option DirEntry :=
  (fs.inode directory).bind fun inode => inode.listing.lookup name

def isEmptyDir (fs : Fs) (id : FileIdentity) : Bool :=
  match fs.inode id with
  | none => true
  | some inode => inode.listing.isEmpty

def remove (fs : Fs) (directory : FileIdentity) (name : String) : Fs :=
  { fs with
    inode := fun id =>
      if id = directory then
        (fs.inode id).map fun inode =>
          { inode with listing := inode.listing.remove name }
      else fs.inode id }

theorem parent_of_header {found other : Option Inode} {inode : Inode}
    (same : found.map Inode.header = other.map Inode.header) (here : found = some inode) :
    ∃ inode', other = some inode' ∧ inode'.parent = inode.parent := by
  rw [here] at same
  obtain ⟨inode', there, same⟩ := Option.map_eq_some_iff.mp same.symm
  simp only [Inode.header, Prod.mk.injEq] at same
  exact ⟨inode', there, same.2.2.2⟩

@[simp] theorem header_remove (fs : Fs) (directory id : FileIdentity) (name : String) :
    ((fs.remove directory name).inode id).map Inode.header = (fs.inode id).map Inode.header := by
  unfold remove
  by_cases same : id = directory
  · simp only [same, if_true, Option.map_map]
    rfl
  · simp [same]

@[simp] theorem child_remove (fs : Fs) (directory other : FileIdentity) (name label : String) :
    (fs.remove directory name).child other label = if other = directory ∧ label = name then none
      else fs.child other label := by
  unfold remove child
  by_cases same : other = directory
  · subst same
    cases found : fs.inode other with
    | none => simp [found]
    | some inode => by_cases equal : label = name <;> simp [found, equal]
  · simp [same]

theorem isEmptyDir_remove {fs : Fs} {id : FileIdentity}
    (empty : fs.isEmptyDir id = true) (directory : FileIdentity)
    (name : String) : (fs.remove directory name).isEmptyDir id = true := by
  unfold isEmptyDir remove at *
  by_cases same : id = directory
  · subst same
    cases inode : fs.inode id with
    | none => simp [inode]
    | some inode' =>
      simp only [inode] at empty
      simpa [inode] using Directory.isEmpty_remove empty name
  · simpa [same] using empty

theorem child_of_isEmptyDir {fs : Fs} {id : FileIdentity}
    (empty : fs.isEmptyDir id = true) (name : String) : fs.child id name = none := by
  unfold isEmptyDir at empty
  unfold child
  cases inode : fs.inode id with
  | none => rfl
  | some inode' =>
    simp only [inode] at empty
    exact Directory.lookup_of_isEmpty empty name

/-! Path resolution as `open` does it: symbolic links are followed on the way,
at most 40 of them, and never at the last component (`O_NOFOLLOW`). -/

/-- Walk the components from a directory; `follow` continues the walk behind a
symbolic link. -/
def walkWith (fs : Fs) (follow : FileIdentity → List Component → Except Errno FileIdentity) :
    FileIdentity → List Component → Except Errno FileIdentity
  | directory, [] => .ok directory
  | _, .rootDir :: rest => walkWith fs follow fs.root rest
  | directory, .curDir :: rest => walkWith fs follow directory rest
  | directory, .parentDir :: rest =>
    match fs.inode directory with
    | none => .error .stale
    | some inode => walkWith fs follow inode.parent rest
  | directory, .normal name :: rest =>
    match fs.child directory name with
    | none => .error .noent
    | some entry =>
      match fs.kind entry.node with
      | some .directory => walkWith fs follow entry.node rest
      | some (.symlink target) =>
        if rest = [] then .error .notDir
        else follow directory (components target ++ rest)
      | _ => .error .notDir

def walk (fs : Fs) : Nat → FileIdentity → List Component → Except Errno FileIdentity
  | 0 => walkWith fs fun _ _ => .error .loop
  | links + 1 => walkWith fs (walk fs links)

/-- The directory `open(path, O_DIRECTORY | O_NOFOLLOW)` opens. -/
def openRoot (fs : Fs) (path : String) : Except Errno FileIdentity :=
  if path = "" then .error .noent else walk fs 40 fs.cwd (components path)

/-- A walk that arrives, with the links it follows. -/
inductive Walks (fs : Fs) (final : FileIdentity) :
    Nat → FileIdentity → List Component → List (FileIdentity × String) → Prop
  | arrived : Walks fs final links final [] []
  | root : Walks fs final links fs.root path crossed →
      Walks fs final links directory (.rootDir :: path) crossed
  | stay : Walks fs final links directory path crossed →
      Walks fs final links directory (.curDir :: path) crossed
  | up : fs.inode directory = some record → Walks fs final links record.parent path crossed →
      Walks fs final links directory (.parentDir :: path) crossed
  | enter : fs.child directory name = some entry → fs.kind entry.node = some .directory →
      Walks fs final links entry.node path crossed →
      Walks fs final links directory (.normal name :: path) crossed
  | follow : fs.child directory name = some entry →
      fs.kind entry.node = some (.symlink target) → path ≠ [] →
      Walks fs final links directory (components target ++ path) crossed →
      Walks fs final (links + 1) directory (.normal name :: path) ((directory, name) :: crossed)

section

variable {fs : Fs} {directory final : FileIdentity}

theorem exists_walks_of_walkWith
    (follows : ∀ {directory path}, follow directory path = .ok final →
      ∃ fewer crossed, links = fewer + 1 ∧ fs.Walks final fewer directory path crossed)
    (walked : fs.walkWith follow directory path = .ok final) :
    ∃ crossed, fs.Walks final links directory path crossed := by
  induction path generalizing directory with
  | nil =>
    cases walked
    exact ⟨[], .arrived⟩
  | cons component rest ih =>
    cases component with
    | rootDir => exact (ih walked).imp fun _ => .root
    | curDir => exact (ih walked).imp fun _ => .stay
    | parentDir =>
      rw [walkWith] at walked
      split at walked
      · cases walked
      · rename_i found
        exact (ih walked).imp fun _ => .up found
    | normal name =>
      rw [walkWith] at walked
      split at walked
      · cases walked
      · rename_i found
        split at walked
        · rename_i isDir
          exact (ih walked).imp fun _ => .enter found isDir
        · rename_i link
          split at walked
          · cases walked
          · rename_i more
            obtain ⟨fewer, crossed, rfl, walks⟩ := follows walked
            exact ⟨_, .follow found link more walks⟩
        · cases walked

theorem exists_walks (walked : fs.walk links directory path = .ok final) :
    ∃ crossed, fs.Walks final links directory path crossed := by
  induction links generalizing directory path with
  | zero =>
    refine exists_walks_of_walkWith ?_ walked
    rintro _ _ ⟨⟩
  | succ links ih =>
    refine exists_walks_of_walkWith (fun walked => ?_) walked
    obtain ⟨crossed, walks⟩ := ih walked
    exact ⟨links, crossed, rfl, walks⟩

theorem Walks.walk (walks : fs.Walks final links directory path crossed) :
    fs.walk links directory path = .ok final := by
  induction walks with
  | @arrived links => cases links <;> rfl
  | @root links _ _ _ _ ih => cases links <;> exact ih
  | @stay links _ _ _ _ ih => cases links <;> exact ih
  | @up _ _ links _ _ found _ ih => cases links <;> simpa only [Fs.walk, walkWith, found] using ih
  | @enter _ _ _ links _ _ found isDir _ ih =>
    cases links <;> simpa only [Fs.walk, walkWith, found, isDir] using ih
  | follow found link more _ ih => simpa only [Fs.walk, walkWith, found, link, if_neg more] using ih

theorem openRoot_ok_iff : fs.openRoot path = .ok final ↔
    path ≠ "" ∧ ∃ crossed, fs.Walks final 40 fs.cwd (components path) crossed := by
  unfold openRoot
  split
  · simp_all
  · rename_i filled
    refine ⟨fun walked => ⟨filled, exists_walks walked⟩, ?_⟩
    rintro ⟨-, crossed, walks⟩
    exact walks.walk

end

def resolveWith (fs : Fs) (follow : FileIdentity → List Component → Option FileIdentity) :
    FileIdentity → List Component → Option FileIdentity
  | directory, [] => some directory
  | _, .rootDir :: rest => resolveWith fs follow fs.root rest
  | directory, .curDir :: rest => resolveWith fs follow directory rest
  | directory, .parentDir :: rest =>
    (fs.inode directory).bind fun inode =>
      resolveWith fs follow inode.parent rest
  | directory, .normal name :: rest =>
    match fs.child directory name with
    | none => none
    | some entry =>
      match fs.kind entry.node with
      | some .directory => resolveWith fs follow entry.node rest
      | some (.symlink target) => follow directory (components target ++ rest)
      | some _ => if rest = [] then some entry.node else none
      | none => none

def resolve (fs : Fs) : Nat → FileIdentity → List Component → Option FileIdentity
  | 0 => resolveWith fs fun _ _ => none
  | links + 1 => resolveWith fs (resolve fs links)

def pathExists (fs : Fs) (path : String) : Bool :=
  path ≠ "" && (resolve fs 40 fs.cwd (components path)).isSome

def validateSingleComponent (name : String) : Bool :=
  !(name == "" || name == "." || name == ".." || containsChar name '/' ||
    containsChar name '\x00')

/-- One step of `open_child_dir_errno` beneath an open directory: `openat2`
refuses every mount point, the fallback only another device. -/
def openChild (fs : Fs) (openat2 : Bool) (directory : FileIdentity)
    (name : String) : Except Errno FileIdentity :=
  if validateSingleComponent name then
    match fs.child directory name with
    | none => .error .noent
    | some entry =>
      if openat2 && entry.mount then .error .xdev
      else
        match fs.kind entry.node with
        | some .directory =>
          if entry.node.dev = directory.dev then .ok entry.node
          else .error .xdev
        | some (.symlink _) => .error (if openat2 then .loop else .notDir)
        | _ => .error .notDir
  else .error .inval

def statChild (fs : Fs) (directory : FileIdentity) (name : String) : Except Errno FileIdentity :=
  if validateSingleComponent name then
    match fs.child directory name with
    | none => .error .noent
    | some entry => .ok entry.node
  else .error .inval

def unlink (fs : Fs) (directory : FileIdentity) (name : String) : Except Errno Fs :=
  match fs.child directory name with
  | none => .error .noent
  | some entry =>
    if entry.mount then .error .busy
    else if fs.kind entry.node = some .directory then .error .isDir
    else .ok (fs.remove directory name)

def rmdir (fs : Fs) (directory : FileIdentity) (name : String) : Except Errno Fs :=
  match fs.child directory name with
  | none => .error .noent
  | some entry =>
    if entry.mount then .error .busy
    else if fs.kind entry.node ≠ some .directory then .error .notDir
    else if fs.isEmptyDir entry.node then .ok (fs.remove directory name)
    else .error .notEmpty

theorem unlink_ok {fs fs' : Fs}
    (removed : fs.unlink directory name = .ok fs') : ∃ entry, fs.child directory name = some entry ∧
      fs.kind entry.node ≠ some .directory ∧ fs' = fs.remove directory name := by
  unfold unlink at removed
  split at removed
  · cases removed
  · rename_i entry found
    split at removed
    · cases removed
    · split at removed
      · cases removed
      · rename_i file
        exact ⟨entry, found, file, (Except.ok.inj removed).symm⟩

theorem rmdir_ok {fs fs' : Fs}
    (removed : fs.rmdir directory name = .ok fs') : ∃ entry, fs.child directory name = some entry ∧
      fs.isEmptyDir entry.node = true ∧ fs' = fs.remove directory name := by
  unfold rmdir at removed
  split at removed
  · cases removed
  · rename_i entry found
    split at removed
    · cases removed
    · split at removed
      · cases removed
      · split at removed
        · rename_i empty
          exact ⟨entry, found, empty, (Except.ok.inj removed).symm⟩
        · cases removed

end Fs

end CacheCleaner
