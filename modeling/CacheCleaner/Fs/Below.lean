import CacheCleaner.Fs.Tree

namespace CacheCleaner.Fs

variable {directory node : FileIdentity}

/-- `small` is `big` with some directory entries taken out. -/
structure Below (small big : Fs) : Prop where
  root : small.root = big.root
  cwd : small.cwd = big.cwd
  header : ∀ id, (small.inode id).map Inode.header = (big.inode id).map Inode.header
  child : ∀ {directory name entry}, small.child directory name = some entry →
      big.child directory name = some entry

namespace Below

variable {small big : Fs} {directory final : FileIdentity}

theorem refl (fs : Fs) : Below fs fs := ⟨rfl, rfl, fun _ => rfl, fun found => found⟩

theorem trans (first : Below small middle) (second : Below middle big) : Below small big :=
  ⟨first.root.trans second.root, first.cwd.trans second.cwd,
    fun id => (first.header id).trans (second.header id),
    fun found => second.child (first.child found)⟩

theorem remove (fs : Fs) (directory : FileIdentity) (name : String) :
    Below (fs.remove directory name) fs where
  root := rfl
  cwd := rfl
  header := fun id => header_remove fs directory id name
  child := by
    intro other label entry found
    rw [child_remove] at found
    split at found
    · cases found
    · exact found

theorem kind (below : Below small big) (id : FileIdentity) : small.kind id = big.kind id := by
  have header := congrArg (Option.map Prod.fst) (below.header id)
  simpa [Fs.kind, Option.map_map, Function.comp_def, Inode.header] using header

theorem walks (below : Below small big)
    (walks : small.Walks final links directory path crossed) :
    big.Walks final links directory path crossed := by
  induction walks with
  | arrived => exact .arrived
  | root _ ih => exact .root (below.root ▸ ih)
  | stay _ ih => exact .stay ih
  | up found _ ih =>
    obtain ⟨inode, found, same⟩ := parent_of_header (below.header _) found
    exact .up found (same ▸ ih)
  | enter found isDir _ ih => exact .enter (below.child found) (below.kind _ ▸ isDir) ih
  | follow found link more _ ih => exact .follow (below.child found) (below.kind _ ▸ link) more ih

theorem openRoot (below : Below small big) (opened : small.openRoot path = .ok directory) :
    big.openRoot path = .ok directory := by
  obtain ⟨filled, crossed, walks⟩ := openRoot_ok_iff.mp opened
  exact openRoot_ok_iff.mpr ⟨filled, crossed, below.cwd ▸ below.walks walks⟩

theorem openChild (below : Below small big)
    (opened : small.openChild openat2 directory name = .ok node) :
    big.openChild openat2 directory name = .ok node := by
  unfold Fs.openChild at opened ⊢
  split at opened
  · rename_i valid
    simp only [valid, if_true]
    cases found : small.child directory name with
    | none => simp [found] at opened
    | some entry =>
      simp only [found, below.kind] at opened
      simpa only [below.child found] using opened
  · cases opened

end Below

theorem openChild_ok {fs : Fs} (opened : fs.openChild openat2 directory name = .ok node) :
    ∃ entry, fs.child directory name = some entry ∧ entry.node = node ∧
      fs.kind node = some .directory := by
  unfold openChild at opened
  split at opened
  · cases found : fs.child directory name with
    | none => simp [found] at opened
    | some entry =>
      simp only [found] at opened
      split at opened
      · cases opened
      · split at opened
        · rename_i isDirectory
          split at opened
          · cases opened
            exact ⟨entry, rfl, rfl, isDirectory⟩
          · cases opened
        · cases opened
        · cases opened
  · cases opened

def descend (fs : Fs) (openat2 : Bool) : FileIdentity → List String → Except Errno FileIdentity
  | directory, [] => .ok directory
  | directory, name :: rest =>
    match fs.openChild openat2 directory name with
    | .error errno => .error errno
    | .ok node => descend fs openat2 node rest

theorem Below.descend (below : Below small big)
    (opened : small.descend openat2 directory names = .ok node) :
    big.descend openat2 directory names = .ok node := by
  induction names generalizing directory with
  | nil => exact opened
  | cons name rest ih =>
    simp only [Fs.descend] at opened ⊢
    cases step : small.openChild openat2 directory name with
    | error errno => simp [step] at opened
    | ok middle =>
      simp only [step] at opened
      simp only [below.openChild step]
      exact ih opened

/-- The entry a base path and relative names address: the opened parent
directory and the last name. -/
def address (fs : Fs) (openat2 : Bool) (basePath : String)
    (path : RelativePath) : Option (FileIdentity × String) :=
  match fs.openRoot basePath, path.leafName? with
  | .ok root, some leaf =>
    match fs.descend openat2 root path.parentNames with
    | .ok parent => some (parent, leaf)
    | .error _ => none
  | _, _ => none

end CacheCleaner.Fs
