import CacheCleaner.Fs.Below

namespace CacheCleaner.Fs

def crossesWith (fs : Fs) (follow : FileIdentity → List Component → List (FileIdentity × String)) :
    FileIdentity → List Component → List (FileIdentity × String)
  | _, [] => []
  | _, .rootDir :: rest => crossesWith fs follow fs.root rest
  | directory, .curDir :: rest => crossesWith fs follow directory rest
  | directory, .parentDir :: rest =>
    match fs.inode directory with
    | none => []
    | some inode => crossesWith fs follow inode.parent rest
  | directory, .normal name :: rest =>
    match fs.child directory name with
    | none => []
    | some entry =>
      match fs.kind entry.node with
      | some .directory => crossesWith fs follow entry.node rest
      | some (.symlink target) =>
        if rest = [] then []
        else (directory, name) :: follow directory (components target ++ rest)
      | _ => []

def crosses (fs : Fs) : Nat → FileIdentity → List Component → List (FileIdentity × String)
  | 0 => crossesWith fs fun _ _ => []
  | links + 1 => crossesWith fs (crosses fs links)

def rootLinks (fs : Fs) (path : String) : List (FileIdentity × String) :=
  crosses fs 40 fs.cwd (components path)

section

variable {fs small big : Fs} {directory final removed : FileIdentity} {leaf : String}
  {entry : DirEntry}

theorem Walks.crosses (walks : fs.Walks final links directory path crossed) :
    fs.crosses links directory path = crossed := by
  induction walks with
  | @arrived links => cases links <;> rfl
  | @root links _ _ _ _ ih => cases links <;> exact ih
  | @stay links _ _ _ _ ih => cases links <;> exact ih
  | @up _ _ links _ _ found _ ih =>
    cases links <;> simpa only [Fs.crosses, crossesWith, found] using ih
  | @enter _ _ _ links _ _ found isDir _ ih =>
    cases links <;> simpa only [Fs.crosses, crossesWith, found, isDir] using ih
  | follow found link more _ ih =>
    simp only [Fs.crosses, crossesWith, found, link, if_neg more, ih]

theorem Below.rootLinks (below : Below small big) (opened : small.openRoot path = .ok directory) :
    small.rootLinks path = big.rootLinks path := by
  obtain ⟨-, crossed, walks⟩ := openRoot_ok_iff.mp opened
  have same : big.rootLinks path = crossed := (below.cwd ▸ below.walks walks : big.Walks ..).crosses
  rw [same]
  exact walks.crosses

theorem child_remove_of_ne (apart : ¬ (directory = removed ∧ name = leaf)) :
    (fs.remove removed leaf).child directory name = fs.child directory name := by
  rw [child_remove, if_neg apart]

theorem Walks.remove (present : fs.child removed leaf = some entry)
    (file : fs.kind entry.node ≠ some .directory)
    (walks : fs.Walks final links directory path crossed) (apart : (removed, leaf) ∉ crossed) :
    (fs.remove removed leaf).Walks final links directory path crossed := by
  have kinds := (Below.remove fs removed leaf).kind
  induction walks with
  | arrived => exact .arrived
  | root _ ih => exact .root (ih apart)
  | stay _ ih => exact .stay (ih apart)
  | up found _ ih =>
    obtain ⟨inode, found, same⟩ := parent_of_header (header_remove fs removed _ leaf).symm found
    exact .up found (same ▸ ih apart)
  | enter found isDir _ ih =>
    refine .enter ((child_remove_of_ne ?_).trans found) (kinds _ ▸ isDir) (ih apart)
    rintro ⟨rfl, rfl⟩
    rw [present] at found
    cases found
    exact file isDir
  | follow found link more _ ih =>
    rw [List.mem_cons, not_or] at apart
    refine .follow ((child_remove_of_ne ?_).trans found) (kinds _ ▸ link) more (ih apart.2)
    rintro ⟨rfl, rfl⟩
    exact apart.1 rfl

theorem openRoot_remove (present : fs.child removed leaf = some entry)
    (file : fs.kind entry.node ≠ some .directory) (opened : fs.openRoot path = .ok directory)
    (apart : (removed, leaf) ∉ fs.rootLinks path) :
    (fs.remove removed leaf).openRoot path = .ok directory := by
  obtain ⟨filled, crossed, walks⟩ := openRoot_ok_iff.mp opened
  rw [Fs.rootLinks, walks.crosses] at apart
  exact openRoot_ok_iff.mpr ⟨filled, crossed, walks.remove present file apart⟩

theorem openChild_remove (present : fs.child removed leaf = some entry)
    (file : fs.kind entry.node ≠ some .directory)
    (opened : fs.openChild openat2 directory name = .ok node) :
    (fs.remove removed leaf).openChild openat2 directory name = .ok node := by
  obtain ⟨step, found, rfl, isDirectory⟩ := openChild_ok opened
  have away : ¬ (directory = removed ∧ name = leaf) := by
    intro same
    rw [same.1, same.2, present, Option.some.injEq] at found
    subst found
    exact file isDirectory
  rw [openChild] at opened ⊢
  simpa only [child_remove, away, if_false, (Below.remove fs removed leaf).kind] using opened

theorem descend_remove (present : fs.child removed leaf = some entry)
    (file : fs.kind entry.node ≠ some .directory)
    (opened : fs.descend openat2 directory names = .ok node) :
    (fs.remove removed leaf).descend openat2 directory names = .ok node := by
  induction names generalizing directory with
  | nil => exact opened
  | cons name rest ih =>
    simp only [Fs.descend] at opened ⊢
    cases step : fs.openChild openat2 directory name with
    | error errno => simp [step] at opened
    | ok middle =>
      simp only [step] at opened
      simp only [openChild_remove present file step]
      exact ih opened

end

end CacheCleaner.Fs
