import CacheCleaner.Fs.Below

namespace CacheCleaner.Fs

theorem validateSingleComponent_of_mem_names {path : RelativePath} (mem : name ∈ path.names) :
    validateSingleComponent name = true := by
  obtain ⟨piece, inside, rfl, filled, notDot, notDots⟩ := RelativePath.exists_piece_of_mem_names mem
  have named : ∀ text : List Char, piece ≠ text → String.ofList piece ≠ String.ofList text :=
    fun text different same => different (String.ofList_injective same)
  have slash : '/' ∉ piece := fun bad => (mem_splitSlash inside bad).2 rfl
  have zero : '\x00' ∉ piece := by
    intro bad
    have control := path.printable _ (mem_splitSlash inside bad).1
    revert control
    decide
  simp only [validateSingleComponent, containsChar, Bool.not_eq_true',
    Bool.or_eq_false_iff, beq_eq_false_iff_ne, String.toList_ofList]
  exact ⟨⟨⟨⟨named [] filled, named ['.'] notDot⟩, named ['.', '.'] notDots⟩,
    by simpa using slash⟩, by simpa using zero⟩

inductive Presence where
  | gone
  | present
  | unreachable
  deriving DecidableEq, Repr

def presenceBeneath (fs : Fs) (openat2 : Bool) (leaf : String) :
    FileIdentity → List String → Presence
  | directory, [] =>
    match fs.child directory leaf with
    | none => .gone
    | some _ => .present
  | directory, name :: rest =>
    match fs.openChild openat2 directory name with
    | .ok node => presenceBeneath fs openat2 leaf node rest
    | .error .noent => .gone
    | .error _ => .unreachable

/-- A path is gone when a name on it is missing; it is unreachable when its
base, or a directory on it that is there, does not open. -/
def presence (fs : Fs) (openat2 : Bool) (basePath : String) (path : RelativePath) : Presence :=
  match fs.openRoot basePath, path.leafName? with
  | .ok root, some leaf =>
    presenceBeneath fs openat2 leaf root path.parentNames
  | _, _ => .unreachable

def Hollow (origin fs : Fs) : Prop :=
  ∀ {directory name entry}, origin.child directory name = some entry →
    fs.child directory name = none → fs.kind entry.node = some .directory →
    fs.isEmptyDir entry.node = true

theorem Hollow.refl (fs : Fs) : Hollow fs fs := by
  intro directory name entry present gone
  rw [present] at gone
  cases gone

theorem Hollow.remove (hollow : Hollow origin fs)
    (below : Below fs origin) (found : fs.child parent leaf = some entry)
    (vacant : fs.kind entry.node = some .directory → fs.isEmptyDir entry.node = true) :
    Hollow origin (fs.remove parent leaf) := by
  intro directory name other present gone isDirectory
  rw [(Below.remove fs parent leaf).kind] at isDirectory
  refine isEmptyDir_remove ?_ parent leaf
  rw [child_remove] at gone
  split at gone
  · rename_i here
    obtain ⟨rfl, rfl⟩ := here
    rw [below.child found] at present
    cases present
    exact vacant isDirectory
  · exact hollow present gone isDirectory

section

variable {origin fs : Fs} {openat2 : Bool} {leaf : String}
  {directory parent : FileIdentity} {names : List String}

theorem Hollow.child_of_isEmptyDir (hollow : Hollow origin fs)
    (below : Below fs origin) (empty : fs.isEmptyDir directory = true)
    (opened : origin.descend openat2 directory names = .ok parent) :
    fs.child parent leaf = none := by
  induction names generalizing directory with
  | nil =>
    cases opened
    exact Fs.child_of_isEmptyDir empty leaf
  | cons name rest ih =>
    simp only [descend] at opened
    split at opened
    · cases opened
    · rename_i node step
      obtain ⟨middle, present, rfl, isDirectory⟩ := openChild_ok step
      refine ih ?_ opened
      exact hollow present (Fs.child_of_isEmptyDir empty name) ((below.kind _).trans isDirectory)

theorem openChild_of_child (below : Below fs origin)
    (opened : origin.openChild openat2 directory name = .ok node) :
    fs.openChild openat2 directory name = match fs.child directory name with
      | none => .error .noent
      | some _ => .ok node := by
  unfold openChild at opened ⊢
  split at opened
  · rename_i valid
    rw [if_pos valid]
    cases here : fs.child directory name with
    | none => rfl
    | some other =>
      rw [below.child here] at opened
      simpa only [below.kind] using opened
  · cases opened

theorem presenceBeneath_of_descend (below : Below fs origin) (hollow : Hollow origin fs)
    (opened : origin.descend openat2 directory names = .ok parent) :
    fs.presenceBeneath openat2 leaf directory names =
      if fs.child parent leaf = none then .gone else .present := by
  induction names generalizing directory with
  | nil =>
    cases opened
    cases here : fs.child parent leaf <;> simp [presenceBeneath, here]
  | cons name rest ih =>
    simp only [descend] at opened
    split at opened
    · cases opened
    · rename_i node step
      simp only [presenceBeneath, openChild_of_child below step]
      cases here : fs.child directory name with
      | some other => exact ih opened
      | none =>
        obtain ⟨middle, present, rfl, isDirectory⟩ := openChild_ok step
        have empty := hollow present here ((below.kind _).trans isDirectory)
        rw [if_pos (hollow.child_of_isEmptyDir below empty opened)]

theorem presence_of_address (below : Below fs origin) (hollow : Hollow origin fs)
    (addressed : origin.address openat2 basePath path = some (parent, leaf)) :
    fs.presence openat2 basePath path = if (fs.openRoot basePath).isOk then
        if fs.child parent leaf = none then .gone else .present
      else .unreachable := by
  unfold address at addressed
  split at addressed
  · rename_i root last opened named
    split at addressed
    · rename_i node descended
      cases addressed
      unfold presence
      cases base : fs.openRoot basePath with
      | error errno => simp [Except.isOk, Except.toBool]
      | ok directory =>
        have same := (below.openRoot base).symm.trans opened
        cases same
        simp only [named, Except.isOk, Except.toBool, if_true]
        exact presenceBeneath_of_descend below hollow descended
    · cases addressed
  · cases addressed

end

end CacheCleaner.Fs
