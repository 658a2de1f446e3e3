import CacheCleaner.Catalog.Discovery

namespace CacheCleaner

variable {left right folder other : String}

/-- Whole components: `directory` is `path` or above it. -/
def Beneath (directory path : String) : Prop := pathStartsWith path directory = true

instance (directory path : String) : Decidable (Beneath directory path) :=
  inferInstanceAs (Decidable (pathStartsWith path directory = true))

theorem beneath_iff : Beneath directory path ↔ components directory <+: components path :=
  List.isPrefixOf_iff_prefix

theorem Beneath.join (beneath : Beneath directory path)
    (relative : ∀ component ∈ components sub, component.isNormal = true) :
    Beneath directory (pathJoin path sub) := by
  rw [beneath_iff] at beneath ⊢
  rw [components_pathJoin relative]
  exact beneath.trans (List.prefix_append _ _)

theorem Beneath.refl (directory : String) : Beneath directory directory :=
  beneath_iff.mpr List.prefix_rfl

def Apart (left right : String) : Prop := ¬ Beneath left right ∧ ¬ Beneath right left

instance (left right : String) : Decidable (Apart left right) := inferInstanceAs (Decidable (_ ∧ _))

theorem Apart.not_beneath
    (apart : Apart left right) (inside : Beneath left path) : ¬ Beneath right path := by
  intro other
  rw [beneath_iff] at inside other
  rcases Nat.le_total (components left).length (components right).length with
    shorter | shorter
  · exact apart.1 (beneath_iff.mpr (List.prefix_of_prefix_length_le inside other shorter))
  · exact apart.2 (beneath_iff.mpr (List.prefix_of_prefix_length_le other inside shorter))

def AndroidUser.credentialDirectories (user : AndroidUser) : List String :=
  if user.userId = 0 then
    [user.cePath, user.mediaPath, "/data/data", "/data/user/0"]
  else [user.cePath, user.mediaPath]

def AndroidUser.directories (user : AndroidUser) : List String :=
  user.dePath :: user.credentialDirectories

/-- Users as the platform lays them out: no directory of one lies in a
directory of another, in the other kind of storage of the same user or in a
system location. -/
structure Separated (users : List AndroidUser) : Prop where
  peers : ∀ user ∈ users, ∀ other ∈ users, user ≠ other →
    ∀ directory ∈ user.directories, ∀ foreign ∈ other.directories, Apart directory foreign
  storage : ∀ user ∈ users, ∀ directory ∈ user.credentialDirectories, Apart user.dePath directory
  system : ∀ user ∈ users, ∀ directory ∈ user.directories,
    ∀ location ∈ systemJunkLocations, Apart location.1 directory

/-- Storage as the platform lays it out: only `/data/user/0`, which is not
resolved, may be a symbolic link. -/
def UserStorage.Direct (storage : UserStorage) : Prop :=
  (∀ id ≠ 0, storage.resolve (ceRaw id) = ceRaw id) ∧
    (∀ id, storage.resolve (deRaw id) = deRaw id) ∧
    ∀ id, storage.resolve (mediaRaw id) = mediaRaw id

theorem components_repr (id : Nat) : components id.repr = [.normal id.repr] := by
  have digits : ∀ character ∈ id.repr.toList, character.isDigit = true := by
    rw [Nat.toList_repr]
    exact fun character mem =>
      Nat.isDigit_of_mem_toDigits (by decide) (by decide) mem
  have other : ∀ text : String, (∃ character ∈ text.toList,
      character.isDigit = false) → id.repr ≠ text := by
    rintro text ⟨character, mem, notDigit⟩ rfl
    simp [digits character mem] at notDigit
  refine components_single ?_ ?_ (other "." ⟨'.', by decide, by decide⟩)
    (other ".." ⟨'.', by decide, by decide⟩)
  · intro mem
    exact absurd (digits '/' mem) (by decide)
  · intro none
    have letters := congrArg String.toList none
    rw [Nat.toList_repr] at letters
    exact Nat.toDigits_ne_nil letters

theorem eq_of_repr_eq {id peer : Nat} (same : id.repr = peer.repr) : id = peer := by
  have digits := congrArg String.toList same
  rw [Nat.toList_repr, Nat.toList_repr] at digits
  rw [← Nat.ofDigitChars_ten_toDigits (n := id), digits, Nat.ofDigitChars_ten_toDigits]

def InData (path folder : String) (rest : List Component) : Prop :=
  components path = .rootDir :: .normal "data" :: .normal folder :: rest

instance (path folder : String) (rest : List Component) : Decidable (InData path folder rest) :=
  inferInstanceAs (Decidable (_ = _))

theorem InData.apart (inLeft : InData left folder rest)
    (inRight : InData right other others) (different : folder ≠ other) : Apart left right := by
  unfold Apart
  rw [beneath_iff, beneath_iff, inLeft, inRight]
  simp [different, different.symm]

theorem inData_numbered (base : String) (filled : base ≠ "")
    (located : InData base folder []) (id : Nat) :
    InData (base ++ "/" ++ id.repr) folder [.normal id.repr] := by
  unfold InData at located ⊢
  rw [components_append_slash base id.repr filled, components_repr, located]
  · rfl
  · simp [components_repr, Component.isNormal]

theorem InData.apart_numbered {id peer : Nat} (inLeft : InData left folder [.normal id.repr])
    (inRight : InData right other [.normal peer.repr]) (different : id ≠ peer) :
    Apart left right := by
  have names : id.repr ≠ peer.repr := fun same => different (eq_of_repr_eq same)
  unfold Apart
  rw [beneath_iff, beneath_iff, inLeft, inRight]
  simp [names, names.symm]

namespace UserStorage

theorem inData_ceRaw (id : Nat) : InData (ceRaw id) "user" [.normal id.repr] :=
  inData_numbered "/data/user" (by decide) (by decide) id

theorem inData_deRaw (id : Nat) : InData (deRaw id) "user_de" [.normal id.repr] :=
  inData_numbered "/data/user_de" (by decide) (by decide) id

theorem inData_mediaRaw (id : Nat) : InData (mediaRaw id) "media" [.normal id.repr] :=
  inData_numbered "/data/media" (by decide) (by decide) id

variable {storage : UserStorage}

theorem inData_credential (direct : storage.Direct) (id : Nat) :
    ∀ directory ∈ (storage.user id).credentialDirectories, (id = 0 ∧ InData directory "data" []) ∨
        ∃ folder ∈ ["user", "media"], InData directory folder [.normal id.repr] := by
  obtain ⟨ce, -, media⟩ := direct
  have zero : InData "/data/user/0" "user" [.normal (Nat.repr 0)] := inData_ceRaw 0
  have primary : InData "/data/data" "data" [] := by decide
  have shared := inData_mediaRaw id
  unfold AndroidUser.credentialDirectories user
  by_cases first : id = 0
  · subst first
    cases storage.primaryExists <;> simp [media, primary, zero, shared]
  · simp [first, ce id first, media id, inData_ceRaw id, shared]

theorem inData_device (direct : storage.Direct) (id : Nat) :
    InData (storage.user id).dePath "user_de" [.normal id.repr] := by
  change InData (storage.resolve (deRaw id)) _ _
  rw [direct.2.1 id]
  exact inData_deRaw id

theorem inData_directories (direct : storage.Direct) (id : Nat) :
    ∀ directory ∈ (storage.user id).directories, (id = 0 ∧ InData directory "data" []) ∨
        ∃ folder ∈ ["user", "media", "user_de"], InData directory folder [.normal id.repr] := by
  intro directory mem
  rcases List.mem_cons.mp mem with rfl | credential
  · exact Or.inr ⟨"user_de", by simp, inData_device direct id⟩
  · rcases inData_credential direct id directory credential with
      primary | ⟨folder, known, located⟩
    · exact Or.inl primary
    · refine Or.inr ⟨folder, ?_, located⟩
      simp only [List.mem_cons, List.not_mem_nil, or_false] at known ⊢
      tauto

theorem systemJunkLocations_inData : ∀ location ∈ systemJunkLocations, ∃ folder rest,
      InData location.1 folder rest ∧ folder ∉ ["data", "user", "media", "user_de"] := by
  simp only [systemJunkLocations, List.forall_mem_cons, List.not_mem_nil,
    false_implies, implies_true, and_true]
  exact ⟨⟨"anr", [], by decide⟩, ⟨"tombstones", [], by decide⟩,
    ⟨"system", [.normal "dropbox"], by decide⟩, ⟨"local", [.normal "tmp"], by decide⟩⟩

end UserStorage

theorem enumerateUsers_separated {storage : UserStorage}
    (direct : storage.Direct) : Separated (enumerateUsers listing storage) where
  peers := by
    intro user mem other otherMember different
    obtain ⟨id, -, rfl⟩ := List.mem_map.mp mem
    obtain ⟨peer, -, rfl⟩ := List.mem_map.mp otherMember
    have ids : id ≠ peer := fun same => different (by rw [same])
    intro directory mine foreign theirs
    rcases UserStorage.inData_directories direct id directory mine with
      ⟨first, primary⟩ | ⟨folder, known, located⟩
    · rcases UserStorage.inData_directories direct peer foreign theirs with
        ⟨second, -⟩ | ⟨folder, known, located⟩
      · exact absurd (first.trans second.symm) ids
      · refine primary.apart located ?_
        rintro rfl
        simp at known
    · rcases UserStorage.inData_directories direct peer foreign theirs with
        ⟨-, primary⟩ | ⟨folder', -, located'⟩
      · refine located.apart primary ?_
        rintro rfl
        simp at known
      · exact located.apart_numbered located' ids
  storage := by
    intro user mem directory credential
    obtain ⟨id, -, rfl⟩ := List.mem_map.mp mem
    have device := UserStorage.inData_device direct id
    rcases UserStorage.inData_credential direct id directory credential with
      ⟨-, primary⟩ | ⟨folder, known, located⟩
    · exact device.apart primary (by decide)
    · refine device.apart located ?_
      rintro rfl
      simp at known
  system := by
    intro user mem directory mine location known
    obtain ⟨id, -, rfl⟩ := List.mem_map.mp mem
    obtain ⟨place, rest, inPlace, outside⟩ := UserStorage.systemJunkLocations_inData location known
    simp only [List.mem_cons, List.not_mem_nil, or_false, not_or] at outside
    rcases UserStorage.inData_directories direct id directory mine with
      ⟨-, primary⟩ | ⟨folder, folderKnown, located⟩
    · exact inPlace.apart primary outside.1
    · refine inPlace.apart located ?_
      rintro rfl
      simp [outside] at folderKnown

def primaryUser : AndroidUser := ⟨0, "/data/data", "/data/user_de/0", "/data/media/0"⟩

theorem separated_primaryUser : Separated [primaryUser] := by
  have listed : enumerateUsers ⟨[], [], [], [], []⟩ ⟨true, fun _ => none⟩ = [primaryUser] := by
    simp [enumerateUsers, UserListing.ids]
    decide
  rw [← listed]
  refine enumerateUsers_separated ⟨fun _ _ => rfl, fun _ => rfl, fun _ => rfl⟩

end CacheCleaner
