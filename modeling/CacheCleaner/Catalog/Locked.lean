import CacheCleaner.Catalog.Separation

namespace CacheCleaner

namespace PlatformView

variable {view : PlatformView} {owner : AndroidUser}

def unlocked (view : PlatformView) (user : AndroidUser) : Prop :=
  view.encryption user.userId = .fullyUnlocked ∨ view.encryption user.userId = .unencrypted

instance (view : PlatformView) (user : AndroidUser) : Decidable (view.unlocked user) :=
  inferInstanceAs (Decidable (_ ∨ _))

/-- A base path outside the locked storage of every user, and outside all
storage of the users whose state is unknown. -/
def Permits (view : PlatformView) (path : String) : Prop :=
  ∀ user ∈ view.users, (¬ view.unlocked user →
      ∀ directory ∈ user.credentialDirectories, ¬ Beneath directory path) ∧
    (view.encryption user.userId = .unknown →
      ∀ directory ∈ user.directories, ¬ Beneath directory path)

theorem not_unlocked_of_unknown
    (unknown : view.encryption user.userId = .unknown) : ¬ view.unlocked user := by
  simp [unlocked, unknown]

theorem permits_of_own (separated : Separated view.users) (mem : owner ∈ view.users)
    (homeMember : home ∈ owner.directories) (inside : Beneath home path)
    (judged : view.encryption owner.userId ≠ .unknown) (own : ¬ view.unlocked owner →
      ∀ directory ∈ owner.credentialDirectories, ¬ Beneath directory path) : view.Permits path := by
  intro user userMember
  by_cases same : owner = user
  · subst same
    exact ⟨own, fun unknown => absurd unknown judged⟩
  · have outside : ∀ directory ∈ user.directories, ¬ Beneath directory path :=
      fun directory directoryMember =>
        (separated.peers owner mem user userMember same home homeMember
          directory directoryMember).not_beneath inside
    exact ⟨fun _ directory directoryMember =>
      outside directory (List.mem_cons_of_mem _ directoryMember),
      fun _ => outside⟩

theorem permits_of_unlocked (separated : Separated view.users) (mem : owner ∈ view.users)
    (homeMember : home ∈ owner.directories) (inside : Beneath home path)
    (unlocked : view.unlocked owner) : view.Permits path :=
  permits_of_own separated mem homeMember inside
    (fun unknown => not_unlocked_of_unknown unknown unlocked) (fun locked => absurd unlocked locked)

theorem permits_of_device (separated : Separated view.users)
    (mem : owner ∈ view.users) (inside : Beneath owner.dePath path)
    (judged : view.encryption owner.userId ≠ .unknown) : view.Permits path :=
  permits_of_own separated mem (List.mem_cons_self ..) inside judged
    fun _ directory directoryMember =>
      (separated.storage owner mem directory directoryMember).not_beneath inside

theorem permits_of_system (separated : Separated view.users)
    (mem : location ∈ systemJunkLocations) : view.Permits location.1 := by
  intro user userMember
  have outside : ∀ directory ∈ user.directories, ¬ Beneath directory location.1 :=
    fun directory directoryMember =>
      (separated.system user userMember directory directoryMember location
        mem).not_beneath (Beneath.refl location.1)
  exact ⟨fun _ directory directoryMember =>
    outside directory (List.mem_cons_of_mem _ directoryMember),
    fun _ => outside⟩

end PlatformView

namespace TargetCatalog

variable {generation : CatalogGeneration}

def Confined (allowed : String → Prop) (staging : Staging) : Prop :=
  ∀ target ∈ staging, allowed target.basePath

section

variable {allowed : String → Prop} {view : PlatformView}
  {generation : CatalogGeneration} {out : Staging}

variable {user : Nat}

theorem Confined.upsert (confined : Confined allowed out) (new : allowed row.basePath) :
    Confined allowed (out.upsert row) := by
  intro target mem
  rcases Table.mem_upsert.mp mem with ⟨old, -⟩ | rfl
  · exact confined target old
  · exact new

theorem knownCacheSubdirs_relative : ∀ sub ∈ knownCacheSubdirs, ∀ component ∈ components sub,
      component.isNormal = true := by
  decide

theorem FileName.relative (name : FileName) :
    ∀ component ∈ components name.text, component.isNormal = true := by
  have valid := name.valid
  simp only [Fs.validateSingleComponent, containsChar, Bool.not_eq_true',
    Bool.or_eq_false_iff, beq_eq_false_iff_ne, List.contains_eq_mem,
    decide_eq_false_iff_not] at valid
  obtain ⟨⟨⟨⟨nonempty, notDot⟩, notDots⟩, single⟩, -⟩ := valid
  rw [components_single single nonempty notDot notDots]
  simp [Component.isNormal]

theorem collectSubdir_confined (confined : Confined allowed out) (known : sub ∈ knownCacheSubdirs)
    (beneath : ∀ path, Beneath packagePath path → allowed path) : Confined allowed
      (collectSubdir view user generation packagePath package out sub) := by
  have new : allowed (pathJoin packagePath sub) :=
    beneath _ ((Beneath.refl packagePath).join (knownCacheSubdirs_relative sub known))
  unfold collectSubdir
  dsimp only
  split
  · exact confined
  · split
    · exact confined
    · split
      · split
        · exact confined
        · exact confined.upsert new
      · exact confined.upsert new

theorem collectPackages_confined (confined : Confined allowed out)
    (beneath : ∀ path, Beneath base path → allowed path) : Confined allowed
      (collectPackages view base user generation entries out) := by
  induction entries generalizing out with
  | nil => exact confined
  | cons entry rest ih =>
    unfold collectPackages
    split
    · split
      · exact ih confined
      · rename_i name found
        split
        · split
          · exact confined
          · have inside : ∀ path, Beneath (pathJoin base name.text) path → allowed path := by
              intro path deeper
              have above := (Beneath.refl base).join (FileName.relative name)
              rw [beneath_iff] at deeper above
              exact beneath path (beneath_iff.mpr (above.trans deeper))
            exact ih (List.foldlRecOn knownCacheSubdirs _ confined fun staging kept sub known =>
                collectSubdir_confined kept known inside)
        · exact ih confined
    · exact ih confined

theorem collectAndroidUserTargets_confined
    (confined : Confined allowed out) (beneath : ∀ path, Beneath base path → allowed path) :
    Confined allowed (collectAndroidUserTargets view base user generation out) := by
  unfold collectAndroidUserTargets
  split
  · exact confined
  · exact collectPackages_confined confined beneath

theorem collectExternalEntry_confined (confined : Confined allowed out)
    (beneath : ∀ path, Beneath dataDir path → allowed path) : Confined allowed
      (collectExternalEntry view dataDir user generation out entry) := by
  unfold collectExternalEntry
  split
  · split
    · exact confined
    · rename_i name found
      dsimp only
      have new : allowed (pathJoin (pathJoin dataDir name.text) "cache") :=
        beneath _ (((Beneath.refl dataDir).join (FileName.relative name)).join (by decide))
      split
      · exact confined
      · split
        · exact confined
        · exact confined.upsert new
  · exact confined

theorem collectAndroidExternalTargets_confined
    (confined : Confined allowed out) (beneath : ∀ path, Beneath mediaBase path → allowed path) :
    Confined allowed (collectAndroidExternalTargets view mediaBase user generation out) := by
  unfold collectAndroidExternalTargets
  dsimp only
  split
  · exact confined
  · refine List.foldlRecOn _ _ confined fun staging kept entry _ =>
      collectExternalEntry_confined kept fun path deeper => beneath path ?_
    have above := (Beneath.refl mediaBase).join (show ∀ component ∈ components "Android/data",
        component.isNormal = true by decide)
    rw [beneath_iff] at deeper above ⊢
    exact above.trans deeper

theorem collectSystemTargets_confined (confined : Confined allowed out)
    (system : ∀ location ∈ systemJunkLocations, allowed location.1) :
    Confined allowed (collectSystemTargets view generation out) := by
  refine List.foldlRecOn _ _ confined fun staging kept location mem => ?_
  unfold collectSystemLocation
  dsimp only
  split
  · exact kept
  · exact kept.upsert (system location mem)

end

theorem collectUser_confined (separated : Separated view.users) (mem : user ∈ view.users)
    (confined : Confined view.Permits out) :
    Confined view.Permits (collectUser view generation out user) := by
  have ce : user.cePath ∈ user.directories := by
    unfold AndroidUser.directories AndroidUser.credentialDirectories
    split <;> simp
  have media : user.mediaPath ∈ user.directories := by
    unfold AndroidUser.directories AndroidUser.credentialDirectories
    split <;> simp
  have opened : view.unlocked user → Confined view.Permits
      (collectAndroidExternalTargets view user.mediaPath user.userId generation
        (collectAndroidUserTargets view user.dePath user.userId generation
          (collectAndroidUserTargets view user.cePath user.userId generation out))) := by
    intro unlocked
    refine collectAndroidExternalTargets_confined (collectAndroidUserTargets_confined
        (collectAndroidUserTargets_confined confined ?_) ?_) ?_
    · exact fun path inside => PlatformView.permits_of_unlocked separated mem ce inside unlocked
    · exact fun path inside => PlatformView.permits_of_unlocked separated mem
        (List.mem_cons_self ..) inside unlocked
    · exact fun path inside => PlatformView.permits_of_unlocked separated mem media inside unlocked
  unfold collectUser
  cases state : view.encryption user.userId with
  | fullyUnlocked => exact opened (Or.inl state)
  | unencrypted => exact opened (Or.inr state)
  | deviceEncryptedOnly =>
    exact collectAndroidUserTargets_confined confined fun path inside =>
      PlatformView.permits_of_device separated mem inside (by simp [state])
  | unknown => exact confined

theorem staged_confined (separated : Separated view.users) (judged : foundAnyUser view = true) :
    Confined view.Permits (staged view generation) := by
  unfold staged
  dsimp only
  rw [judged, if_pos rfl]
  refine collectSystemTargets_confined ?_ fun location mem =>
    PlatformView.permits_of_system separated mem
  refine List.foldlRecOn _ _ ?_ fun staging kept user mem =>
    collectUser_confined separated mem kept
  intro target mem
  cases mem

def discoverSequence (snapshot : CatalogSnapshot) (views : List PlatformView) : CatalogSnapshot :=
  views.foldl (fun current view => discoverAllTargets view current) snapshot

@[simp] theorem discoverSequence_append : discoverSequence snapshot (views ++ [view]) =
      discoverAllTargets view (discoverSequence snapshot views) := by
  simp [discoverSequence]

def registered (view : PlatformView) (snapshot : CatalogSnapshot) : List TargetDescriptor :=
  (staged view (snapshot.generation.next?.getD snapshot.generation)).rows

theorem discoverAllTargets_cases (view : PlatformView) (snapshot : CatalogSnapshot) :
    (discoverAllTargets view snapshot).targets.rows = registered view snapshot ∨
      registered view snapshot = [] ∧ discoverAllTargets view snapshot = snapshot := by
  unfold discoverAllTargets discovered? registered
  dsimp only
  split
  · exact Or.inl rfl
  · rename_i kept
    simp only [Bool.or_eq_true, Bool.not_eq_true', not_or, Bool.not_eq_false] at kept
    exact Or.inr ⟨List.isEmpty_iff.mp kept.1, rfl⟩

/-- The discovery that put a target where it is: it registered the target, and
no later one registered anything. -/
structure RegisteredBy (views : List PlatformView) (target : TargetDescriptor)
    (before : List PlatformView) (view : PlatformView) (after : List PlatformView) : Prop where
  split : views = before ++ view :: after
  member : target ∈ registered view (discoverSequence new before)
  silent : ∀ earlier late rest, after = earlier ++ late :: rest →
    registered late (discoverSequence new (before ++ view :: earlier)) = []

theorem exists_registeredBy (views : List PlatformView) :
    ∀ target ∈ (discoverSequence new views).targets,
      ∃ before view after, RegisteredBy views target before view after := by
  induction views using List.reverseRecOn with
  | nil =>
    intro target mem
    cases mem
  | append_singleton views view ih =>
    intro target mem
    rw [discoverSequence_append] at mem
    rcases discoverAllTargets_cases view (discoverSequence new views) with
      published | ⟨nothing, kept⟩
    · rw [Table.mem_iff, published] at mem
      refine ⟨views, view, [], rfl, mem, ?_⟩
      intro earlier late rest absent
      simp at absent
    · rw [kept] at mem
      obtain ⟨before, origin, after, registration⟩ := ih target mem
      refine ⟨before, origin, after ++ [view], ?_, registration.member, ?_⟩
      · rw [registration.split]
        simp
      · intro earlier late rest later
        rcases List.eq_nil_or_concat rest with rfl | ⟨front, last, rfl⟩
        · obtain ⟨rfl, same⟩ := List.append_inj' later rfl
          cases same
          rw [← registration.split]
          exact nothing
        · refine registration.silent earlier late front ?_
          rw [List.concat_eq_append, ← List.cons_append, ← List.append_assoc] at later
          exact (List.append_inj' later rfl).1

/-- Every target of the catalog was registered by the last discovery that found
anything, and lay outside locked storage then if any user could be judged. -/
theorem catalog_permitted_when_registered (views : List PlatformView)
    (separated : ∀ view ∈ views, Separated view.users) :
    ∀ target ∈ (discoverSequence new views).targets,
      ∃ before view after, RegisteredBy views target before view after ∧
        (foundAnyUser view = true → view.Permits target.basePath) := by
  intro target member
  obtain ⟨before, view, after, registration⟩ := exists_registeredBy views target member
  refine ⟨before, view, after, registration, fun judged => ?_⟩
  have present : view ∈ views := by
    rw [registration.split]
    simp
  exact staged_confined (separated view present) judged target registration.member

def app : FileName := ⟨"app", by decide⟩

def unlockedView : PlatformView where
  users := [primaryUser]
  encryption := fun _ => .fullyUnlocked
  readDir := fun path =>
    if path = "/data/data" then some [⟨some app, true⟩] else none
  openRoot := fun path =>
    if path = "/data/data/app/cache" then some (1, 2) else none
  owner := fun _ => none

def lockedView : PlatformView where
  users := [primaryUser]
  encryption := fun _ => .deviceEncryptedOnly
  readDir := fun _ => none
  openRoot := fun _ => none
  owner := fun _ => none

theorem separated_views : ∀ view ∈ [unlockedView, lockedView], Separated view.users := by
  simp only [List.forall_mem_cons, List.not_mem_nil, false_implies, implies_true, and_true]
  exact ⟨separated_primaryUser, separated_primaryUser⟩

theorem unlocked_then_locked_permitted_when_registered :
    (∀ view ∈ [unlockedView, lockedView], Separated view.users) ∧
    ∀ target ∈ (discoverSequence new [unlockedView, lockedView]).targets, ∃ before view after,
        RegisteredBy [unlockedView, lockedView] target before view after ∧
          (foundAnyUser view = true → view.Permits target.basePath) :=
  ⟨separated_views, catalog_permitted_when_registered _ separated_views⟩

theorem locked_storage_stays_catalogued : ¬ ∀ (views : List PlatformView) (view : PlatformView),
      (∀ seen ∈ views ++ [view], Separated seen.users) →
        ∀ target ∈ (discoverSequence new (views ++ [view])).targets,
          view.Permits target.basePath := by
  intro permitted
  have kept : ∃ target ∈ (discoverSequence new ([unlockedView] ++ [lockedView])).targets.rows,
        Beneath "/data/data" target.basePath := by
    decide +kernel
  obtain ⟨target, member, inside⟩ := kept
  have outside := permitted [unlockedView] lockedView separated_views target
    member primaryUser (by simp [lockedView])
  exact outside.1 (by decide) "/data/data" (by decide) inside

end TargetCatalog

end CacheCleaner
