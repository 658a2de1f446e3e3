import CacheCleaner.Catalog.Completeness
import CacheCleaner.Catalog.Entries
import CacheCleaner.Engine.Offered
import CacheCleaner.Engine.Planner

namespace CacheCleaner.TargetCatalog

/-- The gate accepts the candidate and, right before the removal, the operation
planned for it. -/
structure Admitted (candidate : Candidate) (target : TargetDescriptor)
    (generation : CatalogGeneration) : Prop where
  validated : ∃ validated, SafetyGate.validateCandidate candidate target = .ok validated
  passes : ∀ deletion operation config now,
    CleanupExecutor.deletion? (CleanupPlanner.removal candidate) = some deletion →
      ∃ proof, SafetyGate.validateMutationBoundary target deletion.relPath
        deletion.expected operation generation config now = .ok proof

/-- Everything that any scan finds for a target of the discovery, on the device
of the target, is admitted under the generation it published. -/
def Admits (view : PlatformView) (before : CatalogSnapshot) : Prop :=
  ∀ target ∈ registered view before, target.isMutationAllowed = true →
    ∀ candidate, CandidateScanner.Offers target candidate → candidate.identity.dev = target.dev →
        Admitted candidate target (discoverAllTargets view before).generation

def Unprotected (path : String) : Prop :=
  components path ≠ [] ∧ components path ≠ [.rootDir] ∧
    ∀ root ∈ platformInvariantProtectedPaths, ¬ Beneath root path

instance (path : String) : Decidable (Unprotected path) := inferInstanceAs (Decidable (_ ∧ _))

theorem protectedRoot_eq_none_iff : SafetyGate.protectedRoot? path = none ↔
      ∀ root ∈ platformInvariantProtectedPaths, ¬ Beneath root path := by
  have filled : ∀ root ∈ platformInvariantProtectedPaths, (components root).isEmpty = false := by
    decide
  unfold SafetyGate.protectedRoot?
  rw [List.find?_eq_none]
  refine forall_congr' fun root => forall_congr' fun known => not_congr ?_
  simp only [filled root known, Bool.not_false, Bool.and_true, Bool.and_eq_true, decide_eq_true_eq]
  rw [beneath_iff, List.prefix_iff_eq_take]
  constructor
  · exact fun both => both.2.symm
  · intro same
    refine ⟨?_, same.symm⟩
    rw [same]
    exact List.length_take_le' ..

theorem verifyTargetRootSafety_ok_iff :
    SafetyGate.verifyTargetRootSafety path = .ok () ↔ Unprotected path := by
  unfold SafetyGate.verifyTargetRootSafety Unprotected
  rw [← protectedRoot_eq_none_iff, ← and_assoc, ← not_or]
  split
  · rename_i bare
    simp [bare]
  · rename_i named
    cases SafetyGate.protectedRoot? path <;> simp [named]

section

variable {view : PlatformView} {before : CatalogSnapshot}
  {target : TargetDescriptor} {candidate : Candidate}

theorem admitted_iff (described : Described view generation target)
    (offers : CandidateScanner.Offers target candidate)
    (device : candidate.identity.dev = target.dev) :
    Admitted candidate target generation ↔ Unprotected target.basePath := by
  have allowed : target.isMutationAllowed = true := by
    simp [TargetDescriptor.isMutationAllowed, described.tier]
  obtain ⟨id, nonempty⟩ := offers.beneath
  rw [← verifyTargetRootSafety_ok_iff]
  constructor
  · rintro ⟨⟨validated, accepted⟩, -⟩
    exact (SafetyGate.validateCandidate_ok_iff.mp accepted).2.2.2.2.1
  · intro safe
    refine ⟨⟨_, SafetyGate.validateCandidate_ok_iff.mpr
      ⟨allowed, id, device, nonempty, safe, rfl⟩⟩, ?_⟩
    intro deletion operation config now asks
    have same : deletion.relPath = candidate.relPath ∧ deletion.expected = candidate.identity := by
      unfold CleanupPlanner.removal at asks
      split at asks
      · cases asks
        exact ⟨rfl, rfl⟩
      · cases asks
        exact ⟨rfl, rfl⟩
    rw [same.1, same.2]
    exact SafetyGate.validateMutationBoundary_passes allowed safe nonempty
      device described.stamped operation config now

theorem described_of_registered (mem : target ∈ registered view before) :
    Described view (discoverAllTargets view before).generation target := by
  have described := staged_described view _ target mem
  have published : (discoverAllTargets view before).generation =
      before.generation.next?.getD before.generation := by
    unfold discoverAllTargets discovered?
    dsimp only
    rw [if_pos, Option.getD_some]
    simp only [Bool.or_eq_true, Bool.not_eq_true', List.isEmpty_eq_false_iff]
    exact Or.inl (List.ne_nil_of_mem mem)
  rw [published]
  exact described

theorem admits_iff_unprotected : Admits view before ↔
      ∀ target ∈ registered view before, Unprotected target.basePath := by
  constructor
  · intro admits target mem
    have described := described_of_registered mem
    obtain ⟨candidate, offers, device⟩ := CandidateScanner.exists_offers target described.filled
    have allowed : target.isMutationAllowed = true := by
      simp [TargetDescriptor.isMutationAllowed, described.tier]
    exact (admitted_iff described offers device).mp
      (admits target mem allowed candidate offers device)
  · intro unprotected target mem _ candidate offers device
    exact (admitted_iff (described_of_registered mem) offers device).mpr (unprotected target mem)

end

theorem unprotected_of_system : ∀ location ∈ systemJunkLocations,
      location.1 = "/data/system/dropbox" ∨ Unprotected location.1 := by
  decide

theorem protected_dropbox : ¬ Unprotected "/data/system/dropbox" := by
  decide

theorem exists_dropbox_target (opened : view.openRoot "/data/system/dropbox" = some identity) :
    ∃ target ∈ collectSystemTargets view generation out,
      target.basePath = "/data/system/dropbox" := by
  have joined : ∀ early, ∃ target ∈ collectSystemLocation view generation
      (collectSystemLocation view generation early
        ("/data/system/dropbox", .logArchive, .standardCache))
      ("/data/local/tmp", .tempDir, .standardCache), target.basePath = "/data/system/dropbox" := by
    intro early
    have added : collectSystemLocation view generation early
        ("/data/system/dropbox", .logArchive, .standardCache) =
          early.upsert (describe view ⟨"system:_data_system_dropbox"⟩
            .logArchive "/data/system/dropbox" identity none .standardCache generation) := by
      simp only [collectSystemLocation, opened]
      rfl
    rw [added]
    unfold collectSystemLocation
    dsimp only
    split
    · exact ⟨_, Table.mem_upsert.mpr (Or.inr rfl), rfl⟩
    · refine ⟨_, Table.mem_upsert.mpr (Or.inl ⟨Table.mem_upsert.mpr (Or.inr rfl), ?_⟩), rfl⟩
      intro same
      have ids : "system:_data_system_dropbox" =
        "system:" ++ underscored "/data/local/tmp" := congrArg TargetId.val same
      exact absurd ids (by decide)
  exact joined _

section

variable {view : PlatformView} {generation : CatalogGeneration} {out : Staging}

theorem unprotected_collectSystemTargets (others : Confined Unprotected out)
    (closed : view.openRoot "/data/system/dropbox" = none) (described : AllDescribed view generation
      (collectSystemTargets view generation out)) :
    Confined Unprotected (collectSystemTargets view generation out) := by
  intro target mem
  rcases mem_collectSystemTargets mem with own | ⟨location, known, path⟩
  · exact others target own
  · rcases unprotected_of_system location known with same | unprotected
    · have opened := (described target mem).opened
      rw [path, same, closed] at opened
      cases opened
    · rw [path]
      exact unprotected

end

def Secluded (users : List AndroidUser) : Prop :=
  ∀ user ∈ users, ∀ directory ∈ user.directories,
    ∀ root ∈ platformInvariantProtectedPaths, Apart directory root

theorem unprotected_of_apart
    (apart : ∀ root ∈ platformInvariantProtectedPaths, Apart directory root)
    (inside : Beneath directory path) : Unprotected path := by
  have above : ∀ parts, components path = parts → parts <+: components "/system" → False := by
    intro parts same short
    refine (apart "/system" (by decide)).1 (beneath_iff.mpr ?_)
    rw [beneath_iff, same] at inside
    exact inside.trans short
  exact ⟨fun none => above _ none (by decide), fun bare => above _ bare (by decide),
    fun root known => (apart root known).not_beneath inside⟩

section

variable {view : PlatformView} {generation : CatalogGeneration}

theorem collectUser_unprotected (apart : ∀ directory ∈ user.directories,
      ∀ root ∈ platformInvariantProtectedPaths, Apart directory root)
    (confined : Confined Unprotected out) :
    Confined Unprotected (collectUser view generation out user) := by
  have inside : ∀ directory ∈ user.directories, ∀ path, Beneath directory path → Unprotected path :=
    fun directory known path => unprotected_of_apart (apart directory known)
  have ce : user.cePath ∈ user.directories := by
    unfold AndroidUser.directories AndroidUser.credentialDirectories
    split <;> simp
  have de : user.dePath ∈ user.directories := List.mem_cons_self
  have media : user.mediaPath ∈ user.directories := by
    unfold AndroidUser.directories AndroidUser.credentialDirectories
    split <;> simp
  unfold collectUser
  split
  · exact collectAndroidExternalTargets_confined
      (collectAndroidUserTargets_confined (collectAndroidUserTargets_confined
        confined (inside _ ce)) (inside _ de)) (inside _ media)
  · exact collectAndroidExternalTargets_confined
      (collectAndroidUserTargets_confined (collectAndroidUserTargets_confined
        confined (inside _ ce)) (inside _ de)) (inside _ media)
  · exact collectAndroidUserTargets_confined confined (inside _ de)
  · exact confined

theorem collectFallback_unprotected (confined : Confined Unprotected out) :
    Confined Unprotected (collectFallback view generation out) := by
  have inside : ∀ directory ∈ ["/data/user/0", "/data/user_de/0", "/data/data"],
      ∀ path, Beneath directory path → Unprotected path := by
    intro directory known path
    refine unprotected_of_apart ?_
    revert directory
    decide
  exact collectAndroidUserTargets_confined (collectAndroidUserTargets_confined
    (collectAndroidUserTargets_confined confined (inside _ (by simp)))
      (inside _ (by simp))) (inside _ (by simp))

end

section

variable {view : PlatformView} {generation : CatalogGeneration}
  (unjudged : foundAnyUser view = false)
include unjudged

theorem unknown_of_unjudged : ∀ user ∈ view.users, view.encryption user.userId = .unknown := by
  intro user mem
  have unknown := List.any_eq_false.mp unjudged user mem
  simpa using unknown

theorem sites_of_unjudged : sites view = [] := by
  refine List.flatMap_eq_nil_iff.mpr fun user mem => ?_
  rw [userSites, unknown_of_unjudged unjudged user mem]

theorem staged_of_unjudged : staged view generation = collectSystemTargets view generation
      (collectFallback view generation Table.empty) := by
  have nobody : view.users.foldl (collectUser view generation) Table.empty = Table.empty := by
    refine List.foldlRecOn (motive := fun out => out = Table.empty) _ _ rfl ?_
    intro out empty user mem
    rw [collectUser, unknown_of_unjudged unjudged user mem]
    exact empty
  unfold staged
  dsimp only
  rw [nobody, unjudged]
  rfl

end

theorem confined_empty : Confined allowed Table.empty := by
  intro target mem
  cases mem

section

variable {view : PlatformView} {before : CatalogSnapshot}

theorem closed_of_admits (admits : Admits view before) :
    view.openRoot "/data/system/dropbox" = none := by
  cases opened : view.openRoot "/data/system/dropbox" with
  | none => rfl
  | some identity =>
    obtain ⟨target, mem, path⟩ : ∃ target ∈ registered view before,
        target.basePath = "/data/system/dropbox" := exists_dropbox_target opened
    have unprotected := admits_iff_unprotected.mp admits target mem
    rw [path] at unprotected
    exact absurd unprotected protected_dropbox

theorem admits_of_confined
    (collected : staged view (before.generation.next?.getD before.generation) =
      collectSystemTargets view (before.generation.next?.getD before.generation) out)
    (confined : Confined Unprotected out) (closed : view.openRoot "/data/system/dropbox" = none) :
    Admits view before := by
  rw [admits_iff_unprotected]
  have described := staged_described view (before.generation.next?.getD before.generation)
  rw [collected] at described
  have all := unprotected_collectSystemTargets confined closed described
  rw [← collected] at all
  exact all

theorem admits_iff_closed (secluded : Secluded view.users) :
    Admits view before ↔ view.openRoot "/data/system/dropbox" = none := by
  refine ⟨closed_of_admits, fun closed => ?_⟩
  have users : Confined Unprotected (view.users.foldl (collectUser view
      (before.generation.next?.getD before.generation)) Table.empty) :=
    List.foldlRecOn _ _ confined_empty fun _ kept user mem =>
      collectUser_unprotected (secluded user mem) kept
  cases judged : foundAnyUser view with
  | true => exact admits_of_confined (by simp [staged, judged]) users closed
  | false =>
    exact admits_of_confined (staged_of_unjudged judged)
      (collectFallback_unprotected confined_empty) closed

theorem admits_iff_first (distinct : (view.users.map AndroidUser.userId).Nodup)
    (few : (registered view before).length ≤ 5000) :
    Admits view before ↔ view.openRoot "/data/system/dropbox" = none ∧
      ∀ id site, first (sites view) id = some site → Unprotected site.path := by
  cases judged : foundAnyUser view with
  | false =>
    rw [sites_of_unjudged judged]
    refine ⟨fun admits => ⟨closed_of_admits admits, fun _ _ found => ?_⟩, ?_⟩
    · cases found
    · exact fun both => admits_of_confined (staged_of_unjudged judged)
        (collectFallback_unprotected confined_empty) both.1
  | true =>
    constructor
    · refine fun admits => ⟨closed_of_admits admits, fun id site claimed => ?_⟩
      obtain ⟨target, known, -, placed⟩ := exists_mem_of_first distinct claimed
      have unprotected := admits_iff_unprotected.mp admits target
        (mem_staged_of_mem distinct judged few known)
      have path : target.basePath = site.path := congrArg Prod.fst placed
      rw [path] at unprotected
      exact unprotected
    · rintro ⟨closed, unprotected⟩
      refine admits_of_confined (staged_eq judged few) ?_ closed
      intro target mem
      obtain ⟨site, claimed, placed⟩ := Option.map_eq_some_iff.mp (first_of_mem distinct mem)
      have path : site.path = target.basePath := congrArg Prod.fst placed
      rw [← path]
      exact unprotected _ site claimed

end

theorem protected_outside_storage : ∀ root ∈ platformInvariantProtectedPaths, ∃ name rest,
      components root = .rootDir :: .normal name :: rest ∧
        (name ≠ "data" ∨ ∃ folder, rest = [.normal folder] ∧
          folder ∉ ["data", "user", "media", "user_de"]) := by
  simp only [platformInvariantProtectedPaths, List.forall_mem_cons,
    List.not_mem_nil, false_implies, implies_true, and_true]
  refine ⟨⟨"system", [], by decide, Or.inl (by decide)⟩,
    ⟨"vendor", [], by decide, Or.inl (by decide)⟩, ⟨"product", [], by decide, Or.inl (by decide)⟩,
    ⟨"system_ext", [], by decide, Or.inl (by decide)⟩, ⟨"apex", [], by decide, Or.inl (by decide)⟩,
    ⟨"data", [.normal "system"], by decide, Or.inr ⟨_, rfl, by decide⟩⟩,
    ⟨"data", [.normal "misc"], by decide, Or.inr ⟨_, rfl, by decide⟩⟩,
    ⟨"data", [.normal "bootchart"], by decide, Or.inr ⟨_, rfl, by decide⟩⟩,
    ⟨"metadata", [], by decide, Or.inl (by decide)⟩, ⟨"boot", [], by decide, Or.inl (by decide)⟩,
    ⟨"etc", [], by decide, Or.inl (by decide)⟩⟩

theorem enumerateUsers_secluded
    (direct : storage.Direct) : Secluded (enumerateUsers listing storage) := by
  intro user mem directory mine root known
  obtain ⟨id, -, rfl⟩ := List.mem_map.mp mem
  obtain ⟨folder, rest, located, kept⟩ : ∃ folder rest, InData directory folder rest ∧
        folder ∈ ["data", "user", "media", "user_de"] := by
    rcases UserStorage.inData_directories direct id directory mine with
      ⟨-, primary⟩ | ⟨folder, inside, located⟩
    · exact ⟨_, _, primary, by decide⟩
    · exact ⟨_, _, located, List.mem_cons_of_mem _ inside⟩
  obtain ⟨name, others, parts, outside⟩ := protected_outside_storage root known
  unfold Apart
  rw [beneath_iff, beneath_iff, located, parts]
  rcases outside with elsewhere | ⟨other, rfl, foreign⟩
  · simp [elsewhere, elsewhere.symm]
  · have different : folder ≠ other := by
      rintro rfl
      exact foreign kept
    simp [different, different.symm]

/-- With users of distinct ids, whose storage is apart from the protected roots,
everything offered is admitted exactly when the drop box cannot be opened.
Storage elsewhere is judged, up to the limit, by the directories that claim an
id first. -/
theorem gate_admits_discovered_iff (view : PlatformView)
    (distinct : (view.users.map AndroidUser.userId).Nodup) (before : CatalogSnapshot) :
    (Secluded view.users → (Admits view before ↔ view.openRoot "/data/system/dropbox" = none)) ∧
    ((registered view before).length ≤ 5000 →
      (Admits view before ↔ view.openRoot "/data/system/dropbox" = none ∧
        ∀ id site, first (sites view) id = some site → Unprotected site.path)) :=
  ⟨admits_iff_closed, admits_iff_first distinct⟩

theorem unlockedView_admitted : Secluded unlockedView.users ∧ Admits unlockedView new := by
  have listed : enumerateUsers ⟨[], [], [], [], []⟩ ⟨true, fun _ => none⟩ = unlockedView.users := by
    simp [enumerateUsers, UserListing.ids]
    decide
  have secluded : Secluded unlockedView.users := by
    rw [← listed]
    exact enumerateUsers_secluded ⟨fun _ _ => rfl, fun _ => rfl, fun _ => rfl⟩
  exact ⟨secluded, ((gate_admits_discovered_iff unlockedView (by decide) new).1 secluded).mpr rfl⟩

def dropboxFs : Fs where
  root := ⟨1, 1⟩
  cwd := ⟨1, 1⟩
  inode := fun id =>
    if id = ⟨1, 1⟩ then some (folder 1 "data" 2)
    else if id = ⟨1, 2⟩ then some (folder 1 "system" 3)
    else if id = ⟨1, 3⟩ then some (folder 2 "dropbox" 4)
    else if id = ⟨1, 4⟩ then some (folder 3 "crash" 5)
    else if id = ⟨1, 5⟩ then some (.file ⟨1, 4⟩ 5 0)
    else none
where
  folder (parent : Nat) (name : String) (child : Nat) : Inode :=
    .folder ⟨1, parent⟩ name ⟨1, child⟩

theorem labelled_dropboxFs : dropboxFs.Labelled := by
  have named : ∀ parent name child, name ≠ "" →
      ∀ listed ∈ (dropboxFs.folder parent name child).listing.entries, listed.1 ≠ "" := by
    intro parent name child filled listed mem
    rw [List.mem_singleton.mp mem]
    exact filled
  intro id inode found
  simp only [dropboxFs] at found
  split at found
  · cases found
    exact named _ _ _ (by decide)
  · split at found
    · cases found
      exact named _ _ _ (by decide)
    · split at found
      · cases found
        exact named _ _ _ (by decide)
      · split at found
        · cases found
          exact named _ _ _ (by decide)
        · split at found
          · cases found
            exact List.forall_mem_nil _
          · cases found

def dropboxView : PlatformView where
  users := [primaryUser]
  encryption := fun _ => .fullyUnlocked
  readDir := fun _ => none
  openRoot := fun path =>
    match dropboxFs.openRoot path with
    | .ok directory => some (directory.dev, directory.ino)
    | .error _ => none
  owner := fun _ => none

def dropboxScan (target : TargetDescriptor) : Option (CandidateScanner.ScanResult × Nat) × World :=
  (CandidateScanner.scanTargetWithResource target 1).run
    (Env.calm 0 dropboxView (by decide)).handler ⟨0, dropboxFs, Store.empty, []⟩

theorem dropbox_candidate_refused :
    ∃ target ∈ registered dropboxView new, target.isMutationAllowed = true ∧
      ∃ candidate, CandidateScanner.Offers target candidate ∧ candidate.identity.dev = target.dev ∧
        SafetyGate.validateCandidate candidate target = .error (.safetyViolation
            (.protectedRoot "/data/system" "/data/system/dropbox")) := by
  have found : ∃ target ∈ registered dropboxView new, target.isMutationAllowed = true ∧
      ∃ result ∈ (dropboxScan target).1, ∃ candidate ∈ result.1.candidates,
        candidate.identity.dev = target.dev ∧ SafetyGate.validateCandidate candidate target =
          .error (.safetyViolation (.protectedRoot "/data/system" "/data/system/dropbox")) := by
    decide +kernel
  obtain ⟨target, member, allowed, result, scanned, candidate, listed, device, refused⟩ := found
  refine ⟨target, member, allowed, candidate, ?_, device, refused⟩
  refine ⟨_, _, 1, result, (dropboxScan target).2, ?_, Prod.ext scanned rfl, listed⟩
  exact labelled_dropboxFs

end CacheCleaner.TargetCatalog
