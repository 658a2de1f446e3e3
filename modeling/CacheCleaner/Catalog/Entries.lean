import CacheCleaner.Catalog.Discovery

namespace CacheCleaner.TargetCatalog

/-- A target as a collection stages it: its root could be opened, and it carries
the generation that the collection was given. -/
structure Described (view : PlatformView) (generation : CatalogGeneration)
    (target : TargetDescriptor) : Prop where
  opened : view.openRoot target.basePath = some (target.dev, target.ino)
  filled : target.basePath ≠ ""
  tier : target.safetyTier = .standardCache
  stamped : target.catalogGeneration = generation

def AllDescribed (view : PlatformView) (generation : CatalogGeneration)
    (staging : Staging) : Prop :=
  ∀ target ∈ staging, Described view generation target

section

variable {view : PlatformView} {generation : CatalogGeneration} {out : Staging}

variable {user : Nat}

theorem allDescribed_empty : AllDescribed view generation Table.empty := by
  intro target mem
  cases mem

theorem AllDescribed.upsert (described : AllDescribed view generation out) {id : TargetId}
    (opened : view.openRoot path = some identity) (filled : path ≠ "") :
    AllDescribed view generation (out.upsert (describe view id targetClass path
      identity package .standardCache generation)) := by
  intro target mem
  rcases Table.mem_upsert.mp mem with ⟨old, -⟩ | rfl
  · exact described target old
  · exact ⟨opened, filled, rfl, rfl⟩

theorem pathJoin_ne (filled : sub ≠ "") : pathJoin path sub ≠ "" := by
  unfold pathJoin
  split
  · exact filled
  · split
    · exact fun empty => filled (String.append_eq_empty_iff.mp empty).2
    · exact fun empty => filled (String.append_eq_empty_iff.mp empty).2

theorem knownCacheSubdirs_filled : ∀ sub ∈ knownCacheSubdirs, sub ≠ "" := by
  decide

theorem collectSubdir_described {packagePath package sub : String}
    (described : AllDescribed view generation out) (known : sub ∈ knownCacheSubdirs) :
    AllDescribed view generation
      (collectSubdir view user generation packagePath package out sub) := by
  have filled : pathJoin packagePath sub ≠ "" := pathJoin_ne (knownCacheSubdirs_filled sub known)
  unfold collectSubdir
  dsimp only
  split
  · exact described
  · rename_i identity opened
    split
    · exact described
    · split
      · split
        · exact described
        · exact described.upsert opened filled
      · exact described.upsert opened filled

theorem collectPackages_described (described : AllDescribed view generation out) :
    AllDescribed view generation (collectPackages view base user generation entries out) := by
  fun_induction collectPackages view base user generation entries out with
  | case1 => exact described
  | case2 _ _ _ _ _ ih => exact ih described
  | case3 => exact described
  | case4 _ _ _ _ _ _ _ _ ih =>
    exact ih (List.foldlRecOn knownCacheSubdirs _ described
      fun _ kept _ known => collectSubdir_described kept known)
  | case5 _ _ _ _ _ _ _ ih => exact ih described
  | case6 _ _ _ _ ih => exact ih described

theorem collectAndroidUserTargets_described
    (described : AllDescribed view generation out) : AllDescribed view generation
      (collectAndroidUserTargets view base user generation out) := by
  unfold collectAndroidUserTargets
  split
  · exact described
  · exact collectPackages_described described

theorem collectAndroidExternalTargets_described {mediaBase : String}
    (described : AllDescribed view generation out) : AllDescribed view generation
      (collectAndroidExternalTargets view mediaBase user generation out) := by
  unfold collectAndroidExternalTargets
  dsimp only
  split
  · exact described
  · refine List.foldlRecOn _ _ described fun staging kept entry _ => ?_
    unfold collectExternalEntry
    dsimp only
    split
    · split
      · exact kept
      · split
        · exact kept
        · rename_i identity opened
          split
          · exact kept
          · exact kept.upsert opened (pathJoin_ne (by decide))
    · exact kept

theorem systemJunkLocations_standard : ∀ location ∈ systemJunkLocations,
      location.2.2 = .standardCache ∧ location.1 ≠ "" := by
  decide

theorem collectSystemTargets_described (described : AllDescribed view generation out) :
    AllDescribed view generation (collectSystemTargets view generation out) := by
  refine List.foldlRecOn _ _ described fun staging kept location mem => ?_
  unfold collectSystemLocation
  dsimp only
  split
  · exact kept
  · rename_i identity opened
    obtain ⟨tier, filled⟩ := systemJunkLocations_standard location mem
    rw [tier]
    exact kept.upsert opened filled

theorem collectUser_described {user : AndroidUser} (described : AllDescribed view generation out) :
    AllDescribed view generation (collectUser view generation out user) := by
  unfold collectUser
  split
  · exact collectAndroidExternalTargets_described (collectAndroidUserTargets_described
        (collectAndroidUserTargets_described described))
  · exact collectAndroidExternalTargets_described (collectAndroidUserTargets_described
        (collectAndroidUserTargets_described described))
  · exact collectAndroidUserTargets_described described
  · exact described

theorem staged_described (view : PlatformView) (generation : CatalogGeneration) :
    AllDescribed view generation (staged view generation) := by
  have users : AllDescribed view generation
      (view.users.foldl (collectUser view generation) Table.empty) :=
    List.foldlRecOn _ _ allDescribed_empty fun _ kept _ _ => collectUser_described kept
  unfold staged
  dsimp only
  refine collectSystemTargets_described ?_
  split
  · exact users
  · exact collectAndroidUserTargets_described (collectAndroidUserTargets_described
        (collectAndroidUserTargets_described users))

end

end CacheCleaner.TargetCatalog
