import CacheCleaner.Catalog.Locked

namespace CacheCleaner.TargetCatalog

/-- A cache directory of a package that could be opened.  The name may be one
that the loop passes over, and an external one replaces what has its id. -/
structure Site where
  targetClass : TargetClass
  path : String
  identity : Nat × Nat
  package : String
  id : String
  named : Bool
  external : Bool

def register (view : PlatformView) (generation : CatalogGeneration)
    (out : Staging) (site : Site) : Staging :=
  if site.named then
    match TargetId.tryNew site.id with
    | none => out
    | some id =>
      if !site.external && (out.find id).any fun existing =>
          decide (existing.safetyTier.rank ≤ TargetSafetyTier.standardCache.rank) then out
      else out.upsert (describe view id site.targetClass site.path
        site.identity (some site.package) .standardCache generation)
  else out

section

variable (view : PlatformView)

def subdirSite? (user : Nat) (packagePath package sub : String) : Option Site :=
  (view.openRoot (pathJoin packagePath sub)).map fun identity =>
    ⟨.appCache, pathJoin packagePath sub, identity, package,
      appTargetId user package sub, acceptedPackageName package, false⟩

def packageSites (base : String) (user : Nat) (entry : DirView) : List Site :=
  match entry.isDir, entry.name with
  | true, some name =>
    knownCacheSubdirs.filterMap (subdirSite? view user (pathJoin base name.text) name.text)
  | _, _ => []

def appSites (base : String) (user : Nat) : List Site :=
  ((view.readDir base).getD []).flatMap (packageSites view base user)

def externalSite? (dataDir : String) (user : Nat) (entry : DirView) : Option Site :=
  match entry.isDir, entry.name with
  | true, some name =>
    let path := pathJoin (pathJoin dataDir name.text) "cache"
    (view.openRoot path).map fun identity =>
      let package := name.text
      ⟨.externalCache, path, identity, package, s!"android:u{user}:{package}:ext_cache", true, true⟩
  | _, _ => none

def externalSites (mediaBase : String) (user : Nat) : List Site :=
  ((view.readDir (pathJoin mediaBase "Android/data")).getD []).filterMap
    (externalSite? view (pathJoin mediaBase "Android/data") user)

def userSites (user : AndroidUser) : List Site :=
  match view.encryption user.userId with
  | .fullyUnlocked | .unencrypted =>
    appSites view user.cePath user.userId ++ appSites view user.dePath user.userId ++
      externalSites view user.mediaPath user.userId
  | .deviceEncryptedOnly => appSites view user.dePath user.userId
  | .unknown => []

def sites : List Site := view.users.flatMap (userSites view)

end

/-- At most `count` rows are new and none is lost. -/
def Grows (out result : Staging) (count : Nat) : Prop :=
  out.rows.length ≤ result.rows.length ∧ result.rows.length ≤ out.rows.length + count

theorem Grows.refl (out : Staging) (count : Nat) : Grows out out count :=
  ⟨Nat.le_refl _, Nat.le_add_right ..⟩

theorem Grows.upsert (out : Staging) (row : TargetDescriptor) : Grows out (out.upsert row) 1 :=
  ⟨Table.length_le_upsert .., Table.length_upsert_le ..⟩

theorem Grows.foldl {step : Staging → α → Staging}
    (grows : ∀ out item, Grows out (step out item) 1) (items : List α) (out : Staging) :
    Grows out (items.foldl step out) items.length := by
  induction items generalizing out with
  | nil => exact .refl out 0
  | cons item rest ih =>
    have now := grows out item
    have later := ih (step out item)
    unfold Grows at *
    simp only [List.foldl_cons, List.length_cons]
    omega

section

variable {view : PlatformView} {generation : CatalogGeneration}

theorem grows_register (out : Staging) (site : Site) :
    Grows out (register view generation out site) 1 := by
  unfold register
  split
  · split
    · exact .refl out 1
    · split
      · exact .refl out 1
      · exact .upsert ..
  · exact .refl out 1

theorem grows_collectSystemTargets (out : Staging) :
    Grows out (collectSystemTargets view generation out) systemJunkLocations.length := by
  refine Grows.foldl (fun out location => ?_) systemJunkLocations out
  unfold collectSystemLocation
  dsimp only
  split
  · exact .refl out 1
  · exact .upsert ..

variable (view generation) in
/-- The directories are registered in turn; some are left out only where more
than 5000 targets are registered. -/
def Registers (listed : List Site) (out result : Staging) : Prop :=
  ∃ taken, taken.Sublist listed ∧ result = taken.foldl (register view generation) out ∧
    (taken = listed ∨ 5000 < result.rows.length)

theorem Registers.all (listed : List Site) (out : Staging) :
    Registers view generation listed out (listed.foldl (register view generation) out) :=
  ⟨listed, List.Sublist.refl _, rfl, .inl rfl⟩

theorem Registers.grows (registers : Registers view generation listed out result) :
    Grows out result listed.length := by
  obtain ⟨taken, part, rfl, -⟩ := registers
  obtain ⟨kept, few⟩ := Grows.foldl (@grows_register view generation) taken out
  exact ⟨kept, few.trans (Nat.add_le_add_left part.length_le _)⟩

theorem Registers.append (before : Registers view generation listed out between)
    (after : Registers view generation others between result) :
    Registers view generation (listed ++ others) out result := by
  have kept := after.grows.1
  obtain ⟨taken, part, rfl, complete⟩ := before
  obtain ⟨more, part', rfl, complete'⟩ := after
  refine ⟨taken ++ more, part.append part', (List.foldl_append ..).symm, ?_⟩
  rcases complete with rfl | many
  · rcases complete' with rfl | many
    · exact .inl rfl
    · exact .inr many
  · exact .inr (many.trans_le kept)

theorem Registers.eq_of_few (registers : Registers view generation listed out result)
    (few : result.rows.length ≤ 5000) : result = listed.foldl (register view generation) out := by
  obtain ⟨taken, -, same, rfl | many⟩ := registers
  · exact same
  · exact absurd few (Nat.not_le.mpr many)

theorem collectSubdir_eq (user : Nat) (packagePath package : String)
    (accepted : acceptedPackageName package = true) (out : Staging) (sub : String) :
    collectSubdir view user generation packagePath package out sub =
      ((subdirSite? view user packagePath package sub).toList).foldl
        (register view generation) out := by
  unfold collectSubdir subdirSite?
  dsimp only
  cases view.openRoot (pathJoin packagePath sub) with
  | none => rfl
  | some identity =>
    simp only [Option.map_some, Option.toList_some, List.foldl_cons,
      List.foldl_nil, register, accepted, if_true]
    cases TargetId.tryNew (appTargetId user package sub) with
    | none => rfl
    | some id =>
      dsimp only
      cases out.find id with
      | none => rfl
      | some existing => simp

theorem foldl_collectSubdir_eq (user : Nat)
    (accepted : acceptedPackageName package = true) (subs : List String) (out : Staging) :
    subs.foldl (collectSubdir view user generation packagePath package) out =
      (subs.filterMap (subdirSite? view user packagePath package)).foldl
        (register view generation) out := by
  induction subs generalizing out with
  | nil => rfl
  | cons sub rest ih =>
    rw [List.foldl_cons, ih, collectSubdir_eq user packagePath package
      accepted, ← List.foldl_append, List.filterMap_cons]
    cases subdirSite? view user packagePath package sub <;> rfl

theorem foldl_register_unnamed {sites : List Site}
    (unnamed : ∀ site ∈ sites, site.named = false) (out : Staging) :
    sites.foldl (register view generation) out = out := by
  induction sites with
  | nil => rfl
  | cons site rest ih =>
    have passed : register view generation out site = out := by
      rw [register, unnamed site (List.mem_cons_self ..)]
      rfl
    rw [List.foldl_cons, passed]
    exact ih fun other mem =>
      unnamed other (List.mem_cons_of_mem _ mem)

theorem named_of_mem_subdirs
    (mem : site ∈ knownCacheSubdirs.filterMap (subdirSite? view user packagePath package)) :
    site.named = acceptedPackageName package := by
  obtain ⟨sub, -, opened⟩ := List.mem_filterMap.mp mem
  obtain ⟨identity, -, rfl⟩ := Option.map_eq_some_iff.mp opened
  rfl

theorem collectPackages_registers (base : String) (user : Nat) (entries : List DirView)
    (out : Staging) : Registers view generation (entries.flatMap (packageSites view base user)) out
      (collectPackages view base user generation entries out) := by
  induction entries generalizing out with
  | nil => exact .all [] out
  | cons entry rest ih =>
    rw [List.flatMap_cons]
    unfold collectPackages packageSites
    cases entry.isDir with
    | false => exact ih out
    | true =>
      cases entry.name with
      | none => exact ih out
      | some name =>
        simp only [if_true]
        split
        · rename_i accepted
          split
          · rename_i many
            exact ⟨[], List.nil_sublist _, rfl, .inr many⟩
          · rw [foldl_collectSubdir_eq user accepted]
            exact (Registers.all _ out).append (ih _)
        · rename_i refused
          have passed := @Registers.all view generation (knownCacheSubdirs.filterMap
            (subdirSite? view user (pathJoin base name.text) name.text)) out
          rw [foldl_register_unnamed fun site mem =>
            (named_of_mem_subdirs mem).trans (Bool.eq_false_iff.mpr refused)] at passed
          exact passed.append (ih out)

theorem collectAndroidUserTargets_registers (base : String) (user : Nat) (out : Staging) :
    Registers view generation (appSites view base user) out
      (collectAndroidUserTargets view base user generation out) := by
  unfold collectAndroidUserTargets appSites
  cases view.readDir base with
  | none => exact .all [] out
  | some entries => exact collectPackages_registers base user entries out

theorem collectExternalEntry_eq : collectExternalEntry view dataDir user generation out entry =
      (externalSite? view dataDir user entry).toList.foldl (register view generation) out := by
  unfold collectExternalEntry externalSite?
  cases entry.isDir with
  | false => rfl
  | true =>
    cases entry.name with
    | none => rfl
    | some name =>
      simp only [if_true]
      cases view.openRoot (pathJoin (pathJoin dataDir name.text) "cache") with
      | none => rfl
      | some identity =>
        simp only [Option.map_some, Option.toList_some, List.foldl_cons,
          List.foldl_nil, register, if_true]
        cases TargetId.tryNew _ with
        | none => rfl
        | some id => rfl

theorem collectAndroidExternalTargets_eq :
    collectAndroidExternalTargets view mediaBase user generation out =
      (externalSites view mediaBase user).foldl (register view generation) out := by
  unfold collectAndroidExternalTargets externalSites
  dsimp only
  cases view.readDir (pathJoin mediaBase "Android/data") with
  | none => rfl
  | some entries =>
    dsimp only [Option.getD_some]
    induction entries generalizing out with
    | nil => rfl
    | cons entry rest ih =>
      rw [List.foldl_cons, ih, List.filterMap_cons, collectExternalEntry_eq]
      cases externalSite? view (pathJoin mediaBase "Android/data") user entry <;> rfl

theorem collectUser_registers (user : AndroidUser) (out : Staging) :
    Registers view generation (userSites view user) out (collectUser view generation out user) := by
  have caches := (@collectAndroidUserTargets_registers view generation user.cePath user.userId
    out).append (collectAndroidUserTargets_registers user.dePath user.userId _)
  have opened := caches.append (.all (externalSites view user.mediaPath user.userId) _)
  rw [← collectAndroidExternalTargets_eq] at opened
  unfold collectUser userSites
  cases view.encryption user.userId with
  | fullyUnlocked => exact opened
  | unencrypted => exact opened
  | deviceEncryptedOnly => exact collectAndroidUserTargets_registers ..
  | unknown => exact .all [] out

theorem collectUsers_registers (users : List AndroidUser) (out : Staging) :
    Registers view generation (users.flatMap (userSites view)) out
      (users.foldl (collectUser view generation) out) := by
  induction users generalizing out with
  | nil => exact .all [] out
  | cons user rest ih =>
    rw [List.flatMap_cons]
    exact (collectUser_registers user out).append (ih _)

theorem staged_eq (judged : foundAnyUser view = true)
    (few : (staged view generation).rows.length ≤ 5000) :
    staged view generation = collectSystemTargets view generation
      ((sites view).foldl (register view generation) Table.empty) := by
  unfold staged at few ⊢
  dsimp only at few ⊢
  rw [judged, if_pos rfl] at few ⊢
  exact congrArg _ ((collectUsers_registers view.users _).eq_of_few
    ((grows_collectSystemTargets _).1.trans few))

theorem length_staged_le (judged : foundAnyUser view = true) :
    (staged view generation).rows.length ≤ (sites view).length + systemJunkLocations.length := by
  unfold staged
  dsimp only
  rw [judged, if_pos rfl]
  refine (grows_collectSystemTargets _).2.trans (Nat.add_le_add_right ?_ _)
  exact (collectUsers_registers view.users _).grows.2.trans_eq (Nat.zero_add _)

end

end CacheCleaner.TargetCatalog
