import CacheCleaner.Catalog.Sites

namespace CacheCleaner.TargetCatalog

def Site.admitted (site : Site) : Bool := site.named && (TargetId.tryNew site.id).isSome

def first (sites : List Site) (id : String) : Option Site :=
  sites.find? fun site => site.admitted && site.id == id

def Settled (sites : List Site) : Prop :=
  ∀ site ∈ sites, site.external = true → ∀ other ∈ sites,
    other.id = site.id → other.path = site.path ∧ other.package = site.package

def place (target : TargetDescriptor) : String × Option String :=
  (target.basePath, target.packageName)

def Site.place (site : Site) : String × Option String := (site.path, some site.package)

theorem tryNew_eq {id : String} (made : TargetId.tryNew id = some target) : target = ⟨id⟩ := by
  unfold TargetId.tryNew at made
  split at made
  · cases made
  · exact (Option.some.inj made).symm

section

variable (view : PlatformView) (generation : CatalogGeneration)

def Standard (out : Staging) : Prop := ∀ row ∈ out, row.safetyTier = .standardCache

theorem register_cases {out : Staging} (standard : Standard out) (site : Site) :
    (register view generation out site = out ∧ (site.admitted = false ∨
        site.external = false ∧ (out.find ⟨site.id⟩).isSome = true)) ∨
    (register view generation out site =
        out.upsert (describe view ⟨site.id⟩ site.targetClass site.path
          site.identity (some site.package) .standardCache generation) ∧ site.admitted = true ∧
      (site.external = true ∨ out.find ⟨site.id⟩ = none)) := by
  unfold register Site.admitted
  cases site.named with
  | false => exact Or.inl ⟨rfl, Or.inl rfl⟩
  | true =>
    cases made : TargetId.tryNew site.id with
    | none => exact Or.inl ⟨rfl, Or.inl rfl⟩
    | some id =>
      rw [tryNew_eq made]
      simp only [if_true]
      cases found : out.find ⟨site.id⟩ with
      | none => exact Or.inr ⟨by simp, rfl, Or.inr rfl⟩
      | some existing =>
        have tier := standard existing (Table.find_some found).1
        cases site.external with
        | true => exact Or.inr ⟨by simp, rfl, Or.inl rfl⟩
        | false =>
          refine Or.inl ⟨?_, Or.inr ⟨rfl, rfl⟩⟩
          simp [tier]

theorem standard_register (standard : Standard out)
    (site : Site) : Standard (register view generation out site) := by
  rcases register_cases view generation standard site with ⟨same, -⟩ | ⟨added, -, -⟩
  · rw [same]
    exact standard
  · rw [added]
    intro row mem
    rcases Table.mem_upsert.mp mem with ⟨old, -⟩ | rfl
    · exact standard row old
    · rfl

theorem standard_foldl_register (sites : List Site) :
    Standard (sites.foldl (register view generation) Table.empty) :=
  List.foldlRecOn sites _ (fun _ mem => nomatch mem)
    fun _ standard site _ => standard_register view generation standard site

theorem find_foldl_register {sites : List Site} (settled : Settled sites) (id : String) :
    ((sites.foldl (register view generation) Table.empty).find ⟨id⟩).map place =
      (first sites id).map Site.place := by
  induction sites using List.reverseRecOn with
  | nil => rfl
  | append_singleton front site ih =>
    have before := ih fun one mem external other otherMember =>
      settled one (List.mem_append_left _ mem) external other (List.mem_append_left _ otherMember)
    have found : first (front ++ [site]) id = (first front id).or
        (if site.admitted && site.id == id then some site else none) := by
      rw [first, List.find?_append, first]
      congr 1
      cases claims : (site.admitted && site.id == id) <;> simp [claims]
    rw [found, List.foldl_append, List.foldl_cons, List.foldl_nil]
    have standard := standard_foldl_register view generation front
    rcases register_cases view generation standard site with
      ⟨same, reason⟩ | ⟨added, admitted, reason⟩
    · rw [same, before]
      rcases reason with passed | ⟨-, taken⟩
      · simp [passed]
      · by_cases own : site.id = id
        · subst own
          have known : (first front site.id).isSome = true := by
            have kept := congrArg Option.isSome before
            rw [Option.isSome_map, Option.isSome_map] at kept
            rw [← kept]
            exact taken
          obtain ⟨holder, holds⟩ := Option.isSome_iff_exists.mp known
          rw [holds]
          rfl
        · simp [own]
    · rw [added]
      by_cases own : site.id = id
      · subst own
        have own : ∀ table : Staging, (table.upsert (describe view ⟨site.id⟩
            site.targetClass site.path site.identity (some site.package)
            .standardCache generation)).find ⟨site.id⟩ = _ :=
          fun table => Table.find_upsert_self table _
        rw [own]
        simp only [admitted, beq_self_eq_true, Bool.and_self, if_true]
        cases earlier : first front site.id with
        | none => rfl
        | some holder =>
          rcases reason with external | absent
          · have listed := List.mem_of_find?_eq_some earlier
            have claimed : holder.id = site.id := by
              have claims := List.find?_some earlier
              simp only [Bool.and_eq_true, beq_iff_eq] at claims
              exact claims.2
            obtain ⟨path, package⟩ := settled site
              (List.mem_append_right _ (List.mem_singleton.mpr rfl)) external
              holder (List.mem_append_left _ listed) claimed
            simp [Site.place, place, describe, path, package]
          · rw [absent, earlier] at before
            cases before
      · rw [Table.find_upsert_of_ne _ fun same => own (congrArg TargetId.val same).symm, before]
        simp [own]

end

section

theorem append_cons_inj (free : mark ∉ left) (free' : mark ∉ right)
    (same : left ++ mark :: rest = right ++ mark :: others) : left = right ∧ rest = others := by
  induction left generalizing right with
  | nil =>
    cases right with
    | nil => exact ⟨rfl, (List.cons.inj same).2⟩
    | cons head tail =>
      have equal := (List.cons.inj same).1
      exact absurd (equal ▸ List.mem_cons_self ..) free'
  | cons head tail ih =>
    cases right with
    | nil =>
      have equal := (List.cons.inj same).1
      exact absurd (equal ▸ List.mem_cons_self ..) free
    | cons other more =>
      obtain ⟨equal, rest⟩ := List.cons.inj same
      obtain ⟨tails, done⟩ := ih (fun mem => free (List.mem_cons_of_mem _ mem))
        (fun mem => free' (List.mem_cons_of_mem _ mem)) rest
      exact ⟨by rw [equal, tails], done⟩

def externalId (user : Nat) (package : String) : String := s!"android:u{user}:{package}:ext_cache"

theorem colon_not_mem_repr (user : Nat) : ':' ∉ (toString user).toList := by
  intro mem
  change ':' ∈ user.repr.toList at mem
  rw [Nat.toList_repr] at mem
  have digit := Nat.isDigit_of_mem_toDigits (by decide) (by decide) mem
  exact absurd digit (by decide)

theorem externalId_injective (same : externalId user package = externalId other foreign) :
    user = other ∧ package = foreign := by
  have letters := congrArg String.toList same
  simp only [externalId, String.toList_append, List.append_assoc] at letters
  obtain ⟨digits, rest⟩ := append_cons_inj (colon_not_mem_repr user)
    (colon_not_mem_repr other) (List.append_cancel_left letters)
  refine ⟨eq_of_repr_eq (String.toList_injective digits), ?_⟩
  exact String.toList_injective (List.append_cancel_right rest)

theorem exists_toList_appTargetId (user : Nat) (package sub : String) :
    ∃ front, (appTargetId user package sub).toList = front ++ ":cache".toList := by
  unfold appTargetId
  split <;> split <;> exact ⟨_, String.toList_append⟩

theorem appTargetId_ne_externalId : appTargetId user package sub ≠ externalId other foreign := by
  intro same
  obtain ⟨front, ends⟩ := exists_toList_appTargetId user package sub
  have letters : (externalId other foreign).toList =
      (s!"android:u{other}:{foreign}:ext").toList ++ "_cache".toList := by
    simp [externalId, String.toList_append]
    rfl
  rw [same, letters] at ends
  have tails := (List.append_inj' ends rfl).2
  exact absurd tails (by decide)

theorem head_appTargetId (user : Nat) (package sub : String) :
    (appTargetId user package sub).toList.head? = some 'a' := by
  unfold appTargetId
  split <;> split <;> simp [String.toList_append]
  all_goals exact Or.inl rfl

theorem head_externalId (user : Nat) (package : String) :
    (externalId user package).toList.head? = some 'a' := by
  simp [externalId, String.toList_append]
  exact Or.inl rfl

end

section

variable {view : PlatformView}

variable {site : Site}

inductive Shape (user : AndroidUser) (site : Site) : Prop
  | app (base package sub : String) (known : sub ∈ knownCacheSubdirs)
      (path : site.path = pathJoin (pathJoin base package) sub)
      (id : site.id = appTargetId user.userId package sub) (internal : site.external = false)
  | external (known : "cache" ∈ knownCacheSubdirs) (path : site.path = pathJoin (pathJoin
        (pathJoin user.mediaPath "Android/data") site.package) "cache")
      (id : site.id = externalId user.userId site.package)

theorem shape_of_mem_appSites (user : AndroidUser)
    (mem : site ∈ appSites view base user.userId) : Shape user site := by
  obtain ⟨entry, -, inside⟩ := List.mem_flatMap.mp mem
  unfold packageSites at inside
  split at inside
  · rename_i name _ _
    obtain ⟨sub, known, opened⟩ := List.mem_filterMap.mp inside
    obtain ⟨identity, -, rfl⟩ := Option.map_eq_some_iff.mp opened
    exact .app base name.text sub known rfl rfl rfl
  · cases inside

theorem shape_of_mem_externalSites
    (mem : site ∈ externalSites view user.mediaPath user.userId) : Shape user site := by
  obtain ⟨entry, -, inside⟩ := List.mem_filterMap.mp mem
  unfold externalSite? at inside
  split at inside
  · obtain ⟨identity, -, rfl⟩ := Option.map_eq_some_iff.mp inside
    exact .external (by decide) rfl rfl
  · cases inside

theorem shape_of_mem_userSites (mem : site ∈ userSites view user) : Shape user site := by
  unfold userSites at mem
  have opened : site ∈ appSites view user.cePath user.userId ++
      appSites view user.dePath user.userId ++
      externalSites view user.mediaPath user.userId → Shape user site := by
    intro inside
    rcases List.mem_append.mp inside with app | external
    · rcases List.mem_append.mp app with ce | de
      · exact shape_of_mem_appSites user ce
      · exact shape_of_mem_appSites user de
    · exact shape_of_mem_externalSites external
  split at mem
  · exact opened mem
  · exact opened mem
  · exact shape_of_mem_appSites user mem
  · cases mem

theorem settled_sites (distinct : (view.users.map AndroidUser.userId).Nodup) :
    Settled (sites view) := by
  intro site mem external other otherMember same
  obtain ⟨user, listed, inside⟩ := List.mem_flatMap.mp mem
  obtain ⟨peer, peerListed, peerInside⟩ := List.mem_flatMap.mp otherMember
  cases shape_of_mem_userSites inside with
  | app base package sub known path id internal =>
    rw [external] at internal
    cases internal
  | external known path id =>
    cases shape_of_mem_userSites peerInside with
    | app base package sub known path id' internal =>
      rw [id, id'] at same
      exact (appTargetId_ne_externalId same).elim
    | external known' path' id' =>
      rw [id, id'] at same
      obtain ⟨users, packages⟩ := externalId_injective same
      have equal : peer = user := List.inj_on_of_nodup_map distinct peerListed listed users
      rw [path, path', packages, equal]
      exact ⟨rfl, rfl⟩

theorem head_of_mem_sites (mem : site ∈ sites view) : site.id.toList.head? = some 'a' := by
  obtain ⟨user, -, inside⟩ := List.mem_flatMap.mp mem
  cases shape_of_mem_userSites inside with
  | app base package sub known path id internal =>
    rw [id]
    exact head_appTargetId ..
  | external known path id =>
    rw [id]
    exact head_externalId ..

theorem path_ne_system (mem : site ∈ sites view) :
    ∀ location ∈ systemJunkLocations, site.path ≠ location.1 := by
  obtain ⟨user, -, inside⟩ := List.mem_flatMap.mp mem
  have apart : ∀ sub ∈ knownCacheSubdirs, ∀ location ∈ systemJunkLocations,
      (components sub).getLast? ≠ none ∧
      (components location.1).getLast? ≠ (components sub).getLast? := by
    decide +kernel
  have joined : ∀ base sub, sub ∈ knownCacheSubdirs → site.path = pathJoin base sub →
      ∀ location ∈ systemJunkLocations, site.path ≠ location.1 := by
    intro base sub known path location listed same
    obtain ⟨filled, different⟩ := apart sub known location listed
    refine different ?_
    rw [← same, path, components_pathJoin (knownCacheSubdirs_relative sub known),
      List.getLast?_append]
    cases last : (components sub).getLast? with
    | none => exact absurd last filled
    | some component => rfl
  cases shape_of_mem_userSites inside with
  | app base package sub known path id internal => exact joined _ sub known path
  | external known path id => exact joined _ "cache" known path

end

section

variable {view : PlatformView} {generation : CatalogGeneration} {out : Staging}
  {target : TargetDescriptor}

theorem mem_collectSystemTargets (mem : target ∈ collectSystemTargets view generation out) :
    target ∈ out ∨ ∃ location ∈ systemJunkLocations, target.basePath = location.1 := by
  revert mem
  refine List.foldlRecOn (motive := fun staging : Staging =>
    target ∈ staging → target ∈ out ∨ ∃ location ∈ systemJunkLocations,
      target.basePath = location.1) systemJunkLocations _ Or.inl ?_
  intro staging known location listed mem
  unfold collectSystemLocation at mem
  dsimp only at mem
  split at mem
  · exact known mem
  · rcases Table.mem_upsert.mp mem with ⟨old, -⟩ | rfl
    · exact known old
    · exact Or.inr ⟨location, listed, rfl⟩

theorem mem_collectSystemTargets_of_mem (mem : target ∈ out)
    (android : target.targetId.val.toList.head? = some 'a') :
    target ∈ collectSystemTargets view generation out := by
  refine List.foldlRecOn (motive := fun staging : Staging => target ∈ staging)
    systemJunkLocations _ mem ?_
  intro staging kept location _
  unfold collectSystemLocation
  dsimp only
  split
  · exact kept
  · refine Table.mem_upsert.mpr (Or.inl ⟨kept, fun same => ?_⟩)
    rw [same] at android
    revert android
    simp [describe, String.toList_append]
    exact ⟨by decide, fun empty => absurd empty (by decide)⟩

end

def openSites (view : PlatformView) : List Site :=
  (view.users.filter fun user => view.unlocked user).flatMap (userSites view)

/-- Every such directory is the base of one target, which names its package;
targets elsewhere have other ids. -/
structure LosesNothing (view : PlatformView) (snapshot : CatalogSnapshot) : Prop where
  kept : ∀ site ∈ openSites view, ∃ target ∈ snapshot.targets, place target = site.place ∧
      ∀ other ∈ snapshot.targets, other.basePath = site.path → other = target
  distinct : ∀ target ∈ snapshot.targets, ∀ other ∈ snapshot.targets,
    target.basePath ≠ other.basePath → target.targetId ≠ other.targetId

/-- Of all ids exactly one is first claimed for the path of such a directory,
and for its package. -/
def Distinguished (view : PlatformView) : Prop :=
  ∀ site ∈ openSites view, ∃ id, (first (sites view) id).map Site.place = some site.place ∧
    ∀ other holder, first (sites view) other = some holder → holder.path = site.path → other = id

section

variable {view : PlatformView} {generation : CatalogGeneration}

theorem mem_sites_of_mem_openSites (mem : site ∈ openSites view) : site ∈ sites view := by
  obtain ⟨user, listed, inside⟩ := List.mem_flatMap.mp mem
  exact List.mem_flatMap.mpr ⟨user, (List.mem_filter.mp listed).1, inside⟩

theorem judged_of_mem_openSites (mem : site ∈ openSites view) : foundAnyUser view = true := by
  obtain ⟨user, listed, -⟩ := List.mem_flatMap.mp mem
  obtain ⟨known, unlocked⟩ := List.mem_filter.mp listed
  refine List.any_eq_true.mpr ⟨user, known, ?_⟩
  rcases of_decide_eq_true unlocked with full | plain
  · simp [full]
  · simp [plain]

def registeredSites (view : PlatformView) (generation : CatalogGeneration) : Staging :=
  (sites view).foldl (register view generation) Table.empty

section

variable (distinct : (view.users.map AndroidUser.userId).Nodup)
variable {target : TargetDescriptor}

include distinct

theorem first_of_mem (mem : target ∈ registeredSites view generation) :
    (first (sites view) target.targetId.val).map Site.place = some (place target) := by
  rw [← find_foldl_register view generation (settled_sites distinct)]
  change ((registeredSites view generation).find target.targetId).map place = _
  rw [Table.find_of_mem mem]
  rfl

theorem exists_mem_of_first {id : String} (claimed : first (sites view) id = some holder) :
    ∃ target ∈ registeredSites view generation, target.targetId.val = id ∧
      place target = holder.place := by
  have found := find_foldl_register view generation (settled_sites distinct) id
  rw [claimed] at found
  obtain ⟨target, there, same⟩ := Option.map_eq_some_iff.mp found
  obtain ⟨mem, own⟩ := Table.find_some there
  exact ⟨target, mem, congrArg TargetId.val own, same⟩

theorem android_of_mem (mem : target ∈ registeredSites view generation) :
    target.targetId.val.toList.head? = some 'a' := by
  obtain ⟨holder, claimed, -⟩ := Option.map_eq_some_iff.mp (first_of_mem distinct mem)
  have claims := List.find?_some claimed
  simp only [Bool.and_eq_true, beq_iff_eq] at claims
  rw [← claims.2]
  exact head_of_mem_sites (List.mem_of_find?_eq_some claimed)

variable (judged : foundAnyUser view = true) (few : (staged view generation).rows.length ≤ 5000)
include judged few

theorem mem_staged_of_mem
    (mem : target ∈ registeredSites view generation) : target ∈ staged view generation := by
  rw [staged_eq judged few]
  exact mem_collectSystemTargets_of_mem mem (android_of_mem distinct mem)

omit distinct in
theorem mem_of_mem_staged (listed : site ∈ sites view) (mem : target ∈ staged view generation)
    (same : target.basePath = site.path) : target ∈ registeredSites view generation := by
  rw [staged_eq judged few] at mem
  rcases mem_collectSystemTargets mem with own | ⟨location, known, path⟩
  · exact own
  · exact absurd (same.symm.trans path) (path_ne_system listed location known)

end

theorem targets_discoverAllTargets (mem : target ∈ staged view
      (snapshot.generation.next?.getD snapshot.generation)) :
    (discoverAllTargets view snapshot).targets =
      staged view (snapshot.generation.next?.getD snapshot.generation) := by
  have filled : (staged view (snapshot.generation.next?.getD
      snapshot.generation)).rows.isEmpty = false := by
    rw [List.isEmpty_eq_false_iff]
    exact List.ne_nil_of_mem mem
  unfold discoverAllTargets discovered?
  dsimp only
  rw [filled]
  rfl

theorem targets_discoverAllTargets_new : (discoverAllTargets view new).targets =
      staged view (new.generation.next?.getD new.generation) := by
  unfold discoverAllTargets discovered?
  dsimp only
  rw [if_pos (by simp [new, Table.empty]), Option.getD_some]

end

/-- With users of distinct ids and few enough targets no cache directory of an
open storage is lost exactly when each is the first to claim one id, and only
one. -/
theorem discovery_complete_iff (view : PlatformView)
    (distinct : (view.users.map AndroidUser.userId).Nodup)
    (few : ∀ generation, (staged view generation).rows.length < 5000) :
    (∀ snapshot, LosesNothing view (discoverAllTargets view snapshot)) ↔ Distinguished view := by
  constructor
  · intro complete site member
    have judged := judged_of_mem_openSites member
    have listed := mem_sites_of_mem_openSites member
    have room := Nat.le_of_lt (few (new.generation.next?.getD new.generation))
    obtain ⟨target, present, same, only⟩ := (complete new).kept site member
    rw [targets_discoverAllTargets_new] at present only
    have own := mem_of_mem_staged judged room listed present (congrArg Prod.fst same)
    refine ⟨target.targetId.val, ?_, ?_⟩
    · rw [first_of_mem distinct own, same]
    · intro other holder claimed path
      obtain ⟨rival, known, id, placed⟩ := exists_mem_of_first distinct claimed
      have equal := only rival (mem_staged_of_mem distinct judged room known)
        ((congrArg Prod.fst placed).trans path)
      rw [← id, equal]
  · intro distinguished snapshot
    refine ⟨fun site member => ?_, ?_⟩
    · have judged := judged_of_mem_openSites member
      have listed := mem_sites_of_mem_openSites member
      have room := Nat.le_of_lt (few (snapshot.generation.next?.getD snapshot.generation))
      obtain ⟨id, claimed, only⟩ := distinguished site member
      obtain ⟨holder, first, same⟩ := Option.map_eq_some_iff.mp claimed
      obtain ⟨target, known, own, placed⟩ := exists_mem_of_first distinct first
      have present := mem_staged_of_mem distinct judged room known
      rw [targets_discoverAllTargets present]
      refine ⟨target, present, placed.trans same, ?_⟩
      intro other otherMember path
      have otherKnown := mem_of_mem_staged judged room listed otherMember path
      obtain ⟨rival, rivalFirst, rivalPlace⟩ :=
        Option.map_eq_some_iff.mp (first_of_mem distinct otherKnown)
      have rivalPath : rival.path = site.path := (congrArg Prod.fst rivalPlace).trans path
      have ids := only _ rival rivalFirst rivalPath
      exact Table.eq_of_key_eq otherKnown known (congrArg TargetId.mk (ids.trans own.symm))
    · intro target member other otherMember apart same
      exact apart (by rw [Table.eq_of_key_eq member otherMember same])

theorem distinguished_of_matching (admitted : ∀ site ∈ sites view, site.admitted = true)
    (matching : ∀ site ∈ sites view, ∀ other ∈ sites view,
      (other.id = site.id ↔ other.path = site.path) ∧
        (other.path = site.path → other.package = site.package)) : Distinguished view := by
  intro site mem
  have listed := mem_sites_of_mem_openSites mem
  refine ⟨site.id, ?_, ?_⟩
  · cases claimed : first (sites view) site.id with
    | none =>
      have unclaimed := List.find?_eq_none.mp claimed site listed
      simp [admitted site listed] at unclaimed
    | some holder =>
      have claims := List.find?_some claimed
      simp only [Bool.and_eq_true, beq_iff_eq] at claims
      obtain ⟨same, package⟩ := matching site listed holder (List.mem_of_find?_eq_some claimed)
      have path := same.mp claims.2
      simp [Site.place, path, package path]
  · intro other holder claimed path
    have claims := List.find?_some claimed
    simp only [Bool.and_eq_true, beq_iff_eq] at claims
    obtain ⟨same, -⟩ := matching site listed holder (List.mem_of_find?_eq_some claimed)
    rw [← claims.2]
    exact same.mpr path

def clock : FileName := ⟨"clock", by decide⟩

/-- Two users; the packages of the first have caches in all three areas. -/
def sharedPhoneView : PlatformView where
  users := [primaryUser, ⟨10, "/data/user/10", "/data/user_de/10", "/data/media/10"⟩]
  encryption := fun _ => .fullyUnlocked
  readDir := fun path =>
    if path ∈ ["/data/data", "/data/media/0/Android/data", "/data/user/10"] then
      some [⟨some app, true⟩, ⟨none, true⟩]
    else if path ∈ ["/data/user_de/0", "/data/user_de/10"] then some [⟨some clock, true⟩]
    else none
  openRoot := fun path =>
    (["/data/data/app/cache", "/data/data/app/volley", "/data/user_de/0/clock/cache",
      "/data/media/0/Android/data/app/cache", "/data/user/10/app/cache",
      "/data/user_de/10/clock/cache"].idxOf? path).map fun place => (1, place)
  owner := fun _ => none

theorem sharedPhoneView_loses_nothing : (openSites sharedPhoneView).length = 6 ∧
    Distinguished sharedPhoneView ∧
      ∀ snapshot, LosesNothing sharedPhoneView (discoverAllTargets sharedPhoneView snapshot) := by
  have distinguished : Distinguished sharedPhoneView :=
    distinguished_of_matching (by decide +kernel) (by decide +kernel)
  refine ⟨by decide +kernel, distinguished, ?_⟩
  have few : ∀ generation, (staged sharedPhoneView generation).rows.length < 5000 := by
    intro generation
    exact (length_staged_le (by decide)).trans_lt (by decide +kernel)
  exact (discovery_complete_iff sharedPhoneView (by decide) few).mpr distinguished

def bothAreasView : PlatformView where
  users := [primaryUser]
  encryption := fun _ => .fullyUnlocked
  readDir := fun path =>
    if path = "/data/data" ∨ path = "/data/user_de/0" then
      some [⟨some app, true⟩]
    else none
  openRoot := fun path =>
    if path = "/data/data/app/cache" then some (1, 2)
    else if path = "/data/user_de/0/app/cache" then some (1, 3)
    else none
  owner := fun _ => none

theorem device_encrypted_cache_lost :
    (discoverAllTargets bothAreasView new).targets.rows.length = 1 ∧
    (∀ site ∈ sites bothAreasView, site.id.utf8ByteSize ≤ 512) ∧ (∃ site ∈ openSites bothAreasView,
      site.path = "/data/user_de/0/app/cache" ∧ site.package = "app") ∧
    ∀ target ∈ (discoverAllTargets bothAreasView new).targets.rows,
      target.basePath ≠ "/data/user_de/0/app/cache" := by
  decide +kernel

end CacheCleaner.TargetCatalog
