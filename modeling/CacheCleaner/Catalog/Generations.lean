import CacheCleaner.Catalog.Entries
import CacheCleaner.Catalog.Locked
import CacheCleaner.Engine.Gate

namespace CacheCleaner

/-- A `TargetCatalog`: the snapshot its lock points to and, oldest first, the
ones it pointed to before, which are still held by whoever took them. -/
structure SharedCatalog where
  earlier : List CatalogSnapshot
  current : CatalogSnapshot

namespace SharedCatalog

def new : SharedCatalog := ⟨[], TargetCatalog.new⟩

def snapshots (catalog : SharedCatalog) : List CatalogSnapshot :=
  catalog.earlier ++ [catalog.current]

def publish (catalog : SharedCatalog) (snapshot : CatalogSnapshot) : SharedCatalog :=
  ⟨catalog.snapshots, snapshot⟩

@[simp] theorem current_publish (catalog : SharedCatalog) (snapshot : CatalogSnapshot) :
    (catalog.publish snapshot).current = snapshot := rfl

theorem current_mem_snapshots (catalog : SharedCatalog) : catalog.current ∈ catalog.snapshots := by
  simp [snapshots]

def registerTarget (catalog : SharedCatalog) (descriptor : TargetDescriptor) : SharedCatalog :=
  catalog.publish ⟨catalog.current.generation, catalog.current.targets.upsert descriptor⟩

section

variable (view : PlatformView)

def discoverAllTargets (catalog : SharedCatalog) : SharedCatalog :=
  ((TargetCatalog.discovered? view catalog.current).map catalog.publish).getD catalog

variable (order : IterationOrder TargetDescriptor)

def registerAll
    (staging : TargetCatalog.Staging) (catalog : SharedCatalog) : SharedCatalog :=
  (order.order staging.rows).foldl registerTarget catalog

def discoverAndroidUserTargetsForUser (userBase : String) (user : Nat)
    (catalog : SharedCatalog) : SharedCatalog :=
  registerAll order (TargetCatalog.collectAndroidUserTargets view userBase user
    catalog.current.generation Table.empty) catalog

def discoverAndroidUserTargets (userBase : String)
    (catalog : SharedCatalog) : SharedCatalog :=
  registerAll order (TargetCatalog.collectAndroidUserTargets view userBase 0
    catalog.current.generation Table.empty) catalog

def discoverAndroidExternalTargets (mediaBase : String) (user : Nat)
    (catalog : SharedCatalog) : SharedCatalog :=
  registerAll order (TargetCatalog.collectAndroidExternalTargets view mediaBase
    user catalog.current.generation Table.empty) catalog

def discoverSystemTargets (catalog : SharedCatalog) : SharedCatalog :=
  registerAll order (TargetCatalog.collectSystemTargets view
    catalog.current.generation Table.empty) catalog

inductive Registration where
  | registered
  | unopened
  | panicked
  deriving DecidableEq, Repr

def registerTargetSimple (targetId basePath : String)
    (tier : TargetSafetyTier) (targetClass : TargetClass) (package : String)
    (catalog : SharedCatalog) : Registration × SharedCatalog :=
  match view.openRoot basePath with
  | none => (.unopened, catalog)
  | some identity =>
    match TargetId.new? targetId with
    | none => (.panicked, catalog)
    | some id =>
      (.registered, catalog.registerTarget
        (TargetCatalog.describe view id targetClass basePath identity
          (if package = "" then none else some package) tier catalog.current.generation))

end

variable (catalog : SharedCatalog)

/-- `refresh_generation`: the targets are taken over as they are. -/
def refreshGeneration : CatalogGeneration × SharedCatalog :=
  let next := catalog.current.generation.next?.getD catalog.current.generation
  (next, catalog.publish ⟨next, catalog.current.targets⟩)

inductive Call where
  | discoverAllTargets (view : PlatformView)
  | discoverAndroidUserTargets (view : PlatformView)
      (order : IterationOrder TargetDescriptor) (userBase : String)
  | discoverAndroidUserTargetsForUser (view : PlatformView)
      (order : IterationOrder TargetDescriptor) (userBase : String) (user : Nat)
  | discoverAndroidExternalTargets (view : PlatformView)
      (order : IterationOrder TargetDescriptor) (mediaBase : String) (user : Nat)
  | discoverSystemTargets (view : PlatformView) (order : IterationOrder TargetDescriptor)
  | registerTargetSimple (view : PlatformView) (targetId basePath : String)
      (tier : TargetSafetyTier) (targetClass : TargetClass) (package : String)
  | refreshGeneration

def perform : Call → SharedCatalog
  | .discoverAllTargets view => discoverAllTargets view catalog
  | .discoverAndroidUserTargets view order userBase =>
    discoverAndroidUserTargets view order userBase catalog
  | .discoverAndroidUserTargetsForUser view order userBase user =>
    discoverAndroidUserTargetsForUser view order userBase user catalog
  | .discoverAndroidExternalTargets view order mediaBase user =>
    discoverAndroidExternalTargets view order mediaBase user catalog
  | .discoverSystemTargets view order =>
    discoverSystemTargets view order catalog
  | .registerTargetSimple view targetId basePath tier targetClass package =>
    (registerTargetSimple view targetId basePath tier targetClass package catalog).2
  | .refreshGeneration => catalog.refreshGeneration.2

def performAll (calls : List Call) : SharedCatalog :=
  calls.foldl perform catalog

@[simp] theorem performAll_append (earlier later : List Call) :
    catalog.performAll (earlier ++ later) = (catalog.performAll earlier).performAll later :=
  List.foldl_append

@[simp] theorem performAll_cons (call : Call) (later : List Call) :
    catalog.performAll (call :: later) = (catalog.perform call).performAll later := rfl

end SharedCatalog

def CatalogSnapshot.Stamped (snapshot : CatalogSnapshot) : Prop :=
  ∀ target ∈ snapshot.targets, target.catalogGeneration = snapshot.generation

/-- Every descriptor is found under its own id, carries the generation of the
snapshot and is never rejected as stale. -/
structure CatalogSnapshot.Coherent (snapshot : CatalogSnapshot) : Prop where
  keyed : ∀ target ∈ snapshot.targets, snapshot.get target.targetId = some target
  stamped : snapshot.Stamped
  current : ∀ target ∈ snapshot.targets, ∀ relPath expected operation config now found wanted,
      SafetyGate.validateMutationBoundary target relPath expected operation
          snapshot.generation config now ≠
        .error (.safetyViolation (.targetGenerationMismatch found wanted))

theorem SafetyGate.not_stale (same : target.catalogGeneration = catalog)
    (relPath : RelativePath) (expected : FileIdentity) (operation : OperationId)
    (config : ConfigGeneration) (now : UnixTimestamp) (found wanted : CatalogGeneration) :
    validateMutationBoundary target relPath expected operation catalog config now ≠
      .error (.safetyViolation (.targetGenerationMismatch found wanted)) := by
  unfold validateMutationBoundary
  split
  · simp
  · cases safe : verifyTargetRootSafety target.basePath with
    | error error =>
      unfold verifyTargetRootSafety at safe
      split at safe
      · cases safe
        simp
      · split at safe
        · cases safe
          simp
        · cases safe
    | ok safe =>
      dsimp only
      split
      · simp
      · split
        · simp
        · simp [same]

theorem CatalogSnapshot.coherent_iff_stamped {snapshot : CatalogSnapshot} :
    snapshot.Coherent ↔ snapshot.Stamped := by
  refine ⟨Coherent.stamped, fun stamped => ⟨?_, stamped, ?_⟩⟩
  · intro target mem
    exact Table.find_of_mem mem
  · intro target mem
    exact SafetyGate.not_stale (stamped target mem)

namespace SharedCatalog

variable {catalog : SharedCatalog}

/-- A catalog that another has become by publishing, each snapshot being allowed
after the one before it. -/
inductive Grows (allowed : CatalogSnapshot → CatalogSnapshot → Prop)
    (start : SharedCatalog) : SharedCatalog → Prop where
  | stay : Grows allowed start start
  | publish {catalog : SharedCatalog} {snapshot : CatalogSnapshot}
      (before : Grows allowed start catalog) (next : allowed catalog.current snapshot) :
      Grows allowed start (catalog.publish snapshot)

section

variable {allowed : CatalogSnapshot → CatalogSnapshot → Prop} {start catalog : SharedCatalog}

theorem Grows.mono (grows : Grows allowed start catalog)
    (weaken : ∀ before after, allowed before after → weaker before after) :
    Grows weaker start catalog := by
  induction grows with
  | stay => exact .stay
  | publish _ next ih => exact .publish ih (weaken _ _ next)

theorem Grows.trans (first : Grows allowed start middle)
    (second : Grows allowed middle catalog) : Grows allowed start catalog := by
  induction second with
  | stay => exact first
  | publish _ next ih => exact .publish ih next

theorem Grows.keeps (grows : Grows allowed start catalog) :
    start.snapshots <+: catalog.snapshots := by
  induction grows with
  | stay => exact List.prefix_rfl
  | publish _ _ ih => exact ih.trans (List.prefix_append _ _)

theorem Grows.all {holds : CatalogSnapshot → Prop} (grows : Grows allowed start catalog)
    (preserved : ∀ before after, allowed before after → holds before → holds after)
    (initially : ∀ snapshot ∈ start.snapshots, holds snapshot) :
    ∀ snapshot ∈ catalog.snapshots, holds snapshot := by
  induction grows with
  | stay => exact initially
  | publish _ next ih =>
    intro snapshot mem
    rcases List.mem_append.mp mem with old | new
    · exact ih snapshot old
    · rw [List.mem_singleton.mp new]
      exact preserved _ _ next (ih _ (current_mem_snapshots _))

end

def Later (before after : CatalogSnapshot) : Prop := before.generation.val ≤ after.generation.val

structure Follows (before after : CatalogSnapshot) : Prop where
  later : Later before after
  stamped : before.Stamped → after.Stamped

theorem Grows.ordered (grows : Grows Later start catalog)
    (ordered : start.snapshots.Pairwise Later) : catalog.snapshots.Pairwise Later := by
  induction grows with
  | stay => exact ordered
  | @publish catalog snapshot _ next ih =>
    refine List.pairwise_append.mpr ⟨ih, List.pairwise_singleton _ _, ?_⟩
    intro before old after new
    rw [List.mem_singleton.mp new]
    rcases List.mem_append.mp old with older | current
    · have toCurrent : Later before catalog.current :=
        (List.pairwise_append.mp ih).2.2 before older _ (List.mem_singleton_self _)
      exact Nat.le_trans toCurrent next
    · rw [List.mem_singleton.mp current]
      exact next

theorem le_next (generation : CatalogGeneration) :
    generation.val ≤ (generation.next?.getD generation).val := by
  unfold CatalogGeneration.next?
  split
  · exact Nat.le_succ _
  · exact Nat.le_refl _

section

variable {view : PlatformView} {catalog : SharedCatalog}

theorem registerTarget_follows
    (stamped : descriptor.catalogGeneration = catalog.current.generation) :
    Follows catalog.current (catalog.registerTarget descriptor).current := by
  refine ⟨Nat.le_refl _, fun before target mem => ?_⟩
  rcases Table.mem_upsert.mp mem with ⟨old, -⟩ | rfl
  · exact before target old
  · exact stamped

theorem registerAll_grows
    (described : TargetCatalog.AllDescribed view catalog.current.generation staging) :
    Grows Follows catalog (registerAll order staging catalog) := by
  have stamped : ∀ target ∈ order.order staging.rows,
      target.catalogGeneration = catalog.current.generation := by
    intro target mem
    exact (described target (order.mem_order.mp mem)).stamped
  unfold registerAll
  generalize order.order staging.rows = targets at stamped
  induction targets generalizing catalog with
  | nil => exact .stay
  | cons target rest ih =>
    obtain ⟨first, others⟩ := List.forall_mem_cons.mp stamped
    have registered : Grows Follows catalog (catalog.registerTarget target) :=
      .publish .stay (registerTarget_follows first)
    exact registered.trans (ih described others)

theorem discoverAllTargets_grows : Grows Follows catalog (discoverAllTargets view catalog) := by
  unfold discoverAllTargets TargetCatalog.discovered?
  dsimp only
  split
  · refine .publish .stay ⟨le_next _, fun _ target mem => ?_⟩
    exact (TargetCatalog.staged_described view _ target mem).stamped
  · exact .stay

theorem registerTargetSimple_grows :
    Grows Follows catalog (registerTargetSimple view targetId basePath tier
      targetClass package catalog).2 := by
  unfold registerTargetSimple
  split
  · exact .stay
  · split
    · exact .stay
    · exact .publish .stay (registerTarget_follows rfl)

end

/-- Whether a call leaves no descriptor behind: a refresh does so unless there
is none, or no generation to advance to. -/
def Restamps (catalog : SharedCatalog) : Call → Prop
  | .refreshGeneration =>
    catalog.current.targets.rows = [] ∨ catalog.current.generation.next? = none
  | _ => True

theorem refreshGeneration_follows (restamps : catalog.Restamps .refreshGeneration) :
    Follows catalog.current catalog.refreshGeneration.2.current := by
  refine ⟨le_next _, fun stamped target mem => ?_⟩
  rcases restamps with empty | last
  · have listed : target ∈ catalog.current.targets.rows := mem
    rw [empty] at listed
    cases listed
  · have kept : catalog.refreshGeneration.2.current.generation = catalog.current.generation := by
      simp [refreshGeneration, last]
    rw [kept]
    exact stamped target mem

theorem perform_grows (restamps : catalog.Restamps call) :
    Grows Follows catalog (catalog.perform call) := by
  cases call with
  | discoverAllTargets view => exact discoverAllTargets_grows
  | discoverAndroidUserTargets view order userBase =>
    exact registerAll_grows (TargetCatalog.collectAndroidUserTargets_described
      TargetCatalog.allDescribed_empty)
  | discoverAndroidUserTargetsForUser view order userBase user =>
    exact registerAll_grows (TargetCatalog.collectAndroidUserTargets_described
      TargetCatalog.allDescribed_empty)
  | discoverAndroidExternalTargets view order mediaBase user =>
    exact registerAll_grows (TargetCatalog.collectAndroidExternalTargets_described
        TargetCatalog.allDescribed_empty)
  | discoverSystemTargets view order =>
    exact registerAll_grows (TargetCatalog.collectSystemTargets_described
      TargetCatalog.allDescribed_empty)
  | registerTargetSimple view targetId basePath tier targetClass package =>
    exact registerTargetSimple_grows
  | refreshGeneration =>
    exact .publish .stay (refreshGeneration_follows restamps)

theorem perform_advances (catalog : SharedCatalog) (call : Call) :
    Grows Later catalog (catalog.perform call) := by
  by_cases refresh : call = .refreshGeneration
  · subst refresh
    exact .publish .stay (le_next _)
  · have restamps : catalog.Restamps call := by
      cases call with
      | refreshGeneration => exact absurd rfl refresh
      | _ => trivial
    exact (perform_grows restamps).mono fun _ _ follows => follows.later

theorem performAll_advances (catalog : SharedCatalog) (calls : List Call) :
    Grows Later catalog (catalog.performAll calls) := by
  induction calls generalizing catalog with
  | nil => exact .stay
  | cons call rest ih =>
    exact (perform_advances catalog call).trans (ih _)

theorem not_stamped_refreshGeneration (stamped : catalog.current.Stamped)
    (behind : ¬ catalog.Restamps .refreshGeneration) :
    ¬ catalog.refreshGeneration.2.current.Stamped := by
  intro restamped
  obtain ⟨occupied, advancing⟩ := not_or.mp behind
  obtain ⟨target, rest, rows⟩ := List.exists_cons_of_ne_nil occupied
  have mem : target ∈ catalog.current.targets := by
    rw [Table.mem_iff, rows]
    exact List.mem_cons_self
  have same : catalog.refreshGeneration.2.current.generation = catalog.current.generation :=
    (restamped target mem).symm.trans (stamped target mem)
  obtain ⟨next, exists_next⟩ := Option.ne_none_iff_exists'.mp advancing
  have advanced : next = catalog.current.generation := by
    simpa [refreshGeneration, exists_next] using same
  unfold CatalogGeneration.next? at exists_next
  split at exists_next
  · have value := congrArg CatalogGeneration.val ((Option.some.inj exists_next).trans advanced)
    simp at value
  · cases exists_next

def AllRestamp (catalog : SharedCatalog) (calls : List Call) : Prop :=
  ∀ earlier call later, calls = earlier ++ call :: later →
    (catalog.performAll earlier).Restamps call

theorem allRestamp_cons : catalog.AllRestamp (call :: rest) ↔
      catalog.Restamps call ∧ (catalog.perform call).AllRestamp rest := by
  constructor
  · intro all
    refine ⟨all [] call rest rfl, fun earlier next later split => ?_⟩
    exact all (call :: earlier) next later (by rw [split]; rfl)
  · rintro ⟨first, others⟩ earlier next later split
    cases earlier with
    | nil =>
      obtain ⟨rfl, -⟩ := List.cons.inj split
      exact first
    | cons head earlier =>
      obtain ⟨rfl, tail⟩ := List.cons.inj split
      exact others earlier next later tail

theorem stamped_performAll_iff
    (stamped : ∀ snapshot ∈ catalog.snapshots, snapshot.Stamped) (calls : List Call) :
    (∀ snapshot ∈ (catalog.performAll calls).snapshots, snapshot.Stamped) ↔
      catalog.AllRestamp calls := by
  induction calls generalizing catalog with
  | nil =>
    refine iff_of_true stamped fun earlier call later split => ?_
    simp at split
  | cons call rest ih =>
    rw [allRestamp_cons, performAll_cons]
    by_cases restamps : catalog.Restamps call
    · rw [ih ((perform_grows restamps).all (fun _ _ follows => follows.stamped) stamped)]
      exact (and_iff_right restamps).symm
    · refine iff_of_false (fun all => ?_) fun both => restamps both.1
      -- Only a refresh can fail here, and its snapshot stays on record.
      cases call with
      | refreshGeneration =>
        refine not_stamped_refreshGeneration
          (stamped _ (current_mem_snapshots _)) restamps (all _ ?_)
        exact (performAll_advances _ rest).keeps.mem
          (current_mem_snapshots (catalog.perform .refreshGeneration))
      | _ => exact restamps trivial

/-- Along any calls the generation never decreases and earlier snapshots stay as
they are.  The snapshots are all coherent exactly when no refresh comes while
there are targets and a generation to advance to. -/
theorem generations_coherent_iff (calls : List Call) :
    ((∀ snapshot ∈ (new.performAll calls).snapshots, snapshot.Coherent) ↔
      ∀ earlier later, calls = earlier ++ .refreshGeneration :: later →
        (new.performAll earlier).current.targets.rows = [] ∨
          (new.performAll earlier).current.generation.next? = none) ∧
    (new.performAll calls).snapshots.Pairwise Later ∧ ∀ earlier later, calls = earlier ++ later →
      (new.performAll earlier).snapshots <+: (new.performAll calls).snapshots := by
  have initially : ∀ snapshot ∈ new.snapshots, snapshot.Stamped := by
    intro snapshot member target inside
    rw [List.mem_singleton.mp member] at inside
    cases inside
  refine ⟨?_, ?_, ?_⟩
  · simp only [CatalogSnapshot.coherent_iff_stamped]
    rw [stamped_performAll_iff initially]
    refine ⟨fun all earlier later split => all earlier _ later split, ?_⟩
    intro refreshes earlier call later split
    cases call with
    | refreshGeneration => exact refreshes earlier later split
    | _ => trivial
  · exact (performAll_advances new calls).ordered (List.pairwise_singleton _ _)
  · intro earlier later split
    rw [split, performAll_append]
    exact (performAll_advances _ later).keeps

/-- A refresh after a discovery leaves the discovered target behind. -/
theorem refreshed_target_stale :
    ¬ ∀ (calls : List Call), ∀ snapshot ∈ (new.performAll calls).snapshots, snapshot.Coherent := by
  intro coherent
  have stamped := (coherent [.discoverAllTargets TargetCatalog.unlockedView, .refreshGeneration] _
    (current_mem_snapshots _)).stamped
  revert stamped
  unfold CatalogSnapshot.Stamped
  decide +kernel

end SharedCatalog

end CacheCleaner
