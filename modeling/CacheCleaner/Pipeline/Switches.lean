import CacheCleaner.Pipeline.Eligibility
import CacheCleaner.Pipeline.Protected

namespace CacheCleaner

open Effect Effect.Program

inductive Switch where
  | cleanAppCache | cleanCodeCache | cleanCrashDumps | cleanOemLogs | cleanTempApks
  deriving DecidableEq, Repr

namespace Switch

instance (holds : Switch → Prop) [DecidablePred holds] : Decidable (∀ switch, holds switch) :=
  decidable_of_iff (holds .cleanAppCache ∧ holds .cleanCodeCache ∧ holds .cleanCrashDumps ∧
      holds .cleanOemLogs ∧ holds .cleanTempApks)
    ⟨fun ⟨_, _, _, _, _⟩ switch => by cases switch <;> assumption,
      fun all => ⟨all _, all _, all _, all _, all _⟩⟩

def governs : Switch → TargetClass → Bool
  | .cleanAppCache, .appCache | .cleanAppCache, .externalCache => true
  | .cleanCodeCache, .codeCache => true
  | .cleanCrashDumps, .tombstones => true
  | .cleanOemLogs, .logArchive => true
  | .cleanTempApks, .tempDir => true
  | _, _ => false

def set (switch : Switch) (value : Bool) (rules : CleaningRulesConfig) : CleaningRulesConfig :=
  match switch with
  | .cleanAppCache => { rules with cleanAppCache := value }
  | .cleanCodeCache => { rules with cleanCodeCache := value }
  | .cleanCrashDumps => { rules with cleanCrashDumps := value }
  | .cleanOemLogs => { rules with cleanOemLogs := value }
  | .cleanTempApks => { rules with cleanTempApks := value }

end Switch

def CleaningRulesConfig.allOff (rules : CleaningRulesConfig) : CleaningRulesConfig :=
  ⟨false, false, false, false, false, rules.minFileAgeHours⟩

section

variable (config : DaemonConfig)

def DaemonConfig.withRules (rules : CleaningRulesConfig) : DaemonConfig :=
  { config with cleaning := rules }

def PassesOtherwise (now : UnixTimestamp) (target : TargetDescriptor)
    (candidate : Candidate) : Bool :=
  target.isMutationAllowed && decide (candidate.targetId = target.targetId) &&
    decide (candidate.identity.dev = target.dev) && decide (candidate.relPath.raw ≠ "") &&
    decide (SafetyGate.verifyTargetRootSafety target.basePath = .ok ()) &&
    !config.whitelists target && !PolicyEngine.protectedBytecode candidate.relPath.raw &&
    (candidate.isDir || decide (config.retentionSecs ≤ UnixTimestamp.ageSecs candidate.mtime now))

def Passes (now : UnixTimestamp) (target : TargetDescriptor)
    (candidate : Candidate) : Bool :=
  config.cleans target.targetClass && PassesOtherwise config now target candidate

def passing (now : UnixTimestamp)
    (scanned : List (TargetDescriptor × List Candidate)) : List Candidate :=
  scanned.flatMap fun scan => scan.2.filter (Passes config now scan.1)

end

namespace AuthoritativeCleanPipeline

def withRules (pipeline : Pipeline) (rules : CleaningRulesConfig) :
    Pipeline :=
  { pipeline with config := pipeline.config.withRules rules }

def objects (env : Env) (world : World) (orders : HashOrders) (admission : JobAdmissionRequest)
    (pipeline : Pipeline) : List OperationType :=
  match ((survey pipeline orders admission).run env.handler world).1 with
  | some (.ok survey) =>
    match survey.plan pipeline orders admission with
    | .ok plan => plan.operations.map PlannedOperation.opType
    | .error _ => []
  | _ => []

variable {pipeline : Pipeline} {orders : HashOrders}
  {admission : JobAdmissionRequest} {env : Env} {world after : World} {survey : Survey}
  {config : DaemonConfig} {now : UnixTimestamp}

theorem permit?_candidate (carried : config.Carried validated) (generation : ConfigGeneration)
    (isFrozen : Bool) (target : TargetDescriptor) (candidate : Candidate) :
    (permit? ⟨generation, validated⟩ now isFrozen target candidate).map
        (fun permit => permit.candidate.candidate) =
      if Passes config now target candidate then some candidate else none := by
  rw [Option.ext_iff]
  intro other
  simp only [Option.map_eq_some_iff, permit?_eq_some_iff, Unopposed, carried.category,
    carried.package, PolicyEngine.withinGracePeriod, carried.age, Option.ite_none_right_eq_some,
    Passes, PassesOtherwise, Bool.and_eq_true, Bool.or_eq_true, Bool.not_eq_true',
    decide_eq_true_eq, Bool.not_eq_false', Bool.and_eq_false_iff, decide_eq_false_iff_not,
    Nat.not_lt]
  constructor
  · rintro ⟨_, ⟨own, ⟨tier, device, beneath, root, category, package, bytecode, age⟩, rfl⟩, rfl⟩
    exact ⟨⟨category, ⟨⟨⟨⟨⟨⟨tier, own⟩, device⟩, beneath⟩, root⟩, package⟩, bytecode⟩, age⟩, rfl⟩
  · rintro ⟨⟨category, ⟨⟨⟨⟨⟨⟨tier, own⟩, device⟩, beneath⟩, root⟩, package⟩, bytecode⟩, age⟩, same⟩
    cases same
    exact ⟨_, ⟨own, ⟨tier, device, beneath, root, category, package, bytecode, age⟩, rfl⟩, rfl⟩

theorem permits_candidates (carried : config.Carried validated) (generation : ConfigGeneration)
    (frozenUids : List Nat) (scanned : List (TargetDescriptor × List Candidate)) :
    (permits ⟨generation, validated⟩ now frozenUids scanned).map
        (fun permit => permit.candidate.candidate) = passing config now scanned := by
  unfold permits passing
  rw [List.map_flatMap]
  refine List.flatMap_congr fun scan _ => ?_
  change (scan.2.filterMap (permit? _ now _ scan.1)).map _ = _
  rw [List.map_filterMap, ← List.filterMap_eq_filter]
  refine List.filterMap_congr fun candidate _ => ?_
  rw [permit?_candidate carried]
  rfl

theorem exists_fromRaw_withRules (rules : CleaningRulesConfig)
    (read : ValidatedConfig.fromRaw (config.toRaw dryRun) = some (.ok validated)) :
    ∃ validated', ValidatedConfig.fromRaw ((config.withRules rules).toRaw dryRun) =
      some (.ok validated') := by
  unfold ValidatedConfig.fromRaw DaemonConfig.toRaw at *
  simp only [Option.getD_some, DaemonConfig.withRules] at read ⊢
  repeat' split at read
  all_goals cases read
  exact ⟨_, rfl⟩

theorem mem_objects (rules : CleaningRulesConfig)
    (surveyed : (pipeline.survey orders admission).run env.handler world =
      (some (.ok survey), after)) {object : OperationType} :
    object ∈ objects env world orders admission (pipeline.withRules rules) ↔
      (passing (pipeline.config.withRules rules) survey.now survey.scanned).length ≤
          CleanupPlanner.defaultMaxOperationsPerPlan ∧
        ∃ candidate ∈ passing (pipeline.config.withRules rules) survey.now survey.scanned,
          CleanupPlanner.removal candidate = object := by
  unfold AuthoritativeCleanPipeline.survey at surveyed
  split at surveyed
  · cases surveyed
  · cases surveyed
  · rename_i validated read
    obtain ⟨validated', read'⟩ := exists_fromRaw_withRules rules read
    have carried := DaemonConfig.carried_of_fromRaw read'
    have same : ((pipeline.withRules rules).survey orders admission).run env.handler world =
        (some (.ok { survey with config := ⟨pipeline.configGeneration, validated'⟩ }), after) := by
      obtain ⟨frozenUids, later, asked, rest⟩ := exists_of_run_bind _ surveyed
      obtain ⟨now, then_, timed, rest⟩ := exists_of_run_bind _ rest
      obtain ⟨⟨scanned, nextId⟩, final, scan, rest⟩ := exists_of_run_bind _ rest
      cases rest
      unfold AuthoritativeCleanPipeline.survey withRules
      simp only [read']
      rw [run_bind_some _ asked, run_bind_some _ timed, run_bind_some _ scan]
      rfl
    unfold objects
    rw [same, ← permits_candidates carried pipeline.configGeneration survey.frozenUids,
      List.length_map]
    simp only [Survey.plan, Survey.permits, List.mem_map, exists_exists_and_eq_and]
    generalize permits _ survey.now survey.frozenUids survey.scanned = allowed
    by_cases bounded : allowed.length ≤ CleanupPlanner.defaultMaxOperationsPerPlan
    · obtain ⟨plan, built, plans⟩ := CleanupPlanner.buildPlan_ok orders.paths bounded
        admission.jobId (pipeline.withRules rules).catalog.generation admission.configGeneration
      simp only [built, bounded, plans.removals, List.mem_map, CleanupPlanner.mem_planningOrder,
        true_and]
    · simp [CleanupPlanner.buildPlan, Nat.lt_of_not_le bounded, bounded]

theorem Passes.set_eq (config : DaemonConfig) (switch : Switch) (value : Bool)
    (rules : CleaningRulesConfig) (now : UnixTimestamp) (target : TargetDescriptor)
    (candidate : Candidate) :
    Passes (config.withRules (switch.set value rules)) now target candidate =
      ((config.withRules (switch.set value rules)).cleans target.targetClass &&
        PassesOtherwise (config.withRules rules) now target candidate) := by
  cases switch <;> rfl

theorem Switch.cleans_set (config : DaemonConfig) (switch : Switch) (rules : CleaningRulesConfig)
    (targetClass : TargetClass) :
    ((config.withRules (switch.set false rules)).cleans targetClass = true →
      (config.withRules (switch.set true rules)).cleans targetClass = true) ∧
    ((config.withRules (switch.set true rules)).cleans targetClass = true →
      (config.withRules (switch.set false rules)).cleans targetClass = false →
        switch.governs targetClass = true) := by
  cases switch <;> cases targetClass <;>
    simp [DaemonConfig.cleans, Switch.set, DaemonConfig.withRules, Switch.governs]

theorem passing_set_sublist (config : DaemonConfig) (switch : Switch) (rules : CleaningRulesConfig)
    (now : UnixTimestamp) (scanned : List (TargetDescriptor × List Candidate)) :
    (passing (config.withRules (switch.set false rules)) now scanned).Sublist
      (passing (config.withRules (switch.set true rules)) now scanned) := by
  induction scanned with
  | nil => exact .refl _
  | cons scan rest ih =>
    refine (List.monotone_filter_right scan.2 fun candidate passes => ?_).append ih
    rw [Passes.set_eq, Bool.and_eq_true] at passes ⊢
    exact ⟨(Switch.cleans_set config switch rules _).1 passes.1, passes.2⟩

/-- The switches mean what they say for the plans of one survey: turning one on
removes nothing and adds objects of its classes only, and with all of them off
nothing is planned. -/
structure SwitchesHonoured (env : Env) (world : World) (orders : HashOrders)
    (admission : JobAdmissionRequest) (pipeline : Pipeline) (survey : Survey) :
    Prop where
  removesNothing : ∀ switch : Switch, ∀ object ∈ objects env world orders admission
    (pipeline.withRules (switch.set false pipeline.config.cleaning)),
      object ∈ objects env world orders admission
        (pipeline.withRules (switch.set true pipeline.config.cleaning))
  addsOwn : ∀ switch : Switch, ∀ object ∈ objects env world orders admission
    (pipeline.withRules (switch.set true pipeline.config.cleaning)),
      object ∉ objects env world orders admission
        (pipeline.withRules (switch.set false pipeline.config.cleaning)) →
      ∃ scan ∈ survey.scanned, switch.governs scan.1.targetClass = true ∧
        ∃ path, object.removedEntry = some (scan.1.targetId, path)
  allOff : objects env world orders admission
    (pipeline.withRules pipeline.config.cleaning.allOff) = []

/-- Turning a switch on does not take a plan beyond its budget, and without any
switch nothing passes. -/
def SwitchesFit (pipeline : Pipeline) (survey : Survey) : Prop :=
  let among := fun rules => passing (pipeline.config.withRules rules) survey.now survey.scanned
  let budget := CleanupPlanner.defaultMaxOperationsPerPlan
  (∀ switch : Switch, among (switch.set false pipeline.config.cleaning) = [] ∨
    budget < (among (switch.set false pipeline.config.cleaning)).length ∨
    (among (switch.set true pipeline.config.cleaning)).length ≤ budget) ∧
  (among pipeline.config.cleaning.allOff = [] ∨
    budget < (among pipeline.config.cleaning.allOff).length)

theorem switchesHonoured_iff (surveyed : (pipeline.survey orders admission).run env.handler world =
      (some (.ok survey), after)) : SwitchesHonoured env world orders admission pipeline survey ↔
      SwitchesFit pipeline survey := by
  constructor
  · intro honoured
    constructor
    · intro switch
      by_contra! exceeds
      obtain ⟨some, within, beyond⟩ := exceeds
      obtain ⟨candidate, member⟩ := List.exists_mem_of_ne_nil _ some
      have kept := honoured.removesNothing switch (CleanupPlanner.removal candidate)
        ((mem_objects _ surveyed).mpr ⟨within, candidate, member, rfl⟩)
      exact absurd ((mem_objects _ surveyed).mp kept).1 (Nat.not_le.mpr beyond)
    · by_contra! left
      obtain ⟨some, within⟩ := left
      obtain ⟨candidate, member⟩ := List.exists_mem_of_ne_nil _ some
      have planned := (mem_objects _ surveyed).mpr ⟨within, candidate, member, rfl⟩
      rw [honoured.allOff] at planned
      cases planned
  · rintro ⟨budget, dark⟩
    refine ⟨fun switch object planned => ?_, fun switch object planned fresh => ?_, ?_⟩
    · obtain ⟨within, candidate, member, removed⟩ := (mem_objects _ surveyed).mp planned
      have kept := passing_set_sublist pipeline.config switch pipeline.config.cleaning survey.now
        survey.scanned
      refine (mem_objects _ surveyed).mpr ⟨?_, candidate, kept.subset member, removed⟩
      rcases budget switch with none | above | fits
      · exact absurd none (List.ne_nil_of_mem member)
      · exact absurd within (Nat.not_le.mpr above)
      · exact fits
    · obtain ⟨within, candidate, member, removed⟩ := (mem_objects _ surveyed).mp planned
      have kept := passing_set_sublist pipeline.config switch pipeline.config.cleaning survey.now
        survey.scanned
      obtain ⟨scan, scanned, inside⟩ := List.mem_flatMap.mp member
      obtain ⟨found, passes⟩ := List.mem_filter.mp inside
      have fails : Passes (pipeline.config.withRules (switch.set false pipeline.config.cleaning))
          survey.now scan.1 candidate = false := by
        rw [Bool.eq_false_iff]
        intro passes
        exact fresh ((mem_objects _ surveyed).mpr ⟨Nat.le_trans kept.length_le within, candidate,
          List.mem_flatMap.mpr ⟨scan, scanned, List.mem_filter.mpr ⟨found, passes⟩⟩, removed⟩)
      rw [Passes.set_eq, Bool.and_eq_true] at passes
      rw [Passes.set_eq, passes.2, Bool.and_true] at fails
      refine ⟨scan, scanned, (Switch.cleans_set _ switch _ _).2 passes.1 fails,
        candidate.relPath, ?_⟩
      have own : candidate.targetId = scan.1.targetId := by
        have otherwise := passes.2
        simp only [PassesOtherwise, Bool.and_eq_true, decide_eq_true_eq] at otherwise
        exact otherwise.1.1.1.1.1.1.2
      rw [← removed, CleanupPlanner.removedEntry_removal, own]
    · rw [List.eq_nil_iff_forall_not_mem]
      intro object planned
      obtain ⟨within, candidate, member, -⟩ := (mem_objects _ surveyed).mp planned
      rcases dark with none | above
      · exact List.ne_nil_of_mem member none
      · exact absurd within (Nat.not_le.mpr above)

instance : Decidable (SwitchesFit pipeline survey) := inferInstanceAs (Decidable (_ ∧ _))

structure ColdTarget extends TargetDescriptor where
  cold : safetyTier = .requiresColdApp

/-- Nothing of a cold application's target is permitted unless it is frozen,
exactly when it is or some rule refuses each candidate: frozen applications are
preferred, not required. -/
theorem cold_permitted_iff (config : EffectiveConfig) (now : UnixTimestamp) (frozenUids : List Nat)
    (target : ColdTarget) (candidates : List Candidate) :
    (permitted config now frozenUids target.toTargetDescriptor candidates ≠ [] →
        target.ownerUid ∈ frozenUids) ↔ target.ownerUid ∈ frozenUids ∨ ∀ candidate ∈ candidates,
        candidate.targetId = target.targetId →
          ¬ Unopposed config now target.toTargetDescriptor candidate := by
  constructor
  · intro only
    by_cases frozen : target.ownerUid ∈ frozenUids
    · exact .inl frozen
    · right
      intro candidate member own unopposed
      obtain ⟨permit, granted, -⟩ := exists_mem_permitted member own unopposed
      exact frozen (only (List.ne_nil_of_mem granted))
  · rintro (frozen | refused) some
    · exact frozen
    · obtain ⟨permit, granted⟩ := List.exists_mem_of_ne_nil _ some
      obtain ⟨member, own, unopposed⟩ := mem_permitted granted
      exact absurd unopposed (refused _ member own)

end AuthoritativeCleanPipeline

namespace Device

open AuthoritativeCleanPipeline

def cached : Pipeline :=
  { start.withRules start.config.cleaning.allOff with
    catalog := { start.catalog with
      targets := start.catalog.targets.update (fun _ => true)
        (fun target => { target with targetClass := .appCache }) fun _ => rfl } }

end Device

open AuthoritativeCleanPipeline in
theorem running_app_permitted : ∃ (config : EffectiveConfig) (target : ColdTarget)
    (candidate : Candidate), candidate.targetId = target.targetId ∧ target.ownerUid = 10001 ∧
      permitted config 1000000 [] target.toTargetDescriptor [candidate] ≠ [] :=
  ⟨⟨.initial, ⟨3600, 180, .degrees 45, .degrees 45, 86400, 0, false, true, false, false, false,
      false, [], [], 0, 0⟩⟩,
    ⟨⟨⟨"app"⟩, .appCache, "/data/data/app/cache", 1, 4, 10001, 10001, some "app", .requiresColdApp,
      .initial⟩, rfl⟩,
    ⟨⟨1⟩, ⟨"app"⟩, ⟨"f", by decide, by decide, by decide⟩, ⟨1, 5⟩, 5, 0, false, false⟩,
    rfl, rfl, by decide +kernel⟩

open Device AuthoritativeCleanPipeline in
theorem switchesHonoured_device : ∃ survey after,
    (start.survey orders request).run env.handler origin = (some (.ok survey), after) ∧
      SwitchesHonoured env origin orders request start survey := by
  obtain ⟨survey, plan, after, surveyed, -, fits⟩ := exists_of_planning start origin
    (fun survey _ => decide (SwitchesFit start survey)) (by decide +kernel)
  exact ⟨survey, after, surveyed, (switchesHonoured_iff surveyed).mpr (of_decide_eq_true fits)⟩

open Device AuthoritativeCleanPipeline in
/-- With every switch off a file in the cache of an application is planned. -/
theorem cache_planned_with_switches_off : cached.config.cleaning = start.config.cleaning.allOff ∧
      objects env origin orders request cached ≠ [] := by
  decide +kernel

end CacheCleaner
