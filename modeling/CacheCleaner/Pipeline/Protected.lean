import CacheCleaner.Config.Agreement
import CacheCleaner.Engine.Parts
import CacheCleaner.Pipeline.Session

namespace CacheCleaner

open Effect Effect.Program

/-- A path beneath a target that the configuration protects, by its absolute
path or by the name of a component. -/
def Protected (config : DaemonConfig) (effective : EffectiveConfig)
    (target : TargetDescriptor) (path : RelativePath) : Prop :=
  effective.isPathProtected (pathJoin target.basePath path.raw) = true ∨
    ∃ name ∈ path.names, name ∈ config.safety.protectedDirectoryNames

instance (config : DaemonConfig) (effective : EffectiveConfig)
    (target : TargetDescriptor) (path : RelativePath) :
    Decidable (Protected config effective target path) :=
  inferInstanceAs (Decidable (_ ∨ _))

/-- No rule of the gate or of the policy speaks against a candidate of a
target. -/
def Unopposed (config : EffectiveConfig) (now : UnixTimestamp)
    (target : TargetDescriptor) (candidate : Candidate) : Prop :=
  target.isMutationAllowed = true ∧
    candidate.identity.dev = target.dev ∧ candidate.relPath.raw ≠ "" ∧
    SafetyGate.verifyTargetRootSafety target.basePath = .ok () ∧
    PolicyEngine.categoryDisabled config.validated target.targetClass = false ∧
    PolicyEngine.packageWhitelisted config target = false ∧
    PolicyEngine.protectedBytecode candidate.relPath.raw = false ∧
    PolicyEngine.withinGracePeriod config.validated candidate now = false

namespace AuthoritativeCleanPipeline

section

variable {config : EffectiveConfig} {now : UnixTimestamp} {frozenUids : List Nat}

theorem permit?_eq_some_iff : permit? config now isFrozen target candidate = some permit ↔
      candidate.targetId = target.targetId ∧ Unopposed config now target candidate ∧
        permit = ⟨⟨candidate, target.dev, target.ino⟩, if isFrozen then 200 else 100,
          .exceedsRetentionAge⟩ := by
  have policy (validated : SafetyValidatedCandidate) :=
    @PolicyEngine.evaluateCandidateWithFreezer_allow_iff validated target config now isFrozen permit
  constructor
  · intro judged
    unfold permit? at judged
    split at judged
    · cases judged
    · rename_i validated gate
      obtain ⟨allowed, own, device, nonempty, root, rfl⟩ :=
        SafetyGate.validateCandidate_ok_iff.mp gate
      split at judged
      · rename_i granted verdict
        cases judged
        obtain ⟨category, package, bytecode, age, same⟩ := (policy _).mp verdict
        exact ⟨own, ⟨allowed, device, nonempty, root, category, package, bytecode, age⟩, same⟩
      · cases judged
  · rintro ⟨own, ⟨allowed, device, nonempty, root, category, package, bytecode, age⟩, same⟩
    have gate := SafetyGate.validateCandidate_ok_iff.mpr ⟨allowed, own, device, nonempty, root, rfl⟩
    have verdict := (policy ⟨candidate, target.dev, target.ino⟩).mpr
      ⟨category, package, bytecode, age, same⟩
    simp only [permit?, gate, verdict]

theorem mem_permitted (mem : permit ∈ permitted config now frozenUids target candidates) :
    permit.candidate.candidate ∈ candidates ∧
      permit.candidate.candidate.targetId = target.targetId ∧
      Unopposed config now target permit.candidate.candidate := by
  obtain ⟨candidate, inside, judged⟩ := List.mem_filterMap.mp mem
  obtain ⟨own, unopposed, rfl⟩ := permit?_eq_some_iff.mp judged
  exact ⟨inside, own, unopposed⟩

theorem exists_mem_permitted (mem : candidate ∈ candidates)
    (own : candidate.targetId = target.targetId)
    (unopposed : Unopposed config now target candidate) :
    ∃ permit ∈ permitted config now frozenUids target candidates,
      permit.candidate.candidate = candidate :=
  ⟨_, List.mem_filterMap.mpr ⟨candidate, mem, permit?_eq_some_iff.mpr ⟨own, unopposed, rfl⟩⟩, rfl⟩

theorem mem_permits : permit ∈ permits config now frozenUids scanned ↔ ∃ scan ∈ scanned,
        permit ∈ permitted config now frozenUids scan.1 scan.2 :=
  List.mem_flatMap

end

structure Survey where
  config : EffectiveConfig
  frozenUids : List Nat
  now : UnixTimestamp
  scanned : List (TargetDescriptor × List Candidate)
  nextId : Nat

def survey (pipeline : Pipeline) (orders : HashOrders)
    (admission : JobAdmissionRequest) : Act (Result Survey) :=
  match ValidatedConfig.fromRaw (pipeline.config.toRaw admission.dryRun) with
  | none => .abort
  | some (.error error) => pure (.error error)
  | some (.ok validated) => do
    let frozenUids ← ask .frozenUids
    let now ← ask .now
    let (scanned, nextId) ← scanTargets (orders.targets.order pipeline.catalog.targets.rows)
      pipeline.counters.candidate
    pure (.ok ⟨⟨pipeline.configGeneration, validated⟩, frozenUids, now, scanned, nextId⟩)

def Survey.permits (survey : Survey) : List PolicyPermit :=
  AuthoritativeCleanPipeline.permits survey.config survey.now survey.frozenUids survey.scanned

def Survey.plan (survey : Survey) (pipeline : Pipeline)
    (orders : HashOrders) (admission : JobAdmissionRequest) : Result PlannedPlan :=
  CleanupPlanner.buildPlan orders.paths admission.jobId
    pipeline.catalog.generation admission.configGeneration survey.permits

theorem runPipelineJob_eq_survey (pipeline : Pipeline)
    (orders : HashOrders) (admission : JobAdmissionRequest) (attempt : AttemptId) :
    runPipelineJob pipeline orders admission attempt = (do
        match ← survey pipeline orders admission with
        | .error error => pure (.error error, pipeline.counters)
        | .ok survey =>
          planAndRun pipeline orders admission attempt survey.permits
            { pipeline.counters with candidate := survey.nextId }) := by
  unfold runPipelineJob survey
  cases ValidatedConfig.fromRaw (pipeline.config.toRaw admission.dryRun) with
  | none => rfl
  | some checked =>
    cases checked with
    | error error => rfl
    | ok validated =>
      simp only [Program.bind_assoc]
      rfl

inductive Gathered (fs : Fs) (openat2 : Bool) : List TargetDescriptor →
    List (TargetDescriptor × List Candidate) → Prop
  | stopped : Gathered fs openat2 targets []
  | scanned {target : TargetDescriptor} (part : fs.TargetPart openat2 target seen)
      (shown : candidates.map Candidate.unnumbered = seen.map (Found.candidate target))
      (later : Gathered fs openat2 rest others) :
      Gathered fs openat2 (target :: rest) ((target, candidates) :: others)

theorem scanTargets_ends {env : Env} {world : World} {targets : List TargetDescriptor} :
    Ends env.handler
      (fun result final => final.fs = world.fs ∧ Gathered world.fs env.openat2 targets result.1)
      (¬ ∀ target ∈ targets, CandidateScanner.Fit (world.fs.reachTarget env.openat2 target))
      (scanTargets targets nextId) world := by
  induction targets generalizing nextId world with
  | nil => exact ⟨rfl, .stopped⟩
  | cons target rest ih =>
    refine Rules.quiet_ends rfl fun cancelled _ => ?_
    cases cancelled with
    | true => exact ⟨rfl, .stopped⟩
    | false =>
      have part := CandidateScanner.glimpsed_part env world.fs target (world.tick + 1)
      refine Ends.bind ((CandidateScanner.scanTargetWithResource_glimpses env target world.advance
        nextId).mono (fun _ _ ended => ended) fun unfit fit => ?_) ?_
      · exact unfit fun found mem => fit target (List.mem_cons_self ..) found
          (part.sublist.subset mem)
      · rintro ⟨result, nextId⟩ middle ⟨fs, -, shown⟩
        refine Ends.bind (ih.mono (fun _ _ ended => ended) fun unfit fit => ?_) ?_
        · rw [fs] at unfit
          exact unfit fun other mem => fit other (List.mem_cons_of_mem _ mem)
        · rintro ⟨others, nextId⟩ final ⟨same, gathered⟩
          rw [fs] at same gathered
          exact ⟨same, .scanned part shown gathered⟩

theorem Gathered.sees {scanned : List (TargetDescriptor × List Candidate)}
    (gathered : Gathered fs openat2 targets scanned) : ∀ scan ∈ scanned, scan.1 ∈ targets ∧
      ∀ candidate ∈ scan.2, ∃ found ∈ fs.reachTarget openat2 scan.1,
        candidate.unnumbered = found.candidate scan.1 := by
  induction gathered with
  | stopped => exact List.forall_mem_nil _
  | scanned part shown _ ih =>
    refine List.forall_mem_cons.mpr ⟨⟨List.mem_cons_self .., fun candidate mem => ?_⟩,
      fun scan mem => (ih scan mem).imp_left (List.mem_cons_of_mem _)⟩
    have listed := List.mem_map_of_mem (f := Candidate.unnumbered) mem
    rw [shown] at listed
    obtain ⟨found, inside, same⟩ := List.mem_map.mp listed
    exact ⟨found, part.sublist.subset inside, same.symm⟩

/-- A survey goes by its configuration, and what it found is in the tree beneath the targets
of the catalog. -/
structure Survey.Faithful (pipeline : Pipeline) (admission : JobAdmissionRequest)
    (fs : Fs) (openat2 : Bool) (survey : Survey) : Prop where
  read : ValidatedConfig.fromRaw (pipeline.config.toRaw admission.dryRun) =
    some (.ok survey.config.validated)
  found : ∀ scan ∈ survey.scanned, scan.1 ∈ pipeline.catalog.targets ∧ ∀ candidate ∈ scan.2,
    ∃ found ∈ fs.reachTarget openat2 scan.1, candidate.unnumbered = found.candidate scan.1

theorem survey_faithful {env : Env} {world after : World} {survey : Survey}
    (surveyed : (pipeline.survey orders admission).run env.handler world =
      (some (.ok survey), after)) : survey.Faithful pipeline admission world.fs env.openat2 := by
  have ends : Ends env.handler (fun (result : Result Survey) _ => ∀ survey, result = .ok survey →
      survey.Faithful pipeline admission world.fs env.openat2) True
      (pipeline.survey orders admission) world := by
    unfold AuthoritativeCleanPipeline.survey
    split
    · trivial
    · rintro survey ⟨⟩
    · rename_i validated read
      refine Rules.quiet_ends rfl fun frozenUids _ => Rules.quiet_ends rfl fun now _ => ?_
      refine Ends.bind (scanTargets_ends.mono (fun _ _ ended => ended) fun _ => trivial) ?_
      rintro ⟨scanned, nextId⟩ final ⟨-, gathered⟩ survey ⟨⟩
      exact ⟨read, fun scan mem => (gathered.sees scan mem).imp_left orders.targets.mem_order.mp⟩
  exact ends.run_post surveyed survey rfl

def Survey.Honours (survey : Survey) (pipeline : Pipeline)
    (plan : PlannedPlan) : Prop :=
  ∀ scan ∈ survey.scanned, ∀ candidate ∈ scan.2,
    Protected pipeline.config survey.config scan.1 candidate.relPath →
      ∀ op ∈ plan.operations, op.opType ≠ CleanupPlanner.removal candidate

/-- Every protected candidate of the survey is refused for another reason. -/
def Survey.Spares (survey : Survey) (pipeline : Pipeline) : Prop :=
  ∀ scan ∈ survey.scanned, ∀ candidate ∈ scan.2,
    Protected pipeline.config survey.config scan.1 candidate.relPath →
      ¬ Unopposed survey.config survey.now scan.1 candidate

instance (survey : Survey) (pipeline : Pipeline)
    (plan : PlannedPlan) : Decidable (survey.Honours pipeline plan) := by
  unfold Survey.Honours
  infer_instance

instance (survey : Survey) (pipeline : Pipeline) :
    Decidable (survey.Spares pipeline) := by
  unfold Survey.Spares Unopposed
  infer_instance

end AuthoritativeCleanPipeline

theorem CleanupPlanner.eq_of_removal_eq (same : removal left = removal right) :
    left.targetId = right.targetId ∧ left.relPath = right.relPath := by
  unfold removal at same
  split at same <;> split at same <;> simp_all

open AuthoritativeCleanPipeline in
/-- A job plans no protected path exactly when some rule that does not know of
protected paths speaks against every protected candidate. -/
theorem protected_candidates_unplanned_iff
    {pipeline : Pipeline} {orders : HashOrders}
    {admission : JobAdmissionRequest} {env : Env} {world after : World}
    {survey : Survey} {plan : PlannedPlan}
    (surveyed : (pipeline.survey orders admission).run env.handler world =
      (some (.ok survey), after)) (planned : survey.plan pipeline orders admission = .ok plan) :
    survey.Honours pipeline plan ↔ survey.Spares pipeline := by
  have faithful := (survey_faithful surveyed).found
  have own {scan candidate} (scanned : scan ∈ survey.scanned) (member : candidate ∈ scan.2) :
      candidate.targetId = scan.1.targetId := by
    obtain ⟨found, -, same⟩ := (faithful scan scanned).2 candidate member
    exact congrArg Candidate.targetId same
  have removals := (CleanupPlanner.buildPlan_plans planned).removals
  constructor
  · intro honours scan scanned candidate member shielded unopposed
    obtain ⟨permit, permitted, same⟩ := exists_mem_permitted member
      (own scanned member) unopposed
    have listed : CleanupPlanner.removal candidate ∈
        plan.operations.map PlannedOperation.opType := by
      rw [removals, ← same]
      exact List.mem_map_of_mem (CleanupPlanner.mem_planningOrder.mpr
        (mem_permits.mpr ⟨scan, scanned, permitted⟩))
    obtain ⟨op, inside, removes⟩ := List.mem_map.mp listed
    exact honours scan scanned candidate member shielded op inside removes
  · intro spares scan scanned candidate member shielded op inside removes
    have listed : CleanupPlanner.removal candidate ∈ plan.operations.map PlannedOperation.opType :=
      removes ▸ List.mem_map_of_mem inside
    rw [removals] at listed
    obtain ⟨permit, ordered, same⟩ := List.mem_map.mp listed
    obtain ⟨other, scanned', permitted⟩ :=
      mem_permits.mp (CleanupPlanner.mem_planningOrder.mp ordered)
    obtain ⟨member', own', unopposed⟩ := mem_permitted permitted
    obtain ⟨id, path⟩ := CleanupPlanner.eq_of_removal_eq same
    -- The permit is for the same path of the same target.
    have targets : other.1 = scan.1 :=
      Table.eq_of_key_eq (faithful other scanned').1 (faithful scan scanned).1
        (own'.symm.trans (id.trans (own scanned member)))
    refine spares other scanned' _ member' ?_ unopposed
    rw [targets, path]
    exact shielded

namespace Device

open AuthoritativeCleanPipeline

theorem accepted (dryRun : Bool) : ∃ validated,
    ValidatedConfig.fromRaw (config.toRaw dryRun) = some (.ok validated) :=
  (fromRaw_toRaw_ok_iff config dryRun).mpr ⟨by decide +kernel, by decide +kernel, _, rfl⟩

def request : JobAdmissionRequest :=
  ⟨⟨1⟩, .periodicMaintenance, false, false, false, start.catalog.generation, .initial, 1000000⟩

def planning (pipeline : Pipeline) (world : World)
    (test : Survey → PlannedPlan → Bool) : Bool :=
  match (pipeline.survey orders request).run env.handler world with
  | (some (.ok survey), _) =>
    match survey.plan pipeline orders request with
    | .ok plan => test survey plan
    | .error _ => false
  | _ => false

theorem exists_of_planning (pipeline : Pipeline) (world : World)
    (test : Survey → PlannedPlan → Bool) (passed : planning pipeline world test = true) :
    ∃ survey plan after, (pipeline.survey orders request).run env.handler world =
        (some (.ok survey), after) ∧ survey.plan pipeline orders request = .ok plan ∧
      test survey plan = true := by
  unfold planning at passed
  split at passed
  · rename_i survey after surveyed
    split at passed
    · rename_i plan planned
      exact ⟨survey, plan, after, surveyed, planned, passed⟩
    · cases passed
  · cases passed

def guarded : Pipeline :=
  { start with
    config := { config with safety := ⟨[], ["/data/local/tmp", "f"]⟩ } }

end Device

open Device AuthoritativeCleanPipeline in
theorem unprotected_file_planned_alone : ∃ survey plan after,
      (start.survey orders request).run env.handler origin = (some (.ok survey), after) ∧
      survey.plan start orders request = .ok plan ∧
      plan.operations.length = 1 ∧ survey.Honours start plan := by
  obtain ⟨survey, plan, after, surveyed, planned, passed⟩ :=
    exists_of_planning start origin (fun survey plan =>
        decide (plan.operations.length = 1 ∧ survey.Spares start))
      (by decide +kernel)
  obtain ⟨single, spares⟩ := of_decide_eq_true passed
  exact ⟨survey, plan, after, surveyed, planned, single,
    (protected_candidates_unplanned_iff surveyed planned).mpr spares⟩

open Device AuthoritativeCleanPipeline in
/-- A file protected by its path and by its name is planned, and a call
deletes it. -/
theorem protected_file_planned_and_deleted : (∃ survey plan after,
      (guarded.survey orders request).run env.handler origin = (some (.ok survey), after) ∧
      survey.plan guarded orders request = .ok plan ∧
      survey.config.isPathProtected "/data/local/tmp/f" = true ∧
      "f" ∈ guarded.config.safety.protectedDirectoryNames ∧ ¬ survey.Honours guarded plan) ∧
    (origin.fs.child ⟨1, 4⟩ "f").isSome = true ∧
    ((execute guarded realCall origin).2.fs.child ⟨1, 4⟩ "f").isNone = true := by
  refine ⟨?_, by decide +kernel, by decide +kernel⟩
  obtain ⟨survey, plan, after, surveyed, planned, passed⟩ :=
    exists_of_planning guarded origin (fun survey plan => decide
        (survey.config.isPathProtected "/data/local/tmp/f" = true ∧ ¬ survey.Honours guarded plan))
      (by decide +kernel)
  obtain ⟨shielded, planned'⟩ := of_decide_eq_true passed
  exact ⟨survey, plan, after, surveyed, planned, shielded, by decide, planned'⟩

end CacheCleaner
