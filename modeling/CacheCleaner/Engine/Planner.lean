import CacheCleaner.Domain.Plan

namespace CacheCleaner

namespace CleanupPlanner

def defaultMaxOperationsPerPlan : Nat := 10000

def depth (path : RelativePath) : Nat := (splitSlash path.raw.toList).length

def canonicalOrder (left right : PolicyPermit) : Ordering :=
  let a := left.candidate.candidate
  let b := right.candidate.candidate
  (compare a.targetId.val b.targetId.val).then
    ((compare (depth b.relPath) (depth a.relPath)).then
      (compare a.relPath.raw b.relPath.raw))

def sorted (permits : List PolicyPermit) : List PolicyPermit :=
  permits.insertionSort fun left right => (canonicalOrder left right).isLE

abbrev PathIndex := Table (Prod.fst : (TargetId × String) × OperationId → TargetId × String)

structure Draft where
  operations : List PlannedOperation
  nextId : Nat
  totalReclaim : ByteCount
  pathToOpId : PathIndex
  definedOps : List OperationId

def Draft.empty : Draft := ⟨[], 1, 0, Table.empty, []⟩

def Draft.push (draft : Draft) (candidate : Candidate) (opType : OperationType)
    (dependencies : List OperationId) (reclaim : ByteCount) : Draft where
  operations := draft.operations ++ [⟨⟨draft.nextId⟩, opType, dependencies, reclaim⟩]
  nextId := draft.nextId + 1
  totalReclaim := saturatingAdd draft.totalReclaim reclaim
  pathToOpId := draft.pathToOpId.upsert
    ((candidate.targetId, candidate.relPath.raw), ⟨draft.nextId⟩)
  definedOps := draft.definedOps ++ [⟨draft.nextId⟩]

def removal (candidate : Candidate) : OperationType :=
  if candidate.isDir then
    .deleteDirEmpty candidate.targetId candidate.relPath candidate.identity
  else
    .deleteFile candidate.targetId candidate.relPath candidate.identity candidate.sizeBytes

def planFile (draft : Draft) (permit : PolicyPermit) : Draft :=
  let candidate := permit.candidate.candidate
  draft.push candidate (.deleteFile candidate.targetId candidate.relPath candidate.identity
      candidate.sizeBytes) [] candidate.sizeBytes

variable (iteration : IterationOrder ((TargetId × String) × OperationId))

def dependenciesOf
    (draft : Draft) (candidate : Candidate) : List OperationId :=
  let beneath := (iteration.order draft.pathToOpId.rows).filter fun entry =>
    entry.1.1 == candidate.targetId && startsWithText entry.1.2 (candidate.relPath.raw ++ "/")
  let ordered := (beneath.map Prod.snd).insertionSort fun left right =>
    left.val ≤ right.val
  (dedup ordered).filter fun dependency =>
    decide (dependency ∈ draft.definedOps)

def planDirectory
    (draft : Draft) (permit : PolicyPermit) : Draft :=
  let candidate := permit.candidate.candidate
  draft.push candidate (.deleteDirEmpty candidate.targetId candidate.relPath candidate.identity)
    (dependenciesOf iteration draft candidate) 0

/-- The loop of `validate_plan`, with the set of operations seen so far. -/
def checkOperations : List OperationId → List PlannedOperation → Result (List OperationId)
  | seen, [] => .ok seen
  | seen, op :: rest =>
    if op.opId ∈ seen then
      let id := op.opId
      .error (.planValidationFailed s!"Duplicate OperationId {id} detected in plan")
    else
      match op.dependencies.find? fun dependency =>
          decide (dependency ∉ op.opId :: seen) with
      | some dependency =>
        let id := op.opId
        .error (.planValidationFailed (s!"Invalid DAG dependency: Operation {id} depends on " ++
          s!"unfulfilled or succeeding operation {dependency}"))
      | none => checkOperations (op.opId :: seen) rest

def validatePlan (plan : PlannedPlan) : Result Unit :=
  if defaultMaxOperationsPerPlan < plan.operations.length then
    .error (.planBudgetExceeded plan.operations.length defaultMaxOperationsPerPlan)
  else (checkOperations [] plan.operations).map fun _ => ()

def planId (job : JobId) (catalog : CatalogGeneration) : PlanId :=
  ⟨((job.val <<< 16) % 2 ^ 64) ^^^ ((catalog.val <<< 8) % 2 ^ 64) ^^^ 1⟩

def isDirectory (permit : PolicyPermit) : Bool := permit.candidate.candidate.isDir

def planningOrder (permits : List PolicyPermit) : List PolicyPermit :=
  sorted (permits.filter fun permit => !isDirectory permit) ++ sorted (permits.filter isDirectory)

def draft
    (permits : List PolicyPermit) : Draft :=
  (sorted (permits.filter isDirectory)).foldl (planDirectory iteration)
    ((sorted (permits.filter fun permit => !isDirectory permit)).foldl planFile Draft.empty)

/-- `build_plan`; `iteration` is the order in which its hash map is walked. -/
def buildPlan
    (job : JobId) (catalog : CatalogGeneration) (config : ConfigGeneration)
    (permits : List PolicyPermit) : Result PlannedPlan :=
  if defaultMaxOperationsPerPlan < permits.length then
    .error (.planBudgetExceeded permits.length defaultMaxOperationsPerPlan)
  else
    let drafted := draft iteration permits
    let plan : PlannedPlan := {
      planId := planId job catalog
      jobId := job
      catalogGeneration := catalog
      configGeneration := config
      operations := drafted.operations
      totalEstimatedReclaim := drafted.totalReclaim }
    match validatePlan plan with
    | .error error => .error error
    | .ok () => .ok plan

theorem checkOperations_append (op : PlannedOperation)
    (ops : List PlannedOperation) (seen : List OperationId) : checkOperations seen (ops ++ [op]) =
      (checkOperations seen ops).bind fun seen => checkOperations seen [op] := by
  induction ops generalizing seen with
  | nil => rfl
  | cons head rest ih =>
    simp only [List.cons_append, checkOperations]
    split
    · rfl
    · split
      · rfl
      · exact ih _

structure Draft.Sound (draft : Draft) : Prop where
  checked : ∃ seen, checkOperations [] draft.operations = .ok seen ∧
    ∀ id, id ∈ seen ↔ id ∈ draft.definedOps
  fresh : ∀ id ∈ draft.definedOps, id.val < draft.nextId

theorem Draft.Sound.empty : Draft.empty.Sound where
  checked := ⟨[], rfl, fun _ => Iff.rfl⟩
  fresh := by simp [Draft.empty]

theorem Draft.Sound.push {draft : Draft} (sound : draft.Sound)
    (candidate : Candidate) (opType : OperationType) (reclaim : ByteCount)
    (defined : ∀ id ∈ dependencies, id ∈ draft.definedOps) :
    (draft.push candidate opType dependencies reclaim).Sound where
  checked := by
    obtain ⟨seen, checked, same⟩ := sound.checked
    have new : (⟨draft.nextId⟩ : OperationId) ∉ seen := by
      intro mem
      exact Nat.lt_irrefl _ (sound.fresh _ ((same _).mp mem))
    have earlier : dependencies.find? (fun dependency =>
        decide (dependency ∉ (⟨draft.nextId⟩ : OperationId) :: seen)) = none := by
      rw [List.find?_eq_none]
      intro dependency mem
      have present := (same dependency).mpr (defined dependency mem)
      simp [present]
    refine ⟨⟨draft.nextId⟩ :: seen, ?_, fun id => ?_⟩
    · change checkOperations [] (draft.operations ++ [_]) = _
      rw [checkOperations_append, checked]
      change checkOperations seen [_] = _
      unfold checkOperations
      rw [if_neg new]
      simp only [earlier]
      rfl
    · change id ∈ _ ↔ id ∈ draft.definedOps ++ [_]
      rw [List.mem_cons, List.mem_append, List.mem_singleton, same]
      exact or_comm
  fresh := by
    intro id mem
    change id ∈ draft.definedOps ++ [_] at mem
    change id.val < draft.nextId + 1
    rcases List.mem_append.mp mem with old | new
    · exact Nat.lt_succ_of_lt (sound.fresh id old)
    · rw [List.mem_singleton.mp new]
      exact Nat.lt_succ_self _

section

variable (iteration : IterationOrder ((TargetId × String) × OperationId))

variable {permits : List PolicyPermit}

theorem planFile_sound {draft : Draft} (sound : draft.Sound)
    (permit : PolicyPermit) : (planFile draft permit).Sound :=
  sound.push _ _ _ (by simp)

theorem planDirectory_sound {draft : Draft} (sound : draft.Sound)
    (permit : PolicyPermit) : (planDirectory iteration draft permit).Sound := by
  refine sound.push _ _ _ fun id mem => ?_
  unfold dependenciesOf at mem
  simpa using (List.mem_filter.mp mem).2

theorem draft_sound (permits : List PolicyPermit) : (draft iteration permits).Sound := by
  refine List.foldlRecOn _ _ (List.foldlRecOn _ _ Draft.Sound.empty ?_) ?_
  · exact fun drafted sound permit _ => planFile_sound sound permit
  · exact fun drafted sound permit _ =>
      planDirectory_sound iteration sound permit

theorem map_opType_foldl (adds : ∀ drafted, ∀ permit ∈ permits,
      (plan drafted permit).operations.map PlannedOperation.opType =
        drafted.operations.map PlannedOperation.opType ++
          [removal permit.candidate.candidate]) (drafted : Draft) :
    (permits.foldl plan drafted).operations.map PlannedOperation.opType =
      drafted.operations.map PlannedOperation.opType ++
        permits.map fun permit => removal permit.candidate.candidate := by
  induction permits generalizing drafted with
  | nil => simp
  | cons permit rest ih =>
    rw [List.foldl_cons, ih fun drafted other mem =>
      adds drafted other (List.mem_cons_of_mem _ mem),
      adds drafted permit (List.mem_cons_self ..)]
    simp

theorem mem_sorted : permit ∈ sorted permits ↔ permit ∈ permits :=
  (List.perm_insertionSort _ permits).mem_iff

theorem draft_map_opType (permits : List PolicyPermit) :
    (draft iteration permits).operations.map PlannedOperation.opType =
      (planningOrder permits).map fun permit =>
        removal permit.candidate.candidate := by
  unfold draft planningOrder
  rw [map_opType_foldl, map_opType_foldl, List.map_append]
  · rfl
  · intro drafted permit mem
    have file : permit.candidate.candidate.isDir = false := by
      simpa [isDirectory] using (List.mem_filter.mp (mem_sorted.mp mem)).2
    simp [planFile, Draft.push, removal, file]
  · intro drafted permit mem
    have directory : permit.candidate.candidate.isDir = true := by
      simpa [isDirectory] using (List.mem_filter.mp (mem_sorted.mp mem)).2
    simp [planDirectory, Draft.push, removal, directory]

theorem mem_planningOrder : permit ∈ planningOrder permits ↔ permit ∈ permits := by
  unfold planningOrder
  rw [List.mem_append, mem_sorted, mem_sorted, List.mem_filter, List.mem_filter]
  cases isDirectory permit <;> simp

theorem length_planningOrder : (planningOrder permits).length = permits.length := by
  unfold planningOrder sorted
  rw [List.length_append, List.length_insertionSort, List.length_insertionSort,
    ← List.countP_eq_length_filter, ← List.countP_eq_length_filter, Nat.add_comm]
  simpa using (List.length_eq_countP_add_countP isDirectory).symm

theorem checkOperations_distinct (checked : checkOperations seen ops = .ok seen') :
    (∀ op ∈ ops, op.opId ∉ seen) ∧ (ops.map PlannedOperation.opId).Nodup := by
  induction ops generalizing seen with
  | nil => simp
  | cons op rest ih =>
    unfold checkOperations at checked
    split at checked
    · cases checked
    · rename_i fresh
      split at checked
      · cases checked
      · obtain ⟨later, distinct⟩ := ih checked
        refine ⟨?_, ?_⟩
        · intro other mem
          rcases List.mem_cons.mp mem with rfl | inside
          · exact fresh
          · exact fun old => later other inside (List.mem_cons_of_mem _ old)
        · rw [List.map_cons, List.nodup_cons]
          refine ⟨?_, distinct⟩
          rintro repeated
          obtain ⟨other, inside, same⟩ := List.mem_map.mp repeated
          exact later other inside (same ▸ List.mem_cons_self ..)

structure Plans (job : JobId) (catalog : CatalogGeneration)
    (config : ConfigGeneration) (permits : List PolicyPermit) (plan : PlannedPlan) : Prop where
  planId : plan.planId = CleanupPlanner.planId job catalog
  job : plan.jobId = job
  catalog : plan.catalogGeneration = catalog
  config : plan.configGeneration = config
  removals : plan.operations.map PlannedOperation.opType = (planningOrder permits).map fun permit =>
      removal permit.candidate.candidate
  ids : ∃ seen, checkOperations [] plan.operations = .ok seen

theorem buildPlan_ok (bounded : permits.length ≤ defaultMaxOperationsPerPlan) (job : JobId)
    (catalog : CatalogGeneration) (config : ConfigGeneration) :
    ∃ plan, buildPlan iteration job catalog config permits = .ok plan ∧
      Plans job catalog config permits plan := by
  obtain ⟨seen, checked, -⟩ := (draft_sound iteration permits).checked
  have removals := draft_map_opType iteration permits
  have length : (draft iteration permits).operations.length = permits.length := by
    rw [← List.length_map PlannedOperation.opType, removals, List.length_map, length_planningOrder]
  refine ⟨⟨planId job catalog, job, catalog, config, (draft iteration permits).operations,
    (draft iteration permits).totalReclaim⟩, ?_, ⟨rfl, rfl, rfl, rfl, removals, seen, checked⟩⟩
  simp [buildPlan, validatePlan, length, Nat.not_lt.mpr bounded, checked, Except.map]

variable {iteration}

theorem buildPlan_error (refused : buildPlan iteration job catalog config permits = .error error) :
    error = .planBudgetExceeded permits.length defaultMaxOperationsPerPlan := by
  by_cases bounded : permits.length ≤ defaultMaxOperationsPerPlan
  · obtain ⟨plan, built, -⟩ := buildPlan_ok iteration bounded job catalog config
    rw [built] at refused
    cases refused
  · simpa [buildPlan, Nat.lt_of_not_le bounded, eq_comm] using refused

theorem buildPlan_bounded (built : buildPlan iteration job catalog config permits = .ok plan) :
    permits.length ≤ defaultMaxOperationsPerPlan := by
  by_contra many
  simp [buildPlan, Nat.lt_of_not_le many] at built

theorem buildPlan_plans (built : buildPlan iteration job catalog config permits = .ok plan) :
    Plans job catalog config permits plan := by
  obtain ⟨other, same, plans⟩ :=
    buildPlan_ok iteration (buildPlan_bounded built) job catalog config
  cases built.symm.trans same
  exact plans

end

end CleanupPlanner

namespace AuthorizationEngine

/-- `authorize_plan`; the caller supplies the counter value and the clock. -/
def authorizePlan (grant : GrantId) (now : UnixTimestamp) (plan : PlannedPlan)
    (current : CatalogGeneration) (ttl : Nat) (config : ConfigGeneration) : Result AuthorizedPlan :=
  if plan.catalogGeneration ≠ current then
    .error (.safetyViolation (.planCatalogStale plan.catalogGeneration current))
  else if plan.configGeneration ≠ config then
    .error (.safetyViolation (.planConfigStale plan.configGeneration config))
  else
    .ok {
      plan := plan
      grant := {
        grantId := grant
        capabilities := plan.operations.map fun op => op.opType.capability
        catalogGeneration := current
        configGeneration := config
        grantedAt := now
        expiresAt := saturatingAdd now ttl } }

structure Authorizes (now : UnixTimestamp) (plan : PlannedPlan) (ttl : Nat)
    (authorized : AuthorizedPlan) : Prop where
  same : authorized.plan = plan
  catalog : authorized.grant.catalogGeneration = plan.catalogGeneration
  config : authorized.grant.configGeneration = plan.configGeneration
  expires : authorized.grant.expiresAt = saturatingAdd now ttl

theorem authorizePlan_current (grant : GrantId) (now : UnixTimestamp) (ttl : Nat)
    (catalog : plan.catalogGeneration = current)
    (configured : plan.configGeneration = config) :
    ∃ authorized, authorizePlan grant now plan current ttl config =
        .ok authorized ∧ Authorizes now plan ttl authorized := by
  subst catalog
  subst configured
  simp only [authorizePlan, ne_eq, not_true_eq_false, if_false]
  exact ⟨_, rfl, ⟨rfl, rfl, rfl, rfl⟩⟩

end AuthorizationEngine

end CacheCleaner
