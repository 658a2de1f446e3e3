import CacheCleaner.Engine.Draft

namespace CacheCleaner

namespace CleanupPlanner

theorem foldl_done {holds : Draft → List PolicyPermit → Prop}
    (step : ∀ draft done, ∀ permit ∈ rest, holds draft done →
      holds (plan draft permit) (done ++ [permit])) {draft : Draft} (start : holds draft done) :
    holds (rest.foldl plan draft) (done ++ rest) := by
  induction rest generalizing draft done with
  | nil => simpa using start
  | cons permit rest ih =>
    rw [List.append_cons]
    apply ih
    · intro draft done other mem
      exact step draft done other (List.mem_cons_of_mem _ mem)
    · exact step draft done permit List.mem_cons_self start

structure Draft.Numbered (draft : Draft) : Prop where
  ids : draft.operations.map (·.opId.val) = List.range' 1 draft.operations.length
  next : draft.nextId = draft.operations.length + 1

theorem Draft.Numbered.push {draft : Draft} (numbered : draft.Numbered)
    (candidate : Candidate) (opType : OperationType) (dependencies : List OperationId)
    (reclaim : ByteCount) : (draft.push candidate opType dependencies reclaim).Numbered := by
  constructor
  · rw [Draft.push, List.map_append, numbered.ids, List.length_append,
      List.length_singleton, List.range'_1_concat, List.map_singleton, numbered.next,
      Nat.add_comm 1]
  · rw [Draft.push, List.length_append, List.length_singleton, numbered.next]

theorem dedup_ascending [DecidableEq α] {items : List α} {rank : α → Nat}
    (injective : ∀ {left right}, rank left = rank right → left = right)
    (ordered : items.Pairwise fun left right => rank left ≤ rank right) :
    (dedup items).Pairwise fun left right => rank left < rank right := by
  fun_induction dedup items with
  | case1 => exact .nil
  | case2 item => exact List.pairwise_singleton _ item
  | case3 first rest ih => exact ih ordered.of_cons
  | case4 first second rest different ih =>
    obtain ⟨least, others⟩ := List.pairwise_cons.mp ordered
    obtain ⟨next, -⟩ := List.pairwise_cons.mp others
    apply List.pairwise_cons.mpr
    refine ⟨?_, ih others⟩
    intro item mem
    have second_le : rank second ≤ rank item := by
      rcases List.mem_cons.mp (mem_dedup.mp mem) with same | later
      · exact same ▸ Nat.le_refl _
      · exact next item later
    have first_le : rank first ≤ rank second := least second List.mem_cons_self
    have apart : rank first ≠ rank second := fun same => different (injective same)
    omega

section

variable {iteration : IterationOrder ((TargetId × String) × OperationId)}

theorem of_mem_dependenciesOf {draft : Draft} {id : OperationId}
    (mem : id ∈ dependenciesOf iteration draft directory.candidate.candidate) :
    ∃ entry ∈ draft.pathToOpId, entry.2 = id ∧ entry.1.1 = (key directory).1 ∧
      startsWithText entry.1.2 ((key directory).2 ++ "/") = true := by
  rw [dependenciesOf, List.mem_filter, mem_dedup, List.mem_insertionSort, List.mem_map] at mem
  obtain ⟨⟨entry, found, same⟩, -⟩ := mem
  rw [List.mem_filter, iteration.mem_order, Bool.and_eq_true, beq_iff_eq] at found
  exact ⟨entry, found.1, same, found.2⟩

theorem dependenciesOf_ascending (draft : Draft) (candidate : Candidate) :
    (dependenciesOf iteration draft candidate).Pairwise fun left right =>
      left.val < right.val := by
  apply List.Pairwise.filter
  apply dedup_ascending
  · intro left right same
    cases left
    exact congrArg OperationId.mk same
  · have total : Std.Total fun left right : OperationId => left.val ≤ right.val :=
      ⟨fun left right => Nat.le_total left.val right.val⟩
    have trans : IsTrans OperationId fun left right => left.val ≤ right.val :=
      ⟨fun _ _ _ => Nat.le_trans⟩
    exact List.pairwise_insertionSort _ _

end

/-- The operations of the permits planned so far: what is registered and what
each one waits for. -/
structure Draft.Exact (draft : Draft) (done : List PolicyPermit) : Prop where
  length : done.length = draft.operations.length
  known : ∀ entry ∈ draft.pathToOpId, ∃ permit op,
    (permit, op) ∈ done.zip draft.operations ∧ (key permit, op.opId) = entry
  justified : ∀ {permit op}, (permit, op) ∈ done.zip draft.operations →
    ∀ id ∈ op.dependencies, isDirectory permit = true ∧
      ∃ below other, (below, other) ∈ done.zip draft.operations ∧
        Under below permit ∧ other.opId = id
  ascending : ∀ op ∈ draft.operations, op.dependencies.Pairwise fun left right =>
    left.val < right.val
  reclaim : ∀ op ∈ draft.operations, op.estimatedReclaim = op.opType.estimatedSize

theorem Draft.Exact.push {draft : Draft} {opType : OperationType}
    {reclaim : ByteCount} (exact : draft.Exact done)
    (justified : ∀ id ∈ dependencies, isDirectory permit = true ∧
      ∃ below other, (below, other) ∈ done.zip draft.operations ∧
        Under below permit ∧ other.opId = id)
    (ascending : dependencies.Pairwise fun left right => left.val < right.val)
    (size : reclaim = opType.estimatedSize) :
    (draft.push permit.candidate.candidate opType dependencies reclaim).Exact
      (done ++ [permit]) := by
  have zipped : (done ++ [permit]).zip
      (draft.push permit.candidate.candidate opType dependencies reclaim).operations =
      done.zip draft.operations ++ [(permit, ⟨⟨draft.nextId⟩, opType, dependencies, reclaim⟩)] :=
    List.zip_append exact.length
  have kept : ∀ {pair}, pair ∈ done.zip draft.operations → pair ∈ (done ++ [permit]).zip
      (draft.push permit.candidate.candidate opType dependencies reclaim).operations := by
    intro pair mem
    rw [zipped]
    exact List.mem_append_left _ mem
  constructor
  case length => simp [Draft.push, exact.length]
  case known =>
    intro entry mem
    rcases Table.mem_upsert.mp mem with ⟨old, -⟩ | new
    · obtain ⟨other, op, pair, same⟩ := exact.known entry old
      exact ⟨other, op, kept pair, same⟩
    · refine ⟨permit, ⟨⟨draft.nextId⟩, opType, dependencies, reclaim⟩, ?_, new.symm⟩
      rw [zipped]
      exact List.mem_append_right _ (List.mem_singleton_self _)
  case justified =>
    intro other op mem id waits
    rw [zipped, List.mem_append, List.mem_singleton] at mem
    rcases mem with old | new
    · obtain ⟨directory, below, lower, pair, rest⟩ := exact.justified old id waits
      exact ⟨directory, below, lower, kept pair, rest⟩
    · cases new
      obtain ⟨directory, below, lower, pair, rest⟩ := justified id waits
      exact ⟨directory, below, lower, kept pair, rest⟩
  case ascending =>
    intro op mem
    rcases List.mem_append.mp mem with old | new
    · exact exact.ascending op old
    · rw [List.mem_singleton.mp new]
      exact ascending
  case reclaim =>
    intro op mem
    rcases List.mem_append.mp mem with old | new
    · exact exact.reclaim op old
    · rw [List.mem_singleton.mp new]
      exact size

theorem draft_numbered (iteration : IterationOrder ((TargetId × String) × OperationId))
    (permits : List PolicyPermit) : (draft iteration permits).Numbered := by
  have start : Draft.empty.Numbered := ⟨rfl, rfl⟩
  apply List.foldlRecOn (motive := Draft.Numbered)
  · apply List.foldlRecOn (motive := Draft.Numbered) _ _ start
    intro drafted numbered permit _
    exact numbered.push _ _ _ _
  · intro drafted numbered permit _
    exact numbered.push _ _ _ _

theorem draft_exact (iteration : IterationOrder ((TargetId × String) × OperationId))
    (permits : List PolicyPermit) : (draft iteration permits).Exact (planningOrder permits) := by
  have start : Draft.empty.Exact [] := by
    constructor <;> simp [Draft.empty, Table.empty, Table.mem_iff]
  have files : ((sorted (permits.filter fun permit => !isDirectory permit)).foldl
      planFile Draft.empty).Exact
        ([] ++ sorted (permits.filter fun permit => !isDirectory permit)) := by
    apply foldl_done _ start
    intro draft done permit _ exact
    exact exact.push (List.forall_mem_nil _) .nil rfl
  apply foldl_done _ files
  intro draft done permit mem exact
  apply exact.push
  · intro id waits
    obtain ⟨entry, found, same, target, starts⟩ := of_mem_dependenciesOf waits
    obtain ⟨below, other, pair, registered⟩ := exact.known entry found
    have directory := (List.mem_filter.mp (mem_sorted.mp mem)).2
    subst registered
    exact ⟨directory, below, other, pair, ⟨target, starts⟩, same⟩
  · exact dependenciesOf_ascending draft _
  · rfl

/-- The operation removes an entry strictly beneath a directory of a target. -/
def RemovesBeneath (op : PlannedOperation) (target : TargetId) (directory : RelativePath) : Prop :=
  ∃ path, op.opType.removedEntry = some (target, path) ∧ path.Beneath directory

section

variable {iteration : IterationOrder ((TargetId × String) × OperationId)}
  {permits : List PolicyPermit}

variable {identity : FileIdentity} {path : RelativePath} {target : TargetId}

theorem under_iff (plain : below.candidate.candidate.relPath.Plain)
    (plain' : directory.candidate.candidate.relPath.Plain)
    (removes : op.opType = removal below.candidate.candidate) :
    Under below directory ↔ RemovesBeneath op directory.candidate.candidate.targetId
      directory.candidate.candidate.relPath := by
  have entry := removedEntry_removal below.candidate.candidate
  rw [← removes] at entry
  constructor
  · intro under
    have target : below.candidate.candidate.targetId =
        directory.candidate.candidate.targetId := under.1
    refine ⟨_, entry.trans ?_, (plain.startsWith_iff plain').mp under.2⟩
    rw [target]
  · intro beneath
    obtain ⟨path, same, beneath⟩ := beneath
    rw [entry, Option.some.injEq, Prod.mk.injEq] at same
    obtain ⟨target, rfl⟩ := same
    exact ⟨target, (plain.startsWith_iff plain').mpr beneath⟩

theorem of_mem_zip_map {items : List α} (same : others.map g = items.map f) {other : β}
    (mem : (item, other) ∈ items.zip others) : g other = f item := by
  induction others generalizing items with
  | nil =>
    rw [List.zip_nil_right] at mem
    cases mem
  | cons first others ih =>
    cases items with
    | nil => cases mem
    | cons head items =>
      rw [List.map_cons, List.map_cons, List.cons.injEq] at same
      rw [List.zip_cons_cons] at mem
      rcases List.mem_cons.mp mem with equal | later
      · cases equal
        exact same.1
      · exact ih same.2 later

theorem removal_directory
    (removes : .deleteDirEmpty target path identity = removal permit.candidate.candidate) :
    isDirectory permit = true ∧ permit.candidate.candidate.targetId = target ∧
      permit.candidate.candidate.relPath = path := by
  unfold removal at removes
  split at removes
  · rename_i directory
    cases removes
    exact ⟨directory, rfl, rfl⟩
  · cases removes

theorem removal_file (removes : .deleteFile target path identity size =
      removal permit.candidate.candidate) : isDirectory permit = false := by
  unfold removal at removes
  split at removes
  · cases removes
  · rename_i file
    exact Bool.eq_false_iff.mpr file

theorem estimatedSize_removal (permits : List PolicyPermit) :
    (permits.map fun permit => (removal permit.candidate.candidate).estimatedSize).sum =
      ((permits.filter fun permit => !isDirectory permit).map fun permit =>
        permit.candidate.candidate.sizeBytes).sum := by
  induction permits with
  | nil => rfl
  | cons permit permits ih =>
    rw [List.map_cons, List.sum_cons, ih]
    by_cases directory : permit.candidate.candidate.isDir = true
    · rw [List.filter_cons_of_neg (by simp [isDirectory, directory])]
      simp [removal, directory, OperationType.estimatedSize]
    · rw [List.filter_cons_of_pos (by simp [isDirectory, directory])]
      simp [removal, directory, OperationType.estimatedSize]

/-- One operation for each permit, numbered from one, every directory after what is
planned beneath it and waiting for exactly that. -/
structure Topological (permits : List PolicyPermit) (plan : PlannedPlan) : Prop where
  removals : (plan.operations.map PlannedOperation.opType).Perm
    (permits.map fun permit => removal permit.candidate.candidate)
  ids : plan.operations.map (·.opId.val) = List.range' 1 permits.length
  descendantsFirst : ∀ {i j : Nat} {op other : PlannedOperation} {target : TargetId}
      {path : RelativePath} {identity : FileIdentity},
    plan.operations[i]? = some op → op.opType = .deleteDirEmpty target path identity →
    plan.operations[j]? = some other → RemovesBeneath other target path → j < i
  waits : ∀ op ∈ plan.operations, ∀ {target path identity},
    op.opType = .deleteDirEmpty target path identity →
    op.dependencies.Pairwise (fun left right => left.val < right.val) ∧ ∀ id, id ∈ op.dependencies ↔
        ∃ other ∈ plan.operations, other.opId = id ∧ RemovesBeneath other target path
  leaves : ∀ op ∈ plan.operations, ∀ {target path identity size},
    op.opType = .deleteFile target path identity size → op.dependencies = []
  reclaim : ∀ op ∈ plan.operations, op.estimatedReclaim = op.opType.estimatedSize
  total : plan.totalEstimatedReclaim = saturatingSum
    ((permits.filter fun permit => !isDirectory permit).map fun permit =>
      permit.candidate.candidate.sizeBytes)

theorem draft_descendants_first
    (plain : ∀ permit ∈ permits, permit.candidate.candidate.relPath.Plain)
    {i j : Nat} (at_i : (draft iteration permits).operations[i]? = some op)
    (directory : op.opType = .deleteDirEmpty target path identity)
    (at_j : (draft iteration permits).operations[j]? = some other)
    (beneath : RemovesBeneath other target path) : j < i := by
  have aligned := draft_map_opType iteration permits
  have ordered := planningOrder_pairwise permits
  have planned : ∀ {k : Nat} {found : PlannedOperation},
      (draft iteration permits).operations[k]? = some found →
      ∃ permit : PolicyPermit, (planningOrder permits)[k]? = some permit ∧
        found.opType = removal permit.candidate.candidate := by
    intro k found at_k
    have here := congrArg (·[k]?) aligned
    simp only [List.getElem?_map, at_k, Option.map_some] at here
    obtain ⟨permit, mem, same⟩ := Option.map_eq_some_iff.mp here.symm
    exact ⟨permit, mem, same.symm⟩
  obtain ⟨upper, upper_at, upper_removes⟩ := planned at_i
  obtain ⟨lower, lower_at, lower_removes⟩ := planned at_j
  rw [directory] at upper_removes
  obtain ⟨isDir, rfl, rfl⟩ := removal_directory upper_removes
  have under : Under lower upper := by
    apply (under_iff _ _ lower_removes).mpr beneath
    · exact plain _ (mem_planningOrder.mp (List.mem_of_getElem? lower_at))
    · exact plain _ (mem_planningOrder.mp (List.mem_of_getElem? upper_at))
  by_contra later
  rcases Nat.lt_or_eq_of_le (Nat.le_of_not_lt later) with before | same
  · obtain ⟨i_lt, upper_is⟩ := List.getElem?_eq_some_iff.mp upper_at
    obtain ⟨j_lt, lower_is⟩ := List.getElem?_eq_some_iff.mp lower_at
    have apart := List.pairwise_iff_getElem.mp ordered i j i_lt j_lt before
    rw [upper_is, lower_is] at apart
    exact apart isDir under
  · subst same
    rw [upper_at, Option.some.injEq] at lower_at
    subst lower_at
    exact Nat.lt_irrefl _ under.depth_lt

theorem draft_waits (distinct : (permits.map key).Nodup)
    (plain : ∀ permit ∈ permits, permit.candidate.candidate.relPath.Plain)
    (mem : op ∈ (draft iteration permits).operations)
    (directory : op.opType = .deleteDirEmpty target path identity) (id : OperationId) :
    id ∈ op.dependencies ↔ ∃ other ∈ (draft iteration permits).operations,
      other.opId = id ∧ RemovesBeneath other target path := by
  have aligned := draft_map_opType iteration permits
  obtain ⟨upper, zipped, removes⟩ := exists_mem_zip aligned mem
  rw [directory] at removes
  obtain ⟨isDir, rfl, rfl⟩ := removal_directory removes
  have planned : ∀ {permit found}, (permit, found) ∈
      (planningOrder permits).zip (draft iteration permits).operations →
      permit.candidate.candidate.relPath.Plain := by
    intro permit found pair
    exact plain permit (mem_planningOrder.mp (List.of_mem_zip pair).1)
  constructor
  · intro waits
    obtain ⟨-, below, other, pair, under, same⟩ :=
      (draft_exact iteration permits).justified zipped id waits
    refine ⟨other, (List.of_mem_zip pair).2, same, ?_⟩
    exact (under_iff (planned pair) (planned zipped) (of_mem_zip_map aligned pair)).mp under
  · intro present
    obtain ⟨other, inside, rfl, beneath⟩ := present
    obtain ⟨lower, pair, lower_removes⟩ := exists_mem_zip aligned inside
    apply (draft_complete iteration distinct).waits zipped isDir pair
    exact (under_iff (planned pair) (planned zipped) lower_removes).mpr beneath

theorem buildPlan_topological
    (iteration : IterationOrder ((TargetId × String) × OperationId)) (job : JobId)
    (catalog : CatalogGeneration) (config : ConfigGeneration)
    (bounded : permits.length ≤ defaultMaxOperationsPerPlan) (distinct : (permits.map key).Nodup)
    (plain : ∀ permit ∈ permits, permit.candidate.candidate.relPath.Plain) :
    ∃ plan, buildPlan iteration job catalog config permits = .ok plan ∧
      Topological permits plan := by
  obtain ⟨plan, built, plans⟩ := buildPlan_ok iteration bounded job catalog config
  have exact := draft_exact iteration permits
  have count : (draft iteration permits).operations.length = permits.length := by
    rw [← exact.length, length_planningOrder]
  have total := buildPlan_total built
  obtain ⟨operations, -⟩ := buildPlan_eq built
  refine ⟨plan, built, ?_⟩
  constructor
  case removals =>
    rw [plans.removals]
    exact (planningOrder_perm permits).map _
  case ids => rw [operations, (draft_numbered iteration permits).ids, count]
  case descendantsFirst =>
    rw [operations]
    exact draft_descendants_first plain
  case waits =>
    rw [operations]
    intro op member target path identity directory
    exact ⟨exact.ascending op member, draft_waits distinct plain member directory⟩
  case leaves =>
    rw [operations]
    intro op member target path identity size file
    obtain ⟨permit, zipped, removes⟩ := exists_mem_zip (draft_map_opType iteration permits) member
    rw [file] at removes
    apply List.eq_nil_iff_forall_not_mem.mpr
    intro id waits
    have directory := (exact.justified zipped id waits).1
    rw [removal_file removes] at directory
    cases directory
  case reclaim =>
    rw [operations]
    exact exact.reclaim
  case total =>
    have sizes : plan.operations.map (fun op => op.opType.estimatedSize) =
        (planningOrder permits).map fun permit =>
          (removal permit.candidate.candidate).estimatedSize := by
      have mapped := congrArg (List.map OperationType.estimatedSize) plans.removals
      rwa [List.map_map, List.map_map] at mapped
    rw [total, sizes, saturatingSum_eq_min, saturatingSum_eq_min, ← estimatedSize_removal]
    exact congrArg (min · u64Max) ((planningOrder_perm permits).map _).sum_nat

end

namespace Sample

def path (text : String) : RelativePath := (RelativePath.parse text).getD .empty

def permit (target text : String) (inode : Nat) (size : ByteCount) (isDir : Bool) : PolicyPermit :=
  ⟨⟨⟨⟨inode⟩, ⟨target⟩, path text, ⟨1, inode⟩, size, 0, isDir, false⟩, 1, 2⟩, 1,
    .exceedsRetentionAge⟩

def permits : List PolicyPermit :=
  [permit "t" "d" 4 0 true, permit "t" "d/e" 5 0 true, permit "t" "d/e/f" 6 7 false,
    permit "t" "dx" 7 8 false, permit "u" "d" 8 0 true, permit "u" "d/e" 9 2 false]

theorem distinct : (permits.map key).Nodup := by decide +kernel

theorem plain : ∀ permit ∈ permits, permit.candidate.candidate.relPath.Plain := by
  have spelled : ∀ permit ∈ permits, permit.candidate.candidate.relPath.names ≠ [] ∧
      permit.candidate.candidate.relPath.raw.toList = ['/'].intercalate
        (permit.candidate.candidate.relPath.names.map String.toList) := by
    decide +kernel
  intro permit mem
  exact ⟨(spelled permit mem).1, (spelled permit mem).2⟩

end Sample

open Sample in
theorem sample_topological : ∃ plan, buildPlan (.inserted _) ⟨1⟩ ⟨2⟩ ⟨1⟩ permits = .ok plan ∧
      Topological permits plan :=
  buildPlan_topological (.inserted _) ⟨1⟩ ⟨2⟩ ⟨1⟩ (by decide) distinct plain

theorem key_eq_of_order (forth : (canonicalOrder left right).isLE = true)
    (back : (canonicalOrder right left).isLE = true) : key left = key right := by
  have equal : canonicalOrder left right = .eq := by
    have swap : canonicalOrder right left = (canonicalOrder left right).swap :=
      Std.OrientedCmp.eq_swap
    rw [swap] at back
    cases order : canonicalOrder left right with
    | lt =>
      rw [order] at back
      cases back
    | eq => rfl
    | gt =>
      rw [order] at forth
      cases forth
  obtain ⟨target, rest⟩ := Ordering.then_eq_eq.mp equal
  obtain ⟨-, path⟩ := Ordering.then_eq_eq.mp rest
  have targets : left.candidate.candidate.targetId = right.candidate.candidate.targetId :=
    congrArg TargetId.mk (Std.LawfulEqOrd.eq_of_compare target)
  exact Prod.ext targets (Std.LawfulEqOrd.eq_of_compare path)

theorem sorted_eq (same : permits.Perm permits')
    (distinct : (permits.map key).Nodup) : sorted permits = sorted permits' := by
  have perm : (sorted permits).Perm (sorted permits') :=
    ((List.perm_insertionSort _ _).trans same).trans (List.perm_insertionSort _ _).symm
  apply perm.eq_of_pairwise _ (sorted_pairwise permits) (sorted_pairwise permits')
  intro left right mem member' forth back
  exact List.inj_on_of_nodup_map distinct (mem_sorted.mp mem)
    (same.mem_iff.mpr (mem_sorted.mp member')) (key_eq_of_order forth back)

theorem sorted_filter_eq {permits permits' : List PolicyPermit}
    (same : permits.Perm permits') (distinct : (permits.map key).Nodup)
    (kind : PolicyPermit → Bool) : sorted (permits.filter kind) = sorted (permits'.filter kind) :=
  sorted_eq (same.filter kind) (distinct.sublist (List.filter_sublist.map key))

section

variable (iteration iteration' : IterationOrder ((TargetId × String) × OperationId))

theorem dependenciesOf_eq (draft : Draft) (candidate : Candidate) :
    dependenciesOf iteration draft candidate = dependenciesOf iteration' draft candidate := by
  -- both lists ascend and have the same members
  have members : ∀ id, id ∈ dependenciesOf iteration draft candidate ↔
      id ∈ dependenciesOf iteration' draft candidate := by
    intro id
    simp only [dependenciesOf, List.mem_filter, mem_dedup, List.mem_insertionSort,
      List.mem_map, IterationOrder.mem_order]
  have distinct : ∀ order : IterationOrder ((TargetId × String) × OperationId),
      (dependenciesOf order draft candidate).Nodup := by
    intro order
    apply (dependenciesOf_ascending draft candidate).imp
    intro left right less same
    exact Nat.ne_of_lt less (congrArg OperationId.val same)
  have perm := (List.perm_ext_iff_of_nodup (distinct iteration) (distinct iteration')).mpr members
  apply perm.eq_of_pairwise _ (dependenciesOf_ascending draft candidate)
    (dependenciesOf_ascending draft candidate)
  intro left right _ _ less more
  exact absurd more (Nat.lt_asymm less)

theorem draft_eq {permits permits' : List PolicyPermit} (same : permits.Perm permits')
    (distinct : (permits.map key).Nodup) : draft iteration permits = draft iteration' permits' := by
  have steps : planDirectory iteration = planDirectory iteration' := by
    funext draft permit
    simp only [planDirectory, dependenciesOf_eq iteration iteration']
  rw [draft, draft, steps, sorted_filter_eq same distinct, sorted_filter_eq same distinct]

/-- Permuting the permits or walking the hash map differently changes nothing. -/
theorem buildPlan_order_independent (job : JobId) (catalog : CatalogGeneration)
    (config : ConfigGeneration) {permits permits' : List PolicyPermit}
    (same : permits.Perm permits') (distinct : (permits.map key).Nodup) :
    buildPlan iteration job catalog config permits =
      buildPlan iteration' job catalog config permits' := by
  rw [buildPlan, buildPlan, same.length_eq, draft_eq iteration iteration' same distinct]

end

def IterationOrder.reversed (α : Type) : IterationOrder α where
  order := List.reverse
  perm := List.reverse_perm

open Sample in
theorem sample_order_independent : buildPlan (.inserted _) ⟨1⟩ ⟨2⟩ ⟨1⟩ permits =
      buildPlan (IterationOrder.reversed _) ⟨1⟩ ⟨2⟩ ⟨1⟩ permits.reverse :=
  buildPlan_order_independent _ _ ⟨1⟩ ⟨2⟩ ⟨1⟩ (List.reverse_perm permits).symm distinct

end CleanupPlanner

end CacheCleaner
