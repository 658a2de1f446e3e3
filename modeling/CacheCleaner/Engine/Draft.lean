import CacheCleaner.Engine.Planner
import CacheCleaner.Fs.Lookup

namespace CacheCleaner

namespace RelativePath

variable {name : String}

inductive Scanned : RelativePath → Prop
  | top {path : RelativePath} {name : String} (valid : Fs.validateSingleComponent name = true)
      (joined : empty.join name = some path) : Scanned path
  | inside {parent path : RelativePath} {name : String} (above : Scanned parent)
      (valid : Fs.validateSingleComponent name = true)
      (joined : parent.join name = some path) : Scanned path

def Beneath (path directory : RelativePath) : Prop :=
  directory.names <+: path.names ∧ directory.names ≠ path.names

structure Plain (path : RelativePath) : Prop where
  nonempty : path.names ≠ []
  spelled : path.raw.toList = ['/'].intercalate (path.names.map String.toList)

theorem slash_not_mem_names {path : RelativePath}
    (mem : name ∈ path.names) : '/' ∉ name.toList := by
  obtain ⟨piece, inside, rfl, -⟩ := exists_piece_of_mem_names mem
  rw [String.toList_ofList]
  intro slash
  exact (mem_splitSlash inside slash).2 rfl

theorem intercalate_append (filled : front ≠ [])
    (more : back ≠ []) : ['/'].intercalate (front ++ back) =
      ['/'].intercalate front ++ '/' :: ['/'].intercalate back := by
  induction front with
  | nil => exact absurd rfl filled
  | cons piece front ih =>
    cases front with
    | nil =>
      cases back with
      | nil => exact absurd rfl more
      | cons next back => simp [List.intercalate]
    | cons next front =>
      have rest := ih (List.cons_ne_nil next front)
      simp only [List.intercalate, List.cons_append, List.intersperse_cons_cons,
        List.flatten_cons] at rest ⊢
      rw [rest]
      simp

namespace Plain

variable {path other : RelativePath}

theorem split (plain : path.Plain) : splitSlash path.raw.toList = path.names.map String.toList := by
  rw [plain.spelled]
  apply splitSlash_intercalate
  · intro none
    exact plain.nonempty (List.map_eq_nil_iff.mp none)
  · intro piece mem
    obtain ⟨name, inside, rfl⟩ := List.mem_map.mp mem
    exact slash_not_mem_names inside

theorem startsWith_iff (plain : path.Plain) (plain' : other.Plain) :
    startsWithText path.raw (other.raw ++ "/") = true ↔ path.Beneath other := by
  rw [startsWithText, List.isPrefixOf_iff_prefix]
  constructor
  · intro starts
    obtain ⟨rest, whole⟩ := starts
    have text : path.raw.toList = other.raw.toList ++ '/' :: rest := by
      simpa [String.toList_append] using whole.symm
    have pieces := plain.split
    rw [text, splitSlash_append_slash, plain'.split] at pieces
    obtain ⟨front, back, names, same, others⟩ := List.map_eq_append_iff.mp pieces.symm
    have front_eq : front = other.names :=
      List.map_injective_iff.mpr (fun _ _ => String.toList_injective) same
    subst front_eq
    constructor
    · exact ⟨back, names.symm⟩
    · intro whole
      apply splitSlash_ne_nil rest
      rw [← others, List.self_eq_append_right.mp (whole.trans names)]
      rfl
  · intro beneath
    obtain ⟨⟨more, names⟩, different⟩ := beneath
    have filled : other.names.map String.toList ≠ [] := by
      intro none
      exact plain'.nonempty (List.map_eq_nil_iff.mp none)
    have extra : more.map String.toList ≠ [] := by
      intro none
      rw [List.map_eq_nil_iff.mp none, List.append_nil] at names
      exact different names
    rw [plain.spelled, ← names, List.map_append, intercalate_append filled extra,
      String.toList_append, plain'.spelled]
    exact ⟨['/'].intercalate (more.map String.toList), by simp⟩

end Plain

structure SingleName (name : String) : Prop where
  slash : '/' ∉ name.toList
  nonempty : name ≠ ""
  dot : name ≠ "."
  dots : name ≠ ".."

theorem singleName_of_valid (valid : Fs.validateSingleComponent name = true) : SingleName name := by
  simp only [Fs.validateSingleComponent, Bool.not_eq_true', Bool.or_eq_false_iff,
    beq_eq_false_iff_ne, ne_eq] at valid
  obtain ⟨⟨⟨⟨nonempty, dot⟩, dots⟩, slash⟩, -⟩ := valid
  refine ⟨?_, nonempty, dot, dots⟩
  simpa [containsChar] using slash

theorem join_raw {parent path : RelativePath}
    (joined : parent.join name = some path) : path.raw = pathJoin parent.raw name := by
  obtain ⟨sub, parsed, rfl⟩ := Option.map_eq_some_iff.mp joined
  rw [← raw_parse parsed]
  rfl

theorem join_names {parent path : RelativePath}
    (single : SingleName name) (joined : parent.join name = some path) :
    path.names = parent.names ++ [name] := by
  obtain ⟨sub, parsed, rfl⟩ := Option.map_eq_some_iff.mp joined
  rw [names_push]
  congr 1
  rw [names, raw_parse parsed, components_single single.slash single.nonempty
    single.dot single.dots]
  rfl

theorem not_isAbsolute_of_single (single : SingleName name) : isAbsolute name = false := by
  apply not_isAbsolute_of_relative
  rw [components_single single.slash single.nonempty single.dot single.dots]
  simp [Component.isNormal]

theorem pathJoin_empty (single : SingleName name) : pathJoin "" name = name := by
  simp [pathJoin, not_isAbsolute_of_single single]

theorem pathJoin_unended (single : SingleName name)
    (filled : parent ≠ "") (unended : endsWithText parent "/" = false) :
    pathJoin parent name = parent ++ "/" ++ name := by
  simp [pathJoin, not_isAbsolute_of_single single, filled, unended]

theorem endsWithText_append_single (front : String)
    (single : SingleName name) : endsWithText (front ++ name) "/" = false := by
  have filled : name.toList ≠ [] := fun none =>
    single.nonempty (String.toList_eq_nil_iff.mp none)
  rw [Bool.eq_false_iff]
  intro ends
  obtain ⟨before, whole⟩ := List.isSuffixOf_iff_suffix.mp ends
  have last := congrArg List.getLast? whole
  rw [String.toList_append, List.getLast?_append_of_ne_nil _ filled] at last
  have slash : name.toList.getLast? = some '/' := by
    rw [← last]
    simp
  exact single.slash (List.mem_of_getLast? slash)

namespace Scanned

variable {path other : RelativePath}

theorem spelling (scanned : Scanned path) : path.raw ≠ "" ∧ endsWithText path.raw "/" = false := by
  induction scanned with
  | @top path name valid joined =>
    have single := singleName_of_valid valid
    rw [join_raw joined]
    change pathJoin "" name ≠ "" ∧ endsWithText (pathJoin "" name) "/" = false
    rw [pathJoin_empty single, ← String.empty_append (s := name)]
    refine ⟨?_, endsWithText_append_single "" single⟩
    rw [String.empty_append]
    exact single.nonempty
  | @inside parent path name above valid joined ih =>
    have single := singleName_of_valid valid
    rw [join_raw joined, pathJoin_unended single ih.1 ih.2]
    refine ⟨?_, endsWithText_append_single _ single⟩
    simp

theorem raw_inside {parent : RelativePath}
    (above : Scanned parent) (single : SingleName name) (joined : parent.join name = some path) :
    path.raw = parent.raw ++ "/" ++ name := by
  rw [join_raw joined, pathJoin_unended single above.spelling.1 above.spelling.2]

theorem raw_top {name : String} (single : SingleName name)
    (joined : empty.join name = some path) : path.raw = name := by
  rw [join_raw joined]
  exact pathJoin_empty single

theorem plain (scanned : Scanned path) : path.Plain := by
  induction scanned with
  | @top path name valid joined =>
    have single := singleName_of_valid valid
    have names : path.names = [name] := join_names single joined
    constructor
    · rw [names]
      exact List.cons_ne_nil _ _
    · rw [names, raw_top single joined]
      simp [List.intercalate]
  | @inside parent path name above valid joined ih =>
    have single := singleName_of_valid valid
    have names : path.names = parent.names ++ [name] := join_names single joined
    have filled : parent.names.map String.toList ≠ [] := by
      intro none
      exact ih.nonempty (List.map_eq_nil_iff.mp none)
    constructor
    · rw [names]
      exact List.append_ne_nil_of_right_ne_nil _ (List.cons_ne_nil _ _)
    · rw [names, raw_inside above single joined, List.map_append, List.map_singleton,
        intercalate_append filled (List.cons_ne_nil _ _), String.toList_append,
        String.toList_append, ih.spelled]
      simp [List.intercalate]

end Scanned

end RelativePath

def OperationType.removedEntry : OperationType → Option (TargetId × RelativePath)
  | .deleteFile target path _ _ => some (target, path)
  | .deleteDirEmpty target path _ => some (target, path)
  | _ => none

def OperationType.estimatedSize : OperationType → ByteCount
  | .deleteFile _ _ _ size => size
  | _ => 0

namespace CleanupPlanner

variable {below directory : PolicyPermit}

instance : Std.TransCmp canonicalOrder :=
  inferInstanceAs (Std.TransCmp (compareLex (compareOn fun permit : PolicyPermit =>
      permit.candidate.candidate.targetId.val)
    (compareLex (fun left right => compareOn (fun permit : PolicyPermit =>
        depth permit.candidate.candidate.relPath) right left)
      (compareOn fun permit : PolicyPermit =>
        permit.candidate.candidate.relPath.raw))))

theorem sorted_pairwise (permits : List PolicyPermit) : (sorted permits).Pairwise fun left right =>
      (canonicalOrder left right).isLE = true := by
  have total : Std.Total fun left right : PolicyPermit =>
      (canonicalOrder left right).isLE = true := by
    constructor
    intro left right
    have swap : canonicalOrder right left =
        (canonicalOrder left right).swap := Std.OrientedCmp.eq_swap
    rw [swap]
    cases canonicalOrder left right <;> simp
  have trans : IsTrans PolicyPermit fun left right =>
      (canonicalOrder left right).isLE = true :=
    ⟨fun _ _ _ => Std.TransCmp.isLE_trans⟩
  exact List.pairwise_insertionSort _ permits

def key (permit : PolicyPermit) : TargetId × String :=
  (permit.candidate.candidate.targetId, permit.candidate.candidate.relPath.raw)

def Under (below directory : PolicyPermit) : Prop :=
  (key below).1 = (key directory).1 ∧ startsWithText (key below).2 ((key directory).2 ++ "/") = true

theorem Under.depth_lt (under : Under below directory) :
    depth directory.candidate.candidate.relPath < depth below.candidate.candidate.relPath := by
  obtain ⟨rest, whole⟩ := List.isPrefixOf_iff_prefix.mp under.2
  have text : below.candidate.candidate.relPath.raw.toList =
      directory.candidate.candidate.relPath.raw.toList ++ '/' :: rest := by
    simpa [key, String.toList_append] using whole.symm
  have more := List.length_pos_of_ne_nil (splitSlash_ne_nil rest)
  unfold depth
  rw [text, splitSlash_append_slash, List.length_append]
  omega

theorem Under.not_isLE (under : Under below directory) :
    (canonicalOrder directory below).isLE = false := by
  have target : directory.candidate.candidate.targetId =
      below.candidate.candidate.targetId := under.1.symm
  have deeper : compare (depth below.candidate.candidate.relPath)
      (depth directory.candidate.candidate.relPath) = .gt :=
    Nat.compare_eq_gt.mpr under.depth_lt
  simp [canonicalOrder, target, deeper]

theorem planningOrder_pairwise (permits : List PolicyPermit) :
    (planningOrder permits).Pairwise fun earlier later =>
      isDirectory earlier = true → ¬ Under later earlier := by
  unfold planningOrder
  rw [List.pairwise_append]
  have file : ∀ permit ∈ sorted (permits.filter fun permit =>
      !isDirectory permit), isDirectory permit = false := by
    intro permit mem
    simpa using (List.mem_filter.mp (mem_sorted.mp mem)).2
  refine ⟨?_, ?_, ?_⟩
  · refine (sorted_pairwise _).imp_of_mem fun mem _ _ directory => ?_
    rw [file _ mem] at directory
    cases directory
  · refine (sorted_pairwise _).imp fun ordered _ under => ?_
    rw [under.not_isLE] at ordered
    cases ordered
  · intro earlier mem later _ directory
    rw [file _ mem] at directory
    cases directory

theorem mem_dependenciesOf {iteration : IterationOrder ((TargetId × String) × OperationId)}
    {draft : Draft} {id : OperationId} (registered : (key below, id) ∈ draft.pathToOpId)
    (defined : id ∈ draft.definedOps) (under : Under below directory) :
    id ∈ dependenciesOf iteration draft directory.candidate.candidate := by
  unfold dependenciesOf
  rw [List.mem_filter]
  refine ⟨?_, by simpa using defined⟩
  rw [mem_dedup, List.mem_insertionSort, List.mem_map]
  refine ⟨(key below, id), ?_, rfl⟩
  rw [List.mem_filter, iteration.mem_order]
  refine ⟨registered, ?_⟩
  rw [Bool.and_eq_true, beq_iff_eq]
  exact under

structure Draft.Complete (draft : Draft) (done : List PolicyPermit) : Prop where
  length : done.length = draft.operations.length
  registered : ∀ {permit op}, (permit, op) ∈ done.zip draft.operations →
    (key permit, op.opId) ∈ draft.pathToOpId ∧ op.opId ∈ draft.definedOps
  waits : ∀ {directory op}, (directory, op) ∈ done.zip draft.operations →
    isDirectory directory = true → ∀ {below other}, (below, other) ∈ done.zip draft.operations →
      Under below directory → other.opId ∈ op.dependencies

theorem Draft.Complete.empty : Draft.empty.Complete [] := ⟨rfl, nofun, nofun⟩

section

variable {draft : Draft} {done : List PolicyPermit} {permit : PolicyPermit}
  {opType : OperationType} {dependencies : List OperationId} {reclaim : ByteCount}

theorem Draft.Complete.push (complete : draft.Complete done) (fresh : key permit ∉ done.map key)
    (last : ∀ directory ∈ done, isDirectory directory = true → ¬ Under permit directory)
    (gathers : isDirectory permit = true →
      ∀ {below other}, (below, other) ∈ done.zip draft.operations →
        Under below permit → other.opId ∈ dependencies) :
    (draft.push permit.candidate.candidate opType dependencies
      reclaim).Complete (done ++ [permit]) := by
  have zipped : (done ++ [permit]).zip (draft.push permit.candidate.candidate opType dependencies
        reclaim).operations = done.zip draft.operations ++
        [(permit, ⟨⟨draft.nextId⟩, opType, dependencies, reclaim⟩)] :=
    List.zip_append complete.length
  refine ⟨?_, ?_, ?_⟩
  · simp [Draft.push, complete.length]
  · intro other op mem
    rw [zipped, List.mem_append, List.mem_singleton] at mem
    rcases mem with old | new
    · obtain ⟨registered, defined⟩ := complete.registered old
      refine ⟨Table.mem_upsert.mpr (Or.inl ⟨registered, ?_⟩), List.mem_append_left _ defined⟩
      intro same
      apply fresh
      rw [← show key other = key permit from same]
      exact List.mem_map_of_mem (List.of_mem_zip old).1
    · cases new
      exact ⟨Table.mem_upsert.mpr (Or.inr rfl), List.mem_append_right _ (List.mem_singleton_self _)⟩
  · intro directory op mem isDir below other member' under
    rw [zipped, List.mem_append, List.mem_singleton] at mem member'
    rcases mem with old | new
    · rcases member' with old' | new'
      · exact complete.waits old isDir old' under
      · cases new'
        exact absurd under (last directory (List.of_mem_zip old).1 isDir)
    · cases new
      rcases member' with old' | new'
      · exact gathers isDir old' under
      · cases new'
        exact absurd under.depth_lt (Nat.lt_irrefl _)

end

section

variable (iteration : IterationOrder ((TargetId × String) × OperationId))

variable {done : List PolicyPermit}

theorem planFile_complete {draft : Draft} (complete : draft.Complete done)
    (fresh : key permit ∉ done.map key)
    (last : ∀ directory ∈ done, isDirectory directory = true →
      ¬ Under permit directory) (file : isDirectory permit = false) :
    (planFile draft permit).Complete (done ++ [permit]) := by
  refine complete.push fresh last fun directory => ?_
  rw [file] at directory
  cases directory

theorem planDirectory_complete {draft : Draft} (complete : draft.Complete done)
    (fresh : key permit ∉ done.map key)
    (last : ∀ directory ∈ done, isDirectory directory = true → ¬ Under permit directory) :
    (planDirectory iteration draft permit).Complete (done ++ [permit]) := by
  refine complete.push fresh last fun _ below other mem under => ?_
  obtain ⟨registered, defined⟩ := complete.registered mem
  exact mem_dependenciesOf registered defined under

theorem Draft.Complete.foldl {plan : Draft → PolicyPermit → Draft}
    (step : ∀ {draft done permit}, permit ∈ rest → draft.Complete done → key permit ∉ done.map key →
      (∀ directory ∈ done, isDirectory directory = true → ¬ Under permit directory) →
      (plan draft permit).Complete (done ++ [permit])) {draft : Draft}
    (complete : draft.Complete done) (distinct : ((done ++ rest).map key).Nodup)
    (ordered : (done ++ rest).Pairwise fun earlier later =>
      isDirectory earlier = true → ¬ Under later earlier) :
    (rest.foldl plan draft).Complete (done ++ rest) := by
  induction rest generalizing draft done with
  | nil => simpa using complete
  | cons permit rest ih =>
    have fresh : key permit ∉ done.map key := by
      rw [List.map_append, List.map_cons] at distinct
      intro mem
      exact (List.nodup_append.mp distinct).2.2 _ mem _ (List.mem_cons_self ..) rfl
    have last : ∀ directory ∈ done, isDirectory directory = true →
        ¬ Under permit directory := fun directory mem =>
      (List.pairwise_append.mp ordered).2.2 directory mem permit (List.mem_cons_self ..)
    rw [List.append_cons] at distinct ordered ⊢
    exact ih (fun mem => step (List.mem_cons_of_mem _ mem))
      (step (List.mem_cons_self ..) complete fresh last) distinct ordered

theorem planningOrder_perm (permits : List PolicyPermit) :
    (planningOrder permits).Perm permits := by
  have split := List.filter_append_perm (fun permit => !isDirectory permit) permits
  simp only [Bool.not_not] at split
  exact ((List.perm_insertionSort _ _).append (List.perm_insertionSort _ _)).trans split

theorem key_nodup (distinct : (permits.map key).Nodup) : ((planningOrder permits).map key).Nodup :=
  ((planningOrder_perm permits).map key).nodup_iff.mpr distinct

theorem draft_complete {permits : List PolicyPermit} (distinct : (permits.map key).Nodup) :
    (draft iteration permits).Complete (planningOrder permits) := by
  have whole := key_nodup distinct
  have ordered := planningOrder_pairwise permits
  unfold planningOrder at whole ordered ⊢
  unfold draft
  refine Draft.Complete.foldl (fun _ complete fresh last =>
    planDirectory_complete iteration complete fresh last) ?_ whole ordered
  refine Draft.Complete.empty.foldl ?_ ?_ (List.pairwise_append.mp ordered).1
  · intro drafted done permit mem complete fresh last
    have file := (List.mem_filter.mp (mem_sorted.mp mem)).2
    exact planFile_complete complete fresh last (by simpa using file)
  · rw [List.map_append] at whole
    exact (List.nodup_append.mp whole).1

end

section

variable {iteration : IterationOrder ((TargetId × String) × OperationId)}
  {job : JobId} {catalog : CatalogGeneration} {config : ConfigGeneration}
  {permits : List PolicyPermit} {plan : PlannedPlan}

theorem buildPlan_eq (built : buildPlan iteration job catalog config permits = .ok plan) :
    plan.operations = (draft iteration permits).operations ∧
      plan.totalEstimatedReclaim = (draft iteration permits).totalReclaim := by
  unfold buildPlan at built
  split at built
  · cases built
  · dsimp only at built
    split at built
    · cases built
    · cases built
      exact ⟨rfl, rfl⟩

theorem exists_mem_zip {items : List α} (same : others.map g = items.map f) (mem : other ∈ others) :
    ∃ item, (item, other) ∈ items.zip others ∧ g other = f item := by
  induction others generalizing items with
  | nil => cases mem
  | cons first others ih =>
    cases items with
    | nil => cases same
    | cons item items =>
      rw [List.map_cons, List.map_cons, List.cons.injEq] at same
      rw [List.zip_cons_cons]
      rcases List.mem_cons.mp mem with rfl | mem
      · exact ⟨item, List.mem_cons_self .., same.1⟩
      · obtain ⟨found, zipped, equal⟩ := ih same.2 mem
        exact ⟨found, List.mem_cons_of_mem _ zipped, equal⟩

theorem removedEntry_removal (candidate : Candidate) : (removal candidate).removedEntry =
      some (candidate.targetId, candidate.relPath) := by
  unfold removal
  split <;> rfl

theorem buildPlan_waits (built : buildPlan iteration job catalog config permits = .ok plan)
    (distinct : (permits.map key).Nodup) (scanned : ∀ permit ∈ permits,
      permit.candidate.candidate.relPath.Scanned) {op other : PlannedOperation}
    (mem : op ∈ plan.operations) (member' : other ∈ plan.operations)
    (directory : op.opType = .deleteDirEmpty target path identity)
    (removes : other.opType.removedEntry = some (target, path'))
    (beneath : path'.Beneath path) : other.opId ∈ op.dependencies := by
  rw [(buildPlan_eq built).1] at mem member'
  have aligned := draft_map_opType iteration permits
  obtain ⟨upper, zipped, is⟩ := exists_mem_zip aligned mem
  obtain ⟨lower, zipped', is'⟩ := exists_mem_zip aligned member'
  have entry := removedEntry_removal upper.candidate.candidate
  have entry' := removedEntry_removal lower.candidate.candidate
  rw [← is, directory, OperationType.removedEntry, Option.some.injEq, Prod.mk.injEq] at entry
  rw [← is', removes, Option.some.injEq, Prod.mk.injEq] at entry'
  have isDir : isDirectory upper = true := by
    by_contra file
    have plain : ¬ upper.candidate.candidate.isDir = true := file
    rw [directory, removal, if_neg plain] at is
    cases is
  have seen := scanned upper (mem_planningOrder.mp (List.of_mem_zip zipped).1)
  have seen' := scanned lower (mem_planningOrder.mp (List.of_mem_zip zipped').1)
  rw [← entry.2] at seen
  rw [← entry'.2] at seen'
  refine (draft_complete iteration distinct).waits zipped isDir zipped' ⟨?_, ?_⟩
  · exact entry'.1.symm.trans entry.1
  · have starts := (seen'.plain.startsWith_iff seen.plain).mpr beneath
    rwa [entry.2, entry'.2] at starts

def Draft.Totals (draft : Draft) : Prop :=
  draft.totalReclaim = saturatingSum (draft.operations.map fun op => op.opType.estimatedSize)

theorem Draft.Totals.push {draft : Draft} (totals : draft.Totals)
    (candidate : Candidate) {opType : OperationType} (dependencies : List OperationId)
    (size : opType.estimatedSize = reclaim) :
    (draft.push candidate opType dependencies reclaim).Totals := by
  unfold Draft.Totals Draft.push
  rw [List.map_append, List.map_singleton, saturatingSum_append, size]
  exact congrArg (saturatingAdd · reclaim) totals

theorem buildPlan_total (built : buildPlan iteration job catalog config permits = .ok plan) :
    plan.totalEstimatedReclaim = saturatingSum
      (plan.operations.map fun op => op.opType.estimatedSize) := by
  obtain ⟨operations, total⟩ := buildPlan_eq built
  rw [operations, total]
  have start : Draft.empty.Totals := rfl
  refine List.foldlRecOn (motive := Draft.Totals) _ _
    (List.foldlRecOn (motive := Draft.Totals) _ _ start ?_) ?_
  · exact fun drafted totals permit _ => totals.push _ _ rfl
  · exact fun drafted totals permit _ => totals.push _ _ rfl

end

end CleanupPlanner

end CacheCleaner
