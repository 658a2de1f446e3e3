import CacheCleaner.Recovery.Respect

namespace CacheCleaner

def IterationOrder.Stable (iteration : IterationOrder α) : Prop :=
  ∀ items (keep : α → Bool),
    iteration.order (items.filter keep) = (iteration.order items).filter keep

namespace RecoveryEngine

open Effect Effect.Program

section

variable {disk : Disk} {before : Store} {pairs front back : List (AttemptId × JobId)}
  {done rest : List Repair}

variable {attempt : AttemptId} {intents : List OperationIntent} {repair : Repair} {job : JobId}

theorem Tally.attemptState_ne (tally : Tally) : tally.attemptState ≠ .running := by
  unfold Tally.attemptState
  split
  · nofun
  · split <;> nofun

/-- Where a crash can cut the repairs: before the attempt at hand is closed, or
between the two statements that close it. -/
inductive Cut (disk : Disk) (before : Store)
    (pairs : List (AttemptId × JobId)) (done rest : List Repair) : Prop
  | clean (front back : List (AttemptId × JobId)) (part : List Repair)
      (listed : pairs = front ++ back) (made : done = disk.repairs before front ++ part)
      (unclosed : ∀ repair ∈ part, repair ∈ disk.repairs before back ∧
        ∀ attempt, repair.1 ≠ .attempt attempt)
      (next : ∀ repair ∈ rest.head?, ∀ job, repair.1 ≠ .job job)
  | torn (front back : List (AttemptId × JobId)) (attempt : AttemptId)
      (job : JobId) (part : List Repair) (edit : Cell.Edit (.job job))
      (listed : pairs = front ++ (attempt, job) :: back)
      (made : done = disk.repairs before front ++ part) (closed : disk.attemptRepairs attempt job
        (before.decodedIntents attempt) = part ++ [⟨.job job, edit⟩])
      (next : rest = ⟨.job job, edit⟩ :: disk.repairs before back)

theorem repairs_append : disk.repairs before (front ++ back) =
      disk.repairs before front ++ disk.repairs before back :=
  List.flatMap_append

theorem repairs_cons : disk.repairs before ((attempt, job) :: back) =
      disk.attemptRepairs attempt job (before.decodedIntents attempt) ++
        disk.repairs before back := rfl

theorem attemptRepairs_cut
    (split : disk.attemptRepairs attempt job intents = part ++ repair :: later) :
    (later = [] ∧ ∃ edit, repair = ⟨.job job, edit⟩) ∨
      (∀ made ∈ part, ∀ attempt, made.1 ≠ .attempt attempt) ∧ ∀ job, repair.1 ≠ .job job := by
  have early : ∀ made ∈ intents.flatMap (disk.intentRepairs attempt job),
      (∀ attempt, made.1 ≠ .attempt attempt) ∧ ∀ job, made.1 ≠ .job job :=
    fun made mem => (madeFor_intent mem).2
  rw [Disk.attemptRepairs, Disk.closing, List.append_cons] at split
  rcases List.eq_nil_or_concat later with rfl | ⟨later, last, rfl⟩
  · obtain ⟨-, same⟩ := List.append_inj' split rfl
    exact Or.inl ⟨rfl, _, (List.cons.inj same).1.symm⟩
  · refine Or.inr ?_
    rw [List.concat_eq_append, ← List.cons_append, ← List.append_assoc] at split
    have split := (List.append_inj' split rfl).1
    rcases List.eq_nil_or_concat later with rfl | ⟨later, last, rfl⟩
    · obtain ⟨rfl, same⟩ := List.append_inj' split rfl
      rw [← (List.cons.inj same).1]
      exact ⟨fun made mem => (early made mem).1, fun _ same => by cases same⟩
    · rw [List.concat_eq_append, ← List.cons_append, ← List.append_assoc]
        at split
      have split := (List.append_inj' split rfl).1
      rw [split] at early
      exact ⟨fun made mem => (early made (by simp [mem])).1, (early repair (by simp)).2⟩

theorem head_repairs (head : repair ∈ (disk.repairs before pairs).head?) :
    ∀ job, repair.1 ≠ .job job := by
  have waits : Next (disk.repairs before pairs) .uncompletedAttempts := next_repairs rfl
  cases repairs : disk.repairs before pairs with
  | nil =>
    rw [repairs] at head
    cases head
  | cons first rest =>
    rw [repairs] at head waits
    cases head
    rcases waits with write | ⟨-, other⟩
    · cases write
    · exact other

theorem cut (split : done ++ rest = disk.repairs before pairs) :
    Cut disk before pairs done rest := by
  rcases List.flatten_eq_append_iff.mp split.symm with
    ⟨made, left, lists, rfl, rfl⟩ | ⟨made, part, repair, later, left, lists, rfl, rfl⟩
  · obtain ⟨front, back, rfl, rfl, rfl⟩ := List.map_eq_append_iff.mp lists
    refine .clean front back [] rfl (List.append_nil _).symm
      (List.forall_mem_nil _) fun repair head => head_repairs head
  · obtain ⟨front, back, rfl, rfl, tail⟩ := List.map_eq_append_iff.mp lists
    obtain ⟨pair, back, rfl, here, rfl⟩ := List.map_eq_cons_iff.mp tail
    rcases attemptRepairs_cut here with ⟨rfl, edit, rfl⟩ | ⟨unclosed, next⟩
    · exact .torn front back pair.1 pair.2 part edit rfl rfl here rfl
    · refine .clean front (pair :: back) part rfl rfl ?_ ?_
      · intro made mem
        refine ⟨?_, unclosed made mem⟩
        rw [repairs_cons, here]
        simp [mem]
      · intro first head
        cases head
        exact next

end

section

variable {env : Env}

section

variable {snapshot : CatalogSnapshot} {disk : Disk} {before : Store}
  {pairs : List (AttemptId × JobId)} {done : List Repair} {world : World}

theorem uncompletedAttempts_eq (store : Store) : store.uncompletedAttempts =
      (store.attempts.rows.map AttemptRow.pair).filter fun pair =>
        (store.attempts.find pair.1).any fun row => row.state = .running := by
  rw [List.filter_map]
  refine congrArg (List.map _) (List.filter_congr fun row mem => ?_)
  have found : store.attempts.find row.attemptId = some row := Table.find_of_mem mem
  change _ = (store.attempts.find row.attemptId).any _
  rw [found]
  rfl

theorem Progress.uncompletedAttempts (progress : Progress disk before done world)
    (made : ∀ repair ∈ done, repair ∈ disk.repairs before pairs) : world.store.uncompletedAttempts =
      before.uncompletedAttempts.filter fun pair =>
        Cell.attempt pair.1 ∉ done.map Sigma.fst := by
  rw [uncompletedAttempts_eq, uncompletedAttempts_eq before,
    progress.reworded.attempts, List.filter_filter]
  refine List.filter_congr fun pair _ => ?_
  have shown : world.store.attempts.find pair.1 =
      repairing.replay before.cells done (.attempt pair.1) :=
    congrFun progress.cells (.attempt pair.1)
  rw [shown]
  by_cases closed : Cell.attempt pair.1 ∈ done.map Sigma.fst
  · obtain ⟨edit, mem, replayed⟩ := Overwriting.exists_last_edit closed
    obtain ⟨⟨attempt, job⟩, -, kind⟩ := madeFor (made _ mem)
    rw [replayed]
    cases kind
    simp only [closed, not_true_eq_false, decide_false, Bool.false_and]
    cases before.cells (.attempt pair.1) with
    | none => rfl
    | some row => exact decide_eq_false (Tally.attemptState_ne _)
  · rw [Overwriting.replay_of_not_mem closed]
    simp only [closed, not_false_eq_true, decide_true, Bool.true_and]
    rfl

theorem filter_append_of_distinct {front back : List (AttemptId × JobId)}
    (distinct : ((front ++ back).map Prod.fst).Nodup) [DecidablePred closed]
    (known : ∀ attempt, closed attempt ↔ attempt ∈ front.map Prod.fst) :
    (front ++ back).filter (fun pair => ¬ closed pair.1) = back := by
  rw [List.map_append, List.nodup_append] at distinct
  rw [List.filter_append, List.filter_eq_nil_iff.mpr, List.nil_append, List.filter_eq_self]
  · intro pair mem
    rw [decide_eq_true_eq, known]
    intro inside
    exact distinct.2.2 _ inside _ (List.mem_map_of_mem mem) rfl
  · intro pair mem
    rw [decide_eq_true_eq, known]
    exact not_not_intro (List.mem_map_of_mem mem)

theorem Progress.plannedRepairs
    (progress : Progress (diskOf env snapshot world) world.store done crashed)
    (stable : env.rowOrder.Stable)
    (made : ∀ repair ∈ done, repair ∈ plannedRepairs env snapshot world) :
    RecoveryEngine.plannedRepairs env snapshot crashed =
      (diskOf env snapshot world).repairs world.store
        ((env.rowOrder.order world.store.uncompletedAttempts).filter
          fun pair => Cell.attempt pair.1 ∉ done.map Sigma.fst) := by
  have disk : diskOf env snapshot crashed = diskOf env snapshot world := by
    unfold diskOf
    rw [progress.fs]
    rfl
  unfold RecoveryEngine.plannedRepairs Disk.repairs
  rw [disk, progress.uncompletedAttempts made, stable]
  refine List.flatMap_congr fun pair _ => ?_
  exact attemptRepairs_reworded progress.reworded pair.1 pair.2

/-- The jobs row that was about to be written is written for a later attempt
of the job, or reads the same already. -/
def ClosedLater (crashed : Store) (next : Option Request) : Prop :=
  ∀ job state total, next = some (.write (.updateJobState job state total)) →
      (∃ attempt, (attempt, job) ∈ crashed.uncompletedAttempts) ∨
        ∀ row, crashed.jobs.find job = some row →
          row.state = state ∧ row.totalReclaimedBytes = total

def Interrupted (env : Env) (snapshot : CatalogSnapshot) (world crashed : World)
    (next : Option Request) (done rest : List Repair) : Prop :=
  done ++ rest = plannedRepairs env snapshot world ∧
    Progress (diskOf env snapshot world) world.store done crashed ∧ match next with
    | none => rest = []
    | some request => Next rest request

theorem exists_interrupted (reliable : env.Reliable)
    (snapshot : CatalogSnapshot) (sound : world.store.Sound)
    (legible : world.store.Legible) (count : Nat) : ∃ done rest, Interrupted env snapshot world
      ((reconcileStartupCrashes snapshot).stateAfter env.handler count world)
      ((reconcileStartupCrashes snapshot).trace env.handler world)[count]? done rest := by
  have moments := reconcileStartupCrashes_moments reliable snapshot sound legible
  rcases moments.stateAfter count with
    ⟨request, next, done, rest, split, progress, waits⟩ | ⟨next, ended⟩
  · refine ⟨done, rest, split, progress, ?_⟩
    rw [next]
    exact waits
  · obtain ⟨result, final, ran, -, progress⟩ := moments.returns
    refine ⟨_, [], List.append_nil _, ?_, ?_⟩
    · rw [ended, ran]
      exact progress
    · rw [next]

theorem job_of_write {repair : Repair} {state : JobRowState}
    (write : Request.write repair.write = .write (.updateJobState job state total)) :
    repair.1 = .job job := by
  obtain ⟨cell, edit⟩ := repair
  cases edit <;> cases write
  rfl

theorem edit_job_eq_iff : Cell.Edit.apply (.job state total : Cell.Edit (.job job)) row = row ↔
      ∀ old, row = some old → old.state = state ∧ old.totalReclaimedBytes = total := by
  cases row with
  | none => exact iff_of_true rfl nofun
  | some row =>
    constructor
    · intro same old here
      cases here
      have same := Option.some.inj same
      exact ⟨(congrArg JobRow.state same).symm, (congrArg JobRow.totalReclaimedBytes same).symm⟩
    · intro same
      obtain ⟨rfl, rfl⟩ := same row rfl
      rfl

section

variable {front back left : List (AttemptId × JobId)} {part rest : List Repair}
  {crashed : World} {next : Option Request}

theorem replay_clean (distinct : ((front ++ back).map Prod.fst).Nodup)
    (made : done = disk.repairs before front ++ part)
    (unclosed : ∀ repair ∈ part, repair ∈ disk.repairs before back ∧
      ∀ attempt, repair.1 ≠ .attempt attempt) :
    repairing.replay (repairing.replay before.cells done)
        (disk.repairs before ((front ++ back).filter
          fun pair => Cell.attempt pair.1 ∉ done.map Sigma.fst)) =
      repairing.replay before.cells (disk.repairs before (front ++ back)) := by
  have closed : ∀ attempt, Cell.attempt attempt ∈ done.map Sigma.fst ↔
      attempt ∈ front.map Prod.fst := by
    intro attempt
    rw [made, List.map_append, List.mem_append, attempt_mem_repairs, or_iff_left]
    intro mem
    obtain ⟨repair, inside, cell⟩ := List.mem_map.mp mem
    exact (unclosed repair inside).2 attempt cell
  rw [filter_append_of_distinct distinct closed, repairs_append,
    Overwriting.replay_append, made, Overwriting.replay_append]
  refine Overwriting.replay_replay fun repair mem => ?_
  exact List.mem_map_of_mem (unclosed repair mem).1

theorem closedLater_clean (crashed : Store) (waits : match next with
      | none => rest = []
      | some request => Next rest request)
    (head : ∀ repair ∈ rest.head?, ∀ job, repair.1 ≠ .job job) :
    ClosedLater crashed next := by
  intro job state total written
  rw [written] at waits
  cases rest with
  | nil => cases waits
  | cons repair rest =>
    rcases waits with write | ⟨quiet, -⟩
    · exact absurd (job_of_write write.symm) (head repair rfl job)
    · cases quiet

variable {attempt : AttemptId} {job : JobId} {edit : Cell.Edit (.job job)}

theorem repairs_torn (made : done = disk.repairs before front ++ part)
    (closed : disk.attemptRepairs attempt job (before.decodedIntents attempt) =
      part ++ [⟨.job job, edit⟩]) : disk.repairs before (front ++ [(attempt, job)]) =
      done ++ [⟨.job job, edit⟩] := by
  rw [repairs_append, repairs_cons, closed, made]
  simp [Disk.repairs]

theorem filter_torn (distinct : ((front ++ [(attempt, job)] ++ back).map Prod.fst).Nodup)
    (through : disk.repairs before (front ++ [(attempt, job)]) = done ++ [⟨.job job, edit⟩]) :
    (front ++ [(attempt, job)] ++ back).filter
        (fun pair => Cell.attempt pair.1 ∉ done.map Sigma.fst) = back := by
  have stopped : ∀ other, Cell.attempt other ∈ done.map Sigma.fst ↔
      other ∈ (front ++ [(attempt, job)]).map Prod.fst := by
    intro other
    have known : Cell.attempt other ∈
        (disk.repairs before (front ++ [(attempt, job)])).map Sigma.fst ↔
          other ∈ (front ++ [(attempt, job)]).map Prod.fst :=
      attempt_mem_repairs
    rw [← known, through]
    simp
  exact filter_append_of_distinct distinct stopped

theorem replay_torn_iff (through : disk.repairs before (front ++ [(attempt, job)]) =
      done ++ [⟨.job job, edit⟩]) : repairing.replay (repairing.replay before.cells done)
        (disk.repairs before back) = repairing.replay before.cells
        (disk.repairs before (front ++ [(attempt, job)] ++ back)) ↔ job ∈ back.map Prod.snd ∨
        edit.apply (repairing.replay before.cells done (.job job)) =
          repairing.replay before.cells done (.job job) := by
  rw [repairs_append, through, Overwriting.replay_append,
    Overwriting.replay_append, eq_comm, ← job_mem_repairs]
  exact Overwriting.replay_write_iff

theorem closedLater_torn_iff
    (listed : ∀ pair, pair ∈ crashed.store.uncompletedAttempts ↔ pair ∈ back)
    (waits : match next with
      | none => rest = []
      | some request => Next rest request)
    (head : rest = ⟨.job job, edit⟩ :: disk.repairs before back) :
    ClosedLater crashed.store next ↔ job ∈ back.map Prod.snd ∨
        edit.apply (crashed.store.cells (.job job)) = crashed.store.cells (.job job) := by
  subst head
  cases edit with
  | job state total =>
    have here : next = some (.write (.updateJobState job state total)) := by
      cases next with
      | none => cases waits
      | some request =>
        rcases waits with write | ⟨-, other⟩
        · rw [write]
          rfl
        · exact absurd rfl (other job)
    have later : (∃ attempt, (attempt, job) ∈ crashed.store.uncompletedAttempts)
        ↔ job ∈ back.map Prod.snd := by
      simp [listed]
    refine Iff.trans ?_ (or_congr later edit_job_eq_iff.symm)
    constructor
    · intro closed
      exact closed job state total here
    · intro closed other otherState otherTotal written
      rw [here] at written
      cases written
      exact closed

end

theorem Interrupted.replay_iff (stable : env.rowOrder.Stable)
    (interrupted : Interrupted env snapshot world crashed next done rest) :
    repairing.replay crashed.store.cells (plannedRepairs env snapshot crashed) =
      repairing.replay world.store.cells (plannedRepairs env snapshot world) ↔
      ClosedLater crashed.store next := by
  obtain ⟨split, progress, waits⟩ := interrupted
  have made : ∀ repair ∈ done, repair ∈ plannedRepairs env snapshot world := by
    intro repair mem
    rw [← split]
    exact List.mem_append_left _ mem
  have distinct := uncompletedAttempts_distinct env.rowOrder world.store
  have left : env.rowOrder.order crashed.store.uncompletedAttempts =
      (env.rowOrder.order world.store.uncompletedAttempts).filter
        fun pair => Cell.attempt pair.1 ∉ done.map Sigma.fst := by
    rw [progress.uncompletedAttempts made, stable]
  rw [progress.plannedRepairs stable made, progress.cells]
  unfold plannedRepairs at split ⊢
  cases cut split with
  | clean front back part listed made unclosed head =>
    rw [listed] at distinct ⊢
    exact iff_of_true (replay_clean distinct made unclosed) (closedLater_clean _ waits head)
  | torn front back attempt job part edit listed made closed head =>
    rw [List.append_cons] at listed
    rw [listed] at distinct left ⊢
    have through := repairs_torn made closed
    rw [filter_torn distinct through] at left ⊢
    have remaining : ∀ pair, pair ∈ crashed.store.uncompletedAttempts ↔ pair ∈ back := by
      intro pair
      rw [← left, env.rowOrder.mem_order]
    rw [replay_torn_iff through, closedLater_torn_iff remaining waits head, progress.cells]

theorem returns_of_completed (reliable : env.Reliable)
    (snapshot : CatalogSnapshot) (completed : world.store.uncompletedAttempts = []) :
    Returns env.handler (fun result after => result = .ok 0 ∧ World.Same world after)
      (reconcileStartupCrashes snapshot) world := by
  refine Rules.quiet_returns rfl fun reply read => ?_
  change reply = env.query world (env.rowOrder.order world.store.uncompletedAttempts) at read
  have nothing : env.rowOrder.order world.store.uncompletedAttempts = [] := by
    rw [completed]
    exact (env.rowOrder.perm []).eq_nil
  rw [read, reliable.query, nothing]
  exact Returns.done ⟨rfl, (World.Same.refl world).advance⟩

theorem Progress.completed (progress : Progress (diskOf env snapshot world) world.store
      (RecoveryEngine.plannedRepairs env snapshot world) after) :
    after.store.uncompletedAttempts = [] := by
  rw [progress.uncompletedAttempts fun repair mem => mem, List.filter_eq_nil_iff]
  intro pair mem
  rw [decide_eq_true_eq, not_not]
  refine attempt_mem_repairs.mpr (List.mem_map_of_mem ?_)
  exact env.rowOrder.mem_order.mpr mem

end

end

/-- Recovery cut off after any number of requests and run again to the end:
it returns, a further run finds nothing to do, and the rows are those of an
uninterrupted run exactly when the crash did not part the state of a job from
the state of its attempt. -/
theorem recovery_resumes_iff {env : Env} (reliable : env.Reliable)
    (stable : env.rowOrder.Stable) (snapshot : CatalogSnapshot) (world : World)
    (sound : world.store.Sound) (legible : world.store.Legible) (count : Nat) :
    let recovery := reconcileStartupCrashes snapshot
    let crashed := recovery.stateAfter env.handler count world
    ∃ recovered whole resumed again further,
      recovery.run env.handler world = (some (.ok recovered), whole) ∧
      recovery.run env.handler crashed = (some (.ok resumed), again) ∧
      recovery.run env.handler again = (some (.ok 0), further) ∧ further.store = again.store ∧
      (again.store.cells = whole.store.cells ↔ ClosedLater crashed.store
          (recovery.trace env.handler world)[count]?) := by
  intro recovery crashed
  obtain ⟨done, rest, interrupted⟩ := exists_interrupted reliable snapshot sound legible count
  have reworded := interrupted.2.1.reworded
  obtain ⟨_, whole, ran, ⟨recovered, rfl⟩, finished⟩ :=
    (reconcileStartupCrashes_moments reliable snapshot sound legible).returns
  obtain ⟨_, again, reran, ⟨resumed, rfl⟩, resumedTo⟩ :=
    (reconcileStartupCrashes_moments reliable snapshot (reworded.sound sound)
      (reworded.legible legible)).returns
  obtain ⟨_, further, last, rfl, same⟩ := returns_of_completed reliable snapshot resumedTo.completed
  refine ⟨recovered, whole, resumed, again, further, ran, reran, last, same.store, ?_⟩
  rw [resumedTo.cells, finished.cells]
  exact interrupted.replay_iff stable

def Request.closes : Request → Bool
  | .write (.updateJobState _ _ _) => true
  | _ => false

theorem sample_recovery_resumes : ∃ recovered whole resumed again further,
      (reconcileStartupCrashes CleanupExecutor.Sample.snapshot).run
          CleanupExecutor.Sample.calmEnv.handler Sample.recreated = (some (.ok recovered), whole) ∧
      (reconcileStartupCrashes CleanupExecutor.Sample.snapshot).run
          CleanupExecutor.Sample.calmEnv.handler
          ((reconcileStartupCrashes CleanupExecutor.Sample.snapshot).stateAfter
            CleanupExecutor.Sample.calmEnv.handler 5 Sample.recreated) =
        (some (.ok resumed), again) ∧ (reconcileStartupCrashes CleanupExecutor.Sample.snapshot).run
          CleanupExecutor.Sample.calmEnv.handler again = (some (.ok 0), further) ∧
      further.store = again.store ∧ again.store.cells = whole.store.cells := by
  have reliable : CleanupExecutor.Sample.calmEnv.Reliable := Env.calm_reliable (by decide)
  obtain ⟨recovered, whole, resumed, again, further, ran, reran, last, same,
    iff⟩ := recovery_resumes_iff reliable (fun _ _ => rfl)
      CleanupExecutor.Sample.snapshot Sample.recreated
      Sample.crashed_reachable.owned.sound Sample.crashed_legible 5
  refine ⟨recovered, whole, resumed, again, further, ran, reran, last, same, iff.mpr ?_⟩
  intro job state total written
  have other : (((reconcileStartupCrashes CleanupExecutor.Sample.snapshot).trace
      CleanupExecutor.Sample.calmEnv.handler Sample.recreated)[5]?.any
        Request.closes) = false := by
    decide +kernel
  rw [written] at other
  cases other

/-- A crash between the two closing statements: the attempt counts as handled
and its job stays admitted for good. -/
theorem torn_closing_leaves_job_admitted :
    let recovery := reconcileStartupCrashes CleanupExecutor.Sample.snapshot
    let handler := CleanupExecutor.Sample.calmEnv.handler
    let crashed := recovery.stateAfter handler 7 Sample.recreated
    Reachable Sample.recreated.store Sample.ledger ∧ Sample.recreated.store.Legible ∧
      (recovery.run handler Sample.recreated).2.store.jobs.rows.map JobRow.state = [.failed] ∧
      (recovery.run handler crashed).1 = some (.ok 0) ∧
      (recovery.run handler crashed).2.store.jobs.rows.map JobRow.state = [.admitted] := by
  refine ⟨Sample.crashed_reachable, Sample.crashed_legible, ?_, ?_, ?_⟩ <;> decide +kernel

end RecoveryEngine

end CacheCleaner
