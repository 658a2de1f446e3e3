import CacheCleaner.Recovery.Repairs

namespace CacheCleaner.RecoveryEngine

open Effect Effect.Program

/-- Recovery has made the repairs of `done`, and nothing else. -/
structure Progress (disk : Disk) (before : Store) (done : List Repair) (world : World) : Prop where
  fs : world.fs = disk.fs
  reworded : Reworded before world.store
  cells : world.store.cells = repairing.replay before.cells done

def Next (rest : List Repair) (request : Request) : Prop :=
  match rest with
  | [] => request.quiet = true
  | repair :: _ =>
    request = .write repair.write ∨ request.quiet = true ∧ ∀ job, repair.1 ≠ .job job

def Underway (disk : Disk) (before : Store) (whole : List Repair)
    (world : World) (request : Request) : Prop :=
  ∃ done rest, done ++ rest = whole ∧ Progress disk before done world ∧ Next rest request

section

variable {env : Env} {disk : Disk} {before : Store}
  {done rest whole : List Repair} {world : World} {attempt : AttemptId} {job : JobId}

variable {request : Request} {pairs : List (AttemptId × JobId)} {intents : List OperationIntent}

theorem Progress.advance (progress : Progress disk before done world) :
    Progress disk before done world.advance :=
  ⟨progress.fs, progress.reworded, progress.cells⟩

theorem Progress.repair {post : α → World → Prop} {next : Result Unit → Act α} {repair : Repair}
    (progress : Progress disk before done world) (reliable : env.Reliable)
    (split : done ++ repair :: rest = whole) (fits : repair.Fits before)
    (continues : ∀ world, Progress disk before (done ++ [repair]) world →
      Moments env.handler (Underway disk before whole) post (next (.ok ())) world) :
    Moments env.handler (Underway disk before whole) post
      (ask (.write repair.write) >>= next) world := by
  refine ⟨⟨done, _, split, progress, Or.inl rfl⟩, ?_⟩
  change Moments env.handler (Underway disk before whole) post
    (next (env.execute world repair.write).1) (env.execute world repair.write).2
  unfold Env.execute
  simp only [reliable.writes, (fits_reworded progress.reworded fits).statement (reliable.clock _)]
  refine continues _ ⟨progress.fs, ?_, ?_⟩
  · exact progress.reworded.trans (Reworded.repaired ..)
  · change (world.store.repaired (env.now world.tick) repair).cells = _
    rw [Store.cells_repaired, progress.cells, Overwriting.replay_append]
    rfl

theorem Progress.repair_only {post : Result Unit → World → Prop}
    {repair : Repair} (progress : Progress disk before done world)
    (reliable : env.Reliable) (split : done ++ repair :: rest = whole) (fits : repair.Fits before)
    (holds : ∀ world, Progress disk before (done ++ [repair]) world → post (.ok ()) world) :
    Moments env.handler (Underway disk before whole) post (ask (.write repair.write)) world := by
  have bound : Moments env.handler (Underway disk before whole) post
      (ask (.write repair.write) >>= fun reply => Program.done reply) world :=
    progress.repair reliable split fits holds
  exact bound

theorem Progress.quiet (progress : Progress disk before done world)
    (silent : request.quiet = true) (split : done ++ rest = whole) (waits : Next rest request)
    (continues : ∀ reply, reply = (env.respond request world).1 →
      Moments env.handler (Underway disk before whole) post (next reply) world.advance) :
    Moments env.handler (Underway disk before whole) post (ask request >>= next) world := by
  refine ⟨⟨done, rest, split, progress, waits⟩, ?_⟩
  change Moments env.handler (Underway disk before whole) post
    (next (env.respond request world).1) (env.respond request world).2
  rw [env.respond_quiet silent]
  exact continues _ rfl

theorem next_intentRepairs {intent : OperationIntent} (silent : request.quiet = true) :
    Next (disk.intentRepairs attempt job intent ++ rest) request := by
  unfold Disk.intentRepairs
  cases disk.verdict? intent <;> exact Or.inr ⟨silent, nofun⟩

theorem reconcileIntent_moments (reliable : env.Reliable)
    (kernel : env.openat2 = disk.openat2) {intent : OperationIntent}
    (progress : Progress disk before done world)
    (split : done ++ (disk.intentRepairs attempt job intent ++ rest) = whole)
    (fits : ∀ repair ∈ disk.intentRepairs attempt job intent, repair.Fits before) (tally : Tally) :
    Moments env.handler (Underway disk before whole)
      (fun result after => result = disk.count tally intent ∧
        Progress disk before (done ++ disk.intentRepairs attempt job intent) after)
      (reconcileIntent disk.snapshot attempt job intent tally) world := by
  unfold reconcileIntent
  cases found : disk.snapshot.get intent.targetId with
  | none =>
    have lost : disk.verdict? intent = none := by
      simp [Disk.verdict?, found]
    simp only [Disk.intentRepairs, lost] at split fits ⊢
    refine progress.repair reliable split (fits _ (by simp)) ?_
    exact fun world later => ⟨by simp [Disk.count, lost], later⟩
  | some target =>
    have verifying : Moments env.handler (Underway disk before whole)
        (fun outcome after => World.Same world after ∧
          outcome = PostconditionVerifier.inspect world.fs env.openat2
            target.basePath intent.relPath intent.expectedIdentity)
        (PostconditionVerifier.verifyOperationPostcondition target.basePath
          intent.relPath intent.expectedIdentity) world := by
      refine (PostconditionVerifier.verifyOperationPostcondition_spec reliable
        (World.Same.refl world) _ _ _).moments total_verifyOperationPostcondition
        (PostconditionVerifier.verifyOperationPostcondition_quiet _ _ _) ?_
      intro state request same silent
      refine ⟨done, _, split, ⟨same.fs.trans progress.fs, ?_, ?_⟩, next_intentRepairs silent⟩
      · rw [same.store]
        exact progress.reworded
      · rw [same.store]
        exact progress.cells
    refine verifying.bind ?_
    rintro outcome middle ⟨same, rfl⟩
    rw [progress.fs, kernel]
    generalize judged : judge intent (PostconditionVerifier.inspect disk.fs
      disk.openat2 target.basePath intent.relPath intent.expectedIdentity) = verdict
    have seen : disk.verdict? intent = some verdict := by
      simp [Disk.verdict?, found, judged]
    have middle : Progress disk before done middle :=
      ⟨same.fs.trans progress.fs, same.store ▸ progress.reworded, same.store ▸ progress.cells⟩
    simp only [Disk.intentRepairs, seen] at split fits ⊢
    refine middle.repair reliable split (fits _ (by simp)) ?_
    intro world later
    rw [List.cons_append, List.append_cons] at split
    refine later.repair reliable split (fits _ (by simp)) ?_
    intro world last
    refine ⟨by simp [Disk.count, seen], ?_⟩
    rw [List.append_assoc] at last
    exact last

theorem reconcileIntents_moments (reliable : env.Reliable) (kernel : env.openat2 = disk.openat2)
    (progress : Progress disk before done world)
    (split : done ++ (intents.flatMap (disk.intentRepairs attempt job) ++ rest) = whole)
    (fits : ∀ repair ∈ intents.flatMap (disk.intentRepairs attempt job),
      repair.Fits before) (tally : Tally) : Moments env.handler (Underway disk before whole)
      (fun result after => result = intents.foldl disk.count tally ∧ Progress disk before
          (done ++ intents.flatMap (disk.intentRepairs attempt job)) after)
      (reconcileIntents disk.snapshot attempt job intents tally) world := by
  induction intents generalizing done world tally with
  | nil =>
    refine ⟨rfl, ?_⟩
    rw [List.flatMap_nil, List.append_nil]
    exact progress
  | cons intent intents ih =>
    rw [List.flatMap_cons] at split fits ⊢
    rw [List.append_assoc] at split
    refine (reconcileIntent_moments reliable kernel progress split
      (fun repair mem => fits repair (List.mem_append_left _ mem)) tally).bind ?_
    rintro _ middle ⟨rfl, later⟩
    rw [← List.append_assoc] at split ⊢
    exact ih later split (fun repair mem => fits repair (List.mem_append_right _ mem)) _

theorem closeAttempt_moments (reliable : env.Reliable) {tally : Tally}
    (progress : Progress disk before done world)
    (split : done ++ (Disk.closing attempt job tally ++ rest) = whole)
    (fits : ∀ repair ∈ Disk.closing attempt job tally, repair.Fits before) :
    Moments env.handler (Underway disk before whole) (fun result after => result = .ok () ∧
        Progress disk before (done ++ Disk.closing attempt job tally) after)
      (closeAttempt attempt job tally) world := by
  refine progress.repair reliable split (fits _ (by simp [Disk.closing])) ?_
  intro world later
  rw [Disk.closing, List.cons_append, List.append_cons] at split
  refine later.repair_only reliable split (fits _ (by simp [Disk.closing])) ?_
  intro world last
  rw [List.append_assoc] at last
  exact ⟨rfl, last⟩

theorem next_attemptRepairs (silent : request.quiet = true) :
    Next (disk.attemptRepairs attempt job intents ++ rest) request := by
  cases intents with
  | nil => exact Or.inr ⟨silent, nofun⟩
  | cons intent intents =>
    rw [Disk.attemptRepairs, List.flatMap_cons, List.append_assoc, List.append_assoc]
    exact next_intentRepairs silent

theorem reconcileAttempt_moments (reliable : env.Reliable)
    (kernel : env.openat2 = disk.openat2) (legible : before.Legible)
    (progress : Progress disk before done world) (split : done ++ (disk.attemptRepairs attempt job
      (before.decodedIntents attempt) ++ rest) = whole)
    (fits : ∀ repair ∈ disk.attemptRepairs attempt job
      (before.decodedIntents attempt), repair.Fits before) :
    Moments env.handler (Underway disk before whole)
      (fun result after => (∃ succeeded, result = .ok succeeded) ∧
        Progress disk before (done ++ disk.attemptRepairs attempt job
          (before.decodedIntents attempt)) after)
      (reconcileAttempt disk.snapshot attempt job) world := by
  refine progress.quiet rfl split (next_attemptRepairs rfl) fun reply read => ?_
  change reply = env.query world (world.store.intentsForAttempt attempt) at read
  rw [read, reliable.query]
  simp only [(progress.reworded.legible legible).mapM]
  -- the intents are read back with other states, but the same repairs follow
  rw [← attemptRepairs_reworded progress.reworded] at split fits ⊢
  unfold Disk.attemptRepairs at split fits ⊢
  rw [List.append_assoc] at split
  refine (reconcileIntents_moments reliable kernel progress.advance split
    (fun repair mem => fits repair (List.mem_append_left _ mem)) Tally.start).bind ?_
  rintro _ middle ⟨rfl, later⟩
  rw [← List.append_assoc] at split
  refine (closeAttempt_moments reliable later split
    fun repair mem => fits repair (List.mem_append_right _ mem)).bind ?_
  rintro _ final ⟨rfl, last⟩
  rw [List.append_assoc] at last
  exact ⟨⟨_, rfl⟩, last⟩

theorem reconcileAttempts_moments (reliable : env.Reliable)
    (kernel : env.openat2 = disk.openat2) (legible : before.Legible)
    (progress : Progress disk before done world)
    (split : done ++ disk.repairs before pairs = whole)
    (fits : ∀ repair ∈ disk.repairs before pairs, repair.Fits before) (recovered : Nat) :
    Moments env.handler (Underway disk before whole)
      (fun result after => (∃ count, result = .ok count) ∧ Progress disk before whole after)
      (reconcileAttempts disk.snapshot pairs recovered) world := by
  induction pairs generalizing done world recovered with
  | nil =>
    rw [Disk.repairs, List.flatMap_nil, List.append_nil] at split
    exact ⟨⟨recovered, rfl⟩, split ▸ progress⟩
  | cons pair pairs ih =>
    rw [Disk.repairs, List.flatMap_cons] at split fits
    refine (reconcileAttempt_moments reliable kernel legible progress split
      fun repair mem => fits repair (List.mem_append_left _ mem)).bind ?_
    rintro _ middle ⟨⟨succeeded, rfl⟩, later⟩
    rw [← List.append_assoc] at split
    exact ih later split (fun repair mem => fits repair (List.mem_append_right _ mem)) _

theorem next_repairs
    (silent : request.quiet = true) : Next (disk.repairs before pairs) request := by
  cases pairs with
  | nil => exact silent
  | cons pair pairs => exact next_attemptRepairs silent

end

inductive MadeFor (disk : Disk) (intents : List OperationIntent) (attempt : AttemptId)
    (job : JobId) : Repair → Prop
  | intent (mem : intent ∈ intents) :
      MadeFor disk intents attempt job ⟨.intent attempt intent.opId, .intent (disk.state intent)⟩
  | operation (mem : intent ∈ intents) (judged : disk.verdict? intent = some verdict) :
      MadeFor disk intents attempt job
        ⟨.operation job intent.opId, .operation (resultRow job intent verdict)⟩
  | attempt : MadeFor disk intents attempt job
      ⟨.attempt attempt, .attempt (disk.tally intents).attemptState⟩
  | job : MadeFor disk intents attempt job
      ⟨.job job, .job (disk.tally intents).jobState (disk.tally intents).totalReclaimed⟩

section

variable {disk : Disk} {before : Store} {pairs : List (AttemptId × JobId)} {repair : Repair}
  {attempt : AttemptId} {job : JobId} {intents : List OperationIntent}

theorem madeFor_intent (mem : repair ∈ intents.flatMap (disk.intentRepairs attempt job)) :
    MadeFor disk intents attempt job repair ∧
      (∀ attempt, repair.1 ≠ .attempt attempt) ∧ ∀ job, repair.1 ≠ .job job := by
  obtain ⟨intent, known, inside⟩ := List.mem_flatMap.mp mem
  unfold Disk.intentRepairs at inside
  have made : MadeFor disk intents attempt job _ := .intent known
  unfold Disk.state at made
  cases judged : disk.verdict? intent with
  | none =>
    rw [judged] at inside made
    cases List.mem_singleton.mp inside
    exact ⟨made, nofun, nofun⟩
  | some verdict =>
    rw [judged] at inside made
    rcases List.mem_cons.mp inside with rfl | inside
    · exact ⟨made, nofun, nofun⟩
    · cases List.mem_singleton.mp inside
      exact ⟨.operation known judged, nofun, nofun⟩

theorem madeFor (mem : repair ∈ disk.repairs before pairs) : ∃ pair ∈ pairs,
    MadeFor disk (before.decodedIntents pair.1) pair.1 pair.2 repair := by
  obtain ⟨pair, listed, inside⟩ := List.mem_flatMap.mp mem
  refine ⟨pair, listed, ?_⟩
  rcases List.mem_append.mp inside with early | last
  · exact (madeFor_intent early).1
  · rcases List.mem_cons.mp last with rfl | last
    · exact .attempt
    · cases List.mem_singleton.mp last
      exact .job

theorem MadeFor.mem (made : MadeFor disk (before.decodedIntents attempt) attempt job repair)
    (listed : (attempt, job) ∈ pairs) : repair ∈ disk.repairs before pairs := by
  refine List.mem_flatMap.mpr ⟨_, listed, List.mem_append.mpr ?_⟩
  cases made with
  | @intent intent known =>
    refine Or.inl (List.mem_flatMap.mpr ⟨intent, known, ?_⟩)
    unfold Disk.intentRepairs Disk.state
    cases disk.verdict? intent <;> exact List.mem_cons_self ..
  | @operation intent verdict known judged =>
    refine Or.inl (List.mem_flatMap.mpr ⟨intent, known, ?_⟩)
    simp [Disk.intentRepairs, judged]
  | attempt => exact Or.inr (List.mem_cons_self ..)
  | job => exact Or.inr (List.mem_cons_of_mem _ (List.mem_cons_self ..))

theorem attempt_mem_repairs : Cell.attempt attempt ∈ (disk.repairs before pairs).map Sigma.fst ↔
      attempt ∈ pairs.map Prod.fst := by
  constructor
  · intro mem
    obtain ⟨repair, inside, cell⟩ := List.mem_map.mp mem
    obtain ⟨pair, listed, made⟩ := madeFor inside
    cases made <;> cases cell
    exact List.mem_map_of_mem listed
  · intro mem
    obtain ⟨pair, listed, rfl⟩ := List.mem_map.mp mem
    exact List.mem_map.mpr ⟨_, MadeFor.attempt.mem listed, rfl⟩

theorem job_mem_repairs : Cell.job job ∈ (disk.repairs before pairs).map Sigma.fst ↔
      job ∈ pairs.map Prod.snd := by
  constructor
  · intro mem
    obtain ⟨repair, inside, cell⟩ := List.mem_map.mp mem
    obtain ⟨pair, listed, made⟩ := madeFor inside
    cases made <;> cases cell
    exact List.mem_map_of_mem listed
  · intro mem
    obtain ⟨pair, listed, rfl⟩ := List.mem_map.mp mem
    exact List.mem_map.mpr ⟨_, MadeFor.job.mem listed, rfl⟩

end

variable {env : Env}

def diskOf (env : Env) (snapshot : CatalogSnapshot) (world : World) : Disk :=
  ⟨world.fs, env.openat2, snapshot⟩

def plannedRepairs (env : Env) (snapshot : CatalogSnapshot) (world : World) : List Repair :=
  (diskOf env snapshot world).repairs world.store
    (env.rowOrder.order world.store.uncompletedAttempts)

theorem reconcileStartupCrashes_moments (reliable : env.Reliable)
    (snapshot : CatalogSnapshot) (sound : world.store.Sound)
    (legible : world.store.Legible) : Moments env.handler
      (Underway (diskOf env snapshot world) world.store (plannedRepairs env snapshot world))
      (fun result after => (∃ count, result = .ok count) ∧
        Progress (diskOf env snapshot world) world.store (plannedRepairs env snapshot world) after)
      (reconcileStartupCrashes snapshot) world := by
  have start : Progress (diskOf env snapshot world) world.store [] world := ⟨rfl, .refl _, rfl⟩
  refine start.quiet rfl (List.nil_append _) (next_repairs rfl) fun reply read => ?_
  change reply = env.query world (env.rowOrder.order world.store.uncompletedAttempts) at read
  rw [read, reliable.query]
  refine reconcileAttempts_moments reliable rfl legible start.advance (List.nil_append _) ?_ 0
  intro repair mem
  obtain ⟨pair, listed, inside⟩ := List.mem_flatMap.mp mem
  rw [env.rowOrder.mem_order] at listed
  obtain ⟨row, selected, rfl⟩ := List.mem_map.mp listed
  exact fits_attemptRepairs sound legible (List.mem_filter.mp selected).1 repair inside

structure ReconciledAll (disk : Disk) (pairs : List (AttemptId × JobId))
    (before after : Store) : Prop where
  legible : before.Legible
  reworded : Reworded before after
  cells : after.cells = repairing.replay before.cells (disk.repairs before pairs)

theorem reconcileStartupCrashes_returns (reliable : env.Reliable)
    (snapshot : CatalogSnapshot) (sound : world.store.Sound)
    (legible : world.store.Legible) : Returns env.handler
      (fun result final => (∃ count, result = .ok count) ∧ final.fs = world.fs ∧
        ReconciledAll ⟨world.fs, env.openat2, snapshot⟩
          (env.rowOrder.order world.store.uncompletedAttempts) world.store final.store)
      (reconcileStartupCrashes snapshot) world := by
  obtain ⟨result, final, ran, count, progress⟩ :=
    (reconcileStartupCrashes_moments reliable snapshot sound legible).returns
  exact ⟨result, final, ran, count, progress.fs, legible, progress.reworded, progress.cells⟩

theorem uncompletedAttempts_distinct (order : IterationOrder _) (store : Store) :
    ((order.order store.uncompletedAttempts).map Prod.fst).Nodup := by
  refine ((order.perm _).map Prod.fst).nodup_iff.mpr ?_
  unfold Store.uncompletedAttempts
  rw [List.map_map]
  exact store.attempts.distinct.sublist (List.filter_sublist.map _)

theorem mem_uncompletedAttempts (order : IterationOrder _) {store : Store}
    (mem : row ∈ store.attempts.rows) :
    (row.attemptId, row.jobId) ∈ order.order store.uncompletedAttempts ↔ row.state = .running := by
  rw [order.mem_order]
  constructor
  · intro listed
    obtain ⟨other, inside, same⟩ := List.mem_map.mp listed
    obtain ⟨known, running⟩ := List.mem_filter.mp inside
    rw [Table.eq_of_key_eq mem known (congrArg Prod.fst same).symm]
    exact of_decide_eq_true running
  · intro running
    exact List.mem_map.mpr ⟨row, List.mem_filter.mpr ⟨mem, by simp [running]⟩, rfl⟩

namespace ReconciledAll

variable {disk : Disk} {pairs : List (AttemptId × JobId)} {before after : Store}
  {attempt : AttemptId} {job : JobId}

theorem shown (all : ReconciledAll disk pairs before after) (cell : Cell) :
    (∃ attempt job edit, (attempt, job) ∈ pairs ∧
      MadeFor disk (before.decodedIntents attempt) attempt job ⟨cell, edit⟩ ∧
        after.cells cell = edit.apply (before.cells cell)) ∨
      cell ∉ (disk.repairs before pairs).map Sigma.fst ∧ after.cells cell = before.cells cell := by
  rw [all.cells]
  by_cases edited : cell ∈ (disk.repairs before pairs).map Sigma.fst
  · obtain ⟨edit, mem, replayed⟩ := Overwriting.exists_last_edit edited
    obtain ⟨⟨attempt, job⟩, listed, made⟩ := madeFor mem
    exact Or.inl ⟨attempt, job, edit, listed, made, replayed _⟩
  · exact Or.inr ⟨edited, Overwriting.replay_of_not_mem edited⟩

theorem cells_intent (mem : row ∈ before.intents.rows) :
    before.cells (.intent row.attemptId row.opId) = some row.untimed := by
  have found : before.intents.find (row.attemptId, row.opId) = some row := Table.find_of_mem mem
  exact congrArg (Option.map IntentRow.untimed) found

theorem exists_intent {row shown : IntentRow}
    (seen : after.cells (.intent row.attemptId row.opId) = some shown) :
    ∃ settled ∈ after.intents.rows, settled.key = row.key ∧ settled.state = shown.state := by
  obtain ⟨settled, known, same⟩ := Option.map_eq_some_iff.mp seen
  obtain ⟨inside, key⟩ := Table.find_some known
  exact ⟨settled, inside, key, same ▸ rfl⟩

theorem intents (all : ReconciledAll disk pairs before after) (listed : (attempt, job) ∈ pairs)
    (mem : intent ∈ before.decodedIntents attempt) (named : intent.opId = op) :
    after.cells (.intent attempt op) = (before.cells (.intent attempt op)).map
      fun row : IntentRow => { row with state := disk.state intent } := by
  rcases all.shown (.intent attempt op) with ⟨_, _, edit, -, made, shown⟩ | ⟨absent, -⟩
  · cases made with
    | intent other =>
      cases List.inj_on_of_nodup_map Store.decodedIntents_distinct mem other named
      exact shown
  · have made : MadeFor disk _ attempt job _ := .intent mem
    exact absurd
      (List.mem_map.mpr ⟨_, made.mem listed, congrArg (Cell.intent attempt) named⟩) absent

theorem exists_settled (all : ReconciledAll disk pairs before after)
    (mem : row ∈ before.intents.rows) (listed : row.attemptId ∈ pairs.map Prod.fst) :
    ∃ settled ∈ after.intents.rows, settled.key = row.key ∧ settled.state = disk.rowState row := by
  obtain ⟨intent, decoded⟩ := all.legible.decode mem
  obtain ⟨⟨attempt, job⟩, chosen, owner⟩ := List.mem_map.mp listed
  cases owner
  have shown := all.intents chosen (Store.mem_decodedIntents.mpr ⟨row, mem, rfl, decoded⟩)
    (Store.decodeIntent_opId decoded).1
  rw [cells_intent mem] at shown
  rw [Disk.rowState, decoded]
  exact exists_intent shown

theorem kept (all : ReconciledAll disk pairs before after) (mem : row ∈ before.intents.rows)
    (foreign : row.attemptId ∉ pairs.map Prod.fst) :
    ∃ settled ∈ after.intents.rows, settled.key = row.key ∧ settled.state = row.state := by
  rcases all.shown (.intent row.attemptId row.opId) with
    ⟨owner, job, edit, listed, made, -⟩ | ⟨-, same⟩
  · generalize row.attemptId = attempt, row.opId = op at foreign edit made
    cases made
    exact absurd (List.mem_map_of_mem listed) foreign
  · have kept := exists_intent (same.trans (cells_intent mem))
    exact kept

theorem exists_origin (all : ReconciledAll disk pairs before after)
    (mem : settled ∈ after.intents.rows) : ∃ row ∈ before.intents.rows, settled.key = row.key ∧
      (if row.attemptId ∈ pairs.map Prod.fst then
        settled.state = disk.rowState row
      else settled.state = row.state) := by
  obtain ⟨row, known, same⟩ := all.reworded.exists_intent mem
  have key : row.key = settled.key :=
    (congrArg IntentRow.key same : row.bare.key = settled.bare.key)
  refine ⟨row, known, key.symm, ?_⟩
  split
  · obtain ⟨other, inside, here, state⟩ := all.exists_settled known ‹_›
    cases Table.eq_of_key_eq inside mem (here.trans key)
    exact state
  · obtain ⟨other, inside, here, state⟩ := all.kept known ‹_›
    cases Table.eq_of_key_eq inside mem (here.trans key)
    exact state

theorem attempts (all : ReconciledAll disk pairs before after) (listed : (attempt, job) ∈ pairs)
    (found : before.attempts.find attempt = some row) :
    after.attempts.find attempt = some { row with
      state := (disk.tally (before.decodedIntents attempt)).attemptState } := by
  rcases all.shown (.attempt attempt) with ⟨owner, boss, edit, chosen, made, shown⟩ | ⟨absent, -⟩
  · cases made
    refine shown.trans ?_
    change (before.attempts.find _).map _ = _
    rw [found]
    rfl
  · exact absurd (attempt_mem_repairs.mpr (List.mem_map_of_mem (f := Prod.fst) listed)) absent

theorem shown_last (all : ReconciledAll disk pairs before after) (cell : Cell)
    (touches : AttemptId × JobId → Bool) (touched : ∀ pair, touches pair = true ↔ cell ∈
      (disk.attemptRepairs pair.1 pair.2 (before.decodedIntents pair.1)).map Sigma.fst) :
    match (pairs.filter touches).getLast? with
    | none => after.cells cell = before.cells cell
    | some pair => ∃ edit,
        MadeFor disk (before.decodedIntents pair.1) pair.1 pair.2 ⟨cell, edit⟩ ∧
          after.cells cell = edit.apply (before.cells cell) := by
  have same : touches = fun pair => decide (cell ∈
      (disk.attemptRepairs pair.1 pair.2 (before.decodedIntents pair.1)).map Sigma.fst) := by
    funext pair
    exact Bool.eq_iff_iff.mpr ((touched pair).trans decide_eq_true_iff.symm)
  have shown := congrFun all.cells cell
  rw [Disk.repairs, Overwriting.replay_flatMap, ← same] at shown
  cases last : (pairs.filter touches).getLast? with
  | none => simpa only [last] using shown
  | some pair =>
    rw [last] at shown
    have edits := (touched pair).1 (List.mem_filter.mp (List.mem_of_getLast? last)).2
    obtain ⟨edit, mem, replayed⟩ := Overwriting.exists_last_edit edits
    have inside : ⟨cell, edit⟩ ∈ disk.repairs before [pair] :=
      List.mem_flatMap.mpr ⟨pair, List.mem_singleton_self pair, mem⟩
    obtain ⟨other, listed, made⟩ := madeFor inside
    cases List.mem_singleton.mp listed
    exact ⟨edit, made, shown.trans (replayed _)⟩

end ReconciledAll

end CacheCleaner.RecoveryEngine
