import CacheCleaner.Pipeline.Books
import CacheCleaner.Recovery.Faults

namespace CacheCleaner

open Effect Effect.Program World

def Adds (final : IntentState → Prop) (attempt : AttemptId) (before after : Store) : Prop :=
  after.attempts = before.attempts ∧ ∃ added : List IntentRow,
    after.intents.rows = before.intents.rows ++ added ∧
    ∀ row ∈ added, row.attemptId = attempt ∧ final row.state

abbrev AddsAny := Adds fun _ => True

abbrev AddsResolved := Adds fun state => state.isTerminal = true

theorem Adds.refl (final : IntentState → Prop) (attempt : AttemptId)
    (store : Store) : Adds final attempt store store :=
  ⟨rfl, [], by simp, by simp⟩

theorem Adds.any (adds : Adds final attempt before after) : AddsAny attempt before after := by
  obtain ⟨attempts, added, rows, own⟩ := adds
  exact ⟨attempts, added, rows, fun row mem => ⟨(own row mem).1, trivial⟩⟩

theorem Adds.logs (adds : Adds final attempt base before)
    (logs : Store.Logs before row result after) (own : row.attemptId = attempt)
    (state : final row.state) : Adds final attempt base after := by
  obtain ⟨attempts, added, rows, earlier⟩ := adds
  refine ⟨logs.attempts.trans attempts, added ++ [row], ?_, ?_⟩
  · rw [logs.intents, rows, List.append_assoc]
  · intro other mem
    rcases List.mem_append.mp mem with old | last
    · exact earlier other old
    · rw [List.mem_singleton.mp last]
      exact ⟨own, state⟩

namespace CleanupExecutor

variable {env : Env} {origin : Fs}

theorem resolving_invariant (context : Context) (base : Store) :
    Invariant env Attended origin context
      (fun _ _ world => AddsResolved context.attempt base world.store)
      (fun world => AddsAny context.attempt base world.store) (fun _ _ => False) where
  safe := fun held => held.any
  stages := by
    intro done op progress before after held _ stage
    cases stage with
    | untouched same =>
      rw [same.store]
      exact held.any
    | logged deletion target committedAt state resolvedAt result admitted logs
        order tree => exact held.any.logs logs rfl trivial
  turns := by
    intro done op progress before progress' after held _ _ turn
    cases turn with
    | skipped status unsuccessful same =>
      rw [same.store]
      exact held
    | failed error same =>
      rw [same.store]
      exact held
    | abandoned error deletion target committedAt resolvedAt admitted logs fs refused =>
        cases refused with
        | root path errno answered => exact (Bool.false_ne_true answered).elim
        | child directory name errno answered => exact (Bool.false_ne_true answered).elim
    | finished deletion target committedAt resolvedAt parent leaf mutation seen
        cache result admitted outcome logs written sound =>
        exact held.logs logs rfl (settle_isTerminal deletion mutation seen)
  halts := by
    intro done op progress before error after _ _ _ turn
    cases turn with
    | stopped _ state refused => exact (Bool.false_ne_true refused).elim

end CleanupExecutor

open CleanupExecutor in
theorem AddsResolved.work (env : Env) : AuthoritativeCleanPipeline.Work env Attended
      (fun _ attempt before after => AddsAny attempt before after)
      (fun _ attempt before after => AddsResolved attempt before after) where
  started := fun _ attempt store => .refl _ attempt store
  passing := fun adds => adds.any
  executes := by
    intro authorized job planned catalog config attempt world
    refine Spec.mono (executePlan_spec
      (resolving_invariant ⟨authorized, catalog, attempt⟩ world.store)
      (Adds.refl _ attempt _) (Adds.refl _ attempt _)) (fun _ adds => adds) ?_
    intro result after finished
    cases result with
    | error error =>
      rcases finished with ⟨-, rfl⟩ | impossible
      · exact .refl _ attempt _
      · exact impossible.elim
    | ok outcome =>
      obtain ⟨progress, adds, -⟩ := finished
      exact adds

def Store.NumberedBelow (store : Store) (counter : Nat) : Prop :=
  ∀ attempt ∈ store.attempts.rows, attempt.attemptId.val < counter

theorem Store.NumberedBelow.mono {store : Store} {counter later : Nat}
    (numbered : store.NumberedBelow counter) (le : counter ≤ later) : store.NumberedBelow later :=
  fun attempt mem => Nat.lt_of_lt_of_le (numbered attempt mem) le

theorem Store.Tended.unused {store : Store} (tended : store.Tended)
    {counter : Nat} (numbered : store.NumberedBelow counter)
    (mem : row ∈ store.intents.rows) : row.attemptId ≠ ⟨counter⟩ := by
  intro same
  obtain ⟨attempt, inside, own⟩ := tended.claimed row mem
  have less := numbered attempt inside
  rw [own, same] at less
  exact Nat.lt_irrefl _ less

namespace AuthoritativeCleanPipeline

variable {pipeline : Pipeline} {params : CleanParams}
  {before after : Store} {request : JobAdmissionRequest}

variable {final : IntentState → Prop}

theorem Booked.tended (booked : Booked pipeline before request after) (tended : before.Tended) :
    after.Tended ∧ after.attempts = before.attempts ∧ after.intents = before.intents := by
  cases booked with
  | queued busy kept =>
    exact ⟨tended.congr kept.attempts kept.intents, kept.attempts, kept.intents⟩
  | registered row idle job registers =>
    exact ⟨tended.congr registers.attempts registers.intents, registers.attempts, registers.intents⟩

theorem Begun.rows (begun : Begun pipeline before request after)
    (numbered : before.NumberedBelow pipeline.workerPool.attemptCounter) :
    after.intents = before.intents ∧ ∃ worker, after.attempts.rows = before.attempts.rows ++
        [⟨⟨pipeline.workerPool.attemptCounter⟩, request.jobId, worker, .running⟩] := by
  obtain ⟨middle, booked, claims⟩ := begun
  have unchanged : middle.attempts = before.attempts ∧ middle.intents = before.intents := by
    cases booked with
    | queued busy kept => exact ⟨kept.attempts, kept.intents⟩
    | registered row idle job registers =>
      exact ⟨registers.attempts, registers.intents⟩
  refine ⟨claims.intents.trans unchanged.2, pipeline.workerPool.workerId, ?_⟩
  rcases claims.attempts with ⟨known, -⟩ | ⟨-, -, rows⟩
  · rw [unchanged.1] at known
    obtain ⟨row, found⟩ := Option.isSome_iff_exists.mp known
    obtain ⟨mem, same⟩ := Table.find_some found
    have less := numbered row mem
    rw [show row.attemptId = _ from same] at less
    exact absurd less (Nat.lt_irrefl _)
  · rw [rows, unchanged.1]

structure Grown (pipeline : Pipeline) (before : Store)
    (final : IntentState → Prop) (state : AttemptState) (after : Store) : Prop where
  attempts : ∃ job worker, after.attempts.rows = before.attempts.rows ++
    [⟨⟨pipeline.workerPool.attemptCounter⟩, job, worker, state⟩]
  intents : ∃ added : List IntentRow, after.intents.rows = before.intents.rows ++ added ∧
    ∀ row ∈ added, row.attemptId = ⟨pipeline.workerPool.attemptCounter⟩ ∧ final row.state

theorem Grown.tended (grown : Grown pipeline before final state after) (tended : before.Tended)
    (numbered : before.NumberedBelow pipeline.workerPool.attemptCounter)
    (settled : state ≠ .running →
      ∀ state, final state → state.isTerminal = true) : after.Tended := by
  obtain ⟨job, worker, attempts⟩ := grown.attempts
  obtain ⟨added, intents, own⟩ := grown.intents
  refine ⟨?_, ?_⟩
  · intro attempt listed ended row mem same
    rw [attempts] at listed
    rw [intents] at mem
    rcases List.mem_append.mp listed with old | new
    · rcases List.mem_append.mp mem with earlier | later
      · exact tended.resolved attempt old ended row earlier same
      · have less := numbered attempt old
        rw [← same, (own row later).1] at less
        exact absurd less (Nat.lt_irrefl _)
    · rw [List.mem_singleton.mp new] at ended same
      rcases List.mem_append.mp mem with earlier | later
      · exact absurd same (tended.unused numbered earlier)
      · exact settled ended _ (own row later).2
  · intro row mem
    rw [intents] at mem
    rw [attempts]
    rcases List.mem_append.mp mem with earlier | later
    · obtain ⟨attempt, inside, same⟩ := tended.claimed row earlier
      exact ⟨attempt, by simp [inside], same⟩
    · exact ⟨_, List.mem_append_right _ (List.mem_singleton_self _), (own row later).1.symm⟩

theorem Grown.numberedBelow (grown : Grown pipeline before final state after)
    (numbered : before.NumberedBelow pipeline.workerPool.attemptCounter) :
    after.NumberedBelow (pipeline.workerPool.attemptCounter + 1) := by
  obtain ⟨job, worker, attempts⟩ := grown.attempts
  intro attempt listed
  rw [attempts] at listed
  rcases List.mem_append.mp listed with old | new
  · exact Nat.lt_succ_of_lt (numbered attempt old)
  · rw [List.mem_singleton.mp new]
    exact Nat.lt_succ_self _

theorem Grown.of_adds (adds : Adds final ⟨pipeline.workerPool.attemptCounter⟩ base after)
    (begun : Begun pipeline before request base)
    (numbered : before.NumberedBelow pipeline.workerPool.attemptCounter) :
    Grown pipeline before final .running after := by
  obtain ⟨same, worker, attempts⟩ := begun.rows numbered
  obtain ⟨kept, added, intents, own⟩ := adds
  exact ⟨⟨request.jobId, worker, by rw [kept, attempts]⟩, added, by rw [intents, same], own⟩

theorem Closed.grown
    (closed : Closed job ⟨pipeline.workerPool.attemptCounter⟩ jobState attemptState open_ after)
    (grown : Grown pipeline before final .running open_)
    (numbered : before.NumberedBelow pipeline.workerPool.attemptCounter) :
    Grown pipeline before final (attemptState.getD .running) after := by
  obtain ⟨owner, worker, attempts⟩ := grown.attempts
  obtain ⟨added, intents, own⟩ := grown.intents
  refine ⟨⟨owner, worker, ?_⟩, added, by rw [closed.intents, intents], own⟩
  rw [closed.attempts]
  cases attemptState with
  | none => exact attempts
  | some state =>
    simp only [Store.setAttemptState, Table.update, attempts,
      List.map_append, List.map_cons, List.map_nil, decide_true, if_true]
    congr 1
    refine (List.map_congr_left ?_).trans (List.map_id _)
    intro attempt mem
    have other : attempt.attemptId ≠ ⟨pipeline.workerPool.attemptCounter⟩ := by
      intro same
      have less := numbered attempt mem
      rw [same] at less
      exact Nat.lt_irrefl _ less
    simp [other]

section

variable (sound : before.Tended)
  (numbered : before.NumberedBelow pipeline.workerPool.attemptCounter)
include sound numbered

theorem CallStage.tended (stage : CallStage pipeline params
      (fun _ attempt before after => AddsAny attempt before after)
      (fun _ attempt before after => AddsResolved attempt before after)
      before after) : after.Tended := by
  cases stage with
  | waiting kept => exact sound.congr kept.attempts kept.intents
  | booked request admits booked => exact (booked.tended sound).1
  | working request base admits begun adds =>
    exact (Grown.of_adds adds begun numbered).tended sound numbered fun ended => absurd rfl ended
  | closing request base open_ jobState attemptState admits begun adds closed =>
    exact (closed.grown (Grown.of_adds adds begun numbered) numbered).tended sound
      numbered fun _ _ terminal => terminal

theorem Concluded.numberedBelow (concluded : Concluded pipeline params
      (fun _ attempt before after => AddsResolved attempt before after) before result left after) :
    after.NumberedBelow left.workerPool.attemptCounter := by
  cases concluded with
  | refused error same kept counted =>
    rw [counted]
    intro attempt mem
    rw [kept.attempts] at mem
    exact numbered attempt mem
  | unclaimed error same request admits booked counted =>
    rw [counted]
    intro attempt mem
    rw [(booked.tended sound).2.1] at mem
    exact Nat.lt_succ_of_lt (numbered attempt mem)
  | closed request base open_ jobState attemptState admits begun adds closed reported counted =>
      rw [counted]
      exact (closed.grown (Grown.of_adds adds begun numbered) numbered).numberedBelow numbered

end

theorem new_tends (env : Env) (config : DaemonConfig)
    (tended : world.store.Tended) : Spec env.handler Attended (fun after => after.store.Tended)
      (fun pipeline after =>
        after.store.NumberedBelow pipeline.workerPool.attemptCounter)
      (new config) world := by
  refine Rules.quiet rfl tended fun view _ _ => ?_
  have untouched : world.advance.store.Tended := tended
  refine Spec.bind (RecoveryEngine.reconcileStartupCrashes_tends untouched) ?_
  intro recovered after tended
  refine Rules.quiet rfl tended fun jobs _ _ => ?_
  refine Rules.quiet rfl tended fun attempts answered asked => ?_
  cases attempts with
  | error error => exact (Bool.false_ne_true answered).elim
  | ok largest =>
    refine Spec.done tended fun attempt mem => ?_
    have read : largest = after.store.maxAttemptId := Env.query_ok asked
    rw [read]
    exact Nat.lt_succ_of_le (Store.le_maxAttemptId mem)

end AuthoritativeCleanPipeline

/-- The pipeline in force, if the daemon runs, and the world.  Starts and calls
come with surroundings of their own, return or are killed after any number of
requests, and get only replies that `answers` admits. -/
inductive Life (answers : (request : Request) → Reply request → Prop) :
    Option Pipeline → World → Prop
  | installed (tick : Nat) (fs : Fs) (audit : List JobResult) :
      Life answers none ⟨tick, fs, .empty, audit⟩
  | started {pipeline : Pipeline}
      (life : Life answers none world) (env : Env) (config : DaemonConfig)
      (answered : ∀ count, Answered env.handler answers count
        (AuthoritativeCleanPipeline.new config) world)
      (ran : (AuthoritativeCleanPipeline.new config).run env.handler world =
        (some pipeline, world')) : Life answers (some pipeline) world'
  | startKilled (life : Life answers none world) (env : Env)
      (config : DaemonConfig) (count : Nat) (answered : Answered env.handler answers count
        (AuthoritativeCleanPipeline.new config) world) : Life answers none
        ((AuthoritativeCleanPipeline.new config).stateAfter env.handler count world)
  | executed {world world' : World} {pipeline pipeline' : Pipeline}
      {result : Result CleanReport} (life : Life answers (some pipeline) world)
      (env : Env) (orders : HashOrders) (params : CleanParams)
      (answered : ∀ count, Answered env.handler answers count
        (pipeline.execute orders params) world)
      (ran : (pipeline.execute orders params).run env.handler world =
        (some (result, pipeline'), world')) : Life answers (some pipeline') world'
  | killed {pipeline : Pipeline}
      (life : Life answers (some pipeline) world) (env : Env)
      (orders : HashOrders) (params : CleanParams) (count : Nat)
      (answered : Answered env.handler answers count (pipeline.execute orders params) world) :
      Life answers none ((pipeline.execute orders params).stateAfter env.handler count world)
  | reconfigured {pipeline : Pipeline}
      (life : Life answers (some pipeline) world) (config : DaemonConfig) :
      Life answers (some (pipeline.updateConfig config)) world
  | popped {pipeline : Pipeline}
      (life : Life answers (some pipeline) world) : Life answers
        (some { pipeline with scheduler := pipeline.scheduler.popNextJob }) world
  | elsewhere (life : Life answers current world) (fs : Fs) : Life answers current (world.withFs fs)

section

open AuthoritativeCleanPipeline

variable {answers : (request : Request) → Reply request → Prop} {holds : Store → Prop}
  {current : Option Pipeline} {world : World}

theorem Life.invariant (empty : holds .empty)
    (starts : ∀ (env : Env) (config : DaemonConfig) {world : World}, holds world.store →
      Spec env.handler answers (fun after => holds after.store)
        (fun pipeline after => after.store.NumberedBelow pipeline.workerPool.attemptCounter)
        (new config) world)
    (reached : ∀ {pipeline orders params count} {env : Env} {world : World}, holds world.store →
      world.store.NumberedBelow pipeline.workerPool.attemptCounter →
      Answered env.handler answers count (execute pipeline orders params) world →
      holds ((execute pipeline orders params).stateAfter env.handler count world).store)
    (returned : ∀ {pipeline orders params result left} {env : Env} {world after : World},
      holds world.store →
      world.store.NumberedBelow pipeline.workerPool.attemptCounter →
      (∀ count, Answered env.handler answers count (execute pipeline orders params) world) →
      (execute pipeline orders params).run env.handler world = (some (result, left), after) →
      holds after.store ∧ after.store.NumberedBelow left.workerPool.attemptCounter)
    (life : Life answers current world) : holds world.store ∧
      ∀ pipeline ∈ current, world.store.NumberedBelow pipeline.workerPool.attemptCounter := by
  induction life with
  | installed tick fs audit => exact ⟨empty, by simp⟩
  | started life env config answered ran ih =>
    simpa using (starts env config ih.1).post_safe.run_post answered ran
  | startKilled life env config count answered ih =>
    exact ⟨(starts env config ih.1).stateAfter answered, by simp⟩
  | executed life env orders params answered ran ih =>
    simpa using returned ih.1 (ih.2 _ rfl) answered ran
  | killed life env orders params count answered ih =>
    exact ⟨reached ih.1 (ih.2 _ rfl) answered, by simp⟩
  | reconfigured life config ih | popped life ih =>
    have numbered := ih.2 _ rfl
    exact ⟨ih.1, by rintro _ ⟨⟩; exact numbered⟩
  | elsewhere life fs ih => exact ih

theorem Life.tended (life : Life Attended current world) : world.store.Tended := by
  refine (life.invariant ?_ (fun env config => new_tends env config) ?_ ?_).1
  · constructor <;> exact fun _ listed => by cases listed
  · intro _ _ _ _ env _ tended numbered answered
    exact ((execute_books (AddsResolved.work env)).stateAfter answered).tended tended numbered
  · intro _ _ _ _ _ env _ _ tended numbered answered ran
    obtain ⟨stage, concluded⟩ :=
      (execute_books (AddsResolved.work env)).post_safe.run_post answered ran
    exact ⟨stage.tended tended numbered, concluded.numberedBelow tended numbered⟩

end

/-- As long as the intent log takes every state, the parent directories of
authorized deletions open and a start can read the largest attempt id, no
finished attempt keeps an unresolved intent. -/
theorem no_finished_attempt_with_unresolved_intent
    {current : Option Pipeline} {world : World}
    (life : Life Attended current world) : world.store.Resolved :=
  life.tended.resolved

namespace Device

theorem realCall_life {env : Env} (begun : ∀ count, Answered Device.env.handler answers count
      (AuthoritativeCleanPipeline.new config) boot)
    (answered : ∀ count, Answered env.handler answers count (start.execute orders realCall) origin)
    (returned : ((start.execute orders realCall).run env.handler origin).1.isSome = true) :
    Life answers (some (((start.execute orders realCall).run env.handler origin).1.get returned).2)
      ((start.execute orders realCall).run env.handler origin).2 := by
  have opened : Life answers (some start) origin :=
    .started (.installed 0 fs []) Device.env config begun rfl
  have ran : (start.execute orders realCall).run env.handler origin =
      (some (((start.execute orders realCall).run env.handler origin).1.get
        returned), ((start.execute orders realCall).run env.handler origin).2) :=
    Prod.ext (Option.some_get returned).symm rfl
  exact .executed opened env orders realCall answered ran

def refusing : Env :=
  { env with
    openFault := fun tick =>
      if tick = 25 then some ⟨.access, by decide⟩ else none }

def refused : World := ((start.execute orders realCall).run refusing.handler origin).2

def restarted : World := ((AuthoritativeCleanPipeline.new config).run env.handler refused).2

end Device

theorem completed_call_resolves_its_intent : Device.used.workerPool.attemptCounter = 2 ∧
      (Device.execute Device.start Device.realCall Device.origin).2.store.Resolved :=
  ⟨by decide +kernel, no_finished_attempt_with_unresolved_intent (Device.realCall_life
      (Answered.of_throughout (by decide +kernel)) (Answered.of_throughout (by decide +kernel))
      Device.realCall_returns)⟩

/-- A parent directory that does not open costs the intent its resolution: the
attempt ends as a success and no recovery looks at it again. -/
theorem refused_open_leaves_mutating_intent :
    (∃ pipeline, Life (fun _ _ => True) (some pipeline) Device.restarted) ∧
      Device.restarted.store.attempts.rows.map (·.state) = [.success] ∧
      Device.restarted.store.intents.rows.map (·.state) = [.mutating] ∧
      ¬ Device.restarted.store.Resolved := by
  have always : ∀ {α : Type} (program : Act α) (env : Env) (world : World)
      (count : Nat), Answered env.handler (fun _ _ => True) count program world :=
    fun program env world =>
      Answered.always program world fun _ _ => trivial
  have called : Life (fun _ _ => True) _ Device.refused :=
    Device.realCall_life (always _ _ _) (always _ _ _) (by decide +kernel)
  have returned : ((AuthoritativeCleanPipeline.new Device.config).run
      Device.env.handler Device.refused).1.isSome = true := by decide +kernel
  refine ⟨⟨_, .started (.killed called Device.env Device.orders Device.realCall
    0 trivial) Device.env Device.config (always _ _ _)
    (Prod.ext (Option.some_get returned).symm rfl)⟩, ?_⟩
  decide +kernel

end CacheCleaner
