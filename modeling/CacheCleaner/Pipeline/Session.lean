import CacheCleaner.Pipeline.Admission

namespace CacheCleaner

open Effect Effect.Program

variable {pending : List Pending} {pipeline : Pipeline}

/-- A call whose request nothing has taken out of the queue yet, and the
configuration it was made under. -/
structure Pending where
  params : CleanParams
  configGeneration : ConfigGeneration
  deriving DecidableEq, Repr

structure Call where
  env : Env
  orders : HashOrders
  params : CleanParams
  pending : List Pending
  pipeline : Pipeline
  before : World
  result : Result CleanReport
  after : World

/-- The calls made so far, those still pending, and what they left.  Every call
has surroundings of its own; between calls the configuration may be replaced,
the queue popped and the tree changed by others. -/
inductive Session (start : Pipeline) (origin : World) :
    List Call → List Pending → Pipeline → World → Prop
  | opened (env : Env) (config : DaemonConfig) (boot : World)
      (ran : (AuthoritativeCleanPipeline.new config).run env.handler boot = (some start, origin)) :
      Session start origin [] [] start origin
  | executed {calls : List Call} {pending : List Pending}
      {pipeline pipeline' : Pipeline} {world world' : World}
      {result : Result CleanReport} (session : Session start origin calls pending pipeline world)
      (env : Env) (orders : HashOrders) (params : CleanParams)
      (ran : (pipeline.execute orders params).run env.handler world =
        (some (result, pipeline'), world')) : Session start origin (calls ++
          [⟨env, orders, params, pending, pipeline, world, result, world'⟩])
        (pending ++ [⟨params, pipeline.configGeneration⟩]) pipeline' world'
  | reconfigured {pending : List Pending} {pipeline : Pipeline}
      (session : Session start origin calls pending pipeline world) (config : DaemonConfig) :
      Session start origin calls pending (pipeline.updateConfig config) world
  | popped {pending : List Pending} {pipeline : Pipeline}
      (session : Session start origin calls pending pipeline world) : Session start origin calls []
        { pipeline with scheduler := pipeline.scheduler.popNextJob } world
  | elsewhere {pending : List Pending} {pipeline : Pipeline}
      (session : Session start origin calls pending pipeline world) (fs : Fs) :
      Session start origin calls pending pipeline (world.withFs fs)

structure Shaped (pending : List Pending) (request : JobAdmissionRequest) : Prop where
  generation : ∃ call ∈ pending, call.configGeneration = request.configGeneration
  real : request.dryRun = false → ∃ call ∈ pending, call.params.dryRun = false
  trim : request.trim = true → ∃ call ∈ pending, call.params.trim = true

def Queued (pending : List Pending) (queue : List JobAdmissionRequest) : Prop :=
  queue = [] ∨ ∃ request, queue = [request] ∧ Shaped pending request

theorem Shaped.coalesce (shaped : Shaped pending existing) (call : Pending) :
    Shaped (pending ++ [call]) (SchedulerService.coalesce existing
      call.params.deep call.params.trim call.params.dryRun) where
  generation := by
    obtain ⟨other, mem, same⟩ := shaped.generation
    exact ⟨other, by simp [mem], same⟩
  real := by
    intro real
    simp only [SchedulerService.coalesce, Bool.and_eq_false_iff] at real
    rcases real with old | own
    · obtain ⟨other, mem, real⟩ := shaped.real old
      exact ⟨other, by simp [mem], real⟩
    · exact ⟨call, by simp, own⟩
  trim := by
    intro trim
    simp only [SchedulerService.coalesce, Bool.or_eq_true] at trim
    rcases trim with old | own
    · obtain ⟨other, mem, trim⟩ := shaped.trim old
      exact ⟨other, by simp [mem], trim⟩
    · exact ⟨call, by simp, own⟩

theorem Admission.shaped
    (admission : Admission scheduler params catalog config admitted scheduler')
    (queued : Queued pending scheduler.queue) :
    Queued (pending ++ [⟨params, config⟩]) scheduler'.queue ∧ ∀ request, admitted = .ok request →
        Shaped (pending ++ [⟨params, config⟩]) request := by
  cases admission with
  | coalesced found =>
    rw [found] at queued
    rcases queued with none | ⟨request, same, shaped⟩
    · cases none
    · cases same
      have next := shaped.coalesce ⟨params, config⟩
      exact ⟨Or.inr ⟨_, rfl, next⟩, by
        rintro request ⟨⟩
        exact next⟩
  | refused error idle => exact ⟨Or.inl rfl, by simp⟩
  | opened now idle =>
    have own : (⟨params, config⟩ : Pending) ∈ pending ++ [⟨params, config⟩] := by
      simp
    have fresh : Shaped (pending ++ [⟨params, config⟩])
        ⟨⟨scheduler.jobCounter⟩, params.trigger, params.deep, params.trim,
          params.dryRun, catalog, config, now⟩ :=
      ⟨⟨_, own, rfl⟩, fun real => ⟨_, own, real⟩, fun trim => ⟨_, own, trim⟩⟩
    exact ⟨Or.inr ⟨_, rfl, fresh⟩, by
      rintro request ⟨⟩
      exact fresh⟩

theorem AuthoritativeCleanPipeline.new_yields (config : DaemonConfig) :
    Yields (fun pipeline => pipeline.scheduler.queue = [])
      (AuthoritativeCleanPipeline.new config) := by
  intro view
  refine (Yields.any (RecoveryEngine.reconcileStartupCrashes _)).bind fun _ _ => ?_
  refine Yields.bind (show Yields (fun scheduler : SchedulerService =>
    scheduler.queue = []) SchedulerService.new from fun _ => rfl) ?_
  intro scheduler idle
  exact (Yields.any (WorkerPool.new _)).bind fun _ _ => idle

theorem Session.queued (session : Session start origin calls pending pipeline world) :
    Queued pending pipeline.scheduler.queue := by
  induction session with
  | opened env config boot ran =>
    exact Or.inl ((AuthoritativeCleanPipeline.new_yields config).run ran)
  | executed session env orders params ran ih =>
    obtain ⟨admitted, admission⟩ :=
      ((AuthoritativeCleanPipeline.execute_yields orders params).run ran).admission
    exact (admission.shaped ih).1
  | reconfigured session config ih => exact ih
  | popped session ih =>
    rcases ih with none | ⟨request, single, -⟩
    · exact Or.inl (by simp [SchedulerService.popNextJob, none])
    · exact Or.inl (by simp [SchedulerService.popNextJob, single])
  | elsewhere session fs ih => exact ih

theorem Session.shaped (session : Session start origin calls pending pipeline world)
    (admits : pipeline.Admits params request) :
    Shaped (pending ++ [⟨params, pipeline.configGeneration⟩]) request := by
  obtain ⟨catalog, scheduler, admission⟩ := admits
  exact (admission.shaped session.queued).2 request rfl

namespace Device

def directory (parent : Nat) (name : String) (child : Nat) : Inode :=
  .folder ⟨1, parent⟩ name ⟨1, child⟩

def fs : Fs where
  root := ⟨1, 1⟩
  cwd := ⟨1, 1⟩
  inode := fun id =>
    if id = ⟨1, 1⟩ then some (directory 1 "data" 2)
    else if id = ⟨1, 2⟩ then some (directory 1 "local" 3)
    else if id = ⟨1, 3⟩ then some (directory 2 "tmp" 4)
    else if id = ⟨1, 4⟩ then some (directory 3 "f" 5)
    else if id = ⟨1, 5⟩ then some (.file ⟨1, 4⟩ 5 0)
    else none

def view : PlatformView where
  users := []
  encryption := fun _ => .unencrypted
  readDir := fun _ => none
  openRoot := fun path => if path = "/data/local/tmp" then some (1, 4) else none
  owner := fun _ => none

def config : DaemonConfig :=
  { DaemonConfig.default with
    cleaning := { DaemonConfig.default.cleaning with cleanTempApks := true }
    safety := ⟨[], ["keystore"]⟩ }

def env : Env := .calm 1000000 view (by decide)

def orders : HashOrders := ⟨.inserted _, .inserted _⟩

def boot : World := ⟨0, fs, .empty, []⟩

def start : Pipeline where
  config := config
  catalog := TargetCatalog.discoverAllTargets view TargetCatalog.new
  scheduler := ⟨[], 1⟩
  workerPool := ⟨⟨1⟩, 1⟩
  configGeneration := .initial
  counters := ⟨1, 1⟩

def origin : World := { boot with tick := 4 }

theorem opened : Session start origin [] [] start origin := .opened env config boot rfl

def execute (pipeline : Pipeline) (params : CleanParams) (world : World) :
    Option (Result CleanReport × Pipeline) × World :=
  (pipeline.execute orders params).run env.handler world

theorem executed
    (session : Session start origin calls pending pipeline world) (params : CleanParams)
    (returned : (execute pipeline params world).1.isSome = true) : Session start origin
      (calls ++ [⟨env, orders, params, pending, pipeline, world,
        ((execute pipeline params world).1.get returned).1, (execute pipeline params world).2⟩])
      (pending ++ [⟨params, pipeline.configGeneration⟩])
      ((execute pipeline params world).1.get returned).2 (execute pipeline params world).2 := by
  refine .executed session env orders params ?_
  change execute pipeline params world = _
  rw [Option.some_get]

def realCall : CleanParams := ⟨false, false, false⟩

def dryCall : CleanParams := ⟨false, false, true⟩

theorem realCall_returns : (execute start realCall origin).1.isSome = true := by decide +kernel

def refilled : World := (execute start realCall origin).2.withFs fs

def used : Pipeline := ((execute start realCall origin).1.get realCall_returns).2

def first : Call where
  env := env
  orders := orders
  params := realCall
  pending := []
  pipeline := start
  before := origin
  result := ((execute start realCall origin).1.get realCall_returns).1
  after := (execute start realCall origin).2

theorem first_session : Session start origin [first] [⟨realCall, .initial⟩] used refilled :=
  .elsewhere (executed opened realCall realCall_returns) fs

end Device

end CacheCleaner
