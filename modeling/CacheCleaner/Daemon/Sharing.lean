import CacheCleaner.Effect.Embed
import CacheCleaner.Pipeline.Admission
import CacheCleaner.Recovery.Faults
import CacheCleaner.Runtime.Tables

namespace CacheCleaner.Sharing

/-! Processes that share one store.  A process started as the daemon makes its
pipeline, and with it reconciles the attempts it finds running, before it asks
for the PID lock; a standalone clean asks for the lock first. -/

open Effect Effect.Program
open AuthoritativeCleanPipeline (new execute_issues)
open RecoveryEngine (Repairs reconcileAttempts_repairs)

/-- What a process asks of its surroundings.  Whether `get_running_pid` finds a
daemon and whether `PidLock::acquire` succeeds is decided there. -/
inductive Need where
  | world (request : Request)
  | runningPid
  | acquire
  | release

abbrev Answer : Need → Type
  | .world request => Reply request
  | .runningPid => Bool
  | .acquire => Bool
  | .release => Unit

abbrev Heard (need : Need) : Type := Option (Answer need)

abbrev Routine := Effect.Program Need Heard

def require (need : Need) : Routine (Answer need) :=
  .call need fun
    | none => .abort
    | some answer => .done answer

def inside (program : Act α) : Routine α := program.embed Need.world fun _ heard => heard

/-- What the event loop and the IPC threads make of the engine, one at a time
behind its mutex. -/
inductive Order where
  | execute (orders : HashOrders) (params : CleanParams)
  | updateConfig (config : DaemonConfig)

def serve : List Order → Pipeline → Act Unit
  | [], _ => pure ()
  | .execute orders params :: rest, pipeline => do
    let (_, pipeline) ← pipeline.execute orders params
    serve rest pipeline
  | .updateConfig config :: rest, pipeline =>
    serve rest (pipeline.updateConfig config)

def runDaemon (config : DaemonConfig) (orders : List Order) : Routine Unit := do
  let pipeline ← inside (new config)
  if ← require .acquire then
    inside (serve orders pipeline)
    require .release
  else pure ()

/-- `execute_clean`; a daemon that is found does the work itself. -/
def executeClean (config : DaemonConfig) (orders : HashOrders)
    (params : CleanParams) : Routine Unit := do
  if ← require .runningPid then pure ()
  else if ← require .acquire then
    let pipeline ← inside (new config)
    let _ ← inside (pipeline.execute orders params)
    require .release
  else pure ()

inductive Process where
  | daemon (config : DaemonConfig) (orders : List Order)
  | clean (config : DaemonConfig) (orders : HashOrders) (params : CleanParams)

def body : Process → Routine Unit
  | .daemon config orders => runDaemon config orders
  | .clean config orders params => executeClean config orders params

/-- What is decided outside for one request: whether the process lives to see
it answered, what others have made of the tree meanwhile, and the answer. -/
structure Oracle where
  killed : Bool
  meanwhile : Fs → Fs
  env : Env
  running : Bool
  granted : Bool

def answer (oracle : Oracle) (need : Need) (world : World) : Option (Heard need × World) :=
  if oracle.killed then some (none, world)
  else
    match need with
    | .world request =>
      let (reply, after) := oracle.env.respond request (world.withFs (oracle.meanwhile world.fs))
      some (some reply, after)
    | .runningPid => some (some oracle.running, world)
    | .acquire => some (some oracle.granted, world)
    | .release => some (some (), world)

def system : System Process Oracle Need Heard World := ⟨body, fun _ world => some world, answer⟩

abbrev Member := Thread Process Need Heard

abbrev Processes (ι : Type) := Pool ι Process Need Heard World

abbrev Happening (ι : Type) := Event ι Process Need Heard

inductive Stage where
  | starting
  | recovering (listed : List (AttemptId × JobId))
  | holding
  | finished
  deriving DecidableEq

namespace Stage

def hear : Stage → (need : Need) → Answer need → Stage
  | .starting, .world .uncompletedAttempts, .ok listed => .recovering listed
  | .starting, .acquire, granted => if granted then .holding else .finished
  | .recovering _, .acquire, granted => if granted then .holding else .finished
  | .holding, .release, () => .finished
  | stage, _, _ => stage

def advance (stage : Stage) : Exchange Need Heard → Stage
  | ⟨_, none⟩ => .finished
  | ⟨need, some answer⟩ => stage.hear need answer

def permits : Stage → Need → Prop
  | .starting, .world request => request.quiet = true
  | .starting, .runningPid | .starting, .acquire => True
  | .recovering listed, .world request => Repairs listed request
  | .recovering _, .acquire => True
  | .holding, .world request => request.revives = false
  | .holding, .release => True
  | _, _ => False

end Stage

def protocol : Protocol Stage Process Need Heard where
  initial _ := .starting
  advance := Stage.advance
  permits := Stage.permits

theorem revives_of_repairs (repairs : Repairs listed request) : request.revives = false := by
  cases request with
  | write write =>
    cases write with
    | updateAttemptState attempt state =>
      cases state with
      | running => exact absurd rfl repairs.2
      | _ => rfl
    | _ => rfl
  | _ => rfl

def Unlocked (stage : Stage) : Prop := stage = .starting ∨ ∃ listed, stage = .recovering listed

theorem Unlocked.ask (unlocked : Unlocked stage) (quiet : request.quiet = true)
    (other : request ≠ .uncompletedAttempts) :
    protocol.Obeys (fun after _ => Unlocked after) stage (inside (ask request)) := by
  have stays : ∀ answer, stage.hear (.world request) answer = stage := by
    intro answer
    rcases unlocked with rfl | ⟨listed, rfl⟩
    · cases request <;> first | rfl | exact absurd rfl other
    · rfl
  refine Protocol.Obeys.embed_call ?_ ?_
  · rcases unlocked with rfl | ⟨listed, rfl⟩
    · exact quiet
    · exact Repairs.of_quiet quiet
  · rintro reply answer rfl
    change Unlocked (stage.hear (.world request) answer)
    rw [stays]
    exact unlocked

theorem reconcileStartupCrashes_starting : protocol.Obeys (fun stage _ => Unlocked stage) .starting
      (inside (RecoveryEngine.reconcileStartupCrashes catalog)) := by
  refine Protocol.Obeys.embed_call rfl ?_
  rintro reply listed rfl
  cases listed with
  | error error => exact .inl rfl
  | ok listed =>
    have repairs : Issues (Repairs listed) (RecoveryEngine.reconcileAttempts catalog listed 0) :=
      reconcileAttempts_repairs (fun _ mem => mem) 0
    refine (Protocol.Obeys.embed_of_issues repairs ?_ ?_).mono ?_
    · exact fun _ repairs => repairs
    · intro request reply _ heard
      cases reply with
      | none => cases heard
      | some answer => rfl
    · rintro stage _ rfl
      exact .inr ⟨listed, rfl⟩

variable (config : DaemonConfig)

theorem new_starting :
    protocol.Obeys (fun stage _ => Unlocked stage) .starting
      (inside (new config)) := by
  unfold new ask
  rw [perform_bind]
  refine Protocol.Obeys.embed_call rfl ?_
  rintro reply view rfl
  refine Protocol.Obeys.embed_bind reconcileStartupCrashes_starting ?_
  intro stage _ unlocked
  have scheduler : protocol.Obeys (fun after _ => Unlocked after) stage
      (inside SchedulerService.new) :=
    Protocol.Obeys.embed_bind (unlocked.ask rfl nofun) fun _ _ after => after
  refine Protocol.Obeys.embed_bind scheduler fun stage _ unlocked => ?_
  have workers : protocol.Obeys (fun after _ => Unlocked after) stage
      (inside (WorkerPool.new ⟨1⟩)) :=
    Protocol.Obeys.embed_bind (unlocked.ask rfl nofun) fun _ _ after => after
  exact Protocol.Obeys.embed_bind workers fun _ _ after => after

theorem new_revives : Issues (fun request => request.revives = false)
      (new config) := by
  refine asks rfl fun view => ?_
  have reconciles : Issues (fun request => request.revives = false)
      (RecoveryEngine.reconcileStartupCrashes
        (TargetCatalog.discoverAllTargets view TargetCatalog.new)) := by
    refine asks rfl fun reply => ?_
    cases reply with
    | error error => trivial
    | ok listed =>
      exact (reconcileAttempts_repairs (fun _ mem => mem) 0).mono fun _ repairs =>
        revives_of_repairs repairs
  refine reconciles.bind fun _ => ?_
  exact asks rfl fun _ => asks rfl fun _ => trivial

theorem execute_revives (pipeline : Pipeline)
    (orders : HashOrders) (params : CleanParams) : Issues (fun request => request.revives = false)
      (pipeline.execute orders params) := by
  apply execute_issues
  · intro request tame
    simpa using (Bool.and_eq_true_iff.mp tame).2
  · intros
    rfl
  · intros
    rfl

theorem serve_revives (orders : List Order) (pipeline : Pipeline) :
    Issues (fun request => request.revives = false) (serve orders pipeline) := by
  induction orders generalizing pipeline with
  | nil => trivial
  | cons order rest ih =>
    cases order with
    | execute orders params =>
      exact (execute_revives pipeline orders params).bind fun _ => ih _
    | updateConfig config => exact ih _

theorem inside_holding (issues : Issues (fun request => request.revives = false) program) :
    protocol.Obeys (fun stage _ => stage = .holding) .holding (inside program) := by
  refine Protocol.Obeys.embed_of_issues issues ?_ ?_
  · exact fun _ revives => revives
  · intro request reply _ heard
    cases reply with
    | none => cases heard
    | some answer => rfl

theorem require_obeys (here : stage.permits need) :
    protocol.Obeys (fun after answer => after = stage.hear need answer) stage (require need) := by
  refine ⟨here, fun reply => ?_⟩
  cases reply with
  | none => trivial
  | some answer => rfl

theorem runDaemon_obeys (orders : List Order) :
    protocol.Obeys (fun _ _ => True) .starting (runDaemon config orders) := by
  refine (new_starting config).bind fun stage pipeline unlocked => ?_
  have asked : stage.permits .acquire := by
    rcases unlocked with rfl | ⟨listed, rfl⟩ <;> trivial
  refine (require_obeys asked).bind ?_
  rintro stage granted rfl
  cases granted with
  | false => trivial
  | true =>
    have held : stage.hear .acquire true = .holding := by
      rcases unlocked with rfl | ⟨listed, rfl⟩ <;> rfl
    rw [held]
    refine (inside_holding (serve_revives orders pipeline)).bind ?_
    rintro stage _ rfl
    exact (require_obeys (by trivial)).mono fun _ _ _ => trivial

theorem executeClean_obeys (orders : HashOrders) (params : CleanParams) :
    protocol.Obeys (fun _ _ => True) .starting (executeClean config orders params) := by
  refine (require_obeys (by trivial)).bind ?_
  rintro stage running rfl
  cases running with
  | true => trivial
  | false =>
    refine (require_obeys (by trivial)).bind ?_
    rintro stage granted rfl
    cases granted with
    | false => trivial
    | true =>
      refine (inside_holding (new_revives config)).bind ?_
      rintro stage pipeline rfl
      refine (inside_holding (execute_revives pipeline orders params)).bind ?_
      rintro stage _ rfl
      exact (require_obeys (by trivial)).mono fun _ _ _ => trivial

theorem body_obeys (process : Process) : protocol.Obeys (fun _ _ => True) (protocol.initial process)
      (system.body process) := by
  cases process with
  | daemon config orders => exact runDaemon_obeys config orders
  | clean config orders params => exact executeClean_obeys config orders params

end CacheCleaner.Sharing
