import CacheCleaner.Daemon.Program
import CacheCleaner.Effect.Machine

namespace CacheCleaner

open Effect Daemon

/-- The state tells whether a cleaning is going on. -/
structure DaemonRuntimeState.Matches (runtime : DaemonRuntimeState) : Prop where
  resting : runtime.isCleaning = false → runtime.state = .idle
  cleaning : runtime.isCleaning = true → runtime.state = .cleaningScheduled ∨
    runtime.state = .cleaningManual ∨ ∃ reason, runtime.state = .preempted reason

namespace DaemonContext

variable {context : DaemonContext} {chance : Chance}

/-- A routine carried out with nothing in between; it stops where it would have
to wait. -/
def handle (chance : Chance) : Routine α → DaemonContext → Option α × DaemonContext
  | .done value, context => (some value, context)
  | .abort, context => (none, context)
  | .call action next, context =>
    match answer chance action context with
    | none => (none, context)
    | some (reply, after) => handle chance (next reply) after

theorem handle_bind (routine : Routine α) (next : α → Routine β) (context : DaemonContext) :
    handle chance (routine >>= next) context = match handle chance routine context with
      | (some value, after) => handle chance (next value) after
      | (none, after) => (none, after) := by
  induction routine generalizing context with
  | done value => rfl
  | abort => rfl
  | call action rest ih =>
    change handle chance (.call action fun reply => rest reply >>= next) context = _
    rw [handle, handle]
    split
    · rfl
    · exact ih _ _

theorem handle_execute (job : Job) : (handle chance (execute job) context).2 = context := by
  induction job with
  | done result => rfl
  | abort => rfl
  | call request next ih => exact ih _

def Code.shutsDown : Code → Bool
  | .shutdownSignal | .command .stopDaemon | .shutdownCleanup _ => true
  | _ => false

/-- The state is set to preempted, whether or not there is a cleaning. -/
def Code.preempts : Code → Bool
  | .command .cancel | .preempt _ => true
  | _ => false

structure Handled where
  chance : Chance
  code : Code
  stays : code.shutsDown = false

def handling : Machine DaemonContext Handled Unit where
  step context turn := match launch turn.code context with
    | none => ((), context)
    | some started => ((), (handle turn.chance (body turn.code) started).2)

inductive Moves (code : Code) (runtime : DaemonRuntimeState) : DaemonRuntimeState → Prop
  | same (mild : code.preempts = false) : Moves code runtime runtime
  | preempted (reason : String) (told : code.preempts = true ∨ runtime.isCleaning = true) :
      Moves code runtime { runtime with state := .preempted reason }
  | claimed (mild : code.preempts = false) (state : DaemonState)
      (own : state = .cleaningScheduled ∨ state = .cleaningManual) :
      Moves code runtime { runtime with isCleaning := true, state }
  | settled (mild : code.preempts = false) (rests : after.isCleaning = false)
      (idle : after.state = .idle) : Moves code runtime after

theorem Moves.matches_iff {runtime runtime' : DaemonRuntimeState}
    (moves : Moves code runtime runtime') (fits : runtime.Matches) :
    runtime'.Matches ↔ (code.preempts = true → runtime.isCleaning = true) := by
  cases moves with
  | same mild => simp [mild, fits]
  | preempted reason told =>
    constructor
    · intro next _
      by_contra resting
      cases next.resting (by simpa using resting)
    · intro only
      have cleaning : runtime.isCleaning = true := told.elim only id
      exact ⟨fun resting => by simp [cleaning] at resting, fun _ => .inr (.inr ⟨reason, rfl⟩)⟩
  | claimed mild state own =>
    simp only [mild, Bool.false_eq_true, false_implies, iff_true]
    exact ⟨nofun, fun _ => own.imp_right .inl⟩
  | settled mild rests idle =>
    simp only [mild, Bool.false_eq_true, false_implies, iff_true]
    exact ⟨fun _ => idle, fun cleaning => by simp [rests] at cleaning⟩

structure Open (context : DaemonContext) : Prop where
  unlocked : context.runtimeLocked = false
  running : context.runtime.shutdownRequested = false

structure Turned (code : Code) (before after : DaemonContext) : Prop where
  opened : Open after
  moves : Moves code before.runtime after.runtime

theorem handle_command_turned (ready : Open context) (command : Command)
    (stays : command ≠ .stopDaemon) :
    Turned (.command command) context (handle chance (body (.command command)) context).2 := by
  rcases context with ⟨⟨state, ts, freed, total, cleaning, stopping⟩, locked, engine, cancelled,
    reason, jobs, next, spawned⟩
  rcases chance with ⟨created, now⟩
  obtain ⟨⟨⟩, ⟨⟩⟩ := ready
  cases command with
  | triggerClean params =>
    cases cleaning with
    | true => exact ⟨⟨rfl, rfl⟩, .same rfl⟩
    | false => cases created <;> exact ⟨⟨rfl, rfl⟩, .claimed rfl .cleaningManual (.inr rfl)⟩
  | getJobStatus jobId =>
    simp [body, handleCommand, handle_bind, act, Program.perform, handle, answer, guarded]
    cases jobs.find jobId <;> exact ⟨⟨rfl, rfl⟩, .same rfl⟩
  | cancel => exact ⟨⟨rfl, rfl⟩, .preempted _ (.inl rfl)⟩
  | reloadConfig loads =>
    cases loads <;> cases engine <;> exact ⟨⟨rfl, rfl⟩, .same rfl⟩
  | stopDaemon => exact absurd rfl stays
  | _ => exact ⟨⟨rfl, rfl⟩, .same rfl⟩

theorem handle_action_turned (ready : Open context) (stays : code.shutsDown = false)
    (action : ∀ command, code ≠ .command command)
    (alone : ∀ worker job, code ≠ .worker worker job) :
    Turned code context (handle chance (body code) context).2 := by
  rcases context with ⟨⟨state, ts, freed, total, cleaning, stopping⟩, locked, engine, cancelled,
    reason, jobs, next, spawned⟩
  rcases chance with ⟨created, now⟩
  obtain ⟨⟨⟩, ⟨⟩⟩ := ready
  cases code with
  | command command => exact absurd rfl (action command)
  | worker worker job => exact absurd rfl (alone worker job)
  | shutdownSignal => cases stays
  | shutdownCleanup polls => cases stays
  | reloadSignal loads => cases loads <;> cases engine <;> exact ⟨⟨rfl, rfl⟩, .same rfl⟩
  | preempt reason => exact ⟨⟨rfl, rfl⟩, .preempted _ (.inl rfl)⟩
  | reconcile turnedOn =>
    cases cleaning <;> cases turnedOn
    case true.true => exact ⟨⟨rfl, rfl⟩, .preempted _ (.inr rfl)⟩
    all_goals exact ⟨⟨rfl, rfl⟩, .same rfl⟩
  | fallbackScreen =>
    cases cleaning with
    | true => exact ⟨⟨rfl, rfl⟩, .preempted _ (.inr rfl)⟩
    | false => exact ⟨⟨rfl, rfl⟩, .same rfl⟩
  | reclaim level =>
    cases cleaning with
    | true => exact ⟨⟨rfl, rfl⟩, .same rfl⟩
    | false => exact ⟨⟨rfl, rfl⟩, .settled rfl rfl rfl⟩
  | maintain shouldRun fstrim =>
    cases shouldRun <;> cases cleaning
    case true.false =>
      cases created <;> exact ⟨⟨rfl, rfl⟩, .claimed rfl .cleaningScheduled (.inl rfl)⟩
    all_goals exact ⟨⟨rfl, rfl⟩, .same rfl⟩

theorem handle_worker_turned (ready : Open context) (worker : Worker) (job : Job) :
    Turned (.worker worker job) context (handle chance (body (.worker worker job)) context).2 := by
  rcases context with ⟨⟨state, ts, freed, total, cleaning, stopping⟩, locked, engine, cancelled,
    reason, jobs, next, spawned⟩
  obtain ⟨⟨⟩, ⟨⟩⟩ := ready
  cases engine with
  | true => exact ⟨⟨rfl, rfl⟩, .same rfl⟩
  | false =>
    change Turned _ _ (handle chance (execute job >>= _) _).2
    rw [handle_bind]
    split
    · rename_i result after ended
      obtain rfl : _ = after := (handle_execute job).symm.trans (congrArg Prod.snd ended)
      cases result <;> cases worker <;> exact ⟨⟨rfl, rfl⟩, .settled rfl rfl rfl⟩
    · rename_i after ended
      obtain rfl : _ = after := (handle_execute job).symm.trans (congrArg Prod.snd ended)
      exact ⟨⟨rfl, rfl⟩, .same rfl⟩

theorem step_turned (ready : Open context) (turn : Handled) :
    Turned turn.code context (handling.step context turn).2 := by
  rcases turn with ⟨chance, code, stays⟩
  cases code with
  | command command =>
    refine handle_command_turned ready command ?_
    rintro rfl
    cases stays
  | worker worker job =>
    simp only [handling, launch]
    split
    · exact ⟨ready, .same rfl⟩
    · rename_i started begun
      split at begun
      · cases begun
        have opened : Open { context with spawned := context.spawned.erase worker } :=
          ⟨ready.unlocked, ready.running⟩
        obtain ⟨opened, moves⟩ := handle_worker_turned opened worker job
        exact ⟨opened, moves⟩
      · cases begun
  | shutdownSignal => cases stays
  | shutdownCleanup polls => cases stays
  | _ =>
    refine handle_action_turned ready stays ?_ ?_
    · rintro command ⟨⟩
    · rintro worker job ⟨⟩

/-- The state tells of the work all along a run exactly when nothing sets it to
preempted while no cleaning is going on. -/
theorem matches_throughout_iff (turns : List Handled) :
    (∀ front, front <+: turns → (handling.after .new front).runtime.Matches) ↔
      ∀ visit ∈ handling.visits .new turns, visit.2.code.preempts = true →
        visit.1.runtime.isCleaning = true := by
  have start : DaemonContext.new.runtime.Matches := ⟨fun _ => rfl, nofun⟩
  refine Machine.throughout_iff Open (fun context => context.runtime.Matches)
    (fun context turn => turn.code.preempts = true → context.runtime.isCleaning = true)
    ⟨rfl, rfl⟩ start (fun _ turn ready => (step_turned ready turn).opened) ?_
  intro context turn ready fits
  exact (step_turned ready turn).moves.matches_iff fits

theorem idle_cancel_preempts :
    let after := (handling.step .new ⟨⟨true, 0⟩, .command .cancel, rfl⟩).2.runtime
    after.isCleaning = false ∧ after.state = .preempted "Cancelled by user" :=
  ⟨rfl, rfl⟩

end DaemonContext

end CacheCleaner
