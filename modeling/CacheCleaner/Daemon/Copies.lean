import CacheCleaner.Daemon.Reload

namespace CacheCleaner.Reload

open Effect Effect.Program

variable {ι : Type}

/-- Reloads, each with the path it was started with; the oracle is what the file
reads as at that moment. -/
def reloads : System (Option String) (Except String LoopConfig) Step Outcome ConfigCopies where
  body := fun path => do
    let _ ← reloadConfig path
    pure ()
  launch := fun _ copies => some copies
  answer := fun file step copies => some (respond file step copies)

abbrev Reloads (ι : Type) := Pool ι (Option String) Step Outcome ConfigCopies

abbrev Reloader := Thread (Option String) Step Outcome

abbrev Happening (ι : Type) := Event ι (Option String) Step Outcome

def begun (config : LoopConfig) (generation : ConfigGeneration) : Reloads ι :=
  .start ⟨config, generation, config⟩

inductive Stage (thread : Reloader) : Prop
  | launched (log : thread.log = []) (rest : thread.rest = reloads.body thread.code)
  | failed (error : String) (log : thread.log = [⟨.readFile, .error error⟩])
      (rest : thread.rest = .done ())
  | read (config : LoopConfig) (log : thread.log = [⟨.readFile, .ok config⟩])
      (rest : thread.rest = .call (.updateEngine config) fun _ =>
        .call (.writeShared config) fun _ => .done ())
  | updated (config : LoopConfig)
      (log : thread.log = [⟨.readFile, .ok config⟩, ⟨.updateEngine config, ()⟩])
      (rest : thread.rest = .call (.writeShared config) fun _ => .done ())
  | written (config : LoopConfig) (log : thread.log = [⟨.readFile, .ok config⟩,
        ⟨.updateEngine config, ()⟩, ⟨.writeShared config, ()⟩]) (rest : thread.rest = .done ())

theorem Stage.resume (stage : Stage thread)
    (waits : thread.rest = .call step next) (reply : Outcome step) :
    Stage (thread.resume step reply (next reply)) := by
  cases stage with
  | launched log rest =>
    rw [rest] at waits
    cases waits
    cases reply with
    | error error => exact .failed error (by simp [Thread.resume, log]) rfl
    | ok config => exact .read config (by simp [Thread.resume, log]) rfl
  | failed error log rest =>
    rw [rest] at waits
    cases waits
  | read config log rest =>
    rw [rest] at waits
    cases waits
    exact .updated config (by simp [Thread.resume, log]) rfl
  | updated config log rest =>
    rw [rest] at waits
    cases waits
    exact .written config (by simp [Thread.resume, log]) rfl
  | written config log rest =>
    rw [rest] at waits
    cases waits

def Pending (config : LoopConfig) (thread : Reloader) : Prop :=
  thread.rest = .call (.writeShared config) fun _ => .done ()

def HasRead (config : LoopConfig) (thread : Reloader) : Prop :=
  (⟨.readFile, .ok config⟩ : Exchange Step Outcome) ∈ thread.log

variable [DecidableEq ι] {pool pool' : Reloads ι} {event : Happening ι} {initial : LoopConfig}

inductive Moved (pool : Reloads ι) : Happening ι → Reloads ι → Prop
  | launched (free : pool.threads name = none) :
      Moved pool (.launched name path) (pool.set pool.shared name ⟨path, [], reloads.body path⟩)
  | read (found : pool.threads name = some thread)
      (fresh : thread.log = []) (unwritten : ∀ config, ¬ Pending config thread) :
      Moved pool (.acted name ⟨.readFile, file⟩) (pool.set pool.shared name thread')
  | updated (found : pool.threads name = some thread) (known : HasRead config thread)
      (kept : ∀ exchange ∈ thread.log, exchange ∈ thread'.log) (pending : Pending config thread') :
      Moved pool (.acted name ⟨.updateEngine config, ()⟩)
        (pool.set { pool.shared with
          engine := config
          generation := pool.shared.generation.nextSaturating } name thread')
  | written (found : pool.threads name = some thread) (known : HasRead config thread)
      (kept : ∀ exchange ∈ thread.log, exchange ∈ thread'.log) :
      Moved pool (.acted name ⟨.writeShared config, ()⟩)
        (pool.set { pool.shared with shared := config } name thread')

theorem All.moved (stages : pool.All Stage) (step : reloads.Step pool event pool') :
    Moved pool event pool' ∧ pool'.All Stage := by
  cases step with
  | launched free launch =>
    cases launch
    exact ⟨.launched free, stages.set (.launched rfl rfl)⟩
  | acted found waits answered =>
    rename_i name thread step next file reply shared
    have stage := stages name thread found
    refine ⟨?_, stages.set (stage.resume waits reply)⟩
    have kept : ∀ exchange ∈ thread.log, exchange ∈ (thread.resume step reply (next reply)).log :=
      fun exchange mem => List.mem_append_left _ mem
    cases stage with
    | launched log rest =>
      rw [rest] at waits
      cases waits
      cases answered
      refine .read found log fun config pending => ?_
      rw [Pending, rest] at pending
      cases pending
    | failed error log rest =>
      rw [rest] at waits
      cases waits
    | read config log rest =>
      rw [rest] at waits
      cases waits
      cases answered
      exact .updated found (by simp [HasRead, log]) kept rfl
    | updated config log rest =>
      rw [rest] at waits
      cases waits
      cases answered
      exact .written found (by simp [HasRead, log]) kept
    | written config log rest =>
      rw [rest] at waits
      cases waits

/-- The configuration the daemon started with, or one that a reload has read. -/
def Known (initial : LoopConfig) (pool : Reloads ι) (config : LoopConfig) : Prop :=
  config = initial ∨ ∃ name, ∃ thread ∈ pool.threads name, HasRead config thread

theorem Known.set (known : Known initial pool config)
    (kept : ∀ thread ∈ pool.threads name, HasRead config thread → HasRead config thread') :
    Known initial (pool.set shared name thread') config := by
  rcases known with same | ⟨other, thread, found, read⟩
  · exact .inl same
  · by_cases here : other = name
    · subst here
      exact .inr ⟨other, thread', Pool.threads_set_self .., kept thread found read⟩
    · exact .inr ⟨other, thread, (Pool.threads_set_of_ne _ _ _ here).trans found, read⟩

theorem Known.moved (known : Known initial pool config)
    (moved : Moved pool event pool') : Known initial pool' config := by
  cases moved with
  | launched free =>
    refine known.set fun thread found => ?_
    rw [free] at found
    cases found
  | read found fresh unwritten =>
    refine known.set fun thread found' read => ?_
    rw [found] at found'
    cases found'
    rw [HasRead, fresh] at read
    cases read
  | updated found _ kept pending =>
    refine known.set fun thread found' read => ?_
    rw [found] at found'
    cases found'
    exact kept _ read
  | written found _ kept =>
    refine known.set fun thread found' read => ?_
    rw [found] at found'
    cases found'
    exact kept _ read

/-- Both copies are known, whatever the reloads do. -/
structure Sourced (initial : LoopConfig) (pool : Reloads ι) : Prop where
  stages : pool.All Stage
  engine : Known initial pool pool.shared.engine
  shared : Known initial pool pool.shared.shared

theorem Sourced.step (sourced : Sourced initial pool)
    (step : reloads.Step pool event pool') : Sourced initial pool' := by
  obtain ⟨moved, stages⟩ := All.moved sourced.stages step
  have engine := sourced.engine.moved moved
  have shared := sourced.shared.moved moved
  cases moved with
  | launched free => exact ⟨stages, engine, shared⟩
  | read found fresh unwritten => exact ⟨stages, engine, shared⟩
  | updated found known kept pending =>
    exact ⟨stages, .inr ⟨_, _, Pool.threads_set_self .., kept _ known⟩, shared⟩
  | written found known kept =>
    exact ⟨stages, engine, .inr ⟨_, _, Pool.threads_set_self .., kept _ known⟩⟩

/-- The copies agree, or the reload that changed the engine is still to write
the other copy. -/
def Settling (pool : Reloads ι) : Prop :=
  pool.shared.engine = pool.shared.shared ∨
    ∃ name, ∃ thread ∈ pool.threads name, Pending pool.shared.engine thread

/-- A reload writes the shared copy only while the engine still has the
configuration it has read. -/
def Unsurpassed (pool : Reloads ι) (event : Happening ι) (_ : Reloads ι) : Prop :=
  match event with
  | .acted _ ⟨.writeShared config, _⟩ => pool.shared.engine = config
  | _ => True

theorem Settling.step (settling : Settling pool) (moved : Moved pool event pool')
    (unsurpassed : Unsurpassed pool event pool') : Settling pool' := by
  have elsewhere : ∀ {name : ι} {thread' : Reloader},
      (∀ thread ∈ pool.threads name, ¬ Pending pool.shared.engine thread) →
      Settling (pool.set pool.shared name thread') := by
    intro name thread' idle
    rcases settling with agree | ⟨other, thread, found, pending⟩
    · exact .inl agree
    · have different : other ≠ name := by
        rintro rfl
        exact idle thread found pending
      exact .inr ⟨other, thread, (Pool.threads_set_of_ne _ _ _ different).trans found, pending⟩
  cases moved with
  | launched free =>
    refine elsewhere fun thread found => ?_
    rw [free] at found
    cases found
  | read found fresh unwritten =>
    refine elsewhere fun thread found' => ?_
    rw [found] at found'
    cases found'
    exact unwritten _
  | updated found known kept pending =>
    exact .inr ⟨_, _, Pool.threads_set_self .., pending⟩
  | written found known kept => exact .inl unsurpassed

def ended : Program Step Outcome Unit → Bool
  | .done _ => true
  | _ => false

def Idle (pool : Reloads ι) : Prop := pool.All fun thread => ended thread.rest = true

instance [Fintype ι] : Decidable (Idle pool) :=
  inferInstanceAs (Decidable (∀ name, ∀ thread ∈ pool.threads name, _))

instance : Decidable (Unsurpassed pool event pool') := by
  unfold Unsurpassed
  split <;> infer_instance

def Harmless (thread : Reloader) : Prop :=
  ∀ error : String, (⟨.readFile, .error error⟩ : Exchange Step Outcome) ∈ thread.log →
      thread.log = [⟨.readFile, .error error⟩]

theorem Stage.harmless (stage : Stage thread) : Harmless thread := by
  intro error mem
  cases stage with
  | launched log rest =>
    rw [log] at mem
    cases mem
  | failed other log rest =>
    rw [log, List.mem_singleton] at mem
    cases mem
    exact log
  | read config log rest => simp [log] at mem
  | updated config log rest => simp [log] at mem
  | written config log rest => simp [log] at mem

omit [DecidableEq ι] in
theorem Sourced.begun (config : LoopConfig) (generation : ConfigGeneration) :
    Sourced config (begun config generation : Reloads ι) :=
  ⟨fun _ _ => nofun, .inl rfl, .inl rfl⟩

/-- Whenever no reload is in progress the copies agree, as long as no reload
writes the shared copy after another has changed the engine; the reload that
ends the last progress decides.  Each copy comes from the start or from a file
some reload has read, and a failed reload writes nothing. -/
theorem copies_agree_when_unsurpassed {config : LoopConfig}
    {generation : ConfigGeneration} {events : List (Happening ι)} :
    (reloads.Run Unsurpassed (begun config generation) events pool → Idle pool →
      pool.shared.engine = pool.shared.shared) ∧
    (reloads.Run System.anyhow (begun config generation) events pool →
      Known config pool pool.shared.engine ∧
        Known config pool pool.shared.shared ∧ pool.All Harmless ∧
        ∀ (name : ι) (new : LoopConfig) (after : Reloads ι),
          reloads.Step pool (.acted name ⟨.writeShared new, ()⟩) after →
          (after.shared.engine = after.shared.shared ↔
            Unsurpassed pool (.acted name ⟨.writeShared new, ()⟩) after)) := by
  refine ⟨fun run idle => ?_, fun run => ?_⟩
  · let sound (pool : Reloads ι) : Prop := Sourced config pool ∧ Settling pool
    have holds : sound pool :=
      run.invariant ⟨.begun config generation, .inl rfl⟩ fun held step meets => ⟨held.1.step step,
          held.2.step (All.moved held.1.stages step).1 meets⟩
    rcases holds.2 with agree | ⟨name, thread, found, pending⟩
    · exact agree
    · have halted : ended thread.rest = true := idle name thread found
      rw [show thread.rest = _ from pending] at halted
      cases halted
  · have sourced : Sourced config pool :=
      run.invariant (.begun config generation) fun held step _ => held.step step
    refine ⟨sourced.engine, sourced.shared,
      fun name thread found => (sourced.stages name thread found).harmless, ?_⟩
    intro name new after step
    obtain ⟨moved, -⟩ := All.moved sourced.stages step
    cases moved with
    | written found known kept => exact Iff.rfl

open EventLoop (everySecs)

abbrev Schedule := List (System.Move (Fin 2) (Option String) (Except String LoopConfig))

def inTurn : Schedule :=
  [.launch 0 none, .act 0 (.ok (everySecs 60)), .act 0 (.ok (everySecs 60)),
    .act 0 (.ok (everySecs 60)), .launch 1 none, .act 1 (.ok (everySecs 120)),
    .act 1 (.ok (everySecs 120)), .act 1 (.ok (everySecs 120))]

def nested : Schedule :=
  [.launch 0 none, .act 0 (.ok (everySecs 60)), .act 0 (.ok (everySecs 60)),
    .launch 1 none, .act 1 (.ok (everySecs 120)), .act 1 (.ok (everySecs 120)),
    .act 1 (.ok (everySecs 120)), .act 0 (.ok (everySecs 120))]

def afterTurns : List (Happening (Fin 2)) × Reloads (Fin 2) :=
  reloads.replayed Unsurpassed inTurn (begun (everySecs 30) .initial) (by decide +kernel)

def afterNested : List (Happening (Fin 2)) × Reloads (Fin 2) :=
  reloads.replayed System.anyhow nested (begun (everySecs 30) .initial) (by decide +kernel)

theorem reloads_in_turn_agree : Idle afterTurns.2 ∧ afterTurns.2.shared.shared = everySecs 120 ∧
      afterTurns.2.shared.engine = afterTurns.2.shared.shared := by
  have idle : Idle afterTurns.2 := by decide +kernel
  exact ⟨idle, by decide +kernel,
    copies_agree_when_unsurpassed.1 (.replayed inTurn (by decide +kernel)) idle⟩

theorem nested_reloads_disagree :
    reloads.Run System.anyhow (begun (everySecs 30) .initial) afterNested.1 afterNested.2 ∧
      Idle afterNested.2 ∧ afterNested.2.shared.engine = everySecs 120 ∧
      afterNested.2.shared.shared = everySecs 60 ∧ everySecs 120 ≠ everySecs 60 :=
  ⟨.replayed _ _, by decide +kernel, by decide +kernel, by decide +kernel, by decide +kernel⟩

end CacheCleaner.Reload
