import CacheCleaner.Daemon.Cancellation

namespace CacheCleaner.DaemonContext

open Effect Daemon

variable {ι : Type}

variable {thread : Thread Code Action Answer} {context after : DaemonContext} {pool : Daemons ι}
  {event : Happening ι} {jobId : Nat} {worker : Worker}

section

variable (context : DaemonContext)

def Recorded (jobId : Nat) : Prop :=
  ∃ record, context.recentJobs.find jobId = some record

def Completed (jobId : Nat) : Prop :=
  ∃ record, context.recentJobs.find jobId = some record ∧ record.isCompleted = true

def Pending : Worker → Prop
  | .scheduled _ => True
  | .manual jobId _ => Recorded context jobId

def Phase.Filed : Phase → Prop
  | .numbered jobId => jobId < context.nextJobId ∧ ¬ Recorded context jobId
  | .recorded jobId => Recorded context jobId
  | .working worker => Pending context worker
  | .closing worker => Pending context worker
  | .ended (.manual jobId _) => Completed context jobId
  | _ => True

end

structure Grows (context after : DaemonContext) : Prop where
  recorded : ∀ {jobId}, Recorded context jobId → Recorded after jobId
  completed : ∀ {jobId}, Completed context jobId → Completed after jobId
  next : context.nextJobId ≤ after.nextJobId

theorem Grows.of_eq (jobs : after.recentJobs = context.recentJobs)
    (next : context.nextJobId ≤ after.nextJobId) : Grows context after := by
  constructor
  · rintro jobId ⟨record, found⟩
    exact ⟨record, jobs ▸ found⟩
  · rintro jobId ⟨record, found, completed⟩
    exact ⟨record, jobs ▸ found, completed⟩
  · exact next

theorem Grows.insert (fresh : ¬ Recorded context jobId) :
    Grows context { context with
      recentJobs := context.recentJobs.upsert (.running jobId) } := by
  have kept {other : Nat} {record : JobRecord}
      (found : context.recentJobs.find other = some record) :
      (context.recentJobs.upsert (.running jobId)).find other = some record := by
    have different : other ≠ jobId := by
      rintro rfl
      exact fresh ⟨record, found⟩
    rwa [Table.find_upsert_of_ne]
    exact different
  constructor
  · rintro other ⟨record, found⟩
    exact ⟨record, kept found⟩
  · rintro other ⟨record, found, completed⟩
    exact ⟨record, kept found, completed⟩
  · exact Nat.le_refl _

theorem find_updateJob_self (found : jobs.find jobId = some record)
    (keyed : (change record).jobId = record.jobId) :
    (updateJob jobs jobId change).find jobId = some (change record) := by
  have key : jobId = (change record).jobId := (Table.find_some found).2.symm.trans keyed.symm
  rw [updateJob, found]
  exact key ▸ Table.find_upsert_self jobs (change record)

theorem find_updateJob_of_ne (keyed : ∀ record, (change record).jobId = record.jobId)
    (different : other ≠ jobId) : (updateJob jobs jobId change).find other = jobs.find other := by
  unfold updateJob
  split
  next record found =>
      apply Table.find_upsert_of_ne
      rwa [keyed, (Table.find_some found).2]
  next => rfl

theorem Grows.close (keyed : ∀ record, (change record).jobId = record.jobId)
    (completes : ∀ record, (change record).isCompleted = true) :
    Grows context { context with
      recentJobs := updateJob context.recentJobs jobId change } := by
  have closed {record : JobRecord} (found : context.recentJobs.find jobId = some record) :=
    find_updateJob_self found (keyed record)
  have kept {other : Nat} (different : other ≠ jobId) :
      (updateJob context.recentJobs jobId change).find other = context.recentJobs.find other :=
    find_updateJob_of_ne keyed different
  constructor
  · rintro other ⟨record, found⟩
    by_cases same : other = jobId
    · subst same
      exact ⟨_, closed found⟩
    · exact ⟨record, (kept same).trans found⟩
  · rintro other ⟨record, found, completed⟩
    by_cases same : other = jobId
    · subst same
      exact ⟨_, closed found, completes record⟩
    · exact ⟨record, (kept same).trans found, completed⟩
  · exact Nat.le_refl _

theorem Grows.pending
    (grows : Grows context after) (pending : Pending context worker) : Pending after worker := by
  cases worker with
  | scheduled params => trivial
  | manual jobId params => exact grows.recorded pending

theorem Grows.filed {phase : Phase} (grows : Grows context after) (filed : phase.Filed context)
    (fresh : ∀ jobId, phase = .numbered jobId → Recorded after jobId →
      Recorded context jobId) : phase.Filed after := by
  cases phase with
  | numbered jobId =>
    exact ⟨Nat.lt_of_lt_of_le filed.1 grows.next, mt (fresh jobId rfl) filed.2⟩
  | recorded jobId => exact grows.recorded filed
  | working worker => exact grows.pending filed
  | closing worker => exact grows.pending filed
  | ended worker =>
    cases worker with
    | scheduled params => trivial
    | manual jobId params => exact grows.completed filed
  | _ => trivial

structure Filed (pool : Daemons ι) : Prop where
  below : ∀ {jobId}, Recorded pool.shared jobId → jobId < pool.shared.nextJobId
  threads : ∀ name, ∀ thread ∈ pool.threads name, (protocol.phase thread).Filed pool.shared
  spawned : ∀ worker ∈ pool.shared.spawned, Pending pool.shared worker

theorem Filed.start : Filed (Pool.start .new : Daemons ι) := by
  constructor
  · rintro jobId ⟨record, found⟩
    cases found
  · intro name thread found
    cases found
  · intro worker mem
    cases mem

/-- The flag is set exactly while a worker is claimed, created or running, there
is at most one, and the record of one that has ended is completed. -/
structure Tracks (pool : Daemons ι) : Prop where
  single : ∀ {name other thread thread'}, pool.threads name = some thread →
    pool.threads other = some thread' → Engaged thread → Engaged thread' → name = other
  created : pool.shared.spawned.length ≤ 1 ∧ (pool.shared.spawned ≠ [] → pool.Nobody Engaged)
  flag : pool.shared.runtime.isCleaning = true ↔ ¬ pool.Nobody Engaged ∨ pool.shared.spawned ≠ []
  completed : ∀ {name thread jobId params job}, pool.threads name = some thread →
    thread.code = .worker (.manual jobId params) job →
    thread.rest = .done () → Completed pool.shared jobId

theorem advance_of_worker {phase : Phase} (exchange : Exchange Action Answer)
    (before : phase = .working worker ∨ phase = .closing worker ∨ phase = .ended worker) :
    phase.advance exchange = .working worker ∨ phase.advance exchange = .closing worker ∨
      phase.advance exchange = .ended worker := by
  obtain ⟨action, reply⟩ := exchange
  rcases before with rfl | rfl | rfl
  · cases worker <;> cases action <;> simp [Phase.advance, Phase.published]
  · cases action <;> simp [Phase.advance]
  · cases action <;> simp [Phase.advance]

theorem phase_of_worker (code : thread.code = .worker worker job) :
    protocol.phase thread = .working worker ∨ protocol.phase thread = .closing worker ∨
      protocol.phase thread = .ended worker := by
  have start : protocol.initial thread.code = .working worker := by
    rw [code]
    rfl
  rw [Protocol.phase, start]
  generalize thread.log = log
  induction log using List.reverseRecOn with
  | nil => exact .inl rfl
  | append_singleton log exchange ih =>
    rw [List.foldl_append]
    exact advance_of_worker exchange ih

theorem Tracks.of_owned (orderly : Orderly pool) (owned : Owned owner pool) (filed : Filed pool)
    (kept : owner ≠ some .nobody) : Tracks pool := by
  constructor
  · intro name other thread thread' found found' engaged engaged'
    have owns := owned.thread_of_engaged found engaged
    have owns' := owned.thread_of_engaged found' engaged'
    cases owns.symm.trans owns'
    rfl
  · rw [owned.spawned]
    match owner, owned, kept with
    | none, owned, _ => simp
    | some (.thread name), owned, _ => simp [Owner.worker?]
    | some (.created worker), owned, _ =>
      exact ⟨Nat.le_refl _, fun _ => owned.engaged.nobody⟩
  · rw [owned.cleaning, owned.spawned]
    match owner, owned, kept with
    | none, owned, _ => simpa using owned.engaged.nobody
    | some (.thread name), owned, _ =>
      obtain ⟨thread, found, engaged⟩ := (owned.engaged name).mpr rfl
      exact iff_of_true rfl (.inl fun nobody =>
        nobody name thread found engaged)
    | some (.created worker), owned, _ => simp [Owner.worker?]
  · intro name thread jobId params job found code done
    have final := orderly name thread found
    rw [done] at final
    have here := filed.threads name thread found
    rcases phase_of_worker code with phase | phase | phase
    · rw [phase] at final
      cases final
    · rw [phase] at final
      cases final
    · rw [phase] at here
      exact here

theorem unfailing_of_quiet (name : ι)
    (quiet : Quiet exchange = true) : Fails (.acted name exchange : Happening ι) = false := by
  obtain ⟨action, reply⟩ := exchange
  cases action with
  | spawn worker => cases quiet
  | _ => rfl

theorem unpublished_of_quiet (name : ι)
    (quiet : Quiet exchange = true) : Publishes (.acted name exchange : Happening ι) = false := by
  obtain ⟨action, reply⟩ := exchange
  cases action with
  | publishReport now freed => cases quiet
  | publishFailure => cases quiet
  | _ => rfl

variable [DecidableEq ι]

theorem Filed.set (filed : Filed pool) (grows : Grows pool.shared shared)
    (below : ∀ {jobId}, Recorded shared jobId → jobId < shared.nextJobId)
    (here : (protocol.phase thread).Filed shared)
    (fresh : ∀ other ≠ name, ∀ thread ∈ pool.threads other, ∀ jobId,
      protocol.phase thread = .numbered jobId → Recorded shared jobId → Recorded pool.shared jobId)
    (spawned : ∀ worker ∈ shared.spawned, Pending shared worker) :
    Filed (pool.set shared name thread) := by
  refine ⟨below, ?_, spawned⟩
  intro other thread' found
  rcases Pool.found_set found with ⟨rfl, rfl⟩ | ⟨different, found⟩
  · exact here
  · exact grows.filed (filed.threads other thread' found) (fresh other different thread' found)

theorem Filed.close (filed : Filed pool) (pending : Recorded pool.shared jobId)
    (keyed : ∀ record, (change record).jobId = record.jobId)
    (completes : ∀ record, (change record).isCompleted = true)
    (ended : protocol.phase thread = .ended (.manual jobId params)) :
    Filed (pool.set { pool.shared with
      recentJobs := updateJob pool.shared.recentJobs jobId change } name thread) := by
  have grows : Grows pool.shared { pool.shared with
      recentJobs := updateJob pool.shared.recentJobs jobId change } :=
    .close keyed completes
  obtain ⟨record, found⟩ := pending
  have shrinks {other : Nat} : Recorded { pool.shared with
      recentJobs := updateJob pool.shared.recentJobs jobId change } other →
      Recorded pool.shared other := by
    rintro ⟨record', found'⟩
    by_cases same : other = jobId
    · exact ⟨record, same ▸ found⟩
    · rw [find_updateJob_of_ne keyed same] at found'
      exact ⟨record', found'⟩
  refine filed.set grows (fun recorded => filed.below (shrinks recorded)) ?_
    (fun _ _ _ _ _ _ => shrinks) fun worker mem => grows.pending (filed.spawned worker mem)
  rw [ended]
  exact ⟨_, find_updateJob_self found (keyed record), completes record⟩

theorem Filed.acted {thread after : Thread Code Action Answer} (filed : Filed pool)
    (owned : Owned owner pool) (found : pool.threads name = some thread)
    (turn : Turn pool.shared (protocol.phase thread) exchange (protocol.phase after) shared) :
    Filed (pool.set shared name after) := by
  have here := filed.threads name thread found
  -- A step that leaves records, numbers and created workers as they are.
  have other (jobs : shared.recentJobs = pool.shared.recentJobs)
      (next : shared.nextJobId = pool.shared.nextJobId)
      (spawned : ∀ worker ∈ shared.spawned, Pending pool.shared worker)
      (filed' : (protocol.phase after).Filed pool.shared) : Filed (pool.set shared name after) := by
    have grows : Grows pool.shared shared := .of_eq jobs next.ge
    have same {jobId : Nat} : Recorded shared jobId → Recorded pool.shared jobId := by
      simp only [Recorded, jobs, imp_self]
    exact filed.set grows (fun recorded => next ▸ filed.below (same recorded))
      (grows.filed filed' fun _ _ => same) (fun _ _ _ _ _ _ => same)
      fun worker mem => grows.pending (spawned worker mem)
  generalize before : protocol.phase thread = phase at turn here
  generalize arrived : protocol.phase after = phase' at turn other
  cases turn with
  | numbers =>
    have grows : Grows pool.shared { pool.shared with
        nextJobId := pool.shared.nextJobId + 1 } :=
      .of_eq rfl (Nat.le_succ _)
    refine filed.set grows (fun recorded => ?_) ?_ (fun _ _ _ _ _ _ => id)
      fun worker mem => grows.pending (filed.spawned worker mem)
    · exact Nat.lt_succ_of_lt (filed.below recorded)
    · rw [arrived]
      exact ⟨Nat.lt_succ_self _, fun recorded => Nat.lt_irrefl _ (filed.below recorded)⟩
  | @inserts jobId =>
    have grows := Grows.insert here.2
    have elsewhere {other : Nat} (different : other ≠ jobId) :
        Recorded { pool.shared with
            recentJobs := pool.shared.recentJobs.upsert (.running jobId) }
          other → Recorded pool.shared other := by
      rintro ⟨record, found⟩
      rw [Table.find_upsert_of_ne _ different] at found
      exact ⟨record, found⟩
    refine filed.set grows (fun {other} recorded => ?_) ?_ ?_
      fun worker mem => grows.pending (filed.spawned worker mem)
    · by_cases same : other = jobId
      · exact same ▸ here.1
      · exact filed.below (elsewhere same recorded)
    · rw [arrived]
      exact ⟨_, Table.find_upsert_self _ (JobRecord.running jobId)⟩
    · -- Two threads that are about to insert would both own the flag.
      intro other different thread' found' jobId' numbered recorded
      have owns := owned.engaged.owner_eq found (show _ = true by rw [before]; rfl)
      have owns' := owned.engaged.owner_eq found' (show _ = true by rw [numbered]; rfl)
      exact absurd (Option.some.inj (owns'.symm.trans owns)) different
  | creates hands =>
    refine other rfl rfl ?_ trivial
    intro worker mem
    rcases List.mem_cons.mp mem with rfl | mem
    · cases hands with
      | scheduled => trivial
      | manual => exact here
    · exact filed.spawned worker mem
  | @publishesReport worker | @publishesFailure worker =>
    exact other rfl rfl filed.spawned (by cases worker <;> exact here)
  | completes | fails =>
    exact filed.close here (fun _ => rfl) (fun _ => rfl) arrived
  | cancels advances =>
    rcases advances with ⟨-, rfl⟩ | ⟨-, rfl⟩ <;> exact other rfl rfl filed.spawned trivial
  | stays quiet same =>
    refine other (by rw [same]) (by rw [same]) (fun worker mem => ?_) here
    rw [same] at mem
    exact filed.spawned worker mem
  | _ => exact other rfl rfl filed.spawned trivial

theorem Filed.step {pool pool' : Daemons ι} (filed : Filed pool) (coherent : Coherent pool)
    (step : system.Step pool event pool') : Filed pool' := by
  cases step with
  | @launched name code shared free launched =>
    have frame := launch_frame launched
    have grows : Grows pool.shared shared := .of_eq (by rw [frame]) (by rw [frame])
    have same {jobId : Nat} : Recorded shared jobId → Recorded pool.shared jobId := by
      rw [frame]
      exact id
    refine filed.set grows (fun recorded => ?_) ?_ (fun _ _ _ _ _ _ => same)
      fun worker mem => grows.pending (filed.spawned worker (launch_spawned launched worker mem))
    · rw [frame]
      exact filed.below (same recorded)
    · cases code with
      | worker worker job =>
        exact grows.pending (filed.spawned worker (mem_of_launch job launched))
      | _ => trivial
  | acted found waits answered =>
    obtain ⟨owner, owned⟩ := coherent.owned
    exact filed.acted owned found (coherent.orderly.turn found waits answered)

theorem not_tracks_of_fails (coherent : Coherent pool) (step : system.Step pool event pool')
    (fails : Fails event = true) : ¬ Tracks pool' := by
  cases step with
  | launched free launched => cases fails
  | @acted name thread action next chance reply shared found waits answered =>
    have turn := coherent.orderly.turn found waits answered
    obtain ⟨owner, owned⟩ := coherent.owned
    generalize before : protocol.phase thread = phase at turn
    generalize arrived : protocol.phase _ = phase' at turn
    cases turn with
    | loses hands =>
      obtain rfl := owned.thread_of_engaged found
        (show _ = true by rw [before]; exact hands.engaged)
      intro tracks
      rcases tracks.flag.mp owned.cleaning with engaged | spawned
      · refine engaged (owned.engaged.give rfl ?_).nobody
        simp [Engaged, arrived, Phase.engaged]
      · exact spawned owned.spawned
    | stays quiet same =>
      cases (unfailing_of_quiet name quiet).symm.trans fails
    | _ => cases fails

theorem cleared_of_publishes (orderly : Orderly pool) (step : system.Step pool event pool')
    (publishes : Publishes event = true) : pool'.shared.runtime.isCleaning = false := by
  cases step with
  | launched free launched => cases publishes
  | @acted name thread action next chance reply shared found waits answered =>
    have turn := orderly.turn found waits answered
    generalize protocol.phase thread = phase at turn
    generalize protocol.phase _ = phase' at turn
    cases turn with
    | publishesReport | publishesFailure => rfl
    | stays quiet same =>
      cases (unpublished_of_quiet name quiet).symm.trans publishes
    | _ => cases publishes

def Tracking (_ : Daemons ι) (event : Happening ι) (after : Daemons ι) : Prop :=
  Tracks after ∧ (Publishes event = true → after.shared.runtime.isCleaning = false)

theorem tracking_of_unfailing (run : system.Run System.anyhow (.start .new) events pool)
    (unfailing : ∀ event ∈ events, Fails event = false) :
    system.Run Tracking (.start .new) events pool ∧ Filed pool ∧
      ∃ owner, Owned owner pool ∧ owner ≠ some .nobody := by
  induction run with
  | nil => exact ⟨.nil, .start, none, ⟨rfl, .start _, rfl⟩, by simp⟩
  | @snoc events pool pool' event run step meets ih =>
    obtain ⟨tracked, filed, owner, owned, kept⟩ := ih fun event mem =>
      unfailing event (List.mem_append_left _ mem)
    have reached := coherent run
    obtain ⟨owner', owned', lost⟩ := owned.step reached.orderly step
    have filed' := filed.step reached step
    have kept' : owner' ≠ some .nobody := by
      intro nobody
      rcases lost nobody with before | fails
      · exact kept before
      · cases (unfailing event (by simp)).symm.trans fails
    refine ⟨.snoc tracked step ⟨?_, ?_⟩, filed', owner', owned', kept'⟩
    · exact .of_owned (reached.step step).orderly owned' filed' kept'
    · exact cleared_of_publishes reached.orderly step

/-- The cleaning flag tracks the worker all along a run exactly when every
thread could be created. -/
theorem flag_tracks_worker_iff {events : List (Happening ι)} {pool : Daemons ι} :
    system.Run Tracking (.start .new) events pool ↔
      system.Run System.anyhow (.start .new) events pool ∧
        ∀ event ∈ events, Fails event = false := by
  constructor
  · intro run
    refine ⟨run.weaken fun _ _ _ _ => trivial, ?_⟩
    induction run with
    | nil => simp
    | @snoc events pool pool' event run step meets induction =>
      intro other member
      rcases List.mem_append.mp member with earlier | last
      · exact induction other earlier
      · obtain rfl := List.mem_singleton.mp last
        by_contra fails
        exact not_tracks_of_fails (coherent run) step (by simpa using fails) meets.1
  · rintro ⟨run, unfailing⟩
    exact (tracking_of_unfailing run unfailing).1

def exhausted : Chance := ⟨false, 0⟩

def claimAndFail : Schedule :=
  .launch 0 (.command (.triggerClean plainParams)) :: System.acts 0 calm 6 ++ [.act 0 exhausted]

def stranded : List (Happening (Fin 3)) × Daemons (Fin 3) :=
  system.replayed System.anyhow claimAndFail (.start .new) (by decide +kernel)

/-- Where the thread cannot be created, the flag stays set with no worker left,
and the record is not completed. -/
theorem failed_spawn_strands_flag : system.Run System.anyhow (.start .new) stranded.1 stranded.2 ∧
      stranded.2.shared.runtime.isCleaning = true ∧
      stranded.2.Nobody Engaged ∧ stranded.2.shared.spawned = [] ∧
      (stranded.2.shared.recentJobs.find 1).map JobRecord.isCompleted = some false := by
  refine ⟨.replayed _ _, ?_⟩
  decide +kernel

end CacheCleaner.DaemonContext
