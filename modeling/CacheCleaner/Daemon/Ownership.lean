import CacheCleaner.Daemon.Phases

namespace CacheCleaner.DaemonContext

open Effect Daemon
open Phase (permits ordinary advance)

variable {shared : DaemonContext} {thread after : Thread Code Action Answer}
  {exchange : Exchange Action Answer} {action : Action} {phase : Phase}

def Phase.engaged : Phase → Bool
  | .claimed | .reset | .numbered _ | .recorded _ | .working _ => true
  | _ => false

def Phase.locking : Phase → Bool
  | .stopping | .stopped => true
  | _ => false

inductive Phase.Hands : Phase → Worker → Prop
  | scheduled : Hands .reset (.scheduled params)
  | manual : Hands (.recorded jobId) (.manual jobId params)

/-- Requests that change no more than the engine lock and the reason code, and
claims that are refused. -/
def Quiet : Exchange Action Answer → Bool
  | ⟨.claimManual, granted⟩ => !granted
  | ⟨.claimScheduled, granted⟩ => !granted
  | ⟨.isShutdownRequested, _⟩ | ⟨.isCleaning, _⟩ | ⟨.readRuntime, _⟩
  | ⟨.loadCancelled, _⟩ | ⟨.exchangeReason _, _⟩ | ⟨.clearReason, _⟩
  | ⟨.getJob _, _⟩ | ⟨.lockEngine, _⟩ | ⟨.unlockEngine, _⟩ | ⟨.now, _⟩ => true
  | _ => false

/-- Everything an exchange can do to the phase of its thread and to the
context. -/
inductive Turn (context : DaemonContext) :
    Phase → Exchange Action Answer → Phase → DaemonContext → Prop
  | claimsManual (free : context.runtime.isCleaning = false) :
      Turn context .idle ⟨.claimManual, true⟩ .claimed { context with
        runtime := { context.runtime with
          isCleaning := true
          state := .cleaningManual } }
  | claimsScheduled (free : context.runtime.isCleaning = false)
      (running : context.runtime.shutdownRequested = false) :
      Turn context .idle ⟨.claimScheduled, true⟩ .claimed { context with
        runtime := { context.runtime with
          isCleaning := true
          state := .cleaningScheduled } }
  | locks (unlocked : context.runtimeLocked = false) :
      Turn context .idle ⟨.requestShutdown, ()⟩ .stopping { context with
        runtimeLocked := true
        runtime := { context.runtime with
          shutdownRequested := true
          state := .shuttingDown } }
  | cancels {phase phase' : Phase} (advances : phase = .idle ∧ phase' = .idle ∨
        phase = .stopping ∧ phase' = .stopped) :
      Turn context phase ⟨.storeCancelled true, ()⟩ phase' { context with cancelled := true }
  | unlocks : Turn context .stopped ⟨.releaseRuntime, ()⟩ .idle
        { context with runtimeLocked := false }
  | resets : Turn context .claimed ⟨.storeCancelled false, ()⟩ .reset
        { context with cancelled := false }
  | numbers : Turn context .reset ⟨.fetchJobId, context.nextJobId⟩ (.numbered context.nextJobId)
        { context with nextJobId := context.nextJobId + 1 }
  | inserts : Turn context (.numbered jobId) ⟨.insertJob (.running jobId), ()⟩
        (.recorded jobId) { context with recentJobs := context.recentJobs.upsert (.running jobId) }
  | creates {phase : Phase} {worker : Worker} (hands : phase.Hands worker) :
      Turn context phase ⟨.spawn worker, true⟩ .idle
        { context with spawned := worker :: context.spawned }
  | loses {phase : Phase} (hands : phase.Hands worker) :
      Turn context phase ⟨.spawn worker, false⟩ .idle context
  | publishesReport {worker : Worker} {now : UnixTimestamp} {freed : Nat} :
      Turn context (.working worker) ⟨.publishReport now freed, ()⟩ (.published worker)
        { context with runtime := publishReport now freed context.runtime }
  | publishesFailure {worker : Worker} :
      Turn context (.working worker) ⟨.publishFailure, ()⟩ (.published worker)
        { context with runtime := publishFailure context.runtime }
  | completes : Turn context (.closing (.manual jobId params))
        ⟨.completeJob jobId report, ()⟩ (.ended (.manual jobId params))
        { context with
          recentJobs := updateJob context.recentJobs jobId (.complete report) }
  | fails : Turn context (.closing (.manual jobId params)) ⟨.failJob jobId error, ()⟩
        (.ended (.manual jobId params))
        { context with
          recentJobs := updateJob context.recentJobs jobId (.fail error) }
  | sets : Turn context .idle ⟨.setState state, ()⟩ .idle
        { context with runtime := { context.runtime with state } }
  | stays {phase : Phase} {exchange : Exchange Action Answer}
      {after : DaemonContext} (quiet : Quiet exchange = true)
      (same : after = { context with
        reasonCode := after.reasonCode
        engineLocked := after.engineLocked }) :
      Turn context phase exchange phase after

theorem guarded_some {α : Type} {context after : DaemonContext} {reply : α}
    {block : DaemonRuntimeState → α × DaemonRuntimeState} :
    guarded context block = some (reply, after) ↔
      context.runtimeLocked = false ∧ reply = (block context.runtime).1 ∧
        after = { context with runtime := (block context.runtime).2 } := by
  unfold guarded
  cases context.runtimeLocked with
  | true => simp
  | false => simp [@eq_comm _ reply, @eq_comm _ after]

theorem closing_of_permits (permitted : phase.permits action = true)
    (closes : (∃ report, action = .completeJob jobId report) ∨
      ∃ error, action = .failJob jobId error) :
    ∃ params, phase = .closing (.manual jobId params) := by
  rcases closes with ⟨report, rfl⟩ | ⟨error, rfl⟩
  all_goals
    cases phase with
    | closing worker => cases worker <;> simp_all [permits]
    | _ => simp [permits, ordinary] at permitted

theorem Turn.of_answer {chance : Chance} {context after : DaemonContext} {reply : Answer action}
    (permitted : phase.permits action = true)
    (answered : answer chance action context = some (reply, after)) :
    Turn context phase ⟨action, reply⟩ (phase.advance ⟨action, reply⟩) after := by
  cases action with
  | claimManual =>
    obtain rfl : phase = .idle := by cases phase <;> simp_all [permits]
    obtain ⟨-, rfl, rfl⟩ := guarded_some.mp answered
    cases cleaning : context.runtime.isCleaning with
    | true =>
      simpa [claimManual, cleaning, advance] using Turn.stays rfl rfl
    | false =>
      simpa [claimManual, cleaning, advance] using Turn.claimsManual cleaning
  | claimScheduled =>
    obtain rfl : phase = .idle := by cases phase <;> simp_all [permits]
    obtain ⟨-, rfl, rfl⟩ := guarded_some.mp answered
    by_cases refused : context.runtime.shutdownRequested = true ∨ context.runtime.isCleaning = true
    · simpa [claimScheduled, refused, advance] using Turn.stays rfl rfl
    · simp only [not_or, Bool.not_eq_true] at refused
      simpa [claimScheduled, refused, advance] using Turn.claimsScheduled refused.2 refused.1
  | requestShutdown =>
    obtain rfl : phase = .idle := by cases phase <;> simp_all [permits]
    simp only [answer, Option.map_eq_some_iff] at answered
    obtain ⟨⟨_, middle⟩, answered, same⟩ := answered
    obtain ⟨unlocked, -, rfl⟩ := guarded_some.mp answered
    cases same
    exact .locks unlocked
  | storeCancelled value =>
    cases answered
    cases value <;> cases phase <;> simp [permits, ordinary] at permitted
    · exact .resets
    · exact .cancels (.inl ⟨rfl, rfl⟩)
    · exact .cancels (.inr ⟨rfl, rfl⟩)
  | releaseRuntime =>
    obtain rfl : phase = .stopped := by
      cases phase <;> simp_all [permits, ordinary]
    cases answered
    exact .unlocks
  | fetchJobId =>
    obtain rfl : phase = .reset := by
      cases phase <;> simp_all [permits, ordinary]
    cases answered
    exact .numbers
  | insertJob record =>
    cases phase <;> simp [permits, ordinary] at permitted
    subst permitted
    cases answered
    exact .inserts
  | spawn worker =>
    have hands : phase.Hands worker := by
      cases phase <;> cases worker <;> simp [permits, ordinary] at permitted
      · exact .scheduled
      · subst permitted
        exact .manual
    have idle : phase.advance ⟨.spawn worker, reply⟩ = .idle := by
      cases hands <;> rfl
    rw [idle]
    cases created : chance.created with
    | true =>
      simp only [answer, created, if_true, Option.some.injEq, Prod.mk.injEq] at answered
      obtain ⟨rfl, rfl⟩ := answered
      exact .creates hands
    | false =>
      simp only [answer, created, Bool.false_eq_true, if_false,
        Option.some.injEq, Prod.mk.injEq] at answered
      obtain ⟨rfl, rfl⟩ := answered
      exact .loses hands
  | publishReport now freed =>
    cases phase <;> simp [permits, ordinary] at permitted
    simp only [answer, guarded_some] at answered
    obtain ⟨-, -, rfl⟩ := answered
    exact .publishesReport
  | publishFailure =>
    cases phase <;> simp [permits, ordinary] at permitted
    simp only [answer, guarded_some] at answered
    obtain ⟨-, -, rfl⟩ := answered
    exact .publishesFailure
  | completeJob jobId report =>
    obtain ⟨params, rfl⟩ := closing_of_permits permitted (.inl ⟨report, rfl⟩)
    cases answered
    exact .completes
  | failJob jobId error =>
    obtain ⟨params, rfl⟩ := closing_of_permits permitted (.inr ⟨error, rfl⟩)
    cases answered
    exact .fails
  | setState state =>
    obtain rfl : phase = .idle := by cases phase <;> simp_all [permits]
    simp only [answer, guarded_some] at answered
    obtain ⟨-, -, rfl⟩ := answered
    exact .sets
  | isShutdownRequested | isCleaning | readRuntime =>
    have stays : phase.advance ⟨_, reply⟩ = phase := by cases phase <;> rfl
    obtain ⟨-, -, rfl⟩ := guarded_some.mp answered
    rw [stays]
    exact .stays rfl rfl
  | lockEngine =>
    have stays : phase.advance ⟨_, reply⟩ = phase := by cases phase <;> rfl
    rw [stays]
    simp only [answer] at answered
    split at answered
    · cases answered
    · cases answered
      exact .stays rfl rfl
  | _ =>
    have stays : phase.advance ⟨_, reply⟩ = phase := by cases phase <;> rfl
    rw [stays]
    cases answered
    exact .stays rfl rfl

abbrev Daemons (ι : Type) := Pool ι Code Action Answer DaemonContext

abbrev Happening (ι : Type) := Event ι Code Action Answer

def Engaged (thread : Thread Code Action Answer) : Prop := (protocol.phase thread).engaged = true

instance : DecidablePred Engaged := fun _ => inferInstanceAs (Decidable (_ = true))

def Locking (thread : Thread Code Action Answer) : Prop := (protocol.phase thread).locking = true

/-- Who is to clear the cleaning flag: a thread, a worker created and not yet
begun, or nobody, since the worker could not be created. -/
inductive Owner (ι : Type) where
  | thread (name : ι)
  | created (worker : Worker)
  | nobody

namespace Owner

variable {ι : Type}

def name? : Owner ι → Option ι
  | .thread name => some name
  | _ => none

def worker? : Owner ι → Option Worker
  | .created worker => some worker
  | _ => none

end Owner

variable {ι : Type}

structure Owned (owner : Option (Owner ι)) (pool : Daemons ι) : Prop where
  cleaning : pool.shared.runtime.isCleaning = owner.isSome
  engaged : pool.Sole Engaged (owner.bind Owner.name?)
  spawned : pool.shared.spawned = (owner.bind Owner.worker?).toList

structure Held (holder : Option ι) (pool : Daemons ι) : Prop where
  locked : pool.shared.runtimeLocked = holder.isSome
  locking : pool.Sole Locking holder

abbrev Orderly (pool : Daemons ι) : Prop := protocol.Kept (fun phase _ => phase.final = true) pool

structure Coherent (pool : Daemons ι) : Prop where
  orderly : Orderly pool
  owned : ∃ owner, Owned owner pool
  held : ∃ holder, Held holder pool

theorem Coherent.start : Coherent (Pool.start .new : Daemons ι) :=
  ⟨.empty _ _, ⟨none, rfl, .start _, rfl⟩, none, rfl, .start _⟩

theorem Owned.thread_of_engaged (owned : Owned owner pool)
    (found : pool.threads name = some thread) (engaged : Engaged thread) :
    owner = some (.thread name) := by
  have owns := owned.engaged.owner_eq found engaged
  match owner, owns with
  | some (.thread _), rfl => rfl

theorem Phase.Hands.engaged (hands : phase.Hands worker) : phase.engaged = true := by
  cases hands <;> rfl

def Fails : Happening ι → Bool
  | .acted _ ⟨.spawn _, created⟩ => !created
  | _ => false

theorem Orderly.turn (orderly : Orderly pool) (found : pool.threads name = some thread)
    (waits : thread.rest = .call action next)
    (answered : system.answer chance action pool.shared = some (reply, shared)) :
    Turn pool.shared (protocol.phase thread) ⟨action, reply⟩
      (protocol.phase (thread.resume action reply (next reply))) shared := by
  rw [Protocol.phase_resume]
  exact .of_answer (orderly.permits found waits) answered

variable [DecidableEq ι]

theorem Owned.launched (owned : Owned owner pool) {name : ι}
    (free : pool.threads name = none) (launched : launch code pool.shared = some shared) :
    ∃ owner', Owned owner' (pool.set shared name ⟨code, [], body code⟩) ∧
      (owner' = some .nobody → owner = some .nobody) := by
  have absent : owner.bind Owner.name? ≠ some name := by
    intro owns
    obtain ⟨thread, found, -⟩ := (owned.engaged name).mpr owns
    simp [free] at found
  cases code with
  | worker worker job =>
    simp only [launch] at launched
    split at launched
    next created =>
        cases launched
        rw [owned.spawned, Option.mem_toList] at created
        rcases owner with _ | (_ | other | _) <;> cases created
        refine ⟨some (.thread name), ⟨owned.cleaning, owned.engaged.take rfl, ?_⟩, by simp⟩
        simp [owned.spawned, Owner.worker?]
    next => cases launched
  | _ =>
    cases launched
    refine ⟨owner, ⟨owned.cleaning, owned.engaged.keep ?_, owned.spawned⟩, id⟩
    exact iff_of_false Bool.false_ne_true absent

theorem Owned.acted (owned : Owned owner pool) (found : pool.threads name = some thread)
    (turn : Turn pool.shared (protocol.phase thread) exchange (protocol.phase after) shared) :
    ∃ owner', Owned owner' (pool.set shared name after) ∧
      (owner' = some .nobody → owner = some .nobody ∨
        Fails (.acted name exchange : Happening ι) = true) := by
  -- A step that changes neither the flag nor the workers created.
  have other (engaged : (protocol.phase after).engaged = (protocol.phase thread).engaged)
      (cleaning : shared.runtime.isCleaning = pool.shared.runtime.isCleaning)
      (spawned : shared.spawned = pool.shared.spawned) :
      ∃ owner', Owned owner' (pool.set shared name after) ∧
        (owner' = some .nobody → owner = some .nobody ∨
          Fails (.acted name exchange : Happening ι) = true) := by
    refine ⟨owner, ⟨cleaning.trans owned.cleaning, owned.engaged.keep ?_,
      spawned.trans owned.spawned⟩, .inl⟩
    rw [Engaged, engaged]
    exact ⟨owned.engaged.owner_eq found, fun owns => owned.engaged.plays owns found⟩
  have unowned (free : pool.shared.runtime.isCleaning = false) : owner = none := by
    simpa [free] using owned.cleaning
  generalize before : protocol.phase thread = phase at turn other
  generalize arrived : protocol.phase after = phase' at turn other
  cases turn with
  | claimsManual free | claimsScheduled free running =>
    obtain rfl := unowned free
    refine ⟨some (.thread name), ⟨rfl, owned.engaged.take ?_, owned.spawned⟩, by simp⟩
    rw [Engaged, arrived]
    rfl
  | @creates _ worker hands =>
    obtain rfl := owned.thread_of_engaged found (show _ = true by rw [before]; exact hands.engaged)
    refine ⟨some (.created worker), ⟨owned.cleaning,
      owned.engaged.give rfl ?_, congrArg _ owned.spawned⟩, by simp⟩
    simp [Engaged, arrived, Phase.engaged]
  | loses hands =>
    obtain rfl := owned.thread_of_engaged found (show _ = true by rw [before]; exact hands.engaged)
    refine ⟨some .nobody, ⟨owned.cleaning, owned.engaged.give rfl ?_,
      owned.spawned⟩, fun _ => .inr rfl⟩
    simp [Engaged, arrived, Phase.engaged]
  | @publishesReport worker | @publishesFailure worker =>
    obtain rfl := owned.thread_of_engaged found (show _ = true by rw [before]; rfl)
    refine ⟨none, ⟨rfl, owned.engaged.give rfl ?_, owned.spawned⟩, by simp⟩
    cases worker <;> simp [Engaged, arrived, Phase.published, Phase.engaged]
  | cancels advances =>
    rcases advances with ⟨rfl, rfl⟩ | ⟨rfl, rfl⟩ <;> exact other rfl rfl rfl
  | stays quiet same => exact other rfl (by rw [same]) (by rw [same])
  | _ => exact other rfl rfl rfl

theorem Owned.step {event : Happening ι} (owned : Owned owner pool) (orderly : Orderly pool)
    (step : system.Step pool event pool') : ∃ owner', Owned owner' pool' ∧
      (owner' = some .nobody → owner = some .nobody ∨ Fails event = true) := by
  cases step with
  | launched free launch =>
    obtain ⟨owner', owned', nobody⟩ := owned.launched free launch
    exact ⟨owner', owned', fun lost => .inl (nobody lost)⟩
  | acted found waits answered =>
    exact owned.acted found (orderly.turn found waits answered)

theorem Held.acted (held : Held holder pool) {name : ι} (found : pool.threads name = some thread)
    (turn : Turn pool.shared (protocol.phase thread) exchange (protocol.phase after) shared) :
    ∃ holder', Held holder' (pool.set shared name after) := by
  have other (locking : (protocol.phase after).locking = (protocol.phase thread).locking)
      (lock : shared.runtimeLocked = pool.shared.runtimeLocked) :
      ∃ holder', Held holder' (pool.set shared name after) := by
    refine ⟨holder, lock.trans held.locked, held.locking.keep ?_⟩
    rw [Locking, locking]
    exact ⟨held.locking.owner_eq found, fun owns => held.locking.plays owns found⟩
  generalize before : protocol.phase thread = phase at turn other
  generalize arrived : protocol.phase after = phase' at turn other
  cases turn with
  | locks unlocked =>
    obtain rfl : holder = none := by simpa [unlocked] using held.locked
    refine ⟨some name, rfl, held.locking.take ?_⟩
    rw [Locking, arrived]
    rfl
  | unlocks =>
    have holds : Locking thread := by rw [Locking, before]; rfl
    refine ⟨none, rfl, held.locking.give (held.locking.owner_eq found holds) ?_⟩
    simp [Locking, arrived, Phase.locking]
  | creates hands | loses hands => cases hands <;> exact other rfl rfl
  | @publishesReport worker | @publishesFailure worker =>
    cases worker <;> exact other rfl rfl
  | cancels advances =>
    rcases advances with ⟨rfl, rfl⟩ | ⟨rfl, rfl⟩ <;> exact other rfl rfl
  | stays quiet same => exact other rfl (by rw [same])
  | _ => exact other rfl rfl

theorem Held.step {event : Happening ι} (held : Held holder pool) (orderly : Orderly pool)
    (step : system.Step pool event pool') : ∃ holder', Held holder' pool' := by
  cases step with
  | @launched name code shared free launched =>
    have absent : holder ≠ some name := by
      intro owns
      obtain ⟨thread, found, -⟩ := (held.locking name).mpr owns
      simp [free] at found
    have lock : shared.runtimeLocked = pool.shared.runtimeLocked := by
      rw [launch_frame launched]
    refine ⟨holder, lock.trans held.locked, held.locking.keep ?_⟩
    exact iff_of_false (by cases code <;> exact Bool.false_ne_true) absent
  | acted found waits answered =>
    exact held.acted found (orderly.turn found waits answered)

theorem Coherent.step {event : Happening ι}
    (coherent : Coherent pool) (step : system.Step pool event pool') : Coherent pool' := by
  obtain ⟨orderly, ⟨owner, owned⟩, ⟨holder, held⟩⟩ := coherent
  obtain ⟨owner', owned', -⟩ := owned.step orderly step
  exact ⟨.step body_obeys orderly step, ⟨owner', owned'⟩, held.step orderly step⟩

theorem coherent {pool : Daemons ι}
    (run : system.Run allowed (.start .new) events pool) : Coherent pool :=
  run.invariant Coherent.start fun coherent step _ => coherent.step step

end CacheCleaner.DaemonContext
