import CacheCleaner.Daemon.Sharing
import CacheCleaner.Pipeline.Session

namespace CacheCleaner

open Effect Effect.Program
open RecoveryEngine (Repairs)

namespace Store

variable {store : Store}

def claimedJob (store : Store) (attempt : AttemptId) (job : JobId) : JobId :=
  match store.attempts.find attempt with
  | some row => row.jobId
  | none => job

theorem claimedJob_of_mem (mem : row ∈ store.attempts) (job : JobId) :
    store.claimedJob row.attemptId job = row.jobId := by
  rw [claimedJob, Table.find_of_mem mem]

/-- The rows of an attempt, of its intents and of a job are the same. -/
structure Untouched (attempt : AttemptId) (job : JobId) (before after : Store) : Prop where
  attempts : after.attempts.find attempt = before.attempts.find attempt
  intents : after.intentsForAttempt attempt = before.intentsForAttempt attempt
  jobs : after.jobs.find job = before.jobs.find job

theorem Kept.untouched (kept : Kept before after) : Untouched attempt job before after := by
  refine ⟨by rw [kept.attempts], ?_, by rw [kept.jobs]⟩
  rw [intentsForAttempt, kept.intents]
  rfl

theorem mem_setAttemptState :
    row ∈ (store.setAttemptState attempt state).attempts ↔ ∃ old ∈ store.attempts,
        (if old.attemptId = attempt then { old with state } else old) = row := by
  rw [Table.mem_iff, setAttemptState, Table.update, List.mem_map]
  simp only [decide_eq_true_eq]
  exact Iff.rfl

theorem intentsForAttempt_setIntentState (different : other ≠ attempt) :
    (store.setIntentState other op state now).intentsForAttempt attempt =
      store.intentsForAttempt attempt := by
  simp only [intentsForAttempt, setIntentState, Table.update, List.filter_map]
  have kept : ∀ row : IntentRow, (if row.attemptId = other ∧ row.opId = op
      then { row with state, resolvedAt := some now } else row).attemptId = row.attemptId := by
    intro row
    split <;> rfl
  simp only [Function.comp_def, decide_eq_true_eq, kept]
  refine (List.map_congr_left fun row mem => ?_).trans (List.map_id _)
  have own := (List.mem_filter.mp mem).2
  rw [decide_eq_true_eq] at own
  rw [if_neg fun chosen => different (chosen.1.symm.trans own)]
  rfl

theorem Claims.running (claims : Claims before claim after) (mem : row ∈ after.attempts) :
    row ∈ before.attempts ∨ row.attemptId = claim.attemptId ∧
      row.jobId = before.claimedJob claim.attemptId claim.jobId := by
  rcases claims.attempts with ⟨-, same⟩ | ⟨unknown, -, rows⟩
  · rw [same] at mem
    obtain ⟨old, known, rfl⟩ := mem_setAttemptState.mp mem
    split
    · rename_i chosen
      exact .inr ⟨chosen, by rw [← chosen, claimedJob_of_mem known]⟩
    · exact .inl known
  · rw [Table.mem_iff, rows, List.mem_append, List.mem_singleton] at mem
    rcases mem with known | rfl
    · exact .inl known
    · right
      rw [claimedJob, unknown]
      exact ⟨rfl, rfl⟩

end Store

theorem Effected.running (effected : Effected now before after ⟨request, reply⟩)
    (tame : request.revives = false) (mem : row ∈ after.attempts) (running : row.state = .running) :
    row ∈ before.attempts ∨ ∃ job worker lease, written? ⟨request, reply⟩ =
        some (.createAttempt row.attemptId job worker lease) ∧
      row.jobId = before.claimedJob row.attemptId job := by
  rcases effected with ⟨-, kept⟩ | ⟨write, written, executed⟩
  · rw [kept.attempts] at mem
    exact .inl mem
  · cases write with
    | createAttempt attempt job worker lease =>
      refine (Store.createAttempt_ok executed).running mem |>.imp_right ?_
      rintro ⟨same, named⟩
      simp only at same named
      subst same
      exact ⟨job, worker, lease, written, named⟩
    | updateAttemptState attempt state =>
      left
      rw [Store.updateAttemptState_ok executed] at mem
      obtain ⟨old, known, rfl⟩ := Store.mem_setAttemptState.mp mem
      split at running
      · rw [request_of_written written] at tame
        change state = .running at running
        subst running
        cases tame
      · rename_i other
        rwa [if_neg other]
    | _ =>
      rw [(StoreWrite.frames executed).attempts nofun] at mem
      exact .inl mem

namespace Sharing

theorem untouched_of_repairs (repairs : Repairs listed request)
    (effected : Effected now before after ⟨request, reply⟩)
    (attempts : attempt ∉ listed.map Prod.fst)
    (jobs : job ∉ listed.map Prod.snd) : Store.Untouched attempt job before after := by
  rcases effected with ⟨-, kept⟩ | ⟨write, written, executed⟩
  · exact kept.untouched
  · obtain rfl := request_of_written written
    cases write with
    | updateIntentState other op state =>
      rw [Store.updateIntentState_ok executed]
      have different : other ≠ attempt := by
        rintro rfl
        exact attempts repairs
      exact ⟨rfl, Store.intentsForAttempt_setIntentState different, rfl⟩
    | updateAttemptState other state =>
      rw [Store.updateAttemptState_ok executed]
      refine ⟨Table.find_update_of_not (by intro _; rfl) ?_, rfl, rfl⟩
      rintro row rfl
      refine decide_eq_false ?_
      rintro rfl
      exact attempts repairs.1
    | updateJobState other state total =>
      rw [Store.updateJobState_ok executed]
      refine ⟨rfl, rfl, Table.find_update_of_not (by intro _; rfl) ?_⟩
      rintro row rfl
      refine decide_eq_false ?_
      rintro rfl
      exact jobs repairs
    | recordOperationResult row =>
      rw [Store.recordOperationResult_ok executed]
      exact ⟨rfl, rfl, rfl⟩
    | _ => cases repairs

def Living (thread : Member) : Bool :=
  match thread.rest with
  | .call _ _ => true
  | _ => false

def Holds (thread : Member) : Prop := Living thread = true ∧ protocol.phase thread = .holding

instance : DecidablePred Holds := fun _ => inferInstanceAs (Decidable (_ ∧ _))

def claimed? : Exchange Need Heard → Option AttemptId
  | ⟨.world (.write (.createAttempt attempt _ _ _)), some (.ok ())⟩ =>
    some attempt
  | _ => none

def Claimed (thread : Member) (attempt : AttemptId) : Prop := some attempt ∈ thread.log.map claimed?

instance (thread : Member) (attempt : AttemptId) : Decidable (Claimed thread attempt) :=
  inferInstanceAs (Decidable (_ ∈ _))

def listing (thread : Member) : List (AttemptId × JobId) :=
  match Living thread, protocol.phase thread with
  | true, .recovering listed => listed
  | _, _ => []

variable {ι : Type}

/-- The lock is granted while no process holds it; a recovery lists attempts
while no other process that holds the lock has one running; and an attempt is
created under an id, for a job, that no recovery under way was told of. -/
def Considerate (pool : Processes ι) (event : Happening ι) (_ : Processes ι) : Prop :=
  match event with
  | .acted _ ⟨.acquire, some true⟩ => pool.Nobody Holds
  | .acted _ ⟨.world .uncompletedAttempts, _⟩ =>
    pool.All fun thread => Holds thread →
      ∀ row ∈ pool.shared.store.attempts.rows, row.state = .running → ¬ Claimed thread row.attemptId
  | .acted _ ⟨.world (.write (.createAttempt attempt job _ _)), _⟩ =>
    pool.All fun thread => attempt ∉ (listing thread).map Prod.fst ∧
      pool.shared.store.claimedJob attempt job ∉ (listing thread).map Prod.snd
  | _ => True

instance [Fintype ι] (pool : Processes ι) (event : Happening ι)
    (pool' : Processes ι) : Decidable (Considerate pool event pool') := by
  unfold Considerate Pool.All
  split <;> infer_instance

def actor : Happening ι → ι
  | .launched name _ => name
  | .acted name _ => name

structure Clear (pool : Processes ι) : Prop where
  kept : protocol.Kept (fun _ _ => True) pool
  sole : ∀ {name other thread thread'}, pool.threads name = some thread →
    pool.threads other = some thread' → Holds thread → Holds thread' → name = other
  unclaimed : ∀ {name thread}, pool.threads name = some thread →
    Unlocked (protocol.phase thread) → ∀ attempt, ¬ Claimed thread attempt
  apart : ∀ {name other thread holder}, pool.threads name = some thread →
    pool.threads other = some holder → Holds holder →
    ∀ row ∈ pool.shared.store.attempts, row.state = .running → Claimed holder row.attemptId →
      row.attemptId ∉ (listing thread).map Prod.fst ∧ row.jobId ∉ (listing thread).map Prod.snd

theorem Clear.start (world : World) : Clear (.start world : Processes ι) where
  kept := .empty _ _
  sole found := nomatch found
  unclaimed found := nomatch found
  apart found := nomatch found

inductive Advance (stage : Stage) : Exchange Need Heard → Stage → Prop
  | ended (exchange : Exchange Need Heard) : Advance stage exchange .finished
  | stayed (exchange : Exchange Need Heard) : Advance stage exchange stage
  | told (listed : List (AttemptId × JobId)) (starting : stage = .starting) :
      Advance stage ⟨.world .uncompletedAttempts, some (.ok listed)⟩ (.recovering listed)
  | granted (unlocked : Unlocked stage) : Advance stage ⟨.acquire, some true⟩ .holding

theorem Stage.advances (stage : Stage) (exchange : Exchange Need Heard) :
    Advance stage exchange (stage.advance exchange) := by
  obtain ⟨need, heard⟩ := exchange
  cases heard with
  | none => exact .ended _
  | some answer =>
    change Advance stage _ (stage.hear need answer)
    unfold Stage.hear
    split
    · exact .told _ rfl
    · rename_i granted
      cases granted with
      | false => exact .ended _
      | true => exact .granted (.inl rfl)
    · rename_i listed granted
      cases granted with
      | false => exact .ended _
      | true => exact .granted (.inr ⟨listed, rfl⟩)
    · exact .ended _
    · exact .stayed _

section

variable {stage : Stage} {need : Need} {heard : Heard need}

theorem answer_effected (answered : answer oracle need world = some (heard, after)) :
    after.store = world.store ∨ ∃ request reply now,
      (⟨need, heard⟩ : Exchange Need Heard) = ⟨.world request, some reply⟩ ∧
        Effected now world.store after.store ⟨request, reply⟩ := by
  unfold answer at answered
  split at answered
  · cases answered
    exact .inl rfl
  · cases need with
    | world request =>
      cases answered
      exact .inr ⟨request, _, _, rfl, oracle.env.respond_effected request
        (world.withFs (oracle.meanwhile world.fs))⟩
    | _ =>
      cases answered
      exact .inl rfl

theorem revives_of_permits (permitted : stage.permits (.world request)) :
    request.revives = false := by
  cases stage with
  | starting =>
    have repairs : Repairs [] request := .of_quiet permitted
    exact revives_of_repairs repairs
  | recovering listed => exact revives_of_repairs permitted
  | holding => exact permitted
  | finished => exact permitted.elim

theorem exchange_of_claimed (claims : claimed? ⟨need, heard⟩ = some attempt) :
    ∃ job worker lease, (⟨need, heard⟩ : Exchange Need Heard) =
      ⟨.world (.write (.createAttempt attempt job worker lease)), some (.ok ())⟩ := by
  unfold claimed? at claims
  split at claims
  · rename_i created
    cases claims
    exact ⟨_, _, _, created⟩
  · cases claims

theorem holding_of_claimed (permitted : stage.permits need)
    (claims : claimed? ⟨need, heard⟩ = some attempt) : stage = .holding := by
  obtain ⟨job, worker, lease, same⟩ := exchange_of_claimed claims
  cases same
  cases stage with
  | holding => rfl
  | starting => cases permitted
  | recovering listed => cases permitted
  | finished => exact permitted.elim

theorem running_of_answer (permitted : stage.permits need)
    (answered : answer oracle need world = some (heard, after)) (mem : row ∈ after.store.attempts)
    (running : row.state = .running) :
    row ∈ world.store.attempts ∨ ∃ job worker lease, (⟨need, heard⟩ : Exchange Need Heard) =
        ⟨.world (.write (.createAttempt row.attemptId job worker lease)), some (.ok ())⟩ ∧
      row.jobId = world.store.claimedJob row.attemptId job := by
  rcases answer_effected answered with
    same | ⟨request, reply, now, same, effected⟩
  · rw [same] at mem
    exact .inl mem
  · cases same
    refine (effected.running (revives_of_permits permitted) mem running).imp_right ?_
    rintro ⟨job, worker, lease, written, named⟩
    refine ⟨job, worker, lease, ?_, named⟩
    obtain rfl := request_of_written written
    cases reply with
    | error error => cases written
    | ok done => rfl

end

theorem living_of_call (waits : thread.rest = .call need next) : Living thread = true := by
  rw [Living, waits]

section

variable {pool pool' : Processes ι} {name : ι} {thread : Member} {need : Need}
  {next : Heard need → Routine Unit} {heard : Heard need} {shared : World} {rest : Routine Unit}

variable {attempt : AttemptId}

theorem holds_resume (waits : thread.rest = .call need next)
    (meets : Considerate pool (.acted name ⟨need, heard⟩) pool')
    (holds : Holds (thread.resume need heard rest)) :
    Holds thread ∨ Unlocked (protocol.phase thread) ∧ pool.Nobody Holds := by
  have after := holds.2
  rw [Protocol.phase_resume] at after
  have advances := (protocol.phase thread).advances ⟨need, heard⟩
  change Advance _ _ (protocol.advance (protocol.phase thread) ⟨need, heard⟩)
    at advances
  rw [after] at advances
  generalize exchanged : (⟨need, heard⟩ : Exchange Need Heard) = exchange
    at advances
  generalize phase : protocol.phase thread = stage at advances
  cases advances with
  | stayed => exact .inl ⟨living_of_call waits, phase⟩
  | granted unlocked =>
    cases exchanged
    exact .inr ⟨unlocked, meets⟩

theorem listing_resume (waits : thread.rest = .call need next)
    (meets : Considerate pool (.acted name ⟨need, heard⟩) pool') :
    listing (thread.resume need heard rest) = [] ∨
      listing (thread.resume need heard rest) = listing thread ∨
      pool.All fun holder => Holds holder →
        ∀ row ∈ pool.shared.store.attempts.rows, row.state = .running →
          ¬ Claimed holder row.attemptId := by
  have advances := (protocol.phase thread).advances ⟨need, heard⟩
  unfold listing
  rw [Protocol.phase_resume, living_of_call waits]
  change Advance _ _ (protocol.advance (protocol.phase thread) ⟨need, heard⟩)
    at advances
  generalize protocol.advance (protocol.phase thread) ⟨need, heard⟩ = after
    at advances
  generalize exchanged : (⟨need, heard⟩ : Exchange Need Heard) = exchange
    at advances
  cases advances with
  | ended => exact .inl (by split <;> simp_all)
  | stayed =>
    cases Living (thread.resume need heard rest) with
    | false => exact .inl rfl
    | true => exact .inr (.inl rfl)
  | told listed starting =>
    cases exchanged
    exact .inr (.inr meets)
  | granted unlocked => exact .inl (by split <;> simp_all)

theorem claimed_resume : Claimed (thread.resume need heard rest) attempt ↔
      Claimed thread attempt ∨ claimed? ⟨need, heard⟩ = some attempt := by
  simp [Claimed, Thread.resume, eq_comm]

theorem unlisted_of_claimed (meets : Considerate pool (.acted name ⟨need, heard⟩) pool')
    (claims : claimed? ⟨need, heard⟩ = some row.attemptId)
    (known : row ∈ pool.shared.store.attempts ∨ ∃ job worker lease,
      (⟨need, heard⟩ : Exchange Need Heard) =
        ⟨.world (.write (.createAttempt row.attemptId job worker lease)), some (.ok ())⟩ ∧
      row.jobId = pool.shared.store.claimedJob row.attemptId job) :
    pool.All fun thread => row.attemptId ∉ (listing thread).map Prod.fst ∧
      row.jobId ∉ (listing thread).map Prod.snd := by
  rcases known with mem | ⟨job, worker, lease, same, named⟩
  · obtain ⟨job, worker, lease, same⟩ := exchange_of_claimed claims
    cases same
    rw [← Store.claimedJob_of_mem mem job]
    exact meets
  · cases same
    rw [named]
    exact meets

theorem unlocked_of_resume (unlocked : Unlocked (protocol.phase (thread.resume need heard rest))) :
    Unlocked (protocol.phase thread) := by
  rw [Protocol.phase_resume] at unlocked
  have advances := (protocol.phase thread).advances ⟨need, heard⟩
  change Advance _ _ (protocol.advance (protocol.phase thread) ⟨need, heard⟩)
    at advances
  rcases unlocked with after | ⟨listed, after⟩
  all_goals
    rw [after] at advances
    generalize (⟨need, heard⟩ : Exchange Need Heard) = exchange at advances
    generalize protocol.phase thread = stage at advances ⊢
  · cases advances with
    | stayed => exact .inl rfl
  · cases advances with
    | stayed => exact .inr ⟨listed, rfl⟩
    | told listed starting => exact .inl starting

theorem Clear.alone (clear : Clear pool) (found : pool.threads name = some thread)
    (waits : thread.rest = .call need next)
    (meets : Considerate pool (.acted name ⟨need, heard⟩) pool')
    (holds : Holds (thread.resume need heard rest)) (found' : pool.threads other = some thread')
    (different : other ≠ name) : ¬ Holds thread' := by
  intro holds'
  rcases holds_resume waits meets holds with before | ⟨-, nobody⟩
  · exact different (clear.sole found' found holds' before)
  · exact nobody other thread' found' holds'

theorem listing_of_claimed (permitted : (protocol.phase thread).permits need)
    (claims : claimed? ⟨need, heard⟩ = some attempt) :
    listing (thread.resume need heard rest) = [] := by
  have held := holding_of_claimed permitted claims
  obtain ⟨job, worker, lease, same⟩ := exchange_of_claimed claims
  cases same
  rw [listing, Protocol.phase_resume, held]
  split
  · rename_i after
    cases after
  · rfl

variable [DecidableEq ι] {oracle : Oracle}

theorem Clear.exists_holder (clear : Clear pool) (found : pool.threads name = some thread)
    (waits : thread.rest = .call need next)
    (meets : Considerate pool (.acted name ⟨need, heard⟩) pool')
    (found' : (pool.set shared name (thread.resume need heard rest)).threads other = some holder)
    (holds : Holds holder) (claims : Claimed holder attempt)
    (old : claimed? ⟨need, heard⟩ ≠ some attempt) :
    ∃ owner keeper, pool.threads owner = some keeper ∧ Holds keeper ∧ Claimed keeper attempt := by
  rcases Pool.found_set found' with ⟨rfl, rfl⟩ | ⟨-, here⟩
  · have claimed := (claimed_resume.mp claims).resolve_right old
    rcases holds_resume waits meets holds with before | ⟨unlocked, -⟩
    · exact ⟨_, _, found, before, claimed⟩
    · exact absurd claimed (clear.unclaimed found unlocked attempt)
  · exact ⟨_, _, here, holds, claims⟩

theorem Clear.act (clear : Clear pool) (found : pool.threads name = some thread)
    (waits : thread.rest = .call need next)
    (answered : answer oracle need pool.shared = some (heard, shared))
    (meets : Considerate pool (.acted name ⟨need, heard⟩) pool') :
    Clear (pool.set shared name (thread.resume need heard (next heard))) := by
  have permitted := clear.kept.permits found waits
  refine ⟨?_, ?_, ?_, ?_⟩
  · have step : system.Step pool (.acted name ⟨need, heard⟩)
        (pool.set shared name (thread.resume need heard (next heard))) :=
      .acted found waits answered
    exact clear.kept.step body_obeys step
  · intro first second thread₁ thread₂ found₁ found₂ holds₁ holds₂
    rcases Pool.found_set found₁ with ⟨rfl, rfl⟩ | ⟨different₁, here₁⟩
    · rcases Pool.found_set found₂ with ⟨rfl, rfl⟩ | ⟨different₂, here₂⟩
      · rfl
      · exact absurd holds₂ (clear.alone found waits meets holds₁ here₂ different₂)
    · rcases Pool.found_set found₂ with ⟨rfl, rfl⟩ | ⟨different₂, here₂⟩
      · exact absurd holds₁ (clear.alone found waits meets holds₂ here₁ different₁)
      · exact clear.sole here₁ here₂ holds₁ holds₂
  · intro other thread' found' unlocked attempt claims
    rcases Pool.found_set found' with ⟨rfl, rfl⟩ | ⟨-, found'⟩
    · have before := unlocked_of_resume unlocked
      rcases claimed_resume.mp claims with old | new
      · exact clear.unclaimed found before attempt old
      · have held : protocol.phase thread = .holding := holding_of_claimed permitted new
        rw [held] at before
        rcases before with same | ⟨listed, same⟩ <;> cases same
    · exact clear.unclaimed found' unlocked attempt claims
  · intro first second thread₁ holder found₁ found₂ holds row mem running claims
    have known := running_of_answer permitted answered mem running
    by_cases new : claimed? ⟨need, heard⟩ = some row.attemptId
    · rcases Pool.found_set found₁ with ⟨rfl, rfl⟩ | ⟨-, here⟩
      · rw [listing_of_claimed permitted new]
        exact ⟨List.not_mem_nil, List.not_mem_nil⟩
      · exact unlisted_of_claimed meets new known first thread₁ here
    · have old : row ∈ pool.shared.store.attempts := by
        rcases known with known | ⟨job, worker, lease, same, -⟩
        · exact known
        · cases same
          exact absurd rfl new
      obtain ⟨owner, keeper, kept, keeps, claimed⟩ :=
        clear.exists_holder found waits meets found₂ holds claims new
      rcases Pool.found_set found₁ with ⟨rfl, rfl⟩ | ⟨-, here⟩
      · rcases listing_resume waits meets with none | same | unclaimed
        · rw [none]
          exact ⟨List.not_mem_nil, List.not_mem_nil⟩
        · rw [same]
          exact clear.apart found kept keeps row old running claimed
        · exact absurd claimed (unclaimed owner keeper kept keeps row old running)
      · exact clear.apart here kept keeps row old running claimed

def Launched (process : Process) : Member := ⟨process, [], body process⟩

theorem not_holds_launched (process : Process) :
    ¬ Holds (Launched process) := fun holds => nomatch holds.2

theorem listing_launched : listing (Launched process) = [] := by
  unfold listing
  split
  · rename_i after
    cases after
  · rfl

theorem Clear.launch (clear : Clear pool) (free : pool.threads name = none) (process : Process) :
    Clear (pool.set pool.shared name (Launched process)) := by
  refine ⟨?_, ?_, ?_, ?_⟩
  · have step : system.Step pool (.launched name process)
        (pool.set pool.shared name (Launched process)) := .launched free rfl
    exact clear.kept.step body_obeys step
  · intro first second thread₁ thread₂ found₁ found₂ holds₁ holds₂
    rcases Pool.found_set found₁ with ⟨rfl, rfl⟩ | ⟨-, here₁⟩
    · exact absurd holds₁ (not_holds_launched process)
    · rcases Pool.found_set found₂ with ⟨rfl, rfl⟩ | ⟨-, here₂⟩
      · exact absurd holds₂ (not_holds_launched process)
      · exact clear.sole here₁ here₂ holds₁ holds₂
  · intro other thread found unlocked attempt
    rcases Pool.found_set found with ⟨rfl, rfl⟩ | ⟨-, here⟩
    · exact List.not_mem_nil
    · exact clear.unclaimed here unlocked attempt
  · intro first second thread holder found₁ found₂ holds row mem running claims
    rcases Pool.found_set found₂ with ⟨rfl, rfl⟩ | ⟨-, here₂⟩
    · exact absurd holds (not_holds_launched process)
    · rcases Pool.found_set found₁ with ⟨rfl, rfl⟩ | ⟨-, here₁⟩
      · rw [listing_launched]
        exact ⟨List.not_mem_nil, List.not_mem_nil⟩
      · exact clear.apart here₁ here₂ holds row mem running claims

theorem Clear.step (clear : Clear pool) (step : system.Step pool event pool')
    (meets : Considerate pool event pool') : Clear pool' := by
  cases step with
  | launched free launched =>
    cases launched
    exact clear.launch free _
  | acted found waits answered => exact clear.act found waits answered meets

theorem Clear.run (run : system.Run Considerate (.start world) events pool) : Clear pool :=
  run.invariant (.start world) fun clear step meets => clear.step step meets

end

/-- In every run of considerate steps, on whatever store it starts, a step of
another process leaves alone the row of an attempt that a living process with
the PID lock has running, the rows of its intents and the row of its job. -/
theorem live_attempt_untouched [DecidableEq ι] {world : World}
    {events : List (Happening ι)} {pool pool' : Processes ι}
    (run : system.Run Considerate (.start world) events pool)
    {event : Happening ι} {owner : ι} {holder : Member} {row : AttemptRow}
    (step : system.Step pool event pool') (meets : Considerate pool event pool')
    (found : pool.threads owner = some holder) (holds : Holds holder)
    (member : row ∈ pool.shared.store.attempts) (running : row.state = .running)
    (claims : Claimed holder row.attemptId) (other : actor event ≠ owner) :
    Store.Untouched row.attemptId row.jobId pool.shared.store pool'.shared.store := by
  have clear := Clear.run run
  cases step with
  | launched free launched =>
    cases launched
    exact ⟨rfl, rfl, rfl⟩
  | @acted _ thread need next oracle heard shared here waits answered =>
    have permitted := clear.kept.permits here waits
    have apart := clear.apart here found holds row member running claims
    rcases answer_effected answered with
      same | ⟨request, reply, now, same, effected⟩
    · change Store.Untouched _ _ pool.shared.store shared.store
      rw [same]
      exact ⟨rfl, rfl, rfl⟩
    · cases same
      have living := living_of_call waits
      change (protocol.phase thread).permits (.world request) at permitted
      cases phase : protocol.phase thread with
      | starting =>
        rw [phase] at permitted
        have repairs : Repairs [] request := .of_quiet permitted
        exact untouched_of_repairs repairs effected List.not_mem_nil List.not_mem_nil
      | recovering listed =>
        rw [phase] at permitted
        rw [listing, living, phase] at apart
        exact untouched_of_repairs permitted effected apart.1 apart.2
      | holding =>
        exact absurd (clear.sole here found ⟨living, phase⟩ holds) other
      | finished =>
        rw [phase] at permitted
        exact permitted.elim

def calm : Oracle := ⟨false, id, Device.env, false, true⟩

abbrev Schedule := List (System.Move (Fin 2) Process Oracle)

def daemon : Process := .daemon Device.config [.execute Device.orders Device.realCall]

def crashed : World :=
  { Device.boot with store := { Store.empty with
    jobs := .single ⟨⟨1⟩, "ManualIpc", .admitted, .initial, .initial, 0⟩
    attempts := .single ⟨⟨1⟩, ⟨1⟩, ⟨1⟩, .running⟩ } }

/-- The second daemon lists the crashed attempt before the first has the lock
and begins an attempt of its own. -/
def listThenClaim : Schedule :=
  [.launch 0 daemon, .launch 1 daemon] ++ System.acts 1 calm 2 ++ System.acts 0 calm 13 ++
    System.acts 1 calm 1

def claimedNext : List (Happening (Fin 2)) × Processes (Fin 2) :=
  system.replayed Considerate listThenClaim (.start crashed) (by decide +kernel)

def claimant : Member := (claimedNext.2.threads 0).get (by decide +kernel)

def closing : Happening (Fin 2) × Processes (Fin 2) :=
  (system.play claimedNext.2 (.act 1 calm)).get (by decide +kernel)

theorem closing_spares_live_attempt : closing.2.shared.store.attempts.rows =
        [⟨⟨1⟩, ⟨1⟩, ⟨1⟩, .reconciled⟩, ⟨⟨2⟩, ⟨2⟩, ⟨1⟩, .running⟩] ∧
      Store.Untouched ⟨2⟩ ⟨2⟩ claimedNext.2.shared.store closing.2.shared.store := by
  have found : claimedNext.2.threads 0 = some claimant := (Option.some_get _).symm
  have member : ⟨⟨2⟩, ⟨2⟩, ⟨1⟩, .running⟩ ∈
      claimedNext.2.shared.store.attempts.rows := by decide +kernel
  refine ⟨by decide +kernel, ?_⟩
  exact live_attempt_untouched (.replayed listThenClaim (by decide +kernel))
    (.of_play (.act 1 calm) (Option.some_get _).symm) (by decide +kernel) found
    (by decide +kernel) member rfl (by decide +kernel) (by decide +kernel)

def Locked (pool : Processes ι) (event : Happening ι) (_ : Processes ι) : Prop :=
  match event with
  | .acted _ ⟨.acquire, some true⟩ => pool.Nobody Holds
  | _ => True

instance [Fintype ι] (pool : Processes ι) (event : Happening ι)
    (pool' : Processes ι) : Decidable (Locked pool event pool') := by
  unfold Locked
  split <;> infer_instance

def deleteThenStart : Schedule :=
  [.launch 0 daemon] ++ System.acts 0 calm 25 ++ [.launch 1 daemon] ++ System.acts 1 calm 5

def midway : List (Happening (Fin 2)) × Processes (Fin 2) :=
  system.replayed Locked deleteThenStart (.start Device.boot) (by decide +kernel)

def seizing : Happening (Fin 2) × Processes (Fin 2) :=
  (system.play midway.2 (.act 1 calm)).get (by decide +kernel)

/-- The second daemon, which will be refused the lock, declares the operation of
the first one failed while that one is carrying it out. -/
theorem second_daemon_settles_live_intent :
    system.Run Locked (.start Device.boot) midway.1 midway.2 ∧
      system.Step midway.2 seizing.1 seizing.2 ∧ actor seizing.1 = 1 ∧
      (∃ holder ∈ midway.2.threads 0, Holds holder ∧ Claimed holder ⟨1⟩) ∧
      midway.2.shared.store.attempts.rows = [⟨⟨1⟩, ⟨1⟩, ⟨1⟩, .running⟩] ∧
      (midway.2.shared.store.intentsForAttempt ⟨1⟩).map IntentRow.state = [.mutating] ∧
      (seizing.2.shared.store.intentsForAttempt ⟨1⟩).map IntentRow.state = [.verifiedFailed] := by
  refine ⟨.replayed _ _, .of_play (.act 1 calm) (Option.some_get _).symm, ?_⟩
  decide +kernel

end Sharing

end CacheCleaner
