import CacheCleaner.Executor.Accounts
import CacheCleaner.Recovery.Verdicts

namespace CacheCleaner.RecoveryEngine

open Effect Effect.Program CleanupExecutor

/-- What the executions of each attempt have recorded for its operations. -/
abbrev Ledger := AttemptId → OperationId → Option OperationRow

def Ledger.blank : Ledger := fun _ _ => none

/-- The ledger after an execution of an attempt has exchanged `log`. -/
def Ledger.extend (ledger : Ledger) (attempt : AttemptId) (log : Exchanges) : Ledger :=
  fun other op =>
    if other = attempt then
      ((rows log).reverse.find? fun row => row.opId = op).or (ledger other op)
    else ledger other op

/-- Stores left behind by executions that ended at any point, with what they recorded.
Jobs may be registered again and shared by attempts, attempts claimed again, and
recovery may have run before. -/
inductive Reachable : Store → Ledger → Prop
  | created : Reachable Store.empty .blank
  | registered (earlier : Reachable store ledger)
      (registers : Store.registerJob job jobType catalogGeneration configGeneration now store =
        .ok ((), after)) : Reachable after ledger
  | claimed (earlier : Reachable store ledger)
      (claims : Store.createAttempt attempt job worker lease now store = .ok ((), after)) :
      Reachable after ledger
  | executed (world : World) (earlier : Reachable world.store ledger)
      (listed : row ∈ world.store.attempts.rows) (authorized : AuthorizedPlan)
      (owner : authorized.plan.jobId = row.jobId) (env : Env) (catalog : CatalogSnapshot)
      (config : ConfigGeneration) (count : Nat) :
      Reachable
        ((executePlan authorized catalog config row.attemptId).stateAfter env.handler count
          world).store
        (ledger.extend row.attemptId
          (((executePlan authorized catalog config row.attemptId).log env.handler world).take
            count))
  | finished (earlier : Reachable store ledger) (attempt : AttemptId) (state : AttemptState) :
      Reachable (store.setAttemptState attempt state) ledger
  | closed (earlier : Reachable store ledger) (job : JobId) (state : JobRowState)
      (total : ByteCount) : Reachable (store.setJobState job state total) ledger
  | recovered (world : World) (earlier : Reachable world.store ledger)
      (snapshot : CatalogSnapshot) (env : Env) (count : Nat) :
      Reachable ((reconcileStartupCrashes snapshot).stateAfter env.handler count world).store
        ledger

structure Owned (store : Store) : Prop where
  sound : store.Sound
  owner : ∀ row ∈ store.intents.rows, ∃ attempt ∈ store.attempts.rows,
    attempt.attemptId = row.attemptId ∧ attempt.jobId = row.jobId

namespace Owned

variable {store after : Store}

theorem empty : Owned Store.empty where
  sound := ⟨fun _ mem => (List.not_mem_nil mem).elim, fun _ mem => (List.not_mem_nil mem).elim⟩
  owner := fun _ mem => (List.not_mem_nil mem).elim

theorem reworded (owned : Owned store) (reworded : Reworded store after) : Owned after where
  sound := reworded.sound owned.sound
  owner := by
    intro row mem
    obtain ⟨old, inside, same⟩ := reworded.exists_intent mem
    obtain ⟨attempt, known, id, own⟩ := owned.owner old inside
    have listed : attempt.pair ∈ after.attempts.rows.map AttemptRow.pair := by
      rw [reworded.attempts]
      exact List.mem_map_of_mem known
    obtain ⟨renewed, there, pair⟩ := List.mem_map.mp listed
    obtain ⟨sameId, sameJob⟩ := Prod.mk.inj pair
    exact ⟨renewed, there,
      (sameId.trans id).trans (congrArg IntentRow.attemptId same : old.bare.attemptId = _),
      (sameJob.trans own).trans (congrArg IntentRow.jobId same : old.bare.jobId = _)⟩

theorem registered (owned : Owned store) (registers : Store.Registers store row after) :
    Owned after := by
  refine ⟨⟨?_, ?_⟩, ?_⟩
  · rw [registers.intents]
    exact owned.sound.intents
  · intro attempt mem
    rw [registers.attempts] at mem
    obtain ⟨columns, known⟩ := owned.sound.attempts attempt mem
    exact ⟨columns, (registers.hasJob _).mpr (Or.inl known)⟩
  · rw [registers.intents, registers.attempts]
    exact owned.owner

theorem claimed (owned : Owned store) (claims : Store.Claims store claim after) :
    Owned after := by
  have jobs (job : JobId) : after.hasJob job = store.hasJob job := by
    rw [Store.hasJob, Store.hasJob, claims.jobs]
  rcases claims.attempts with ⟨-, attempts⟩ | ⟨-, known, rows⟩
  · refine owned.reworded ⟨by rw [claims.intents], ?_, jobs⟩
    rw [attempts]
    exact (Reworded.repaired store 0 ⟨.attempt claim.attemptId, .attempt .running⟩).attempts
  · refine ⟨⟨?_, ?_⟩, ?_⟩
    · rw [claims.intents]
      exact owned.sound.intents
    · intro attempt mem
      rw [rows, List.mem_append, List.mem_singleton] at mem
      rw [jobs]
      rcases mem with old | rfl
      · exact owned.sound.attempts attempt old
      · exact ⟨by simp [Store.bindable, claims.bounds], known⟩
    · intro intent mem
      rw [claims.intents] at mem
      obtain ⟨old, inside, rest⟩ := owned.owner intent mem
      exact ⟨old, by simp [rows, inside], rest⟩

theorem executed {world crashed : World}
    (owned : Owned world.store) (listed : claim ∈ world.store.attempts.rows)
    (own : authorized.plan.jobId = claim.jobId)
    (journal : Journal env world.fs ⟨authorized, catalog, claim.attemptId⟩
      world.store authorized.plan.operations crashed) : Owned crashed.store where
  sound := journal.sound owned.sound
  owner := by
    intro row mem
    rw [journal.attempts]
    rcases journal.row_cases mem with old | ⟨op, -, logged⟩
    · exact owned.owner row old
    · refine ⟨claim, listed, logged.attemptId_eq.symm, ?_⟩
      obtain ⟨progress, deletion, target, committedAt, state, resolvedAt, -, rfl⟩ := logged.intent
      exact own.symm

end Owned

theorem Reachable.owned (reachable : Reachable store ledger) : Owned store := by
  induction reachable with
  | created => exact .empty
  | registered earlier registers owned => exact owned.registered (Store.registerJob_ok registers)
  | claimed earlier claims owned => exact owned.claimed (Store.createAttempt_ok claims)
  | executed world earlier listed authorized owner env catalog config count owned =>
    exact owned.executed listed owner
      (executePlan_journal authorized catalog config _ world count)
  | finished earlier attempt state owned =>
    exact owned.reworded (.repaired _ 0 ⟨.attempt attempt, .attempt state⟩)
  | closed earlier job state total owned =>
    exact owned.reworded (.repaired _ 0 ⟨.job job, .job state total⟩)
  | recovered world earlier snapshot env count owned =>
    exact owned.reworded (reconcileStartupCrashes_rewords snapshot env count world)

def recorded? (store : Store) (row : IntentRow) : Option OperationRow :=
  store.operations.find (row.jobId, row.opId)

def recordedBytes? (ledger : Ledger) (row : IntentRow) : Option ByteCount :=
  if row.state.isTerminal then (ledger row.attemptId row.opId).map OperationRow.reclaimedBytes
  else none

def Disk.counted (disk : Disk) (attempt : AttemptId) (row : IntentRow) : Nat :=
  if row.attemptId = attempt then disk.gain row else 0

/-- The bytes due to an intent in the total written for an attempt: what the executor
recorded for it, if it did, and otherwise what recovery finds. -/
def due (disk : Disk) (ledger : Ledger) (attempt : AttemptId) (row : IntentRow) : Nat :=
  (recordedBytes? ledger row).getD (disk.counted attempt row)

def jobIntents (store : Store) (job : JobId) : List IntentRow :=
  store.intents.rows.filter fun row => row.jobId = job

/-- Resolved intents, their operations rows and what they count for in the
totals of their jobs are as they were. -/
structure Respected (disk : Disk) (pairs : List (AttemptId × JobId)) (ledger : Ledger)
    (store final : Store) : Prop where
  states : ∀ row ∈ store.intents.rows, row.state.isTerminal = true →
    ∃ after ∈ final.intents.rows, after.key = row.key ∧ after.state = row.state
  operations : ∀ row ∈ store.intents.rows, row.state.isTerminal = true →
    ∀ result, recorded? store row = some result → ∃ after, recorded? final row = some after ∧
      after.status = result.status ∧ after.reclaimedBytes = result.reclaimedBytes
  totals : ∀ job attempt, lastAttempt? pairs job = some attempt →
    ∃ after, final.jobs.find job = some after ∧ after.totalReclaimedBytes =
      ((jobIntents store job).map (due disk ledger attempt)).sum

/-- The disk still says what the executor recorded, for the intents of the attempts
recovery comes to, for the operations it records anew and for the totals it writes. -/
structure AllAgree (disk : Disk) (pairs : List (AttemptId × JobId)) (ledger : Ledger)
    (store : Store) : Prop where
  states : ∀ row ∈ store.intents.rows, row.state.isTerminal = true →
    row.attemptId ∈ pairs.map Prod.fst → row.state = disk.resolution row
  operations : ∀ row ∈ store.intents.rows, row.state.isTerminal = true →
    ∀ result, recorded? store row = some result →
      ∀ last, lastChecked? disk store pairs row.jobId row.opId = some last →
        (∀ presence, disk.look last = some presence → result.status = presence.rowStatus) ∧
          result.reclaimedBytes = disk.gain last
  totals : ∀ job attempt, lastAttempt? pairs job = some attempt →
    let settled := (jobIntents store job).filter fun row => (recordedBytes? ledger row).isSome
    (settled.map (disk.counted attempt)).sum =
      (settled.map fun row => (recordedBytes? ledger row).getD 0).sum

theorem sum_eq_iff_filter {items : List α} {left right : α → Nat} {chosen : α → Bool}
    (same : ∀ item ∈ items, chosen item = false → left item = right item) :
    (items.map left).sum = (items.map right).sum ↔
      ((items.filter chosen).map left).sum = ((items.filter chosen).map right).sum := by
  have balanced : (items.map left).sum + ((items.filter chosen).map right).sum =
      (items.map right).sum + ((items.filter chosen).map left).sum := by
    induction items with
    | nil => rfl
    | cons item rest ih =>
      have later := ih fun other mem => same other (List.mem_cons_of_mem item mem)
      cases picked : chosen item with
      | true =>
        simp only [List.filter_cons, picked, if_true, List.map_cons, List.sum_cons]
        omega
      | false =>
        have here := same item List.mem_cons_self picked
        simp only [List.filter_cons, picked, Bool.false_eq_true, if_false, List.map_cons,
          List.sum_cons]
        omega
  omega

section

variable {disk : Disk} {pairs : List (AttemptId × JobId)} {store final : Store} {ledger : Ledger}
  {row : IntentRow}

theorem state_kept_iff (all : ReconciledAll disk pairs store final)
    (mem : row ∈ store.intents.rows) :
    (∃ after ∈ final.intents.rows, after.key = row.key ∧ after.state = row.state) ↔
      (row.attemptId ∈ pairs.map Prod.fst → row.state = disk.resolution row) := by
  obtain ⟨intent, decoded⟩ := all.legible.decode mem
  by_cases listed : row.attemptId ∈ pairs.map Prod.fst
  · obtain ⟨settled, inside, key, state⟩ := all.exists_settled mem listed
    rw [← rowState_eq decoded]
    constructor
    · rintro ⟨after, there, sameKey, sameState⟩ -
      cases Table.eq_of_key_eq inside there (key.trans sameKey.symm)
      exact sameState.symm.trans state
    · intro agrees
      exact ⟨settled, inside, key, state.trans (agrees listed).symm⟩
  · exact iff_of_true (all.kept mem listed) fun inside => absurd inside listed

theorem operation_kept_iff (all : ReconciledAll disk pairs store final)
    (found : recorded? store row = some result) :
    (∃ after, recorded? final row = some after ∧ after.status = result.status ∧
      after.reclaimedBytes = result.reclaimedBytes) ↔
      ∀ last, lastChecked? disk store pairs row.jobId row.opId = some last →
        (∀ presence, disk.look last = some presence → result.status = presence.rowStatus) ∧
          result.reclaimedBytes = disk.gain last := by
  have written := all.operations row.jobId row.opId
  cases checked : lastChecked? disk store pairs row.jobId row.opId with
  | none =>
    rw [checked] at written
    exact iff_of_true ⟨result, written.trans found, rfl, rfl⟩ nofun
  | some last =>
    rw [checked] at written
    obtain ⟨intent, verdict, decoded, judged, recorded⟩ := written
    obtain ⟨status, reclaimed⟩ := resultRow_columns row.jobId decoded judged
    constructor
    · rintro ⟨after, known, sameStatus, sameBytes⟩ _ same
      cases same
      cases recorded.symm.trans known
      exact ⟨fun presence seen => sameStatus.symm.trans (status seen),
        sameBytes.symm.trans reclaimed⟩
    · intro agrees
      obtain ⟨column, bytes⟩ := agrees last rfl
      refine ⟨_, recorded, ?_, reclaimed.trans bytes.symm⟩
      cases seen : disk.look last with
      | none =>
        rw [(look_eq_none_iff decoded).mp seen] at judged
        cases judged
      | some presence => exact (status seen).trans (column presence seen).symm

variable {order : IterationOrder (AttemptId × JobId)}

theorem sum_counted {intents : List IntentRow}
    (owned : ∀ row ∈ intents, row.attemptId = attempt → row.jobId = job) :
    ((intents.filter fun row => row.attemptId = attempt).map disk.gain).sum =
      ((intents.filter fun row => row.jobId = job).map (disk.counted attempt)).sum := by
  induction intents with
  | nil => rfl
  | cons row rest ih =>
    have later := ih fun other mem => owned other (List.mem_cons_of_mem row mem)
    have here := owned row List.mem_cons_self
    by_cases mine : row.attemptId = attempt
    · simp [mine, here mine, Disk.counted, later]
    · by_cases same : row.jobId = job <;> simp [mine, same, Disk.counted, later]

theorem exists_lastAttempt
    (last : lastAttempt? (order.order store.uncompletedAttempts) job = some attempt) :
    ∃ row ∈ store.attempts.rows, row.attemptId = attempt ∧ row.jobId = job := by
  obtain ⟨pair, chosen, rfl⟩ := Option.map_eq_some_iff.mp last
  obtain ⟨listed, own⟩ := List.mem_filter.mp (List.mem_of_getLast? chosen)
  rw [order.mem_order] at listed
  obtain ⟨row, running, rfl⟩ := List.mem_map.mp listed
  exact ⟨row, (List.mem_filter.mp running).1, rfl, of_decide_eq_true own⟩

theorem total_kept_iff (owned : Owned store)
    (all : ReconciledAll disk (order.order store.uncompletedAttempts) store final)
    (last : lastAttempt? (order.order store.uncompletedAttempts) job = some attempt) :
    (∃ after, final.jobs.find job = some after ∧ after.totalReclaimedBytes =
      ((jobIntents store job).map (due disk ledger attempt)).sum) ↔
    (((jobIntents store job).filter fun row => (recordedBytes? ledger row).isSome).map
        (disk.counted attempt)).sum =
      (((jobIntents store job).filter fun row => (recordedBytes? ledger row).isSome).map
        fun row => (recordedBytes? ledger row).getD 0).sum := by
  obtain ⟨claim, known, rfl, rfl⟩ := exists_lastAttempt last
  obtain ⟨job, found⟩ := Option.isSome_iff_exists.mp (owned.sound.attempts claim known).2
  have own : ∀ row ∈ store.intents.rows, row.attemptId = claim.attemptId →
      row.jobId = claim.jobId := by
    intro row mem same
    obtain ⟨owner, there, id, boss⟩ := owned.owner row mem
    cases Table.eq_of_key_eq there known (id.trans same)
    exact boss.symm
  have total : (disk.tally (store.decodedIntents claim.attemptId)).totalReclaimed =
      ((jobIntents store claim.jobId).map (disk.counted claim.attemptId)).sum :=
    (totalReclaimed_tally all.legible _).trans (sum_counted own)
  have chosen (row : IntentRow) (mem : row ∈ (jobIntents store claim.jobId).filter
      fun row => (recordedBytes? ledger row).isSome) :
      due disk ledger claim.attemptId row = (recordedBytes? ledger row).getD 0 := by
    obtain ⟨bytes, recorded⟩ := Option.isSome_iff_exists.mp (List.mem_filter.mp mem).2
    rw [due, recorded]
    rfl
  rw [all.jobs last found, ← List.map_congr_left chosen, ← sum_eq_iff_filter, ← total]
  · constructor
    · rintro ⟨after, same, sum⟩
      cases same
      exact sum
    · exact fun sum => ⟨_, rfl, sum⟩
  · intro row _ unrecorded
    have none : recordedBytes? ledger row = none := by simpa using unrecorded
    rw [due, none, Option.getD_none]

end

/-- Recovery leaves resolved intents alone exactly when the disk still says
what was recorded for them. -/
theorem recovery_respects_resolved_iff (reachable : Reachable store ledger)
    (legible : store.Legible) {env : Env} (reliable : env.Reliable)
    (snapshot : CatalogSnapshot) {world : World} (left : world.store = store) :
    ∃ recovered final,
      (reconcileStartupCrashes snapshot).run env.handler world = (some (.ok recovered), final) ∧
      (Respected ⟨world.fs, env.openat2, snapshot⟩
          (env.rowOrder.order store.uncompletedAttempts) ledger store final.store ↔
        AllAgree ⟨world.fs, env.openat2, snapshot⟩
          (env.rowOrder.order store.uncompletedAttempts) ledger store) := by
  subst left
  have owned := reachable.owned
  obtain ⟨result, final, ran, ⟨recovered, rfl⟩, -, all⟩ :=
    reconcileStartupCrashes_returns reliable snapshot owned.sound legible
  refine ⟨recovered, final, ran, ?_, ?_⟩
  · intro respected
    refine ⟨fun row mem terminal => ?_, fun row mem terminal result found => ?_, ?_⟩
    · exact (state_kept_iff all mem).1 (respected.states row mem terminal)
    · exact (operation_kept_iff all found).1 (respected.operations row mem terminal result found)
    · exact fun job attempt last =>
        (total_kept_iff owned all last).1 (respected.totals job attempt last)
  · intro agree
    refine ⟨fun row mem terminal => ?_, fun row mem terminal result found => ?_, ?_⟩
    · exact (state_kept_iff all mem).2 (agree.states row mem terminal)
    · exact (operation_kept_iff all found).2 (agree.operations row mem terminal result found)
    · exact fun job attempt last =>
        (total_kept_iff owned all last).2 (agree.totals job attempt last)

namespace Sample

def crashed : World :=
  (executePlan CleanupExecutor.Sample.authorized CleanupExecutor.Sample.snapshot
    ⟨1⟩ ⟨1⟩).stateAfter CleanupExecutor.Sample.calmEnv.handler 100 CleanupExecutor.Sample.world

def recreated : World := ⟨0, CleanupExecutor.Sample.fs, crashed.store, []⟩

def registered : Store :=
  { Store.empty with
    jobs := .single ⟨⟨1⟩, "ManualIpc", .admitted, ⟨2⟩, ⟨1⟩, 0⟩ }

def ledger : Ledger :=
  Ledger.blank.extend ⟨1⟩ (((executePlan CleanupExecutor.Sample.authorized
    CleanupExecutor.Sample.snapshot ⟨1⟩ ⟨1⟩).log CleanupExecutor.Sample.calmEnv.handler
      CleanupExecutor.Sample.world).take 100)

theorem crashed_reachable : Reachable crashed.store ledger := by
  have registers : Reachable registered .blank :=
    .registered .created
      (rfl : Store.registerJob ⟨1⟩ "ManualIpc" ⟨2⟩ ⟨1⟩ 1000 Store.empty = _)
  have claims : Reachable CleanupExecutor.Sample.world.store .blank :=
    .claimed registers (rfl : Store.createAttempt ⟨1⟩ ⟨1⟩ ⟨1⟩ 300 1000 registered = _)
  have listed : (⟨⟨1⟩, ⟨1⟩, ⟨1⟩, .running⟩ : AttemptRow) ∈
      CleanupExecutor.Sample.world.store.attempts.rows := List.mem_singleton_self _
  exact .executed CleanupExecutor.Sample.world claims listed CleanupExecutor.Sample.authorized rfl
    CleanupExecutor.Sample.calmEnv CleanupExecutor.Sample.snapshot ⟨1⟩ 100

theorem crashed_legible : crashed.store.Legible :=
  (executePlan_journal _ _ _ _ _ 100).legible CleanupExecutor.Sample.launch

end Sample

theorem sample_respects_resolved_iff : ∃ recovered final,
      (reconcileStartupCrashes CleanupExecutor.Sample.snapshot).run
          CleanupExecutor.Sample.calmEnv.handler Sample.recreated = (some (.ok recovered), final) ∧
      (Respected ⟨CleanupExecutor.Sample.fs, true, CleanupExecutor.Sample.snapshot⟩
          [(⟨1⟩, ⟨1⟩)] Sample.ledger Sample.crashed.store final.store ↔
        AllAgree ⟨CleanupExecutor.Sample.fs, true, CleanupExecutor.Sample.snapshot⟩
          [(⟨1⟩, ⟨1⟩)] Sample.ledger Sample.crashed.store) :=
  recovery_respects_resolved_iff Sample.crashed_reachable
    Sample.crashed_legible (Env.calm_reliable (by decide)) CleanupExecutor.Sample.snapshot rfl

/-- A file that came back turns its recorded success into a failure and takes
its bytes out of the total. -/
theorem recreated_file_rewrites_success : Reachable Sample.crashed.store Sample.ledger ∧
    (Sample.crashed.store.intents.rows.map IntentRow.state) = [.verifiedSuccess] ∧
    (Sample.crashed.store.operations.rows.map fun row =>
      (row.status, row.reclaimedBytes)) = [(.success, 5)] ∧
    (((reconcileStartupCrashes CleanupExecutor.Sample.snapshot).run
      CleanupExecutor.Sample.calmEnv.handler
      Sample.recreated).2.store.intents.rows.map IntentRow.state) = [.verifiedFailed] ∧
    (((reconcileStartupCrashes CleanupExecutor.Sample.snapshot).run
      CleanupExecutor.Sample.calmEnv.handler
      Sample.recreated).2.store.operations.rows.map fun row =>
        (row.status, row.reclaimedBytes)) = [(.failed, 0)] ∧
    (((reconcileStartupCrashes CleanupExecutor.Sample.snapshot).run
      CleanupExecutor.Sample.calmEnv.handler
      Sample.recreated).2.store.jobs.rows.map JobRow.totalReclaimedBytes) = [0] := by
  refine ⟨Sample.crashed_reachable, ?_, ?_, ?_, ?_, ?_⟩ <;> decide +kernel

end CacheCleaner.RecoveryEngine
