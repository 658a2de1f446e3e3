import CacheCleaner.Pipeline.Keys

namespace CacheCleaner

open Effect Effect.Program
open AttemptRow (attemptId)

variable {request : Request} {store : Store}

def Request.inserts : Request → Bool
  | .write (.createAttempt _ _ _ _) | .write (.commitOperationIntent _) => true
  | _ => false

theorem Env.keys_respond (env : Env) (keeps : request.inserts = false) (world : World) :
    (env.handler.respond request world).2.store.keys = world.store.keys := by
  rw [told_keys.respond]
  generalize (env.handler.respond request world).1 = reply
  cases request with
  | write write =>
    cases reply with
    | error error => rfl
    | ok done => cases write <;> first | rfl | cases keeps
  | _ => rfl

namespace Keying

def Written (attempt : AttemptId) (before : Store) (phase : Keying) (world : World) : Prop :=
  match phase with
  | none => world.store.keys = before.keys
  | some tried => world.store.keys.attempts = before.keys.attempts ++ [attempt] ∧
      ∃ added, world.store.keys.intents = before.keys.intents ++ added ∧
        ∀ key ∈ added, key.1 = attempt ∧ key.2 ∈ tried

variable {attempt : AttemptId} {before : Store} {phase : Keying} {world : World}

theorem Written.congr (written : Written attempt before phase world)
    (same : after.store.keys = world.store.keys) :
    Written attempt before phase after := by
  cases phase with
  | none => exact same.trans written
  | some tried =>
    unfold Written
    rw [same]
    exact written

theorem Written.extends (written : Written attempt before phase world) :
    before.keys.attempts <+: world.store.keys.attempts := by
  cases phase with
  | none => exact (show world.store.keys = before.keys from written) ▸ List.prefix_rfl
  | some tried => exact written.1 ▸ List.prefix_append _ _

theorem Written.committed
    (written : Written attempt before (some tried) world)
    (attempts : after.store.keys.attempts = world.store.keys.attempts)
    (intents : after.store.keys.intents = world.store.keys.intents ∨
      after.store.keys.intents = world.store.keys.intents ++ [(attempt, op)]) :
    Written attempt before (some (op :: tried)) after := by
  obtain ⟨claimed, added, rows, own⟩ := written
  have earlier : ∀ key ∈ added, key.1 = attempt ∧ key.2 ∈ op :: tried :=
    fun key mem =>
      ⟨(own key mem).1, List.mem_cons_of_mem _ (own key mem).2⟩
  refine ⟨attempts.trans claimed, ?_⟩
  rcases intents with same | longer
  · exact ⟨added, same.trans rows, earlier⟩
  · refine ⟨added ++ [(attempt, op)], ?_, ?_⟩
    · rw [longer, rows, List.append_assoc]
    · intro key mem
      rcases List.mem_append.mp mem with old | last
      · exact earlier key old
      · rw [List.mem_singleton.mp last]
        exact ⟨rfl, List.mem_cons_self⟩

theorem written_keeps (env : Env) (fresh : attempt ∉ before.keys.attempts)
    (phase : Keying) (request : Request) (world : World)
    (permitted : (protocol attempt).permits phase request)
    (written : Written attempt before phase world) : Written attempt before
      ((protocol attempt).advance phase ⟨request, (env.handler.respond request world).1⟩)
      (env.handler.respond request world).2 := by
  have told := told_keys.respond env request world
  by_cases keeps : request.inserts = false
  · have same : phase.hear ⟨request, (env.handler.respond request world).1⟩ = phase := by
      cases request with
      | write write => cases write <;> first | rfl | cases keeps
      | _ => rfl
    change Written attempt before (phase.hear _) _
    rw [same]
    exact written.congr (env.keys_respond keeps world)
  · generalize (env.handler.respond request world).1 = reply at told ⊢
    cases request with
    | write write =>
      cases write with
      | createAttempt id job worker lease =>
        obtain ⟨rfl, rfl⟩ := permitted
        cases reply with
        | error error => exact written.congr told
        | ok done =>
          change _ = world.store.keys.insert (.createAttempt id job worker lease) at told
          rw [show world.store.keys = before.keys from written, Keys.insert, if_neg fresh] at told
          exact ⟨congrArg Keys.attempts told, [],
            (congrArg Keys.intents told).trans (List.append_nil _).symm, List.forall_mem_nil _⟩
      | commitOperationIntent intent =>
        obtain ⟨rfl, tried, rfl, -⟩ := permitted
        cases reply with
        | error error =>
          exact written.committed (congrArg Keys.attempts told) (.inl (congrArg Keys.intents told))
        | ok stored =>
          have attempts := congrArg Keys.attempts told
          have intents := congrArg Keys.intents told
          exact written.committed attempts (.inr intents)
      | _ => exact absurd rfl keeps
    | _ => exact absurd rfl keeps

end Keying

/-- Attempts are numbered in the order of their rows, and every intent belongs
to one. -/
structure Store.Ordered (store : Store) : Prop where
  ascending : store.keys.attempts.Pairwise fun earlier later =>
    earlier.val < later.val
  claimed : ∀ key ∈ store.keys.intents, key.1 ∈ store.keys.attempts

theorem Store.Ordered.congr {before after : Store} (ordered : before.Ordered)
    (same : after.keys = before.keys) : after.Ordered :=
  ⟨same ▸ ordered.ascending, same ▸ ordered.claimed⟩

theorem Store.numberedBelow_iff : store.NumberedBelow counter ↔
      ∀ attempt ∈ store.keys.attempts, attempt.val < counter := by
  rw [Store.keys, List.forall_mem_map]
  rfl

theorem Store.NumberedBelow.unlisted
    (numbered : store.NumberedBelow counter) : ⟨counter⟩ ∉ store.keys.attempts :=
  fun listed => Nat.lt_irrefl _ (numberedBelow_iff.mp numbered _ listed)

theorem Store.commitOperationIntent_unique
    (refused : Store.commitOperationIntent intent store = .error .uniqueViolation) :
    ∃ row ∈ store.intents.rows, row.key = (intent.attemptId, intent.opId) := by
  unfold commitOperationIntent at refused
  split at refused
  · split at refused
    · split at refused
      · cases refused
      · rename_i rejected
        obtain ⟨row, found⟩ := Table.insert_none rejected
        exact ⟨row, Table.find_some found⟩
    · cases refused
  · cases refused

/-- What a call that began with `before` asks of a store is new to it: the
attempt has a larger number than all others, no intent has the key of another,
and a state is only set in the call's own attempt. -/
def Request.Fresh (before store : Store) : Request → Prop
  | .write (.createAttempt attempt _ _ _) =>
    ∀ row ∈ store.attempts.rows, row.attemptId.val < attempt.val
  | .write (.commitOperationIntent intent) => ∀ now,
      (StoreWrite.commitOperationIntent intent).statement now store ≠ .error .uniqueViolation
  | .write (.updateIntentState attempt _ _) =>
    (store.attempts.rows.map attemptId).getLast? = some attempt ∧
      ∀ row ∈ before.intents.rows, row.attemptId ≠ attempt
  | _ => True

namespace Keying.Written

variable {counter : Nat} {before : Store} {phase : Keying} {world : World}
  (written : Written ⟨counter⟩ before phase world) (numbered : before.NumberedBelow counter)
include written numbered

theorem numberedBelow : world.store.NumberedBelow
    (if phase.isSome then counter + 1 else counter) := by
  rw [Store.numberedBelow_iff] at numbered ⊢
  cases phase with
  | none =>
    rw [show world.store.keys = before.keys from written]
    exact numbered
  | some tried =>
    intro attempt listed
    rw [written.1] at listed
    rcases List.mem_append.mp listed with old | new
    · exact Nat.lt_succ_of_lt (numbered attempt old)
    · rw [List.mem_singleton.mp new]
      exact Nat.lt_succ_self _

variable (sorted : before.Ordered)
include sorted

theorem ordered : world.store.Ordered := by
  cases phase with
  | none => exact sorted.congr written
  | some tried =>
    obtain ⟨attempts, added, intents, own⟩ := written
    refine ⟨?_, ?_⟩
    · rw [attempts, List.pairwise_append]
      refine ⟨sorted.ascending, List.pairwise_singleton _ _, ?_⟩
      intro earlier listed later new
      rw [List.mem_singleton.mp new]
      exact Store.numberedBelow_iff.mp numbered earlier listed
    · intro key mem
      rw [intents] at mem
      rw [attempts]
      rcases List.mem_append.mp mem with old | new
      · exact List.mem_append_left _ (sorted.claimed key old)
      · rw [(own key new).1]
        exact List.mem_append_right _ (List.mem_singleton_self _)

theorem fresh (permitted : permits ⟨counter⟩ phase request) : request.Fresh before world.store := by
  cases request with
  | write write =>
    cases write with
    | createAttempt attempt job worker lease =>
      obtain ⟨rfl, rfl⟩ := permitted
      intro row listed
      refine Store.numberedBelow_iff.mp numbered _ ?_
      rw [← show world.store.keys = before.keys from written]
      exact List.mem_map_of_mem listed
    | commitOperationIntent intent =>
      obtain ⟨own, tried, rfl, untried⟩ := permitted
      obtain ⟨-, added, intents, earlier⟩ := written
      have new : (intent.attemptId, intent.opId) ∉ world.store.keys.intents := by
        rw [own, intents, List.mem_append, not_or]
        exact ⟨fun old => numbered.unlisted (sorted.claimed _ old),
          fun later => untried (earlier _ later).2⟩
      intro now refused
      obtain ⟨row, listed, same⟩ := Store.commitOperationIntent_unique refused
      exact new (same ▸ List.mem_map_of_mem listed)
    | updateIntentState attempt op state =>
      obtain ⟨rfl, claimed⟩ := permitted
      obtain ⟨tried, rfl⟩ := Option.isSome_iff_exists.mp claimed
      refine ⟨?_, ?_⟩
      · rw [show world.store.attempts.rows.map attemptId = _ from
          written.1]
        exact List.getLast?_concat
      · intro row listed same
        exact numbered.unlisted (same ▸ sorted.claimed row.key (List.mem_map_of_mem listed))
    | _ => trivial
  | _ => trivial

end Keying.Written

/-- What a start may ask while it recovers `attempts`. -/
def Request.Recovers (attempts : List AttemptId) : Request → Prop
  | .write (.createAttempt _ _ _ _) | .write (.commitOperationIntent _) => False
  | .write (.updateIntentState attempt _ _) => attempt ∈ attempts
  | _ => True

theorem Request.Recovers.mono (recovers : request.Recovers owned)
    (subset : owned ⊆ more) : request.Recovers more := by
  cases request with
  | write write =>
    cases write with
    | updateIntentState attempt op state => exact subset recovers
    | createAttempt attempt job worker lease => exact recovers
    | commitOperationIntent intent => exact recovers
    | _ => trivial
  | _ => trivial

theorem Request.Recovers.keeps (recovers : request.Recovers owned) : request.inserts = false := by
  cases request with
  | write write => cases write <;> first | rfl | exact recovers.elim
  | _ => rfl

theorem RecoveryEngine.Repairs.recovers (repairs : Repairs listed request) :
    request.Recovers (listed.map Prod.fst) := by
  cases request with
  | write write => cases write <;> trivial
  | _ => trivial

def seeds : (request : Request) → Reply request → Bool
  | .maxAttemptId, .error _ => false
  | _, _ => true

def Seeded (request : Request) (reply : Reply request) : Prop := seeds request reply = true

instance (request : Request) (reply : Reply request) : Decidable (Seeded request reply) :=
  inferInstanceAs (Decidable (_ = true))

namespace AuthoritativeCleanPipeline

def recovered : Result (List (AttemptId × JobId)) → List AttemptId
  | .error _ => []
  | .ok pairs => pairs.map Prod.fst

theorem new_recovers (config : DaemonConfig) :
    ∃ next : PlatformView → Result (List (AttemptId × JobId)) → Act Pipeline,
      new config = .call .discover (fun view =>
        .call .uncompletedAttempts (next view)) ∧
      ∀ view listed, Issues (Request.Recovers (recovered listed)) (next view listed) := by
  refine ⟨_, rfl, fun view listed => ?_⟩
  refine Issues.bind ?_ fun _ => asks trivial fun _ => asks trivial fun _ => trivial
  cases listed with
  | error error => trivial
  | ok pairs =>
    exact (RecoveryEngine.reconcileAttempts_repairs (fun _ mem => mem) 0).mono
      fun _ repairs => repairs.recovers

theorem new_numbers (env : Env) (config : DaemonConfig) :
    Spec env.handler Seeded (fun after => after.store.keys = world.store.keys)
      (fun pipeline after =>
        after.store.NumberedBelow pipeline.workerPool.attemptCounter)
      (new config) world := by
  refine Rules.quiet rfl rfl fun view _ _ => ?_
  have recovers : Issues (fun request => request.inserts = false)
      (RecoveryEngine.reconcileStartupCrashes
        (TargetCatalog.discoverAllTargets view TargetCatalog.new)) := by
    refine asks rfl fun listed => ?_
    cases listed with
    | error error => trivial
    | ok pairs =>
      exact (RecoveryEngine.reconcileAttempts_repairs (fun _ mem => mem) 0).mono
        fun _ repairs => repairs.recovers.keeps
  refine Spec.bind (recovers.spec (fun request state keeps same =>
    (env.keys_respond keeps state).trans same) rfl) ?_
  intro outcome after same
  refine Rules.quiet rfl same fun jobs _ _ => ?_
  refine Rules.quiet rfl same fun attempts answered asked => ?_
  cases attempts with
  | error error => exact (Bool.false_ne_true answered).elim
  | ok largest =>
    refine Spec.done same fun attempt mem => ?_
    have read : largest = after.store.maxAttemptId := Env.query_ok asked
    rw [read]
    exact Nat.lt_succ_of_le (Store.le_maxAttemptId mem)

end AuthoritativeCleanPipeline

open AuthoritativeCleanPipeline in
theorem Life.ordered (life : Life Seeded current world) : world.store.Ordered ∧
    ∀ pipeline ∈ current, world.store.NumberedBelow pipeline.workerPool.attemptCounter := by
  refine life.invariant ⟨.nil, List.forall_mem_nil _⟩ (fun env config _ ordered => ?_) ?_ ?_
  · exact (new_numbers env config).mono (fun _ same => ordered.congr same) fun _ _ below => below
  · intro _ _ params count env _ ordered below _
    obtain ⟨phase, written, -⟩ := (execute_obeys params).stateAfter
      (Keying.written_keeps env below.unlisted) rfl count
    exact written.ordered below ordered
  · intro _ _ params _ _ env _ _ ordered below _ ran
    obtain ⟨phase, written, counted, claimed⟩ := (execute_obeys params).run
      (Keying.written_keeps env below.unlisted) rfl ran
    refine ⟨written.ordered below ordered, (written.numberedBelow below).mono ?_⟩
    split
    · rename_i inserted
      exact claimed inserted
    · exact counted

/-- What a start asks of the store it found: no key is written, and states are
only set in attempts that were still running. -/
def Request.Resumes (before : Store) : Request → Prop :=
  Request.Recovers ((before.attempts.rows.filter fun row => row.state = .running).map
      attemptId)

open AuthoritativeCleanPipeline in
theorem recovered_subset (env : Env) (world : World) :
    recovered (env.handler.respond .uncompletedAttempts world).1 ⊆
      (world.store.attempts.rows.filter fun row => row.state = .running).map
        attemptId := by
  change recovered (env.query world (env.rowOrder.order world.store.uncompletedAttempts)) ⊆ _
  unfold Env.query
  split
  · exact List.nil_subset _
  · intro attempt mem
    obtain ⟨pair, listed, rfl⟩ := List.mem_map.mp mem
    obtain ⟨row, running, rfl⟩ := List.mem_map.mp (env.rowOrder.mem_order.mp listed)
    exact List.mem_map_of_mem running

open AuthoritativeCleanPipeline in
/-- In every history whose starts can read the largest attempt id, attempts are
numbered upwards in the order of their rows, a call writes only new keys and
sets states only in its own attempt, and a start writes no keys. -/
theorem keys_fresh_across_restarts {current : Option Pipeline} {world : World}
    (life : Life Seeded current world) :
    (world.store.attempts.rows.map attemptId).Pairwise
        (fun earlier later => earlier.val < later.val) ∧ (∀ pipeline, current = some pipeline →
        ∀ (env : Env) (orders : HashOrders) (params : CleanParams) (count : Nat),
          let call := execute pipeline orders params
          let reached := (call.stateAfter env.handler count world).store
          world.store.attempts.rows.map attemptId <+:
              reached.attempts.rows.map attemptId ∧
            ∀ request, (call.trace env.handler world)[count]? = some request →
              request.Fresh world.store reached) ∧
      ∀ (env : Env) (config : DaemonConfig), ∀ request ∈ (new config).trace env.handler world,
          request.Resumes world.store := by
  obtain ⟨ordered, numbered⟩ := life.ordered
  refine ⟨ordered.ascending, ?_, ?_⟩
  · intro pipeline running env orders params count
    have below := numbered pipeline running
    obtain ⟨phase, written, permitted⟩ := (execute_obeys params).stateAfter
      (Keying.written_keeps env below.unlisted) rfl count
    exact ⟨written.extends, fun request next =>
      written.fresh below ordered (permitted request next)⟩
  · intro env config request issued
    obtain ⟨next, same, recovers⟩ := new_recovers config
    rw [same] at issued
    simp only [Program.trace, List.mem_cons] at issued
    rcases issued with rfl | rfl | later
    · trivial
    · trivial
    · exact ((recovers _ _).mem_trace _ later).mono (recovered_subset env world.advance)

theorem second_call_writes_fresh_keys :
    let called := Device.execute Device.start Device.realCall Device.origin
    called.2.store.keys.attempts = [⟨1⟩] ∧
      ∀ (params : CleanParams) (count : Nat) (request : Request),
        ((Device.used.execute Device.orders params).trace Device.env.handler
          called.2)[count]? = some request → request.Fresh called.2.store
          ((Device.used.execute Device.orders params).stateAfter
            Device.env.handler count called.2).store :=
  ⟨by decide +kernel, fun params count request =>
    ((keys_fresh_across_restarts (Device.realCall_life (Answered.of_throughout (by decide +kernel))
      (Answered.of_throughout (by decide +kernel))
      Device.realCall_returns)).2.1 _ rfl Device.env Device.orders params count).2 request⟩

end CacheCleaner
