import CacheCleaner.Pipeline.Books

namespace CacheCleaner

open Effect Effect.Program World

def Durable (request : Request) (reply : Reply request) : Prop :=
  match request, reply with
  | .write (.updateIntentState _ _ _), .error _ => False
  | .write (.recordOperationResult _), .error _ => False
  | _, _ => True

instance (request : Request) (reply : Reply request) : Decidable (Durable request reply) := by
  cases request with
  | write write =>
    cases write <;> cases reply <;> first | exact instDecidableTrue | exact instDecidableFalse
  | _ => exact instDecidableTrue

def resolvedKeys (job : JobId) (intents : List IntentRow) : List (JobId × OperationId) :=
  (intents.filter fun row => row.state.isTerminal).map fun row =>
    (job, row.opId)

/-- What an execution enters for a job: intents, and a result for each intent
it resolved. -/
structure Ledger (job : JobId) (before after : Store) : Prop where
  jobs : after.jobs = before.jobs
  entries : ∃ (added : List IntentRow) (rows : List OperationRow),
    after.intents.rows = before.intents.rows ++ added ∧
    after.operations = rows.foldl Table.upsert before.operations ∧
    rows.map OperationRow.key = resolvedKeys job added ∧ (rows.map OperationRow.key).Nodup

theorem Ledger.refl (job : JobId) (store : Store) : Ledger job store store :=
  ⟨rfl, [], [], by simp, rfl, rfl, List.nodup_nil⟩

namespace CleanupExecutor

/-- The ledger between two turns; the results so far belong to operations
already done. -/
structure Posting (context : Context) (base : Store)
    (done : List PlannedOperation) (world : World) : Prop where
  jobs : world.store.jobs = base.jobs
  entries : ∃ (added : List IntentRow) (rows : List OperationRow),
    world.store.intents.rows = base.intents.rows ++ added ∧
    world.store.operations = rows.foldl Table.upsert base.operations ∧ rows.map OperationRow.key =
      resolvedKeys context.authorized.plan.jobId added ∧
    (rows.map OperationRow.opId).Sublist (done.map PlannedOperation.opId)

variable {env : Env} {origin : Fs} {context : Context} {base : Store}
  {done : List PlannedOperation} {op : PlannedOperation}
  {progress : Progress} {before after : World}

theorem Posting.start (context : Context) (world : World) : Posting context world.store [] world :=
  ⟨rfl, [], [], by simp, rfl, rfl, by simp⟩

theorem Posting.same (posting : Posting context base done before)
    (same : Same before after) : Posting context base (done ++ [op]) after := by
  obtain ⟨jobs, added, rows, intents, operations, keys, sublist⟩ := posting
  refine ⟨same.store ▸ jobs, added, rows, same.store ▸ intents, same.store ▸ operations, keys, ?_⟩
  rw [List.map_append]
  exact sublist.trans (List.sublist_append_left _ _)

theorem Posting.logs (posting : Posting context base done before)
    (logs : Store.Logs before.store row result after.store)
    (resolved : result.toList.map OperationRow.key =
      resolvedKeys context.authorized.plan.jobId [row]) (own : row.opId = op.opId) :
    Posting context base (done ++ [op]) after := by
  obtain ⟨jobs, added, rows, intents, operations, keys, sublist⟩ := posting
  refine ⟨logs.jobs.trans jobs, added ++ [row], rows ++ result.toList, ?_, ?_, ?_, ?_⟩
  · rw [logs.intents, intents, List.append_assoc]
  · rw [logs.operations, List.foldl_append, operations]
    cases result <;> rfl
  · rw [List.map_append, keys, resolved]
    simp only [resolvedKeys, List.filter_append, List.map_append]
  · rw [List.map_append, List.map_append]
    refine sublist.append ?_
    have ids : result.toList.map OperationRow.opId =
        (result.toList.map OperationRow.key).map Prod.snd := by
      rw [List.map_map]
      rfl
    rw [ids, resolved, resolvedKeys, List.map_map]
    refine ((List.filter_sublist (l := [row])).map _).trans ?_
    simp [own]

theorem Posting.invariant (context : Context) (base : Store) : Invariant env Durable origin context
      (fun done _ world => Posting context base done world) (fun _ => True) (fun _ _ => False) where
  safe := fun _ => trivial
  stages := fun _ _ _ => trivial
  turns := by
    intro done op progress before progress' after posting _ _ turn
    cases turn with
    | skipped status unsuccessful same => exact posting.same same
    | failed error same => exact posting.same same
    | abandoned error deletion target committedAt resolvedAt admitted logs fs
        refused => exact posting.logs logs rfl rfl
    | finished deletion target committedAt resolvedAt parent leaf mutation seen
        cache result admitted outcome logs written sound =>
        cases written with
        | stored =>
          refine posting.logs logs ?_ rfl
          simp only [resolvedKeys, Option.toList_some, List.map_cons,
            List.map_nil, loggedRow, settle_isTerminal, List.filter_cons_of_pos, List.filter_nil]
          rfl
        | refused error answered => cases answered
  halts := by
    intro done op progress before error after _ _ _ turn
    cases turn with
    | stopped _ state refused => cases refused

end CleanupExecutor

open CleanupExecutor in
theorem Ledger.work (env : Env) : AuthoritativeCleanPipeline.Work env Durable (fun _ _ _ _ => True)
      (fun job _ before after => Ledger job before after) where
  started := fun job _ store => .refl job store
  passing := fun _ => trivial
  executes := by
    intro authorized job planned catalog config attempt world
    have start : Posting ⟨authorized, catalog, attempt⟩ world.store []
        world.advance := Posting.start _ world.advance
    refine Spec.mono (executePlan_spec (Posting.invariant _ world.store)
      trivial start) (fun _ _ => trivial) ?_
    intro result after finished
    cases result with
    | error error =>
      rcases finished with ⟨-, rfl⟩ | impossible
      · exact .refl job _
      · exact impossible.elim
    | ok outcome =>
      obtain ⟨progress, posting, -⟩ := finished
      obtain ⟨jobs, added, rows, intents, operations, keys, sublist⟩ := posting
      obtain ⟨seen, checked⟩ := planned.ids
      rw [planned.job] at keys
      refine ⟨jobs, added, rows, intents, operations, keys, ?_⟩
      have ids := (CleanupPlanner.checkOperations_distinct checked).2.sublist sublist
      refine List.Nodup.of_map Prod.snd ?_
      rw [List.map_map]
      exact ids

namespace Call

def job (call : Call) : JobId := ⟨call.pipeline.scheduler.jobCounter⟩

/-- Where the results of a call belong: one place for each operation it carried
through, that is, whose intent it added and resolved. -/
def keys (call : Call) : List (JobId × OperationId) :=
  resolvedKeys call.job (call.after.store.intents.rows.drop call.before.store.intents.rows.length)

end Call

structure Entered (call : Call) : Prop where
  otherJobs : ∀ other, other ≠ call.job →
    call.after.store.jobs.find other = call.before.store.jobs.find other
  total : ∀ report, call.result = .ok report → ∃ row,
    call.after.store.jobs.find call.job = some row ∧
      row.totalReclaimedBytes = report.totalFreedBytes
  distinct : call.keys.Nodup
  results : ∀ key ∈ call.keys, ∃ row, call.after.store.operations.find key = some row
  otherResults : ∀ key, key ∉ call.keys → call.after.store.operations.find key =
      call.before.store.operations.find key

theorem Call.fst_of_mem_keys {call : Call} (mem : key ∈ call.keys) : key.1 = call.job := by
  obtain ⟨row, -, rfl⟩ := List.mem_map.mp mem
  rfl

theorem Entered.unlogged {call : Call} (failed : call.result = .error error)
    (jobs : ∀ other, other ≠ call.job →
      call.after.store.jobs.find other = call.before.store.jobs.find other)
    (intents : call.after.store.intents = call.before.store.intents)
    (operations : call.after.store.operations = call.before.store.operations) : Entered call := by
  have none : call.keys = [] := by
    simp [Call.keys, intents, resolvedKeys]
  refine ⟨jobs, ?_, by simp [none], by simp [none], by simp [operations]⟩
  intro report returned
  rw [failed] at returned
  cases returned

namespace AuthoritativeCleanPipeline

theorem Concluded.entered {call : Call} (concluded : Concluded call.pipeline call.params
      (fun job _ before after => Ledger job before after) call.before.store
      call.result left call.after.store)
    (idle : call.pipeline.scheduler.queue = []) : Entered call := by
  have own : ∀ {request}, call.pipeline.Admits call.params request → request.jobId = call.job := by
    rintro request ⟨catalog, scheduler, admission⟩
    cases admission with
    | coalesced queued =>
      rw [idle] at queued
      cases queued
    | opened now _ => rfl
  cases concluded with
  | refused error same kept counted =>
    exact .unlogged same (fun other _ => by rw [kept.jobs]) kept.intents kept.operations
  | unclaimed error same request admits booked counted =>
    cases booked with
    | queued busy kept => exact absurd idle busy
    | registered row _ job registers =>
      refine .unlogged same (fun other different =>
        registers.find_of_ne ?_) registers.intents registers.operations
      rw [job, own admits]
      exact different
  | closed request base open_ jobState attemptState admits begun ledger closed reported counted =>
      obtain ⟨middle, booked, claims⟩ := begun
      cases booked with
      | queued busy kept => exact absurd idle busy
      | registered row _ job registers =>
        have same := own admits
        rw [same] at ledger job closed
        obtain ⟨added, rows, intents, operations, keys, distinct⟩ := ledger.entries
        have listed : call.keys = rows.map OperationRow.key := by
          rw [keys, Call.keys, closed.intents, intents, claims.intents,
            registers.intents, List.drop_left]
        have results : call.after.store.operations =
            rows.foldl Table.upsert call.before.store.operations := by
          rw [closed.operations, operations, claims.operations, registers.operations]
        have jobs : open_.jobs = middle.jobs := ledger.jobs.trans claims.jobs
        refine ⟨?_, ?_, listed ▸ distinct, ?_, ?_⟩
        · intro other different
          have earlier : open_.jobs.find other = call.before.store.jobs.find other := by
            rw [jobs, registers.find_of_ne (job ▸ different)]
          rw [closed.jobs]
          cases jobState with
          | none => exact earlier
          | some change =>
            exact (Store.find_setJobState_of_ne open_ change.1 change.2 different).trans earlier
        · intro report returned
          obtain ⟨found, known⟩ := registers.exists_find
          rw [job, ← jobs] at known
          rw [closed.jobs, reported report returned]
          exact Store.exists_find_setJobState known _ _
        · intro key mem
          rw [results]
          exact Table.exists_find_foldl_upsert (listed ▸ mem) _
        · intro key absent
          rw [results]
          exact Table.find_foldl_upsert_of_not_mem (listed ▸ absent) _

end AuthoritativeCleanPipeline

/-- No result was replaced: each call's results lie where that call put them,
under keys of its own, nothing else was written, and the job of each call has
the total that call reported. -/
structure Preserved (origin : World) (calls : List Call) (world : World) : Prop where
  distinct : (calls.flatMap Call.keys).Nodup
  results : ∀ call ∈ calls, ∀ key ∈ call.keys, ∃ row,
    call.after.store.operations.find key = some row ∧ world.store.operations.find key = some row
  others : ∀ key, key ∉ calls.flatMap Call.keys →
    world.store.operations.find key = origin.store.operations.find key
  totals : ∀ call ∈ calls, ∀ report, call.result = .ok report → ∃ row,
    world.store.jobs.find call.job = some row ∧ row.totalReclaimedBytes = report.totalFreedBytes

theorem Preserved.start (origin : World) : Preserved origin [] origin :=
  ⟨List.nodup_nil, by simp, fun _ _ => rfl, by simp⟩

theorem Preserved.step {origin : World} {call : Call}
    (preserved : Preserved origin calls call.before) (entered : Entered call)
    (fresh : ∀ earlier ∈ calls, earlier.job ≠ call.job) :
    Preserved origin (calls ++ [call]) call.after := by
  have foreign : ∀ earlier ∈ calls, ∀ key ∈ earlier.keys, key ∉ call.keys := by
    intro earlier mem key own other
    exact fresh earlier mem ((Call.fst_of_mem_keys own).symm.trans (Call.fst_of_mem_keys other))
  refine ⟨?_, ?_, ?_, ?_⟩
  · rw [List.flatMap_append, List.flatMap_singleton, List.nodup_append]
    refine ⟨preserved.distinct, entered.distinct, ?_⟩
    rintro key old _ own rfl
    obtain ⟨earlier, mem, inside⟩ := List.mem_flatMap.mp old
    exact foreign earlier mem key inside own
  · intro other mem key inside
    rcases List.mem_append.mp mem with earlier | last
    · obtain ⟨row, own, kept⟩ := preserved.results other earlier key inside
      exact ⟨row, own, by
        rw [entered.otherResults key (foreign other earlier key inside), kept]⟩
    · cases List.mem_singleton.mp last
      obtain ⟨row, found⟩ := entered.results key inside
      exact ⟨row, found, found⟩
  · intro key absent
    rw [List.flatMap_append, List.flatMap_singleton, List.mem_append, not_or] at absent
    rw [entered.otherResults key absent.2, preserved.others key absent.1]
  · intro other mem report returned
    rcases List.mem_append.mp mem with earlier | last
    · obtain ⟨row, found, total⟩ := preserved.totals other earlier report returned
      exact ⟨row, by rw [entered.otherJobs _ (fresh other earlier), found], total⟩
    · cases List.mem_singleton.mp last
      exact entered.total report returned

theorem Admission.jobCounter_le
    (admission : Admission scheduler params catalog config admitted scheduler') :
    scheduler.jobCounter ≤ scheduler'.jobCounter ∧ (scheduler.queue = [] →
        scheduler.jobCounter < scheduler'.jobCounter) := by
  cases admission with
  | coalesced queued => exact ⟨Nat.le_refl _, by simp [queued]⟩
  | refused error idle => exact ⟨Nat.le_succ _, fun _ => Nat.lt_succ_self _⟩
  | opened now idle => exact ⟨Nat.le_succ _, fun _ => Nat.lt_succ_self _⟩

/-- In every run whose calls each find no call pending, and whose stores take
every intent state and result, no history is overwritten. -/
theorem session_history_preserved {start : Pipeline}
    {origin : World} {calls : List Call} {pending : List Pending}
    {pipeline : Pipeline} {world : World}
    (session : Session start origin calls pending pipeline world)
    (alone : ∀ call ∈ calls, call.pending = []) (durable : ∀ call ∈ calls, ∀ count,
      Answered call.env.handler Durable count
        (call.pipeline.execute call.orders call.params) call.before) :
    Preserved origin calls world := by
  suffices holds : Preserved origin calls world ∧
      ∀ call ∈ calls, call.job.val < pipeline.scheduler.jobCounter from holds.1
  induction session with
  | opened env config boot ran => exact ⟨.start origin, by simp⟩
  | @executed calls pending pipeline pipeline' world world' result session env
      orders params ran induction =>
      have last : (⟨env, orders, params, pending, pipeline, world, result,
          world'⟩ : Call) ∈ calls ++ [⟨env, orders, params, pending, pipeline,
            world, result, world'⟩] := by simp
      have idle : pipeline.scheduler.queue = [] := by
        have none : pending = [] := alone _ last
        rcases session.queued with empty | ⟨request, -, shaped⟩
        · exact empty
        · obtain ⟨call, member, -⟩ := shaped.generation
          rw [none] at member
          cases member
      obtain ⟨preserved, older⟩ := induction (fun call member => alone call (by simp [member]))
        (fun call member => durable call (by simp [member]))
      have concluded := (AuthoritativeCleanPipeline.execute_books
        (Ledger.work env)).run_post (durable _ last) ran
      have entered : Entered ⟨env, orders, params, pending, pipeline, world, result, world'⟩ :=
        AuthoritativeCleanPipeline.Concluded.entered concluded idle
      obtain ⟨admitted, admission⟩ :=
        ((AuthoritativeCleanPipeline.execute_yields orders params).run ran).admission
      refine ⟨preserved.step entered ?_, ?_⟩
      · intro earlier member same
        have less := older earlier member
        rw [same] at less
        exact Nat.lt_irrefl _ less
      · intro call member
        rcases List.mem_append.mp member with earlier | own
        · exact Nat.lt_of_lt_of_le (older call earlier) admission.jobCounter_le.1
        · cases List.mem_singleton.mp own
          exact admission.jobCounter_le.2 idle
  | reconfigured session config induction => exact induction alone durable
  | popped session induction => exact induction alone durable
  | elsewhere session fs induction =>
    obtain ⟨preserved, older⟩ := induction alone durable
    exact ⟨⟨preserved.distinct, preserved.results, preserved.others, preserved.totals⟩, older⟩

namespace Device

def popped : Pipeline := { used with scheduler := used.scheduler.popNextJob }

theorem popped_returns : (execute popped realCall refilled).1.isSome = true := by decide +kernel

def second : Call where
  env := env
  orders := orders
  params := realCall
  pending := []
  pipeline := popped
  before := refilled
  result := ((execute popped realCall refilled).1.get popped_returns).1
  after := (execute popped realCall refilled).2

theorem second_session : Session start origin [first, second] [⟨realCall, popped.configGeneration⟩]
      ((execute popped realCall refilled).1.get popped_returns).2 second.after :=
  executed (.popped first_session) realCall popped_returns

theorem used_returns : (execute used realCall refilled).1.isSome = true := by decide +kernel

def again : Call where
  env := env
  orders := orders
  params := realCall
  pending := [⟨realCall, .initial⟩]
  pipeline := used
  before := refilled
  result := ((execute used realCall refilled).1.get used_returns).1
  after := (execute used realCall refilled).2

theorem again_session : Session start origin [first, again]
      [⟨realCall, .initial⟩, ⟨realCall, used.configGeneration⟩]
      ((execute used realCall refilled).1.get used_returns).2 again.after :=
  executed first_session realCall used_returns

theorem first_durable (count : Nat) : Answered first.env.handler Durable count
      (first.pipeline.execute first.orders first.params) first.before :=
  Answered.of_throughout (by decide +kernel) count

end Device

open Device in
theorem popped_calls_preserve_history :
    [first, second].flatMap Call.keys = [(⟨1⟩, ⟨1⟩), (⟨2⟩, ⟨1⟩)] ∧
      Preserved origin [first, second] second.after := by
  refine ⟨by decide +kernel, session_history_preserved second_session ?_ ?_⟩
  · simp [first, second]
  · simp only [List.mem_cons, List.not_mem_nil, or_false, forall_eq_or_imp, forall_eq]
    exact ⟨first_durable, Answered.of_throughout (by decide +kernel)⟩

open Device in
/-- The second call replaces the row of the first. -/
theorem shared_job_overwrites_history : Session start origin [first, again]
      [⟨realCall, .initial⟩, ⟨realCall, used.configGeneration⟩]
      ((execute used realCall refilled).1.get used_returns).2 again.after ∧
    (∀ call ∈ [first, again], ∀ count, Answered call.env.handler Durable count
        (call.pipeline.execute call.orders call.params) call.before) ∧
    [first, again].flatMap (fun call => ((call.after.store.intents.rows.drop
      call.before.store.intents.rows.length).filter fun row =>
        row.state.isTerminal).map IntentRow.key) =
        [(⟨1⟩, ⟨1⟩), (⟨2⟩, ⟨1⟩)] ∧
    again.after.store.operations.rows.map OperationRow.key = [(⟨1⟩, ⟨1⟩)] := by
  refine ⟨again_session, ?_, by decide +kernel, by decide +kernel⟩
  simp only [List.mem_cons, List.not_mem_nil, or_false, forall_eq_or_imp, forall_eq]
  exact ⟨first_durable, Answered.of_throughout (by decide +kernel)⟩

end CacheCleaner
