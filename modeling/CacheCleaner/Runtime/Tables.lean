import CacheCleaner.Effect.Log
import CacheCleaner.Runtime.Rules
import CacheCleaner.Store.Log

namespace CacheCleaner

open Effect Effect.Program

inductive StoreTable where
  | jobs | attempts | intents | operations | leases

def StoreWrite.table : StoreWrite → StoreTable
  | .registerJob _ _ _ _ | .updateJobState _ _ _ => .jobs
  | .createAttempt _ _ _ _ | .updateAttemptState _ _ => .attempts
  | .commitOperationIntent _ | .updateIntentState _ _ _ => .intents
  | .recordOperationResult _ => .operations
  | .releaseLease _ _ => .leases

structure StoreWrite.Frames (write : StoreWrite) (before after : Store) : Prop where
  jobs : write.table ≠ .jobs → after.jobs = before.jobs
  attempts : write.table ≠ .attempts → after.attempts = before.attempts
  intents : write.table ≠ .intents → after.intents = before.intents
  operations : write.table ≠ .operations → after.operations = before.operations

theorem StoreWrite.frames {write : StoreWrite}
    (succeeded : write.statement now before = .ok ((), after)) : write.Frames before after := by
  cases write with
  | registerJob job jobType catalog config =>
    have registers := Store.registerJob_ok succeeded
    exact ⟨absurd rfl, fun _ => registers.attempts, fun _ => registers.intents,
      fun _ => registers.operations⟩
  | createAttempt attempt job worker lease =>
    have claims := Store.createAttempt_ok succeeded
    exact ⟨fun _ => claims.jobs, absurd rfl, fun _ => claims.intents, fun _ => claims.operations⟩
  | commitOperationIntent intent =>
    have logs := Store.commitOperationIntent_ok succeeded
    exact ⟨fun _ => logs.jobs, fun _ => logs.attempts, absurd rfl, fun _ => logs.operations⟩
  | updateJobState job state total =>
    rw [Store.updateJobState_ok succeeded]
    exact ⟨absurd rfl, fun _ => rfl, fun _ => rfl, fun _ => rfl⟩
  | updateAttemptState attempt state =>
    rw [Store.updateAttemptState_ok succeeded]
    exact ⟨fun _ => rfl, absurd rfl, fun _ => rfl, fun _ => rfl⟩
  | updateIntentState attempt op state =>
    rw [Store.updateIntentState_ok succeeded]
    exact ⟨fun _ => rfl, fun _ => rfl, absurd rfl, fun _ => rfl⟩
  | recordOperationResult row =>
    rw [Store.recordOperationResult_ok succeeded]
    exact ⟨fun _ => rfl, fun _ => rfl, fun _ => rfl, absurd rfl⟩
  | releaseLease resource worker =>
    cases succeeded
    exact ⟨fun _ => rfl, fun _ => rfl, fun _ => rfl, fun _ => rfl⟩

def written? : Exchange Request Reply → Option StoreWrite
  | ⟨.write write, .ok ()⟩ => some write
  | _ => none

theorem request_of_written (written : written? ⟨request, reply⟩ = some write) :
    request = .write write := by
  cases request with
  | write other =>
    cases reply with
    | error error => cases written
    | ok done =>
      cases written
      rfl
  | _ => cases written

def statements (log : List (Exchange Request Reply)) : List StoreWrite := log.filterMap written?

def Effected (now : UnixTimestamp) (before after : Store)
    (exchange : Exchange Request Reply) : Prop :=
  written? exchange = none ∧ Store.Kept before after ∨ ∃ write, written? exchange = some write ∧
      write.statement now before = .ok ((), after)

theorem Env.execute_effected (env : Env) (write : StoreWrite) (world : World) :
    Effected (env.now world.tick) world.store (env.execute world write).2.store
      ⟨.write write, (env.execute world write).1⟩ := by
  unfold Env.execute
  cases env.writeFault world.tick write with
  | true => exact .inl ⟨rfl, .refl _⟩
  | false =>
    simp only [Bool.false_eq_true, if_false]
    cases outcome : write.statement (env.now world.tick) world.store with
    | error failure => exact .inl ⟨rfl, .refl _⟩
    | ok result => exact .inr ⟨write, rfl, outcome⟩

theorem Env.lease_kept (env : Env) (resource : String) (worker : WorkerId)
    (ttl : Nat) (world : World) :
    Store.Kept world.store (env.lease world resource worker ttl).2.store := by
  unfold Env.lease
  cases env.queryFault world.tick with
  | true => exact .refl _
  | false =>
    simp only [Bool.false_eq_true, if_false]
    cases outcome : Store.acquireLease resource worker ttl (env.now world.tick) world.store with
    | error failure => exact .refl _
    | ok result => exact .acquireLease outcome

theorem Env.respond_effected (env : Env) (request : Request) (world : World) :
    Effected (env.now world.tick) world.store (env.respond request world).2.store
      ⟨request, (env.respond request world).1⟩ := by
  cases request with
  | write write => exact env.execute_effected write world
  | acquireLease resource worker ttl =>
    exact .inl ⟨rfl, env.lease_kept resource worker ttl world⟩
  | unlink directory name =>
    simp only [Env.respond, Env.removal]
    split <;> exact .inl ⟨rfl, .refl _⟩
  | rmdir directory name =>
    simp only [Env.respond, Env.removal]
    split <;> exact .inl ⟨rfl, .refl _⟩
  | recordAudit result =>
    simp only [Env.respond]
    split <;> exact .inl ⟨rfl, .refl _⟩
  | _ =>
    rw [env.respond_quiet rfl world]
    exact .inl ⟨rfl, .refl _⟩

section

variable {τ : Type} {view : Store → τ} {change : τ → StoreWrite → τ}

/-- The statements change what is seen of the store as told; leases are not
seen. -/
structure Told (view : Store → τ) (change : τ → StoreWrite → τ) : Prop where
  statement : ∀ {write : StoreWrite} {now : UnixTimestamp}
    {before after : Store}, write.statement now before = .ok ((), after) →
    view after = change (view before) write
  lease : ∀ {before after : Store}, Store.Kept before after → view after = view before

theorem Told.respond (told : Told view change) (env : Env) (request : Request) (world : World) :
    view (env.handler.respond request world).2.store =
      (statements [⟨request, (env.handler.respond request world).1⟩]).foldl
        change (view world.store) := by
  rw [statements, List.filterMap_cons]
  rcases env.respond_effected request world with
    ⟨nothing, kept⟩ | ⟨write, written, executed⟩
  · rw [Env.handler, nothing]
    exact told.lease kept
  · rw [Env.handler, written]
    exact told.statement executed

theorem Told.run (told : Told view change) (env : Env) (program : Act α) (world : World) :
    view (program.run env.handler world).2.store =
      (statements (program.log env.handler world)).foldl change (view world.store) := by
  rw [run_eq_foldl_log (fun world : World => view world.store)
    (fun seen exchange => (statements [exchange]).foldl change seen)
    (told.respond env), statements, List.foldl_filterMap]
  congr 1
  funext seen exchange
  rw [statements, List.filterMap_cons]
  cases written? exchange <;> rfl

end

end CacheCleaner
