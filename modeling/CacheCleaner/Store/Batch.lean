import CacheCleaner.Store.Columns

namespace CacheCleaner

structure Connection where
  durable : IntentTable
  pending : Option IntentTable

namespace Connection

section

variable (connection : Connection)

def begin : Connection :=
  { connection with pending := some connection.durable }

def commit : Connection :=
  ⟨connection.pending.getD connection.durable, none⟩

def rollback : Connection := { connection with pending := none }

def insert (intent : OperationIntent) :
    Except SqliteFailure Nat × Connection :=
  match connection.pending with
  | some table =>
    match table.commitOperationIntent intent with
    | .ok (id, after) => (.ok id, { connection with pending := some after })
    | .error failure => (.error failure, connection)
  | none =>
    match connection.durable.commitOperationIntent intent with
    | .ok (id, after) => (.ok id, { connection with durable := after })
    | .error failure => (.error failure, connection)

end

def commitOperationIntent (intent : OperationIntent) (connection : Connection) :
    Result Nat × Connection :=
  match connection.insert intent with
  | (.ok id, connection) => (.ok id, connection)
  | (.error failure, connection) =>
    (.error (.storage ("Failed to commit operation intent: " ++ toString failure)), connection)

def insertAll : List OperationIntent → Connection → Result Unit × Connection
  | [], connection => (.ok (), connection)
  | intent :: rest, connection =>
    match connection.insert intent with
    | (.ok _, connection) => insertAll rest connection
    | (.error failure, connection) =>
      (.error (.storage ("Failed to insert intent in batch: " ++ toString failure)), connection)

def commitOperationIntentsBatch (intents : List OperationIntent) (connection : Connection) :
    Result Unit × Connection :=
  if intents.isEmpty then (.ok (), connection)
  else
    match insertAll intents connection.begin with
    | (.ok _, connection) => (.ok (), connection.commit)
    | (.error error, connection) => (.error error, connection.rollback)

def commitEach : List OperationIntent → Connection → List (Result Nat) × Connection
  | [], connection => ([], connection)
  | intent :: rest, connection =>
    let first := connection.commitOperationIntent intent
    let others := commitEach rest first.2
    (first.1 :: others.1, others.2)

theorem insertAll_cases (intents : List OperationIntent) (durable table : IntentTable) :
    (∃ after, insertAll intents ⟨durable, some table⟩ = (.ok (), ⟨durable, some after⟩) ∧
      (commitEach intents ⟨table, none⟩).2 = ⟨after, none⟩ ∧
      ∀ result ∈ (commitEach intents ⟨table, none⟩).1, ∃ id, result = .ok id) ∨
    (∃ error after, insertAll intents ⟨durable, some table⟩ =
        (.error error, ⟨durable, some after⟩) ∧
      ∃ error, .error error ∈ (commitEach intents ⟨table, none⟩).1) := by
  induction intents generalizing table with
  | nil => exact Or.inl ⟨table, rfl, rfl, List.forall_mem_nil _⟩
  | cons intent rest ih =>
    simp only [insertAll, commitEach, commitOperationIntent, insert]
    cases table.commitOperationIntent intent with
    | error failure =>
      exact Or.inr ⟨_, table, rfl, _, List.mem_cons_self ..⟩
    | ok accepted =>
      obtain ⟨id, next⟩ := accepted
      rcases ih next with ⟨after, looped, same, all⟩ | ⟨error, after, looped, failed⟩
      · exact Or.inl ⟨after, looped, same, List.forall_mem_cons.mpr ⟨⟨id, rfl⟩, all⟩⟩
      · obtain ⟨error', mem⟩ := failed
        exact Or.inr ⟨error, after, looped, error', List.mem_cons_of_mem _ mem⟩

/-- A batch succeeds when every single commit would, then with the same rows, and
otherwise changes nothing. -/
theorem batch_agrees (intents : List OperationIntent) (table : IntentTable) :
    let batch := commitOperationIntentsBatch intents ⟨table, none⟩
    let each := commitEach intents ⟨table, none⟩
    (batch.1 = .ok () ↔ ∀ result ∈ each.1, ∃ id, result = .ok id) ∧
      (batch.1 = .ok () → batch.2 = each.2) ∧ (batch.1 ≠ .ok () → batch.2 = ⟨table, none⟩) := by
  unfold commitOperationIntentsBatch
  split
  · rename_i empty
    rw [List.isEmpty_iff.mp empty]
    exact ⟨⟨fun _ => List.forall_mem_nil _, fun _ => rfl⟩, fun _ => rfl, fun _ => rfl⟩
  · rcases insertAll_cases intents table table with
      ⟨after, looped, same, all⟩ | ⟨error, after, looped, other, member⟩
    · change insertAll intents (begin ⟨table, none⟩) = _ at looped
      rw [looped]
      exact ⟨⟨fun _ => all, fun _ => rfl⟩, fun _ => same.symm, fun failed => absurd rfl failed⟩
    · change insertAll intents (begin ⟨table, none⟩) = _ at looped
      rw [looped]
      refine ⟨⟨nofun, ?_⟩, nofun, fun _ => rfl⟩
      intro all
      obtain ⟨id, same⟩ := all _ member
      cases same

end Connection

end CacheCleaner
