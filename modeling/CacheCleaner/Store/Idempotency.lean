import CacheCleaner.Effect.Machine
import CacheCleaner.Store.Sqlite

namespace CacheCleaner

open Effect

structure IdempotencyRow where
  key : String
  jobId : JobId
  responsePayload : Option String
  createdAt : UnixTimestamp
  expiresAt : UnixTimestamp
  deriving DecidableEq, Repr

abbrev IdempotencyKeys := Table IdempotencyRow.key

namespace IdempotencyKeys

def live (keys : IdempotencyKeys) (key : String) (now : UnixTimestamp) : Option IdempotencyRow :=
  (keys.find key).filter fun row => now < row.expiresAt

/-- `now + ttl_secs` as an unchecked `u64` sum. -/
def expiry (now : UnixTimestamp) (ttl : Nat) : UnixTimestamp := (now + ttl) % 2 ^ 64

def checkOrInsertIdempotency (key : String) (job : JobId) (ttl : Nat)
    (now : UnixTimestamp) (keys : IdempotencyKeys) :
    Except SqliteFailure (Option String × IdempotencyKeys) :=
  if Store.bindable [now] then
    match keys.live key now with
    | some row => .ok (row.responsePayload, keys)
    | none =>
      if Store.bindable [job.val, now, expiry now ttl] then
        .ok (none, keys.upsert ⟨key, job, none, now, expiry now ttl⟩)
      else .error .outOfRange
  else .error .outOfRange

/-- `set_idempotency_response`; it asks neither who reserved the key nor
whether the reservation has expired. -/
def setIdempotencyResponse (key payload : String) (keys : IdempotencyKeys) : IdempotencyKeys :=
  keys.update (fun row => row.key = key)
    (fun row => { row with responsePayload := some payload }) (fun _ => rfl)

end IdempotencyKeys

inductive IdempotencyCall where
  | check (key : String) (job : JobId) (ttl : Nat) (now : UnixTimestamp)
  | respond (key payload : String) (now : UnixTimestamp)
  deriving DecidableEq, Repr

namespace IdempotencyCall

def now : IdempotencyCall → UnixTimestamp
  | .check _ _ _ now => now
  | .respond _ _ now => now

def fits : IdempotencyCall → Prop
  | .check _ _ ttl now => now + ttl < 2 ^ 64
  | .respond _ _ _ => True

instance (call : IdempotencyCall) : Decidable call.fits := by
  cases call <;> unfold fits <;> infer_instance

def responses (key : String) (calls : List IdempotencyCall) : List String :=
  calls.filterMap fun
    | .check _ _ _ _ => none
    | .respond other payload _ => if other = key then some payload else none

end IdempotencyCall

namespace IdempotencyKeys

open IdempotencyCall

def calls : Machine IdempotencyKeys IdempotencyCall (Except SqliteFailure (Option String)) where
  step := fun keys call =>
    match call with
    | .check key job ttl now =>
      match keys.checkOrInsertIdempotency key job ttl now with
      | .ok (payload, next) => (.ok payload, next)
      | .error failure => (.error failure, keys)
    | .respond key payload _ =>
      (.ok none, keys.setIdempotencyResponse key payload)

variable {keys : IdempotencyKeys} {key : String} {job : JobId} {ttl : Nat}
  {now lapse : UnixTimestamp} {payload : Option String}

def Reserved (keys : IdempotencyKeys) (key : String) (lapse : UnixTimestamp)
    (payload : Option String) : Prop :=
  ∃ row, keys.find key = some row ∧ row.expiresAt = lapse ∧ row.responsePayload = payload

theorem step_unreserved (unreserved : keys.live key now = none)
    (stored : Store.bindable [job.val, now, expiry now ttl] = true) :
    calls.step keys (.check key job ttl now) =
      (.ok none, keys.upsert ⟨key, job, none, now, expiry now ttl⟩) := by
  have bound : Store.bindable [now] = true := by
    simp only [Store.bindable, List.all_cons, List.all_nil, Bool.and_eq_true,
      Bool.and_true] at stored ⊢
    exact stored.2.1
  simp only [calls, checkOrInsertIdempotency, bound, if_true, unreserved, stored]

theorem Reserved.check (reserved : keys.Reserved key lapse payload)
    (early : now < lapse) (fits : lapse ≤ sqliteMax) :
    calls.step keys (.check key job ttl now) = (.ok payload, keys) := by
  obtain ⟨row, found, rfl, rfl⟩ := reserved
  have bound : Store.bindable [now] = true := by
    simp [Store.bindable, Nat.le_trans (Nat.le_of_lt early) fits]
  have alive : keys.live key now = some row := by
    simp [live, found, Option.filter, early]
  simp only [calls, checkOrInsertIdempotency, bound, if_true, alive]

theorem Reserved.check_other (different : other ≠ key)
    (reserved : keys.Reserved key lapse payload) :
    (calls.step keys (.check other job ttl now)).2.Reserved key lapse payload := by
  obtain ⟨row, found, lapses, stored⟩ := reserved
  refine ⟨row, ?_, lapses, stored⟩
  simp only [calls, checkOrInsertIdempotency]
  split
  · rename_i kept checked
    split at checked
    · split at checked
      · cases checked
        exact found
      · split at checked
        · cases checked
          rw [Table.find_upsert_of_ne _ (Ne.symm different), found]
        · cases checked
    · cases checked
  · exact found

theorem Reserved.respond (reserved : keys.Reserved key lapse payload) (response : String) :
    (keys.setIdempotencyResponse key response).Reserved key lapse (some response) := by
  obtain ⟨row, found, lapses, -⟩ := reserved
  have named := (Table.find_some found).2
  refine ⟨{ row with responsePayload := some response }, ?_, lapses, rfl⟩
  rw [setIdempotencyResponse, Table.find_update_of_selected, found]
  · rfl
  · intro other same
    exact decide_eq_true same

theorem Reserved.respond_other (different : other ≠ key)
    (reserved : keys.Reserved key lapse payload) (response : String) :
    (keys.setIdempotencyResponse other response).Reserved key lapse payload := by
  obtain ⟨row, found, lapses, stored⟩ := reserved
  refine ⟨row, ?_, lapses, stored⟩
  rw [setIdempotencyResponse, Table.find_update_of_not, found]
  intro row named
  exact decide_eq_false fun same => different (same.symm.trans named)

theorem Reserved.after (early : ∀ call ∈ made, call.now < lapse) (fits : lapse ≤ sqliteMax)
    (reserved : keys.Reserved key lapse payload) : (calls.after keys made).Reserved key lapse
      ((responses key made).getLast?.or payload) := by
  induction made generalizing keys payload with
  | nil => exact reserved
  | cons call rest ih =>
    rw [List.forall_mem_cons] at early
    cases call with
    | check other job ttl now =>
      apply ih early.2
      by_cases same : other = key
      · subst same
        have sooner : now < lapse := early.1
        rw [reserved.check sooner fits]
        exact reserved
      · exact reserved.check_other same
    | respond other response now =>
      by_cases same : other = key
      · subst same
        have last : (responses other (.respond other response now :: rest)).getLast?.or payload =
          (responses other rest).getLast?.or (some response) := by
          simp [responses, List.getLast?_cons]
        rw [last]
        exact ih early.2 (reserved.respond response)
      · have skipped : responses key (.respond other response now :: rest) =
            responses key rest := by
          simp [responses, same]
        rw [skipped]
        exact ih early.2 (reserved.respond_other same response)

/-- A reservation in a sequence of calls, and a later check of its key within
the time to live. -/
structure Retry (start : IdempotencyKeys) (made : List IdempotencyCall) where
  front : List IdempotencyCall
  between : List IdempotencyCall
  rest : List IdempotencyCall
  key : String
  job : JobId
  ttl : Nat
  now : UnixTimestamp
  job' : JobId
  ttl' : Nat
  now' : UnixTimestamp
  split : made = front ++ .check key job ttl now :: (between ++ .check key job' ttl' now' :: rest)
  unreserved : (calls.after start front).live key now = none
  stored : Store.bindable [job.val, now, expiry now ttl] = true
  within : now' < now + ttl

namespace Retry

variable {start : IdempotencyKeys} {made : List IdempotencyCall}

variable (retry : Retry start made)

def reserving : IdempotencyCall :=
  .check retry.key retry.job retry.ttl retry.now

def first : Except SqliteFailure (Option String) :=
  (calls.step (calls.after start retry.front) retry.reserving).1

def again : Except SqliteFailure (Option String) :=
  (calls.step (calls.after start (retry.front ++ retry.reserving :: retry.between))
    (.check retry.key retry.job' retry.ttl' retry.now')).1

theorem step_reserving :
    calls.step (calls.after start retry.front) retry.reserving =
      (.ok none, (calls.after start retry.front).upsert ⟨retry.key, retry.job, none, retry.now,
          expiry retry.now retry.ttl⟩) :=
  step_unreserved retry.unreserved retry.stored

theorem again_eq
    (ordered : made.Pairwise fun earlier later => earlier.now ≤ later.now)
    (fits : ∀ call ∈ made, call.fits) :
    retry.again = .ok (responses retry.key retry.between).getLast? := by
  have split := retry.split
  have fit : expiry retry.now retry.ttl = retry.now + retry.ttl := by
    apply Nat.mod_eq_of_lt
    apply fits retry.reserving
    apply split.symm ▸ List.mem_append_right _ List.mem_cons_self
  have reserved : (calls.step (calls.after start retry.front)
      retry.reserving).2.Reserved retry.key (retry.now + retry.ttl) none := by
    rw [retry.step_reserving, fit]
    exact ⟨_, Table.find_upsert_self _ _, rfl, rfl⟩
  have room : retry.now + retry.ttl ≤ sqliteMax := by
    have stored := retry.stored
    simp only [Store.bindable, List.all_cons, List.all_nil, Bool.and_eq_true,
      Bool.and_true, decide_eq_true_eq, fit] at stored
    exact stored.2.2
  have early : ∀ call ∈ retry.between, call.now < retry.now + retry.ttl := by
    intro call mem
    rw [split] at ordered
    have inner := (List.pairwise_append.mp ordered).2.1
    have since := (List.pairwise_cons.mp inner).2
    have before := (List.pairwise_append.mp since).2.2 call mem _ List.mem_cons_self
    exact Nat.lt_of_le_of_lt before retry.within
  have lasted := reserved.after early room
  rw [Option.or_none] at lasted
  unfold again
  rw [Machine.after_append, Machine.after_cons, lasted.check retry.within room]

end Retry

/-- Only the reserving caller can tell that it reserved the key, and the others
get the response that was set last. -/
def ReservedOnce (start : IdempotencyKeys) (made : List IdempotencyCall) : Prop :=
  ∀ retry : Retry start made, retry.again ≠ retry.first ∧
    ∀ payload, (responses retry.key retry.between).getLast? = some payload →
      retry.again = .ok (some payload)

/-- A key is reserved once exactly when every retry within the time to live
comes after a response. -/
theorem reservedOnce_iff (start : IdempotencyKeys) (made : List IdempotencyCall)
    (ordered : made.Pairwise fun earlier later => earlier.now ≤ later.now)
    (fits : ∀ call ∈ made, call.fits) : ReservedOnce start made ↔
      ∀ retry : Retry start made, responses retry.key retry.between ≠ [] := by
  constructor
  · intro once retry unanswered
    apply (once retry).1
    rw [retry.again_eq ordered fits, unanswered, Retry.first, retry.step_reserving]
    rfl
  · intro answered retry
    rw [retry.again_eq ordered fits, Retry.first, retry.step_reserving]
    constructor
    · intro same
      apply answered retry
      rw [← List.getLast?_eq_none_iff]
      exact Except.ok.inj same
    · intro payload last
      rw [last]

theorem reservedOnce_answered : ReservedOnce Table.empty
      [.check "request" ⟨1⟩ 60 100, .respond "request" "done" 101,
        .check "request" ⟨1⟩ 60 102] := by
  apply (reservedOnce_iff _ _ (by decide) (by decide)).mpr
  intro retry
  obtain ⟨front, between, rest, key, job, ttl, now, job', ttl', now', split, -, -, -⟩ := retry
  rcases front with _ | ⟨_, _ | ⟨_, _ | ⟨_, front⟩⟩⟩
  · rcases between with _ | ⟨_, between⟩
    · simp at split
    · simp only [List.nil_append, List.cons_append, List.cons.injEq] at split
      obtain ⟨reserving, rfl, -⟩ := split
      cases reserving
      simp [responses]
  all_goals simp at split

/-- A retry before the response cannot be told from the reservation. -/
theorem retry_in_flight : ¬ ReservedOnce Table.empty
      [.check "request" ⟨1⟩ 60 100, .check "request" ⟨1⟩ 60 101] := by
  intro once
  have told := (once {
    front := []
    between := []
    rest := []
    key := "request"
    job := ⟨1⟩
    ttl := 60
    now := 100
    job' := ⟨1⟩
    ttl' := 60
    now' := 101
    split := rfl
    unreserved := rfl
    stored := by decide
    within := by decide }).1
  exact told rfl

end IdempotencyKeys

end CacheCleaner
