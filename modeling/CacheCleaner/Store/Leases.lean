import CacheCleaner.Effect.Machine
import CacheCleaner.Store.Sqlite

namespace CacheCleaner

open Effect

inductive LeaseCall where
  | acquire (resource : String) (worker : WorkerId) (ttl : Nat) (now : UnixTimestamp)
  | release (resource : String) (worker : WorkerId) (now : UnixTimestamp)
  deriving DecidableEq, Repr

namespace LeaseCall

def now : LeaseCall → UnixTimestamp
  | .acquire _ _ _ now => now
  | .release _ _ now => now

def fits : LeaseCall → Prop
  | .acquire _ _ ttl now => now + ttl < 2 ^ 63
  | .release _ _ _ => True

instance (call : LeaseCall) : Decidable call.fits := by
  cases call <;> unfold fits <;> infer_instance

def statement : LeaseCall → Store.Statement Bool
  | .acquire resource worker ttl now =>
    Store.acquireLease resource worker ttl now
  | .release resource worker _ => fun store =>
    (Store.releaseLease resource worker store).map fun outcome =>
      (true, outcome.2)

end LeaseCall

namespace Store

variable {row : LeaseRow}

def leaseCalls : Machine Store LeaseCall (Except SqliteFailure Bool) where
  step := fun store call =>
    match call.statement store with
    | .ok (answer, next) => (.ok answer, next)
    | .error failure => (.error failure, store)

def LeasedAway (store : Store) (resource : String) (worker : WorkerId)
    (now : UnixTimestamp) : Prop :=
  ∃ row, store.leases.find resource = some row ∧ row.workerId ≠ worker ∧ now < row.expiresAt

def Held (store : Store) (resource : String) (worker : WorkerId) (until_ : UnixTimestamp) : Prop :=
  ∃ row, store.leases.find resource = some row ∧ row.workerId = worker ∧ until_ ≤ row.expiresAt

variable {store : Store} {resource : String} {worker rival : WorkerId}
  {ttl : Nat} {now until_ : UnixTimestamp}

theorem find_live : (store.leases.delete fun row =>
        row.resourceId = resource ∧ row.expiresAt ≤ now).find resource = some row ↔
      store.leases.find resource = some row ∧ now < row.expiresAt := by
  rw [Table.find_delete, Option.filter_eq_some_iff]
  constructor
  · rintro ⟨found, live⟩
    have named := (Table.find_some found).2
    simp only [named, true_and, Bool.not_eq_true', decide_eq_false_iff_not, Nat.not_le] at live
    exact ⟨found, live⟩
  · rintro ⟨found, live⟩
    exact ⟨found, by simp [Nat.not_le.mpr live]⟩

structure Granted (before : Store) (resource : String) (worker : WorkerId)
    (expiry : UnixTimestamp) (next : Store) : Prop where
  taken : next.leases.find resource = some ⟨resource, worker, expiry⟩
  others : ∀ other, other ≠ resource → next.leases.find other = before.leases.find other

theorem granted_upsert : Granted store resource worker (now + ttl)
      { store with
        leases := (store.leases.delete fun row =>
          row.resourceId = resource ∧ row.expiresAt ≤ now).upsert
            ⟨resource, worker, now + ttl⟩ } where
  taken := Table.find_upsert_self _ (⟨resource, worker, now + ttl⟩ : LeaseRow)
  others := by
    intro other different
    rw [Table.find_upsert_of_ne _ different, Table.find_delete]
    cases found : store.leases.find other with
    | none => rfl
    | some row =>
      have named := (Table.find_some found).2
      simp [Option.filter, named, different]

theorem acquireLease_cases (store : Store) (resource : String)
    (worker : WorkerId) (fits : now + ttl < 2 ^ 63) : store.LeasedAway resource worker now ∧
        acquireLease resource worker ttl now store = .ok (false, store) ∨
      ¬ store.LeasedAway resource worker now ∧
        ∃ next, acquireLease resource worker ttl now store = .ok (true, next) ∧
          Granted store resource worker (now + ttl) next := by
  have bound : bindable [now, now + ttl] = true := by
    have room : now + ttl ≤ sqliteMax := Nat.le_sub_one_of_lt fits
    simp [bindable, room, Nat.le_trans (Nat.le_add_right now ttl) room]
  unfold acquireLease
  simp only [bound, if_true]
  split
  · rename_i row live
    obtain ⟨found, unexpired⟩ := find_live.mp live
    split
    · rename_i rival
      exact .inl ⟨⟨row, found, rival⟩, rfl⟩
    · rename_i own
      refine .inr ⟨?_, _, rfl, granted_upsert⟩
      rintro ⟨row', found', rival⟩
      rw [found] at found'
      cases found'
      exact own rival
  · rename_i gone
    refine .inr ⟨?_, _, rfl, granted_upsert⟩
    rintro ⟨row, found, -, unexpired⟩
    rw [find_live.mpr ⟨found, unexpired⟩] at gone
    cases gone

theorem leasedAway_iff (found : store.leases.find resource = some row) :
    store.LeasedAway resource worker now ↔ row.workerId ≠ worker ∧ now < row.expiresAt := by
  constructor
  · rintro ⟨other, same, rival⟩
    rw [found] at same
    cases same
    exact rival
  · intro rival
    exact ⟨row, found, rival⟩

theorem acquireLease_granted (fits : now + ttl < 2 ^ 63)
    (free : ¬ store.LeasedAway resource worker now) :
    ∃ next, acquireLease resource worker ttl now store = .ok (true, next) := by
  rcases acquireLease_cases store resource worker fits with
    ⟨away, -⟩ | ⟨-, next, done, -⟩
  · exact absurd away free
  · exact ⟨next, done⟩

theorem acquireLease_refused (fits : now + ttl < 2 ^ 63)
    (refused : acquireLease resource worker ttl now store = .ok (false, next)) : next = store := by
  rcases acquireLease_cases store resource worker fits with
    ⟨-, same⟩ | ⟨-, other, done, -⟩
  · rw [same] at refused
    cases refused
    rfl
  · rw [done] at refused
    cases refused

theorem free_of_released (found : store.leases.find resource = some row)
    (done : releaseLease resource row.workerId store = .ok ((), released)) :
    ¬ released.LeasedAway resource worker now := by
  rintro ⟨other, left, -⟩
  cases done
  have named := (Table.find_some found).2
  rw [Table.find_delete, found] at left
  simp [Option.filter, named] at left

def GivesUp (resource : String) (worker : WorkerId) (until_ : UnixTimestamp)
    (entry : LeaseCall × Except SqliteFailure Bool) : Prop :=
  (∃ time, entry.1 = .release resource worker time) ∨
  ∃ ttl time, entry = (.acquire resource worker ttl time, .ok true) ∧ time + ttl < until_

theorem held_step (fits : call.fits)
    (early : call.now < until_) (held : store.Held resource worker until_) :
    GivesUp resource worker until_ (call, (leaseCalls.step store call).1) ∨
      (leaseCalls.step store call).2.Held resource worker until_ := by
  obtain ⟨row, found, owner, lasts⟩ := held
  cases call with
  | acquire named claimant ttl now =>
    rcases acquireLease_cases store named claimant fits with
      ⟨-, refused⟩ | ⟨free, next, granted, change⟩
    · right
      simp only [leaseCalls, LeaseCall.statement, refused]
      exact ⟨row, found, owner, lasts⟩
    · simp only [leaseCalls, LeaseCall.statement, granted]
      by_cases here : named = resource
      · subst here
        by_cases own : claimant = worker
        · subst own
          by_cases sooner : now + ttl < until_
          · exact .inl (.inr ⟨ttl, now, rfl, sooner⟩)
          · exact .inr ⟨_, change.taken, rfl, Nat.le_of_not_lt sooner⟩
        · have away : store.LeasedAway named claimant now :=
            ⟨row, found, by rw [owner]; exact Ne.symm own, Nat.lt_of_lt_of_le early lasts⟩
          exact absurd away free
      · right
        refine ⟨row, ?_, owner, lasts⟩
        rw [change.others resource (Ne.symm here), found]
  | release named claimant now =>
    by_cases own : named = resource ∧ claimant = worker
    · obtain ⟨rfl, rfl⟩ := own
      exact .inl (.inl ⟨now, rfl⟩)
    · right
      refine ⟨row, ?_, owner, lasts⟩
      change (store.leases.delete _).find resource = some row
      have named' := (Table.find_some found).2
      rw [Table.find_delete, found]
      have kept : ¬ (row.resourceId = named ∧ row.workerId = claimant) := by
        rintro ⟨rfl, rfl⟩
        exact own ⟨named', owner⟩
      simp [Option.filter, kept]

theorem gives_up_of_granted (fits : ∀ call ∈ calls, call.fits) (fit : now + ttl < 2 ^ 63)
    (early : ∀ call ∈ calls, call.now ≤ now)
    (held : store.Held resource worker until_) (sooner : now < until_)
    (granted : (leaseCalls.step (leaseCalls.after store calls)
      (.acquire resource rival ttl now)).1 = .ok true) (different : rival ≠ worker) :
    ∃ entry ∈ leaseCalls.history store calls, GivesUp resource worker until_ entry := by
  have lasted : (∃ entry ∈ leaseCalls.history store calls, GivesUp resource worker until_ entry) ∨
      (leaseCalls.after store calls).Held resource worker until_ := by
    apply Machine.after_persists (Held · resource worker until_) _ held
    intro store call mem held
    apply held_step (fits call mem) _ held
    exact Nat.lt_of_le_of_lt (early call mem) sooner
  rcases lasted with ended | ⟨row, found, owner, lasts⟩
  · exact ended
  · have away : (leaseCalls.after store calls).LeasedAway resource rival now := by
      rw [leasedAway_iff found, owner]
      exact ⟨Ne.symm different, Nat.lt_of_lt_of_le sooner lasts⟩
    rcases acquireLease_cases (leaseCalls.after store calls) resource rival fit
      with ⟨-, refused⟩ | ⟨free, -⟩
    · simp only [leaseCalls, LeaseCall.statement] at granted refused
      rw [refused] at granted
      cases granted
    · exact absurd away free

theorem held_of_granted (fit : now + ttl < 2 ^ 63)
    (granted : (leaseCalls.step store (.acquire resource worker ttl now)).1 = .ok true) :
    (leaseCalls.step store (.acquire resource worker ttl now)).2.Held resource
      worker (now + ttl) := by
  rcases acquireLease_cases store resource worker fit with
    ⟨-, refused⟩ | ⟨-, next, done, change⟩
  · simp only [leaseCalls, LeaseCall.statement, refused] at granted
    cases granted
  · simp only [leaseCalls, LeaseCall.statement, done]
    exact ⟨_, change.taken, rfl, Nat.le_refl _⟩

/-- Leases over any sequence of calls under a clock that does not go back. -/
theorem leases_exclude (start : Store) (calls : List LeaseCall)
    (ordered : calls.Pairwise fun earlier later => earlier.now ≤ later.now)
    (fits : ∀ call ∈ calls, call.fits) :
    (∀ (before between later : List (LeaseCall × Except SqliteFailure Bool))
        (resource : String) (worker rival : WorkerId) (ttl ttl' : Nat) (now now' : UnixTimestamp),
      leaseCalls.history start calls = before ++ (.acquire resource worker ttl now, .ok true) ::
          (between ++ (.acquire resource rival ttl' now', .ok true) :: later) →
      rival ≠ worker → now' < now + ttl → ∃ entry ∈ between,
        (∃ time, entry.1 = .release resource worker time) ∨ ∃ sooner time, entry =
            (.acquire resource worker sooner time, .ok true) ∧ time + sooner < now + ttl) ∧
    ∀ (resource : String) (worker : WorkerId) (ttl : Nat)
        (now : UnixTimestamp), now + ttl < 2 ^ 63 →
      (∀ row, (leaseCalls.after start calls).leases.find resource = some row →
        row.workerId = worker → now < row.expiresAt → ∃ next, acquireLease resource worker ttl now
          (leaseCalls.after start calls) = .ok (true, next)) ∧
      (∀ row, (leaseCalls.after start calls).leases.find resource = some row → row.expiresAt ≤ now →
        ∃ next, acquireLease resource worker ttl now
          (leaseCalls.after start calls) = .ok (true, next)) ∧
      (∀ row, (leaseCalls.after start calls).leases.find resource = some row → ∃ released next,
          releaseLease resource row.workerId (leaseCalls.after start calls) = .ok ((), released) ∧
          acquireLease resource worker ttl now released = .ok (true, next)) ∧
      ∀ next, acquireLease resource worker ttl now
          (leaseCalls.after start calls) = .ok (false, next) →
        next = leaseCalls.after start calls := by
  constructor
  · intro before between later resource worker rival ttl ttl' now now' whole different sooner
    obtain ⟨front, back, rfl, -, acquired⟩ := Machine.exists_of_history_eq_append whole
    obtain ⟨rest, rfl, granted, since⟩ := Machine.exists_of_history_eq_cons acquired
    obtain ⟨middle, tail, rfl, rfl, claimed⟩ := Machine.exists_of_history_eq_append since
    obtain ⟨last, rfl, taken, -⟩ := Machine.exists_of_history_eq_cons claimed
    have inner := (List.pairwise_append.mp ordered).2.1
    have since := (List.pairwise_cons.mp inner).2
    rw [List.forall_mem_append, List.forall_mem_cons, List.forall_mem_append,
      List.forall_mem_cons] at fits
    obtain ⟨-, fit, fits, fit', -⟩ := fits
    apply gives_up_of_granted fits fit' _ (held_of_granted fit granted) sooner taken different
    intro call member
    exact (List.pairwise_append.mp since).2.2 call member _ List.mem_cons_self
  · intro resource worker ttl now fit
    refine ⟨?_, ?_, ?_, fun next => acquireLease_refused fit⟩
    · intro row found owner live
      apply acquireLease_granted fit
      rw [leasedAway_iff found]
      exact fun rival => rival.1 owner
    · intro row found expired
      apply acquireLease_granted fit
      rw [leasedAway_iff found]
      exact fun rival => absurd rival.2 (Nat.not_lt.mpr expired)
    · intro row found
      obtain ⟨next, done⟩ := acquireLease_granted fit (free_of_released found rfl)
      exact ⟨_, next, rfl, done⟩

/-- A second worker gets the resource within the first one's minute, and the
first one had released it. -/
theorem leases_exclude_handover : ∃ entry ∈ [(LeaseCall.release "package" ⟨1⟩ 105,
        (.ok true : Except SqliteFailure Bool))], (∃ time, entry.1 = .release "package" ⟨1⟩ time) ∨
      ∃ sooner time, entry = (.acquire "package" ⟨1⟩ sooner time, .ok true) ∧
        time + sooner < 100 + 60 :=
  (leases_exclude Store.empty [.acquire "package" ⟨1⟩ 60 100, .release "package" ⟨1⟩ 105,
      .acquire "package" ⟨2⟩ 60 110]
    (by decide) (by decide)).1 [] _ [] "package" ⟨1⟩ ⟨2⟩ 60 60 100 110 rfl (by decide) (by decide)

end Store

end CacheCleaner
