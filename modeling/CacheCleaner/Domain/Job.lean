import CacheCleaner.Domain.Types
import CacheCleaner.Effect.Machine

namespace CacheCleaner

open Effect

inductive JobState where
  | pending | queued | admitted | preparing | scanning | planning
  | awaitingAuthorization | authorized | waitingResources | executing
  | verifying | reconciling | completed
  | failed (reason : String)
  | aborted (reason : String)
  | cancelled (reason : String)
  | timedOut (reason : String)
  | recoveryRequired (reason : String)
  | stale (reason : String)
  deriving DecidableEq, Repr

namespace JobState

def isTerminal : JobState → Bool
  | .completed | .failed _ | .aborted _ | .cancelled _ | .timedOut _
  | .recoveryRequired _ | .stale _ => true
  | _ => false

def canTransitionTo (state next : JobState) : Bool :=
  match state, next with
  | .pending, .queued => true
  | .pending, .admitted => true
  | .pending, .failed _ => true
  | .pending, .aborted _ => true
  | .pending, .cancelled _ => true
  | .queued, .admitted => true
  | .queued, .failed _ => true
  | .queued, .aborted _ => true
  | .admitted, .preparing => true
  | .admitted, .scanning => true
  | .admitted, .failed _ => true
  | .admitted, .aborted _ => true
  | .preparing, .scanning => true
  | .preparing, .failed _ => true
  | .scanning, .planning => true
  | .scanning, .failed _ => true
  | .scanning, .aborted _ => true
  | .planning, .awaitingAuthorization => true
  | .planning, .authorized => true
  | .planning, .completed => true
  | .planning, .failed _ => true
  | .planning, .aborted _ => true
  | .awaitingAuthorization, .authorized => true
  | .awaitingAuthorization, .failed _ => true
  | .authorized, .waitingResources => true
  | .authorized, .executing => true
  | .authorized, .failed _ => true
  | .authorized, .aborted _ => true
  | .waitingResources, .executing => true
  | .waitingResources, .failed _ => true
  | .executing, .verifying => true
  | .executing, .reconciling => true
  | .executing, .failed _ => true
  | .executing, .aborted _ => true
  | .verifying, .completed => true
  | .verifying, .reconciling => true
  | .verifying, .failed _ => true
  | .verifying, .aborted _ => true
  | .verifying, .recoveryRequired _ => true
  | .reconciling, .completed => true
  | .reconciling, .failed _ => true
  | .reconciling, .recoveryRequired _ => true
  -- the guarded arms
  | state, .cancelled _ => !state.isTerminal
  | state, .timedOut _ => !state.isTerminal
  | state, .stale _ => !state.isTerminal
  | state, .recoveryRequired _ => !state.isTerminal
  | _, _ => false

def display : JobState → String
  | .pending => "Pending"
  | .queued => "Queued"
  | .admitted => "Admitted"
  | .preparing => "Preparing"
  | .scanning => "Scanning"
  | .planning => "Planning"
  | .awaitingAuthorization => "AwaitingAuthorization"
  | .authorized => "Authorized"
  | .waitingResources => "WaitingResources"
  | .executing => "Executing"
  | .verifying => "Verifying"
  | .reconciling => "Reconciling"
  | .completed => "Completed"
  | .failed reason => s!"Failed({reason})"
  | .aborted reason => s!"Aborted({reason})"
  | .cancelled reason => s!"Cancelled({reason})"
  | .timedOut reason => s!"TimedOut({reason})"
  | .recoveryRequired reason => s!"RecoveryRequired({reason})"
  | .stale reason => s!"Stale({reason})"

def rank : JobState → Nat
  | .pending => 0
  | .queued => 1
  | .admitted => 2
  | .preparing => 3
  | .scanning => 4
  | .planning => 5
  | .awaitingAuthorization => 6
  | .authorized => 7
  | .waitingResources => 8
  | .executing => 9
  | .verifying => 10
  | .reconciling => 11
  | _ => 12

def passed : JobState → List JobState
  | .preparing | .scanning => [.admitted]
  | .planning => [.admitted, .scanning]
  | .awaitingAuthorization | .authorized => [.admitted, .scanning, .planning]
  | .waitingResources | .executing =>
    [.admitted, .scanning, .planning, .authorized]
  | .verifying | .reconciling =>
    [.admitted, .scanning, .planning, .authorized, .executing]
  | .completed => [.admitted, .scanning, .planning]
  | _ => []

variable {state next : JobState}

theorem rank_le (state : JobState) : state.rank ≤ 12 := by
  cases state <;> simp [rank]

theorem rank_eq_of_isTerminal (terminal : state.isTerminal = true) : state.rank = 12 := by
  cases state <;> first | rfl | cases terminal

theorem rank_lt_of_not_isTerminal (alive : state.isTerminal = false) : state.rank < 12 := by
  cases state <;> first | cases alive; done | simp [rank]

theorem rank_lt_of_canTransitionTo
    (edge : state.canTransitionTo next = true) : state.rank < next.rank := by
  unfold canTransitionTo at edge
  split at edge
  all_goals first
    | exact absurd edge Bool.false_ne_true
    | exact rank_lt_of_not_isTerminal (by simpa using edge)
    | simp [rank]

theorem passed_sublist_of_canTransitionTo (edge : state.canTransitionTo next = true) :
    next.passed.Sublist (state.passed ++ [state]) := by
  unfold canTransitionTo at edge
  split at edge
  all_goals first
    | exact absurd edge Bool.false_ne_true
    | exact List.nil_sublist _
    | simp [passed]

theorem not_canTransitionTo_of_isTerminal (terminal : state.isTerminal = true) :
    state.canTransitionTo next = false := by
  cases edge : state.canTransitionTo next with
  | false => rfl
  | true =>
    have climbs := rank_lt_of_canTransitionTo edge
    rw [rank_eq_of_isTerminal terminal] at climbs
    exact absurd (rank_le next) (Nat.not_le.mpr climbs)

end JobState

structure JobAttempt where
  attemptId : AttemptId
  jobId : JobId
  attemptNumber : Nat
  startedAt : UnixTimestamp
  finishedAt : Option UnixTimestamp
  state : JobState
  stateVersion : Nat
  catalogGeneration : CatalogGeneration
  configGeneration : ConfigGeneration
  planId : Option PlanId
  deriving DecidableEq, Repr

inductive JobCall where
  | transitionTo (next : JobState) (now : UnixTimestamp)
  | transitionWithCas (next : JobState) (expectedVersion : Nat) (now : UnixTimestamp)
  deriving DecidableEq, Repr

def JobCall.next : JobCall → JobState
  | .transitionTo next _ => next
  | .transitionWithCas next _ _ => next

namespace JobAttempt

def newWithGenerations (attemptId : AttemptId) (jobId : JobId)
    (attemptNumber : Nat) (catalogGeneration : CatalogGeneration)
    (configGeneration : ConfigGeneration) (now : UnixTimestamp) : JobAttempt where
  attemptId := attemptId
  jobId := jobId
  attemptNumber := attemptNumber
  startedAt := now
  finishedAt := none
  state := .pending
  stateVersion := 1
  catalogGeneration := catalogGeneration
  configGeneration := configGeneration
  planId := none

def new (attemptId : AttemptId) (jobId : JobId) (attemptNumber : Nat)
    (now : UnixTimestamp) : JobAttempt :=
  newWithGenerations attemptId jobId attemptNumber .initial .initial now

section

variable (attempt : JobAttempt)

def transitionWithCas (next : JobState)
    (expectedVersion : Nat) (now : UnixTimestamp) : Except String Unit × JobAttempt :=
  if attempt.stateVersion ≠ expectedVersion then
    (.error (s!"CAS failed for attempt {attempt.attemptId}: " ++
      s!"expected version {expectedVersion}, actual {attempt.stateVersion}"), attempt)
  else if attempt.state.canTransitionTo next then
    (.ok (), { attempt with
      finishedAt := if next.isTerminal then some now else attempt.finishedAt
      state := next
      stateVersion := (attempt.stateVersion + 1) % 2 ^ 64 })
  else
    (.error (s!"Illegal state transition from '{attempt.state.display}' to '{next.display}' " ++
      s!"for attempt {attempt.attemptId}"), attempt)

def transitionTo (next : JobState)
    (now : UnixTimestamp) : Except String Unit × JobAttempt :=
  attempt.transitionWithCas next attempt.stateVersion now

def calls : Machine JobAttempt JobCall (Except String Unit) where
  step := fun attempt call =>
    match call with
    | .transitionTo next now => attempt.transitionTo next now
    | .transitionWithCas next expected now =>
      attempt.transitionWithCas next expected now

def wins (version : Nat) : JobCall × Except String Unit → Bool
  | (.transitionWithCas _ expected _, .ok ()) => expected = version
  | _ => false

def presented : JobCall → Nat
  | .transitionTo _ _ => attempt.stateVersion
  | .transitionWithCas _ expected _ => expected

def entered (made : List JobCall) : List JobState :=
  (calls.history attempt made).filterMap fun (call, answer) =>
    match answer with
    | .ok () => some call.next
    | .error _ => none

end

variable {attempt : JobAttempt} {call : JobCall}

theorem step_cases (attempt : JobAttempt) (call : JobCall) :
    (∃ text, calls.step attempt call = (.error text, attempt)) ∨
    ∃ next, calls.step attempt call = (.ok (), next) ∧
      attempt.state.canTransitionTo call.next = true ∧
      attempt.presented call = attempt.stateVersion ∧ next.state = call.next ∧
      next.stateVersion = (attempt.stateVersion + 1) % 2 ^ 64 ∧
      (call.next.isTerminal = true → next.finishedAt.isSome = true) ∧
      (call.next.isTerminal = false → next.finishedAt = attempt.finishedAt) := by
  have acted : ∀ next expected now, (∃ text, attempt.transitionWithCas next expected now =
        (.error text, attempt)) ∨
      ∃ after, attempt.transitionWithCas next expected now = (.ok (), after) ∧
        attempt.state.canTransitionTo next = true ∧
        expected = attempt.stateVersion ∧ after.state = next ∧
        after.stateVersion = (attempt.stateVersion + 1) % 2 ^ 64 ∧
        (next.isTerminal = true → after.finishedAt.isSome = true) ∧
        (next.isTerminal = false → after.finishedAt = attempt.finishedAt) := by
    intro next expected now
    unfold transitionWithCas
    split
    · exact .inl ⟨_, rfl⟩
    · rename_i same
      rw [Decidable.not_not] at same
      split
      · rename_i edge
        refine .inr ⟨_, rfl, edge, same.symm, rfl, rfl, ?_, ?_⟩
        · intro terminal
          simp [terminal]
        · intro alive
          simp [alive]
      · exact .inl ⟨_, rfl⟩
  cases call with
  | transitionTo next now => exact acted next attempt.stateVersion now
  | transitionWithCas next expected now => exact acted next expected now

structure Sound (attempt : JobAttempt) : Prop where
  version_le : attempt.stateVersion ≤ attempt.state.rank + 1
  finished : attempt.finishedAt.isSome = attempt.state.isTerminal

theorem Sound.version_succ (sound : attempt.Sound) :
    (attempt.stateVersion + 1) % 2 ^ 64 = attempt.stateVersion + 1 := by
  have bounded := sound.version_le
  have top := attempt.state.rank_le
  apply Nat.mod_eq_of_lt
  omega

theorem Sound.step (sound : attempt.Sound) (call : JobCall) :
    (calls.step attempt call).2.Sound := by
  rcases step_cases attempt call with ⟨text, refused⟩ |
    ⟨next, done, edge, -, state, version, ended, ongoing⟩
  · rw [refused]
    exact sound
  · rw [done]
    have climbs := JobState.rank_lt_of_canTransitionTo edge
    have bounded := sound.version_le
    constructor
    · rw [version, sound.version_succ, state]
      omega
    · rw [state]
      cases terminal : call.next.isTerminal with
      | true => exact ended terminal
      | false =>
        rw [ongoing terminal, sound.finished]
        cases left : attempt.state.isTerminal with
        | false => rfl
        | true =>
          rw [JobState.not_canTransitionTo_of_isTerminal left] at edge
          cases edge

theorem Sound.after (sound : attempt.Sound) (made : List JobCall) :
    (calls.after attempt made).Sound :=
  Machine.after_invariant Sound sound fun _ call _ sound => sound.step call

theorem isChain_entered (attempt : JobAttempt) (made : List JobCall) :
    List.IsChain (fun state next => JobState.canTransitionTo state next = true)
      (attempt.state :: attempt.entered made) := by
  induction made generalizing attempt with
  | nil => exact List.isChain_singleton _
  | cons call rest ih =>
    have onward := ih (calls.step attempt call).2
    rcases step_cases attempt call with ⟨text, refused⟩ |
      ⟨next, done, edge, -, state, -⟩
    · rw [refused] at onward
      have same : attempt.entered (call :: rest) = attempt.entered rest := by
        simp [entered, Machine.history, refused]
      rw [same]
      exact onward
    · rw [done] at onward
      have more : attempt.entered (call :: rest) = next.state :: next.entered rest := by
        simp [entered, Machine.history, done, state]
      rw [more]
      exact List.isChain_cons_cons.mpr ⟨by rw [state]; exact edge, onward⟩

section

variable {path front back : List JobState} {state : JobState} (chain : List.IsChain
    (fun state next => JobState.canTransitionTo state next = true) path)
include chain

theorem nodup_of_isChain : path.Nodup := by
  have climbing : (path.map JobState.rank).IsChain (· < ·) := by
    rw [List.isChain_map]
    exact chain.imp fun _ _ => JobState.rank_lt_of_canTransitionTo
  have apart : (path.map JobState.rank).Nodup :=
    (List.isChain_iff_pairwise.mp climbing).imp Nat.ne_of_lt
  exact List.Nodup.of_map JobState.rank apart

theorem passed_sublist_of_isChain (start : path.head? = some .pending)
    (cut : path = front ++ state :: back) : state.passed.Sublist front := by
  induction front using List.reverseRecOn generalizing state back with
  | nil =>
    rw [cut, List.nil_append, List.head?_cons, Option.some.injEq] at start
    rw [start]
    exact List.nil_sublist _
  | append_singleton earlier previous ih =>
    rw [List.append_assoc, List.singleton_append] at cut
    have before := ih cut
    rw [cut] at chain
    have edge := (List.isChain_cons_cons.mp chain.right_of_append).1
    apply (JobState.passed_sublist_of_canTransitionTo edge).trans
    exact List.Sublist.append_right before [previous]

end

theorem eq_presented_of_wins
    (won : wins version (call, answer) = true) : attempt.presented call = version := by
  cases call with
  | transitionTo next now => cases won
  | transitionWithCas next expected now =>
    cases answer with
    | ok _ => exact of_decide_eq_true won
    | error text => cases won

theorem countP_wins_of_lt (sound : attempt.Sound)
    (old : version < attempt.stateVersion) (made : List JobCall) :
    (calls.history attempt made).countP (wins version) = 0 := by
  induction made generalizing attempt with
  | nil => rfl
  | cons call rest ih =>
    have onward := sound.step call
    rcases step_cases attempt call with ⟨text, refused⟩ |
      ⟨next, done, -, same, -, raised, -⟩
    · rw [Machine.history, refused, List.countP_cons_of_neg, ih sound old]
      cases call <;> exact Bool.false_ne_true
    · rw [done] at onward
      rw [Machine.history, done, List.countP_cons_of_neg, ih onward]
      · rw [raised, sound.version_succ]
        omega
      · intro won
        rw [eq_presented_of_wins won] at same
        omega

theorem countP_wins_le (sound : attempt.Sound) (version : Nat) (made : List JobCall) :
    (calls.history attempt made).countP (wins version) ≤ 1 := by
  induction made generalizing attempt with
  | nil => exact Nat.zero_le 1
  | cons call rest ih =>
    have onward := sound.step call
    rcases step_cases attempt call with ⟨text, refused⟩ |
      ⟨next, done, -, same, -, raised, -⟩
    · rw [Machine.history, refused, List.countP_cons_of_neg]
      · exact ih sound
      · cases call <;> exact Bool.false_ne_true
    · rw [done] at onward
      rw [Machine.history, done, List.countP_cons]
      split
      · rename_i won
        rw [eq_presented_of_wins won] at same
        rw [countP_wins_of_lt onward]
        rw [raised, sound.version_succ]
        omega
      · exact ih onward

/-- What a life of an attempt looks like after any calls. -/
structure WellFormed (fresh : JobAttempt) (made : List JobCall) : Prop where
  failed : ∀ call text, (calls.step (calls.after fresh made) call).1 = .error text →
    (calls.step (calls.after fresh made) call).2 = calls.after fresh made
  raised : ∀ call, (calls.step (calls.after fresh made) call).1 = .ok () →
    (calls.step (calls.after fresh made) call).2.stateVersion =
      (calls.after fresh made).stateVersion + 1
  wins_once : ∀ version, (calls.history fresh made).countP (wins version) ≤ 1
  finished : (calls.after fresh made).finishedAt.isSome = (calls.after fresh made).state.isTerminal
  ended : (calls.after fresh made).state.isTerminal = true →
    ∀ call, (calls.step (calls.after fresh made) call).1 ≠ .ok ()
  entered_once : (fresh.state :: fresh.entered made).Nodup
  executing : .executing ∈ fresh.state :: fresh.entered made →
    [.admitted, .scanning, .planning, .authorized, .executing].Sublist
      (fresh.state :: fresh.entered made)
  completed : .completed ∈ fresh.state :: fresh.entered made →
    [.planning, .completed].Sublist (fresh.state :: fresh.entered made)

theorem sublist_entered {fresh : JobAttempt} {state : JobState} (pending : fresh.state = .pending)
    (reached : state ∈ fresh.state :: fresh.entered made) :
    (state.passed ++ [state]).Sublist (fresh.state :: fresh.entered made) := by
  obtain ⟨front, back, cut⟩ := List.append_of_mem reached
  have before := passed_sublist_of_isChain (isChain_entered fresh made) (congrArg some pending) cut
  rw [cut]
  apply before.append
  exact List.singleton_sublist.mpr List.mem_cons_self

/-- Any sequence of calls on a new attempt, with any target states and versions. -/
theorem attempts_well_formed (attemptId : AttemptId) (jobId : JobId)
    (attemptNumber : Nat) (catalogGeneration : CatalogGeneration)
    (configGeneration : ConfigGeneration) (now : UnixTimestamp) (made : List JobCall) :
    WellFormed (newWithGenerations attemptId jobId attemptNumber
      catalogGeneration configGeneration now) made := by
  generalize fresh : newWithGenerations attemptId jobId attemptNumber
    catalogGeneration configGeneration now = attempt
  have pending : attempt.state = .pending := by rw [← fresh]; rfl
  have start : attempt.Sound := by rw [← fresh]; exact ⟨Nat.le_refl 1, rfl⟩
  have sound := start.after made
  refine {
    failed := ?_, raised := ?_, wins_once := ?_, finished := sound.finished,
    ended := ?_, entered_once := nodup_of_isChain (isChain_entered attempt made),
    executing := sublist_entered pending, completed := ?_ }
  · intro call text refused
    rcases step_cases (calls.after attempt made) call with ⟨_, same⟩ | ⟨_, done, -⟩
    · rw [same]
    · rw [done] at refused
      cases refused
  · intro call succeeded
    rcases step_cases (calls.after attempt made) call with ⟨_, same⟩ |
      ⟨next, done, -, -, -, version, -⟩
    · rw [same] at succeeded
      cases succeeded
    · rw [done]
      exact version.trans sound.version_succ
  · intro version
    exact countP_wins_le start version made
  · intro terminal call succeeded
    rcases step_cases (calls.after attempt made) call with ⟨_, same⟩ | ⟨_, -, edge, -⟩
    · rw [same] at succeeded
      cases succeeded
    · rw [JobState.not_canTransitionTo_of_isTerminal terminal] at edge
      cases edge
  · intro reached
    apply List.Sublist.trans _ (sublist_entered pending reached)
    simp [JobState.passed]

end JobAttempt

end CacheCleaner
