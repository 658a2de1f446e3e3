import CacheCleaner.Executor.Crash
import CacheCleaner.Recovery.Whole

namespace CacheCleaner

/-! Crash consistency: an execution that dies at any point, followed by a
recovery on the tree it left. -/

open Effect Effect.Program

namespace Fs

def Presence.intentState : Presence → IntentState
  | .gone => .verifiedSuccess
  | .present => .verifiedFailed
  | .unreachable => .resolvedUnknown

def Presence.rowStatus : Presence → OperationRowStatus
  | .gone => .success
  | .present => .failed
  | .unreachable => .skipped

end Fs

namespace RecoveryEngine

theorem judge_inspectBeneath (intent : OperationIntent) (fs : Fs)
    (openat2 : Bool) (expected : FileIdentity)
    (valid : Fs.validateSingleComponent leaf = true) (directory : FileIdentity)
    (names : List String) : (judge intent (PostconditionVerifier.inspectBeneath fs openat2 expected
        leaf directory names)).state =
      (fs.presenceBeneath openat2 leaf directory names).intentState := by
  induction names generalizing directory with
  | nil =>
    simp only [PostconditionVerifier.inspectBeneath, Fs.presenceBeneath,
      Fs.statChild, valid, if_true]
    cases fs.child directory leaf with
    | none => rfl
    | some entry =>
      simp only [PostconditionVerifier.classifyStat]
      split <;> rfl
  | cons name rest ih =>
    simp only [PostconditionVerifier.inspectBeneath, Fs.presenceBeneath]
    cases fs.openChild openat2 directory name with
    | ok child => exact ih child
    | error errno => cases errno <;> rfl

theorem judge_inspect :
    (judge intent (PostconditionVerifier.inspect fs openat2 basePath path expected)).state =
      (fs.presence openat2 basePath path).intentState := by
  unfold PostconditionVerifier.inspect Fs.presence
  cases fs.openRoot basePath with
  | error errno => rfl
  | ok root =>
    cases named : path.leafName? with
    | none => rfl
    | some leaf =>
      exact judge_inspectBeneath intent fs openat2 expected (Fs.validateSingleComponent_of_mem_names
          (List.mem_of_getLast? named)) root path.parentNames

end RecoveryEngine

theorem RelativePath.parse_raw
    (read : RelativePath.parse path.raw = some parsed) : parsed = path := by
  have raw := RelativePath.raw_parse read
  cases parsed
  cases path
  cases raw
  rfl

theorem TargetId.new?_val {target read : TargetId}
    (accepted : TargetId.new? target.val = some read) : read = target := by
  unfold TargetId.new? at accepted
  split at accepted
  · cases accepted
  · cases accepted
    rfl

namespace CleanupExecutor

variable {row : IntentRow}

def estimate (op : PlannedOperation) : Nat :=
  match deletion? op.opType with
  | none => 0
  | some deletion => deletion.estimated

/-- What an execution starts from: a fresh running attempt on a store that
reads back, and operations reached through real directories of one device. -/
structure Launch (env : Env) (authorized : AuthorizedPlan)
    (catalog : CatalogSnapshot) (attempt : AttemptId) (world : World) : Prop where
  addressed : ∀ op ∈ authorized.plan.operations, ∀ {deletion target},
    deletion? op.opType = some deletion → catalog.get deletion.targetId = some target →
    ∃ directory name, Addresses env world.fs deletion target directory name
  named : ∀ op ∈ authorized.plan.operations, ∀ {deletion}, deletion? op.opType = some deletion →
    (TargetId.new? deletion.targetId.val).isSome = true
  bounded : (authorized.plan.operations.map estimate).sum ≤ sqliteMax
  fresh : ∀ row ∈ world.store.intents.rows, row.attemptId ≠ attempt
  running : ∃ row ∈ world.store.attempts.rows, row.attemptId = attempt ∧ row.state = .running
  sound : world.store.Sound
  legible : world.store.Legible

variable {env : Env} {authorized : AuthorizedPlan} {catalog : CatalogSnapshot}
  {attempt : AttemptId} {world crashed : World}

theorem Logged.attemptId_eq (logged : Logged context op row) : row.attemptId = context.attempt := by
  obtain ⟨progress, deletion, target, committedAt, state, resolvedAt, -, rfl⟩ := logged.intent
  rfl

theorem Logged.estimated (logged : Logged context op row) : row.estimatedBytes = estimate op := by
  obtain ⟨progress, deletion, target, committedAt, state, resolvedAt, admitted,
    rfl⟩ := logged.intent
  simp only [estimate, admitted.asks]
  rfl

theorem forall₂_mem_right (related : List.Forall₂ relation left right)
    (mem : item ∈ right) : ∃ source ∈ left, relation source item := by
  induction related with
  | nil => cases mem
  | cons head tail ih =>
    rcases List.mem_cons.mp mem with rfl | mem
    · exact ⟨_, by simp, head⟩
    · obtain ⟨source, inside, holds⟩ := ih mem
      exact ⟨source, by simp [inside], holds⟩

theorem Journal.row_cases (journal : Journal env world.fs ⟨authorized, catalog, attempt⟩ world.store
      authorized.plan.operations crashed) (mem : row ∈ crashed.store.intents.rows) :
    row ∈ world.store.intents.rows ∨ ∃ op ∈ authorized.plan.operations,
      Logged ⟨authorized, catalog, attempt⟩ op row := by
  obtain ⟨chosen, added, sublist, rows, related⟩ := journal.appended
  rw [rows, List.mem_append] at mem
  refine mem.imp_right fun inside => ?_
  obtain ⟨op, chosenMember, logged⟩ := forall₂_mem_right related inside
  exact ⟨op, sublist.subset chosenMember, logged⟩

theorem Journal.sound (journal : Journal env world.fs ⟨authorized, catalog, attempt⟩ world.store
      authorized.plan.operations crashed) (sound : world.store.Sound) : crashed.store.Sound where
  intents := by
    intro row mem
    rcases journal.row_cases mem with old | ⟨op, -, logged⟩
    · exact sound.intents row old
    · exact logged.columns
  attempts := by
    intro row mem
    rw [journal.attempts] at mem
    unfold Store.hasJob
    rw [journal.jobs]
    exact sound.attempts row mem

theorem Journal.legible (journal : Journal env world.fs ⟨authorized, catalog, attempt⟩ world.store
      authorized.plan.operations crashed) (launch : Launch env authorized catalog attempt world) :
    crashed.store.Legible where
  targets := by
    intro row mem
    rcases journal.row_cases mem with old | ⟨op, planned, logged⟩
    · exact launch.legible.targets row old
    · obtain ⟨progress, deletion, target, committedAt, state, resolvedAt,
        admitted, rfl⟩ := logged.intent
      exact launch.named op planned admitted.asks
  totals := by
    intro other
    obtain ⟨chosen, added, sublist, rows, related⟩ := journal.appended
    have mine : ∀ row ∈ added, row.attemptId = attempt := by
      intro row mem
      obtain ⟨op, -, logged⟩ := forall₂_mem_right related mem
      exact logged.attemptId_eq
    unfold Store.intentsForAttempt
    rw [rows, List.filter_append, List.map_append, List.sum_append]
    by_cases same : other = attempt
    · subst same
      have none : world.store.intents.rows.filter (fun row => row.attemptId = other) = [] := by
        rw [List.filter_eq_nil_iff]
        intro row mem
        simpa using launch.fresh row mem
      have all : added.filter (fun row => row.attemptId = other) = added := by
        rw [List.filter_eq_self]
        intro row mem
        simpa using mine row mem
      have estimates : added.map IntentRow.estimatedBytes = chosen.map estimate := by
        clear rows mine all
        induction related with
        | nil => rfl
        | cons head tail ih =>
          rw [List.map_cons, List.map_cons, head.estimated,
            ih ((List.sublist_cons_self _ _).trans sublist)]
      rw [none, all, estimates]
      refine le_trans ?_ launch.bounded
      simpa using (sublist.map estimate).sum_le_sum fun _ _ => Nat.zero_le _
    · have none : added.filter (fun row => row.attemptId = other) = [] := by
        rw [List.filter_eq_nil_iff]
        intro row mem
        simpa [mine row mem] using Ne.symm same
      rw [none]
      simpa [Store.intentsForAttempt] using launch.legible.totals other

end CleanupExecutor

namespace RecoveryEngine

open CleanupExecutor

/-- The state an intent ends in: decided by what became of its object, as long
as its base opens and its path reads back. -/
def expectedState (fs : Fs) (deletion : Deletion) (target : TargetDescriptor)
    (directory : FileIdentity) (name : String) : IntentState :=
  if (fs.openRoot target.basePath).isOk ∧ (RelativePath.parse deletion.relPath.raw).isSome then
    if fs.child directory name = none then .verifiedSuccess else .verifiedFailed
  else .resolvedUnknown

theorem rowState_logged {disk : Disk}
    (kernel : disk.openat2 = env.openat2) (below : Fs.Below disk.fs origin)
    (hollow : Fs.Hollow origin disk.fs)
    (named : (TargetId.new? deletion.targetId.val).isSome = true)
    (addressed : Addresses env origin deletion target directory name)
    (found : disk.snapshot.get deletion.targetId = some same)
    (base : same.basePath = target.basePath) : disk.rowState
        (loggedRow context op deletion committedAt state resolvedAt) =
      expectedState disk.fs deletion target directory name := by
  obtain ⟨read, accepted⟩ := Option.isSome_iff_exists.mp named
  cases TargetId.new?_val accepted
  have there := Fs.presence_of_address below hollow addressed
  unfold Disk.rowState Store.decodeIntent
  simp only [loggedRow, Store.intentRow, intentOf, accepted, Option.map_some,
    Disk.state, Disk.verdict?, found, judge_inspect, base, kernel]
  unfold expectedState
  cases parsed : RelativePath.parse deletion.relPath.raw with
  | none =>
    simp only [Option.getD_none, Option.isSome_none, Bool.false_eq_true, and_false, if_false]
    have leafless : RelativePath.empty.leafName? = none := by decide
    unfold Fs.presence
    rw [leafless]
    split
    · contradiction
    · rfl
  | some path =>
    cases RelativePath.parse_raw parsed
    simp only [Option.getD_some, Option.isSome_some, and_true, there]
    split
    · split <;> rfl
    · rfl

theorem allSucceeded_foldl (disk : Disk) (intents : List OperationIntent) (tally : Tally) :
    (intents.foldl disk.count tally).allSucceeded = true ↔ tally.allSucceeded = true ∧
        ∀ intent ∈ intents, disk.state intent = .verifiedSuccess := by
  induction intents generalizing tally with
  | nil => simp
  | cons intent rest ih =>
    have step : (disk.count tally intent).allSucceeded = true ↔ tally.allSucceeded = true ∧
          disk.state intent = .verifiedSuccess := by
      unfold Disk.count Disk.state
      cases disk.verdict? intent with
      | none => simp [Tally.lost]
      | some verdict =>
        obtain ⟨state, status, reclaimed⟩ := verdict
        cases state <;> simp [Tally.count]
    rw [List.foldl_cons, ih, step]
    simp [and_assoc]

theorem attemptState_eq_reconciled {tally : Tally} :
    tally.attemptState = .reconciled ↔ tally.allSucceeded = true := by
  unfold Tally.attemptState
  split
  · simp_all
  · split <;> simp_all

/-- Wherever an execution dies, what it removed is in the intent log, and
recovery on the tree it left settles every intent of the attempt by what became
of its object. -/
theorem crash_then_recovery_settles {env later : Env}
    (reliable : later.Reliable) (kernel : later.openat2 = env.openat2)
    {authorized : AuthorizedPlan} {catalog snapshot : CatalogSnapshot}
    {attempt : AttemptId} {world : World} (launch : Launch env authorized catalog attempt world)
    (kept : ∀ {id target}, catalog.get id = some target →
      ∃ same, snapshot.get id = some same ∧ same.basePath = target.basePath)
    (config : ConfigGeneration) (count : Nat) :
    let context : Context := ⟨authorized, catalog, attempt⟩
    let crashed := (executePlan authorized catalog config attempt).stateAfter
      env.handler count world
    (∀ {directory name entry}, world.fs.child directory name = some entry →
      crashed.fs.child directory name = none → ∃ op ∈ authorized.plan.operations, ∃ deletion target,
        Names env world.fs context op deletion target directory name ∧
        entry.node = deletion.expected ∧
        ∃ row ∈ crashed.store.intents.rows, row.key = (attempt, op.opId)) ∧
    ∃ recovered final, (reconcileStartupCrashes snapshot).run later.handler crashed =
        (some (.ok recovered), final) ∧ final.fs = crashed.fs ∧
      (∀ row ∈ crashed.store.intents.rows, row.attemptId = attempt →
        ∃ op ∈ authorized.plan.operations, ∃ deletion target directory name,
          Names env world.fs context op deletion target directory name ∧ row.opId = op.opId ∧
          ∃ settled ∈ final.store.intents.rows, settled.key = row.key ∧ settled.state =
              expectedState crashed.fs deletion target directory name) ∧
      ∃ settled ∈ final.store.attempts.rows, settled.attemptId = attempt ∧
        (settled.state = .reconciled ↔ ∀ row ∈ final.store.intents.rows, row.attemptId = attempt →
            row.state = .verifiedSuccess) := by
  intro context crashed
  have journal : Journal env world.fs context world.store authorized.plan.operations crashed :=
    executePlan_journal authorized catalog config attempt world count
  refine ⟨journal.erased, ?_⟩
  have legible := journal.legible launch
  obtain ⟨result, final, ran, ⟨recovered, rfl⟩, fs, all⟩ :=
    reconcileStartupCrashes_returns reliable snapshot (journal.sound launch.sound) legible
  obtain ⟨attemptRow, listed, rfl, running⟩ := launch.running
  rw [← journal.attempts] at listed
  have uncompleted := (mem_uncompletedAttempts later.rowOrder listed).mpr running
  have chosen := List.mem_map_of_mem (f := Prod.fst) uncompleted
  refine ⟨recovered, final, ran, fs, ?_, ?_⟩
  · intro row member mine
    rcases journal.row_cases member with old | ⟨op, planned, logged⟩
    · exact absurd mine (launch.fresh row old)
    obtain ⟨settled, inside, key, state⟩ := all.exists_settled member (mine ▸ chosen)
    obtain ⟨progress, deletion, target, committedAt, old, resolvedAt, admitted,
      rfl⟩ := logged.intent
    obtain ⟨same, found, base⟩ := kept admitted.found
    obtain ⟨directory, name, addressed⟩ := launch.addressed op planned admitted.asks admitted.found
    refine ⟨op, planned, deletion, target, directory, name,
      ⟨admitted.asks, admitted.found, addressed⟩, rfl, settled, inside, key, ?_⟩
    rw [state]
    exact rowState_logged kernel journal.below journal.hollow
      (launch.named op planned admitted.asks) addressed found base
  · have located := all.attempts uncompleted (Table.find_of_mem listed)
    refine ⟨_, (Table.find_some located).1, rfl, ?_⟩
    rw [attemptState_eq_reconciled, Disk.tally, allSucceeded_foldl]
    simp only [Tally.start, true_and]
    constructor
    · intro succeeded row member mine
      obtain ⟨old, inside, key, state⟩ := all.exists_origin member
      have owner : old.attemptId = attemptRow.attemptId := (congrArg Prod.fst key).symm.trans mine
      rw [if_pos (owner ▸ chosen)] at state
      obtain ⟨intent, decoded⟩ := legible.decode inside
      rw [state, Disk.rowState, decoded]
      exact succeeded intent (Store.mem_decodedIntents.mpr ⟨old, inside, owner, decoded⟩)
    · intro succeeded intent member
      obtain ⟨row, inside, owner, decoded⟩ := Store.mem_decodedIntents.mp member
      obtain ⟨settled, settledMember, key, state⟩ := all.exists_settled inside (owner ▸ chosen)
      have done := succeeded settled settledMember ((congrArg Prod.fst key).trans owner)
      rw [state, Disk.rowState, decoded] at done
      exact done

end RecoveryEngine

theorem CleanupExecutor.Sample.launch :
    CleanupExecutor.Launch Sample.calmEnv Sample.authorized Sample.snapshot ⟨1⟩ Sample.world where
  addressed := by
    intro op mem deletion target asks found
    cases List.mem_singleton.mp mem
    cases asks
    have known : Sample.snapshot.get ⟨"t"⟩ = some Sample.target := by decide
    cases known.symm.trans found
    exact ⟨⟨1, 2⟩, "f", by unfold Addresses; decide +kernel⟩
  named := by
    intro op mem deletion asks
    cases List.mem_singleton.mp mem
    cases asks
    decide
  bounded := by decide
  fresh := by
    intro row mem
    cases mem
  running := ⟨⟨⟨1⟩, ⟨1⟩, ⟨1⟩, .running⟩, by decide, rfl, rfl⟩
  sound := ⟨fun _ mem => (List.not_mem_nil mem).elim, by decide⟩
  legible := ⟨fun _ mem => (List.not_mem_nil mem).elim, fun _ => Nat.zero_le _⟩

namespace RecoveryEngine

open CleanupExecutor

theorem sample_crash_then_recovery_settles : ∃ recovered final,
      (reconcileStartupCrashes Sample.snapshot).run Sample.calmEnv.handler
          ((executePlan Sample.authorized Sample.snapshot ⟨1⟩ ⟨1⟩).stateAfter
            Sample.calmEnv.handler 12 Sample.world) = (some (.ok recovered), final) ∧
      ∃ settled ∈ final.store.attempts.rows, settled.attemptId = ⟨1⟩ ∧
        (settled.state = .reconciled ↔ ∀ row ∈ final.store.intents.rows, row.attemptId = ⟨1⟩ →
            row.state = .verifiedSuccess) := by
  obtain ⟨-, recovered, final, ran, -, -, attempts⟩ :=
    crash_then_recovery_settles (Env.calm_reliable (by decide)) rfl
      Sample.launch (fun {id target} found => ⟨target, found, rfl⟩) ⟨1⟩ 12
  exact ⟨recovered, final, ran, attempts⟩

end RecoveryEngine

/-! A target inside another: `/x/y` with the file `f`, and `/x` with the
directory `y`, which is removed after the file. -/

namespace CleanupExecutor.Nested

def fs : Fs where
  root := ⟨1, 1⟩
  cwd := ⟨1, 1⟩
  inode := fun id =>
    if id = ⟨1, 1⟩ then
      some (.folder ⟨1, 1⟩ "x" ⟨1, 2⟩)
    else if id = ⟨1, 2⟩ then
      some (.folder ⟨1, 1⟩ "y" ⟨1, 3⟩)
    else if id = ⟨1, 3⟩ then
      some (.folder ⟨1, 2⟩ "f" ⟨1, 4⟩)
    else if id = ⟨1, 4⟩ then
      some (.file ⟨1, 3⟩ 5 0)
    else none

def outer : TargetDescriptor := ⟨⟨"outer"⟩, .appCache, "/x", 1, 2, 0, 0, none, .standardCache, ⟨2⟩⟩

def inner : TargetDescriptor :=
  ⟨⟨"inner"⟩, .appCache, "/x/y", 1, 3, 0, 0, none, .standardCache, ⟨2⟩⟩

def snapshot : CatalogSnapshot := ⟨⟨2⟩, ⟨[outer, inner], by decide⟩⟩

def file : RelativePath := (RelativePath.parse "f").getD RelativePath.empty

def directory : RelativePath := (RelativePath.parse "y").getD RelativePath.empty

def plan : PlannedPlan :=
  ⟨⟨1⟩, ⟨1⟩, ⟨2⟩, ⟨1⟩, [⟨⟨1⟩, .deleteFile ⟨"inner"⟩ file ⟨1, 4⟩ 5, [], 5⟩,
      ⟨⟨2⟩, .deleteDirEmpty ⟨"outer"⟩ directory ⟨1, 3⟩, [], 0⟩], 5⟩

def authorized : AuthorizedPlan :=
  ⟨plan, ⟨⟨1⟩, plan.operations.map fun op => op.opType.capability, ⟨2⟩, ⟨1⟩, 1000, 1300⟩⟩

def world : World := ⟨0, fs, Sample.store, []⟩

def crashed : World :=
  (executePlan authorized snapshot ⟨1⟩ ⟨1⟩).stateAfter Sample.calmEnv.handler 100 world

end CleanupExecutor.Nested

namespace RecoveryEngine

open CleanupExecutor

/-- Both objects are gone, but the base of the inner target went with them, so
its intent stays unknown and the attempt unresolved. -/
theorem nested_target_stays_unknown : Nested.fs.child ⟨1, 3⟩ "f" = some ⟨⟨1, 4⟩, false⟩ ∧
    Nested.fs.child ⟨1, 2⟩ "y" = some ⟨⟨1, 3⟩, false⟩ ∧ Nested.crashed.fs.child ⟨1, 3⟩ "f" = none ∧
    Nested.crashed.fs.child ⟨1, 2⟩ "y" = none ∧
    ((reconcileStartupCrashes Nested.snapshot).run Sample.calmEnv.handler
      Nested.crashed).1 = some (.ok 0) ∧
    (((reconcileStartupCrashes Nested.snapshot).run Sample.calmEnv.handler
      Nested.crashed).2.store.intents.rows.map fun row =>
        (row.key, row.state)) =
      [((⟨1⟩, ⟨1⟩), .resolvedUnknown), ((⟨1⟩, ⟨2⟩), .verifiedSuccess)] ∧
    (((reconcileStartupCrashes Nested.snapshot).run Sample.calmEnv.handler
      Nested.crashed).2.store.attempts.rows.map AttemptRow.state) = [.unresolved] := by
  refine ⟨by decide, by decide, ?_, ?_, ?_, ?_, ?_⟩ <;> decide +kernel

end RecoveryEngine

end CacheCleaner
