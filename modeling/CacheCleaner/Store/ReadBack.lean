import CacheCleaner.Engine.Canonical
import CacheCleaner.Engine.Scanners
import CacheCleaner.Store.Columns

namespace CacheCleaner

namespace RelativePath

theorem size_pathJoin (path sub : String) :
    (pathJoin path sub).utf8ByteSize ≤ path.utf8ByteSize + 1 + sub.utf8ByteSize := by
  have slash : "/".utf8ByteSize = 1 := by decide
  unfold pathJoin
  split
  · omega
  · split
    · rw [String.utf8ByteSize_append]
      omega
    · rw [String.utf8ByteSize_append, String.utf8ByteSize_append]
      omega

theorem size_of_parse
    (valid : Fs.validateSingleComponent name = true) (parsed : parse name = some path) :
    name.utf8ByteSize ≤ 255 := by
  have single := singleName_of_valid valid
  unfold parse at parsed
  rw [if_neg single.nonempty] at parsed
  simp only [Option.dite_none_right_eq_some, Option.ite_none_right_eq_some,
    Option.ite_none_left_eq_some, Option.some.injEq] at parsed
  obtain ⟨-, -, -, -, limits, -⟩ := parsed
  rw [components_single single.slash single.nonempty single.dot single.dots] at limits
  simpa [withinLimits] using limits

theorem limits_joins {path joined : RelativePath} {names : List String}
    (valid : ∀ name ∈ names, Fs.validateSingleComponent name = true)
    (made : path.joins names = some joined) :
    joined.raw.utf8ByteSize ≤ path.raw.utf8ByteSize + 256 * names.length ∧
      ∀ name ∈ names, name.utf8ByteSize ≤ 255 := by
  induction names generalizing path with
  | nil =>
    cases made
    exact ⟨Nat.le_refl _, List.forall_mem_nil _⟩
  | cons name rest ih =>
    obtain ⟨next, first, others⟩ := Option.bind_eq_some_iff.mp made
    obtain ⟨total, each⟩ := ih (fun other mem => valid other (List.mem_cons_of_mem _ mem)) others
    obtain ⟨sub, parsed, -⟩ := Option.map_eq_some_iff.mp first
    have small := size_of_parse (valid name (List.mem_cons_self ..)) parsed
    have grown := size_pathJoin path.raw name
    rw [← join_raw first] at grown
    refine ⟨?_, List.forall_mem_cons.mpr ⟨small, each⟩⟩
    rw [List.length_cons]
    omega

theorem parse_joins {path : RelativePath} {names : List String}
    (valid : ∀ name ∈ names, Fs.validateSingleComponent name = true)
    (short : names.length ≤ 16) (made : empty.joins names = some path) :
    parse path.raw = some path := by
  obtain ⟨total, each⟩ := limits_joins valid made
  have whole : path.names = names := names_joins valid made
  have none : empty.raw.utf8ByteSize = 0 := by decide
  refine parse_raw_iff.mpr ⟨by omega, withinLimits_iff.mpr ?_⟩
  rw [whole]
  exact ⟨by omega, each⟩

end RelativePath

def FromScan (path : RelativePath) : Prop :=
  ∃ (env : Env) (world : World) (target : TargetDescriptor) (nextId : Nat)
    (result : CandidateScanner.ScanResult × Nat) (final : World), world.fs.Named ∧
      (CandidateScanner.scanTargetWithResource target nextId).run env.handler world =
        (some result, final) ∧ ∃ candidate ∈ result.1.candidates, candidate.relPath = path

theorem FromScan.parse {path : RelativePath} (scanned : FromScan path) :
    RelativePath.parse path.raw = some path := by
  obtain ⟨env, world, target, nextId, result, final, named, ran, candidate, mem, rfl⟩ := scanned
  have seen := (CandidateScanner.scanTargetWithResource_sees nextId).run_post
    (Effect.Program.Answered.always _ _ fun _ _ => trivial) ran
  obtain ⟨found, inside, same⟩ := seen.2 candidate mem
  have path : candidate.relPath = found.path := congrArg Candidate.relPath same
  rw [path]
  unfold Fs.reachTarget at inside
  split at inside
  · cases inside
  · obtain ⟨names, passes, short, made⟩ := Fs.mem_reach_iff.mp inside
    exact RelativePath.parse_joins (passes.valid named) short made

namespace IntentTable

abbrev Entry := Nat × OperationIntent

def stored (entry : Entry) : IntentColumns :=
  { columns entry.1 entry.2 with resolvedAt := entry.2.resolvedAt }

/-- What the types of an intent that is stored allow for. -/
structure Sourced (intent : OperationIntent) : Prop where
  discovered : ∃ text, TargetId.tryNew text = some intent.targetId
  scanned : FromScan intent.relPath

def newline (intent : OperationIntent) : Bool := containsChar intent.targetId.val '\n'

theorem new?_of_tryNew (made : TargetId.tryNew text = some target) : TargetId.new? target.val =
      if containsChar target.val '\n' then none else some target := by
  unfold TargetId.tryNew at made
  split at made
  · cases made
  · rename_i fine
    cases made
    unfold TargetId.new?
    rw [Bool.not_eq_true] at fine
    rw [fine, Bool.false_or]

theorem decode_stored (sourced : Sourced entry.2) :
    decode (stored entry) = if newline entry.2 then none else some entry := by
  obtain ⟨text, made⟩ := sourced.discovered
  unfold decode
  change (TargetId.new? entry.2.targetId.val).map _ = _
  rw [new?_of_tryNew made, newline]
  split
  · rfl
  · simp only [stored, columns, sourced.scanned.parse, Option.map_some, Option.getD_some,
      MutationType.ofColumn_display, IntentState.ofColumn_display]

theorem mapM_decode {entries : List Entry} (sourced : ∀ entry ∈ entries, Sourced entry.2)
    (clear : ∀ entry ∈ entries, newline entry.2 = false) :
    (entries.map stored).mapM decode = some entries := by
  induction entries with
  | nil => rfl
  | cons entry rest ih =>
    obtain ⟨first, others⟩ := List.forall_mem_cons.mp clear
    obtain ⟨made, later⟩ := List.forall_mem_cons.mp sourced
    rw [List.map_cons, List.mapM_cons, decode_stored made, first, ih later others]
    rfl

theorem clear_of_mapM_decode {entries listed : List Entry}
    (sourced : ∀ entry ∈ entries, Sourced entry.2)
    (read : (entries.map stored).mapM decode = some listed) :
    ∀ entry ∈ entries, newline entry.2 = false := by
  induction entries generalizing listed with
  | nil => exact List.forall_mem_nil _
  | cons entry rest ih =>
    obtain ⟨made, later⟩ := List.forall_mem_cons.mp sourced
    rw [List.map_cons, List.mapM_cons] at read
    obtain ⟨value, first, read⟩ := Option.bind_eq_some_iff.mp read
    obtain ⟨values, others, -⟩ := Option.bind_eq_some_iff.mp read
    rw [decode_stored made, Option.ite_none_left_eq_some] at first
    exact List.forall_mem_cons.mpr ⟨Bool.eq_false_iff.mpr first.1, ih later others⟩

structure Keeps (table : IntentTable) (history : List Entry) : Prop where
  rows : table.rows.rows = history.map stored
  sourced : ∀ entry ∈ history, Sourced entry.2

def forget (entry : Entry) : Entry := (entry.1, { entry.2 with resolvedAt := none })

def revise (attempt : AttemptId) (op : OperationId) (state : IntentState)
    (now : UnixTimestamp) (entry : Entry) : Entry :=
  if entry.2.attemptId = attempt ∧ entry.2.opId = op then
    (entry.1, { entry.2 with state, resolvedAt := some now })
  else entry

section

variable {table after : IntentTable} {history : List Entry} {intent : OperationIntent} {id : Nat}

theorem Keeps.commit (keeps : Keeps table history) (sourced : Sourced intent)
    (accepted : table.commitOperationIntent intent = .ok (id, after)) :
    Keeps after (history ++ [forget (id, intent)]) := by
  obtain ⟨-, rfl, inserted⟩ := commit_ok accepted
  constructor
  · rw [inserted.rows, keeps.rows, List.map_append]
    rfl
  · intro entry mem
    rcases List.mem_append.mp mem with old | new
    · exact keeps.sourced entry old
    · rw [List.mem_singleton.mp new]
      exact ⟨sourced.discovered, sourced.scanned⟩

theorem Keeps.update (keeps : Keeps table history)
    (updated : table.updateIntentState attempt op state.display now = .ok after) :
    Keeps after (history.map (revise attempt op state now)) := by
  unfold updateIntentState at updated
  split at updated
  · cases updated
    constructor
    · simp only [Table.update, keeps.rows, List.map_map]
      apply List.map_congr_left
      intro entry _
      obtain ⟨attempt⟩ := attempt
      obtain ⟨op⟩ := op
      obtain ⟨id, intent⟩ := entry
      obtain ⟨job, ⟨attempt'⟩, ⟨op'⟩⟩ := intent
      by_cases chosen : attempt' = attempt ∧ op' = op
      · simp [revise, stored, columns, chosen]
      · simp [revise, stored, columns, chosen]
    · intro entry mem
      obtain ⟨old, inside, rfl⟩ := List.mem_map.mp mem
      unfold revise
      split
      · exact ⟨(keeps.sourced old inside).discovered, (keeps.sourced old inside).scanned⟩
      · exact keeps.sourced old inside
  · cases updated

def ofAttempt (attempt : AttemptId) (history : List Entry) : List Entry :=
  history.filter fun entry => entry.2.attemptId = attempt

theorem Keeps.selected (keeps : Keeps table history) (attempt : AttemptId) :
    (table.rows.rows.filter fun row => row.attemptId = attempt.val) =
      (ofAttempt attempt history).map stored := by
  rw [keeps.rows, List.filter_map, ofAttempt]
  congr 2
  funext entry
  obtain ⟨attempt⟩ := attempt
  obtain ⟨id, intent⟩ := entry
  obtain ⟨job, ⟨attempt'⟩⟩ := intent
  apply decide_eq_decide.mpr
  simp [stored, columns]

theorem Keeps.read (keeps : Keeps table history)
    (binds : Store.bindable [attempt.val] = true) : table.getOperationIntentsForAttempt attempt =
      .ok (((ofAttempt attempt history).map stored).mapM decode) := by
  rw [getOperationIntentsForAttempt, if_pos binds, keeps.selected]

end

/-- Intents committed one after the other: the accepted ones with their row ids, and
the table. -/
def commitAll : List OperationIntent → IntentTable → List Entry × IntentTable
  | [], table => ([], table)
  | intent :: rest, table =>
    match table.commitOperationIntent intent with
    | .ok (id, after) => ((id, intent) :: (commitAll rest after).1, (commitAll rest after).2)
    | .error _ => commitAll rest table

section

variable {table : IntentTable} {history : List Entry} {intents : List OperationIntent}

theorem mem_commitAll (mem : entry ∈ (commitAll intents table).1) :
    entry.2 ∈ intents ∧ Store.bindable [entry.2.attemptId.val] = true := by
  induction intents generalizing table with
  | nil => cases mem
  | cons intent rest ih =>
    unfold commitAll at mem
    split at mem
    · rename_i id after accepted
      rcases List.mem_cons.mp mem with rfl | later
      · obtain ⟨binds, -⟩ := commit_ok accepted
        simp only [Store.bindable, List.all_cons, Bool.and_eq_true] at binds
        refine ⟨List.mem_cons_self .., ?_⟩
        simp only [Store.bindable, List.all_cons, List.all_nil, Bool.and_true]
        exact binds.2.1
      · obtain ⟨inside, binds⟩ := ih later
        exact ⟨List.mem_cons_of_mem _ inside, binds⟩
    · obtain ⟨inside, binds⟩ := ih mem
      exact ⟨List.mem_cons_of_mem _ inside, binds⟩

theorem Keeps.commitAll (keeps : Keeps table history)
    (sourced : ∀ intent ∈ intents, Sourced intent) : Keeps (commitAll intents table).2
      (history ++ (IntentTable.commitAll intents table).1.map forget) := by
  induction intents generalizing table history with
  | nil =>
    rw [IntentTable.commitAll, List.map_nil, List.append_nil]
    exact keeps
  | cons intent rest ih =>
    obtain ⟨made, later⟩ := List.forall_mem_cons.mp sourced
    unfold IntentTable.commitAll
    split
    · rename_i id after accepted
      rw [List.map_cons, List.append_cons]
      exact ih (keeps.commit made accepted) later
    · exact ih keeps later

end

variable (jobs : List JobId)

theorem keeps_fresh : Keeps (fresh jobs) [] where
  rows := rfl
  sourced := List.forall_mem_nil _

/-- All accepted intents come back as they were, each attempt's in commit order. -/
def ReadsBack (intents : List OperationIntent) : Prop :=
  ∀ entry ∈ (commitAll intents (fresh jobs)).1,
    (commitAll intents (fresh jobs)).2.getOperationIntentsForAttempt entry.2.attemptId =
      .ok (some (ofAttempt entry.2.attemptId (commitAll intents (fresh jobs)).1))

theorem ofAttempt_forget :
    ofAttempt attempt (entries.map forget) = (ofAttempt attempt entries).map forget := by
  rw [ofAttempt, List.filter_map]
  rfl

theorem readsBack_iff
    (sourced : ∀ intent ∈ intents, Sourced intent) : ReadsBack jobs intents ↔
      ∀ entry ∈ (commitAll intents (fresh jobs)).1,
        newline entry.2 = false ∧ entry.2.resolvedAt = none := by
  have keeps := (keeps_fresh jobs).commitAll sourced
  have binds : ∀ entry ∈ (commitAll intents (fresh jobs)).1,
      Store.bindable [entry.2.attemptId.val] = true :=
    fun entry mem => (mem_commitAll mem).2
  rw [List.nil_append] at keeps
  unfold ReadsBack
  generalize commitAll intents (fresh jobs) = committed at keeps binds ⊢
  obtain ⟨entries, table⟩ := committed
  constructor
  · intro back entry mem
    have read := back entry mem
    rw [keeps.read (binds entry mem), Except.ok.injEq] at read
    have made : ∀ other ∈ ofAttempt entry.2.attemptId (entries.map forget), Sourced other.2 :=
      fun other inside => keeps.sourced other (List.mem_filter.mp inside).1
    have clear := clear_of_mapM_decode made read
    have same : (ofAttempt entry.2.attemptId entries).map forget =
        (ofAttempt entry.2.attemptId entries).map id := by
      rw [mapM_decode made clear, Option.some.injEq, ofAttempt_forget] at read
      rw [read, List.map_id]
    have mine : entry ∈ ofAttempt entry.2.attemptId entries :=
      List.mem_filter.mpr ⟨mem, decide_eq_true rfl⟩
    have forgotten : forget entry = entry := List.map_inj_left.mp same entry mine
    constructor
    · rw [ofAttempt_forget] at clear
      exact clear (forget entry) (List.mem_map_of_mem mine)
    · rw [← forgotten]
      rfl
  · intro clear entry mem
    have same : entries.map forget = entries.map id := by
      apply List.map_inj_left.mpr
      intro other inside
      have none := (clear other inside).2
      obtain ⟨id, intent⟩ := other
      cases intent
      cases none
      rfl
    rw [same, List.map_id] at keeps
    have read := keeps.read (binds entry mem)
    rw [mapM_decode] at read
    · exact read
    · intro other inside
      exact keeps.sourced other (List.mem_filter.mp inside).1
    · intro other inside
      exact (clear other (List.mem_filter.mp inside).1).1

inductive IntentCall where
  | commit (intent : OperationIntent)
  | update (attempt : AttemptId) (op : OperationId) (state : IntentState) (now : UnixTimestamp)

def call (table : IntentTable) : IntentCall → IntentTable
  | .commit intent =>
    match table.commitOperationIntent intent with
    | .ok (_, after) => after
    | .error _ => table
  | .update attempt op state now =>
    match table.updateIntentState attempt op state.display now with
    | .ok after => after
    | .error _ => table

def lastState (attempt : AttemptId) (op : OperationId) : IntentState → List IntentCall → IntentState
  | state, [] => state
  | state, .commit _ :: rest => lastState attempt op state rest
  | state, .update attempt' op' state' now :: rest =>
    if attempt' = attempt ∧ op' = op ∧ Store.bindable [now, attempt'.val, op'.val] = true then
      lastState attempt op state' rest
    else lastState attempt op state rest

def SameIntent (before after : OperationIntent) : Prop :=
  ∃ state resolvedAt, after = { before with state, resolvedAt }

theorem SameIntent.trans (early : SameIntent first second) (late : SameIntent second third) :
    SameIntent first third := by
  obtain ⟨state, resolvedAt, rfl⟩ := early
  obtain ⟨state', resolvedAt', rfl⟩ := late
  exact ⟨state', resolvedAt', rfl⟩

section

variable {table : IntentTable} {history : List Entry}

def Continues (history : List Entry) (calls : List IntentCall) (later : List Entry) : Prop :=
  ∀ id intent, (id, intent) ∈ history →
    ∃ intent', (id, intent') ∈ later ∧ SameIntent intent intent' ∧
      intent'.state = lastState intent.attemptId intent.opId intent.state calls

theorem lastState_cons (call : IntentCall) : lastState attempt op state (call :: rest) =
      lastState attempt op (lastState attempt op state [call]) rest := by
  cases call with
  | commit intent => rfl
  | update attempt' op' state' now =>
    simp only [lastState]
    split <;> rfl

theorem Continues.cons {middle later : List Entry} {call : IntentCall}
    (first : Continues history [call] middle)
    (others : Continues middle rest later) : Continues history (call :: rest) later := by
  intro id intent mem
  obtain ⟨intent', inside, early, state⟩ := first id intent mem
  obtain ⟨intent'', inside', late, state'⟩ := others id intent' inside
  refine ⟨intent'', inside', early.trans late, ?_⟩
  obtain ⟨_, _, rfl⟩ := early
  rw [lastState_cons, ← state]
  exact state'

theorem Keeps.call (keeps : Keeps table history) (call : IntentCall)
    (sourced : ∀ intent, call = .commit intent → Sourced intent) :
    ∃ later, Keeps (table.call call) later ∧ Continues history [call] later := by
  cases call with
  | commit intent =>
    simp only [IntentTable.call]
    cases accepted : table.commitOperationIntent intent with
    | error failure =>
      refine ⟨history, keeps, ?_⟩
      intro id intent mem
      exact ⟨intent, mem, ⟨_, _, rfl⟩, rfl⟩
    | ok pair =>
      refine ⟨_, keeps.commit (sourced intent rfl) accepted, ?_⟩
      intro id intent mem
      exact ⟨intent, List.mem_append_left _ mem, ⟨_, _, rfl⟩, rfl⟩
  | update attempt op state now =>
    simp only [IntentTable.call]
    cases updated : table.updateIntentState attempt op state.display now with
    | error failure =>
      have unbound : Store.bindable [now, attempt.val, op.val] = false := by
        unfold updateIntentState at updated
        split at updated
        · cases updated
        · rename_i failed
          exact Bool.eq_false_iff.mpr failed
      refine ⟨history, keeps, ?_⟩
      intro id intent mem
      refine ⟨intent, mem, ⟨_, _, rfl⟩, ?_⟩
      simp [lastState, unbound]
    | ok after =>
      have bound : Store.bindable [now, attempt.val, op.val] = true := by
        unfold updateIntentState at updated
        split at updated
        · assumption
        · cases updated
      refine ⟨_, keeps.update updated, ?_⟩
      intro id intent mem
      have moved : revise attempt op state now (id, intent) ∈
          history.map (revise attempt op state now) := List.mem_map_of_mem mem
      by_cases chosen : intent.attemptId = attempt ∧ intent.opId = op
      · rw [revise, if_pos chosen] at moved
        refine ⟨_, moved, ⟨_, _, rfl⟩, ?_⟩
        simp [lastState, chosen, bound]
      · rw [revise, if_neg chosen] at moved
        refine ⟨_, moved, ⟨_, _, rfl⟩, ?_⟩
        simp only [lastState]
        rw [if_neg]
        intro same
        exact chosen ⟨same.1.symm, same.2.1.symm⟩

theorem Keeps.calls (keeps : Keeps table history) (calls : List IntentCall)
    (sourced : ∀ intent, .commit intent ∈ calls → Sourced intent) :
    ∃ later, Keeps (calls.foldl IntentTable.call table) later ∧ Continues history calls later := by
  induction calls generalizing table history with
  | nil =>
    refine ⟨history, keeps, ?_⟩
    intro id intent mem
    exact ⟨intent, mem, ⟨_, _, rfl⟩, rfl⟩
  | cons call rest ih =>
    obtain ⟨middle, kept, first⟩ := keeps.call call fun intent same =>
      sourced intent (same ▸ List.mem_cons_self ..)
    obtain ⟨later, kept', others⟩ := ih kept fun intent mem =>
      sourced intent (List.mem_cons_of_mem _ mem)
    exact ⟨later, kept', first.cons others⟩

theorem lastState_read (jobs : List JobId) {before after : List IntentCall} {id : Nat}
    (sourced : ∀ intent', .commit intent' ∈ before ++ .commit intent :: after → Sourced intent')
    (committed : (before.foldl IntentTable.call (fresh jobs)).commitOperationIntent intent =
      .ok (id, accepted)) (clear : ∀ row ∈ (after.foldl IntentTable.call accepted).rows.rows,
      row.attemptId = intent.attemptId.val → containsChar row.targetId '\n' = false) :
    ∃ listed found, (after.foldl IntentTable.call accepted).getOperationIntentsForAttempt
          intent.attemptId = .ok (some listed) ∧ (id, found) ∈ listed ∧ SameIntent intent found ∧
        found.state = lastState intent.attemptId intent.opId intent.state after := by
  obtain ⟨history, kept, -⟩ := (keeps_fresh jobs).calls before fun intent mem =>
    sourced intent (List.mem_append_left _ mem)
  have made : Sourced intent := sourced intent (List.mem_append_right _ (List.mem_cons_self ..))
  obtain ⟨later, kept', continues⟩ := (kept.commit made committed).calls after fun intent mem =>
      sourced intent (List.mem_append_right _ (List.mem_cons_of_mem _ mem))
  obtain ⟨found, inside, same, state⟩ := continues id { intent with resolvedAt := none }
    (List.mem_append_right _ (List.mem_singleton_self _))
  have binds : Store.bindable [intent.attemptId.val] = true := by
    obtain ⟨bound, -⟩ := commit_ok committed
    simp only [Store.bindable, List.all_cons, List.all_nil, Bool.and_eq_true] at bound ⊢
    exact ⟨bound.2.1, trivial⟩
  have read := kept'.read binds
  rw [mapM_decode] at read
  · refine ⟨_, found, read, ?_, ?_, state⟩
    · obtain ⟨_, _, rfl⟩ := same
      exact List.mem_filter.mpr ⟨inside, decide_eq_true rfl⟩
    · obtain ⟨_, _, rfl⟩ := same
      exact ⟨_, _, rfl⟩
  · intro entry mem
    exact kept'.sourced entry (List.mem_filter.mp mem).1
  · intro entry mem
    obtain ⟨held, mine⟩ := List.mem_filter.mp mem
    apply clear (stored entry)
    · rw [kept'.rows]
      exact List.mem_map_of_mem held
    · exact congrArg AttemptId.val (of_decide_eq_true mine)

end

/-- Of intents for discovered targets and scanned paths, those that were accepted
come back unchanged and in order exactly if no target id has a newline and none was
resolved already; and after any calls, where the rows of an attempt have no newline,
each of its intents has the state that was written last. -/
theorem stored_intents_read_back :
    (∀ intents : List OperationIntent, (∀ intent ∈ intents, Sourced intent) →
      (ReadsBack jobs intents ↔ ∀ entry ∈ (commitAll intents (fresh jobs)).1,
          newline entry.2 = false ∧ entry.2.resolvedAt = none)) ∧
    ∀ (before after : List IntentCall) (intent : OperationIntent) (id : Nat)
      (accepted : IntentTable),
      (∀ intent', .commit intent' ∈ before ++ .commit intent :: after → Sourced intent') →
      (before.foldl IntentTable.call (fresh jobs)).commitOperationIntent intent =
        .ok (id, accepted) → (∀ row ∈ (after.foldl IntentTable.call accepted).rows.rows,
        row.attemptId = intent.attemptId.val → containsChar row.targetId '\n' = false) →
      ∃ listed found, (after.foldl IntentTable.call accepted).getOperationIntentsForAttempt
            intent.attemptId = .ok (some listed) ∧ (id, found) ∈ listed ∧ SameIntent intent found ∧
          found.state = lastState intent.attemptId intent.opId intent.state after := by
  constructor
  · intro intents sourced
    exact readsBack_iff jobs sourced
  · intro before after intent id accepted sourced committed clear
    exact lastState_read jobs sourced committed clear

namespace Sample

def path : RelativePath := (RelativePath.parse "f").getD RelativePath.empty

def intent (target : String) : OperationIntent :=
  ⟨⟨1⟩, ⟨1⟩, ⟨1⟩, ⟨target⟩, path, ⟨1, 2⟩, 5, .deleteFile, .committed, ⟨1⟩, ⟨1⟩, 1000, none⟩

def second : OperationIntent := { intent "u" with opId := ⟨2⟩ }

def retried : OperationIntent := { intent "t" with attemptId := ⟨2⟩ }

def updates : List IntentCall := [.update ⟨1⟩ ⟨2⟩ .mutating 1001, .commit retried,
  .update ⟨1⟩ ⟨2⟩ .verifiedSuccess 1002, .update ⟨1⟩ ⟨1⟩ .mutating 1003]

theorem fromScan : FromScan path := by
  refine ⟨CandidateScanner.Sample.env, CandidateScanner.Sample.world .regular,
    CandidateScanner.Sample.target, 1, _, _, CandidateScanner.Sample.named, rfl, ?_⟩
  decide +kernel

theorem sourced (made : TargetId.tryNew target = some ⟨target⟩) :
    Sourced (intent target) := ⟨⟨target, made⟩, fromScan⟩

end Sample

open Sample in
/-- Two intents of one attempt and one of the next; the second is updated twice. -/
theorem plain_intents_read_back :
    ReadsBack [⟨1⟩] [intent "t", second, retried] ∧
    ∃ listed found, ((.commit (intent "t") :: .commit second :: updates).foldl IntentTable.call
        (fresh [⟨1⟩])).getOperationIntentsForAttempt ⟨1⟩ = .ok (some listed) ∧
      (2, found) ∈ listed ∧ SameIntent second found ∧ found.state = .verifiedSuccess := by
  have made : ∀ other ∈ [intent "t", second, retried], Sourced other := by
    simp only [List.forall_mem_cons, List.not_mem_nil, false_implies, implies_true, and_true]
    exact ⟨sourced (by decide), ⟨⟨"u", by decide⟩, fromScan⟩, ⟨⟨"t", by decide⟩, fromScan⟩⟩
  constructor
  · apply ((stored_intents_read_back [⟨1⟩]).1 _ made).mpr
    decide +kernel
  · refine (stored_intents_read_back [⟨1⟩]).2 [.commit (intent "t")] updates second 2 _ ?_ rfl
      (by decide +kernel)
    intro other mem
    exact made other (by simpa [updates] using mem)

open Sample in
/-- The id `a`, newline, `b` passes `try_new`; reading the row panics. -/
theorem newline_intent_panics : Sourced (intent "a\nb") ∧
      (commitAll [intent "a\nb"] (fresh [⟨1⟩])).1 = [(1, intent "a\nb")] ∧
      (commitAll [intent "a\nb"] (fresh [⟨1⟩])).2.getOperationIntentsForAttempt ⟨1⟩ = .ok none := by
  refine ⟨sourced (by decide), ?_, ?_⟩
  · decide +kernel
  · rfl

def callStore (store : Store) : IntentCall → Store
  | .commit intent =>
    match Store.commitOperationIntent intent store with
    | .ok (_, after) => after
    | .error _ => store
  | .update attempt op state now =>
    match Store.updateIntentState attempt op state now store with
    | .ok (_, after) => after
    | .error _ => store

variable {table : IntentTable} {store : Store}

theorem Represents.call (represents : Represents table store) (call : IntentCall) :
    Represents (table.call call) (callStore store call) := by
  cases call with
  | commit intent =>
    have tally := represents.commit intent
    simp only [IntentTable.call, callStore]
    cases accepted : table.commitOperationIntent intent <;>
      cases accepted' : Store.commitOperationIntent intent store <;>
      rw [accepted, accepted'] at tally <;> cases tally
    · exact represents
    · assumption
  | update attempt op state now =>
    have tally := represents.update attempt op state now
    simp only [IntentTable.call, callStore]
    cases accepted : table.updateIntentState attempt op state.display now <;>
      cases accepted' : Store.updateIntentState attempt op state now store <;>
      rw [accepted, accepted'] at tally <;> cases tally
    · exact represents
    · assumption

theorem Represents.calls (represents : Represents table store) (calls : List IntentCall) :
    Represents (calls.foldl IntentTable.call table) (calls.foldl callStore store) := by
  induction calls generalizing table store with
  | nil => exact represents
  | cons call rest ih => exact ih (represents.call call)

/-- Over any calls the rows stay the decoded columns, so an attempt's intents read
the same from both tables, down to the panic. -/
theorem calls_read_alike (represents : Represents table store) (calls : List IntentCall)
    {entries : Option (List (Nat × OperationIntent))}
    (listed : (calls.foldl IntentTable.call table).getOperationIntentsForAttempt attempt =
      .ok entries) : ((calls.foldl callStore store).intentsForAttempt attempt).mapM
        Store.decodeIntent = entries.map (List.map Prod.snd) := by
  rw [(represents.calls calls).read attempt]
  unfold getOperationIntentsForAttempt at listed
  split at listed
  · cases listed
    rfl
  · cases listed

namespace Sample

def admitted : Store :=
  { Store.empty with jobs := .single ⟨⟨1⟩, "clean", .admitted, ⟨1⟩, ⟨1⟩, 0⟩ }

theorem represents_admitted : Represents (fresh [⟨1⟩]) admitted := by
  refine ⟨rfl, fun job => ?_⟩
  by_cases known : job = ⟨1⟩
  · subst known
    rfl
  · simp [hasJob, fresh, Store.hasJob, admitted, Table.find, Table.single, known, Ne.symm known]

end Sample

open Sample in
theorem committed_read_alike : (([IntentCall.commit (intent "t")].foldl callStore
      admitted).intentsForAttempt ⟨1⟩).mapM Store.decodeIntent = some [intent "t"] :=
  @calls_read_alike _ _ ⟨1⟩ represents_admitted [.commit (intent "t")]
    (some [(1, intent "t")]) (by decide +kernel)

end IntentTable

end CacheCleaner
