import CacheCleaner.Executor.Accounts

namespace CacheCleaner

/-! The files a run removed, as an onlooker learns of them from the exchanges:
an intent is committed, its file is unlinked, and the name is looked for.  The
onlooker also hears what the row of a job and the audit log are told. -/

open Effect Effect.Program

def Request.aside : Request → Bool
  | .unlink _ _ | .recordAudit _ | .write (.commitOperationIntent _)
  | .write (.updateIntentState _ _ _) | .write (.registerJob _ _ _ _)
  | .write (.updateJobState _ _ _) => false
  | _ => true

theorem Request.aside_of_quiet {request : Request} (quiet : request.quiet = true) :
    request.aside = true := by
  cases request <;> first | rfl | cases quiet

namespace CleanupExecutor

structure Watch where
  committed : Option OperationIntent
  /-- Unlinked, and not looked for yet. -/
  awaited : Option OperationIntent
  confirmed : List OperationIntent
  doubtful : List OperationIntent
  deriving DecidableEq

namespace Watch

def start : Watch := ⟨none, none, [], []⟩

def observe (watch : Watch) : Exchange Request Reply → Watch
  | ⟨.write (.commitOperationIntent intent), .ok ()⟩ =>
    { watch with committed := some intent }
  | ⟨.unlink _ _, .ok ()⟩ =>
    { watch with
      awaited := watch.committed
      doubtful := watch.doubtful ++ watch.awaited.toList }
  | ⟨.statChild _ _, .error .noent⟩ =>
    { watch with
      awaited := none
      confirmed := watch.confirmed ++ watch.awaited.toList }
  | ⟨.statChild _ _, _⟩ =>
    { watch with
      awaited := none
      doubtful := watch.doubtful ++ watch.awaited.toList }
  | _ => watch

def removed (watch : Watch) : List OperationIntent :=
  watch.confirmed ++ watch.doubtful ++ watch.awaited.toList

end Watch

def watched (log : Exchanges) : Watch := log.foldl Watch.observe Watch.start

def bytes (intents : List OperationIntent) : List Nat :=
  intents.map fun intent => intent.estimatedBytes

def isLost : Exchange Request Reply → Bool
  | ⟨.write (.updateIntentState _ _ _), .error _⟩ => true
  | _ => false

structure Account where
  watch : Watch
  lost : Bool
  total : Option Nat
  told : List JobResult
  completed : List Nat

namespace Account

def start : Account := ⟨.start, false, none, [], []⟩

def setTotal (job : JobId) (total : Option Nat) : StoreWrite → Option Nat
  | .registerJob other _ _ _ =>
    if other = job then some (total.getD 0) else total
  | .updateJobState other _ bytes =>
    if other = job then total.map fun _ => bytes else total
  | _ => total

def told? : Exchange Request Reply → Option JobResult
  | ⟨.recordAudit result, _⟩ => some result
  | _ => none

def completed? (job : JobId) : Exchange Request Reply → Option Nat
  | ⟨.write (.updateJobState other .completed total), .ok ()⟩ =>
    if other = job then some total else none
  | _ => none

def observe (job : JobId) (account : Account) (exchange : Exchange Request Reply) : Account where
  watch := account.watch.observe exchange
  lost := account.lost || isLost exchange
  total := (written? exchange).toList.foldl (setTotal job) account.total
  told := account.told ++ (told? exchange).toList
  completed := account.completed ++ (completed? job exchange).toList

variable {account : Account} {job : JobId} {log : Exchanges}

theorem foldl_observe : log.foldl (observe job) account =
      ⟨log.foldl Watch.observe account.watch, account.lost || log.any isLost,
        (statements log).foldl (setTotal job) account.total, account.told ++ log.filterMap told?,
        account.completed ++ log.filterMap (completed? job)⟩ := by
  induction log generalizing account with
  | nil => simp [statements]
  | cons exchange rest ih =>
    have grown {β : Type} (f : Exchange Request Reply → Option β) :
        (exchange :: rest).filterMap f = (f exchange).toList ++ rest.filterMap f := by
      rw [List.filterMap_cons]
      cases f exchange <;> rfl
    rw [List.foldl_cons, ih]
    simp only [observe, statements, grown, List.foldl_append, List.append_assoc, List.any_cons,
      Bool.or_assoc, List.foldl_cons]

theorem observe_aside (idle : account.watch.awaited = none)
    (aside : exchange.1.aside = true) : account.observe job exchange = account := by
  obtain ⟨⟨committed, awaited, confirmed, doubtful⟩, lost, total, told, completed⟩ := account
  cases idle
  obtain ⟨request, reply⟩ := exchange
  cases request with
  | unlink directory name => cases aside
  | recordAudit result => cases aside
  | write write =>
    cases write <;> first | exact absurd aside Bool.false_ne_true | cases reply <;> simp [observe,
      Watch.observe, isLost, written?, setTotal, told?, completed?]
  | statChild directory name =>
    have same : Watch.observe ⟨committed, none, confirmed, doubtful⟩
        ⟨.statChild directory name, reply⟩ = ⟨committed, none, confirmed, doubtful⟩ := by
      unfold Watch.observe
      split <;> simp_all
    simp [observe, same, isLost, written?, told?, completed?]
  | _ => simp [observe, Watch.observe, isLost, written?, told?, completed?]

theorem foldl_aside (idle : account.watch.awaited = none)
    (aside : ∀ exchange ∈ log, exchange.1.aside = true) :
    log.foldl (observe job) account = account := by
  induction log with
  | nil => rfl
  | cons exchange rest ih =>
    obtain ⟨here, later⟩ := List.forall_mem_cons.mp aside
    rw [List.foldl_cons, observe_aside idle here, ih later]

/-- The account after turns that removed files, confirmed to be gone or not. -/
def learn (account : Account) (committed : Option OperationIntent)
    (sure unsure : List OperationIntent) (lost : Bool) : Account :=
  { account with
    watch := ⟨committed, none, account.watch.confirmed ++ sure, account.watch.doubtful ++ unsure⟩
    lost := account.lost || lost }

theorem learn_nothing (idle : account.watch.awaited = none) :
    account.learn account.watch.committed [] [] false = account := by
  obtain ⟨⟨committed, awaited, confirmed, doubtful⟩, lost, total, told, completed⟩ := account
  cases idle
  simp [learn]

theorem learn_learn : (account.learn committed sure unsure false).learn committed' sure' unsure'
      halted = account.learn committed' (sure ++ sure') (unsure ++ unsure') halted := by
  simp [learn]

end Account

open Account

section

variable {account : Account} {job : JobId} {context : Context} {op : PlannedOperation}
  {progress : Progress} {log : Exchanges} {result : Result Progress}

theorem Silent.observed (silent : Silent log) (idle : account.watch.awaited = none) :
    log.foldl (observe job) account = account :=
  foldl_aside idle fun exchange mem => Request.aside_of_quiet (silent exchange mem)

theorem observe_commits (idle : account.watch.awaited = none) :
    account.observe job (commits context name deletion now (.ok ())) =
      account.learn (some (intentOf context name deletion now)) [] [] false := by
  simp [observe, learn, commits, Watch.observe, isLost, written?, setTotal, told?, completed?, idle]

theorem observe_marks (reply : Result Unit) :
    (account.learn committed sure unsure false).observe job (marks context name state reply) =
      account.learn committed sure unsure (!reply.isOk) := by
  cases reply <;> simp [observe, learn, marks, Watch.observe, isLost, written?,
    setTotal, told?, completed?, Except.isOk, Except.toBool]

theorem Marked.observed (marked : Marked context op deletion front) (job : JobId)
    (idle : account.watch.awaited = none) : ∃ intent, intent.estimatedBytes = deletion.estimated ∧
      front.foldl (observe job) account = account.learn (some intent) [] [] false := by
  cases marked with
  | intro now gates opens =>
    refine ⟨intentOf context op.opId deletion now, rfl, ?_⟩
    simp only [List.foldl_append, gates.observed idle, List.foldl_cons, List.foldl_nil,
      observe_commits idle, observe_marks]
    exact opens.observed rfl

theorem Removal.observed (removal : Removal kind parent leaf middle mutation)
    (seen : Except Errno FileIdentity) : (middle ++ [verifies parent leaf seen]).foldl (observe job)
      (account.learn (some intent) [] [] false) =
        let file := kind = .file ∧ mutation.isOk = true
        account.learn (some intent) (if file ∧ seen = .error .noent then [intent] else [])
          (if file ∧ seen ≠ .error .noent then [intent] else []) false := by
  have looks (account : Account) (idle : account.watch.awaited = none) :
      account.observe job (verifies parent leaf seen) = account := observe_aside idle rfl
  cases removal with
  | refused silent =>
    rw [List.foldl_append, silent.observed rfl]
    simpa [Except.isOk, Except.toBool] using looks _ rfl
  | called silent reply =>
    rw [List.foldl_append, List.foldl_append, silent.observed rfl]
    cases reply with
    | error errno =>
      have kept : (account.learn (some intent) [] [] false).observe job
          (removes kind parent leaf (.error errno)) = account.learn (some intent) [] [] false := by
        cases kind <;> simp [observe, removes, Watch.observe, isLost, written?, told?, completed?]
      simpa [kept, Except.isOk, Except.toBool, Except.mapError] using looks _ rfl
    | ok done =>
      cases kind with
      | directory =>
        have kept : (account.learn (some intent) [] [] false).observe job
            (removes .directory parent leaf (.ok ())) =
              account.learn (some intent) [] [] false := observe_aside rfl rfl
        simpa [kept] using looks _ rfl
      | file =>
        by_cases gone : seen = .error .noent
        · simp [gone, observe, learn, removes, verifies, Watch.observe, isLost,
            written?, told?, completed?, Except.isOk, Except.toBool, Except.mapError]
        · simp [gone, observe, learn, removes, Watch.observe, isLost, written?,
            told?, completed?, Except.isOk, Except.toBool, Except.mapError, verifies]

theorem Marked.learned (marked : Marked context op deletion front)
    (removal : Removal deletion.kind parent leaf middle mutation)
    (asks : deletion? op.opType = some deletion) (idle : account.watch.awaited = none)
    (seen : Except Errno FileIdentity) (writes : Writes back) : ∃ committed sure unsure,
      (front ++ middle ++ [verifies parent leaf seen]).foldl (observe job) account =
          account.learn committed sure unsure false ∧
        bytes sure = if confirmed (front ++ middle ++ [verifies parent leaf seen] ++ back)
          then [op.opType.estimatedSize] else [] := by
  obtain ⟨intent, size, known⟩ := marked.observed job idle
  have upTo : (middle ++ [verifies parent leaf seen]).foldl (observe job)
      (account.learn (some intent) [] [] false) = _ := removal.observed seen
  rw [← known, ← List.foldl_append, ← List.append_assoc] at upTo
  refine ⟨_, _, _, upTo, ?_⟩
  rw [confirmed_mutation marked removal writes, (deletion?_facts asks).2, ← size]
  simp only [bytes, Bool.and_eq_true, decide_eq_true_eq]
  split <;> rfl

theorem Report.learned (report : Report context op progress log result)
    (idle : account.watch.awaited = none) : ∃ committed sure unsure,
      log.foldl (observe job) account = account.learn committed sure unsure (!result.isOk) ∧
        bytes sure = if confirmed log then [op.opType.estimatedSize] else [] := by
  have nothing (kept : unlinked log = false) : bytes [] =
      if confirmed log then [op.opType.estimatedSize] else [] := by
    rw [confirmed, kept]
    rfl
  cases report with
  | skipped status unsuccessful silent | failed error silent =>
    exact ⟨_, [], [], (silent.observed idle).trans (learn_nothing idle).symm,
      nothing silent.unlinked⟩
  | uncommitted deletion now refusal error fulfilled silent =>
    refine ⟨_, [], [], Eq.trans ?_ (learn_nothing idle).symm, nothing ?_⟩
    · rw [List.foldl_append, silent.observed idle]
      simp [observe, commits, Watch.observe, isLost, written?, told?, completed?]
    · rw [unlinked_append, silent.unlinked]
      rfl
  | unmarked deletion now error fulfilled silent =>
    refine ⟨some (intentOf context op.opId deletion now), [], [], ?_, nothing ?_⟩
    · simp only [List.foldl_append, silent.observed idle, List.foldl_cons, List.foldl_nil,
        observe_commits idle, observe_marks]
      rfl
    · simp only [unlinked_append, silent.unlinked]
      rfl
  | abandoned deletion error fulfilled marked =>
    obtain ⟨intent, -, known⟩ := marked.observed job idle
    exact ⟨_, [], [], known, nothing marked.unlinked⟩
  | unsettled deletion parent leaf mutation seen state error fulfilled asks marked removal =>
    have writes : Writes [marks context op.opId state (.error error)] := by
      intro exchange mem
      exact ⟨_, _, List.mem_singleton.mp mem⟩
    obtain ⟨committed, sure, unsure, known, size⟩ := marked.learned removal asks idle seen writes
    refine ⟨committed, sure, unsure, ?_, size⟩
    rw [List.foldl_append, known]
    exact observe_marks _
  | finished deletion parent leaf mutation seen settlement cache reply fulfilled
      asks marked removal settles =>
    obtain ⟨committed, sure, unsure, known, size⟩ := marked.learned removal asks idle seen
      (.settling context op deletion settlement reply)
    rw [List.append_assoc _ [marks ..]]
    refine ⟨committed, sure, unsure, ?_, size⟩
    rw [List.foldl_append, known, List.singleton_append, List.foldl_cons, observe_marks]
    exact observe_aside rfl rfl

end

section

variable {context : Context} {operations : List PlannedOperation}
  {progress : Progress} {records : List TurnRecord} {result : Result Progress}

theorem Course.learned (course : Course context operations progress records result)
    (bounded : progress.totalReclaimed ≤ u64Max) (job : JobId) {account : Account}
    (idle : account.watch.awaited = none) : ∃ committed sure unsure,
      (records.flatMap TurnRecord.log).foldl (observe job) account =
        account.learn committed sure unsure (!result.isOk) ∧ ∀ final, result = .ok final →
          final.totalReclaimed = (bytes sure).foldl saturatingAdd progress.totalReclaimed := by
  induction course generalizing account with
  | done progress =>
    refine ⟨_, [], [], (learn_nothing idle).symm, ?_⟩
    rintro final ⟨⟩
    rfl
  | @turn op rest progress middle log records result report later ih =>
    have entry := report.entry bounded
    obtain ⟨committed, sure, unsure, known, size⟩ := report.learned idle
    obtain ⟨committed', sure', unsure', learned, total⟩ := ih entry.bounded
      (rfl : (account.learn committed sure unsure false).watch.awaited = none)
    refine ⟨committed', sure ++ sure', unsure ++ unsure', ?_, fun final ok => ?_⟩
    · rw [List.flatMap_cons, List.foldl_append, known]
      exact learned.trans learn_learn
    · have sizes : bytes (sure ++ sure') = bytes sure ++ bytes sure' := List.map_append
      rw [total final ok, entry.total, credit, sizes, size, List.foldl_append]
      split
      · rfl
      · rw [saturatingAdd_zero bounded]
        rfl
  | @halt op rest progress log error report =>
    obtain ⟨committed, sure, unsure, known, -⟩ := report.learned idle
    rw [List.flatMap_singleton]
    exact ⟨committed, sure, unsure, known, fun _ ok => by cases ok⟩

theorem executeOperations_course (context : Context)
    (operations : List PlannedOperation) (progress : Progress) : Paths (fun log result => ∃ records,
        Course context operations progress records result ∧ log = records.flatMap TurnRecord.log)
      (executeOperations context operations progress) := by
  induction operations generalizing progress with
  | nil => exact ⟨[], .done progress, rfl⟩
  | cons op rest ih =>
    refine (executeOperation_report context op progress).paths.bind ?_
    intro log result report
    rw [List.nil_append] at report
    cases result with
    | error error =>
      refine ⟨_, .halt report, ?_⟩
      rw [List.flatMap_singleton, List.append_nil]
    | ok middle =>
      refine (ih middle).mono id (fun _ => id) ?_
      rintro later result ⟨records, course, rfl⟩
      exact ⟨_, .turn report course, rfl⟩

end

end CleanupExecutor

end CacheCleaner
