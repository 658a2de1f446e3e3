import CacheCleaner.Effect.Threads
import CacheCleaner.Effect.Twin
import CacheCleaner.Executor.Effect
import CacheCleaner.Fs.Crossing

namespace CacheCleaner.CleanupExecutor

open Effect Effect.Program

variable {openat2 : Bool} {entry : FileIdentity × String}

def executeOperationsAfresh (context : Context) :
    List PlannedOperation → Progress → Act (Result Progress)
  | [], progress => pure (.ok progress)
  | op :: rest, progress => do
    match ← executeOperation context op { progress with activeDirCache := none } with
    | .error error => pure (.error error)
    | .ok progress => executeOperationsAfresh context rest progress

def executePlanAfresh (authorized : AuthorizedPlan) (catalog : CatalogSnapshot)
    (config : ConfigGeneration) (attempt : AttemptId) : Act (Result JobResult) := do
  let now ← ask (.enterExecutePlan authorized catalog.generation config attempt)
  if !authorized.isAuthorizedForExecution now catalog.generation config then
    pure (.error (.safetyViolation .executionRejected))
  else
    let context : Context := ⟨authorized, catalog, attempt⟩
    match ← executeOperationsAfresh context authorized.plan.operations Progress.start with
    | .error error => pure (.error error)
    | .ok progress => pure (.ok (jobResult context progress))

/-- How requests that do not concern the tree are answered, and which calls on an
entry of an open directory fail. -/
structure Others (σ : Type) where
  answer : (request : Request) → σ → Reply request × σ
  fault : Request → σ → Option Fault × σ

/-- The tree, what was done and answered apart from opening directories, and the
rest of the surroundings. -/
structure Alone (σ : Type) where
  fs : Fs
  log : List (Exchange Request Reply)
  rest : σ

namespace Others

variable {σ : Type} (others : Others σ)

def stat (openat : FileIdentity × String) (state : Alone σ) : Except Errno FileIdentity × Alone σ :=
  let request : Request := .statChild openat.1 openat.2
  let (fault, rest) := others.fault request state.rest
  let reply := Env.guarded fault (state.fs.statChild openat.1 openat.2)
  (reply, ⟨state.fs, state.log ++ [⟨request, reply⟩], rest⟩)

def removal (request : Request) (reply : Except Errno Unit → Reply request)
    (answer : Except Errno Fs) (state : Alone σ) : Except Errno Unit × Alone σ :=
  let (fault, rest) := others.fault request state.rest
  match Env.guarded fault answer with
  | .ok fs => (.ok (), ⟨fs, state.log ++ [⟨request, reply (.ok ())⟩], rest⟩)
  | .error errno =>
    (.error errno, ⟨state.fs, state.log ++ [⟨request, reply (.error errno)⟩], rest⟩)

def respond (openat2 : Bool) : (request : Request) → Alone σ → Reply request × Alone σ
  | .acquireFdPermit, state => (true, state)
  | .openRoot _ path, state => (state.fs.openRoot path, state)
  | .openChild _ directory name, state =>
    (state.fs.openChild openat2 directory name, state)
  | .statChild directory name, state => others.stat (directory, name) state
  | .unlink directory name, state =>
    others.removal (.unlink directory name) id (state.fs.unlink directory name) state
  | .rmdir directory name, state =>
    others.removal (.rmdir directory name) id (state.fs.rmdir directory name) state
  | request, state =>
    let (reply, rest) := others.answer request state.rest
    (reply, ⟨state.fs, state.log ++ [⟨request, reply⟩], rest⟩)

def handler (openat2 : Bool) : Handler Request Reply (Alone σ) := ⟨others.respond openat2⟩

end Others

section

variable {σ : Type} {others : Others σ} {openat2 : Bool} {context : Context}

variable {cache : Option ActiveDirCache}

def Fresh (openat2 : Bool) (context : Context) (fs : Fs) (cache : Option ActiveDirCache) : Prop :=
  ∀ cached ∈ cache, ∃ target root, context.catalog.get cached.targetId = some target ∧
      fs.openRoot target.basePath = .ok root ∧
      fs.descend openat2 root cached.parentNames = .ok cached.handle

theorem Fresh.none : Fresh openat2 context fs none := nofun

def reopened (openat2 : Bool) (fs : Fs) (target : TargetDescriptor) (path : RelativePath) :
    Result (FileIdentity × String × Option ActiveDirCache) :=
  match path.leafName? with
  | none => .error (.safetyViolation .invalidLeafName)
  | some leaf =>
    match fs.openRoot target.basePath with
    | .error errno => .error (.io errno)
    | .ok root =>
      match fs.descend openat2 root path.parentNames with
      | .error errno => .error (.io errno)
      | .ok parent =>
        .ok (parent, leaf, some ⟨target.targetId, path.parentNames, parent⟩)

theorem run_openRootWithPermit (path : String) (state : Alone σ) :
    (SafeDirHandle.openRootWithPermit .executor path).run (others.handler openat2) state =
      (some ((state.fs.openRoot path).mapError .io), state) := by
  have reply : (others.handler openat2).respond (.openRoot .executor path) state =
      (state.fs.openRoot path, state) := rfl
  have permit : (others.handler openat2).respond .acquireFdPermit state = (true, state) := rfl
  simp only [SafeDirHandle.openRootWithPermit, ask, perform_bind, run_call, permit, reply]
  cases state.fs.openRoot path <;> rfl

theorem run_openChildDirWithPermit (directory : FileIdentity) (name : String) (state : Alone σ) :
    (SafeDirHandle.openChildDirWithPermit .executor directory name).run
        (others.handler openat2) state =
      (some ((state.fs.openChild openat2 directory name).mapError .io), state) := by
  have reply : (others.handler openat2).respond (.openChild .executor directory name)
      state = (state.fs.openChild openat2 directory name, state) := rfl
  have permit : (others.handler openat2).respond .acquireFdPermit state = (true, state) := rfl
  simp only [SafeDirHandle.openChildDirWithPermit, ask, perform_bind, run_call, permit, reply]
  cases state.fs.openChild openat2 directory name <;> rfl

theorem run_openDescendant (directory : FileIdentity) (names : List String) (state : Alone σ) :
    (openDescendant directory names).run (others.handler openat2) state =
      (some ((state.fs.descend openat2 directory names).mapError .io), state) := by
  induction names generalizing directory with
  | nil => rfl
  | cons name rest ih =>
    rw [openDescendant, Fs.descend,
      run_bind_some _ (run_openChildDirWithPermit directory name state)]
    cases state.fs.openChild openat2 directory name with
    | error errno => rfl
    | ok child => exact ih child

theorem run_getOrOpenParentDir (fresh : Fresh openat2 context state.fs cache)
    (found : context.catalog.get target.targetId = some target) (path : RelativePath) :
    (getOrOpenParentDir cache target path).run (others.handler openat2) state =
      (some (reopened openat2 state.fs target path), state) := by
  unfold getOrOpenParentDir reopened
  cases path.leafName? with
  | none => rfl
  | some leaf =>
    dsimp only
    split
    · rename_i cached hit
      obtain ⟨rfl, matched⟩ := Option.filter_eq_some_iff.mp hit
      simp only [Bool.and_eq_true, beq_iff_eq, decide_eq_true_eq] at matched
      obtain ⟨other, root, known, opened, descended⟩ := fresh cached rfl
      rw [matched.1, found, Option.some.injEq] at known
      subst known
      rw [matched.2] at descended
      obtain ⟨id, names, handle⟩ := cached
      obtain ⟨rfl, rfl⟩ := matched
      simp only [opened, descended]
      rfl
    · rw [run_bind_some _ (run_openRootWithPermit target.basePath state)]
      cases state.fs.openRoot target.basePath with
      | error errno => rfl
      | ok root =>
        change (openDescendant root path.parentNames >>= _).run (others.handler openat2) state = _
        rw [run_bind_some _ (run_openDescendant root path.parentNames state)]
        dsimp only
        cases state.fs.descend openat2 root path.parentNames with
        | error errno => rfl
        | ok parent => rfl

theorem reopened_ok (found : context.catalog.get target.targetId = some target)
    (opened : reopened openat2 fs target path = .ok (parent, leaf, cache)) :
    fs.address openat2 target.basePath path = some (parent, leaf) ∧ Fresh openat2 context fs cache ∧
      ∀ cached ∈ cache, cached.targetId = target.targetId := by
  unfold reopened at opened
  unfold Fs.address
  cases leafName : path.leafName? with
  | none => simp [leafName] at opened
  | some name =>
    simp only [leafName] at opened
    cases root : fs.openRoot target.basePath with
    | error errno => simp [root] at opened
    | ok directory =>
      simp only [root] at opened
      cases descended : fs.descend openat2 directory path.parentNames with
      | error errno => simp [descended] at opened
      | ok node =>
        simp only [descended, Except.ok.injEq, Prod.mk.injEq] at opened
        obtain ⟨rfl, rfl, rfl⟩ := opened
        refine ⟨by simp only [descended], ?_, ?_⟩
        · intro cached is
          cases is
          exact ⟨target, directory, found, root, descended⟩
        · intro cached is
          cases is
          rfl

end

/-- No file operation takes away a link that its own target's base path is resolved
through. -/
def Spares (openat2 : Bool) (context : Context) (fs : Fs) (op : PlannedOperation) : Prop :=
  ∀ deletion, deletion? op.opType = some deletion → deletion.kind = .file →
    ∀ target, context.catalog.get deletion.targetId = some target →
    ∀ entry, fs.address openat2 target.basePath deletion.relPath = some entry →
      entry ∉ fs.rootLinks target.basePath

theorem address_openRoot {fs : Fs}
    (addressed : fs.address openat2 base path = some entry) : ∃ root, fs.openRoot base = .ok root ∧
      fs.descend openat2 root path.parentNames = .ok entry.1 ∧ path.leafName? = some entry.2 := by
  unfold Fs.address at addressed
  split at addressed
  · rename_i root leaf opened leafName
    split at addressed
    · rename_i parent descended
      cases addressed
      exact ⟨root, opened, descended, leafName⟩
    · cases addressed
  · cases addressed

theorem address_below {small big : Fs} (below : Fs.Below small big)
    (addressed : small.address openat2 base path = some entry) :
    big.address openat2 base path = some entry := by
  obtain ⟨root, opened, descended, leafName⟩ := address_openRoot addressed
  unfold Fs.address
  simp only [below.openRoot opened, leafName, below.descend descended]

theorem Spares.below {context : Context} (spares : Spares openat2 context big op)
    (below : Fs.Below small big) : Spares openat2 context small op := by
  intro deletion deletes file target known entry addressed
  obtain ⟨root, opened, -⟩ := address_openRoot addressed
  rw [below.rootLinks opened]
  exact spares deletion deletes file target known entry (address_below below addressed)

def Progress.bare (progress : Progress) : Progress := { progress with activeDirCache := none }

@[simp] theorem Progress.bare_successfulOpIds (progress : Progress) :
    progress.bare.successfulOpIds = progress.successfulOpIds := rfl

def Matching (openat2 : Bool) (context : Context) (fs : Fs) :
    Result Progress → Result Progress → Prop
  | .error error, .error error' => error = error'
  | .ok progress, .ok progress' =>
    progress.bare = progress'.bare ∧ Fresh openat2 context fs progress.activeDirCache
  | _, _ => False

theorem Progress.bare_record (progress : Progress) (result : OperationFinalResult)
    (cache : Option ActiveDirCache) :
    (progress.record result cache).bare = (progress.bare.record result cache).bare ∧
      (progress.record result cache).activeDirCache = cache := by
  unfold Progress.record
  split <;> exact ⟨rfl, rfl⟩

inductive Reduced (kind : RemovalKind) (parent : FileIdentity) (leaf : String) (fs : Fs) : Fs → Prop
  | same : Reduced kind parent leaf fs fs
  | removed {entry : DirEntry} (present : fs.child parent leaf = some entry)
      (file : kind = .file → fs.kind entry.node ≠ some .directory) :
      Reduced kind parent leaf fs (fs.remove parent leaf)

theorem Reduced.below (reduced : Reduced kind parent leaf fs fs') : Fs.Below fs' fs := by
  cases reduced with
  | same => exact Fs.Below.refl fs
  | removed present file => exact Fs.Below.remove fs parent leaf

theorem Fresh.reduced (fresh : Fresh openat2 context fs cache)
    (reduced : Reduced .file parent leaf fs fs')
    (own : ∀ cached ∈ cache, cached.targetId = target.targetId)
    (found : context.catalog.get target.targetId = some target)
    (apart : (parent, leaf) ∉ fs.rootLinks target.basePath) : Fresh openat2 context fs' cache := by
  cases reduced with
  | same => exact fresh
  | removed present file =>
    intro cached is
    obtain ⟨other, root, known, opened, descended⟩ := fresh cached is
    rw [own cached is, found, Option.some.injEq] at known
    subst known
    refine ⟨target, root, ?_, ?_, ?_⟩
    · rw [own cached is, found]
    · exact Fs.openRoot_remove present (file rfl) opened apart
    · exact Fs.descend_remove present (file rfl) descended

section

variable {σ : Type} (others : Others σ) (openat2 : Bool)

variable {state : Alone σ} {progress progress' : Progress} {op : PlannedOperation}
  {deletion : Deletion} {cache : Option ActiveDirCache}

theorem run_request (kind : RemovalKind) (parent : FileIdentity) (leaf : String) (state : Alone σ) :
    ∃ reply after, (kind.request parent leaf).run (others.handler openat2) state =
        (some reply, after) ∧ Reduced kind parent leaf state.fs after.fs := by
  cases kind with
  | file =>
    refine ⟨_, _, rfl, ?_⟩
    change Reduced .file parent leaf state.fs (others.removal (.unlink parent leaf) id
      (state.fs.unlink parent leaf) state).2.fs
    unfold Others.removal
    dsimp only
    split
    · rename_i fs passes
      obtain ⟨entry, present, file, rfl⟩ := Fs.unlink_ok (Env.guarded_ok passes)
      exact .removed present fun _ => file
    · exact .same
  | directory =>
    refine ⟨_, _, rfl, ?_⟩
    change Reduced .directory parent leaf state.fs (others.removal (.rmdir parent leaf) id
      (state.fs.rmdir parent leaf) state).2.fs
    unfold Others.removal
    dsimp only
    split
    · rename_i fs passes
      obtain ⟨entry, present, -, rfl⟩ := Fs.rmdir_ok (Env.guarded_ok passes)
      exact .removed present nofun
    · exact .same

theorem run_removeChild (kind : RemovalKind) (parent : FileIdentity) (leaf : String)
    (expected : FileIdentity) (state : Alone σ) : ∃ mutation after,
      (SafeDirHandle.removeChild kind parent leaf expected).run (others.handler openat2)
        state = (some mutation, after) ∧ Reduced kind parent leaf state.fs after.fs := by
  unfold SafeDirHandle.removeChild
  split
  · rw [ask, perform_bind, run_call]
    -- looking at the entry changes nothing but the log
    have kept : ((others.handler openat2).respond (.statChild parent leaf) state).2.fs =
        state.fs := rfl
    rw [← kept]
    generalize (others.handler openat2).respond (.statChild parent leaf) state = answer
    obtain ⟨reply, middle⟩ := answer
    cases reply with
    | error errno => exact ⟨_, middle, rfl, .same⟩
    | ok current =>
      dsimp only
      split
      · exact ⟨_, middle, rfl, .same⟩
      · obtain ⟨reply, after, run, reduced⟩ := run_request others openat2 kind parent leaf middle
        rw [run_bind_some _ run]
        cases reply with
        | error errno => exact ⟨_, after, rfl, reduced⟩
        | ok _ => exact ⟨_, after, rfl, reduced⟩
  · exact ⟨_, state, rfl, .same⟩

variable {others openat2} {context : Context}

theorem twin_ask {α β : Type} {post : α → β → Alone σ → Prop}
    {next : Reply request → Act α} {next' : Reply request → Act β}
    (kept : ((others.handler openat2).respond request state).2.fs = state.fs)
    (rest : ∀ reply after, after.fs = state.fs →
      Twin (others.handler openat2) post (next reply) (next' reply) after) :
    Twin (others.handler openat2) post (ask request >>= next) (ask request >>= next') state :=
  Twin.ask (rest _ _ kept)

def Ends (openat2 : Bool) (context : Context) (before : Fs)
    (result result' : Result Progress) (after : Alone σ) : Prop :=
  Matching openat2 context after.fs result result' ∧ Fs.Below after.fs before

theorem Ends.unchanged (kept : after.fs = before) (same : progress.bare = progress'.bare)
    (fresh : Fresh openat2 context before progress.activeDirCache) :
    Ends openat2 context before (.ok progress) (.ok progress') after := by
  rw [Ends, kept]
  exact ⟨⟨same, fresh⟩, Fs.Below.refl before⟩

theorem concludeDeletion_twin (op : OperationId) (deletion : Deletion)
    (progress : Progress) (settlement : Settlement) {before : Fs} (below : Fs.Below state.fs before)
    (fresh : Fresh openat2 context state.fs cache) :
    Twin (others.handler openat2) (Ends openat2 context before)
      (concludeDeletion context op deletion progress cache settlement)
      (concludeDeletion context op deletion progress.bare cache settlement) state := by
  apply twin_ask rfl
  intro reply middle kept
  cases reply with
  | error error =>
    apply Twin.done
    exact ⟨rfl, kept ▸ below⟩
  | ok _ =>
    apply twin_ask rfl
    intro _ after kept'
    apply Twin.done
    obtain ⟨same, cached⟩ := progress.bare_record
      ⟨op, settlement.status, settlement.reclaimed⟩ cache
    have tree : after.fs = state.fs := kept'.trans kept
    rw [Ends, tree]
    refine ⟨⟨same, ?_⟩, below⟩
    rw [cached]
    exact fresh

theorem removeAndVerify_twin (op : OperationId)
    (progress : Progress) {target : TargetDescriptor} {leaf : String}
    (fresh : Fresh openat2 context state.fs cache)
    (own : ∀ cached ∈ cache, cached.targetId = target.targetId)
    (found : context.catalog.get target.targetId = some target) (apart : deletion.kind = .file →
      (parent, leaf) ∉ state.fs.rootLinks target.basePath) :
    Twin (others.handler openat2) (Ends openat2 context state.fs)
      (removeAndVerify context op deletion progress parent leaf cache)
      (removeAndVerify context op deletion progress.bare parent leaf cache) state := by
  obtain ⟨mutation, middle, run, reduced⟩ := run_removeChild others openat2
    deletion.kind parent leaf deletion.expected state
  have removal : Twin (others.handler openat2)
      (fun value other after => value = mutation ∧ other = mutation ∧ after = middle)
      (SafeDirHandle.removeChild deletion.kind parent leaf deletion.expected)
      (SafeDirHandle.removeChild deletion.kind parent leaf deletion.expected) state :=
    ⟨mutation, mutation, middle, run, run, rfl, rfl, rfl⟩
  have later : Fresh openat2 context middle.fs (cacheAfter deletion.kind cache) := by
    cases kind : deletion.kind with
    | file =>
      rw [kind] at reduced
      exact fresh.reduced reduced own found (apart kind)
    | directory => exact Fresh.none
  apply removal.bind
  intro value other after ends
  obtain ⟨rfl, rfl, rfl⟩ := ends
  apply twin_ask rfl
  intro answer final kept
  apply concludeDeletion_twin
  · rw [kept]
    exact reduced.below
  · rw [kept]
    exact later

theorem mutate_twin (progress : Progress) {target : TargetDescriptor}
    (found : context.catalog.get deletion.targetId = some target)
    (fresh : Fresh openat2 context state.fs progress.activeDirCache)
    (deletes : deletion? op.opType = some deletion) (spares : Spares openat2 context state.fs op) :
    Twin (others.handler openat2) (Ends openat2 context state.fs)
      (mutate context op.opId deletion progress target)
      (mutate context op.opId deletion progress.bare target) state := by
  have key : target.targetId = deletion.targetId := (Table.find_some found).2
  have known : context.catalog.get target.targetId = some target := by
    rw [key]
    exact found
  apply twin_ask rfl
  intro reply middle kept
  rw [← kept] at fresh spares ⊢
  cases reply with
  | error error =>
    apply Twin.done
    exact ⟨rfl, Fs.Below.refl _⟩
  | ok _ =>
    have opening : Twin (others.handler openat2) (fun value other after =>
          value = reopened openat2 middle.fs target deletion.relPath ∧
            other = reopened openat2 middle.fs target deletion.relPath ∧ after = middle)
        (getOrOpenParentDir progress.activeDirCache target deletion.relPath)
        (getOrOpenParentDir progress.bare.activeDirCache target deletion.relPath)
        middle :=
      ⟨_, _, middle, run_getOrOpenParentDir fresh known deletion.relPath,
        run_getOrOpenParentDir Fresh.none known deletion.relPath, rfl, rfl, rfl⟩
    apply opening.bind
    intro value other after ends
    obtain ⟨rfl, rfl, rfl⟩ := ends
    cases opened : reopened openat2 after.fs target deletion.relPath with
    | error error =>
      apply Twin.done
      exact Ends.unchanged rfl rfl fresh
    | ok parent =>
      obtain ⟨parent, leaf, cache⟩ := parent
      obtain ⟨addressed, fresh', own⟩ := reopened_ok known opened
      apply removeAndVerify_twin _ _ fresh' own known
      intro file
      exact spares deletion deletes file target found _ addressed

theorem executeDeletion_twin (progress : Progress)
    (fresh : Fresh openat2 context state.fs progress.activeDirCache)
    (deletes : deletion? op.opType = some deletion) (spares : Spares openat2 context state.fs op) :
    Twin (others.handler openat2) (Ends openat2 context state.fs)
      (executeDeletion context op.opId deletion progress)
      (executeDeletion context op.opId deletion progress.bare) state := by
  unfold executeDeletion
  cases found : context.catalog.get deletion.targetId with
  | none =>
    apply Twin.done
    exact Ends.unchanged rfl rfl fresh
  | some target =>
    apply twin_ask rfl
    intro reply locked keptLock
    cases reply with
    | error error =>
      apply Twin.done
      exact Ends.unchanged keptLock rfl fresh
    | ok _ =>
      apply twin_ask rfl
      intro now timed keptTime
      split
      · apply Twin.done
        exact Ends.unchanged (keptTime.trans keptLock) rfl fresh
      · apply twin_ask rfl
        intro committedAt stamped keptStamp
        apply twin_ask rfl
        intro reply committed keptCommit
        have kept : committed.fs = state.fs :=
          keptCommit.trans (keptStamp.trans (keptTime.trans keptLock))
        cases reply with
        | error error =>
          apply Twin.done
          exact Ends.unchanged kept rfl fresh
        | ok _ =>
          rw [← kept] at fresh spares ⊢
          exact mutate_twin progress found fresh deletes spares

theorem executeOperation_twin (same : progress.bare = progress'.bare)
    (fresh : Fresh openat2 context state.fs progress.activeDirCache)
    (spares : Spares openat2 context state.fs op) :
    Twin (others.handler openat2) (Ends openat2 context state.fs)
      (executeOperation context op progress)
      (executeOperation context op progress'.bare) state := by
  rw [← same]
  apply twin_ask rfl
  intro cancelled asked keptAsk
  rw [Progress.bare_successfulOpIds]
  split
  · apply Twin.done
    exact Ends.unchanged keptAsk rfl fresh
  · split
    · apply Twin.done
      exact Ends.unchanged keptAsk rfl fresh
    · split
      · apply Twin.done
        exact Ends.unchanged keptAsk rfl fresh
      · apply twin_ask rfl
        intro _ throttled keptThrottle
        have kept : throttled.fs = state.fs := keptThrottle.trans keptAsk
        rw [← kept] at fresh spares ⊢
        split
        · rename_i deletion deletes
          exact executeDeletion_twin progress fresh deletes spares
        · apply Twin.done
          exact Ends.unchanged rfl rfl fresh

theorem executeOperations_twin (same : progress.bare = progress'.bare)
    (fresh : Fresh openat2 context state.fs progress.activeDirCache)
    (spares : ∀ op ∈ ops, Spares openat2 context state.fs op) : Twin (others.handler openat2)
      (fun result result' _ => result.map Progress.bare = result'.map Progress.bare)
      (executeOperations context ops progress)
      (executeOperationsAfresh context ops progress') state := by
  induction ops generalizing progress progress' state with
  | nil => exact Twin.done (congrArg Except.ok same)
  | cons op rest ih =>
    have turn : Twin (others.handler openat2) (Ends openat2 context state.fs)
        (executeOperation context op progress) (executeOperation context op progress'.bare) state :=
      executeOperation_twin same fresh (spares op List.mem_cons_self)
    apply turn.bind
    intro result result' after ends
    obtain ⟨matching, below⟩ := ends
    cases result with
    | error error =>
      cases result' with
      | error error' => exact Twin.done (congrArg Except.error matching)
      | ok progress' => exact matching.elim
    | ok next =>
      cases result' with
      | error error' => exact matching.elim
      | ok next' =>
        apply ih matching.1 matching.2
        intro other mem
        exact (spares other (List.mem_cons_of_mem _ mem)).below below

end

/-- On a tree that nobody else changes the cache makes no difference, unless the plan
takes away a link that leads to one of its targets. -/
theorem executePlan_run_afresh {σ : Type} (others : Others σ) (openat2 : Bool)
    (authorized : AuthorizedPlan) (catalog : CatalogSnapshot)
    (config : ConfigGeneration) (attempt : AttemptId) (state : Alone σ)
    (spares : ∀ op ∈ authorized.plan.operations,
      Spares openat2 ⟨authorized, catalog, attempt⟩ state.fs op) :
    (executePlan authorized catalog config attempt).run (others.handler openat2) state =
      (executePlanAfresh authorized catalog config attempt).run (others.handler openat2) state := by
  apply Twin.run_eq
  apply twin_ask rfl
  intro now entered kept
  split
  · exact Twin.done rfl
  · rw [← kept] at spares
    apply (executeOperations_twin rfl Fresh.none spares).bind
    intro result result' after same
    cases result with
    | error error =>
      cases result' with
      | error error' =>
        cases same
        exact Twin.done rfl
      | ok progress' => cases same
    | ok progress =>
      cases result' with
      | error error' => cases same
      | ok progress' =>
        have equal : progress.bare = progress'.bare := Except.ok.inj same
        apply Twin.done
        have job := congrArg (jobResult ⟨authorized, catalog, attempt⟩) equal
        exact congrArg Except.ok job

def Others.ofEnv (env : Env) : Others World := ⟨env.respond, fun _ world => (none, world)⟩

namespace Sample

def linked : Fs where
  root := ⟨1, 1⟩
  cwd := ⟨1, 1⟩
  inode := fun id =>
    if id = ⟨1, 1⟩ then
      some (.folder ⟨1, 1⟩ "t" ⟨1, 2⟩)
    else if id = ⟨1, 2⟩ then
      some ⟨.directory, 0, 0, ⟨1, 1⟩, [("s", ⟨⟨1, 4⟩, false⟩), ("f", ⟨⟨1, 3⟩, false⟩)], by decide⟩
    else if id = ⟨1, 3⟩ then some (.file ⟨1, 2⟩ 5 0)
    else if id = ⟨1, 4⟩ then some ⟨.symlink "..", 0, 0, ⟨1, 2⟩, .empty⟩
    else none

def linkPath : RelativePath := (RelativePath.parse "s").getD RelativePath.empty

def bothPlan : PlannedPlan :=
  ⟨⟨1⟩, ⟨1⟩, ⟨2⟩, ⟨1⟩, [⟨⟨1⟩, .deleteFile ⟨"t"⟩ linkPath ⟨1, 4⟩ 0, [], 0⟩,
      ⟨⟨2⟩, .deleteFile ⟨"t"⟩ path ⟨1, 3⟩ 5, [], 5⟩], 5⟩

def bothAuthorized : AuthorizedPlan :=
  ⟨bothPlan, ⟨⟨1⟩, [.deleteFile ⟨"t"⟩ linkPath, .deleteFile ⟨"t"⟩ path], ⟨2⟩, ⟨1⟩, 1000, 1300⟩⟩

def targetAt (base : String) : TargetDescriptor := { target with basePath := base }

def snapshotAt (base : String) : CatalogSnapshot := ⟨⟨2⟩, ⟨[targetAt base], List.nodup_singleton _⟩⟩

def linkedAlone : Alone World := ⟨linked, [], world⟩

theorem direct_spares : ∀ op ∈ bothPlan.operations,
    Spares true ⟨bothAuthorized, snapshotAt "/t", ⟨1⟩⟩ linked op := by
  have none : linked.rootLinks "/t" = [] := by decide +kernel
  intro op _ deletion _ _ found known entry _
  have only : found = targetAt "/t" := List.mem_singleton.mp (Table.find_some known).1
  rw [only]
  change entry ∉ linked.rootLinks "/t"
  rw [none]
  exact List.not_mem_nil

end Sample

open Sample in
theorem direct_run_afresh : (executePlan bothAuthorized (snapshotAt "/t") ⟨1⟩ ⟨1⟩).run
        ((Others.ofEnv calmEnv).handler true) linkedAlone =
      (executePlanAfresh bothAuthorized (snapshotAt "/t") ⟨1⟩ ⟨1⟩).run
        ((Others.ofEnv calmEnv).handler true) linkedAlone :=
  executePlan_run_afresh _ _ _ _ _ _ _ direct_spares

open Sample in
/-- The base path `/t/s/t` leads through the link; once it is gone only the cached
handle still reaches the file. -/
theorem linked_runs_differ : ((executePlan bothAuthorized (snapshotAt "/t/s/t") ⟨1⟩ ⟨1⟩).run
        ((Others.ofEnv calmEnv).handler true) linkedAlone).1 =
      some (.ok ⟨⟨1⟩, ⟨1⟩, 5, 2, 2, 0, 0⟩) ∧
    ((executePlanAfresh bothAuthorized (snapshotAt "/t/s/t") ⟨1⟩ ⟨1⟩).run
        ((Others.ofEnv calmEnv).handler true) linkedAlone).1 =
      some (.ok ⟨⟨1⟩, ⟨1⟩, 0, 2, 1, 1, 0⟩) := by
  constructor <;> decide +kernel

end CacheCleaner.CleanupExecutor
