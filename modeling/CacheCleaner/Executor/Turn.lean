import CacheCleaner.Executor.Step

namespace CacheCleaner.CleanupExecutor

open Effect Effect.Program World

variable {env : Env} {answers : (request : Request) → Reply request → Prop}
  {origin : Fs} {context : Context}

def Opened (answers : (request : Request) → Reply request → Prop)
    (found : α → Prop) : Result α → Prop
  | .error _ => OpenRefused answers
  | .ok value => found value

theorem openDescendant_spec (below : Fs.Below before.fs origin) (same : Same before world)
    (directory : FileIdentity) (names : List String) : Spec env.handler answers (Same before)
      (fun result after => Same before after ∧ Opened answers (fun node =>
          origin.descend env.openat2 directory names = .ok node) result)
      (openDescendant directory names) world := by
  induction names generalizing world directory with
  | nil => exact Spec.done same ⟨same, rfl⟩
  | cons name rest ih =>
    refine Spec.bind (SafeDirHandle.openChildDirWithPermit_spec same .executor directory name) ?_
    rintro step middle ⟨kept, opened⟩
    cases step with
    | error error =>
      obtain ⟨errno, answered⟩ := opened
      exact Spec.done kept ⟨kept, .child directory name errno answered⟩
    | ok child =>
      have original := below.openChild opened
      refine (ih kept child).mono (fun _ safe => safe) ?_
      rintro result after ⟨kept, found⟩
      refine ⟨kept, ?_⟩
      cases result with
      | error error => exact found
      | ok node =>
        change origin.descend env.openat2 directory (name :: rest) = _
        simp only [Fs.descend, original]
        exact found

theorem getOrOpenParentDir_spec
    (below : Fs.Below before.fs origin) (same : Same before world)
    (sound : CacheSound env origin context cache)
    (found : context.catalog.get deletion.targetId = some target)
    (nonempty : deletion.relPath.raw ≠ "") : Spec env.handler answers (Same before)
      (fun result after => Same before after ∧ Opened answers (fun (parent, leaf, cache) =>
          Addresses env origin deletion target parent leaf ∧
            CacheSound env origin context cache) result)
      (getOrOpenParentDir cache target deletion.relPath) world := by
  have key : target.targetId = deletion.targetId := (Table.find_some found).2
  unfold getOrOpenParentDir
  cases leafName : deletion.relPath.leafName? with
  | none =>
    exact absurd (List.getLast?_eq_none_iff.mp leafName) (RelativePath.names_ne_nil nonempty)
  | some leaf =>
    dsimp only
    split
    · -- The cached parent was opened for the same target and path.
      rename_i cached hit
      obtain ⟨cacheIs, matched⟩ := Option.filter_eq_some_iff.mp hit
      simp only [Bool.and_eq_true, beq_iff_eq, decide_eq_true_eq] at matched
      obtain ⟨other, root, otherFound, opened, descended⟩ := sound cached cacheIs
      rw [matched.1, key, found] at otherFound
      cases otherFound
      refine Spec.done same ⟨same, ?_, sound⟩
      unfold Addresses Fs.address
      simp only [opened, leafName, ← matched.2, descended]
    · refine Spec.bind (SafeDirHandle.openRootWithPermit_spec same .executor target.basePath) ?_
      rintro step middle ⟨kept, opened⟩
      cases step with
      | error error =>
        obtain ⟨errno, answered⟩ := opened
        exact Spec.done kept ⟨kept, .root _ errno answered⟩
      | ok root =>
        have original := below.openRoot opened
        refine Spec.bind (openDescendant_spec below kept root deletion.relPath.parentNames) ?_
        rintro result after ⟨kept, reached⟩
        cases result with
        | error error => exact Spec.done kept ⟨kept, reached⟩
        | ok parent =>
          have descended : origin.descend env.openat2 root
              deletion.relPath.parentNames = .ok parent := reached
          refine Spec.done kept ⟨kept, ?_, ?_⟩
          · unfold Addresses Fs.address
            simp only [original, leafName, descended]
          · intro cached is
            cases is
            exact ⟨target, root, key ▸ found, original, descended⟩

theorem removeChild_spec
    (addressed : Addresses env origin deletion target parent leaf) (world : World) :
    Spec env.handler answers (fun after => after.store = world.store ∧
        TreeStep env origin deletion target world.fs after.fs)
      (fun mutation after => after.store = world.store ∧
        ((mutation.isOk = false ∧ after.fs = world.fs) ∨
          mutation.isOk = true ∧ ∃ entry, Removes env origin deletion target
            world.fs after.fs parent leaf entry))
      (SafeDirHandle.removeChild deletion.kind parent leaf deletion.expected) world := by
  have start : world.store = world.store ∧ TreeStep env origin deletion target world.fs world.fs :=
    ⟨rfl, .kept rfl⟩
  unfold SafeDirHandle.removeChild
  split
  · rename_i valid
    refine Rules.quiet rfl start fun reply _ is => ?_
    change reply = env.stat world.tick (world.fs.statChild parent leaf) at is
    cases reply with
    | error errno => exact Spec.done start ⟨rfl, Or.inl ⟨rfl, rfl⟩⟩
    | ok current =>
      dsimp only
      split
      · exact Spec.done start ⟨rfl, Or.inl ⟨rfl, rfl⟩⟩
      · rename_i equal
        have identity : current = deletion.expected := not_not.mp equal
        refine Rules.removal start ?_ ?_
        · intro errno
          exact Spec.done start ⟨rfl, Or.inl ⟨rfl, rfl⟩⟩
        · intro fs done
          obtain ⟨entry, found, vacant, after⟩ := Rules.removed_ok done
          obtain ⟨seen, seenFound, node⟩ := Fs.statChild_ok (Env.stat_ok is.symm)
          rw [World.fs_advance, seenFound] at found
          cases found
          have removes : Removes env origin deletion target world.fs fs parent leaf entry :=
            ⟨addressed, seenFound, node.trans identity, valid, vacant, after⟩
          exact Spec.done ⟨rfl, .removed parent leaf entry removes⟩
            ⟨rfl, Or.inr ⟨rfl, entry, removes⟩⟩
  · exact Spec.done start ⟨rfl, Or.inl ⟨rfl, rfl⟩⟩

section

variable {op : PlannedOperation} {progress : Progress} {before : World}
  {deletion : Deletion} {target : TargetDescriptor} {committedAt : UnixTimestamp}

variable {resolvedAt : Option UnixTimestamp} {world : World} {parent : FileIdentity}
  {cache : Option ActiveDirCache} {leaf : String}

theorem Outcome.treeStep
    (outcome : Outcome env origin deletion target before.fs after parent leaf mutation seen) :
    TreeStep env origin deletion target before.fs after := by
  rcases outcome.tree with ⟨-, kept⟩ | ⟨-, entry, removes⟩
  · exact .kept kept
  · exact .removed parent leaf entry removes

theorem settle_isTerminal (deletion : Deletion) (mutation : Result Unit)
    (seen : VerificationOutcome) : (settle deletion mutation seen).state.isTerminal = true := by
  unfold settle
  cases deletion.kind <;> cases mutation <;> cases seen <;> rfl

theorem logs_update {store : Store} {tick : Nat} (logs : Store.Logs before.store
      (loggedRow context op deletion committedAt state resolvedAt) none world.store)
    (updated : (StoreWrite.updateIntentState context.attempt op.opId
      state').statement (env.now tick) world.store = .ok ((), store)) : Store.Logs before.store
      (loggedRow context op deletion committedAt state' (some (env.now tick))) none store :=
  logs.updateIntentState updated

theorem concludeDeletion_spec {seen : VerificationOutcome}
    (admitted : Admitted context op progress deletion target) (logs : Store.Logs before.store
      (loggedRow context op deletion committedAt .mutating resolvedAt) none world.store)
    (outcome : Outcome env origin deletion target before.fs world.fs parent leaf mutation seen)
    (sound : CacheSound env origin context cache) :
    Spec env.handler answers (Stage env origin context op progress before)
      (Turn env answers origin context op progress before)
      (concludeDeletion context op.opId deletion progress
        (cacheAfter deletion.kind cache) (settle deletion mutation seen)) world := by
  have stage : ∀ {after : World} {state resolved result}, Store.Logs before.store
        (loggedRow context op deletion committedAt state resolved) result
        after.store → (result = none ∨ state.isTerminal = true) → after.fs = world.fs →
        Stage env origin context op progress before after :=
    fun logs order fs => .logged deletion target _ _ _ _ admitted logs order (fs ▸ outcome.treeStep)
  have terminal := settle_isTerminal deletion mutation seen
  refine Rules.write (stage logs (Or.inl rfl) rfl) ?_ ?_
  · intro error answered
    exact Spec.done (stage logs (Or.inl rfl) rfl) (.stopped error _ answered)
  · intro store _ updated
    have resolved := logs_update logs updated
    refine Rules.write (stage resolved (Or.inl rfl) rfl) ?_ ?_
    · intro error answered
      exact Spec.done (stage resolved (Or.inl rfl) rfl)
        (.finished deletion target _ _ parent leaf mutation seen cache none
          admitted outcome resolved (.refused error answered) sound)
    · intro store _ written
      have recorded := resolved.recordOperationResult written
      exact Spec.done (stage recorded (Or.inr terminal) rfl)
        (.finished deletion target _ _ parent leaf mutation seen cache _
          admitted outcome recorded .stored sound)

theorem removeAndVerify_spec
    (admitted : Admitted context op progress deletion target) (logs : Store.Logs before.store
      (loggedRow context op deletion committedAt .mutating resolvedAt) none world.store)
    (fs : world.fs = before.fs) (addressed : Addresses env origin deletion target parent leaf)
    (sound : CacheSound env origin context cache) :
    Spec env.handler answers (Stage env origin context op progress before)
      (Turn env answers origin context op progress before)
      (removeAndVerify context op.opId deletion progress parent leaf cache) world := by
  have stage : ∀ after : World, after.store = world.store →
      TreeStep env origin deletion target before.fs after.fs →
        Stage env origin context op progress before after :=
    fun after store tree => .logged deletion target _ _ _ _ admitted
      (store ▸ logs) (Or.inl rfl) tree
  refine Spec.bind ((removeChild_spec addressed world).mono
    (fun after safe => stage after safe.1 (fs ▸ safe.2)) fun _ _ done => done) ?_
  rintro mutation middle ⟨store, tree⟩
  rw [fs] at tree
  have safe : Stage env origin context op progress before middle := by
    refine stage middle store ?_
    rcases tree with ⟨-, kept⟩ | ⟨-, entry, removes⟩
    · exact .kept kept
    · exact .removed parent leaf entry removes
  refine Rules.quiet rfl safe fun reply _ is => ?_
  exact concludeDeletion_spec admitted (store ▸ logs)
    ⟨addressed, tree, middle.tick, congrArg _ is⟩ sound

theorem mutate_spec (below : Fs.Below before.fs origin)
    (cacheSound : CacheSound env origin context progress.activeDirCache)
    (admitted : Admitted context op progress deletion target) (logs : Store.Logs before.store
      (loggedRow context op deletion committedAt .committed resolvedAt) none world.store)
    (fs : world.fs = before.fs) :
    Spec env.handler answers (Stage env origin context op progress before)
      (Turn env answers origin context op progress before)
      (mutate context op.opId deletion progress target) world := by
  have stage : ∀ {after : World} {state resolved}, Store.Logs before.store
        (loggedRow context op deletion committedAt state resolved) none
        after.store → after.fs = before.fs → Stage env origin context op progress before after :=
    fun logs fs => .logged deletion target _ _ _ _ admitted logs (Or.inl rfl) (.kept fs)
  refine Rules.write (stage logs fs) ?_ ?_
  · intro error answered
    exact Spec.done (stage logs fs) (.stopped error _ answered)
  · intro store _ updated
    have mutating := logs_update logs updated
    have smaller : Fs.Below (world.advance.withStore store).fs origin := by
      rw [World.fs_withStore, World.fs_advance, fs]
      exact below
    have kept : ∀ after, Same (world.advance.withStore store) after →
        Store.Logs before.store (loggedRow context op deletion committedAt
          .mutating (some (env.now world.tick))) none after.store ∧ after.fs = before.fs := by
      intro after same
      have unchanged : after.store = store := same.store
      exact ⟨unchanged ▸ mutating, same.fs.trans fs⟩
    refine Spec.bind ((getOrOpenParentDir_spec smaller (Same.refl _) cacheSound admitted.found
      admitted.nonempty).mono (fun after same => stage (kept after same).1 (kept after same).2)
        fun _ _ done => done) ?_
    rintro result after ⟨same, opened⟩
    obtain ⟨logs, fs⟩ := kept after same
    cases result with
    | error error =>
      exact Spec.done (stage logs fs) (.abandoned _ deletion target _ _ admitted logs fs opened)
    | ok found =>
      exact removeAndVerify_spec admitted logs fs opened.1 opened.2

theorem executeDeletion_spec (below : Fs.Below before.fs origin) (same : Same before world)
    (cacheSound : CacheSound env origin context progress.activeDirCache)
    (asks : deletion? op.opType = some deletion) (dependencies : ∀ dependency ∈ op.dependencies,
      dependency ∈ progress.successfulOpIds)
    (granted : context.authorized.grant.grants op.opType.capability = true) :
    Spec env.handler answers (Stage env origin context op progress before)
      (Turn env answers origin context op progress before)
      (executeDeletion context op.opId deletion progress) world := by
  unfold executeDeletion
  split
  · exact Spec.done (.untouched same) (.failed _ same)
  · rename_i target found
    refine Rules.quiet rfl (.untouched same) fun lock _ _ => ?_
    replace same := same.advance
    cases lock with
    | error error => exact Spec.done (.untouched same) (.failed _ same)
    | ok acquired =>
      refine Rules.quiet rfl (.untouched same) fun now _ _ => ?_
      replace same := same.advance
      split
      · exact Spec.done (.untouched same) (.failed _ same)
      · rename_i proof passed
        obtain ⟨allowed, rootSafe, nonempty, device, generation⟩ :=
          SafetyGate.validateMutationBoundary_ok passed
        have admitted : Admitted context op progress deletion target :=
          ⟨asks, dependencies, granted, found, allowed, rootSafe, nonempty, device, generation⟩
        refine Rules.quiet rfl (.untouched same) fun committedAt _ _ => ?_
        replace same := same.advance
        refine Rules.write (.untouched same) ?_ ?_
        · intro error _
          exact Spec.done (.untouched same.advance) (.failed _ same.advance)
        · intro store _ committed
          have logs := Store.commitOperationIntent_ok committed
          rw [same.store] at logs
          exact mutate_spec below cacheSound admitted logs same.fs

theorem executeOperation_spec (below : Fs.Below world.fs origin)
    (cacheSound : CacheSound env origin context progress.activeDirCache) :
    Spec env.handler answers (Stage env origin context op progress world)
      (Turn env answers origin context op progress world)
      (executeOperation context op progress) world := by
  have same := Same.refl world
  refine Rules.quiet rfl (.untouched same) fun cancelled _ _ => ?_
  replace same := same.advance
  cases cancelled with
  | true =>
    exact Spec.done (.untouched same) (.skipped _ (by simp) same)
  | false =>
    rw [if_neg (by simp)]
    split
    · exact Spec.done (.untouched same) (.skipped _ (by simp) same)
    · rename_i fulfilled
      split
      · exact Spec.done (.untouched same) (.failed _ same)
      · rename_i granted
        refine Rules.quiet rfl (.untouched same) fun _ _ _ => ?_
        replace same := same.advance
        cases asks : deletion? op.opType with
        | none =>
          exact Spec.done (.untouched same) (.skipped _ (by simp) same)
        | some deletion =>
          refine executeDeletion_spec below same cacheSound asks ?_ (by simpa using granted)
          simpa using fulfilled

end

end CacheCleaner.CleanupExecutor
