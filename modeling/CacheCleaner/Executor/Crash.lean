import CacheCleaner.Executor.Effect
import CacheCleaner.Fs.Presence

namespace CacheCleaner.CleanupExecutor

open Effect Effect.Program World

structure Logged (context : Context) (op : PlannedOperation) (row : IntentRow) : Prop where
  columns : Store.bindable row.columns = true
  intent : ∃ progress deletion target committedAt state resolvedAt,
    Admitted context op progress deletion target ∧
      row = loggedRow context op deletion committedAt state resolvedAt

/-- The tree and the store once the operations of `done` were taken up.  The
intents added since `base` belong to some of them, in order. -/
structure Journal (env : Env) (origin : Fs) (context : Context)
    (base : Store) (done : List PlannedOperation) (world : World) : Prop where
  below : Fs.Below world.fs origin
  hollow : Fs.Hollow origin world.fs
  appended : ∃ chosen added, chosen.Sublist done ∧
    world.store.intents.rows = base.intents.rows ++ added ∧
    List.Forall₂ (Logged context) chosen added
  erased : ∀ {directory name entry}, origin.child directory name = some entry →
    world.fs.child directory name = none → ∃ op ∈ done, ∃ deletion target,
      Names env origin context op deletion target directory name ∧ entry.node = deletion.expected ∧
      ∃ row ∈ world.store.intents.rows, row.key = (context.attempt, op.opId)
  attempts : world.store.attempts = base.attempts
  jobs : world.store.jobs = base.jobs

variable {env : Env} {origin : Fs} {context : Context} {base : Store}
  {done : List PlannedOperation} {op : PlannedOperation}
  {progress : Progress} {before after : World}

theorem Journal.start (context : Context) (world : World) :
    Journal env world.fs context world.store [] world where
  below := Fs.Below.refl _
  hollow := Fs.Hollow.refl _
  appended := ⟨[], [], .slnil, by simp, .nil⟩
  erased := by
    intro directory name entry present gone
    rw [present] at gone
    cases gone
  attempts := rfl
  jobs := rfl

theorem Journal.mono (journal : Journal env origin context base done before)
    (included : done.Sublist more) :
    Journal env origin context base more before where
  below := journal.below
  hollow := journal.hollow
  appended := by
    obtain ⟨chosen, added, sublist, rows⟩ := journal.appended
    exact ⟨chosen, added, sublist.trans included, rows⟩
  erased := by
    intro directory name entry present gone
    obtain ⟨op, mem, rest⟩ := journal.erased present gone
    exact ⟨op, included.subset mem, rest⟩
  attempts := journal.attempts
  jobs := journal.jobs

theorem Journal.same (journal : Journal env origin context base done before)
    (same : Same before after) : Journal env origin context base done after where
  below := same.fs ▸ journal.below
  hollow := same.fs ▸ journal.hollow
  appended := same.store ▸ journal.appended
  erased := by
    intro directory name entry present gone
    rw [same.fs] at gone
    rw [same.store]
    exact journal.erased present gone
  attempts := same.store ▸ journal.attempts
  jobs := same.store ▸ journal.jobs

theorem TreeStep.hollow (step : TreeStep env origin deletion target small large)
    (below : Fs.Below small origin) (hollow : Fs.Hollow origin small) : Fs.Hollow origin large := by
  cases step with
  | kept same =>
    rw [same]
    exact hollow
  | removed parent leaf entry removes =>
    rw [removes.removed]
    exact hollow.remove below removes.found removes.vacant

theorem Journal.stage (journal : Journal env origin context base done before)
    (stage : Stage env origin context op progress before after) :
    Journal env origin context base (done ++ [op]) after := by
  cases stage with
  | untouched same =>
    exact (journal.mono (List.sublist_append_left done [op])).same same
  | logged deletion target committedAt state resolvedAt result admitted logs order tree =>
      have row : loggedRow context op deletion committedAt state resolvedAt ∈
          after.store.intents.rows := by
        rw [logs.intents]
        simp
      refine ⟨tree.below journal.below, tree.hollow journal.below journal.hollow,
        ?_, ?_, logs.attempts.trans journal.attempts, logs.jobs.trans journal.jobs⟩
      · obtain ⟨chosen, added, sublist, rows, related⟩ := journal.appended
        refine ⟨chosen ++ [op], added ++ [_], sublist.append (.refl [op]), ?_,
          List.rel_append related (.cons ⟨logs.columns, progress, deletion,
            target, committedAt, state, resolvedAt, admitted, rfl⟩ .nil)⟩
        rw [logs.intents, rows, List.append_assoc]
      · intro directory name entry present gone
        by_cases earlier : before.fs.child directory name = none
        · obtain ⟨other, mem, deletion', target', names, identity, old,
            inside, key⟩ := journal.erased present earlier
          refine ⟨other, by simp [mem], deletion', target', names, identity, old, ?_, key⟩
          rw [logs.intents]
          simp [inside]
        · cases tree with
          | kept same =>
            rw [same] at gone
            exact absurd gone earlier
          | removed parent leaf removed removes =>
            have here : directory = parent ∧ name = leaf := by
              by_contra other
              rw [removes.removed, Fs.child_remove, if_neg other] at gone
              exact earlier gone
            obtain ⟨rfl, rfl⟩ := here
            have original := journal.below.child removes.found
            rw [present] at original
            cases original
            exact ⟨op, by simp, deletion, target,
              ⟨admitted.asks, admitted.found, removes.addressed⟩, removes.identity, _, row, rfl⟩

theorem Journal.invariant (context : Context) (base : Store) :
    Invariant env (fun _ _ => True) origin context
      (fun done _ world => done <+: context.authorized.plan.operations ∧
        Journal env origin context base done world)
      (Journal env origin context base context.authorized.plan.operations) (fun _ _ => True) where
  safe := fun held => held.2.mono held.1.sublist
  stages := fun held next stage => (held.2.stage stage).mono next.sublist
  turns := fun held next stage _ => ⟨next, held.2.stage stage⟩
  halts := fun _ _ _ _ => trivial

theorem executePlan_journal (authorized : AuthorizedPlan)
    (catalog : CatalogSnapshot) (config : ConfigGeneration)
    (attempt : AttemptId) (world : World) (count : Nat) :
    Journal env world.fs ⟨authorized, catalog, attempt⟩ world.store authorized.plan.operations
      ((executePlan authorized catalog config attempt).stateAfter env.handler count world) := by
  have opened : Journal env world.fs ⟨authorized, catalog, attempt⟩ world.store
      [] world := Journal.start _ world
  have spec : Spec env.handler _ _ _
      (executePlan authorized catalog config attempt) world := executePlan_spec
    (Journal.invariant ⟨authorized, catalog, attempt⟩ world.store)
    (opened.mono (List.nil_sublist _)) ⟨List.nil_prefix, opened.same (Same.refl world).advance⟩
  exact spec.stateAfter (Answered.always _ _ (fun _ _ => trivial) count)

end CacheCleaner.CleanupExecutor
