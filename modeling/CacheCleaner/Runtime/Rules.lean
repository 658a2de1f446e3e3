import CacheCleaner.Runtime.Handle

namespace CacheCleaner

open Effect Effect.Program

def Request.quiet : Request → Bool
  | .unlink _ _ | .rmdir _ _ | .write _ | .acquireLease _ _ _
  | .recordAudit _ => false
  | _ => true

theorem Env.respond_quiet (env : Env) (quiet : request.quiet = true) (world : World) :
    (env.respond request world).2 = world.advance := by
  cases request with
  | acquireTargetLock target attempt =>
    simp only [respond]
    split <;> rfl
  | unlink directory name => cases quiet
  | rmdir directory name => cases quiet
  | write write => cases quiet
  | acquireLease resource worker ttl => cases quiet
  | recordAudit result => cases quiet
  | _ => rfl

section

variable (world : World)

@[simp] theorem World.fs_advance : world.advance.fs = world.fs := rfl

@[simp] theorem World.store_advance : world.advance.store = world.store := rfl

@[simp] theorem World.fs_withStore (store : Store) :
    (world.withStore store).fs = world.fs := rfl

@[simp] theorem World.store_withStore (store : Store) :
    (world.withStore store).store = store := rfl

@[simp] theorem World.fs_withFs (fs : Fs) : (world.withFs fs).fs = fs := rfl

@[simp] theorem World.store_withFs (fs : Fs) :
    (world.withFs fs).store = world.store := rfl

@[simp] theorem World.tick_advance : world.advance.tick = world.tick + 1 := rfl

end

theorem Env.tick_respond (env : Env) (request : Request) (world : World) :
    (env.respond request world).2.tick = world.tick + 1 := by
  cases request <;> simp only [respond, removal, execute, lease] <;> repeat' split
  all_goals rfl

theorem Env.guarded_ok {fault : Option Fault}
    (replied : Env.guarded fault answer = .ok value) : answer = .ok value := by
  unfold Env.guarded at replied
  split at replied
  · cases replied
  · exact replied

theorem Env.stat_ok {env : Env}
    (seen : env.stat tick answer = .ok identity) : answer = .ok identity := by
  unfold stat at seen
  split at seen
  · exact guarded_ok seen
  · exact guarded_ok seen
  · cases seen

theorem Fs.statChild_ok {fs : Fs} (seen : fs.statChild directory name = .ok identity) :
    ∃ entry, fs.child directory name = some entry ∧ entry.node = identity := by
  unfold statChild at seen
  split at seen
  · split at seen
    · cases seen
    · rename_i entry found
      exact ⟨entry, found, Except.ok.inj seen⟩
  · cases seen

theorem Env.query_ok {env : Env} (asked : .ok value = env.query world answer) : value = answer := by
  unfold query at asked
  split at asked
  · cases asked
  · exact Except.ok.inj asked

theorem asks {next : Reply request → Act α} (here : allowed request)
    (rest : ∀ reply, Issues allowed (next reply)) : Issues allowed (ask request >>= next) :=
  ⟨here, rest⟩

namespace Rules

variable {env : Env} {answers : (request : Request) → Reply request → Prop}
  {crash : World → Prop} {post : α → World → Prop} {world : World}

theorem quiet {next : Reply request → Act α}
    (silent : request.quiet = true) (safe : crash world) (rest : ∀ reply, answers request reply →
      reply = (env.respond request world).1 →
      Spec env.handler answers crash post (next reply) world.advance) :
    Spec env.handler answers crash post (ask request >>= next) world := by
  refine Spec.call safe fun answered => ?_
  change Spec env.handler answers crash post
    (next (env.respond request world).1) (env.respond request world).2
  rw [env.respond_quiet silent]
  exact rest _ answered rfl

theorem write {write : StoreWrite} {next : Result Unit → Act α} (safe : crash world)
    (failed : ∀ error, answers (.write write) (.error error) →
      Spec env.handler answers crash post (next (.error error)) world.advance)
    (done : ∀ store, answers (.write write) (.ok ()) →
      write.statement (env.now world.tick) world.store = .ok ((), store) →
      Spec env.handler answers crash post (next (.ok ())) (world.advance.withStore store)) :
    Spec env.handler answers crash post (ask (.write write) >>= next) world := by
  refine Spec.call safe ?_
  change answers (.write write) (env.execute world write).1 →
    Spec env.handler answers crash post (next (env.execute world write).1)
      (env.execute world write).2
  unfold Env.execute
  cases faulty : env.writeFault world.tick write with
  | true => exact fun answered => failed _ answered
  | false =>
    cases outcome : write.statement (env.now world.tick) world.store with
    | error failure =>
      simp only [Bool.false_eq_true, if_false]
      exact fun answered => failed _ answered
    | ok result =>
      simp only [Bool.false_eq_true, if_false]
      exact fun answered => done result.2 answered outcome

theorem write_only {write : StoreWrite} {post : Result Unit → World → Prop} (safe : crash world)
    (failed : ∀ error, answers (.write write) (.error error) →
      crash world.advance ∧ post (.error error) world.advance)
    (done : ∀ store, answers (.write write) (.ok ()) →
      write.statement (env.now world.tick) world.store = .ok ((), store) →
      crash (world.advance.withStore store) ∧ post (.ok ()) (world.advance.withStore store)) :
    Spec env.handler answers crash post (ask (.write write)) world := by
  have whole : Spec env.handler answers crash post
      (ask (.write write) >>= fun reply => Program.done reply) world :=
    Rules.write safe failed done
  exact whole

theorem keeps_store (holds : Store → Prop)
    (quiet : Issues (fun request => request.quiet = true) program) (start : holds world.store) :
    Spec env.handler answers (fun after => holds after.store)
      (fun _ after => holds after.store) program world := by
  have invariant : ∀ request (state : World), request.quiet = true →
      holds state.store → holds (env.handler.respond request state).2.store := by
    intro request state silent held
    change holds (env.respond request state).2.store
    rw [env.respond_quiet silent]
    exact held
  exact quiet.spec invariant start

theorem lease {next : Result Bool → Act α} (safe : crash world)
    (failed : ∀ error, answers (.acquireLease resource worker ttl) (.error error) →
      Spec env.handler answers crash post (next (.error error)) world.advance)
    (decided : ∀ acquired store,
      Store.acquireLease resource worker ttl (env.now world.tick) world.store =
        .ok (acquired, store) → Spec env.handler answers crash post (next (.ok acquired))
        (world.advance.withStore store)) : Spec env.handler answers crash post
      (ask (.acquireLease resource worker ttl) >>= next) world := by
  refine Spec.call safe ?_
  change answers (.acquireLease resource worker ttl) (env.lease world resource worker ttl).1 →
    Spec env.handler answers crash post (next (env.lease world resource worker ttl).1)
      (env.lease world resource worker ttl).2
  unfold Env.lease
  cases faulty : env.queryFault world.tick with
  | true => exact fun answered => failed _ answered
  | false =>
    cases outcome : Store.acquireLease resource worker ttl (env.now world.tick) world.store with
    | error failure =>
      simp only [Bool.false_eq_true, if_false]
      exact fun answered => failed _ answered
    | ok result =>
      simp only [Bool.false_eq_true, if_false]
      exact fun _ => decided result.1 result.2 outcome

def removed (kind : RemovalKind) (fs : Fs) (directory : FileIdentity)
    (name : String) : Except Errno Fs :=
  match kind with
  | .file => fs.unlink directory name
  | .directory => fs.rmdir directory name

theorem removal {next : Except Errno Unit → Act α} (safe : crash world) (failed : ∀ errno,
      Spec env.handler answers crash post (next (.error errno)) world.advance)
    (done : ∀ fs, removed kind world.fs directory name = .ok fs →
      Spec env.handler answers crash post (next (.ok ())) (world.advance.withFs fs)) :
    Spec env.handler answers crash post (kind.request directory name >>= next) world := by
  have step : ∀ answer, answer = removed kind world.fs directory name →
      Spec env.handler answers crash post
        (next (env.removal world answer).1) (env.removal world answer).2 := by
    intro answer same
    unfold Env.removal Env.guarded
    cases env.removeFault world.tick with
    | some fault => exact failed _
    | none =>
      cases answer with
      | error errno => exact failed _
      | ok fs => exact done fs same.symm
  cases kind with
  | file => exact Spec.call safe fun _ => step _ rfl
  | directory => exact Spec.call safe fun _ => step _ rfl

theorem removed_ok (done : removed kind fs directory name = .ok fs') :
    ∃ entry, fs.child directory name = some entry ∧ (fs.kind entry.node = some .directory →
        fs.isEmptyDir entry.node = true) ∧ fs' = fs.remove directory name := by
  cases kind with
  | file =>
    obtain ⟨entry, found, file, after⟩ := Fs.unlink_ok done
    exact ⟨entry, found, fun directory => absurd directory file, after⟩
  | directory =>
    obtain ⟨entry, found, empty, after⟩ := Fs.rmdir_ok done
    exact ⟨entry, found, fun _ => empty, after⟩

end Rules

structure World.Same (before after : World) : Prop where
  fs : after.fs = before.fs
  store : after.store = before.store

namespace World.Same

theorem refl (world : World) : World.Same world world := ⟨rfl, rfl⟩

theorem advance (same : World.Same before after) :
    World.Same before after.advance := ⟨same.fs, same.store⟩

end World.Same

namespace SafeDirHandle

variable {env : Env} {answers : (request : Request) → Reply request → Prop}

theorem openRootWithPermit_spec {before world : World}
    (same : World.Same before world) (caller : Caller) (path : String) :
    Spec env.handler answers (World.Same before) (fun result after => World.Same before after ∧
        match result with
        | .error _ => ∃ errno, answers (.openRoot caller path) (.error errno)
        | .ok root => before.fs.openRoot path = .ok root)
      (openRootWithPermit caller path) world := by
  refine Rules.quiet rfl same fun _ _ _ => ?_
  refine Rules.quiet rfl same.advance fun reply answered replied => ?_
  cases reply with
  | error errno => exact Spec.done same.advance.advance ⟨same.advance.advance, errno, answered⟩
  | ok root =>
    refine Spec.done same.advance.advance ⟨same.advance.advance, ?_⟩
    rw [← same.fs]
    exact Env.guarded_ok replied.symm

theorem openChildDirWithPermit_spec {before world : World}
    (same : World.Same before world) (caller : Caller) (directory : FileIdentity) (name : String) :
    Spec env.handler answers (World.Same before) (fun result after => World.Same before after ∧
        match result with
        | .error _ => ∃ errno, answers (.openChild caller directory name) (.error errno)
        | .ok child =>
          before.fs.openChild env.openat2 directory name = .ok child)
      (openChildDirWithPermit caller directory name) world := by
  refine Rules.quiet rfl same fun _ _ _ => ?_
  refine Rules.quiet rfl same.advance fun reply answered replied => ?_
  cases reply with
  | error errno => exact Spec.done same.advance.advance ⟨same.advance.advance, errno, answered⟩
  | ok child =>
    refine Spec.done same.advance.advance ⟨same.advance.advance, ?_⟩
    rw [← same.fs]
    exact Env.guarded_ok replied.symm

end SafeDirHandle

end CacheCleaner
