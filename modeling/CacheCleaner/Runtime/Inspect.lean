import CacheCleaner.Runtime.Rules

namespace CacheCleaner

open Effect Effect.Program World

/-- Calls on existing objects succeed, a missing name is reported as missing,
the store works and the clock fits its columns. -/
structure Env.Reliable (env : Env) : Prop where
  opens : ∀ tick, env.openFault tick = none
  stats : ∀ tick, env.statFault tick = none
  absences : ∀ tick, env.absentFault tick = none
  writes : ∀ tick write, env.writeFault tick write = false
  queries : ∀ tick, env.queryFault tick = false
  clock : ∀ tick, env.now tick ≤ sqliteMax

theorem Env.calm_reliable {platform : PlatformView} (clock : time ≤ sqliteMax) :
    (Env.calm time platform bounded).Reliable :=
  ⟨fun _ => rfl, fun _ => rfl, fun _ => rfl, fun _ _ => rfl, fun _ => rfl, fun _ => clock⟩

theorem Env.Reliable.stat {env : Env} (reliable : env.Reliable) (tick : Nat)
    (answer : Except Errno FileIdentity) : env.stat tick answer = answer := by
  unfold Env.stat Env.guarded
  rw [reliable.stats, reliable.absences]
  split <;> rfl

theorem Env.Reliable.query {env : Env} (reliable : env.Reliable)
    (world : World) (answer : α) : env.query world answer = .ok answer := by
  simp [Env.query, reliable.queries]

namespace Rules

variable {env : Env} {answers : (request : Request) → Reply request → Prop}
  {crash : World → Prop} {post : α → World → Prop} {world : World}

theorem quiet_returns
    (silent : request.quiet = true) (rest : ∀ reply, reply = (env.respond request world).1 →
      Returns env.handler post (next reply) world.advance) :
    Returns env.handler post (ask request >>= next) world := by
  refine Returns.call ?_
  change Returns env.handler post (next (env.respond request world).1) (env.respond request world).2
  rw [env.respond_quiet silent]
  exact rest _ rfl

theorem quiet_ends {next : Reply request → Act α} {post : α → World → Prop}
    (silent : request.quiet = true) (rest : ∀ reply, reply = (env.respond request world).1 →
      Ends env.handler post aborted (next reply) world.advance) :
    Ends env.handler post aborted (ask request >>= next) world := by
  change Ends env.handler post aborted (next (env.respond request world).1)
    (env.respond request world).2
  rw [env.respond_quiet silent]
  exact rest _ rfl

theorem quiet_aborts
    (silent : request.quiet = true) (rest : ∀ reply, reply = (env.respond request world).1 →
      Aborts env.handler (next reply) world.advance) :
    Aborts env.handler (ask request >>= next) world := by
  change Aborts env.handler (next (env.respond request world).1) (env.respond request world).2
  rw [env.respond_quiet silent]
  exact rest _ rfl

theorem write_returns (reliable : env.Reliable) {write : StoreWrite}
    {next : Result Unit → Act α} {store : Store}
    (succeeds : write.statement (env.now world.tick) world.store = .ok ((), store))
    (rest : Returns env.handler post (next (.ok ())) (world.advance.withStore store)) :
    Returns env.handler post (ask (.write write) >>= next) world := by
  refine Returns.call ?_
  change Returns env.handler post (next (env.execute world write).1) (env.execute world write).2
  unfold Env.execute
  simp only [reliable.writes, succeeds]
  exact rest

end Rules

namespace PostconditionVerifier

def inspectBeneath (fs : Fs) (openat2 : Bool) (expected : FileIdentity)
    (leaf : String) : FileIdentity → List String → VerificationOutcome
  | directory, [] => classifyStat expected (fs.statChild directory leaf)
  | directory, name :: rest =>
    match fs.openChild openat2 directory name with
    | .error errno => classifyOpen errno
    | .ok child => inspectBeneath fs openat2 expected leaf child rest

def inspect (fs : Fs) (openat2 : Bool) (basePath : String)
    (path : RelativePath) (expected : FileIdentity) : VerificationOutcome :=
  match fs.openRoot basePath with
  | .error _ => .targetUnavailable
  | .ok root =>
    match path.leafName? with
    | none => .unknown
    | some leaf =>
      inspectBeneath fs openat2 expected leaf root path.parentNames

variable {env : Env} {answers : (request : Request) → Reply request → Prop}

theorem verifyBeneath_spec (reliable : env.Reliable) {before world : World}
    (same : World.Same before world) (expected : FileIdentity) (leaf : String)
    (directory : FileIdentity) (names : List String) : Spec env.handler answers (World.Same before)
      (fun outcome after => World.Same before after ∧
        outcome = inspectBeneath before.fs env.openat2 expected leaf directory names)
      (verifyBeneath expected leaf directory names) world := by
  induction names generalizing directory world with
  | nil =>
    refine Rules.quiet rfl same fun reply _ stated => ?_
    refine Spec.done same.advance ⟨same.advance, ?_⟩
    change reply = env.stat world.tick (world.fs.statChild directory leaf)
      at stated
    rw [stated, reliable.stat, same.fs]
    rfl
  | cons name rest ih =>
    refine Rules.quiet rfl same fun reply _ opened => ?_
    change reply = Env.guarded (env.openFault world.tick)
      (world.fs.openChild env.openat2 directory name) at opened
    rw [reliable.opens, same.fs] at opened
    simp only [inspectBeneath]
    cases step : before.fs.openChild env.openat2 directory name with
    | error errno =>
      rw [step] at opened
      rw [opened]
      exact Spec.done same.advance ⟨same.advance, rfl⟩
    | ok child =>
      rw [step] at opened
      rw [opened]
      exact ih same.advance child

theorem verifyOperationPostcondition_spec (reliable : env.Reliable) (same : World.Same before world)
    (basePath : String) (path : RelativePath) (expected : FileIdentity) :
    Spec env.handler answers (World.Same before) (fun outcome after => World.Same before after ∧
        outcome = inspect before.fs env.openat2 basePath path expected)
      (verifyOperationPostcondition basePath path expected) world := by
  refine Rules.quiet rfl same fun reply _ opened => ?_
  change reply = Env.guarded (env.openFault world.tick) (world.fs.openRoot basePath) at opened
  rw [reliable.opens, same.fs] at opened
  unfold inspect
  cases root : before.fs.openRoot basePath with
  | error errno =>
    rw [root] at opened
    rw [opened]
    exact Spec.done same.advance ⟨same.advance, rfl⟩
  | ok directory =>
    rw [root] at opened
    rw [opened]
    cases path.leafName? with
    | none => exact Spec.done same.advance ⟨same.advance, rfl⟩
    | some leaf =>
      exact verifyBeneath_spec reliable same.advance expected leaf directory path.parentNames

end PostconditionVerifier

end CacheCleaner
