import CacheCleaner.Effect.Program

namespace Effect

abbrev Exchange (Request : Type) (Reply : Request → Type) : Type :=
  (request : Request) × Reply request

/-- The programs threads are started with, when one may be started, and how the
shared state answers.  What the state does not determine, the oracle chooses;
a request that has no answer waits. -/
structure System (Code Oracle Request : Type) (Reply : Request → Type) (σ : Type) where
  body : Code → Program Request Reply Unit
  launch : Code → σ → Option σ
  answer : Oracle → (request : Request) → σ → Option (Reply request × σ)

structure Thread (Code Request : Type) (Reply : Request → Type) where
  code : Code
  log : List (Exchange Request Reply)
  rest : Program Request Reply Unit

structure Pool (ι Code Request : Type) (Reply : Request → Type) (σ : Type) where
  shared : σ
  threads : ι → Option (Thread Code Request Reply)

inductive Event (ι Code Request : Type) (Reply : Request → Type) where
  | launched (name : ι) (code : Code)
  | acted (name : ι) (exchange : Exchange Request Reply)

namespace Pool

variable {ι Code Request σ : Type} {Reply : Request → Type}

def start (shared : σ) : Pool ι Code Request Reply σ := ⟨shared, fun _ => none⟩

variable [DecidableEq ι]

section

variable (pool : Pool ι Code Request Reply σ)

def set (shared : σ) (name : ι)
    (thread : Thread Code Request Reply) : Pool ι Code Request Reply σ :=
  ⟨shared, Function.update pool.threads name (some thread)⟩

@[simp] theorem shared_set (shared : σ)
    (name : ι) (thread : Thread Code Request Reply) :
    (pool.set shared name thread).shared = shared := rfl

@[simp] theorem threads_set_self
    (shared : σ) (name : ι) (thread : Thread Code Request Reply) :
    (pool.set shared name thread).threads name = some thread :=
  Function.update_self ..

theorem threads_set_of_ne (shared : σ) (thread : Thread Code Request Reply)
    (different : other ≠ name) :
    (pool.set shared name thread).threads other = pool.threads other :=
  Function.update_of_ne different ..

end

theorem found_set {pool : Pool ι Code Request Reply σ} {shared : σ}
    (found : (pool.set shared name thread).threads other = some thread') :
    other = name ∧ thread' = thread ∨ other ≠ name ∧ pool.threads other = some thread' := by
  by_cases same : other = name
  · subst same
    rw [threads_set_self] at found
    exact .inl ⟨rfl, (Option.some.inj found).symm⟩
  · rw [threads_set_of_ne _ _ _ same] at found
    exact .inr ⟨same, found⟩

end Pool

def Thread.resume {Code Request : Type} {Reply : Request → Type}
    (thread : Thread Code Request Reply) (request : Request)
    (reply : Reply request) (rest : Program Request Reply Unit) : Thread Code Request Reply :=
  ⟨thread.code, thread.log ++ [⟨request, reply⟩], rest⟩

namespace System

variable {ι Code Oracle Request σ : Type} {Reply : Request → Type} [DecidableEq ι]

variable {event : Event ι Code Request Reply}

inductive Step (system : System Code Oracle Request Reply σ) (pool : Pool ι Code Request Reply σ) :
    Event ι Code Request Reply → Pool ι Code Request Reply σ → Prop
  | launched {name : ι} {code : Code} {shared : σ} (free : pool.threads name = none)
      (launch : system.launch code pool.shared = some shared) :
      Step system pool (.launched name code) (pool.set shared name ⟨code, [], system.body code⟩)
  | acted {name : ι} {thread : Thread Code Request Reply} {request : Request}
      {next : Reply request → Program Request Reply Unit}
      {oracle : Oracle} {reply : Reply request} {shared : σ}
      (found : pool.threads name = some thread) (waits : thread.rest = .call request next)
      (answered : system.answer oracle request pool.shared = some (reply, shared)) :
      Step system pool (.acted name ⟨request, reply⟩)
        (pool.set shared name (thread.resume request reply (next reply)))

abbrev Condition (ι Code Request : Type) (Reply : Request → Type) (σ : Type) : Type :=
  Pool ι Code Request Reply σ → Event ι Code Request Reply → Pool ι Code Request Reply σ → Prop

def anyhow : Condition ι Code Request Reply σ := fun _ _ _ => True

instance (pool : Pool ι Code Request Reply σ) (event : Event ι Code Request Reply)
    (pool' : Pool ι Code Request Reply σ) : Decidable (anyhow pool event pool') :=
  .isTrue trivial

inductive Run (system : System Code Oracle Request Reply σ)
    (allowed : Condition ι Code Request Reply σ) (start : Pool ι Code Request Reply σ) :
    List (Event ι Code Request Reply) → Pool ι Code Request Reply σ → Prop
  | nil : Run system allowed start [] start
  | snoc {events : List (Event ι Code Request Reply)} {pool pool' : Pool ι Code Request Reply σ}
      {event : Event ι Code Request Reply} (run : Run system allowed start events pool)
      (step : system.Step pool event pool') (meets : allowed pool event pool') :
      Run system allowed start (events ++ [event]) pool'

variable {system : System Code Oracle Request Reply σ} {allowed : Condition ι Code Request Reply σ}
  {start pool pool' : Pool ι Code Request Reply σ} {events : List (Event ι Code Request Reply)}

theorem Run.invariant {holds : Pool ι Code Request Reply σ → Prop} (initially : holds start)
    (preserved : ∀ {pool event pool'}, holds pool →
      system.Step pool event pool' → allowed pool event pool' → holds pool')
    (run : system.Run allowed start events pool) : holds pool := by
  induction run with
  | nil => exact initially
  | snoc run step meets ih => exact preserved ih step meets

theorem Run.weaken (weaken : ∀ pool event pool', allowed pool event pool' → weaker pool event pool')
    (run : system.Run allowed start events pool) : system.Run weaker start events pool := by
  induction run with
  | nil => exact .nil
  | snoc run step meets ih =>
    exact .snoc ih step (weaken _ _ _ meets)

theorem Run.cons (step : system.Step start event middle) (meets : allowed start event middle)
    (run : system.Run allowed middle events pool) :
    system.Run allowed start (event :: events) pool := by
  induction run with
  | nil => exact .snoc .nil step meets
  | snoc run step meets ih => exact .snoc ih step meets

inductive Move (ι Code Oracle : Type) where
  | launch (name : ι) (code : Code)
  | act (name : ι) (oracle : Oracle)

/-! The names of schedules are numerals. -/

instance neZero_two : NeZero 2 := ⟨two_ne_zero⟩

instance neZero_three : NeZero 3 := ⟨three_ne_zero⟩

def acts (name : ι) (oracle : Oracle) (count : Nat) : List (Move ι Code Oracle) :=
  List.replicate count (.act name oracle)

def play (system : System Code Oracle Request Reply σ)
    (pool : Pool ι Code Request Reply σ) : Move ι Code Oracle →
    Option (Event ι Code Request Reply × Pool ι Code Request Reply σ)
  | .launch name code =>
    match pool.threads name, system.launch code pool.shared with
    | none, some shared => some (.launched name code,
        pool.set shared name ⟨code, [], system.body code⟩)
    | _, _ => none
  | .act name oracle =>
    match pool.threads name with
    | none => none
    | some thread =>
      match thread.rest with
      | .call request next =>
        match system.answer oracle request pool.shared with
        | some (reply, shared) => some (.acted name ⟨request, reply⟩, pool.set shared name
              (thread.resume request reply (next reply)))
        | none => none
      | _ => none

theorem Step.of_play (move : Move ι Code Oracle)
    (played : system.play pool move = some (event, pool')) : system.Step pool event pool' := by
  cases move with
  | launch name code =>
    simp only [play] at played
    split at played
    next free launch =>
        cases played
        exact .launched free launch
    next => cases played
  | act name oracle =>
    simp only [play] at played
    split at played
    next => cases played
    next thread found =>
        split at played
        next request next waits =>
            split at played
            next reply shared answered =>
                cases played
                exact .acted found waits answered
            next => cases played
        next => cases played

/-- The schedule's events and the pool it leads to, if every move is possible
and allowed. -/
def replay (system : System Code Oracle Request Reply σ)
    (allowed : Condition ι Code Request Reply σ)
    [∀ pool event pool', Decidable (allowed pool event pool')] :
    List (Move ι Code Oracle) → Pool ι Code Request Reply σ →
    Option (List (Event ι Code Request Reply) × Pool ι Code Request Reply σ)
  | [], pool => some ([], pool)
  | move :: moves, pool =>
    match system.play pool move with
    | none => none
    | some (event, middle) =>
      if allowed pool event middle then
        match replay system allowed moves middle with
        | none => none
        | some (events, final) => some (event :: events, final)
      else none

theorem Run.of_replay [∀ pool event pool', Decidable (allowed pool event pool')]
    (replayed : system.replay allowed moves start = some (events, pool)) :
    system.Run allowed start events pool := by
  induction moves generalizing start events with
  | nil =>
    cases replayed
    exact .nil
  | cons move moves ih =>
    simp only [replay] at replayed
    split at replayed
    next => cases replayed
    next event middle played =>
        split at replayed
        next meets =>
            split at replayed
            next => cases replayed
            next events' final rest =>
                cases replayed
                exact .cons (.of_play move played) meets (ih rest)
        next => cases replayed

def replayed (system : System Code Oracle Request Reply σ)
    (allowed : Condition ι Code Request Reply σ)
    [∀ pool event pool', Decidable (allowed pool event pool')]
    (moves : List (Move ι Code Oracle)) (start : Pool ι Code Request Reply σ)
    (possible : (system.replay allowed moves start).isSome = true) :
    List (Event ι Code Request Reply) × Pool ι Code Request Reply σ :=
  (system.replay allowed moves start).get possible

theorem Run.replayed [∀ pool event pool', Decidable (allowed pool event pool')]
    (moves : List (Move ι Code Oracle))
    (possible : (system.replay allowed moves start).isSome = true) :
    system.Run allowed start (system.replayed allowed moves start possible).1
      (system.replayed allowed moves start possible).2 :=
  .of_replay (Option.some_get possible).symm

end System

/-- As long as the replies are such as `answers` says, the program makes only
allowed requests. -/
def Program.Confined {Request α : Type} {Reply : Request → Type}
    (answers : (request : Request) → Reply request → Prop)
    (allowed : Request → Prop) : Program Request Reply α → Prop
  | .done _ => True
  | .abort => True
  | .call request next => allowed request ∧ ∀ reply, answers request reply →
      Confined answers allowed (next reply)

namespace Program.Confined

variable {Request α β : Type} {Reply : Request → Type}
  {answers : (request : Request) → Reply request → Prop} {allowed : Request → Prop}

@[simp] theorem done_iff :
    Confined answers allowed (.done value : Program Request Reply α) ↔ True :=
  Iff.rfl

@[simp] theorem call_iff : Confined answers allowed (.call request next) ↔ allowed request ∧
      ∀ reply, answers request reply → Confined answers allowed (next reply) :=
  Iff.rfl

theorem bind (first : Confined answers allowed program)
    (rest : ∀ value, Confined answers allowed (next value)) :
    Confined answers allowed (program >>= next) := by
  induction program with
  | done value => exact rest value
  | abort => trivial
  | call request continuation ih =>
    exact ⟨first.1, fun reply answered =>
      ih reply (first.2 reply answered)⟩

end Program.Confined

namespace Pool

variable {ι Code Request σ : Type} {Reply : Request → Type}

variable {thread : Thread Code Request Reply} {name : ι} {shared : σ}

def Sole (role : Thread Code Request Reply → Prop) (owner : Option ι)
    (pool : Pool ι Code Request Reply σ) : Prop :=
  ∀ name, (∃ thread, pool.threads name = some thread ∧ role thread) ↔ owner = some name

variable {role : Thread Code Request Reply → Prop} {owner : Option ι}
  {pool : Pool ι Code Request Reply σ}

def All (role : Thread Code Request Reply → Prop) (pool : Pool ι Code Request Reply σ) : Prop :=
  ∀ name, ∀ thread ∈ pool.threads name, role thread

def Nobody (role : Thread Code Request Reply → Prop) (pool : Pool ι Code Request Reply σ) : Prop :=
  pool.All fun thread => ¬ role thread

instance [Fintype ι] [DecidablePred role] : Decidable (pool.Nobody role) :=
  inferInstanceAs (Decidable (∀ name, ∀ thread ∈ pool.threads name, _))

theorem Sole.nobody (sole : pool.Sole role none) : pool.Nobody role := by
  intro name thread found plays
  cases (sole name).mp ⟨thread, found, plays⟩

theorem Sole.start (shared : σ) :
    (Pool.start shared : Pool ι Code Request Reply σ).Sole role none := by
  simp [Sole, Pool.start]

theorem Sole.owner_eq (sole : pool.Sole role owner)
    (found : pool.threads name = some thread) (plays : role thread) : owner = some name :=
  (sole name).mp ⟨thread, found, plays⟩

theorem Sole.plays (sole : pool.Sole role owner) (owned : owner = some name)
    (found : pool.threads name = some thread) : role thread := by
  obtain ⟨other, found', plays⟩ := (sole name).mpr owned
  rw [found] at found'
  cases found'
  exact plays

variable [DecidableEq ι]

theorem All.set (all : pool.All role) (here : role thread) :
    (pool.set shared name thread).All role := by
  intro other thread' found
  rcases found_set found with ⟨rfl, rfl⟩ | ⟨-, found⟩
  · exact here
  · exact all other thread' found

theorem Nobody.set (nobody : pool.Nobody role) (here : ¬ role thread) :
    (pool.set shared name thread).Nobody role :=
  All.set nobody here

theorem Sole.set (sole : pool.Sole role owner) (here : role thread ↔ owner' = some name)
    (elsewhere : ∀ other, other ≠ name → (owner = some other ↔ owner' = some other)) :
    (pool.set shared name thread).Sole role owner' := by
  intro other
  by_cases same : other = name
  · subst same
    simpa using here
  · rw [threads_set_of_ne _ _ _ same, sole other]
    exact elsewhere other same

theorem Sole.keep (sole : pool.Sole role owner) (here : role thread ↔ owner = some name) :
    (pool.set shared name thread).Sole role owner :=
  sole.set here fun _ _ => Iff.rfl

theorem Sole.take (sole : pool.Sole role none) (here : role thread) :
    (pool.set shared name thread).Sole role (some name) := by
  apply sole.set
  · simpa using here
  · intro other different
    simpa using different.symm

theorem Sole.give (sole : pool.Sole role owner) (owned : owner = some name) (here : ¬ role thread) :
    (pool.set shared name thread).Sole role none := by
  apply sole.set
  · simpa using here
  · intro other different
    simpa [owned] using different.symm

end Pool

structure Protocol (Phase Code Request : Type) (Reply : Request → Type) where
  initial : Code → Phase
  advance : Phase → Exchange Request Reply → Phase
  permits : Phase → Request → Prop

namespace Protocol

variable {Phase Code Request α β : Type} {Reply : Request → Type}
  (protocol : Protocol Phase Code Request Reply)

def phase (thread : Thread Code Request Reply) : Phase :=
  thread.log.foldl protocol.advance (protocol.initial thread.code)

theorem phase_resume (thread : Thread Code Request Reply) (request : Request)
    (reply : Reply request) (rest : Program Request Reply Unit) :
    protocol.phase (thread.resume request reply rest) =
      protocol.advance (protocol.phase thread) ⟨request, reply⟩ := by
  simp [phase, Thread.resume]

/-- The program keeps to the protocol from a phase on, and returns in a phase
that `post` accepts. -/
def Obeys (post : Phase → α → Prop) : Phase → Program Request Reply α → Prop
  | phase, .done value => post phase value
  | _, .abort => True
  | phase, .call request next => protocol.permits phase request ∧
      ∀ reply, Obeys post (protocol.advance phase ⟨request, reply⟩) (next reply)

variable {protocol}

namespace Obeys

variable {post : Phase → α → Prop} {phase : Phase}

variable {program : Program Request Reply α}

@[simp] theorem done_iff :
    protocol.Obeys post phase (.done value : Program Request Reply α) ↔ post phase value := Iff.rfl

@[simp] theorem call_iff : protocol.Obeys post phase (.call request next) ↔
      protocol.permits phase request ∧ ∀ reply, protocol.Obeys post
        (protocol.advance phase ⟨request, reply⟩) (next reply) := Iff.rfl

theorem mono (obeys : protocol.Obeys post phase program)
    (weaken : ∀ phase value, post phase value → post' phase value) :
    protocol.Obeys post' phase program := by
  induction program generalizing phase with
  | done value => exact weaken phase value obeys
  | abort => trivial
  | call request next ih =>
    exact ⟨obeys.1, fun reply => ih reply (obeys.2 reply)⟩

theorem bind (first : protocol.Obeys post phase program)
    (rest : ∀ phase value, post phase value → protocol.Obeys result phase (next value)) :
    protocol.Obeys result phase (program >>= next) := by
  induction program generalizing phase with
  | done value => exact rest phase value first
  | abort => trivial
  | call request continuation ih =>
    exact ⟨first.1, fun reply => ih reply (first.2 reply)⟩

end Obeys

variable {ι Oracle σ : Type} {system : System Code Oracle Request Reply σ}
  {pool : Pool ι Code Request Reply σ}

def Kept (protocol : Protocol Phase Code Request Reply)
    (post : Phase → Unit → Prop) (pool : Pool ι Code Request Reply σ) : Prop :=
  ∀ name thread, pool.threads name = some thread →
    protocol.Obeys post (protocol.phase thread) thread.rest

theorem Kept.empty (post : Phase → Unit → Prop) (shared : σ) :
    protocol.Kept post (Pool.start shared : Pool ι Code Request Reply σ) := by
  intro name thread found
  cases found

theorem Kept.step [DecidableEq ι] {post : Phase → Unit → Prop}
    (bodies : ∀ code, protocol.Obeys post (protocol.initial code) (system.body code))
    (kept : protocol.Kept post pool) (step : system.Step pool event pool') :
    protocol.Kept post pool' := by
  cases step with
  | @launched name code shared free launch =>
    intro other thread found
    rcases Pool.found_set found with ⟨rfl, rfl⟩ | ⟨-, found⟩
    · exact bodies code
    · exact kept other thread found
  | @acted name thread request next oracle reply shared found waits answered =>
    intro other thread' found'
    rcases Pool.found_set found' with ⟨rfl, rfl⟩ | ⟨-, found'⟩
    · rw [phase_resume]
      have here := kept other thread found
      rw [waits] at here
      exact here.2 reply
    · exact kept other thread' found'

theorem Kept.permits (kept : protocol.Kept post pool) (found : pool.threads name = some thread)
    (waits : thread.rest = .call request next) :
    protocol.permits (protocol.phase thread) request := by
  have here := kept name thread found
  rw [waits] at here
  exact here.1

end Protocol

end Effect
