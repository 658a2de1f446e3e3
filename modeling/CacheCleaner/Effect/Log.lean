import CacheCleaner.Effect.Threads

namespace Effect.Program

variable {Request : Type} {Reply : Request → Type} {α β σ : Type}

variable {handler : Handler Request Reply σ} {program : Program Request Reply α}

def log (handler : Handler Request Reply σ) :
    Program Request Reply α → σ → List (Exchange Request Reply)
  | .done _, _ => []
  | .abort, _ => []
  | .call request next, state =>
    ⟨request, (handler.respond request state).1⟩ ::
      log handler (next (handler.respond request state).1) (handler.respond request state).2

/-- On every way through a program, whatever it is answered, the requests are
allowed, and `post` holds of the exchanges and the value at its end, or `stop`
where it aborts. -/
def Ways (stop : Prop) (allowed : Request → Prop)
    (post : List (Exchange Request Reply) → α → Prop) : Program Request Reply α → Prop
  | .done value => post [] value
  | .abort => stop
  | .call request next => allowed request ∧ ∀ reply, Ways stop allowed
      (fun log value => post (⟨request, reply⟩ :: log) value) (next reply)

abbrev Paths (post : List (Exchange Request Reply) → α → Prop) : Program Request Reply α → Prop :=
  Ways True (fun _ => True) post

abbrev Sure (allowed : Request → Prop) (post : List (Exchange Request Reply) → α → Prop) :
    Program Request Reply α → Prop :=
  Ways False allowed post

theorem log_bind (handler : Handler Request Reply σ)
    (program : Program Request Reply α) (next : α → Program Request Reply β) (state : σ) :
    (program >>= next).log handler state = program.log handler state ++
        match program.run handler state with
        | (some value, after) => (next value).log handler after
        | (none, _) => [] := by
  induction program generalizing state with
  | done value => rfl
  | abort => rfl
  | call request rest ih =>
    exact congrArg (List.cons _) (ih _ _)

theorem log_bind_some (first : program.run handler state = (some value, after)) :
    (program >>= next).log handler state =
      program.log handler state ++ (next value).log handler after := by
  rw [log_bind, first]

theorem run_eq_foldl_log {τ : Type}
    (view : σ → τ) (change : τ → Exchange Request Reply → τ) (changes : ∀ request state,
      view (handler.respond request state).2 =
        change (view state) ⟨request, (handler.respond request state).1⟩)
    (program : Program Request Reply α) (state : σ) : view (program.run handler state).2 =
      (program.log handler state).foldl change (view state) := by
  induction program generalizing state with
  | done value => rfl
  | abort => rfl
  | call request next ih =>
    rw [run_call, ih, changes]
    rfl

theorem Total.next {next : Reply request → Program Request Reply α}
    (rest : ∀ reply, Total (next reply)) : Total (Program.perform request >>= next) :=
  rest

theorem Total.exists_run (total : Total program) (handler : Handler Request Reply σ) (state : σ) :
    ∃ value final, program.run handler state = (some value, final) := by
  induction program generalizing state with
  | done value => exact ⟨value, state, rfl⟩
  | abort => exact total.elim
  | call request next ih => exact ih _ (total _) _

namespace Ways

variable {program : Program Request Reply α} {post : List (Exchange Request Reply) → α → Prop}
  {front : List (Exchange Request Reply)} {middle : List (Exchange Request Reply) → α → Prop}
  {stop : Prop} {allowed : Request → Prop}

theorem mono (ways : Ways stop allowed post program) (stops : stop → stop')
    (asks : ∀ request, allowed request → allowed' request)
    (weaker : ∀ log value, post log value → post' log value) :
    Ways stop' allowed' post' program := by
  induction program generalizing post post' with
  | done value => exact weaker [] value ways
  | abort => exact stops ways
  | call request next ih =>
    exact ⟨asks request ways.1, fun reply =>
      ih reply (ways.2 reply) fun log value => weaker _ value⟩

theorem paths (ways : Ways stop allowed post program) : Paths post program :=
  ways.mono (fun _ => trivial) (fun _ _ => trivial) fun _ _ => id

theorem bind {post : List (Exchange Request Reply) → β → Prop}
    (first : Ways stop allowed middle program) (rest : ∀ log value, middle log value →
      Ways stop allowed (fun later => post (log ++ later)) (next value)) :
    Ways stop allowed post (program >>= next) := by
  induction program generalizing middle post with
  | done value => exact rest [] value first
  | abort => exact first
  | call request continuation ih =>
    exact ⟨first.1, fun reply => ih reply (first.2 reply) fun log value => rest _ value⟩

theorem next {next : Reply request → Program Request Reply α} (here : allowed request)
    (rest : ∀ reply, Ways stop allowed (fun log => post (front ++ [⟨request, reply⟩] ++ log))
      (next reply)) :
    Ways stop allowed (fun log => post (front ++ log)) (perform request >>= next) := by
  refine ⟨here, fun reply => ?_⟩
  have later := rest reply
  simp only [List.append_assoc, List.singleton_append] at later
  exact later

theorem after {post : List (Exchange Request Reply) → β → Prop} {next : α → Program Request Reply β}
    (first : Ways stop allowed middle program) (rest : ∀ log value, middle log value →
      Ways stop allowed (fun later => post (front ++ log ++ later)) (next value)) :
    Ways stop allowed (fun log => post (front ++ log)) (program >>= next) := by
  refine first.bind fun log value holds => ?_
  have later := rest log value holds
  simp only [List.append_assoc] at later
  exact later

theorem last (holds : post front value) :
    Ways stop allowed (fun log => post (front ++ log)) (.done value) := by
  change post (front ++ []) value
  rwa [List.append_nil]

theorem run (ways : Ways stop allowed post program)
    (ran : program.run handler state = (some value, final)) :
    post (program.log handler state) value := by
  induction program generalizing state post with
  | done result =>
    cases ran
    exact ways
  | abort => cases ran
  | call request next ih => exact ih _ (ways.2 _) ran

theorem issues (ways : Ways stop allowed post program) : Issues allowed program := by
  induction program generalizing post with
  | done value => trivial
  | abort => trivial
  | call request next ih => exact ⟨ways.1, fun reply => ih reply (ways.2 reply)⟩

theorem total (ways : Sure allowed post program) : Total program := by
  induction program generalizing post with
  | done value => trivial
  | abort => exact ways
  | call request next ih => exact fun reply => ih reply (ways.2 reply)

theorem heard (ways : Ways stop allowed post program) :
    Ways stop allowed (fun log _ => ∀ exchange ∈ log, allowed exchange.1) program := by
  induction program generalizing post with
  | done value => exact fun exchange mem => nomatch mem
  | abort => exact ways
  | call request next ih =>
    refine ⟨ways.1, fun reply => (ih reply (ways.2 reply)).mono id (fun _ => id) ?_⟩
    exact fun log _ holds => List.forall_mem_cons.mpr ⟨ways.1, holds⟩

theorem of_issues (issues : Issues allowed program) :
    Ways True allowed (fun _ _ => True) program := by
  induction program with
  | done value => trivial
  | abort => trivial
  | call request next ih => exact ⟨issues.1, fun reply => ih reply (issues.2 reply)⟩

end Ways

theorem Paths.of_issues (issues : Issues allowed program) :
    Paths (fun log _ => ∀ exchange ∈ log, allowed exchange.1) program :=
  (Ways.of_issues issues).heard.paths

/-- A program that begins like another one, and what holds of its exchanges, of the value
of the beginning and of its own. -/
def Begins (post : α → List (Exchange Request Reply) → β → Prop) :
    Program Request Reply α → Program Request Reply β → Prop
  | .done value, whole => Paths (post value) whole
  | .abort, whole => whole = .abort
  | .call request next, whole => ∃ rest, whole = .call request rest ∧
      ∀ reply, Begins (fun value log => post value (⟨request, reply⟩ :: log)) (next reply)
        (rest reply)

namespace Begins

variable {first : Program Request Reply α} {whole : Program Request Reply β}
  {post : α → List (Exchange Request Reply) → β → Prop}

theorem bind {program : Program Request Reply γ}
    {middle : List (Exchange Request Reply) → γ → Prop}
    {next : γ → Program Request Reply α} {rest : γ → Program Request Reply β}
    (shared : Paths middle program) (later : ∀ log value, middle log value →
      Begins (fun first back => post first (log ++ back)) (next value) (rest value)) :
    Begins post (program >>= next) (program >>= rest) := by
  induction program generalizing middle post with
  | done value => exact later [] value shared
  | abort => rfl
  | call request continuation ih =>
    exact ⟨_, rfl, fun reply => ih reply (shared.2 reply) fun log value => later _ value⟩

theorem last (holds : post value front result) :
    Begins (fun value log => post value (front ++ log)) (.done value) (.done result) := by
  change Paths (fun log => post value (front ++ log)) (.done result)
  exact Ways.last holds

theorem next {next : Reply request → Program Request Reply α}
    {rest : Reply request → Program Request Reply β} (later : ∀ reply,
      Begins (fun value log => post value (front ++ [⟨request, reply⟩] ++ log)) (next reply)
        (rest reply)) :
    Begins (fun value log => post value (front ++ log)) (perform request >>= next)
      (perform request >>= rest) := by
  refine ⟨_, rfl, fun reply => ?_⟩
  have shared := later reply
  simp only [List.append_assoc, List.singleton_append] at shared
  exact shared

theorem after {program : Program Request Reply γ}
    {middle : List (Exchange Request Reply) → γ → Prop}
    {next : γ → Program Request Reply α} {rest : γ → Program Request Reply β}
    (shared : Paths middle program) (later : ∀ log value, middle log value →
      Begins (fun first back => post first (front ++ log ++ back)) (next value) (rest value)) :
    Begins (fun value log => post value (front ++ log)) (program >>= next)
      (program >>= rest) := by
  refine bind shared fun log value holds => ?_
  have more := later log value holds
  simp only [List.append_assoc] at more
  exact more

theorem extend {middle : α → List (Exchange Request Reply) → β → Prop}
    {post : α → List (Exchange Request Reply) → γ → Prop} {rest : β → Program Request Reply γ}
    (begins : Begins middle first whole) (later : ∀ log value result, middle value log result →
      Paths (fun back => post value (front ++ log ++ back)) (rest result)) :
    Begins (fun value log => post value (front ++ log)) first (whole >>= rest) := by
  induction first generalizing whole middle front with
  | done value => exact Ways.after begins fun log result => later log value result
  | abort =>
    cases begins
    rfl
  | call request following ih =>
    obtain ⟨more, rfl, begins⟩ := begins
    refine next fun reply => ih reply (begins reply) fun log value result holds => ?_
    have shown := later _ value result holds
    simp only [List.append_assoc, List.singleton_append] at shown ⊢
    exact shown

theorem run (begins : Begins post first whole)
    (ran : whole.run handler state = (some result, final)) :
    ∃ value, (first.run handler state).1 = some value ∧
      post value (whole.log handler state) result := by
  induction first generalizing whole post state with
  | done value => exact ⟨value, rfl, Ways.run begins ran⟩
  | abort =>
    cases begins
    cases ran
  | call request next ih =>
    obtain ⟨rest, rfl, later⟩ := begins
    exact ih _ (later _) ran

end Begins

end Effect.Program
