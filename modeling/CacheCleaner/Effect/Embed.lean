import CacheCleaner.Effect.Threads

namespace Effect

section

variable {Request Request' α β : Type} {Reply : Request → Type} {Reply' : Request' → Type}

/-- The program with its requests sent on.  A reply that comes back as nothing
ends the process. -/
def Program.embed (send : Request → Request')
    (receive : (request : Request) → Reply' (send request) → Option (Reply request)) :
    Program Request Reply α → Program Request' Reply' α
  | .done value => .done value
  | .abort => .abort
  | .call request next => .call (send request) fun reply =>
    match receive request reply with
    | none => .abort
    | some answer => (next answer).embed send receive

theorem Program.embed_bind (send : Request → Request')
    (receive : (request : Request) → Reply' (send request) → Option (Reply request))
    (program : Program Request Reply α) (next : α → Program Request Reply β) :
    (program >>= next).embed send receive = program.embed send receive >>= fun value =>
        (next value).embed send receive := by
  induction program with
  | done value => rfl
  | abort => rfl
  | call request rest ih =>
    simp only [call_bind, embed]
    congr 1
    funext reply
    cases receive request reply with
    | none => rfl
    | some answer => exact ih answer

variable {Phase Code : Type} {protocol : Protocol Phase Code Request' Reply'}
  {send : Request → Request'}
  {receive : (request : Request) → Reply' (send request) →
    Option (Reply request)}
  {phase : Phase}

namespace Protocol.Obeys

variable {program : Program Request Reply α}

theorem embed_call
    {next : Reply request → Program Request Reply α} (here : protocol.permits phase (send request))
    (rest : ∀ reply answer, receive request reply = some answer →
      protocol.Obeys post (protocol.advance phase ⟨send request, reply⟩)
        ((next answer).embed send receive)) : protocol.Obeys post phase
      ((Program.call request next).embed send receive) := by
  rw [Program.embed, call_iff]
  refine ⟨here, fun reply => ?_⟩
  cases received : receive request reply with
  | none => trivial
  | some answer => exact rest reply answer received

theorem embed_bind {next : α → Program Request Reply β}
    (first : protocol.Obeys middle phase (program.embed send receive))
    (rest : ∀ phase value, middle phase value →
      protocol.Obeys post phase ((next value).embed send receive)) :
    protocol.Obeys post phase ((program >>= next).embed send receive) := by
  rw [Program.embed_bind]
  exact first.bind rest

theorem embed_of_issues {allowed : Request → Prop}
    (issues : program.Issues allowed) (permitted : ∀ request, allowed request →
      protocol.permits phase (send request)) (stays : ∀ request reply, allowed request →
      (receive request reply).isSome = true →
      protocol.advance phase ⟨send request, reply⟩ = phase) :
    protocol.Obeys (fun after _ => after = phase) phase (program.embed send receive) := by
  induction program with
  | done value => exact rfl
  | abort => trivial
  | call request next ih =>
    refine embed_call (permitted request issues.1) ?_
    intro reply answer received
    rw [stays request reply issues.1 (by rw [received]; rfl)]
    exact ih answer (issues.2 answer)

end Protocol.Obeys

end

end Effect
