import CacheCleaner.Effect.Program

namespace Effect.Program

variable {Request : Type} {Reply : Request → Type} {α β γ δ σ : Type}
  {handler : Handler Request Reply σ}

def Twin (handler : Handler Request Reply σ) (post : α → β → σ → Prop)
    (left : Program Request Reply α) (right : Program Request Reply β) (state : σ) : Prop :=
  ∃ value other after, left.run handler state = (some value, after) ∧
    right.run handler state = (some other, after) ∧ post value other after

namespace Twin

variable {state : σ}

theorem done
    (holds : post value other state) : Twin handler post (.done value) (.done other) state :=
  ⟨value, other, state, rfl, rfl, holds⟩

theorem ask {next' : Reply request → Program Request Reply β}
    (rest : Twin handler post (next (handler.respond request state).1)
      (next' (handler.respond request state).1) (handler.respond request state).2) :
    Twin handler post (perform request >>= next) (perform request >>= next') state :=
  rest

theorem bind (first : Twin handler middle left right state)
    (rest : ∀ value other after, middle value other after →
      Twin handler post (next value) (next' other) after) :
    Twin handler post (left >>= next) (right >>= next') state := by
  obtain ⟨value, other, after, run, run', held⟩ := first
  obtain ⟨value', other', final, ends, ends', holds⟩ := rest value other after held
  refine ⟨value', other', final, ?_, ?_, holds⟩
  · rw [run_bind_some handler run, ends]
  · rw [run_bind_some handler run', ends']

theorem run_eq (twin : Twin handler (fun value other _ => value = other) left right state) :
    left.run handler state = right.run handler state := by
  obtain ⟨value, other, after, run, run', rfl⟩ := twin
  rw [run, run']

end Twin

end Effect.Program
