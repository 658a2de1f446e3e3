import Mathlib

namespace Stream

structure Feed (α : Type) where
  buffer : List α
  delivered : List (List α)

abbrev Receiver (ε α : Type) := List (List α) → Except ε Bool

namespace Feed

variable {ε α : Type}

def start : Feed α := ⟨[], []⟩

def handOver (feed : Feed α) : Feed α := ⟨[], feed.delivered ++ [feed.buffer]⟩

def push (size : Nat) (receive : Receiver ε α) (feed : Feed α) (item : α) :
    Except ε Bool × Feed α :=
  let feed := { feed with buffer := feed.buffer ++ [item] }
  if size ≤ feed.buffer.length then
    (receive feed.handOver.delivered, feed.handOver)
  else (.ok true, feed)

def pushAll (size : Nat) (receive : Receiver ε α) : List α → Feed α → Except ε Bool × Feed α
  | [], feed => (.ok true, feed)
  | item :: rest, feed =>
    match feed.push size receive item with
    | (.ok true, feed) => pushAll size receive rest feed
    | stopped => stopped

def flush (receive : Receiver ε α) (feed : Feed α) : Except ε Unit × Feed α :=
  if feed.buffer.isEmpty then (.ok (), feed)
  else ((receive feed.handOver.delivered).map fun _ => (), feed.handOver)

def stream (size : Nat) (receive : Receiver ε α) (items : List α) (feed : Feed α) :
    Except ε Unit × Feed α :=
  match feed.pushAll size receive items with
  | (.error error, feed) => (.error error, feed)
  | (.ok _, feed) => feed.flush receive

end Feed

def pieces (size : Nat) : List α → List α → List (List α)
  | buffer, [] => if buffer.isEmpty then [] else [buffer]
  | buffer, item :: rest =>
    if size ≤ (buffer ++ [item]).length then (buffer ++ [item]) :: pieces size [] rest
    else pieces size (buffer ++ [item]) rest

def offer (receive : Receiver ε α) : List (List α) → List (List α) → Except ε Unit × List (List α)
  | delivered, [] => (.ok (), delivered)
  | delivered, chunk :: rest =>
    match receive (delivered ++ [chunk]) with
    | .ok true => offer receive (delivered ++ [chunk]) rest
    | .ok false => (.ok (), delivered ++ [chunk])
    | .error error => (.error error, delivered ++ [chunk])

section

variable {ε α : Type} {size : Nat} {buffer items : List α}

theorem flatten_pieces (size : Nat) (buffer items : List α) :
    (pieces size buffer items).flatten = buffer ++ items := by
  induction items generalizing buffer with
  | nil =>
    unfold pieces
    split
    · rename_i empty
      rw [List.isEmpty_iff.mp empty]
      rfl
    · simp
  | cons item rest ih =>
    unfold pieces
    split
    · rw [List.flatten_cons, ih]
      simp
    · rw [ih]
      simp

theorem length_pieces (room : buffer.length < size)
    (mem : chunk ∈ pieces size buffer items) : 0 < chunk.length ∧ chunk.length ≤ size := by
  induction items generalizing buffer with
  | nil =>
    unfold pieces at mem
    split at mem
    · cases mem
    · rename_i filled
      rw [List.mem_singleton.mp mem]
      constructor
      · apply List.length_pos_iff.mpr
        intro empty
        exact filled (List.isEmpty_iff.mpr empty)
      · omega
  | cons item rest ih =>
    have length : (buffer ++ [item]).length = buffer.length + 1 := by simp
    unfold pieces at mem
    split at mem
    · rename_i full
      rcases List.mem_cons.mp mem with rfl | later
      · omega
      · apply ih _ later
        rw [List.length_nil]
        omega
    · apply ih _ mem
      omega

theorem length_of_mem_dropLast_pieces (room : buffer.length < size)
    (mem : chunk ∈ (pieces size buffer items).dropLast) : chunk.length = size := by
  induction items generalizing buffer with
  | nil =>
    unfold pieces at mem
    split at mem <;> cases mem
  | cons item rest ih =>
    have length : (buffer ++ [item]).length = buffer.length + 1 := by simp
    unfold pieces at mem
    split at mem
    · rename_i full
      cases later : pieces size [] rest with
      | nil =>
        rw [later] at mem
        cases mem
      | cons next others =>
        rw [List.dropLast_cons_of_ne_nil (by simp [later])] at mem
        rcases List.mem_cons.mp mem with rfl | inside
        · omega
        · apply ih _ inside
          rw [List.length_nil]
          omega
    · apply ih _ mem
      omega

theorem stream_eq_offer (size : Nat) (receive : Receiver ε α) (items : List α) (feed : Feed α) :
    ((feed.stream size receive items).1, (feed.stream size receive items).2.delivered) =
      offer receive feed.delivered (pieces size feed.buffer items) := by
  induction items generalizing feed with
  | nil =>
    simp only [Feed.stream, Feed.pushAll, Feed.flush, pieces]
    split
    · rfl
    · simp only [Feed.handOver, offer]
      cases receive (feed.delivered ++ [feed.buffer]) with
      | error error => rfl
      | ok more => cases more <;> rfl
  | cons item rest ih =>
    by_cases full : size ≤ (feed.buffer ++ [item]).length
    · simp only [Feed.stream, Feed.pushAll, Feed.push, pieces, full, if_true, Feed.handOver, offer]
      cases receive (feed.delivered ++ [feed.buffer ++ [item]]) with
      | error error => rfl
      | ok more =>
        cases more with
        | false => simp [Feed.flush]
        | true => exact ih ⟨[], feed.delivered ++ [feed.buffer ++ [item]]⟩
    · simp only [Feed.stream, Feed.pushAll, Feed.push, pieces, full, if_false]
      exact ih ⟨feed.buffer ++ [item], feed.delivered⟩

end

section

variable {ε α : Type} {receive : Receiver ε α}

variable {delivered chunks calls : List (List α)}

/-- The calls of a receiver that is offered chunks: in order, each after a yes,
and all of them unless the last answer was another one. -/
structure Served (receive : Receiver ε α) (delivered chunks calls : List (List α)) : Prop where
  inOrder : calls <+: chunks
  answered : ∀ count, 0 < count → count < calls.length →
    receive (delivered ++ calls.take count) = .ok true
  ended : calls = chunks ∨ receive (delivered ++ calls) ≠ .ok true

theorem served_single (stops : receive (delivered ++ [chunk]) ≠ .ok true) :
    Served receive delivered (chunk :: rest) [chunk] where
  inOrder := List.cons_prefix_cons.mpr ⟨rfl, List.nil_prefix⟩
  answered := by
    intro count positive bound
    rw [List.length_singleton] at bound
    omega
  ended := Or.inr stops

theorem Served.cons (first : receive (delivered ++ [chunk]) = .ok true)
    (later : Served receive (delivered ++ [chunk]) rest calls) :
    Served receive delivered (chunk :: rest) (chunk :: calls) where
  inOrder := List.cons_prefix_cons.mpr ⟨rfl, later.inOrder⟩
  answered := by
    intro count positive bound
    obtain ⟨count, rfl⟩ := Nat.exists_eq_succ_of_ne_zero (Nat.ne_of_gt positive)
    rw [List.take_succ_cons, List.append_cons]
    cases count with
    | zero => simpa using first
    | succ count =>
      apply later.answered _ (Nat.succ_pos _)
      rw [List.length_cons] at bound
      omega
  ended := by
    rw [List.append_cons, List.cons.injEq]
    exact later.ended.imp_left fun same => ⟨rfl, same⟩

theorem offer_served (receive : Receiver ε α) (delivered chunks : List (List α)) :
    ∃ calls, (offer receive delivered chunks).2 = delivered ++ calls ∧
      Served receive delivered chunks calls := by
  induction chunks generalizing delivered with
  | nil =>
    refine ⟨[], (List.append_nil _).symm, List.nil_prefix, ?_, Or.inl rfl⟩
    intro count _ bound
    cases bound
  | cons chunk rest ih =>
    rw [offer]
    cases answer : receive (delivered ++ [chunk]) with
    | error error =>
      refine ⟨[chunk], rfl, served_single ?_⟩
      rw [answer]
      exact nofun
    | ok more =>
      cases more with
      | false =>
        refine ⟨[chunk], rfl, served_single ?_⟩
        rw [answer]
        exact nofun
      | true =>
        obtain ⟨calls, whole, later⟩ := ih (delivered ++ [chunk])
        refine ⟨chunk :: calls, ?_, later.cons answer⟩
        rw [List.append_cons delivered chunk calls]
        exact whole

theorem Served.all (served : Served receive delivered chunks calls)
    (accepts : ∀ history, receive history = .ok true) : calls = chunks :=
  served.ended.resolve_right fun stops => stops (accepts _)

theorem Served.refused (served : Served receive delivered chunks calls) (positive : 0 < count)
    (bound : count ≤ calls.length) (refuses : receive (delivered ++ calls.take count) = .ok false) :
    calls = chunks.take count := by
  have last : count = calls.length := by
    apply Nat.le_antisymm bound
    apply Nat.le_of_not_lt
    intro more
    rw [served.answered count positive more] at refuses
    cases refuses
  rw [last]
  exact List.prefix_iff_eq_take.mp served.inOrder

end

section

variable {ε α : Type} {size : Nat} {receive : Receiver ε α}

theorem Feed.pushAll_singleton (item : α) (feed : Feed α) :
    feed.pushAll size receive [item] = feed.push size receive item := by
  rw [Feed.pushAll]
  rcases feed.push size receive item with ⟨answer, next⟩
  cases answer with
  | error error => rfl
  | ok more => cases more <;> rfl

theorem Feed.pushAll_append (front back : List α) (feed : Feed α) :
    feed.pushAll size receive (front ++ back) = match feed.pushAll size receive front with
      | (.ok true, feed) => feed.pushAll size receive back
      | stopped => stopped := by
  induction front generalizing feed with
  | nil => rfl
  | cons item rest ih =>
    simp only [List.cons_append, Feed.pushAll]
    rcases feed.push size receive item with ⟨answer, next⟩
    cases answer with
    | error error => rfl
    | ok more =>
      cases more with
      | false => rfl
      | true => exact ih next

end

end Stream
