import Mathlib

namespace Effect

/-! Logs of overwrites.  Each edit goes to one cell, and of two edits of a cell
the later one hides the earlier one, so a log can be replayed over any part of
itself. -/

structure Overwriting (Cell : Type) where
  Content : Cell → Type
  Edit : Cell → Type
  edit : {cell : Cell} → Edit cell → Content cell → Content cell
  hides : ∀ {cell : Cell} (later earlier : Edit cell) (content : Content cell),
    edit later (edit earlier content) = edit later content

namespace Overwriting

variable {Cell : Type} [DecidableEq Cell] (cells : Overwriting Cell)

abbrev State := (cell : Cell) → cells.Content cell

abbrev Entry := (cell : Cell) × cells.Edit cell

def write (state : cells.State) (entry : cells.Entry) : cells.State :=
  Function.update state entry.1 (cells.edit entry.2 (state entry.1))

def replay (state : cells.State) (log : List cells.Entry) : cells.State :=
  log.foldl cells.write state

variable {cells} {state : cells.State} {entry : cells.Entry}
  {log front back : List cells.Entry} {cell : Cell}

@[simp] theorem replay_nil : cells.replay state [] = state := rfl

@[simp] theorem replay_cons : cells.replay state (entry :: log) =
      cells.replay (cells.write state entry) log := rfl

theorem replay_append : cells.replay state (front ++ back) =
      cells.replay (cells.replay state front) back :=
  List.foldl_append

theorem write_of_ne (other : cell ≠ entry.1) : cells.write state entry cell = state cell :=
  Function.update_of_ne other ..

theorem write_self : cells.write state entry entry.1 = cells.edit entry.2 (state entry.1) :=
  Function.update_self ..

theorem replay_of_not_mem (absent : cell ∉ log.map Sigma.fst) :
    cells.replay state log cell = state cell := by
  induction log generalizing state with
  | nil => rfl
  | cons entry log ih =>
    rw [List.map_cons, List.mem_cons, not_or] at absent
    rw [replay_cons, ih absent.2, write_of_ne absent.1]

/-- What a log that edits a cell leaves in it: the last edit, on whatever was there. -/
theorem exists_last_edit (edited : cell ∈ log.map Sigma.fst) :
    ∃ edit, ⟨cell, edit⟩ ∈ log ∧
      ∀ state : cells.State, cells.replay state log cell = cells.edit edit (state cell) := by
  induction log with
  | nil => cases edited
  | cons entry log ih =>
    by_cases later : cell ∈ log.map Sigma.fst
    · obtain ⟨edit, mem, shown⟩ := ih later
      refine ⟨edit, List.mem_cons_of_mem _ mem, fun state => (shown _).trans ?_⟩
      by_cases same : cell = entry.1
      · subst same
        rw [write_self, cells.hides]
      · rw [write_of_ne same]
    · rcases List.mem_cons.mp edited with rfl | inside
      · refine ⟨entry.2, List.mem_cons_self .., fun state => ?_⟩
        rw [replay_cons, replay_of_not_mem later, write_self]
      · exact absurd inside later

theorem replay_replay_of_mem (edited : cell ∈ log.map Sigma.fst) :
    cells.replay (cells.replay state front) log cell = cells.replay state log cell := by
  obtain ⟨edit, -, shown⟩ := exists_last_edit edited
  rw [shown, shown]
  by_cases before : cell ∈ front.map Sigma.fst
  · obtain ⟨earlier, -, left⟩ := exists_last_edit before
    rw [left, cells.hides]
  · rw [replay_of_not_mem before]

theorem replay_flatMap (state : cells.State) (items : List ι) (logs : ι → List cells.Entry)
    (cell : Cell) : cells.replay state (items.flatMap logs) cell =
      match (items.filter fun item => decide (cell ∈ (logs item).map Sigma.fst)).getLast? with
      | none => state cell
      | some item => cells.replay state (logs item) cell := by
  induction items using List.reverseRecOn with
  | nil => rfl
  | append_singleton items item ih =>
    rw [List.flatMap_append, List.flatMap_singleton, replay_append, List.filter_append,
      List.filter_singleton]
    by_cases edited : cell ∈ (logs item).map Sigma.fst
    · simp [edited, replay_replay_of_mem edited]
    · simpa [edited, replay_of_not_mem edited] using ih

theorem replay_replay (hidden : ∀ entry ∈ front, entry.1 ∈ log.map Sigma.fst) :
    cells.replay (cells.replay state front) log = cells.replay state log := by
  funext cell
  by_cases edited : cell ∈ log.map Sigma.fst
  · exact replay_replay_of_mem edited
  · have untouched : cell ∉ front.map Sigma.fst := by
      intro mem
      obtain ⟨entry, inside, rfl⟩ := List.mem_map.mp mem
      exact edited (hidden entry inside)
    rw [replay_of_not_mem edited, replay_of_not_mem edited, replay_of_not_mem untouched]

theorem replay_write (hidden : entry.1 ∈ log.map Sigma.fst) :
    cells.replay (cells.write state entry) log = cells.replay state log :=
  replay_replay (List.forall_mem_singleton.mpr hidden)

theorem replay_write_iff : cells.replay (cells.write state entry) log = cells.replay state log ↔
      entry.1 ∈ log.map Sigma.fst ∨ cells.edit entry.2 (state entry.1) = state entry.1 := by
  by_cases hidden : entry.1 ∈ log.map Sigma.fst
  · exact iff_of_true (replay_write hidden) (Or.inl hidden)
  · constructor
    · intro same
      have here := congrFun same entry.1
      rw [replay_of_not_mem hidden, replay_of_not_mem hidden, write_self] at here
      exact Or.inr here
    · rintro (mem | same)
      · exact absurd mem hidden
      · rw [write, same, Function.update_eq_self]

end Overwriting

end Effect
