import Mathlib

/-! Tables of rows with a primary key: the statements of a relational store
and what each leaves alone. -/

/-- Rows in insertion order, no two with the same key. -/
structure Table {ρ κ : Type} (key : ρ → κ) where
  rows : List ρ
  distinct : (rows.map key).Nodup

namespace Table

variable {ρ κ : Type} {key : ρ → κ}

variable {table : Table key} {row : ρ} {wanted : κ}

instance : Membership ρ (Table key) := ⟨fun table row => row ∈ table.rows⟩

def empty : Table key where
  rows := []
  distinct := List.nodup_nil

def single (row : ρ) : Table key := ⟨[row], List.nodup_singleton _⟩

theorem mem_iff : row ∈ table ↔ row ∈ table.rows := Iff.rfl

@[ext] theorem ext {left right : Table key} (same : left.rows = right.rows) : left = right := by
  cases left
  cases right
  cases same
  rfl

theorem eq_of_key_eq (leftMember : left ∈ table) (rightMember : right ∈ table)
    (same : key left = key right) : left = right :=
  List.inj_on_of_nodup_map table.distinct leftMember rightMember same

/-! `UPDATE .. SET .. WHERE`; the key is not among the columns set. -/

def update (table : Table key) (selected : ρ → Bool) (change : ρ → ρ)
    (keeps : ∀ row, key (change row) = key row) : Table key where
  rows := table.rows.map fun row => if selected row then change row else row
  distinct := by
    rw [List.map_map]
    have keys : (key ∘ fun row => if selected row then change row else row) = key := by
      funext row
      by_cases chosen : selected row <;> simp [chosen, keeps]
    rw [keys]
    exact table.distinct

section

variable {selected : ρ → Bool} {change : ρ → ρ} {keeps : ∀ row, key (change row) = key row}

theorem map_key_update (table : Table key) (selected : ρ → Bool)
    (change : ρ → ρ) (keeps : ∀ row, key (change row) = key row) :
    (table.update selected change keeps).rows.map key = table.rows.map key := by
  unfold update
  rw [List.map_map]
  refine List.map_congr_left fun row _ => ?_
  simp only [Function.comp_apply]
  split
  · exact keeps row
  · rfl

end

variable [DecidableEq κ]

def find (table : Table key) (wanted : κ) : Option ρ := table.rows.find? fun row => key row = wanted

theorem find_some (found : table.find wanted = some row) : row ∈ table ∧ key row = wanted := by
  refine ⟨List.mem_of_find?_eq_some found, ?_⟩
  simpa using List.find?_some found

theorem find_eq_none : table.find wanted = none ↔ ∀ row ∈ table, key row ≠ wanted := by
  unfold find
  rw [List.find?_eq_none]
  simp only [decide_eq_true_eq]
  exact Iff.rfl

theorem find_of_mem (mem : row ∈ table) : table.find (key row) = some row := by
  cases found : table.find (key row) with
  | none => exact absurd rfl (find_eq_none.mp found row mem)
  | some other =>
    obtain ⟨otherMember, same⟩ := find_some found
    rw [eq_of_key_eq otherMember mem same]

theorem find_update :
    (table.update selected change keeps).find wanted = (table.find wanted).map fun row =>
        if selected row then change row else row := by
  unfold find update
  rw [List.find?_map]
  congr 2
  funext row
  by_cases chosen : selected row <;> simp [chosen, keeps]

section

variable {table : Table key} {selected : ρ → Bool} {change : ρ → ρ}
  (keeps : ∀ row, key (change row) = key row) {wanted : κ}

theorem find_update_of_selected (chosen : ∀ row, key row = wanted → selected row = true) :
    (table.update selected change keeps).find wanted = (table.find wanted).map change := by
  rw [find_update]
  refine Option.map_congr fun row found => ?_
  rw [if_pos (chosen row (find_some found).2)]

theorem find_update_of_not (skipped : ∀ row, key row = wanted → selected row = false) :
    (table.update selected change keeps).find wanted = table.find wanted := by
  rw [find_update]
  cases found : table.find wanted with
  | none => rfl
  | some row => simp [skipped row (find_some found).2]

end

/-! `INSERT`, refused when the key is taken. -/

def insert (table : Table key) (row : ρ) : Option (Table key) :=
  if fresh : ∀ other ∈ table.rows, key other ≠ key row then
    some {
      rows := table.rows ++ [row]
      distinct := by
        rw [List.map_append, List.nodup_append]
        refine ⟨table.distinct, by simp, ?_⟩
        intro left member right last same
        obtain ⟨other, kept, rfl⟩ := List.mem_map.mp member
        simp only [List.map_cons, List.map_nil, List.mem_singleton] at last
        exact fresh other kept (same.trans last) }
  else none

theorem insert_some
    (inserted : table.insert row = some table') : (∀ other ∈ table, key other ≠ key row) ∧
      table'.rows = table.rows ++ [row] := by
  unfold insert at inserted
  split at inserted
  · rename_i fresh
    exact ⟨fresh, by rw [← Option.some.inj inserted]⟩
  · cases inserted

theorem insert_none (refused : table.insert row = none) :
    ∃ other, table.find (key row) = some other := by
  cases found : table.find (key row) with
  | some other => exact ⟨other, rfl⟩
  | none =>
    have fresh : ∀ other ∈ table.rows, key other ≠ key row := find_eq_none.mp found
    rw [insert, dif_pos fresh] at refused
    cases refused

theorem mem_insert
    (inserted : table.insert row = some table') : other ∈ table' ↔ other ∈ table ∨ other = row := by
  rw [mem_iff, (insert_some inserted).2]
  simp [mem_iff]

theorem find_insert_self
    (inserted : table.insert row = some table') : table'.find (key row) = some row :=
  find_of_mem ((mem_insert inserted).mpr (Or.inr rfl))

theorem find_insert_of_ne
    (inserted : table.insert row = some table') (different : wanted ≠ key row) :
    table'.find wanted = table.find wanted := by
  unfold find
  rw [(insert_some inserted).2, List.find?_append]
  have last : [row].find? (fun other => decide (key other = wanted)) = none := by
    simp [Ne.symm different]
  rw [last, Option.or_none]

/-! `INSERT OR REPLACE`. -/

def upsert (table : Table key) (row : ρ) : Table key where
  rows := (table.rows.filter fun other => key other ≠ key row) ++ [row]
  distinct := by
    rw [List.map_append, List.nodup_append]
    refine ⟨table.distinct.sublist (List.filter_sublist.map key), by simp, ?_⟩
    intro left member right last same
    obtain ⟨other, kept, rfl⟩ := List.mem_map.mp member
    have different := (List.mem_filter.mp kept).2
    simp only [List.map_cons, List.map_nil, List.mem_singleton] at last
    subst last
    exact absurd same (by simpa using different)

theorem mem_upsert : other ∈ table.upsert row ↔
      (other ∈ table ∧ key other ≠ key row) ∨ other = row := by
  simp [mem_iff, upsert]

@[simp] theorem find_upsert_self (table : Table key) (row : ρ) :
    (table.upsert row).find (key row) = some row :=
  find_of_mem (mem_upsert.mpr (Or.inr rfl))

theorem find_upsert_of_ne (table : Table key)
    (different : wanted ≠ key row) : (table.upsert row).find wanted = table.find wanted := by
  unfold find upsert
  rw [List.find?_append, List.find?_filter]
  have last : [row].find? (fun other => decide (key other = wanted)) = none := by
    simp [Ne.symm different]
  rw [last, Option.or_none]
  congr 1
  funext other
  by_cases same : key other = wanted
  · simp [same, different]
  · simp [same]

theorem length_le_upsert (table : Table key) (row : ρ) :
    table.rows.length ≤ (table.upsert row).rows.length := by
  have once : table.rows.countP (fun other => key other = key row) ≤ 1 := by
    have counted := List.nodup_iff_count_le_one.mp table.distinct (key row)
    rw [List.count_eq_countP, List.countP_map] at counted
    simpa [Function.comp_def, beq_eq_decide] using counted
  have split := List.length_eq_countP_add_countP
    (fun other => decide (key other = key row)) (l := table.rows)
  have rest : (table.rows.filter fun other => key other ≠ key row).length =
      table.rows.countP fun other => ¬ decide (key other = key row) = true := by
    rw [List.countP_eq_length_filter]
    simp
  unfold upsert
  rw [List.length_append, rest, List.length_singleton]
  omega

theorem length_upsert_le (table : Table key) (row : ρ) :
    (table.upsert row).rows.length ≤ table.rows.length + 1 := by
  unfold upsert
  rw [List.length_append]
  exact Nat.add_le_add_right (List.length_filter_le ..) 1

section

variable {rows : List ρ}

theorem find_foldl_upsert_of_not_mem (absent : wanted ∉ rows.map key) (table : Table key) :
    (rows.foldl upsert table).find wanted = table.find wanted := by
  induction rows generalizing table with
  | nil => rfl
  | cons row rest ih =>
    rw [List.map_cons, List.mem_cons, not_or] at absent
    rw [List.foldl_cons, ih absent.2, find_upsert_of_ne _ absent.1]

theorem exists_find_foldl_upsert (mem : wanted ∈ rows.map key) (table : Table key) :
    ∃ row, (rows.foldl upsert table).find wanted = some row := by
  induction rows generalizing table with
  | nil => cases mem
  | cons row rest ih =>
    rw [List.foldl_cons]
    by_cases later : wanted ∈ rest.map key
    · exact ih later _
    · rcases List.mem_cons.mp mem with rfl | listed
      · exact ⟨row, by rw [find_foldl_upsert_of_not_mem later, find_upsert_self]⟩
      · exact absurd listed later

theorem rows_foldl_upsert (distinct : (rows.map key).Nodup) (table : Table key) :
    (rows.foldl upsert table).rows =
      table.rows.filter (fun row => key row ∉ rows.map key) ++ rows := by
  induction rows generalizing table with
  | nil => simp
  | cons row rest ih =>
    rw [List.map_cons, List.nodup_cons] at distinct
    rw [List.foldl_cons, ih distinct.2]
    simp only [upsert, List.filter_append, List.filter_filter,
      List.map_cons, List.mem_cons, not_or, List.append_assoc]
    have last : [row].filter (fun other => decide (key other ∉ rest.map key)) = [row] := by
      simpa using distinct.1
    rw [last, List.singleton_append]
    congr 1
    refine List.filter_congr fun other _ => ?_
    simp [Bool.and_comm]

theorem filter_foldl_upsert (distinct : (rows.map key).Nodup) (table : Table key) :
    (rows.foldl upsert table).rows.filter (fun row => key row ∈ rows.map key) = rows := by
  rw [rows_foldl_upsert distinct, List.filter_append, List.filter_filter]
  have none : table.rows.filter (fun row => decide (key row ∈ rows.map key) &&
      decide (key row ∉ rows.map key)) = [] := by
    simp
  have all : rows.filter (fun row => decide (key row ∈ rows.map key)) = rows := by
    rw [List.filter_eq_self]
    intro row mem
    simpa using ⟨row, mem, rfl⟩
  rw [none, all, List.nil_append]

end

/-! `DELETE .. WHERE`. -/

def delete (table : Table key) (selected : ρ → Bool) : Table key where
  rows := table.rows.filter fun row => !selected row
  distinct := table.distinct.sublist (List.filter_sublist.map key)

omit [DecidableEq κ] in
theorem mem_delete : row ∈ table.delete selected ↔ row ∈ table ∧ selected row = false := by
  simp [mem_iff, delete]

theorem find_delete :
    (table.delete selected).find wanted = (table.find wanted).filter fun row => !selected row := by
  cases found : table.find wanted with
  | none =>
    rw [Option.filter_none, find_eq_none]
    intro row mem
    exact find_eq_none.mp found row (mem_delete.mp mem).1
  | some row =>
    obtain ⟨mem, rfl⟩ := find_some found
    cases chosen : selected row with
    | false =>
      rw [find_of_mem (mem_delete.mpr ⟨mem, chosen⟩)]
      simp [Option.filter, chosen]
    | true =>
      have gone : (table.delete selected).find (key row) = none := by
        rw [find_eq_none]
        intro other kept same
        obtain ⟨stays, unchosen⟩ := mem_delete.mp kept
        rw [eq_of_key_eq stays mem same, chosen] at unchosen
        cases unchosen
      rw [gone]
      simp [Option.filter, chosen]

end Table
