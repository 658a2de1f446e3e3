import Mathlib

namespace Effect

/-- Each entry of the map is a hold that is out, and no two holds are of one
key. -/
structure Registered {κ ν : Type} (entries : κ → Option ν) (holds : List (κ × ν)) : Prop where
  distinct : (holds.map Prod.fst).Nodup
  entry_iff : ∀ key value, entries key = some value ↔ (key, value) ∈ holds

namespace Registered

variable {κ ν : Type} {entries : κ → Option ν} {holds front back : List (κ × ν)}
  {key : κ} {value : ν}

theorem nil : Registered (fun _ : κ => (none : Option ν)) [] := ⟨List.nodup_nil, by simp⟩

theorem isSome_iff (registered : Registered entries holds) :
    (entries key).isSome = true ↔ key ∈ holds.map Prod.fst := by
  rw [Option.isSome_iff_exists, List.mem_map]
  constructor
  · rintro ⟨value, found⟩
    exact ⟨(key, value), (registered.entry_iff key value).mp found, rfl⟩
  · rintro ⟨⟨_, value⟩, mem, rfl⟩
    exact ⟨value, (registered.entry_iff _ value).mpr mem⟩

variable [DecidableEq κ]

theorem isSome_iff_count (registered : Registered entries holds) :
    (entries key).isSome = true ↔ (holds.map Prod.fst).count key = 1 := by
  rw [registered.isSome_iff]
  constructor
  · exact List.count_eq_one_of_mem registered.distinct
  · intro once
    apply List.count_pos_iff.mp
    omega

theorem claim (registered : Registered entries holds) (free : entries key = none) :
    Registered (Function.update entries key (some value)) ((key, value) :: holds) where
  distinct := by
    rw [List.map_cons, List.nodup_cons]
    refine ⟨?_, registered.distinct⟩
    rw [← registered.isSome_iff, free]
    exact Bool.false_ne_true
  entry_iff := by
    intro other wanted
    rw [List.mem_cons, Prod.mk.injEq, ← registered.entry_iff]
    by_cases same : other = key
    · subst same
      simp [free, eq_comm]
    · simp [same]

theorem release (registered : Registered entries (front ++ (key, value) :: back)) :
    Registered (Function.update entries key none) (front ++ back) where
  distinct := by
    apply List.Nodup.sublist _ registered.distinct
    apply List.Sublist.map
    exact List.Sublist.append_left (List.sublist_cons_self _ _) front
  entry_iff := by
    have distinct := registered.distinct
    rw [List.map_append, List.map_cons, List.nodup_middle, List.nodup_cons,
      ← List.map_append] at distinct
    intro other wanted
    by_cases same : other = key
    · subst same
      rw [Function.update_self]
      constructor
      · intro found
        cases found
      · intro mem
        exact absurd (List.mem_map_of_mem mem) distinct.1
    · rw [Function.update_of_ne same, registered.entry_iff, List.mem_append,
        List.mem_append, List.mem_cons, Prod.mk.injEq]
      simp [same]

end Registered

end Effect
