import CacheCleaner.Engine.Draft

namespace CacheCleaner

namespace RelativePath

variable {path sub : RelativePath} {text : String}

/-- A relative path within its limits, whose text is its components joined by
single slashes, and which its text gives back. -/
structure Canonical (path : RelativePath) : Prop where
  normal : ∀ component ∈ components path.raw, component.isNormal = true
  printable : ∀ character ∈ path.raw.toList, isControl character = false
  spelled : path.raw = "/".intercalate path.names
  size : path.raw.utf8ByteSize ≤ 4096
  count : path.names.length ≤ 255
  sizes : ∀ name ∈ path.names, name.utf8ByteSize ≤ 255
  readBack : parse path.raw = some path

/-- No two slashes in a row, none at an end, and no `.` between slashes. -/
def Tidy (text : String) : Prop := ∀ piece ∈ splitSlash text.toList, isFiller piece = false

theorem withinLimits_iff : withinLimits (components path.raw) = true ↔
    path.names.length ≤ 255 ∧ ∀ name ∈ path.names, name.utf8ByteSize ≤ 255 := by
  rw [← map_normal_names]
  simp [withinLimits, and_comm]

theorem parse_raw_iff : parse path.raw = some path ↔
    path.raw.utf8ByteSize ≤ 4096 ∧ withinLimits (components path.raw) = true := by
  by_cases blank : path.raw = ""
  · obtain ⟨raw, relative, nonempty, printable⟩ := path
    subst blank
    exact iff_of_true rfl ⟨show "".utf8ByteSize ≤ 4096 by decide, rfl⟩
  · unfold parse
    rw [if_neg blank, dif_pos path.printable, not_isAbsolute_of_relative path.relative,
      dif_pos path.relative, dif_pos (path.nonempty blank)]
    simp

theorem intercalate_splitSlash (text : List Char) : ['/'].intercalate (splitSlash text) = text := by
  induction text with
  | nil => rfl
  | cons character rest ih =>
    rw [splitSlash]
    cases pieces : splitSlash rest with
    | nil => exact absurd pieces (splitSlash_ne_nil rest)
    | cons piece others =>
      rw [pieces] at ih
      split
      · rename_i slash
        simpa [List.intercalate, slash] using ih
      · cases others <;> simpa [List.intercalate] using ih

theorem toList_of_pieceComponent? (read : pieceComponent? piece = some (.normal name)) :
    name.toList = piece := by
  unfold pieceComponent? at read
  split at read <;> cases read
  exact String.toList_ofList

theorem map_names_of_tidy (tidy : Tidy path.raw) :
    path.names.map String.toList = splitSlash path.raw.toList := by
  have components := components_of_relative path.relative
  rw [← map_normal_names] at components
  unfold Tidy at tidy
  generalize splitSlash path.raw.toList = pieces at components tidy ⊢
  generalize path.names = names at components ⊢
  induction pieces generalizing names with
  | nil => simpa using components
  | cons piece rest ih =>
    obtain ⟨first, others⟩ := List.forall_mem_cons.mp tidy
    cases read : pieceComponent? piece with
    | none => simp [isFiller, read] at first
    | some component =>
      rw [List.filterMap_cons_some read] at components
      obtain ⟨name, names, rfl, rfl, tail⟩ := List.map_eq_cons_iff.mp components
      rw [List.map_cons, toList_of_pieceComponent? read, ih others names tail]

theorem tidy_of_plain (plain : path.Plain) : Tidy path.raw := by
  intro piece mem
  rw [plain.split] at mem
  obtain ⟨name, inside, rfl⟩ := List.mem_map.mp mem
  obtain ⟨piece, -, rfl, filled, single, double⟩ := exists_piece_of_mem_names inside
  simp [isFiller, pieceComponent?]

theorem spelled_iff : path.raw = "/".intercalate path.names ↔ path.raw = "" ∨ Tidy path.raw := by
  rw [← String.toList_inj, String.toList_intercalate]
  constructor
  · intro spelled
    by_cases blank : path.raw = ""
    · exact .inl blank
    · exact .inr (tidy_of_plain ⟨names_ne_nil blank, spelled⟩)
  · rintro (blank | tidy)
    · have names : path.names = [] := by
        unfold names
        rw [blank]
        decide
      rw [blank, names]
      rfl
    · rw [map_names_of_tidy tidy]
      exact (intercalate_splitSlash _).symm

theorem canonical_iff : path.Canonical ↔ (path.raw = "" ∨ Tidy path.raw) ∧
    path.raw.utf8ByteSize ≤ 4096 ∧ path.names.length ≤ 255 ∧
      ∀ name ∈ path.names, name.utf8ByteSize ≤ 255 := by
  rw [← spelled_iff]
  constructor
  · intro canonical
    exact ⟨canonical.spelled, canonical.size, canonical.count, canonical.sizes⟩
  · rintro ⟨spelled, size, count, sizes⟩
    exact ⟨path.relative, path.printable, spelled, size, count, sizes,
      parse_raw_iff.mpr ⟨size, withinLimits_iff.mpr ⟨count, sizes⟩⟩⟩

theorem canonical_parse_iff (parsed : parse text = some path) :
    path.Canonical ↔ text = "" ∨ Tidy text := by
  have readBack : parse path.raw = some path := by rwa [raw_parse parsed]
  obtain ⟨size, limits⟩ := parse_raw_iff.mp readBack
  rw [canonical_iff, raw_parse parsed]
  rw [raw_parse parsed] at size
  exact and_iff_left ⟨size, withinLimits_iff.mp limits⟩

theorem tidy_append_slash : Tidy (front ++ "/" ++ back) ↔ Tidy front ∧ Tidy back := by
  have text : (front ++ "/" ++ back).toList = front.toList ++ '/' :: back.toList := by
    simp [String.toList_append]
  simp only [Tidy, text, splitSlash_append_slash, List.forall_mem_append]

theorem not_endsWith_of_tidy (tidy : Tidy text) : endsWithText text "/" = false := by
  rw [Bool.eq_false_iff]
  intro ends
  obtain ⟨front, whole⟩ := List.isSuffixOf_iff_suffix.mp ends
  have empty := tidy [] (by
    rw [← whole]
    exact (splitSlash_append_slash front []) ▸ List.mem_append_right _ (by decide))
  cases empty

def Extends (path sub : RelativePath) : Prop :=
  if path.raw = "" then sub.raw = "" ∨ Tidy sub.raw
  else Tidy sub.raw ∧ path.raw.utf8ByteSize + 1 + sub.raw.utf8ByteSize ≤ 4096 ∧
    path.names.length + sub.names.length ≤ 255

theorem canonical_push_iff (canonical : path.Canonical) (parsed : parse text = some sub) :
    (path.push sub).Canonical ↔ path.Extends sub := by
  have readBack : parse sub.raw = some sub := by rwa [raw_parse parsed]
  obtain ⟨size, limits⟩ := parse_raw_iff.mp readBack
  obtain ⟨count, sizes⟩ := withinLimits_iff.mp limits
  have relative := not_isAbsolute_of_relative sub.relative
  unfold Extends
  by_cases blank : path.raw = ""
  · have raw : (path.push sub).raw = sub.raw := by simp [push, pathJoin, relative, blank]
    have names : (path.push sub).names = sub.names := by rw [names, raw, names]
    rw [if_pos blank, canonical_iff, raw, names]
    exact and_iff_left ⟨size, count, sizes⟩
  · obtain ⟨tidy, -, -, small⟩ := canonical_iff.mp canonical
    have tidy := tidy.resolve_left blank
    have raw : (path.push sub).raw = path.raw ++ "/" ++ sub.raw := by
      simp [push, pathJoin, relative, blank, not_endsWith_of_tidy tidy]
    have filled : path.raw ++ "/" ++ sub.raw ≠ "" := by simp
    have slash : "/".utf8ByteSize = 1 := by decide
    rw [if_neg blank, canonical_iff, names_push, raw, tidy_append_slash, List.length_append,
      List.forall_mem_append, String.utf8ByteSize_append, String.utf8ByteSize_append, slash]
    simp only [filled, false_or, tidy, true_and]
    constructor
    · rintro ⟨neat, size, count, -⟩
      exact ⟨neat, size, count⟩
    · rintro ⟨neat, size, count⟩
      exact ⟨neat, size, count, small, sizes⟩

inductive Construction where
  | empty
  | parse (text : String)
  | join (base : Construction) (text : String)

namespace Construction

def value? : Construction → Option RelativePath
  | empty => some .empty
  | parse text => RelativePath.parse text
  | join base text => base.value?.bind (·.join text)

def values : Construction → List RelativePath
  | empty => [.empty]
  | parse text => (RelativePath.parse text).toList
  | join base text => base.values ++ (base.value?.bind (·.join text)).toList

/-- Every text is tidy, where it is not accepted for nothing, and adds no more
than there is room for. -/
def Fits : Construction → Prop
  | empty => True
  | parse text => ∀ path, RelativePath.parse text = some path → text = "" ∨ Tidy text
  | join base text => base.Fits ∧ ∀ path sub, base.value? = some path →
      RelativePath.parse text = some sub → path.Extends sub

theorem mem_values {construction : Construction} (made : construction.value? = some path) :
    path ∈ construction.values := by
  cases construction with
  | empty =>
    cases made
    exact List.mem_singleton_self _
  | parse text => exact Option.mem_toList.mpr made
  | join base text => exact List.mem_append_right _ (Option.mem_toList.mpr made)

/-- All values on the way are canonical exactly when each text fits. -/
theorem canonical_values_iff (construction : Construction) :
    (∀ path ∈ construction.values, path.Canonical) ↔ construction.Fits := by
  induction construction with
  | empty =>
    have blank : RelativePath.empty.Canonical := (canonical_parse_iff
      (show RelativePath.parse "" = some .empty from rfl)).mpr (.inl rfl)
    simpa [values, Fits] using blank
  | parse text =>
    simp only [values, Fits, Option.mem_toList]
    exact forall₂_congr fun path parsed => canonical_parse_iff parsed
  | join base text induction =>
    rw [values, List.forall_mem_append, induction, Fits]
    refine and_congr_right fun fits => ?_
    constructor
    · intro canonical path sub made parsed
      have whole := induction.mpr fits path (mem_values made)
      refine (canonical_push_iff whole parsed).mp (canonical _ ?_)
      simp [made, RelativePath.join, parsed]
    · intro extends_ path member
      simp only [Option.mem_toList, Option.bind_eq_some_iff] at member
      obtain ⟨before, made, joined⟩ := member
      obtain ⟨sub, parsed, rfl⟩ := Option.map_eq_some_iff.mp joined
      exact (canonical_push_iff (induction.mpr fits before (mem_values made)) parsed).mpr
        (extends_ before sub made parsed)

end Construction

/-- A repeated slash is kept, and joining an empty text leaves a slash at the
end. -/
theorem untidy_values :
    (∃ path, parse "a//b" = some path ∧ path.names = ["a", "b"] ∧ path.raw = "a//b") ∧
      ∃ path, (Construction.join (.parse "a") "").value? = some path ∧
        path.names = ["a"] ∧ path.raw = "a/" :=
  ⟨⟨⟨"a//b", by decide, by decide, by decide⟩, by decide +kernel⟩,
    ⟨⟨"a/", by decide, by decide, by decide⟩, by decide +kernel⟩⟩

end RelativePath

end CacheCleaner
