import Mathlib

/-! JSON values as text: what is asked of a library that writes them, and one that
does. -/

namespace Json

/-- Values; numbers with a fraction or an exponent are of a type of their own. -/
inductive Value (F : Type) where
  | null
  | bool (value : Bool)
  | nat (value : Nat)
  | float (value : F)
  | str (text : String)
  | arr (items : List (Value F))
  | obj (fields : List (String × Value F))

/-- A library that writes each value on one line and reads back what it wrote. -/
structure Library (F : Type) where
  print : Value F → List Char
  read : List Char → Option (Value F)
  read_print : ∀ value, read (print value) = some value
  oneLine : ∀ value, '\n' ∉ print value
  /-- The value of a natural number, where one is written without a fraction. -/
  ofNat : Nat → F

def isEscaped (c : Char) : Bool := c.toNat < 32 || c = '"' || c = '\\'

/-- Two digits of the code do, as all the escaped characters are below 256. -/
def escapeChar (c : Char) : List Char :=
  if isEscaped c then
    ['\\', 'u', '0', '0', Nat.digitChar (c.toNat / 16), Nat.digitChar (c.toNat % 16)]
  else [c]

def escape (text : List Char) : List Char := text.flatMap escapeChar

def printString (text : String) : List Char := '"' :: escape text.toList ++ ['"']

def hexValue (c : Char) : Nat :=
  if c.isDigit then c.toNat - '0'.toNat else c.toNat - 'a'.toNat + 10

def readString : List Char → Option (List Char × List Char)
  | [] => none
  | first :: rest =>
    if first = '"' then some ([], rest)
    else if first = '\\' then
      match rest with
      | 'u' :: '0' :: '0' :: high :: low :: rest => do
        let (text, rest) ← readString rest
        some (Char.ofNat (hexValue high * 16 + hexValue low) :: text, rest)
      | _ => none
    else do
      let (text, rest) ← readString rest
      some (first :: text, rest)

theorem hexValue_digitChar : ∀ digit < 16, hexValue (Nat.digitChar digit) = digit ∧
    Nat.digitChar digit ≠ '\n' := by
  decide

theorem isEscaped_small (escaped : isEscaped c = true) : c.toNat / 16 < 16 := by
  simp only [isEscaped, Bool.or_eq_true, decide_eq_true_eq] at escaped
  rcases escaped with (control | rfl) | rfl
  · omega
  · decide
  · decide

theorem readString_escapeChar : readString (escapeChar c ++ rest) = (do
      let (text, rest) ← readString rest
      some (c :: text, rest)) := by
  rw [escapeChar]
  split
  case isTrue escaped =>
    have code : hexValue (Nat.digitChar (c.toNat / 16)) * 16 +
        hexValue (Nat.digitChar (c.toNat % 16)) = c.toNat := by
      rw [(hexValue_digitChar _ (isEscaped_small escaped)).1,
        (hexValue_digitChar _ (Nat.mod_lt _ (by decide))).1]
      omega
    change (do
      let (text, rest) ← readString rest
      some (Char.ofNat (_ * 16 + _) :: text, rest)) = _
    rw [code, Char.ofNat_toNat]
  case isFalse plain =>
    simp only [isEscaped, Bool.or_eq_true, decide_eq_true_eq, not_or] at plain
    change readString (c :: rest) = _
    rw [readString.eq_def]
    simp only [if_neg plain.1.2, if_neg plain.2]

theorem readString_escape : readString (escape text ++ '"' :: rest) = some (text, rest) := by
  induction text with
  | nil =>
    rw [readString.eq_def]
    rfl
  | cons c text ih =>
    rw [escape, List.flatMap_cons, List.append_assoc, readString_escapeChar]
    change (do
      let (text, rest) ← readString (escape text ++ '"' :: rest)
      some (c :: text, rest)) = _
    rw [ih]
    rfl

theorem printString_oneLine (text : String) : '\n' ∉ printString text := by
  have escaped (c : Char) : '\n' ∉ escapeChar c := by
    rw [escapeChar]
    split
    case isTrue escaped =>
      have high := (hexValue_digitChar _ (isEscaped_small escaped)).2
      have low := (hexValue_digitChar _ (Nat.mod_lt c.toNat (by decide : 16 > 0))).2
      simp [high.symm, low.symm]
    case isFalse plain =>
      rw [List.mem_singleton]
      rintro rfl
      exact plain (by decide)
  simp [printString, escape, escaped]

def Bounded (rest : List Char) : Prop := ∀ c ∈ rest.head?, c.isDigit = false ∧ c ≠ '.'

section

variable {α : Type} (item : List Char → Option (α × List Char)) (close : Char)

def series : List (List Char) → List Char
  | [] => [close]
  | text :: rest => ',' :: (text ++ series rest)

def enclosed : List (List Char) → List Char
  | [] => [close]
  | text :: rest => text ++ series close rest

def readSeries : Nat → List Char → Option (List α × List Char)
  | fuel + 1, first :: rest =>
    if first = close then some ([], rest)
    else if first = ',' then do
      let (value, rest) ← item rest
      let (values, rest) ← readSeries fuel rest
      some (value :: values, rest)
    else none
  | _, _ => none

def readEnclosed (fuel : Nat) : List Char → Option (List α × List Char)
  | [] => none
  | first :: rest =>
    if first = close then some ([], rest)
    else readSeries item close (fuel + 1) (',' :: first :: rest)

variable {item close} {text : α → List Char} {items : List α}

theorem length_series (texts : List (List Char)) :
    (series close texts).length = texts.flatten.length + texts.length + 1 := by
  induction texts with
  | nil => rfl
  | cons text texts ih =>
    simp only [series, List.length_cons, List.length_append, ih, List.flatten_cons]
    omega

theorem readSeries_series (stops : close.isDigit = false ∧ close ≠ '.' ∧ close ≠ ',')
    (reads : ∀ value ∈ items, ∀ rest, Bounded rest →
      item (text value ++ rest) = some (value, rest))
    (room : items.length < fuel) (rest : List Char) :
    readSeries item close fuel (series close (items.map text) ++ rest) = some (items, rest) := by
  induction items generalizing fuel with
  | nil =>
    obtain ⟨fuel, rfl⟩ := Nat.exists_eq_add_one.mpr room
    exact if_pos rfl
  | cons value items ih =>
    obtain ⟨fuel, rfl⟩ := Nat.exists_eq_add_one.mpr (Nat.zero_lt_of_lt room)
    have bounded : Bounded (series close (items.map text) ++ rest) := by
      cases items <;>
      · rintro c ⟨⟩
        first
          | exact ⟨stops.1, stops.2.1⟩
          | decide
    have one := reads value List.mem_cons_self _ bounded
    have all := ih (fun value mem => reads value (List.mem_cons_of_mem _ mem))
      (Nat.lt_of_succ_lt_succ room)
    rw [List.map_cons, series, List.cons_append, List.append_assoc, readSeries,
      if_neg (Ne.symm stops.2.2), if_pos rfl, one]
    change (readSeries item close fuel _ >>= _) = _
    rw [all]
    rfl

theorem enclosed_oneLine (stops : '\n' ≠ close) (clean : ∀ text ∈ texts, '\n' ∉ text) :
    '\n' ∉ enclosed close texts := by
  have inside : ∀ texts : List (List Char), (∀ text ∈ texts, '\n' ∉ text) →
      '\n' ∉ series close texts := by
    intro texts clean
    induction texts with
    | nil => simpa [series] using stops
    | cons text texts ih => simp_all [series]
  cases texts with
  | nil => exact inside [] clean
  | cons text texts => simp_all [enclosed]

theorem length_enclosed (close : Char) (texts : List (List Char)) :
    texts.length ≤ (enclosed close texts).length ∧
      ∀ text ∈ texts, text.length < (enclosed close texts).length := by
  cases texts with
  | nil => simp
  | cons first texts =>
    have whole : (enclosed close (first :: texts)).length =
        (first :: texts).flatten.length + texts.length + 1 := by
      rw [enclosed, List.length_append, length_series, List.flatten_cons, List.length_append]
      omega
    rw [whole, List.length_cons]
    refine ⟨by omega, fun text mem => ?_⟩
    have within := (List.sublist_flatten_of_mem mem).length_le
    omega

theorem readEnclosed_enclosed (text : α → List Char)
    (stops : close.isDigit = false ∧ close ≠ '.' ∧ close ≠ ',')
    (opens : ∀ value, ∃ c more, text value = c :: more ∧ c ≠ close)
    (reads : ∀ value, (text value).length ≤ fuel → ∀ rest, Bounded rest →
      item (text value ++ rest) = some (value, rest))
    (enough : (enclosed close (items.map text)).length ≤ fuel) (rest : List Char) :
    readEnclosed item close fuel (enclosed close (items.map text) ++ rest) =
      some (items, rest) := by
  obtain ⟨few, within⟩ := length_enclosed close (items.map text)
  cases items with
  | nil => exact if_pos rfl
  | cons value items =>
    obtain ⟨c, more, same, opens⟩ := opens value
    rw [List.length_map] at few
    have all : readSeries item close (fuel + 1) (series close ((value :: items).map text) ++ rest) =
        some (value :: items, rest) := readSeries_series stops
      (fun value mem => reads value ((within _ (List.mem_map_of_mem mem)).le.trans enough))
      (Nat.lt_succ_of_le (few.trans enough)) rest
    rw [List.map_cons, series, List.cons_append, same] at all
    rw [List.map_cons, enclosed, same, List.cons_append, List.cons_append, readEnclosed,
      if_neg opens]
    exact all

end

mutual

def print : Value Nat → List Char
  | .null => ['n', 'u', 'l', 'l']
  | .bool true => ['t', 'r', 'u', 'e']
  | .bool false => ['f', 'a', 'l', 's', 'e']
  | .nat value => Nat.toDigits 10 value
  | .float value => Nat.toDigits 10 value ++ ['.', '0']
  | .str text => printString text
  | .arr items => '[' :: enclosed ']' (printAll items)
  | .obj fields => '{' :: enclosed '}' (printFields fields)

def printAll : List (Value Nat) → List (List Char)
  | [] => []
  | value :: rest => print value :: printAll rest

def printFields : List (String × Value Nat) → List (List Char)
  | [] => []
  | (key, value) :: rest => (printString key ++ ':' :: print value) :: printFields rest

end

def number (value : Nat) : List Char → Value Nat × List Char
  | '.' :: '0' :: rest => (.float value, rest)
  | rest => (.nat value, rest)

def readField (readValue : List Char → Option (Value Nat × List Char)) :
    List Char → Option ((String × Value Nat) × List Char)
  | '"' :: rest => do
    match ← readString rest with
    | (key, ':' :: rest) => do
      let (value, rest) ← readValue rest
      some ((String.ofList key, value), rest)
    | _ => none
  | _ => none

/-- A value at the start of a text, in at most `fuel` nested calls. -/
def readValue : Nat → List Char → Option (Value Nat × List Char)
  | fuel + 1, first :: rest =>
    if first.isDigit then
      number (Nat.ofDigitChars 10 ((first :: rest).takeWhile Char.isDigit) 0)
        ((first :: rest).dropWhile Char.isDigit)
    else
      match first, rest with
      | '"', rest => (readString rest).map fun (text, rest) => (.str (String.ofList text), rest)
      | '[', rest => (readEnclosed (readValue fuel) ']' fuel rest).map fun (items, rest) =>
        (.arr items, rest)
      | '{', rest => (readEnclosed (readField (readValue fuel)) '}' fuel rest).map
        fun (fields, rest) => (.obj fields, rest)
      | 'n', 'u' :: 'l' :: 'l' :: rest => some (.null, rest)
      | 't', 'r' :: 'u' :: 'e' :: rest => some (.bool true, rest)
      | 'f', 'a' :: 'l' :: 's' :: 'e' :: rest => some (.bool false, rest)
      | _, _ => none
  | _, _ => none

def read (input : List Char) : Option (Value Nat) := do
  match ← readValue (input.length + 1) input with
  | (value, []) => some value
  | _ => none

theorem printAll_eq (items : List (Value Nat)) : printAll items = items.map print := by
  induction items with
  | nil => rfl
  | cons value items ih => rw [printAll, ih, List.map_cons]

def printField (field : String × Value Nat) : List Char :=
  printString field.1 ++ ':' :: print field.2

theorem printFields_eq (fields : List (String × Value Nat)) :
    printFields fields = fields.map printField := by
  induction fields with
  | nil => rfl
  | cons field fields ih => rw [printFields, ih, List.map_cons, printField]

theorem toDigits_isDigit (value : Nat) : ∀ c ∈ Nat.toDigits 10 value, c.isDigit = true :=
  fun _ mem => Nat.isDigit_of_mem_toDigits (by decide) (by decide) mem

mutual

theorem print_oneLine : ∀ value : Value Nat, '\n' ∉ print value
  | .null | .bool true | .bool false => by decide
  | .nat value => fun mem => absurd (toDigits_isDigit value _ mem) (by decide)
  | .float value => fun mem => by
    rcases List.mem_append.mp mem with mem | mem
    · exact absurd (toDigits_isDigit value _ mem) (by decide)
    · exact absurd mem (by decide)
  | .str text => printString_oneLine text
  | .arr items => List.not_mem_cons_of_ne_of_not_mem (by decide)
      (enclosed_oneLine (by decide) (printAll_oneLine items))
  | .obj fields => List.not_mem_cons_of_ne_of_not_mem (by decide)
      (enclosed_oneLine (by decide) (printFields_oneLine fields))

theorem printAll_oneLine : ∀ items : List (Value Nat), ∀ text ∈ printAll items, '\n' ∉ text
  | [] => by simp [printAll]
  | value :: rest => by simpa [printAll] using ⟨print_oneLine value, printAll_oneLine rest⟩

theorem printFields_oneLine : ∀ fields : List (String × Value Nat),
    ∀ text ∈ printFields fields, '\n' ∉ text
  | [] => by simp [printFields]
  | (key, value) :: rest => by
    simpa [printFields] using ⟨⟨printString_oneLine key, print_oneLine value⟩,
      printFields_oneLine rest⟩

end

theorem toDigits_starts (value : Nat) : ∃ c rest,
    Nat.toDigits 10 value = c :: rest ∧ c.isDigit = true := by
  obtain ⟨c, rest, same⟩ := List.exists_cons_of_ne_nil
    (Nat.toDigits_ne_nil : Nat.toDigits 10 value ≠ [])
  exact ⟨c, rest, same, toDigits_isDigit value c (same ▸ List.mem_cons_self)⟩

theorem print_starts (value : Value Nat) : ∃ c rest, print value = c :: rest ∧ c ≠ ']' := by
  have number (value : Nat) : ∃ c rest, Nat.toDigits 10 value = c :: rest ∧ c ≠ ']' := by
    obtain ⟨c, rest, same, digit⟩ := toDigits_starts value
    refine ⟨c, rest, same, ?_⟩
    rintro rfl
    cases digit
  cases value with
  | nat value => exact number value
  | float value =>
    obtain ⟨c, rest, same, opens⟩ := number value
    exact ⟨c, rest ++ ['.', '0'], by rw [print, same, List.cons_append], opens⟩
  | bool value => cases value <;> exact ⟨_, _, rfl, by decide⟩
  | _ => exact ⟨_, _, rfl, by decide⟩

theorem readValue_digits (value fuel : Nat) (stops : ∀ c ∈ rest.head?, c.isDigit = false) :
    readValue (fuel + 1) (Nat.toDigits 10 value ++ rest) = some (number value rest) := by
  obtain ⟨c, more, same, digit⟩ := toDigits_starts value
  have ends : rest.takeWhile Char.isDigit = [] ∧ rest.dropWhile Char.isDigit = rest := by
    cases rest with
    | nil => exact ⟨rfl, rfl⟩
    | cons c rest => simp [stops c rfl]
  rw [same, List.cons_append]
  refine (if_pos digit).trans ?_
  rw [← List.cons_append, ← same, List.takeWhile_append_of_pos (toDigits_isDigit value),
    List.dropWhile_append_of_pos (toDigits_isDigit value), ends.1, ends.2, List.append_nil,
    Nat.ofDigitChars_ten_toDigits]

theorem readField_print {field : String × Value Nat} (reads : readText
      (print field.2 ++ rest) = some (field.2, rest)) :
    readField readText (printField field ++ rest) = some (field, rest) := by
  rw [printField, printString, List.append_assoc, List.append_assoc]
  change (readString (escape field.1.toList ++ '"' :: _) >>= _) = _
  rw [readString_escape]
  change (readText (print field.2 ++ rest) >>= _) = _
  rw [reads]
  change some ((String.ofList field.1.toList, field.2), rest) = _
  rw [String.ofList_toList]

theorem readValue_print (enough : (print value).length ≤ fuel) (bounded : Bounded rest) :
    readValue fuel (print value ++ rest) = some (value, rest) := by
  induction fuel generalizing value rest with
  | zero =>
    obtain ⟨c, more, same, -⟩ := print_starts value
    rw [same] at enough
    cases enough
  | succ fuel ih =>
    cases value with
    | null => rfl
    | bool value => cases value <;> rfl
    | nat value =>
      refine (readValue_digits value fuel fun c head => (bounded c head).1).trans ?_
      unfold number
      split
      · exact absurd rfl (bounded '.' rfl).2
      · rfl
    | float value =>
      rw [print, List.append_assoc]
      refine readValue_digits value fuel ?_
      rintro c ⟨⟩
      rfl
    | str text =>
      rw [print, printString, List.append_assoc]
      change (readString (escape text.toList ++ '"' :: rest)).map _ = _
      rw [readString_escape]
      change some (Value.str (String.ofList text.toList), rest) = _
      rw [String.ofList_toList]
    | arr items =>
      rw [print, printAll_eq] at enough ⊢
      exact congrArg (Option.map _) (readEnclosed_enclosed print (by decide) print_starts
        (fun value enough rest bounded => ih enough bounded) (Nat.le_of_succ_le_succ enough) rest)
    | obj fields =>
      rw [print, printFields_eq] at enough ⊢
      exact congrArg (Option.map _) (readEnclosed_enclosed printField (by decide)
        (fun field => ⟨'"', _, rfl, by decide⟩)
        (fun field enough rest bounded => readField_print (ih (by
          rw [printField, List.length_append, List.length_cons] at enough
          omega) bounded))
        (Nat.le_of_succ_le_succ enough) rest)

theorem read_print (value : Value Nat) : read (print value) = some value := by
  have whole : readValue _ (print value ++ []) = _ :=
    readValue_print (Nat.le_succ _) (by rintro c ⟨⟩)
  rw [List.append_nil] at whole
  rw [read, whole]
  rfl

/-- Compact printing, with numbers of which only the whole part matters. -/
def compact : Library Nat := ⟨print, read, read_print, print_oneLine, id⟩

end Json
