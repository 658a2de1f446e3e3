import CacheCleaner.Domain.Types

namespace CacheCleaner

/-! Paths are kept as the raw strings the program stores, and compared, walked
and tested through their components, as `std::path` does. -/

inductive Component where
  | rootDir
  | curDir
  | parentDir
  | normal (name : String)
  deriving DecidableEq, Repr

def Component.isNormal : Component → Bool
  | .normal _ => true
  | _ => false

/-- The pieces of a string between its slashes; one more than there are
slashes. -/
def splitSlash : List Char → List (List Char)
  | [] => [[]]
  | character :: rest =>
    if character = '/' then [] :: splitSlash rest
    else
      match splitSlash rest with
      | [] => [[character]]
      | piece :: pieces => (character :: piece) :: pieces

/-- Empty pieces and `.` vanish, except for a leading `.` (see `components`). -/
def pieceComponent? : List Char → Option Component
  | [] => none
  | ['.'] => none
  | ['.', '.'] => some .parentDir
  | piece => some (.normal (String.ofList piece))

/-- The component of the first piece: an empty one is the root when a slash
follows it, and a leading `.` of a relative path is kept. -/
def leadingComponents (piece : List Char) (more : Bool) : List Component :=
  match piece with
  | [] => if more then [.rootDir] else []
  | ['.'] => [.curDir]
  | piece => (pieceComponent? piece).toList

def components (raw : String) : List Component :=
  match splitSlash raw.toList with
  | [] => []
  | piece :: pieces =>
    leadingComponents piece (!pieces.isEmpty) ++ pieces.filterMap pieceComponent?

/-- `Path::starts_with`: whole components are compared. -/
def pathStartsWith (path root : String) : Bool := (components root).isPrefixOf (components path)

def isAbsolute (path : String) : Bool := startsWithText path "/"

/-- `PathBuf::push` (also `Path::join`). -/
def pathJoin (path sub : String) : String :=
  if isAbsolute sub then sub
  else if path = "" ∨ endsWithText path "/" then path ++ sub
  else path ++ "/" ++ sub

theorem splitSlash_ne_nil (text : List Char) : splitSlash text ≠ [] := by
  cases text with
  | nil => simp [splitSlash]
  | cons character rest =>
    simp only [splitSlash]
    split
    · simp
    · cases splitSlash rest <;> simp

theorem splitSlash_append_slash (front back : List Char) :
    splitSlash (front ++ '/' :: back) = splitSlash front ++ splitSlash back := by
  induction front with
  | nil => simp [splitSlash]
  | cons character front ih =>
    simp only [List.cons_append, splitSlash]
    by_cases slash : character = '/'
    · simp [slash, ih]
    · simp only [slash, if_false, ih]
      cases pieces : splitSlash front with
      | nil => exact absurd pieces (splitSlash_ne_nil front)
      | cons piece pieces => rfl

theorem splitSlash_eq_singleton_nil (pieces : splitSlash text = [[]]) : text = [] := by
  cases text with
  | nil => rfl
  | cons character rest =>
    simp only [splitSlash] at pieces
    split at pieces
    · exact absurd (List.cons.inj pieces).2 (splitSlash_ne_nil rest)
    · cases tail : splitSlash rest <;> simp [tail] at pieces

theorem leadingComponents_cons (more : Bool) :
    leadingComponents (character :: rest) more = leadingComponents (character :: rest) false := by
  unfold leadingComponents
  split <;> simp_all

theorem components_of_relative
    (relative : ∀ component ∈ components raw, component.isNormal = true) :
    components raw = (splitSlash raw.toList).filterMap pieceComponent? := by
  unfold components at relative ⊢
  cases split : splitSlash raw.toList with
  | nil => rfl
  | cons piece pieces =>
    simp only [split] at relative ⊢
    rw [List.filterMap_cons]
    cases piece with
    | nil =>
      cases pieces with
      | nil => rfl
      | cons next rest =>
        have root := relative .rootDir (by simp [leadingComponents])
        cases root
    | cons character rest =>
      by_cases dot : character :: rest = ['.']
      · have current := relative .curDir (by
          rw [dot]
          simp [leadingComponents])
        cases current
      · have leading : leadingComponents (character :: rest) (!pieces.isEmpty) =
              (pieceComponent? (character :: rest)).toList := by
          unfold leadingComponents
          split
          · contradiction
          · contradiction
          · rfl
        rw [leading]
        cases pieceComponent? (character :: rest) <;> rfl

theorem components_append_slash (front back : String) (nonempty : front ≠ "")
    (relative : ∀ component ∈ components back, component.isNormal = true) :
    components (front ++ "/" ++ back) = components front ++ components back := by
  have chars : (front ++ "/" ++ back).toList = front.toList ++ '/' :: back.toList := by
    simp [String.toList_append]
  rw [components_of_relative relative]
  unfold components
  rw [chars, splitSlash_append_slash]
  cases split : splitSlash front.toList with
  | nil => exact absurd split (splitSlash_ne_nil front.toList)
  | cons piece pieces =>
    cases pieces with
    | cons next rest =>
      simp only [List.cons_append, List.isEmpty_cons]
      rw [← List.cons_append, List.filterMap_append, ← List.append_assoc]
    | nil =>
      -- A single piece is the whole string, so it is not empty and does
      -- not depend on whether more pieces follow.
      cases piece with
      | nil =>
        exact absurd (String.toList_eq_nil_iff.mp (splitSlash_eq_singleton_nil split)) nonempty
      | cons character rest =>
        rw [List.singleton_append]
        simp only [List.filterMap_nil, List.append_nil]
        rw [leadingComponents_cons, leadingComponents_cons (!_)]

theorem not_isAbsolute_of_relative
    (relative : ∀ component ∈ components raw, component.isNormal = true) :
    isAbsolute raw = false := by
  cases absolute : isAbsolute raw with
  | false => rfl
  | true =>
    unfold isAbsolute startsWithText at absolute
    cases letters : raw.toList with
    | nil => simp [letters] at absolute
    | cons character rest =>
      have slash : character = '/' := by
        rw [letters] at absolute
        change ('/' == character && List.isPrefixOf [] rest) = true at absolute
        exact (eq_of_beq (Bool.and_eq_true_iff.mp absolute).1).symm
      have root : Component.rootDir ∈ components raw := by
        unfold components
        rw [letters, slash]
        simp only [splitSlash, if_true, leadingComponents]
        cases split : splitSlash rest with
        | nil => exact absurd split (splitSlash_ne_nil rest)
        | cons piece pieces => simp
      cases relative _ root

theorem components_pathJoin (relative : ∀ component ∈ components sub, component.isNormal = true) :
    components (pathJoin path sub) = components path ++ components sub := by
  unfold pathJoin
  rw [not_isAbsolute_of_relative relative]
  simp only [Bool.false_eq_true, if_false]
  by_cases empty : path = ""
  · simp only [empty, true_or, if_true, String.empty_append]
    rfl
  · by_cases slash : endsWithText path "/" = true
    · simp only [slash, or_true, if_true]
      obtain ⟨front, ends⟩ := List.isSuffixOf_iff_suffix.mp slash
      have whole : path = String.ofList front ++ "/" := by
        apply String.toList_injective
        rw [← ends]
        simp [String.toList_append]
      by_cases filled : String.ofList front = ""
      · -- The base is the root directory.
        rw [whole, filled, components_of_relative relative]
        have letters : ("" ++ "/" ++ sub).toList = '/' :: sub.toList := by
          simp [String.toList_append]
        unfold components
        rw [letters]
        cases split : splitSlash sub.toList with
        | nil => exact absurd split (splitSlash_ne_nil sub.toList)
        | cons piece pieces =>  simp [splitSlash, split, leadingComponents, pieceComponent?]
      · have base : components path = components (String.ofList front) := by
          have appended := components_append_slash (String.ofList front) ""
            filled (by decide)
          rw [whole]
          simpa [show components "" = [] by decide] using appended
        rw [base, whole]
        exact components_append_slash _ _ filled relative
    · simp only [empty, slash, or_self, Bool.false_eq_true, if_false]
      exact components_append_slash _ _ empty relative

theorem mem_splitSlash (mem : piece ∈ splitSlash text) (inside : character ∈ piece) :
    character ∈ text ∧ character ≠ '/' := by
  induction text generalizing piece with
  | nil =>
    rw [splitSlash, List.mem_singleton] at mem
    rw [mem] at inside
    cases inside
  | cons head rest ih =>
    simp only [splitSlash] at mem
    split at mem
    · rcases List.mem_cons.mp mem with rfl | mem
      · cases inside
      · exact (ih mem inside).imp_left (List.mem_cons_of_mem _)
    · rename_i other
      split at mem
      · rw [List.mem_singleton] at mem
        rw [mem, List.mem_singleton] at inside
        rw [inside]
        exact ⟨List.mem_cons_self .., other⟩
      · rename_i first more pieces
        rcases List.mem_cons.mp mem with rfl | mem
        · rcases List.mem_cons.mp inside with rfl | inside
          · exact ⟨List.mem_cons_self .., other⟩
          · refine (ih ?_ inside).imp_left (List.mem_cons_of_mem _)
            rw [pieces]
            exact List.mem_cons_self ..
        · refine (ih ?_ inside).imp_left (List.mem_cons_of_mem _)
          rw [pieces]
          exact List.mem_cons_of_mem _ mem

theorem splitSlash_of_not_mem (single : '/' ∉ text) : splitSlash text = [text] := by
  induction text with
  | nil => rfl
  | cons character rest ih =>
    rw [List.mem_cons, not_or] at single
    have other : character ≠ '/' := fun same => single.1 same.symm
    simp [splitSlash, other, ih single.2]

theorem components_single (single : '/' ∉ name.toList)
    (nonempty : name ≠ "") (notDot : name ≠ ".") (notDots : name ≠ "..") :
    components name = [.normal name] := by
  have distinct : ∀ other : String, name ≠ other → name.toList ≠ other.toList :=
    fun other different same => different (String.toList_injective same)
  have empty := distinct "" nonempty
  have dot := distinct "." notDot
  have dots := distinct ".." notDots
  unfold components
  rw [splitSlash_of_not_mem single]
  have piece : leadingComponents name.toList false = [.normal name] := by
    unfold leadingComponents pieceComponent?
    split
    · exact absurd ‹_› empty
    · exact absurd ‹_› dot
    · split
      · exact absurd ‹_› empty
      · exact absurd ‹_› dot
      · exact absurd ‹_› dots
      · simp
  simpa using piece

-- A text is examined character by character, never by enumerating `Char`.
instance decidableText (text : List Char) (holds : Char → Prop) [DecidablePred holds] :
    Decidable (∀ character ∈ text, holds character) :=
  List.decidableBAll holds text

/-- A relative path as `RelativePath::parse`, `empty` and `join` build it: no
root, `.` or `..` component, no control character, and empty only as a
string. -/
structure RelativePath where
  raw : String
  relative : ∀ component ∈ components raw, component.isNormal = true
  nonempty : raw ≠ "" → components raw ≠ []
  printable : ∀ character ∈ raw.toList, isControl character = false

namespace RelativePath

variable {path : RelativePath}

instance : DecidableEq RelativePath := fun left right =>
  decidable_of_iff (left.raw = right.raw)
    ⟨fun equal => by cases left; cases right; cases equal; rfl, fun equal => congrArg raw equal⟩

def empty : RelativePath where
  raw := ""
  relative := by decide
  nonempty := by decide
  printable := by decide

def withinLimits (parts : List Component) : Bool :=
  parts.all (fun
    | .normal name => decide (name.utf8ByteSize ≤ 255)
    | _ => true) &&
  decide (parts.length ≤ 255)

def parse (text : String) : Option RelativePath :=
  if text = "" then some empty
  else if decide (4096 < text.utf8ByteSize) then none
  else if printable : ∀ character ∈ text.toList, isControl character = false then
    if isAbsolute text then none
    else if relative : ∀ component ∈ components text, component.isNormal = true then
      if withinLimits (components text) then
        if nonempty : components text ≠ [] then
          some ⟨text, relative, fun _ => nonempty, printable⟩
        else none
      else none
    else none
  else none

def names (path : RelativePath) : List String :=
  (components path.raw).filterMap fun
    | .normal name => some name
    | _ => none

/-- `PathBuf` equality, which compares components and not strings. -/
def same (left right : RelativePath) : Bool := decide (components left.raw = components right.raw)

def parentNames (path : RelativePath) : List String := path.names.dropLast

def leafName? (path : RelativePath) : Option String := path.names.getLast?

theorem raw_parse (parsed : parse text = some path) : path.raw = text := by
  unfold parse at parsed
  split at parsed
  · rename_i none
    cases parsed
    exact none.symm
  · simp only [Option.dite_none_right_eq_some, Option.ite_none_right_eq_some,
      Option.ite_none_left_eq_some, Option.some.injEq] at parsed
    obtain ⟨-, -, -, -, -, -, rfl⟩ := parsed
    rfl

theorem map_normal_names : path.names.map Component.normal = components path.raw := by
  have relative := path.relative
  unfold names
  generalize components path.raw = parts at relative ⊢
  induction parts with
  | nil => rfl
  | cons component rest ih =>
    have tail := ih fun other mem =>
      relative other (List.mem_cons_of_mem _ mem)
    have head := relative component (List.mem_cons_self ..)
    cases component with
    | normal name => simpa using tail
    | rootDir => cases head
    | curDir => cases head
    | parentDir => cases head

theorem names_ne_nil (nonempty : path.raw ≠ "") : path.names ≠ [] := by
  intro none
  apply path.nonempty nonempty
  rw [← map_normal_names, none]
  rfl

theorem mem_pathJoin {path sub : String} (mem : character ∈ (pathJoin path sub).toList) :
    character ∈ path.toList ∨ character = '/' ∨ character ∈ sub.toList := by
  unfold pathJoin at mem
  split at mem
  · exact Or.inr (Or.inr mem)
  · split at mem
    · rw [String.toList_append, List.mem_append] at mem
      exact mem.imp_right Or.inr
    · simp only [String.toList_append, List.mem_append] at mem
      rcases mem with (left | slash) | right
      · exact Or.inl left
      · exact Or.inr (Or.inl (by simpa using slash))
      · exact Or.inr (Or.inr right)

def push (path sub : RelativePath) : RelativePath where
  raw := pathJoin path.raw sub.raw
  relative := by
    intro component member
    rw [components_pathJoin sub.relative, List.mem_append] at member
    exact member.elim (path.relative component) (sub.relative component)
  nonempty := by
    intro filled none
    rw [components_pathJoin sub.relative, List.append_eq_nil_iff] at none
    apply filled
    have left : path.raw = "" := by
      by_contra other
      exact path.nonempty other none.1
    have right : sub.raw = "" := by
      by_contra other
      exact sub.nonempty other none.2
    rw [left, right]
    decide
  printable := by
    intro character member
    rcases mem_pathJoin member with left | rfl | right
    · exact path.printable character left
    · decide
    · exact sub.printable character right

/-- `RelativePath::join`: only the appended part is validated. -/
def join (path : RelativePath) (sub : String) : Option RelativePath := (parse sub).map path.push

theorem exists_piece_of_mem_names {name : String} (mem : name ∈ path.names) :
    ∃ piece ∈ splitSlash path.raw.toList, name = String.ofList piece ∧
      piece ≠ [] ∧ piece ≠ ['.'] ∧ piece ≠ ['.', '.'] := by
  have component : Component.normal name ∈ components path.raw := by
    rw [← map_normal_names]
    exact List.mem_map_of_mem mem
  rw [components_of_relative path.relative, List.mem_filterMap] at component
  obtain ⟨piece, inside, read⟩ := component
  refine ⟨piece, inside, ?_⟩
  unfold pieceComponent? at read
  split at read
  · cases read
  · cases read
  · cases read
  · rename_i filled single double
    cases read
    exact ⟨rfl, filled, single, double⟩

theorem names_push : (path.push sub).names = path.names ++ sub.names := by
  unfold names push
  rw [components_pathJoin sub.relative, List.filterMap_append]

end RelativePath

end CacheCleaner
