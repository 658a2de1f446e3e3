import CacheCleaner.Fs.Tree

namespace CacheCleaner

def isFiller (piece : List Char) : Bool := (pieceComponent? piece).isNone

def joinSlash (pieces : List (List Char)) : List Char :=
  if pieces = [[]] then ['/'] else ['/'].intercalate pieces

/-- `Path::parent`: the text without the last component and what separates
it. -/
def pathParent? (path : String) : Option String :=
  match splitSlash path.toList with
  | [] => none
  | first :: body =>
    if body.all isFiller then
      match leadingComponents first (!body.isEmpty) with
      | [] | [.rootDir] => none
      | _ => some ""
    else
      some (String.ofList (joinSlash (first ::
        (body.rdropWhile isFiller).dropLast.rdropWhile isFiller)))

def pathFileName? (path : String) : Option String :=
  match (components path).getLast? with
  | some (.normal name) => some name
  | _ => none

section

theorem splitSlash_intercalate (some : pieces ≠ [])
    (plain : ∀ piece ∈ pieces, '/' ∉ piece) : splitSlash (['/'].intercalate pieces) = pieces := by
  induction pieces with
  | nil => exact absurd rfl some
  | cons piece rest ih =>
    have head := splitSlash_of_not_mem (plain piece (List.mem_cons_self ..))
    cases rest with
    | nil => simpa [List.intercalate] using head
    | cons next rest =>
      have tail := ih (List.cons_ne_nil next rest) fun other mem =>
        plain other (List.mem_cons_of_mem _ mem)
      have text : ['/'].intercalate (piece :: next :: rest) =
          piece ++ '/' :: ['/'].intercalate (next :: rest) := by
        simp [List.intercalate, List.intersperse]
      rw [text, splitSlash_append_slash, head, tail]
      rfl

theorem filterMap_eq_nil_iff_fillers {pieces : List (List Char)} :
    pieces.filterMap pieceComponent? = [] ↔ pieces.all isFiller = true := by
  rw [List.filterMap_eq_nil_iff, List.all_eq_true]
  exact forall₂_congr fun piece _ => Option.isNone_iff_eq_none.symm

theorem pathFileName_eq_some : pathFileName? path = some name ↔
      (components path).getLast? = some (.normal name) := by
  unfold pathFileName?
  split
  · rename_i last
    rw [last]
    simp
  · rename_i other
    constructor
    · intro none
      cases none
    · intro last
      exact absurd last (other name)

theorem exists_pathParent {path name : String} (last : pathFileName? path = some name) :
    ∃ parent, pathParent? path = some parent := by
  rw [pathFileName_eq_some] at last
  unfold components at last
  unfold pathParent?
  cases pieces : splitSlash path.toList with
  | nil =>
    rw [pieces] at last
    cases last
  | cons first body =>
    rw [pieces] at last
    dsimp only at last ⊢
    split
    · rename_i fillers
      have none := filterMap_eq_nil_iff_fillers.mpr fillers
      rw [none, List.append_nil] at last
      split
      · rename_i nothing
        rw [nothing] at last
        cases last
      · rename_i root
        rw [root] at last
        cases last
      · exact ⟨_, rfl⟩
    · exact ⟨_, rfl⟩

end

namespace Fs

def lstatWith (fs : Fs) (follow : FileIdentity → List Component → Option FileIdentity) :
    FileIdentity → List Component → Option FileIdentity
  | directory, [] => some directory
  | _, .rootDir :: rest => lstatWith fs follow fs.root rest
  | directory, .curDir :: rest => lstatWith fs follow directory rest
  | directory, .parentDir :: rest =>
    (fs.inode directory).bind fun inode =>
      lstatWith fs follow inode.parent rest
  | directory, .normal name :: rest =>
    match fs.child directory name with
    | none => none
    | some entry =>
      if rest = [] then some entry.node
      else
        match fs.kind entry.node with
        | some .directory => lstatWith fs follow entry.node rest
        | some (.symlink target) =>
          follow directory (components target ++ rest)
        | _ => none

def lstat (fs : Fs) : Nat → FileIdentity → List Component → Option FileIdentity
  | 0 => lstatWith fs fun _ _ => none
  | links + 1 => lstatWith fs (lstat fs links)

structure Metadata where
  identity : FileIdentity
  len : Nat
  isDir : Bool
  isSymlink : Bool

def metadata (fs : Fs) (id : FileIdentity) : Option Metadata :=
  (fs.inode id).map fun inode => {
    identity := id
    len := inode.size
    isDir := inode.kind == .directory
    isSymlink := match inode.kind with
      | .symlink _ => true
      | _ => false }

def symlinkMetadata (fs : Fs) (path : String) : Option Metadata :=
  if path = "" then none
  else (lstat fs 40 fs.cwd (components path)).bind fs.metadata

inductive Leads (fs : Fs) : FileIdentity → List String → FileIdentity → Prop
  | last {directory name entry} : fs.child directory name = some entry →
      Leads fs directory [name] entry.node
  | step {directory name entry names id} : fs.child directory name = some entry →
      fs.kind entry.node = some .directory → Leads fs entry.node names id →
      Leads fs directory (name :: names) id

variable {fs : Fs} {directory root id : FileIdentity} {names : List String}

theorem Leads.ne_nil (leads : fs.Leads directory names id) : names ≠ [] := by
  cases leads <;> exact List.cons_ne_nil _ _

theorem lstatWith_of_leads (leads : fs.Leads directory names id) :
    fs.lstatWith follow directory (names.map .normal) = some id := by
  induction leads with
  | last found => simp [lstatWith, found]
  | step found isDir rest ih =>
    simp only [List.map_cons, lstatWith, found]
    rw [if_neg (by simpa using rest.ne_nil), isDir]
    exact ih

theorem Walks.lstat (walks : fs.Walks root links directory parts crossed)
    (leads : fs.Leads root names id) :
    fs.lstat links directory (parts ++ names.map .normal) = some id := by
  have filled : ∀ parts : List Component, parts ++ names.map Component.normal ≠ [] := by
    simp [leads.ne_nil]
  induction walks with
  | @arrived links => cases links <;> exact lstatWith_of_leads leads
  | @root links _ _ _ _ ih => cases links <;> exact ih
  | @stay links _ _ _ _ ih => cases links <;> exact ih
  | @up _ _ links _ _ found _ ih =>
    cases links <;>
      simpa only [Fs.lstat, List.cons_append, lstatWith, found, Option.bind_some] using ih
  | @enter _ _ _ links _ _ found isDir _ ih =>
    cases links <;>
      simpa only [Fs.lstat, List.cons_append, lstatWith, found, isDir, if_neg (filled _)] using ih
  | follow found link more _ ih =>
    simpa only [Fs.lstat, List.cons_append, lstatWith, found, link, if_neg (filled _),
      List.append_assoc] using ih

end Fs

end CacheCleaner
