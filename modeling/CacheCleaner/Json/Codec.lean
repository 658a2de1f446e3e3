import CacheCleaner.Json.Text

namespace Json

variable {F α β σ : Type}

/-- How a type is written as values and read back. -/
structure Codec (F α : Type) where
  encode : α → Value F
  decode : Value F → Option α
  decode_encode : ∀ value, decode (encode value) = some value

namespace Codec

def bool : Codec F Bool where
  encode := .bool
  decode
    | .bool value => some value
    | _ => none
  decode_encode _ := rfl

def string : Codec F String where
  encode := .str
  decode
    | .str text => some text
    | _ => none
  decode_encode _ := rfl

def bits (width : Nat) : Codec F (BitVec width) where
  encode value := .nat value.toNat
  decode
    | .nat value => if value < 2 ^ width then some (.ofNat width value) else none
    | _ => none
  decode_encode value := by
    simp [value.isLt]

def float (library : Library F) : Codec F F where
  encode := .float
  decode
    | .float value => some value
    | .nat value => some (library.ofNat value)
    | _ => none
  decode_encode _ := rfl

def Solid (codec : Codec F α) : Prop := ∀ value, codec.encode value ≠ .null

def option (codec : Codec F α) (solid : codec.Solid) : Codec F (Option α) where
  encode
    | some value => codec.encode value
    | none => .null
  decode
    | .null => some none
    | value => (codec.decode value).map some
  decode_encode
    | none => rfl
    | some value => by
      have decoded := codec.decode_encode value
      have apart := solid value
      cases encoded : codec.encode value with
      | null => exact absurd encoded apart
      | _ => simpa [encoded] using decoded

theorem mapM_encode (codec : Codec F α) (values : List α) :
    (values.map codec.encode).mapM codec.decode = some values := by
  induction values with
  | nil => rfl
  | cons value values ih =>
    rw [List.map_cons, List.mapM_cons, codec.decode_encode]
    change ((values.map codec.encode).mapM codec.decode >>= _) = _
    rw [ih]
    rfl

def list (codec : Codec F α) : Codec F (List α) where
  encode values := .arr (values.map codec.encode)
  decode
    | .arr items => items.mapM codec.decode
    | _ => none
  decode_encode := codec.mapM_encode

def refine (codec : Codec F β) (raw : α → β) (valid : β → Option α)
    (valid_raw : ∀ value, valid (raw value) = some value) : Codec F α where
  encode value := codec.encode (raw value)
  decode value := (codec.decode value).bind valid
  decode_encode value := by
    rw [codec.decode_encode]
    exact valid_raw value

theorem bits_solid : (bits width : Codec F (BitVec width)).Solid := nofun

theorem list_solid {codec : Codec F α} : codec.list.Solid := nofun

theorem refine_solid {codec : Codec F β} (solid : codec.Solid) :
    (codec.refine raw valid valid_raw).Solid := fun value => solid (raw value)

def enumeration (name : α → String) (members : List α)
    (named : ∀ value, members.find? (name · = name value) = some value) : Codec F α where
  encode value := .str (name value)
  decode
    | .str text => members.find? (name · = text)
    | _ => none
  decode_encode := named

theorem enumeration_solid : (enumeration name members named : Codec F α).Solid := nofun

end Codec

def field (fields : List (String × Value F)) (key : String) : Option (Option (Value F)) :=
  match fields.filter (·.1 = key) with
  | [] => some none
  | [(_, value)] => some (some value)
  | _ => none

theorem field_none {fields : List (String × Value F)}
    (absent : ∀ entry ∈ fields, entry.1 ≠ key) : field fields key = some none := by
  have empty : fields.filter (·.1 = key) = [] :=
    List.filter_eq_nil_iff.mpr fun entry mem => by simp [absent entry mem]
  rw [field, empty]

theorem field_append_left
    (absent : ∀ entry ∈ before, entry.1 ≠ key) (after : List (String × Value F)) :
    field (before ++ after) key = field after key := by
  have empty : before.filter (·.1 = key) = [] :=
    List.filter_eq_nil_iff.mpr fun entry mem => by simp [absent entry mem]
  rw [field, field, List.filter_append, empty, List.nil_append]

theorem field_cons_self (absent : ∀ entry ∈ after, entry.1 ≠ key) (value : Value F) :
    field ((key, value) :: after) key = some (some value) := by
  have empty : after.filter (·.1 = key) = [] :=
    List.filter_eq_nil_iff.mpr fun entry mem => by simp [absent entry mem]
  rw [field, List.filter_cons_of_pos (by simp), empty]

/-- The fields written for a `σ` so far, and what is read back from them: an
`α` that is `value` of what was written.  Other fields are ignored. -/
structure Record (F σ α : Type) where
  keys : List String
  needed : List String
  value : σ → α
  encode : σ → List (String × Value F)
  decode : List (String × Value F) → Option α
  keyed : ∀ source, ∀ entry ∈ encode source, entry.1 ∈ keys
  decode_encode : keys.Nodup → ∀ source others, (∀ entry ∈ others, entry.1 ∉ keys) →
    decode (encode source ++ others) = some (value source)
  needs : ∀ key ∈ needed, ∀ fields, field fields key = some none → decode fields = none

namespace Record

def start (value : α) : Record F σ α where
  keys := []
  needed := []
  value _ := value
  encode _ := []
  decode _ := some value
  keyed _ := List.forall_mem_nil _
  decode_encode _ _ _ _ := rfl
  needs := List.forall_mem_nil _

/-- How one field is written, if it is, and what is read from what is found. -/
structure Slot (F β : Type) where
  write : β → Option (Value F)
  read : Option (Value F) → Option β
  read_write : ∀ value, read (write value) = some value

namespace Slot

variable (codec : Codec F β)

def required : Slot F β where
  write value := some (codec.encode value)
  read found := found.bind codec.decode
  read_write := codec.decode_encode

def defaulted (default : β) : Slot F β where
  write value := some (codec.encode value)
  read
    | some value => codec.decode value
    | none => some default
  read_write := codec.decode_encode

variable (solid : codec.Solid)

def optional : Slot F (Option β) :=
  defaulted (codec.option solid) none

def skipped : Slot F (Option β) where
  write value := value.map codec.encode
  read
    | some value => (codec.option solid).decode value
    | none => some none
  read_write
    | none => rfl
    | some value => (codec.option solid).decode_encode (some value)

@[simp] theorem required_none : (required codec).read none = none := rfl

@[simp] theorem defaulted_none (default : β) :
    (defaulted codec default).read none = some default := rfl

@[simp] theorem optional_none :
    (optional codec solid).read none = some none := rfl

@[simp] theorem skipped_none :
    (skipped codec solid).read none = some none := rfl

end Slot

def entries (key : String) (written : Option (Value F)) : List (String × Value F) :=
  (written.map fun value => (key, value)).toList

theorem keyed_entries : ∀ entry ∈ entries key written, entry.1 = key := by
  cases written <;> simp [entries]

theorem field_entries (written : Option (Value F)) (absent : ∀ entry ∈ others, entry.1 ≠ key) :
    field (entries key written ++ others) key = some written := by
  cases written with
  | none => exact field_none absent
  | some value => exact field_cons_self absent value

def and (record : Record F σ (β → α)) (key : String) (slot : Slot F β)
    (part : σ → β) : Record F σ α where
  keys := key :: record.keys
  needed := if (slot.read none).isNone then key :: record.needed else record.needed
  value source := record.value source (part source)
  encode source := record.encode source ++ entries key (slot.write (part source))
  decode fields := do
    let build ← record.decode fields
    let found ← field fields key
    build <$> slot.read found
  keyed source entry member := by
    rcases List.mem_append.mp member with earlier | own
    · exact List.mem_cons_of_mem _ (record.keyed source entry earlier)
    · exact keyed_entries entry own ▸ List.mem_cons_self
  decode_encode distinct source others apart := by
    obtain ⟨fresh, distinct⟩ := List.nodup_cons.mp distinct
    have earlier : ∀ entry ∈ record.encode source, entry.1 ≠ key :=
      fun entry member same => fresh (same ▸ record.keyed source entry member)
    have later : ∀ entry ∈ others, entry.1 ≠ key :=
      fun entry member same => apart entry member (same ▸ List.mem_cons_self)
    have unknown : ∀ entry ∈ entries key (slot.write (part source)) ++ others,
        entry.1 ∉ record.keys := by
      intro entry member known
      rcases List.mem_append.mp member with own | other
      · exact fresh (keyed_entries entry own ▸ known)
      · exact apart entry other (List.mem_cons_of_mem _ known)
    rw [List.append_assoc, record.decode_encode distinct source _ unknown,
      field_append_left earlier, field_entries _ later]
    change (record.value source <$> slot.read _) = _
    rw [slot.read_write]
    rfl
  needs wanted member fields missing := by
    have lost : wanted ∈ record.needed → record.decode fields = none :=
      fun old => record.needs wanted old fields missing
    split at member
    case isTrue strict =>
        rcases List.mem_cons.mp member with rfl | old
        · have refused : slot.read none = none := Option.isNone_iff_eq_none.mp strict
          rw [missing]
          cases record.decode fields with
          | none => rfl
          | some build =>
            change (build <$> slot.read none) = none
            rw [refused]
            rfl
        · rw [lost old]
          rfl
    case isFalse =>
        rw [lost member]
        rfl

@[simp] theorem keys_start (value : α) : (start value : Record F σ α).keys = [] := rfl

@[simp] theorem needed_start (value : α) : (start value : Record F σ α).needed = [] := rfl

@[simp] theorem keys_and (record : Record F σ (β → α)) (key : String) (slot : Slot F β)
    (part : σ → β) : (record.and key slot part).keys = key :: record.keys := rfl

@[simp] theorem needed_and (record : Record F σ (β → α)) (key : String) (slot : Slot F β)
    (part : σ → β) : (record.and key slot part).needed =
      if (slot.read none).isNone then key :: record.needed else record.needed := rfl

def write (record : Record F σ α) (source : σ) : Value F := .obj (record.encode source)

def read (record : Record F σ α) : Value F → Option α
  | .obj fields => record.decode fields
  | _ => none

theorem read_write {record : Record F σ α} (distinct : record.keys.Nodup) (source : σ) :
    record.read (record.write source) = some (record.value source) := by
  have decoded := record.decode_encode distinct source [] (List.forall_mem_nil _)
  rwa [List.append_nil] at decoded

theorem read_foreign {record : Record F σ α} {other : Record F τ β}
    (needed : key ∈ record.needed) (foreign : key ∉ other.keys) (source : τ) :
    record.read (other.write source) = none :=
  record.needs key needed _ <| field_none fun entry mem same =>
    foreign (same ▸ other.keyed source entry mem)

def codec (record : Record F α α) (distinct : record.keys.Nodup)
    (whole : ∀ source, record.value source = source) : Codec F α where
  encode := record.write
  decode := record.read
  decode_encode source := (read_write distinct source).trans (congrArg some (whole source))

theorem codec_solid {record : Record F α α} {distinct : record.keys.Nodup}
    {whole : ∀ source, record.value source = source} : (record.codec distinct whole).Solid := nofun

end Record

/-- What a tag promises: a value without content, or one made from it. -/
inductive Variant (F α : Type) where
  | unit (value : α)
  | content (decode : Value F → Option α)

def Variant.read : Variant F α → Option (Value F) → Option α
  | .unit value, none => some value
  | .unit value, some .null => some value
  | .unit _, some _ => none
  | .content decode, found => found.bind decode

def readTagged (tag content : String) (variant : String → Option (Variant F α)) : Value F → Option α
  | .obj fields => do
    let found ← field fields tag
    let written ← field fields content
    let name ← found.bind Codec.string.decode
    let kind ← variant name
    kind.read written
  | _ => none

def writeTagged (tag content name : String) (written : Option (Value F)) : Value F :=
  .obj ((tag, .str name) :: Record.entries content written)

theorem readTagged_writeTagged (apart : content ≠ tag) (variant : String → Option (Variant F α)) :
    readTagged tag content variant (writeTagged tag content name written) =
      (variant name).bind (·.read written) := by
  have other : ∀ entry ∈ Record.entries content written, entry.1 ≠ tag :=
    fun entry mem => Record.keyed_entries entry mem ▸ apart
  have own : field ((tag, Value.str name) :: Record.entries content written) content =
      some written := by
    have skipped : ∀ entry ∈ [(tag, Value.str (F := F) name)], entry.1 ≠ content := by
      simpa using apart.symm
    have found : field (Record.entries content written ++ []) content = some written :=
      Record.field_entries written (List.forall_mem_nil _)
    rw [List.append_nil] at found
    exact (field_append_left skipped _).trans found
  rw [writeTagged, readTagged, field_cons_self other, own]
  rfl

def readUntagged : List (Value F → Option α) → Value F → Option α
  | [], _ => none
  | decode :: rest, value => (decode value).or (readUntagged rest value)

theorem readUntagged_skip (fails : decode value = none) (rest : List (Value F → Option α)) :
    readUntagged (decode :: rest) value = readUntagged rest value := by
  rw [readUntagged, fails]
  rfl

theorem readUntagged_take (succeeds : decode value = some result) :
    readUntagged (decode :: rest) value = some result := by
  rw [readUntagged, succeeds]
  rfl

end Json
