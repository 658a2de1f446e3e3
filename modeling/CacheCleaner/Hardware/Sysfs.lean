import CacheCleaner.Daemon.EventLoop

namespace CacheCleaner

/-! What `sysfs` says of the display and of the charger.  A file that cannot be
read, or not as text, has no content, and a directory that cannot be listed has
no entries. -/

def trimText (text : String) : String :=
  .ofList ((text.toList.dropWhile isWhitespace).reverse.dropWhile isWhitespace).reverse

/-- The upper case of a letter.  Those listed are all that have ASCII letters in theirs
without being one; every other letter outside ASCII stands for itself, since its upper
case is outside ASCII too and the words looked for are not. -/
def upperLetters (letter : Char) : List Char :=
  match letter.toNat with
  | 0xdf => ['S', 'S']
  | 0x131 => ['I']
  | 0x149 => ['\u02bc', 'N']
  | 0x17f => ['S']
  | 0x1f0 => ['J', '\u030c']
  | 0x1e96 => ['H', '\u0331']
  | 0x1e97 => ['T', '\u0308']
  | 0x1e98 => ['W', '\u030a']
  | 0x1e99 => ['Y', '\u030a']
  | 0x1e9a => ['A', '\u02be']
  | 0xfb00 => ['F', 'F']
  | 0xfb01 => ['F', 'I']
  | 0xfb02 => ['F', 'L']
  | 0xfb03 => ['F', 'F', 'I']
  | 0xfb04 => ['F', 'F', 'L']
  | 0xfb05 => ['S', 'T']
  | 0xfb06 => ['S', 'T']
  | _ => [letter.toUpper]

def upperText (text : String) : String := .ofList (text.toList.flatMap upperLetters)

structure BacklightNode where
  actualBrightness : Option String
  brightness : Option String
  deriving DecidableEq, Repr

structure LedNode where
  name : String
  brightness : Option String
  deriving DecidableEq, Repr

structure DisplayFiles where
  backlight : List BacklightNode
  leds : List LedNode
  blank : List (Option String)
  dpms : List (Option String)
  dumpsys : Option String
  deriving DecidableEq, Repr

def BacklightNode.value? (node : BacklightNode) : Option Nat :=
  (node.actualBrightness.or node.brightness).bind fun text => parseU32 (trimText text)

/-- Read only where the name is that of a backlight. -/
def LedNode.value? (node : LedNode) : Option Nat :=
  if containsText node.name "backlight" || containsText node.name "lcd" ||
      containsText node.name "wled" then
    node.brightness.bind fun text => parseU32 (trimText text)
  else none

def ScreenState.ofBrightness (brightness : Nat) : ScreenState :=
  if 0 < brightness then .on else .off

def dpmsState (text : String) : Option ScreenState :=
  let trimmed := trimText text
  if trimmed = "0" || eqIgnoreAsciiCase trimmed "On" then some .on
  else if trimmed = "3" || eqIgnoreAsciiCase trimmed "Off" then some .off
  else none

def dumpsysState (text : String) : Option ScreenState :=
  if containsText text "mScreenState=ON" || containsText text "state=ON" ||
      containsText text "Display State: ON" || containsText text "Display Power: state=ON" then
    some .on
  else if containsText text "mScreenState=OFF" || containsText text "state=OFF" ||
      containsText text "Display State: OFF" || containsText text "Display Power: state=OFF" then
    some .off
  else none

def getScreenState (files : DisplayFiles) : ScreenState :=
  ((files.backlight.findSome? BacklightNode.value?).map ScreenState.ofBrightness
  |>.or ((files.leds.findSome? LedNode.value?).map ScreenState.ofBrightness)
  |>.or (files.blank.findSome? fun content => content.bind fun text =>
    (parseU32 (trimText text)).map fun blank => if blank = 0 then ScreenState.on else .off)
  |>.or (files.dpms.findSome? fun content => content.bind dpmsState)
  |>.or (files.dumpsys.bind dumpsysState)).getD .unknown

/-- Where nodes report a brightness, all are lit or all are dark. -/
def Uniform (value? : α → Option Nat) (nodes : List α) : Prop :=
  ∀ left ∈ nodes, ∀ right ∈ nodes, ∀ first second, value? left = some first →
    value? right = some second → (0 < first ↔ 0 < second)

theorem uniform_of_lit {value? : α → Option Nat} {nodes : List α}
    (lit : ∀ node ∈ nodes, ∀ value ∈ value? node, 0 < value) : Uniform value? nodes := by
  intro left mem right mem' first second reads reads'
  exact iff_of_true (lit left mem first reads) (lit right mem' second reads')

theorem ofBrightness_eq_iff {first second : Nat} :
    ScreenState.ofBrightness first = .ofBrightness second ↔ (0 < first ↔ 0 < second) := by
  unfold ScreenState.ofBrightness
  by_cases left : 0 < first <;> by_cases right : 0 < second <;> simp [left, right]

theorem Uniform.findSome?_perm {value? : α → Option Nat} {nodes listed : List α}
    (uniform : Uniform value? nodes) (listing : listed.Perm nodes) :
    (listed.findSome? value?).map ScreenState.ofBrightness =
      (nodes.findSome? value?).map ScreenState.ofBrightness := by
  cases found : nodes.findSome? value? with
  | none =>
    rw [List.findSome?_eq_none_iff] at found
    rw [List.findSome?_eq_none_iff.mpr fun node mem => found node (listing.mem_iff.mp mem)]
  | some value =>
    obtain ⟨node, mem, reads⟩ := List.exists_of_findSome?_eq_some found
    cases other : listed.findSome? value? with
    | none =>
      rw [List.findSome?_eq_none_iff] at other
      rw [other node (listing.mem_iff.mpr mem)] at reads
      cases reads
    | some value' =>
      obtain ⟨node', member', reads'⟩ := List.exists_of_findSome?_eq_some other
      have same := uniform node' (listing.mem_iff.mp member') node mem value' value reads' reads
      exact congrArg some (ofBrightness_eq_iff.mpr same)

theorem uniform_of_perm [DecidableEq α] {value? : α → Option Nat} {nodes : List α}
    (state : ScreenState)
    (same : ∀ listed : List α, listed.Perm nodes → ∀ value, listed.findSome? value? = some value →
      ScreenState.ofBrightness value = state) : Uniform value? nodes := by
  have first : ∀ node ∈ nodes, ∀ value, value? node = some value →
      ScreenState.ofBrightness value = state := fun node mem value reads =>
    same (node :: nodes.erase node) (List.perm_cons_erase mem).symm value (by simp [reads])
  intro left inLeft right inRight one two readsLeft readsRight
  rw [← ofBrightness_eq_iff]
  exact (first left inLeft one readsLeft).trans (first right inRight two readsRight).symm

/-- What the display is said to be, whatever the order of the nodes. -/
def SeenRight (files : DisplayFiles) : Prop :=
  ∀ backlight leds, backlight.Perm files.backlight → leds.Perm files.leds →
    ((∃ node ∈ backlight, ∃ value, node.value? = some value ∧ 0 < value) →
      getScreenState { files with backlight, leds } = .on) ∧
    (backlight ≠ [] → (∀ node ∈ backlight, node.value? = some 0) →
      getScreenState { files with backlight, leds } = .off) ∧
    getScreenState { files with backlight, leds } = getScreenState files

variable {files : DisplayFiles}

theorem getScreenState_of_backlight
    (found : files.backlight.findSome? BacklightNode.value? = some value) :
    getScreenState files = .ofBrightness value := by
  unfold getScreenState
  rw [found]
  rfl

theorem getScreenState_of_leds (found : files.leds.findSome? LedNode.value? = some value)
    (dark : files.backlight = []) : getScreenState files = .ofBrightness value := by
  unfold getScreenState
  rw [dark, found]
  rfl

theorem exists_backlight_value (files : DisplayFiles)
    (readable : ∀ node ∈ files.backlight, node.value? ≠ none)
    (some : files.backlight ≠ []) : ∃ node ∈ files.backlight, ∃ value, node.value? = .some value ∧
      files.backlight.findSome? BacklightNode.value? = .some value := by
  cases found : files.backlight.findSome? BacklightNode.value? with
  | none =>
    obtain ⟨node, mem⟩ := List.exists_mem_of_ne_nil _ some
    exact absurd (List.findSome?_eq_none_iff.mp found node mem) (readable node mem)
  | some value =>
    obtain ⟨node, mem, reads⟩ := List.exists_of_findSome?_eq_some found
    exact ⟨node, mem, value, reads, rfl⟩

/-- The display is seen right exactly when the nodes that are read agree. -/
theorem seenRight_iff (files : DisplayFiles)
    (readable : ∀ node ∈ files.backlight, node.value? ≠ none) :
    SeenRight files ↔ Uniform BacklightNode.value? files.backlight ∧
      (files.backlight = [] → Uniform LedNode.value? files.leds) := by
  constructor
  · intro right
    refine ⟨uniform_of_perm (getScreenState files) fun listed perm value found => ?_,
      fun dark => uniform_of_perm (getScreenState files) fun listed perm value found => ?_⟩
    · rw [← (right listed files.leds perm (.refl _)).2.2]
      exact (getScreenState_of_backlight found).symm
    · rw [← (right files.backlight listed (.refl _) perm).2.2]
      exact Eq.symm (getScreenState_of_leds found dark)
  · rintro ⟨lit, leds⟩ backlight listed perm perm'
    have read := exists_backlight_value { files with backlight, leds := listed }
      fun node member => readable node (perm.mem_iff.mp member)
    refine ⟨fun ⟨node, member, value, reads, positive⟩ => ?_, fun some dark => ?_, ?_⟩
    · obtain ⟨other, inside, first, readsOther, found⟩ := read (List.ne_nil_of_mem member)
      rw [getScreenState_of_backlight found]
      exact if_pos ((lit other (perm.mem_iff.mp inside) node (perm.mem_iff.mp member) first value
        readsOther reads).mpr positive)
    · obtain ⟨other, inside, first, readsOther, found⟩ := read some
      rw [getScreenState_of_backlight found]
      rw [dark other inside] at readsOther
      cases readsOther
      rfl
    · unfold getScreenState
      dsimp only
      rw [lit.findSome?_perm perm]
      by_cases empty : files.backlight = []
      · rw [(leds empty).findSome?_perm perm']
      · obtain ⟨-, -, value, -, found⟩ := exists_backlight_value files readable empty
        rw [found]
        rfl

/-- Two panels, of which the one listed first is dark. -/
theorem dark_panel_first : ∃ files : DisplayFiles, (∀ node ∈ files.backlight, node.value? ≠ none) ∧
      (∃ node ∈ files.backlight, ∃ value, node.value? = some value ∧ 0 < value) ∧
      getScreenState files = .off ∧
      getScreenState { files with backlight := files.backlight.reverse } = .on :=
  ⟨⟨[⟨some "0\n", none⟩, ⟨some "128\n", none⟩], [], [], [], none⟩, by decide +kernel⟩

/-- Two lit panels beside a dark light, and lights of which one is lit. -/
theorem lit_nodes_seen_right :
    SeenRight ⟨[⟨some "128\n", none⟩, ⟨none, some "7"⟩], [⟨"wled", some "0"⟩], [], [], none⟩ ∧
      SeenRight ⟨[], [⟨"button", some "0"⟩, ⟨"lcd-backlight", some "9"⟩, ⟨"wled", none⟩], [], [],
        none⟩ := by
  have panels : ∀ node ∈ [⟨some "128\n", none⟩, ⟨none, some "7"⟩],
      ∀ value ∈ BacklightNode.value? node, 0 < value := by decide +kernel
  have lights : ∀ node ∈ [⟨"button", some "0"⟩, ⟨"lcd-backlight", some "9"⟩, ⟨"wled", none⟩],
      ∀ value ∈ LedNode.value? node, 0 < value := by decide +kernel
  constructor
  · exact (seenRight_iff _ (by decide +kernel)).mpr ⟨uniform_of_lit panels, nofun⟩
  · exact (seenRight_iff _ (by decide +kernel)).mpr
      ⟨uniform_of_lit nofun, fun _ => uniform_of_lit lights⟩

structure SupplyNode where
  isDir : Bool
  type : Option String
  online : Option String
  status : Option String
  deriving DecidableEq, Repr

structure PowerFiles where
  supplies : Option (List SupplyNode)
  fallback : List (Option String)
  deriving DecidableEq, Repr

def fallbackState (text : String) : Option ChargerState :=
  let trimmed := trimText text
  if eqIgnoreAsciiCase trimmed "Charging" || trimmed = "1" then some .charging
  else if eqIgnoreAsciiCase trimmed "Discharging" || trimmed = "0" then some .discharging
  else if eqIgnoreAsciiCase trimmed "Full" then some .full
  else none

def getChargerStateFallback (paths : List (Option String)) : ChargerState :=
  (paths.findSome? fun content => content.bind fallbackState).getD .unknown

def isPowerInput (type : String) : Bool :=
  let upper := upperText (trimText type)
  containsText upper "USB" || containsText upper "AC" || containsText upper "MAINS" ||
    containsText upper "WIRELESS" || containsText upper "WIPOWER"

def isBattery (type : String) : Bool :=
  containsText (upperText (trimText type)) "BATTERY" ||
    containsText (upperText (trimText type)) "BMS"

/-- A status text: charging and full overwrite what was found before, and
discharging does not. -/
def readStatus (charging full discharging : Bool) (found : ChargerState) : ChargerState :=
  if charging then .charging
  else if full then .full
  else if discharging && decide (found = .unknown) then .discharging
  else found

def readBattery (found : ChargerState) (text : String) : ChargerState :=
  let status := trimText text
  readStatus (eqIgnoreAsciiCase status "Charging") (eqIgnoreAsciiCase status "Full")
    (eqIgnoreAsciiCase status "Discharging" || eqIgnoreAsciiCase status "Not charging") found

/-- Without a type a `1` counts as charging, and `Not charging` means nothing. -/
def readUntyped (found : ChargerState) (text : String) : ChargerState :=
  let status := trimText text
  readStatus (eqIgnoreAsciiCase status "Charging" || status = "1")
    (eqIgnoreAsciiCase status "Full") (eqIgnoreAsciiCase status "Discharging") found

/-- One entry: whether a power source is online, and the status so far. -/
def readSupply (found : Bool × ChargerState) (node : SupplyNode) : Bool × ChargerState :=
  if !node.isDir then found
  else
    match node.type with
    | some type =>
      if isPowerInput type then
        (found.1 || node.online.any fun text => trimText text = "1", found.2)
      else if isBattery type then
        (found.1, (node.status.map (readBattery found.2)).getD found.2)
      else found
    | none => (found.1, (node.status.map (readUntyped found.2)).getD found.2)

def getChargerState (files : PowerFiles) : ChargerState :=
  match files.supplies with
  | none => getChargerStateFallback files.fallback
  | some nodes =>
    let (online, status) := nodes.foldl readSupply (false, .unknown)
    if online then if status = .full then .full else .charging
    else if status ≠ .unknown then status
    else getChargerStateFallback files.fallback

def ChargerState.charges : ChargerState → Bool
  | .charging | .full => true
  | .discharging | .unknown => false

def ChargerState.isKnown : ChargerState → Bool
  | .unknown => false
  | _ => true

namespace SupplyNode

variable (node : SupplyNode)

def feeds : Bool :=
  node.isDir && node.type.any isPowerInput && node.online.any fun text => trimText text = "1"

def isBatteryNode : Bool :=
  node.isDir && node.type.any fun type => !isPowerInput type && isBattery type

def isUntyped : Bool := node.isDir && node.type.isNone

def reports (words : List String) : Bool :=
  node.status.any fun text => words.any (eqIgnoreAsciiCase (trimText text))

def charges : Bool :=
  node.isBatteryNode && node.reports ["Charging", "Full"] ||
    node.isUntyped && (node.reports ["Charging", "Full"] ||
      node.status.any fun text => trimText text = "1")

def drains : Bool :=
  node.isBatteryNode && node.reports ["Discharging", "Not charging"] ||
    node.isUntyped && node.reports ["Discharging"]

/-- A battery or untyped node with a status that is understood. -/
def yieldsStatus : Bool := node.charges || node.drains

end SupplyNode

theorem readStatus_spec :
    (readStatus charging full discharging found).charges = (found.charges || (charging || full)) ∧
      (readStatus charging full discharging found).isKnown =
        (found.isKnown || (charging || full || discharging)) := by
  cases charging <;> cases full <;> cases discharging <;> cases found <;> decide

theorem readSupply_spec (found : Bool × ChargerState) (node : SupplyNode) :
    (readSupply found node).1 = (found.1 || node.feeds) ∧
      (readSupply found node).2.charges = (found.2.charges || node.charges) ∧
      (readSupply found node).2.isKnown = (found.2.isKnown || node.yieldsStatus) := by
  obtain ⟨isDir, type, online, status⟩ := node
  unfold readSupply SupplyNode.yieldsStatus SupplyNode.charges SupplyNode.drains SupplyNode.feeds
    SupplyNode.isBatteryNode SupplyNode.isUntyped SupplyNode.reports
  cases isDir with
  | false => simp
  | true =>
    cases type with
    | none =>
      cases status with
      | none => simp
      | some text =>
        simp [readUntyped, readStatus_spec, Bool.or_assoc, Bool.or_left_comm, Bool.or_comm]
    | some type =>
      cases input : isPowerInput type with
      | true => simp [input]
      | false =>
        cases battery : isBattery type with
        | false => simp [input, battery]
        | true =>
          cases status with
          | none => simp [input, battery]
          | some text =>
            simp [input, battery, readBattery, readStatus_spec, Bool.or_assoc]

theorem foldl_readSupply_spec (found : Bool × ChargerState) (nodes : List SupplyNode) :
    (nodes.foldl readSupply found).1 = (found.1 || nodes.any SupplyNode.feeds) ∧
      (nodes.foldl readSupply found).2.charges = (found.2.charges || nodes.any SupplyNode.charges) ∧
      (nodes.foldl readSupply found).2.isKnown =
        (found.2.isKnown || nodes.any SupplyNode.yieldsStatus) := by
  induction nodes generalizing found with
  | nil => simp
  | cons node rest ih =>
    obtain ⟨online, charges, known⟩ := readSupply_spec found node
    obtain ⟨online', charges', known'⟩ := ih (readSupply found node)
    simp only [List.foldl_cons, List.any_cons]
    rw [online', charges', known', online, charges, known]
    simp only [Bool.or_assoc, and_self]

/-- The charger charges exactly when a source is online, a battery says so, or
no battery says anything and a fixed path does. -/
theorem charges_getChargerState (nodes : List SupplyNode) (fallback : List (Option String)) :
    ((getChargerState ⟨some nodes, fallback⟩).charges = true ↔
      (∃ node ∈ nodes, node.feeds = true) ∨ (∃ node ∈ nodes, node.charges = true) ∨
        (∀ node ∈ nodes, node.yieldsStatus = false) ∧
          (getChargerStateFallback fallback).charges = true) ∧
      ∀ listed : List SupplyNode, listed.Perm nodes →
        (getChargerState ⟨some listed, fallback⟩).charges =
          (getChargerState ⟨some nodes, fallback⟩).charges := by
  have exactly : ∀ nodes : List SupplyNode,
      (getChargerState ⟨some nodes, fallback⟩).charges = (nodes.any SupplyNode.feeds ||
        (nodes.any SupplyNode.charges || !nodes.any SupplyNode.yieldsStatus &&
          (getChargerStateFallback fallback).charges)) := by
    intro nodes
    obtain ⟨online, charges, known⟩ := foldl_readSupply_spec (false, .unknown) nodes
    simp only [Bool.false_or, ChargerState.charges, ChargerState.isKnown] at online charges known
    rw [← online, ← charges, ← known]
    unfold getChargerState
    dsimp only
    generalize nodes.foldl readSupply (false, .unknown) = found
    obtain ⟨source, status⟩ := found
    cases source <;> cases status <;> rfl
  constructor
  · rw [exactly]
    simp
  · intro listed perm
    rw [exactly, exactly, perm.any_eq, perm.any_eq, perm.any_eq]

end CacheCleaner
