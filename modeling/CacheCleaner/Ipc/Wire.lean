import CacheCleaner.Ipc.Messages
import CacheCleaner.Stream.Bytes

namespace CacheCleaner.Ipc

open Effect Json

variable {arrivals : List Stream.Arrival}

def maxIpcFrameSize : Nat := 2 * 1024 * 1024

inductive IoError where
  | unexpectedEof
  | other
  deriving DecidableEq, Repr

inductive IpcError where
  | io (error : IoError)
  | json
  | ipc (message : String)
  deriving DecidableEq, Repr

inductive WriteRequest where
  | writeAll (bytes : List UInt8)
  | flush

abbrev Sending := Program WriteRequest fun _ => Except IoError Unit

inductive ReadRequest where
  | readExact (count : Nat)

abbrev Receiving := Program ReadRequest fun _ => Except IoError (List UInt8)

variable {F α : Type}

variable (library : Library F)

def toVec (codec : Codec F α) (message : α) : List UInt8 :=
  (String.ofList (library.print (codec.encode message))).toUTF8.data.toList

def fromSlice (codec : Codec F α) (bytes : List UInt8) : Except IpcError α :=
  let parsed := do
    let text ← String.fromUTF8? ⟨⟨bytes⟩⟩
    codec.decode (← library.read text.toList)
  match parsed with
  | some message => .ok message
  | none => .error .json

theorem fromUTF8?_toUTF8 : String.fromUTF8? ⟨⟨text.toUTF8.data.toList⟩⟩ = some text := by
  rw [String.fromUTF8?]
  exact dif_pos text.isValidUTF8

theorem fromSlice_toVec :
    fromSlice library codec (toVec library codec message) = .ok message := by
  rw [fromSlice, toVec, fromUTF8?_toUTF8]
  simp only [Option.bind_eq_bind, Option.bind_some, String.toList_ofList, library.read_print,
    codec.decode_encode]

/-- A step that ends the whole when it fails. -/
def writing (request : WriteRequest) (next : Sending (Except IpcError Unit)) :
    Sending (Except IpcError Unit) := do
  match ← Program.perform request with
  | .error error => pure (.error (.io error))
  | .ok () => next

def outgoingText (size : Nat) : String :=
  s!"Outgoing message size {size} exceeded 64KB safety limit"

def incomingText (size : Nat) : String := s!"Payload size {size} exceeded 64KB safety limit"

def sendMessage (codec : Codec F α) (message : α) :
    Sending (Except IpcError Unit) :=
  let payload := toVec library codec message
  if maxIpcFrameSize < payload.length then
    pure (.error (.ipc (outgoingText payload.length)))
  else
    writing (.writeAll (Stream.toBeBytes (payload.length % 2 ^ 32))) <|
    writing (.writeAll payload) <|
    writing .flush <|
    pure (.ok ())

def reading (count : Nat) (next : List UInt8 → Receiving (Except IpcError α)) :
    Receiving (Except IpcError α) := do
  match ← Program.perform (.readExact count) with
  | .error error => pure (.error (.io error))
  | .ok bytes => next bytes

def readMessage (codec : Codec F α) : Receiving (Except IpcError α) :=
  reading 4 fun prefixBytes =>
    let length := Stream.fromBeBytes prefixBytes
    if maxIpcFrameSize < length then
      pure (.error (.ipc (incomingText length)))
    else
      reading length fun payload => pure (fromSlice library codec payload)

def sink : Handler WriteRequest (fun _ => Except IoError Unit) (List UInt8) where
  respond
    | .writeAll bytes, written => (.ok (), written ++ bytes)
    | .flush, written => (.ok (), written)

def source : Handler ReadRequest (fun _ => Except IoError (List UInt8)) (List Stream.Arrival) where
  respond
    | .readExact count, arrivals =>
      match Stream.readExact count arrivals with
      | (some bytes, left) => (.ok bytes, left)
      | (none, left) => (.error .unexpectedEof, left)

def frame (payload : List UInt8) : List UInt8 := Stream.toBeBytes payload.length ++ payload

theorem sendMessage_sink
    (fits : (toVec library codec message).length ≤ maxIpcFrameSize) (written : List UInt8) :
    (sendMessage library codec message).run sink written =
      (some (.ok ()), written ++ frame (toVec library codec message)) := by
  have short : (toVec library codec message).length < 2 ^ 32 := Nat.lt_of_le_of_lt fits (by decide)
  rw [sendMessage, if_neg (Nat.not_lt.mpr fits), Nat.mod_eq_of_lt short]
  change (_, (written ++ _) ++ _) = _
  rw [List.append_assoc]
  rfl

theorem reading_source
    (whole : Stream.content arrivals = taken ++ rest) : ∃ left, Stream.content left = rest ∧
      (reading taken.length next).run source arrivals = (next taken).run source left := by
  obtain ⟨left, read, remains⟩ := Stream.readExact_content arrivals taken rest whole
  have answer : source.respond (.readExact taken.length) arrivals = (.ok taken, left) := by
    rw [source]
    simp only [read]
  refine ⟨left, remains, ?_⟩
  rw [reading, Program.perform_bind, Program.run_call, answer]

theorem readMessage_source
    (fits : (toVec library codec message).length ≤ maxIpcFrameSize)
    (whole : Stream.content arrivals = frame (toVec library codec message) ++ rest) :
    ∃ left, Stream.content left = rest ∧ (readMessage library codec).run source arrivals =
        (some (.ok message), left) := by
  rw [frame, List.append_assoc] at whole
  obtain ⟨middle, later, length⟩ := reading_source whole
  obtain ⟨left, remains, payload⟩ := reading_source later
  have short : (toVec library codec message).length < 2 ^ 32 := Nat.lt_of_le_of_lt fits (by decide)
  refine ⟨left, remains, ?_⟩
  rw [readMessage]
  refine length.trans ?_
  simp only [Stream.fromBeBytes_toBeBytes short, if_neg (Nat.not_lt.mpr fits)]
  refine payload.trans ?_
  rw [fromSlice_toVec]
  rfl

inductive Kind where
  | command | response
  deriving DecidableEq, Repr

inductive Message (F : Type) where
  | command (command : Command)
  | response (response : Response F)

namespace Message

variable {arrivals : List Stream.Arrival} {message : Message F} {rest : List UInt8}

def kind : Message F → Kind
  | .command _ => .command
  | .response _ => .response

variable (library : Library F)

def payload : Message F → List UInt8
  | .command order => toVec library Command.codec order
  | .response answer => toVec library (Response.codec library) answer

def send : Message F → Sending (Except IpcError Unit)
  | .command order => sendMessage library Command.codec order
  | .response answer => sendMessage library (Response.codec library) answer

def receive : Kind → Receiving (Except IpcError (Message F))
  | .command => do pure ((← readMessage library Command.codec).map .command)
  | .response => do pure ((← readMessage library (Response.codec library)).map .response)

def sendAll : List (Message F) → Sending (Except IpcError Unit)
  | [] => pure (.ok ())
  | message :: rest => do
    match ← send library message with
    | .error error => pure (.error error)
    | .ok () => sendAll rest

def receiveAll : List Kind → Receiving (Except IpcError (List (Message F)))
  | [] => pure (.ok [])
  | kind :: rest => do
    match ← receive library kind with
    | .error error => pure (.error error)
    | .ok message =>
      pure ((← receiveAll rest).map (message :: ·))

def frames (messages : List (Message F)) : List UInt8 :=
  messages.flatMap fun message => frame (message.payload library)

variable {library}

theorem send_sink
    (fits : (message.payload library).length ≤ maxIpcFrameSize) (written : List UInt8) :
    (send library message).run sink written =
      (some (.ok ()), written ++ frame (message.payload library)) := by
  cases message with
  | command order => exact sendMessage_sink library fits written
  | response answer => exact sendMessage_sink library fits written

theorem sendAll_sink (fits : ∀ message ∈ messages,
      (message.payload library).length ≤ maxIpcFrameSize) (written : List UInt8) :
    (sendAll library messages).run sink written =
      (some (.ok ()), written ++ frames library messages) := by
  induction messages generalizing written with
  | nil => exact congrArg _ (List.append_nil written).symm
  | cons message messages ih =>
    obtain ⟨first, rest⟩ := List.forall_mem_cons.mp fits
    rw [sendAll, Program.run_bind_some _ (send_sink first written)]
    refine (ih rest _).trans ?_
    rw [List.append_assoc]
    rfl

theorem receive_source (fits : (message.payload library).length ≤ maxIpcFrameSize)
    (whole : Stream.content arrivals = frame (message.payload library) ++ rest) :
    ∃ left, Stream.content left = rest ∧ (receive library message.kind).run source arrivals =
        (some (.ok message), left) := by
  cases message with
  | command order =>
    obtain ⟨left, remains, read⟩ := readMessage_source library fits whole
    exact ⟨left, remains, Program.run_bind_some _ read⟩
  | response answer =>
    obtain ⟨left, remains, read⟩ := readMessage_source library fits whole
    exact ⟨left, remains, Program.run_bind_some _ read⟩

theorem receiveAll_source (fits : ∀ message ∈ messages,
      (message.payload library).length ≤ maxIpcFrameSize)
    (whole : Stream.content arrivals = frames library messages ++ rest) :
    ∃ left, Stream.content left = rest ∧
      (receiveAll library (messages.map kind)).run source arrivals =
        (some (.ok messages), left) := by
  induction messages generalizing arrivals with
  | nil => exact ⟨arrivals, whole, rfl⟩
  | cons message messages ih =>
    obtain ⟨first, others⟩ := List.forall_mem_cons.mp fits
    rw [frames, List.flatMap_cons, List.append_assoc] at whole
    obtain ⟨middle, later, read⟩ := receive_source first whole
    obtain ⟨left, remains, all⟩ := ih others later
    refine ⟨left, remains, ?_⟩
    rw [List.map_cons, receiveAll, Program.run_bind_some _ read]
    exact Program.run_bind_some _ all

theorem send_refused (long : maxIpcFrameSize < (message.payload library).length) :
    send library message =
      pure (.error (.ipc (outgoingText (message.payload library).length))) := by
  cases message with
  | command order => exact if_pos long
  | response answer => exact if_pos long

theorem receive_refused (kind : Kind) (long : maxIpcFrameSize < length)
    (small : length < 2 ^ 32) (whole : Stream.content arrivals = Stream.toBeBytes length ++ rest) :
    ∃ left, Stream.content left = rest ∧ (receive library kind).run source arrivals =
        (some (.error (.ipc (incomingText length))), left) := by
  have refused : ∀ {α : Type} (codec : Codec F α), ∃ left, Stream.content left = rest ∧
      (readMessage library codec).run source arrivals =
        (some (.error (.ipc (incomingText length))), left) := by
    intro α codec
    obtain ⟨left, remains, read⟩ := reading_source whole
    refine ⟨left, remains, ?_⟩
    rw [readMessage]
    refine read.trans ?_
    simp only [Stream.fromBeBytes_toBeBytes small, if_pos long]
    rfl
  cases kind with
  | command =>
    obtain ⟨left, remains, read⟩ := refused Command.codec
    exact ⟨left, remains, Program.run_bind_some _ read⟩
  | response =>
    obtain ⟨left, remains, read⟩ := refused (Response.codec library)
    exact ⟨left, remains, Program.run_bind_some _ read⟩

/-- Messages within the limit are written as their frames and read back as they
were, however the bytes arrive, each from its own frame and with whatever follows
left alone; longer ones are refused on both sides. -/
theorem messages_survive_wire (library : Library F) (messages : List (Message F))
    (fits : ∀ message ∈ messages, (message.payload library).length ≤ maxIpcFrameSize) :
    (∀ written, (sendAll library messages).run sink written =
      (some (.ok ()), written ++ frames library messages)) ∧
    (∀ arrivals tail, Stream.content arrivals = frames library messages ++ tail → ∀ count, ∃ left,
        (receiveAll library ((messages.take count).map kind)).run source arrivals =
          (some (.ok (messages.take count)), left) ∧
        Stream.content left = frames library (messages.drop count) ++ tail) ∧
    (∀ message : Message F, maxIpcFrameSize < (message.payload library).length →
      send library message = pure (.error (.ipc (outgoingText (message.payload library).length)))) ∧
    (∀ (kind : Kind) length arrivals tail, maxIpcFrameSize < length → length < 2 ^ 32 →
      Stream.content arrivals = Stream.toBeBytes length ++ tail →
      ∃ left, (receive library kind).run source arrivals =
          (some (.error (.ipc (incomingText length))), left) ∧ Stream.content left = tail) := by
  refine ⟨sendAll_sink fits, ?_, fun message long => send_refused long, ?_⟩
  · intro arrivals tail whole count
    have split : frames library messages =
        frames library (messages.take count) ++ frames library (messages.drop count) := by
      rw [frames, frames, frames, ← List.flatMap_append, List.take_append_drop]
    rw [split, List.append_assoc] at whole
    obtain ⟨left, remains, read⟩ := receiveAll_source
      (fun message member => fits message (List.mem_of_mem_take member)) whole
    exact ⟨left, read, remains⟩
  · intro kind length arrivals tail long small whole
    obtain ⟨left, remains, read⟩ := receive_refused kind long small whole
    exact ⟨left, read, remains⟩

def pingExchange : List (Message Nat) := [.command .ping, .response (.success (.pong "1.0" 60))]

theorem pingExchange_survives_bytewise : ∃ left,
    (receiveAll Json.compact [.command, .response]).run source
        ((frames Json.compact pingExchange ++ [0]).map fun byte => .bytes byte []) =
      (some (.ok pingExchange), left) ∧ Stream.content left = [0] :=
  (messages_survive_wire Json.compact pingExchange (by decide +kernel)).2.1 _ [0]
    (by simp [Stream.content, Stream.Arrival.content, List.flatMap_map]) 2

end Message

end CacheCleaner.Ipc
