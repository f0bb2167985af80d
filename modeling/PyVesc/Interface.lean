import PyVesc.DrainLoops
import PyVesc.MessageBase

/-!
# Encoding and decoding of messages

`protocol/interface.py`: `encode` and `encodeRequest` pack a message and frame the payload, `decode`
unframes everything that is in a buffer and unpacks the payloads, joining the strings of messages
that span several frames.
-/

namespace PyVesc

variable (crc : Bytes → UInt16) (registry : Registry)

def encode (msg : Message) : Py Bytes := do
  let msgPayload ← VESCMessage.pack msg false true
  frame crc msgPayload

def encodeRequest (msg : Message) : Py Bytes := do
  let msgPayload ← VESCMessage.pack msg true true
  frame crc msgPayload

/-- A decoded response: a message, or the joined strings of one or more messages. -/
inductive Response where
  | message (msg : Message)
  | text (s : String)
  | byteString (bs : Bytes)

namespace FieldFormat

/-- `'s' in f[1]`, which also holds of the formats of byte strings of fixed length. -/
def hasS : FieldFormat → Bool
  | .s => true
  | .item (.bytes _) => true
  | .item _ => false

end FieldFormat

/-- The name of the last string field, and the last scalar that a string field declares. -/
def responseStringField (fields : List Field) : Option String × Option ℚ :=
  fields.foldl (fun acc f => if f.format.hasS then (some f.name, f.scalar <|> acc.2) else acc)
    (none, none)

def asText : PyVal → Py String
  | .str s => .ok s
  | _ => .error (.typeError "")

def asByteString : PyVal → Py Bytes
  | .bytes bs => .ok bs
  | _ => .error (.typeError "")

/-- What `decode` makes of the messages it has unpacked. -/
def combine (unpackedMessages : List Message) (fields : List Field) : Py Response :=
  match responseStringField fields with
  | (some name, none) => do
    let texts ← unpackedMessages.mapM fun msg => do asText (← msg.getattr name)
    return .text (String.join (texts.map (· ++ "\n")))
  | (some name, some scalar) =>
    if scalar = -1 then do
      let strings ← unpackedMessages.mapM fun msg => do asByteString (← msg.getattr name)
      return .byteString strings.flatten
    else .error .unboundLocalError
  | (none, _) =>
    match unpackedMessages with
    | [msg] => .ok (.message msg)
    | _ => .error (.valueError
        "Don't currently support multiple message results from one field that aren't strings")

def decodeWith (U : Unframer) (buffer : Bytes) (recv : Bool) :
    Py (Option Response × ℕ × Bytes) := do
  let s ← (decodeLoopWith U).exec ⟨buffer, [], 0, []⟩
  let unpackedMessages ← s.messages.mapM fun msgPayload =>
    VESCMessage.unpack registry msgPayload (!recv)
  match unpackedMessages with
  | [] => return (none, s.consumedTotal, s.msgPayloadTotal)
  | first :: _ =>
    let fields := (if recv then first.cls.recvFields else first.cls.sendFields).getD []
    let response ← combine unpackedMessages fields
    return (some response, s.consumedTotal, s.msgPayloadTotal)

def decode (buffer : Bytes) (recv : Bool) : Py (Option Response × ℕ × Bytes) :=
  decodeWith registry (.unlimited crc) buffer recv

theorem decode_eq (buffer : Bytes) (recv : Bool) : decode crc registry buffer recv = (do
    let s ← (decodeLoop crc).exec ⟨buffer, [], 0, []⟩
    let unpackedMessages ← s.messages.mapM fun msgPayload =>
      VESCMessage.unpack registry msgPayload (!recv)
    match unpackedMessages with
    | [] => return (none, s.consumedTotal, s.msgPayloadTotal)
    | first :: _ =>
      let fields := (if recv then first.cls.recvFields else first.cls.sendFields).getD []
      let response ← combine unpackedMessages fields
      return (some response, s.consumedTotal, s.msgPayloadTotal)) := rfl

variable {crc registry} in
/-- One framed payload is decoded to what `combine` makes of its message. -/
theorem decode_framed {payload : Bytes} (hframable : Framable payload) (recv : Bool) :
    decode crc registry (frameBytes crc payload) recv = (do
      let msg ← VESCMessage.unpack registry payload (!recv)
      let fields := (if recv then msg.cls.recvFields else msg.cls.sendFields).getD []
      let response ← combine [msg] fields
      return (some response, (frameBytes crc payload).length, payload)) := by
  have hloop := decodeLoop_frames crc (List.forall_mem_singleton.mpr hframable) [] 0 []
  rw [List.map_singleton, List.flatten_singleton, List.flatten_singleton, List.nil_append,
    List.nil_append, Nat.zero_add] at hloop
  simp only [decode_eq, hloop, ok_bind, List.mapM_cons, List.mapM_nil]
  cases VESCMessage.unpack registry payload (!recv) with
  | error e => rfl
  | ok msg => rfl

end PyVesc
