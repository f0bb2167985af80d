import PyVesc.CanFrames
import PyVesc.PyDict
import PyVesc.SliceAssign

/-!
# The receiving side of the CAN bus

`can/bus.py`: what the bus object does with one CAN message. Frames of the COMM tunnel addressed to
the host go to the reassembly buffer, status frames to the telemetry of their node, and answers to a
ping to the table of nodes. The calls of the subscribers, which come last, are modelled apart
from it.
-/

namespace PyVesc

def HOST_ID : ℕ := 0xFE

structure CanMessage where
  isExtendedId : Bool
  arbitrationId : ℕ
  data : Bytes
  deriving DecidableEq, Repr

def VescFrame.message (f : VescFrame) : CanMessage := ⟨true, f.arbitrationId, f.data⟩

inductive StatusSlot where
  | status1 | status2 | status3 | status4 | status5 | status6
  deriving DecidableEq, Repr

structure NodeTelemetry where
  controllerId : ℕ
  slots : Dict StatusSlot DecodedStatus
  stamps : Dict StatusSlot ℚ
  deriving DecidableEq, Repr

/-- The part of the bus object that a message can change. -/
structure BusState where
  telemetry : Dict ℕ NodeTelemetry
  pongs : Dict ℕ ℕ
  pongEvent : Bool
  commBuf : Bytes
  commReply : Option (ℕ × Bytes)
  commEvent : Bool
  deriving DecidableEq, Repr

def BusState.initial : BusState := ⟨[], [], false, List.replicate 512 0, none, false⟩

def BusState.publish (s : BusState) (sender : ℕ) (payload : Bytes) : BusState :=
  { s with commReply := some (sender, payload), commEvent := true }

def BusState.withBuf (s : BusState) (buf : Bytes) : BusState := { s with commBuf := buf }

variable (crc : Bytes → UInt16)

def onTunnelFrame (s : BusState) (packetId : ℕ) (data : Bytes) : BusState :=
  if packetId = CanPacketId.processShortBuffer.value ∧ data.length ≥ 3 then
    match data with
    | sender :: _ :: payload => s.publish sender.toNat payload
    | _ => s
  else if packetId = CanPacketId.fillRxBuffer.value ∧ data.length ≥ 2 then
    match data with
    | off :: chunk =>
      s.withBuf (SliceAssign.assign s.commBuf off.toNat (off.toNat + data.length - 1) chunk)
    | _ => s
  else if packetId = CanPacketId.fillRxBufferLong.value ∧ data.length ≥ 3 then
    match data with
    | offHigh :: offLow :: chunk =>
      let off := BigEndian.toNat [offHigh, offLow]
      s.withBuf (SliceAssign.assign s.commBuf off (off + data.length - 2) chunk)
    | _ => s
  else if packetId = CanPacketId.processRxBuffer.value ∧ data.length ≥ 6 then
    match data with
    | sender :: _ :: lengthHigh :: lengthLow :: crcHigh :: crcLow :: _ =>
      let payload := s.commBuf.take (BigEndian.toNat [lengthHigh, lengthLow])
      if (crc payload).toNat = BigEndian.toNat [crcHigh, crcLow] then
        s.publish sender.toNat payload
      else s
    | _ => s
  else s

/-- A tunnel frame writes a chunk into the buffer, publishes a reply, or does nothing. -/
theorem onTunnelFrame_cases (s : BusState) (packetId : ℕ) (data : Bytes) :
    (∃ off chunk, onTunnelFrame crc s packetId data =
      s.withBuf (SliceAssign.assign s.commBuf off (off + chunk.length) chunk)) ∨
    (∃ sender payload, onTunnelFrame crc s packetId data = s.publish sender payload) ∨
    onTunnelFrame crc s packetId data = s := by
  unfold onTunnelFrame
  split_ifs
  · split
    · exact Or.inr (Or.inl ⟨_, _, rfl⟩)
    · exact Or.inr (Or.inr rfl)
  · split
    · exact Or.inl ⟨_, _, rfl⟩
    · exact Or.inr (Or.inr rfl)
  · split
    · exact Or.inl ⟨_, _, rfl⟩
    · exact Or.inr (Or.inr rfl)
  · split
    · dsimp only
      split_ifs
      · exact Or.inr (Or.inl ⟨_, _, rfl⟩)
      · exact Or.inr (Or.inr rfl)
    · exact Or.inr (Or.inr rfl)
  · exact Or.inr (Or.inr rfl)

theorem onTunnelFrame_short (s : BusState) (sender flag : UInt8) {payload : Bytes}
    (h : payload ≠ []) :
    onTunnelFrame crc s CanPacketId.processShortBuffer.value (sender :: flag :: payload) =
      s.publish sender.toNat payload := by
  have hpos := List.length_pos_iff.mpr h
  unfold onTunnelFrame
  rw [if_pos ⟨rfl, by simp only [List.length_cons]; omega⟩]

theorem onTunnelFrame_fill (s : BusState) (off : UInt8) {chunk : Bytes} (h : chunk ≠ []) :
    onTunnelFrame crc s CanPacketId.fillRxBuffer.value (off :: chunk) =
      s.withBuf (SliceAssign.assign s.commBuf off.toNat (off.toNat + chunk.length) chunk) := by
  have hpos := List.length_pos_iff.mpr h
  unfold onTunnelFrame
  rw [if_neg (fun h => absurd h.1 (by decide)),
    if_pos ⟨rfl, by simp only [List.length_cons]; omega⟩]
  rfl

theorem onTunnelFrame_fillLong (s : BusState) (offHigh offLow : UInt8) {chunk : Bytes}
    (h : chunk ≠ []) :
    onTunnelFrame crc s CanPacketId.fillRxBufferLong.value (offHigh :: offLow :: chunk) =
      s.withBuf (SliceAssign.assign s.commBuf (BigEndian.toNat [offHigh, offLow])
        (BigEndian.toNat [offHigh, offLow] + chunk.length) chunk) := by
  have hpos := List.length_pos_iff.mpr h
  unfold onTunnelFrame
  rw [if_neg (fun h => absurd h.1 (by decide)), if_neg (fun h => absurd h.1 (by decide)),
    if_pos ⟨rfl, by simp only [List.length_cons]; omega⟩]
  rfl

theorem onTunnelFrame_process (s : BusState)
    (sender flag lengthHigh lengthLow crcHigh crcLow : UInt8) (rest : Bytes) :
    onTunnelFrame crc s CanPacketId.processRxBuffer.value
        (sender :: flag :: lengthHigh :: lengthLow :: crcHigh :: crcLow :: rest) =
      if (crc (s.commBuf.take (BigEndian.toNat [lengthHigh, lengthLow]))).toNat =
          BigEndian.toNat [crcHigh, crcLow] then
        s.publish sender.toNat (s.commBuf.take (BigEndian.toNat [lengthHigh, lengthLow]))
      else s := by
  unfold onTunnelFrame
  rw [if_neg (fun h => absurd h.1 (by decide)), if_neg (fun h => absurd h.1 (by decide)),
    if_neg (fun h => absurd h.1 (by decide)),
    if_pos ⟨rfl, by simp only [List.length_cons]; omega⟩]

def tunnelIds : List ℕ :=
  [CanPacketId.fillRxBuffer.value, CanPacketId.fillRxBufferLong.value,
    CanPacketId.processRxBuffer.value, CanPacketId.processShortBuffer.value]

/-- `_STATUS_SLOTS[type(obj)]`, and `none` for a pong. -/
def DecodedStatus.slot : DecodedStatus → Option StatusSlot
  | .status1 .. => some .status1
  | .status2 .. => some .status2
  | .status3 .. => some .status3
  | .status4 .. => some .status4
  | .status5 .. => some .status5
  | .status6 .. => some .status6
  | .pong .. => none

def BusState.recordStatus (s : BusState) (controllerId : ℕ) (slot : StatusSlot)
    (obj : DecodedStatus) (now : ℚ) : BusState :=
  let telem := (s.telemetry.lookup controllerId).getD ⟨controllerId, [], []⟩
  let telem : NodeTelemetry :=
    { telem with slots := Dict.set telem.slots slot obj, stamps := Dict.set telem.stamps slot now }
  { s with telemetry := Dict.set s.telemetry controllerId telem }

/-- `now` is the reading of the clock when a status is recorded. -/
def onMessage (s : BusState) (now : ℚ) (msg : CanMessage) : BusState :=
  if msg.isExtendedId = false then s
  else
    let (packetId, addressee) := splitArbitrationId msg.arbitrationId
    if addressee = HOST_ID ∧ packetId ∈ tunnelIds then onTunnelFrame crc s packetId msg.data
    else
      match decodeFrame msg.arbitrationId msg.data with
      | none => s
      | some (controllerId, .pong responder hwType) =>
        if controllerId = HOST_ID then
          { s with pongs := Dict.set s.pongs responder hwType, pongEvent := true }
        else s
      | some (controllerId, obj) =>
        match obj.slot with
        | some slot => s.recordStatus controllerId slot obj now
        | none => s

/-- Messages in the order in which the bus processes them, each with the reading of the clock. -/
def receiveAll (s : BusState) (events : List (ℚ × CanMessage)) : BusState :=
  events.foldl (fun s e => onMessage crc s e.1 e.2) s

def tunnelForHost (msg : CanMessage) : Bool :=
  msg.isExtendedId && decide ((splitArbitrationId msg.arbitrationId).2 = HOST_ID ∧
    (splitArbitrationId msg.arbitrationId).1 ∈ tunnelIds)

theorem onMessage_tunnel {msg : CanMessage} (h : tunnelForHost msg = true) (s : BusState)
    (now : ℚ) : onMessage crc s now msg =
      onTunnelFrame crc s (splitArbitrationId msg.arbitrationId).1 msg.data := by
  rw [tunnelForHost, Bool.and_eq_true, decide_eq_true_iff] at h
  rw [onMessage, if_neg (by rw [h.1]; decide)]
  exact if_pos h.2

/-- What the other messages leave as it is. -/
def BusState.comm (s : BusState) : Bytes × Option (ℕ × Bytes) × Bool :=
  (s.commBuf, s.commReply, s.commEvent)

theorem comm_onMessage {msg : CanMessage} (h : tunnelForHost msg = false) (s : BusState)
    (now : ℚ) : (onMessage crc s now msg).comm = s.comm := by
  by_cases hext : msg.isExtendedId = false
  · rw [onMessage, if_pos hext]
  · rw [Bool.not_eq_false] at hext
    rw [tunnelForHost, hext, Bool.true_and, decide_eq_false_iff_not] at h
    rw [onMessage, if_neg (by rw [hext]; decide)]
    dsimp only
    rw [if_neg h]
    cases decodeFrame msg.arbitrationId msg.data with
    | none => rfl
    | some decoded =>
      obtain ⟨controllerId, obj⟩ := decoded
      cases obj with
      | pong responder hwType =>
        dsimp only
        split_ifs <;> rfl
      | _ => rfl

end PyVesc
