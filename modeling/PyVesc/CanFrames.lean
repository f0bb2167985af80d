import PyVesc.MessageBase
import PyVesc.FiniteLoop

/-!
# The codec of the native CAN protocol

`can/frames.py`: arbitration ids, the frames of a COMM packet that goes through the tunnel, and the
decoding of status frames. The numbers of a decoded status are exact.
-/

namespace PyVesc

def BROADCAST_ID : ℕ := 0xFF

inductive CanPacketId where
  | setDuty | setCurrent | setCurrentBrake | setRpm | setPos | fillRxBuffer | fillRxBufferLong
  | processRxBuffer | processShortBuffer | status | setCurrentRel | setCurrentBrakeRel
  | setCurrentHandbrake | setCurrentHandbrakeRel | status2 | status3 | status4 | ping | pong
  | detectApplyAllFoc | detectApplyAllFocRes | confCurrentLimits | confStoreCurrentLimits
  | confCurrentLimitsIn | confStoreCurrentLimitsIn | confFocErpms | confStoreFocErpms | status5
  | pollTs5700n8501Status | confBatteryCut | confStoreBatteryCut | shutdown | status6
  deriving DecidableEq, Repr

namespace CanPacketId

def value : CanPacketId → ℕ
  | setDuty => 0
  | setCurrent => 1
  | setCurrentBrake => 2
  | setRpm => 3
  | setPos => 4
  | fillRxBuffer => 5
  | fillRxBufferLong => 6
  | processRxBuffer => 7
  | processShortBuffer => 8
  | status => 9
  | setCurrentRel => 10
  | setCurrentBrakeRel => 11
  | setCurrentHandbrake => 12
  | setCurrentHandbrakeRel => 13
  | status2 => 14
  | status3 => 15
  | status4 => 16
  | ping => 17
  | pong => 18
  | detectApplyAllFoc => 19
  | detectApplyAllFocRes => 20
  | confCurrentLimits => 21
  | confStoreCurrentLimits => 22
  | confCurrentLimitsIn => 23
  | confStoreCurrentLimitsIn => 24
  | confFocErpms => 25
  | confStoreFocErpms => 26
  | status5 => 27
  | pollTs5700n8501Status => 28
  | confBatteryCut => 29
  | confStoreBatteryCut => 30
  | shutdown => 31
  | status6 => 58

def all : List CanPacketId :=
  [setDuty, setCurrent, setCurrentBrake, setRpm, setPos, fillRxBuffer, fillRxBufferLong,
    processRxBuffer, processShortBuffer, status, setCurrentRel, setCurrentBrakeRel,
    setCurrentHandbrake, setCurrentHandbrakeRel, status2, status3, status4, ping, pong,
    detectApplyAllFoc, detectApplyAllFocRes, confCurrentLimits, confStoreCurrentLimits,
    confCurrentLimitsIn, confStoreCurrentLimitsIn, confFocErpms, confStoreFocErpms, status5,
    pollTs5700n8501Status, confBatteryCut, confStoreBatteryCut, shutdown, status6]

/-- `CanPacketId(packet_id)`, which raises for a number that no packet has. -/
def ofValue (packetId : ℕ) : Option CanPacketId := all.find? (fun pid => pid.value = packetId)

end CanPacketId

structure VescFrame where
  arbitrationId : ℕ
  data : Bytes
  deriving DecidableEq, Repr

def makeArbitrationId (packetId : CanPacketId) (controllerId : ℕ) : Py ℕ :=
  if controllerId ≤ 0xFF then .ok (packetId.value <<< 8 ||| controllerId)
  else .error (.valueError s!"controller_id must be 0..255, got {controllerId}")

def splitArbitrationId (arbitrationId : ℕ) : ℕ × ℕ := (arbitrationId >>> 8, arbitrationId &&& 0xFF)

/-- `bytes(values)`. -/
def bytesOf (values : List ℕ) : Py Bytes :=
  if values.all (· < 256) then .ok (values.map UInt8.ofNat)
  else .error (.valueError "bytes must be in range(0, 256)")

/-! ### The COMM tunnel -/

variable (crc : Bytes → UInt16)

section Tunnel
variable (controllerId senderId : ℕ) (payload : Bytes) (sendFlag : ℕ)

def shortFrame : Py VescFrame := do
  let arbitrationId ← makeArbitrationId .processShortBuffer controllerId
  let head ← bytesOf [senderId, sendFlag]
  return ⟨arbitrationId, head ++ payload⟩

def fillFrame (i : ℕ) (chunk : Bytes) : Py VescFrame := do
  let arbitrationId ← makeArbitrationId .fillRxBuffer controllerId
  let head ← bytesOf [i]
  return ⟨arbitrationId, head ++ chunk⟩

def fillLongFrame (i : ℕ) (chunk : Bytes) : Py VescFrame := do
  let arbitrationId ← makeArbitrationId .fillRxBufferLong controllerId
  let head ← structPack [.int .H] [.int i]
  return ⟨arbitrationId, head ++ chunk⟩

def processFrame : Py VescFrame := do
  let arbitrationId ← makeArbitrationId .processRxBuffer controllerId
  let data ← structPack [.int .B, .int .B, .int .H, .int .H]
    [.int senderId, .int sendFlag, .int payload.length, .int (crc payload).toNat]
  return ⟨arbitrationId, data⟩

/-- One round of a loop of `encode_comm_frames` that goes on while `more i` holds and puts `width`
bytes of the payload into the frame of offset `i`. The state is `i` and the frames so far. -/
def chunkTurn (more : ℕ → Bool) (width : ℕ) (frame : ℕ → Bytes → Py VescFrame)
    (s : ℕ × List VescFrame) : Turn (ℕ × List VescFrame) (Py (ℕ × List VescFrame)) :=
  if more s.1 ∧ s.1 < payload.length then
    let chunk := slice payload s.1 (s.1 + width)
    match frame s.1 chunk with
    | .error e => .done (.error e)
    | .ok f => .next (s.1 + chunk.length, s.2 ++ [f])
  else .done (.ok s)

def chunkLoop (more : ℕ → Bool) (width : ℕ) (hwidth : 0 < width)
    (frame : ℕ → Bytes → Py VescFrame) :
    FiniteLoop (ℕ × List VescFrame) (Py (ℕ × List VescFrame)) where
  turn := chunkTurn payload more width frame
  measure s := payload.length - s.1
  decreases s s' h := by
    unfold chunkTurn at h
    split_ifs at h with hmore
    cases hf : frame s.1 (slice payload s.1 (s.1 + width)) with
    | error e => simp only [hf] at h; cases h
    | ok f =>
      simp only [hf] at h
      cases h
      rw [length_slice]
      omega

/-- Chunks with an offset of one byte. -/
def fillLoop : FiniteLoop (ℕ × List VescFrame) (Py (ℕ × List VescFrame)) :=
  chunkLoop payload (fun i => i ≤ 255) 7 (by decide) (fillFrame controllerId)

/-- Chunks with an offset of two bytes. -/
def fillLongLoop : FiniteLoop (ℕ × List VescFrame) (Py (ℕ × List VescFrame)) :=
  chunkLoop payload (fun _ => true) 6 (by decide) (fillLongFrame controllerId)

def encodeCommFrames : Py (List VescFrame) :=
  if payload = [] then .error (.valueError "empty COMM payload")
  else if payload.length ≤ 6 then do
    let f ← shortFrame controllerId senderId payload sendFlag
    return [f]
  else do
    let (i, out) ← (fillLoop controllerId payload).exec (0, [])
    let (_, out) ← (fillLongLoop controllerId payload).exec (i, out)
    let f ← processFrame crc controllerId senderId payload sendFlag
    return out ++ [f]

end Tunnel

/-! ### The addressee of a frame -/

theorem splitArbitrationId_make {pid : CanPacketId} {c a : ℕ}
    (h : makeArbitrationId pid c = .ok a) : splitArbitrationId a = (pid.value, c) := by
  unfold makeArbitrationId at h
  split_ifs at h with hc
  cases h
  have hlt : c < 2 ^ 8 := Nat.lt_succ_of_le hc
  have hmask : (0xFF : ℕ) = 2 ^ 8 - 1 := rfl
  rw [splitArbitrationId, ← Nat.shiftLeft_add_eq_or_of_lt hlt, Nat.shiftRight_eq_div_pow,
    Nat.shiftLeft_eq, hmask, Nat.and_two_pow_sub_one_eq_mod, Prod.mk.injEq]
  omega

theorem chunkLoop_forall {payload : Bytes} {more : ℕ → Bool} {width : ℕ} {hwidth : 0 < width}
    {frame : ℕ → Bytes → Py VescFrame} {P : VescFrame → Prop}
    (hframe : ∀ i chunk f, frame i chunk = .ok f → P f) (s r : ℕ × List VescFrame)
    (hs : ∀ f ∈ s.2, P f) (h : (chunkLoop payload more width hwidth frame).exec s = .ok r) :
    ∀ f ∈ r.2, P f := by
  revert h hs
  refine (chunkLoop payload more width hwidth frame).exec_induction
    (P := fun s out => (∀ f ∈ s.2, P f) → out = .ok r → ∀ f ∈ r.2, P f) ?_ ?_ s
  · intro s out hturn hs hout
    change chunkTurn payload more width frame s = .done out at hturn
    unfold chunkTurn at hturn
    split_ifs at hturn with hmore
    · cases hf : frame s.1 (slice payload s.1 (s.1 + width)) with
      | error e =>
        simp only [hf] at hturn
        cases hturn
        cases hout
      | ok f =>
        simp only [hf] at hturn
        cases hturn
    · cases hturn
      cases hout
      exact hs
  · intro s s' hturn ih hs hout
    change chunkTurn payload more width frame s = .next s' at hturn
    unfold chunkTurn at hturn
    split_ifs at hturn with hmore
    cases hf : frame s.1 (slice payload s.1 (s.1 + width)) with
    | error e =>
      simp only [hf] at hturn
      cases hturn
    | ok f =>
      simp only [hf] at hturn
      cases hturn
      refine ih ?_ hout
      intro g hg
      obtain hg | hg := List.mem_append.mp hg
      · exact hs g hg
      · rw [List.mem_singleton.mp hg]
        exact hframe _ _ f hf

def AddressedTo (c : ℕ) (f : VescFrame) : Prop := (splitArbitrationId f.arbitrationId).2 = c

theorem addressed_of_frame {pid : CanPacketId} {c : ℕ} {head : Py Bytes} (data : Bytes → Bytes)
    {f : VescFrame} (h : (do
      let arbitrationId ← makeArbitrationId pid c
      let bytes ← head
      return (⟨arbitrationId, data bytes⟩ : VescFrame)) = .ok f) : AddressedTo c f := by
  obtain ⟨arbitrationId, hid, h⟩ := bind_eq_ok h
  obtain ⟨bytes, _, h⟩ := bind_eq_ok h
  cases h
  rw [AddressedTo, splitArbitrationId_make hid]

theorem encodeCommFrames_addressed {c senderId sendFlag : ℕ} {payload : Bytes}
    {frames : List VescFrame}
    (h : encodeCommFrames crc c senderId payload sendFlag = .ok frames) :
    ∀ f ∈ frames, AddressedTo c f := by
  unfold encodeCommFrames at h
  split_ifs at h with hne hshort
  · obtain ⟨f, hf, h⟩ := bind_eq_ok h
    cases h
    intro g hg
    rw [List.mem_singleton.mp hg]
    exact addressed_of_frame _ hf
  · obtain ⟨s, hs, h⟩ := bind_eq_ok h
    obtain ⟨t, ht, h⟩ := bind_eq_ok h
    obtain ⟨f, hf, h⟩ := bind_eq_ok h
    cases h
    have hfill : ∀ f ∈ s.2, AddressedTo c f :=
      chunkLoop_forall (fun i chunk f hf => addressed_of_frame _ hf) _ s (by simp) hs
    have hlong : ∀ f ∈ t.2, AddressedTo c f :=
      chunkLoop_forall (fun i chunk f hf => addressed_of_frame _ hf) _ t hfill ht
    intro g hg
    obtain hg | hg := List.mem_append.mp hg
    · exact hlong g hg
    · rw [List.mem_singleton.mp hg]
      exact addressed_of_frame id hf

/-! ### What can be encoded -/

theorem chunkLoop_ok {payload : Bytes} {more : ℕ → Bool} {width : ℕ} {hwidth : 0 < width}
    {frame : ℕ → Bytes → Py VescFrame}
    (hframe : ∀ i chunk, more i → i < payload.length → ∃ f, frame i chunk = .ok f)
    (s : ℕ × List VescFrame) :
    ∃ r, (chunkLoop payload more width hwidth frame).exec s = .ok r := by
  refine (chunkLoop payload more width hwidth frame).exec_induction
    (P := fun _ out => ∃ r, out = .ok r) ?_ ?_ s
  · intro s out hturn
    change chunkTurn payload more width frame s = .done out at hturn
    unfold chunkTurn at hturn
    split_ifs at hturn with hmore
    · obtain ⟨f, hf⟩ := hframe s.1 (slice payload s.1 (s.1 + width)) hmore.1 hmore.2
      simp only [hf] at hturn
      cases hturn
    · cases hturn
      exact ⟨s, rfl⟩
  · exact fun _ _ _ ih => ih

theorem frame_ok {pid : CanPacketId} {c : ℕ} (hc : c ≤ 255) {head : Py Bytes} {bytes : Bytes}
    (hhead : head = .ok bytes) (data : Bytes → Bytes) : ∃ f, (do
      let arbitrationId ← makeArbitrationId pid c
      let bytes ← head
      return (⟨arbitrationId, data bytes⟩ : VescFrame)) = .ok f := by
  rw [makeArbitrationId, if_pos hc, hhead]
  exact ⟨_, rfl⟩

theorem bytesOf_ok {values : List ℕ} (h : ∀ n ∈ values, n ≤ 255) :
    bytesOf values = .ok (values.map UInt8.ofNat) := by
  apply if_pos
  rw [List.all_eq_true]
  exact fun n hn => decide_eq_true (Nat.lt_succ_of_le (h n hn))

theorem structPack_offset {i : ℕ} (hi : i ≤ 65535) :
    structPack [.int .H] [.int i] = .ok (BigEndian.ofNat 2 i) := by
  have hpack : StructFormat.pack [.int .H] [.int i] = some (BigEndian.ofNat 2 i) := by
    have hH := StructFormat.IntFormat.pack_H hi
    simp only [StructFormat.pack, StructFormat.Format.pack, hH]
    simp
  rw [structPack, hpack]

section Total
variable {c senderId sendFlag : ℕ} {payload : Bytes} (hc : c ≤ 255)
include hc

theorem exists_shortFrame (hsender : senderId ≤ 255) (hflag : sendFlag ≤ 255) :
    ∃ f, shortFrame c senderId payload sendFlag = .ok f := by
  have hhead : bytesOf [senderId, sendFlag] = .ok _ := bytesOf_ok (by simp [hsender, hflag])
  exact frame_ok hc hhead _

theorem exists_fillFrame {i : ℕ} (hi : i ≤ 255) (chunk : Bytes) :
    ∃ f, fillFrame c i chunk = .ok f := by
  have hhead : bytesOf [i] = .ok _ := bytesOf_ok (by simp [hi])
  exact frame_ok hc hhead _

theorem exists_fillLongFrame {i : ℕ} (hi : i ≤ 65535) (chunk : Bytes) :
    ∃ f, fillLongFrame c i chunk = .ok f := frame_ok hc (structPack_offset hi) _

theorem exists_processFrame (hsender : senderId ≤ 255) (hflag : sendFlag ≤ 255)
    (hlen : payload.length ≤ 65535) :
    ∃ f, processFrame crc c senderId payload sendFlag = .ok f := by
  have hcrc : (crc payload).toNat ≤ 65535 := Nat.le_of_lt_succ (crc payload).toNat_lt
  rw [processFrame, makeArbitrationId, if_pos hc]
  simp only [structPack, StructFormat.pack, StructFormat.Format.pack,
    StructFormat.IntFormat.pack_B hsender, StructFormat.IntFormat.pack_B hflag,
    StructFormat.IntFormat.pack_H hlen, StructFormat.IntFormat.pack_H hcrc]
  exact ⟨_, rfl⟩

/-- Every packet of at most 65535 bytes can be sent to every id of a byte. -/
theorem encodeCommFrames_ok (hsender : senderId ≤ 255) (hflag : sendFlag ≤ 255)
    (hne : payload ≠ []) (hlen : payload.length ≤ 65535) :
    ∃ frames, encodeCommFrames crc c senderId payload sendFlag = .ok frames := by
  rw [encodeCommFrames, if_neg hne]
  by_cases hshort : payload.length ≤ 6
  · obtain ⟨f, hf⟩ := @exists_shortFrame c senderId sendFlag payload hc hsender hflag
    rw [if_pos hshort, hf]
    exact ⟨_, rfl⟩
  · have hlong (i : ℕ) (chunk : Bytes) (hi : i < payload.length) :
        ∃ f, fillLongFrame c i chunk = .ok f :=
      exists_fillLongFrame hc (hi.le.trans hlen) chunk
    obtain ⟨⟨i, fs⟩, hfs⟩ : ∃ s, (fillLoop c payload).exec (0, []) = .ok s :=
      chunkLoop_ok (fun i chunk hi _ => exists_fillFrame hc (of_decide_eq_true hi) chunk) _
    obtain ⟨⟨j, gs⟩, hgs⟩ : ∃ s, (fillLongLoop c payload).exec (i, fs) = .ok s :=
      chunkLoop_ok (fun i chunk _ hi => hlong i chunk hi) _
    obtain ⟨last, hlast⟩ := exists_processFrame crc hc hsender hflag hlen
    rw [if_neg hshort, hfs, ok_bind]
    dsimp only
    rw [hgs, ok_bind]
    dsimp only
    rw [hlast]
    exact ⟨_, rfl⟩

end Total

/-! ### Status frames -/

inductive DecodedStatus where
  | status1 (rpm current duty : ℚ)
  | status2 (ampHours ampHoursCharged : ℚ)
  | status3 (wattHours wattHoursCharged : ℚ)
  | status4 (tempFet tempMotor currentIn pidPos : ℚ)
  | status5 (tachometer : ℤ) (vIn : ℚ)
  | status6 (adc1 adc2 adc3 ppm : ℚ)
  | pong (controllerId hwType : ℕ)
  deriving DecidableEq, Repr

def i16 (data : Bytes) (off : ℕ) : ℤ := StructFormat.IntFormat.unpack .h (slice data off (off + 2))

def i32 (data : Bytes) (off : ℕ) : ℤ := StructFormat.IntFormat.unpack .i (slice data off (off + 4))

def decodeFrame (arbitrationId : ℕ) (data : Bytes) : Option (ℕ × DecodedStatus) :=
  let (packetId, controllerId) := splitArbitrationId arbitrationId
  match CanPacketId.ofValue packetId with
  | some .status =>
    if data.length ≥ 8 then
      some (controllerId, .status1 (i32 data 0) (i16 data 4 / 10) (i16 data 6 / 1000))
    else none
  | some .status2 =>
    if data.length ≥ 8 then
      some (controllerId, .status2 (i32 data 0 / 10000) (i32 data 4 / 10000))
    else none
  | some .status3 =>
    if data.length ≥ 8 then
      some (controllerId, .status3 (i32 data 0 / 10000) (i32 data 4 / 10000))
    else none
  | some .status4 =>
    if data.length ≥ 8 then
      some (controllerId,
        .status4 (i16 data 0 / 10) (i16 data 2 / 10) (i16 data 4 / 10) (i16 data 6 / 50))
    else none
  | some .status5 =>
    if data.length ≥ 6 then some (controllerId, .status5 (i32 data 0) (i16 data 4 / 10)) else none
  | some .status6 =>
    if data.length ≥ 8 then
      some (controllerId,
        .status6 (i16 data 0 / 1000) (i16 data 2 / 1000) (i16 data 4 / 1000) (i16 data 6 / 1000))
    else none
  | some .pong =>
    match data with
    | [] => none
    | [responder] => some (controllerId, .pong responder.toNat 0)
    | responder :: hwType :: _ => some (controllerId, .pong responder.toNat hwType.toNat)
  | _ => none

end PyVesc
