import PyVesc.Telemetry

/-!
# Decoding a status without loss

`decode_frame` with the accesses to its data that could raise. None of them does, for a frame of any
length, and a decoded status gives the bytes of its fields back.
-/

namespace PyVesc

open StructFormat

namespace FrameReads

/-- `struct.unpack_from(format, data, off)[0]`. -/
def unpackFrom (f : IntFormat) (data : Bytes) (off : ℕ) : Py ℤ :=
  match StructFormat.unpackFrom [.int f] data off with
  | some (.int z :: _) => .ok z
  | _ => .error .structError

def i16 (data : Bytes) (off : ℕ) : Py ℤ := unpackFrom .h data off

def i32 (data : Bytes) (off : ℕ) : Py ℤ := unpackFrom .i data off

/-- `data[i]`. -/
def byteAt (data : Bytes) (i : ℕ) : Py ℕ :=
  match data[i]? with
  | some b => .ok b.toNat
  | none => .error .indexError

def decodeFrame (arbitrationId : ℕ) (data : Bytes) : Py (Option (ℕ × DecodedStatus)) :=
  let (packetId, controllerId) := splitArbitrationId arbitrationId
  match CanPacketId.ofValue packetId with
  | none => .ok none
  | some pid =>
    if pid = .status ∧ data.length ≥ 8 then do
      let rpm ← i32 data 0
      let current ← i16 data 4
      let duty ← i16 data 6
      return some (controllerId, .status1 rpm (current / 10) (duty / 1000))
    else if pid = .status2 ∧ data.length ≥ 8 then do
      let ampHours ← i32 data 0
      let ampHoursCharged ← i32 data 4
      return some (controllerId, .status2 (ampHours / 10000) (ampHoursCharged / 10000))
    else if pid = .status3 ∧ data.length ≥ 8 then do
      let wattHours ← i32 data 0
      let wattHoursCharged ← i32 data 4
      return some (controllerId, .status3 (wattHours / 10000) (wattHoursCharged / 10000))
    else if pid = .status4 ∧ data.length ≥ 8 then do
      let tempFet ← i16 data 0
      let tempMotor ← i16 data 2
      let currentIn ← i16 data 4
      let pidPos ← i16 data 6
      return some (controllerId,
        .status4 (tempFet / 10) (tempMotor / 10) (currentIn / 10) (pidPos / 50))
    else if pid = .status5 ∧ data.length ≥ 6 then do
      let tachometer ← i32 data 0
      let vIn ← i16 data 4
      return some (controllerId, .status5 tachometer (vIn / 10))
    else if pid = .status6 ∧ data.length ≥ 8 then do
      let adc1 ← i16 data 0
      let adc2 ← i16 data 2
      let adc3 ← i16 data 4
      let ppm ← i16 data 6
      return some (controllerId,
        .status6 (adc1 / 1000) (adc2 / 1000) (adc3 / 1000) (ppm / 1000))
    else if pid = .pong ∧ data.length ≥ 1 then do
      let hwType ← if data.length ≥ 2 then byteAt data 1 else .ok 0
      let responder ← byteAt data 0
      return some (controllerId, .pong responder hwType)
    else .ok none

theorem unpackFrom_ok {f : IntFormat} {data : Bytes} {off : ℕ} (h : off + f.size ≤ data.length) :
    unpackFrom f data off = .ok (f.unpack (slice data off (off + f.size))) := by
  have hsize : calcsize [.int f] = f.size := rfl
  rw [unpackFrom, StructFormat.unpackFrom, hsize, if_pos h, slice, Nat.add_sub_cancel_left]
  rfl

theorem i16_ok {data : Bytes} {off : ℕ} (h : off + 2 ≤ data.length) :
    i16 data off = .ok (PyVesc.i16 data off) := @unpackFrom_ok .h data off h

theorem i32_ok {data : Bytes} {off : ℕ} (h : off + 4 ≤ data.length) :
    i32 data off = .ok (PyVesc.i32 data off) := @unpackFrom_ok .i data off h

/-- Every access of the decoder is inside the data. -/
theorem decodeFrame_eq (a : ℕ) (data : Bytes) :
    decodeFrame a data = .ok (PyVesc.decodeFrame a data) := by
  rw [decodeFrame, PyVesc.decodeFrame]
  dsimp only
  cases CanPacketId.ofValue (splitArbitrationId a).1 with
  | none => rfl
  | some pid =>
    cases pid with
    | pong =>
      rcases data with _ | ⟨responder, _ | ⟨hwType, rest⟩⟩ <;> rfl
    | status | status2 | status3 | status4 | status6 =>
      by_cases h : data.length ≥ 8
      · simp (disch := omega) only [h, i32_ok, i16_ok, and_true, reduceCtorEq, if_true, if_false,
          ok_bind]
        rfl
      · simp only [h, and_false, reduceCtorEq, false_and, if_false]
    | status5 =>
      by_cases h : data.length ≥ 6
      · simp (disch := omega) only [h, i32_ok, i16_ok, and_true, false_and, reduceCtorEq, if_true,
          if_false, ok_bind]
        rfl
      · simp only [h, and_false, reduceCtorEq, false_and, if_false]
    | _ => rfl

end FrameReads

/-! ### The fields of a status -/

/-- The fields times their scales, each with the integer format of its place in the frame. -/
def DecodedStatus.scaled : DecodedStatus → List (IntFormat × ℚ)
  | .status1 rpm current duty => [(.i, rpm), (.h, current * 10), (.h, duty * 1000)]
  | .status2 ampHours ampHoursCharged => [(.i, ampHours * 10000), (.i, ampHoursCharged * 10000)]
  | .status3 wattHours wattHoursCharged =>
    [(.i, wattHours * 10000), (.i, wattHoursCharged * 10000)]
  | .status4 tempFet tempMotor currentIn pidPos =>
    [(.h, tempFet * 10), (.h, tempMotor * 10), (.h, currentIn * 10), (.h, pidPos * 50)]
  | .status5 tachometer vIn => [(.i, tachometer), (.h, vIn * 10)]
  | .status6 adc1 adc2 adc3 ppm =>
    [(.h, adc1 * 1000), (.h, adc2 * 1000), (.h, adc3 * 1000), (.h, ppm * 1000)]
  | .pong .. => []

/-- The bytes of numbers that are integers of their formats. -/
def packScaled : List (IntFormat × ℚ) → Option Bytes
  | [] => some []
  | (f, q) :: fields =>
    if q.den = 1 then do
      let bs ← f.pack q.num
      let rest ← packScaled fields
      return bs ++ rest
    else none

theorem slice_append_slice {data : Bytes} {i j k : ℕ} (hij : i ≤ j) (hjk : j ≤ k) :
    slice data i j ++ slice data j k = slice data i k := by
  have hsum : k - i = (j - i) + (k - j) := by omega
  have hdrop : data.drop j = (data.drop i).drop (j - i) := by
    rw [List.drop_drop, Nat.add_sub_cancel' hij]
  rw [slice, slice, slice, hsum, List.take_add, ← hdrop]

namespace StatusSlot

def formats : StatusSlot → List IntFormat
  | status1 => [.i, .h, .h]
  | status2 | status3 => [.i, .i]
  | status4 | status6 => [.h, .h, .h, .h]
  | status5 => [.i, .h]

theorem size_eq (slot : StatusSlot) : slot.size = (slot.formats.map IntFormat.size).sum := by
  cases slot <;> rfl

end StatusSlot

/-- The integers that stand one behind the other in the data. -/
def readFields (data : Bytes) : ℕ → List IntFormat → List (IntFormat × ℚ)
  | _, [] => []
  | off, f :: formats =>
    (f, f.unpack (slice data off (off + f.size))) :: readFields data (off + f.size) formats

theorem packScaled_readFields {data : Bytes} {formats : List IntFormat} {off : ℕ}
    (h : off + (formats.map IntFormat.size).sum ≤ data.length) :
    packScaled (readFields data off formats) =
      some (slice data off (off + (formats.map IntFormat.size).sum)) := by
  induction formats generalizing off with
  | nil =>
    rw [readFields, packScaled, List.map_nil, List.sum_nil, Nat.add_zero, slice, Nat.sub_self,
      List.take_zero]
  | cons f formats ih =>
    rw [List.map_cons, List.sum_cons, ← Nat.add_assoc] at h ⊢
    have hlen : (slice data off (off + f.size)).length = f.size := by
      rw [length_slice]
      omega
    rw [readFields, packScaled, Rat.den_intCast, Rat.num_intCast, if_pos rfl,
      IntFormat.pack_unpack hlen, ih h]
    have happend := @slice_append_slice data off (off + f.size)
      (off + f.size + (formats.map IntFormat.size).sum) (by omega) (by omega)
    exact congrArg some happend

theorem scaled_decode (slot : StatusSlot) (data : Bytes) :
    (slot.decode data).scaled = readFields data 0 slot.formats := by
  have hscale (z : ℤ) {q : ℚ} (hq : q ≠ 0) : (z : ℚ) / q * q = z := div_mul_cancel₀ _ hq
  cases slot <;>
    simp only [StatusSlot.decode, DecodedStatus.scaled, hscale _ (by norm_num : (10 : ℚ) ≠ 0),
      hscale _ (by norm_num : (50 : ℚ) ≠ 0), hscale _ (by norm_num : (1000 : ℚ) ≠ 0),
      hscale _ (by norm_num : (10000 : ℚ) ≠ 0)] <;>
    rfl

/-- The fields of a status hold all the bytes it was decoded from. -/
theorem packScaled_decode (slot : StatusSlot) {data : Bytes} (h : slot.size ≤ data.length) :
    packScaled (slot.decode data).scaled = some (data.take slot.size) := by
  rw [StatusSlot.size_eq, ← Nat.zero_add (List.sum _)] at h
  rw [scaled_decode, packScaled_readFields h, Nat.zero_add, ← StatusSlot.size_eq]
  rfl

/-- The data is too short for the frame that the arbitration id announces, or there is no such
frame. -/
def Undecodable (a : ℕ) (data : Bytes) : Prop :=
  (∀ slot : StatusSlot, a >>> 8 = slot.packetId.value → data.length < slot.size) ∧
    (a >>> 8 = CanPacketId.pong.value → data.length < 1)

/-- The responder and its hardware type, which is 0 where the data ends before it. -/
def pongOf : Bytes → Option (ℕ × ℕ)
  | [] => none
  | [responder] => some (responder.toNat, 0)
  | responder :: hwType :: _ => some (responder.toNat, hwType.toNat)

theorem pongOf_eq_none_iff (data : Bytes) : pongOf data = none ↔ data.length < 1 := by
  rcases data with _ | ⟨responder, _ | ⟨hwType, rest⟩⟩ <;> simp [pongOf]

theorem decodeFrame_pong {a c : ℕ} (h : splitArbitrationId a = (CanPacketId.pong.value, c))
    (data : Bytes) :
    decodeFrame a data = (pongOf data).map fun pong => (c, .pong pong.1 pong.2) := by
  rw [decodeFrame, h]
  dsimp only
  rw [CanPacketId.ofValue_value]
  rcases data with _ | ⟨responder, _ | ⟨hwType, rest⟩⟩ <;> rfl

theorem pong_of_decodeFrame {a c responder hwType : ℕ} {data : Bytes}
    (h : decodeFrame a data = some (c, .pong responder hwType)) :
    splitArbitrationId a = (CanPacketId.pong.value, c) ∧
      pongOf data = some (responder, hwType) := by
  have hsplit : splitArbitrationId a = (CanPacketId.pong.value, c) := by
    obtain ⟨slot, hslot, _⟩ | ⟨_, hsplit⟩ := decodeFrame_cases h
    · cases hslot
    · exact hsplit
  rw [decodeFrame_pong hsplit] at h
  obtain ⟨pong, hpong, heq⟩ := Option.map_eq_some_iff.mp h
  cases heq
  exact ⟨hsplit, hpong⟩

theorem splitArbitrationId_eq {a n : ℕ} (h : a >>> 8 = n) :
    splitArbitrationId a = (n, a % 256) := by
  have hmask : 0xFF = 2 ^ 8 - 1 := rfl
  rw [splitArbitrationId, h, hmask, Nat.and_two_pow_sub_one_eq_mod]

theorem decodeFrame_eq_none_iff (a : ℕ) (data : Bytes) :
    decodeFrame a data = none ↔ Undecodable a data := by
  constructor
  · intro h
    constructor
    · intro slot hslot
      rw [decodeFrame_status (splitArbitrationId_eq hslot)] at h
      by_contra hsize
      rw [if_pos (not_lt.mp hsize)] at h
      cases h
    · intro hpong
      rw [decodeFrame_pong (splitArbitrationId_eq hpong), Option.map_eq_none_iff] at h
      exact (pongOf_eq_none_iff data).mp h
  · rintro ⟨hstatus, hpong⟩
    cases hdecode : decodeFrame a data with
    | none => rfl
    | some decoded =>
      obtain ⟨c, obj⟩ := decoded
      exfalso
      cases hslot : obj.slot with
      | some slot =>
        have hsplit := status_of_decodeFrame hdecode hslot
        have hsize := hstatus slot (congrArg Prod.fst hsplit)
        rw [decodeFrame_status hsplit, if_neg (not_le.mpr hsize)] at hdecode
        cases hdecode
      | none =>
        cases obj with
        | pong responder hwType =>
          obtain ⟨hsplit, hdata⟩ := pong_of_decodeFrame hdecode
          have hshort := hpong (congrArg Prod.fst hsplit)
          rw [(pongOf_eq_none_iff data).mpr hshort] at hdata
          cases hdata
        | _ => cases hslot

/-- A frame is decoded without an exception, to nothing exactly where it is no status or pong or
too short; a status keeps its bytes. -/
theorem decodeFrame_lossless (a : ℕ) (data : Bytes) :
    ∃ decoded, FrameReads.decodeFrame a data = .ok decoded ∧
      (decoded = none ↔ Undecodable a data) ∧
      ∀ c obj, decoded = some (c, obj) → c = a % 256 ∧ ∀ slot, obj.slot = some slot →
        a >>> 8 = slot.packetId.value ∧ slot.size ≤ data.length ∧
          packScaled obj.scaled = some (data.take slot.size) := by
  refine ⟨decodeFrame a data, FrameReads.decodeFrame_eq a data, decodeFrame_eq_none_iff a data, ?_⟩
  intro c obj hdecode
  cases hslot : obj.slot with
  | some slot =>
    have hsplit := status_of_decodeFrame hdecode hslot
    have hid := (splitArbitrationId_eq (congrArg Prod.fst hsplit)).symm.trans hsplit
    refine ⟨(congrArg Prod.snd hid).symm, ?_⟩
    intro slot' hslot'
    cases hslot'
    rw [decodeFrame_status hsplit] at hdecode
    obtain ⟨hsize, heq⟩ := Option.ite_none_right_eq_some.mp hdecode
    cases heq
    exact ⟨congrArg Prod.fst hsplit, hsize, packScaled_decode slot hsize⟩
  | none =>
    cases obj with
    | pong responder hwType =>
      have hsplit := (pong_of_decodeFrame hdecode).1
      have hid := (splitArbitrationId_eq (congrArg Prod.fst hsplit)).symm.trans hsplit
      refine ⟨(congrArg Prod.snd hid).symm, ?_⟩
      intro slot hslot'
      cases hslot'
    | _ => cases hslot

end PyVesc
