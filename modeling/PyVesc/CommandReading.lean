import PyVesc.CommandFrames

/-!
# Command frames read back

The layout of the command packets on the wire, read without the encoders, and the calls of the
encoders with what each one sends. A frame that an encoder makes reads back as its arguments.
-/

namespace PyVesc

open PyNumber StructFormat

/-! ### The layout -/

structure CommandReading where
  quantities : List ℚ
  offDelay : Option ℚ

/-- The scaled number at a place of the data. -/
def scaledAt (f : IntFormat) (scale : ℚ) (data : Bytes) (offset : ℕ) : ℚ :=
  f.unpack ((data.drop offset).take f.size) / scale

def readSingle (scale : ℚ) (data : Bytes) : Option CommandReading :=
  if data.length = 4 then some ⟨[scaledAt .i scale data 0], none⟩ else none

def readPair (data : Bytes) : Option CommandReading :=
  if data.length = 8 then some ⟨[scaledAt .i 1000 data 0, scaledAt .i 1000 data 4], none⟩ else none

def readDelayFirst (scale : ℚ) (data : Bytes) : Option CommandReading :=
  if data.length = 6 then some ⟨[scaledAt .i scale data 2], some (scaledAt .h 1000 data 0)⟩
  else readSingle scale data

def readDelayLast (scale : ℚ) (data : Bytes) : Option CommandReading :=
  if data.length = 6 then some ⟨[scaledAt .i scale data 0], some (scaledAt .h 1000 data 4)⟩
  else readSingle scale data

def readCommand (packetId : CanPacketId) (data : Bytes) : Option CommandReading :=
  match packetId with
  | .setDuty => readSingle 100000 data
  | .setCurrent => readDelayFirst 1000 data
  | .setCurrentBrake => readSingle 1000 data
  | .setRpm => readSingle 1 data
  | .setPos => readSingle 1000000 data
  | .setCurrentRel => readDelayLast 100000 data
  | .setCurrentBrakeRel => readSingle 100000 data
  | .setCurrentHandbrake => readSingle 1000 data
  | .setCurrentHandbrakeRel => readSingle 100000 data
  | .confCurrentLimits | .confStoreCurrentLimits => readPair data
  | .confCurrentLimitsIn | .confStoreCurrentLimitsIn => readPair data
  | .confFocErpms | .confStoreFocErpms => readPair data
  | .confBatteryCut | .confStoreBatteryCut => readPair data
  | .shutdown => if data = [] then some ⟨[], none⟩ else none
  | _ => none

/-! ### The calls -/

/-- A call of an encoder. -/
inductive CanCommand where
  | setDuty (duty : Quantity)
  | setCurrent (currentA : Quantity) (offDelayS : Option Quantity)
  | setCurrentBrake (currentA : Quantity)
  | setRpm (erpm : Quantity)
  | setPos (degrees : Quantity)
  | setCurrentRel (rel : Quantity) (offDelayS : Option Quantity)
  | setCurrentBrakeRel (rel : Quantity)
  | setHandbrake (currentA : Quantity)
  | setHandbrakeRel (rel : Quantity)
  | confCurrentLimits (minA maxA : Quantity) (store : Bool)
  | confCurrentLimitsIn (minA maxA : Quantity) (store : Bool)
  | confFocErpms (focOpenloopRpm focSlErpm : Quantity) (store : Bool)
  | confBatteryCut (startV endV : Quantity) (store : Bool)
  | shutdown

namespace CanCommand

def encode (fmt : PyFormat) (controllerId : ℤ) : CanCommand → Py VescFrame
  | setDuty duty => encodeSetDuty fmt controllerId duty.value
  | setCurrent currentA offDelayS =>
      encodeSetCurrent fmt controllerId currentA.value (offDelayS.map Quantity.value)
  | setCurrentBrake currentA => encodeSetCurrentBrake fmt controllerId currentA.value
  | setRpm erpm => encodeSetRpm fmt controllerId erpm.value
  | setPos degrees => encodeSetPos fmt controllerId degrees.value
  | setCurrentRel rel offDelayS =>
      encodeSetCurrentRel fmt controllerId rel.value (offDelayS.map Quantity.value)
  | setCurrentBrakeRel rel => encodeSetCurrentBrakeRel fmt controllerId rel.value
  | setHandbrake currentA => encodeSetHandbrake fmt controllerId currentA.value
  | setHandbrakeRel rel => encodeSetHandbrakeRel fmt controllerId rel.value
  | confCurrentLimits minA maxA store =>
      encodeConfCurrentLimits fmt controllerId minA.value maxA.value store
  | confCurrentLimitsIn minA maxA store =>
      encodeConfCurrentLimitsIn fmt controllerId minA.value maxA.value store
  | confFocErpms focOpenloopRpm focSlErpm store =>
      encodeConfFocErpms fmt controllerId focOpenloopRpm.value focSlErpm.value store
  | confBatteryCut startV endV store =>
      encodeConfBatteryCut fmt controllerId startV.value endV.value store
  | shutdown => encodeShutdown controllerId

def packetId : CanCommand → CanPacketId
  | setDuty _ => .setDuty
  | setCurrent _ _ => .setCurrent
  | setCurrentBrake _ => .setCurrentBrake
  | setRpm _ => .setRpm
  | setPos _ => .setPos
  | setCurrentRel _ _ => .setCurrentRel
  | setCurrentBrakeRel _ => .setCurrentBrakeRel
  | setHandbrake _ => .setCurrentHandbrake
  | setHandbrakeRel _ => .setCurrentHandbrakeRel
  | confCurrentLimits _ _ store =>
      if store then .confStoreCurrentLimits else .confCurrentLimits
  | confCurrentLimitsIn _ _ store =>
      if store then .confStoreCurrentLimitsIn else .confCurrentLimitsIn
  | confFocErpms _ _ store => if store then .confStoreFocErpms else .confFocErpms
  | confBatteryCut _ _ store => if store then .confStoreBatteryCut else .confBatteryCut
  | shutdown => .shutdown

/-- The duty or the relative argument. -/
def fraction : CanCommand → Option Quantity
  | setDuty duty => some duty
  | setCurrentRel rel _ => some rel
  | setCurrentBrakeRel rel => some rel
  | setHandbrakeRel rel => some rel
  | _ => none

def offDelay : CanCommand → Option Quantity
  | setCurrent _ offDelayS => offDelayS
  | setCurrentRel _ offDelayS => offDelayS
  | _ => none

/-- The arguments that go out as scaled integers of 32 bits, with their scales. -/
def scaled : CanCommand → List (Quantity × ℚ)
  | setDuty duty => [(duty, 100000)]
  | setCurrent currentA _ => [(currentA, 1000)]
  | setCurrentBrake currentA => [(currentA, 1000)]
  | setRpm erpm => [(erpm, 1)]
  | setPos degrees => [(degrees, 1000000)]
  | setCurrentRel rel _ => [(rel, 100000)]
  | setCurrentBrakeRel rel => [(rel, 100000)]
  | setHandbrake currentA => [(currentA, 1000)]
  | setHandbrakeRel rel => [(rel, 100000)]
  | confCurrentLimits minA maxA _ => [(minA, 1000), (maxA, 1000)]
  | confCurrentLimitsIn minA maxA _ => [(minA, 1000), (maxA, 1000)]
  | confFocErpms focOpenloopRpm focSlErpm _ => [(focOpenloopRpm, 1000), (focSlErpm, 1000)]
  | confBatteryCut startV endV _ => [(startV, 1000), (endV, 1000)]
  | shutdown => []

structure Admissible (c : CanCommand) (controllerId : ℤ) : Prop where
  controllerId : 0 ≤ controllerId ∧ controllerId ≤ 255
  fraction : ∀ v ∈ c.fraction, -1 ≤ v.number ∧ v.number ≤ 1
  offDelay : ∀ v ∈ c.offDelay, 0 ≤ v.number ∧ v.number ≤ 32.767
  scaled : ∀ a ∈ c.scaled, int32Min ≤ roundHalfEven (a.1.number * a.2) ∧
    roundHalfEven (a.1.number * a.2) ≤ int32Max

/-- The reading has every argument to half a unit of its scale. -/
structure ReadsAs (c : CanCommand) (reading : CommandReading) : Prop where
  quantities : List.Forall₂ (fun a q => |q - a.1.number| ≤ 1 / 2 / a.2) c.scaled reading.quantities
  offDelay : Option.Rel (fun v q => |q - v.number| ≤ 1 / 2 / 1000) c.offDelay reading.offDelay

structure CarriedBy (c : CanCommand) (controllerId : ℤ) (frame : VescFrame) : Prop where
  packetId : (splitArbitrationId frame.arbitrationId).1 = c.packetId.value
  controllerId : ((splitArbitrationId frame.arbitrationId).2 : ℤ) = controllerId
  length_le : frame.data.length ≤ 8
  reading : ∃ reading, readCommand c.packetId frame.data = some reading ∧ c.ReadsAs reading

end CanCommand

/-! ### Reading back what was packed -/

theorem half_unit {scale : ℚ} (hscale : 0 < scale) (q : ℚ) :
    |(roundHalfEven (q * scale) : ℚ) / scale - q| ≤ 1 / 2 / scale := by
  have hround := abs_roundHalfEven_sub_le (q * scale)
  have hdiff : (roundHalfEven (q * scale) : ℚ) / scale - q =
      (roundHalfEven (q * scale) - q * scale) / scale := by
    rw [sub_div, mul_div_cancel_right₀ q hscale.ne']
  rw [hdiff, abs_div, abs_of_pos hscale]
  exact div_le_div_of_nonneg_right hround hscale.le

theorem scaledAt_append {f : IntFormat} {z : ℤ} {bs : Bytes} (h : f.pack z = some bs) (scale : ℚ)
    (head tail : Bytes) : scaledAt f scale (head ++ (bs ++ tail)) head.length = z / scale := by
  rw [scaledAt, List.drop_left, List.take_left' (IntFormat.length_pack h),
    IntFormat.unpack_pack h]

/-- A packed argument is read to half a unit wherever it stands. -/
theorem scaledAt_within {f : IntFormat} {q scale : ℚ} (hscale : 0 < scale) {bs : Bytes}
    (h : f.pack (roundHalfEven (q * scale)) = some bs) (head tail : Bytes) :
    |scaledAt f scale (head ++ (bs ++ tail)) head.length - q| ≤ 1 / 2 / scale := by
  rw [scaledAt_append h]
  exact half_unit hscale q

section Reading
variable {v : Quantity} {scale : ℚ} {data : Bytes}

theorem readSingle_packed (hscale : 0 < scale)
    (h : IntFormat.pack .i (roundHalfEven (v.number * scale)) = some data) :
    ∃ q, readSingle scale data = some ⟨[q], none⟩ ∧ |q - v.number| ≤ 1 / 2 / scale := by
  refine ⟨_, if_pos (IntFormat.length_pack h), ?_⟩
  simpa only [List.nil_append, List.append_nil, List.length_nil] using
    scaledAt_within hscale h [] []

theorem readPair_packed {w : Quantity} {head tail : Bytes}
    (hhead : IntFormat.pack .i (roundHalfEven (v.number * 1000)) = some head)
    (htail : IntFormat.pack .i (roundHalfEven (w.number * 1000)) = some tail) :
    ∃ p q, readPair (head ++ tail) = some ⟨[p, q], none⟩ ∧ |p - v.number| ≤ 1 / 2 / 1000 ∧
      |q - w.number| ≤ 1 / 2 / 1000 := by
  have hlen : head.length = 4 := IntFormat.length_pack hhead
  have hlen' : tail.length = 4 := IntFormat.length_pack htail
  refine ⟨_, _, if_pos (by rw [List.length_append, hlen, hlen']), ?_, ?_⟩
  · simpa only [List.nil_append, List.length_nil] using scaledAt_within (by norm_num) hhead [] tail
  · simpa only [List.append_nil, hlen] using scaledAt_within (by norm_num) htail head []

variable {offDelay : Option Quantity} {part : Bytes}

theorem readDelayFirst_packed (hscale : 0 < scale) (hpart : IsDelayPart offDelay part)
    (h : IntFormat.pack .i (roundHalfEven (v.number * scale)) = some data) :
    ∃ q r, readDelayFirst scale (part ++ data) = some ⟨[q], r⟩ ∧ |q - v.number| ≤ 1 / 2 / scale ∧
      Option.Rel (fun v q => |q - v.number| ≤ 1 / 2 / 1000) offDelay r := by
  have hlen : data.length = 4 := IntFormat.length_pack h
  cases offDelay with
  | none =>
      cases hpart
      obtain ⟨q, hread, hq⟩ := readSingle_packed hscale h
      refine ⟨q, none, ?_, hq, Option.Rel.none⟩
      rw [List.nil_append, readDelayFirst, if_neg (by omega)]
      exact hread
  | some d =>
      have hpartlen : part.length = 2 := IntFormat.length_pack hpart
      refine ⟨_, _, if_pos (by rw [List.length_append, hlen, hpartlen]), ?_, Option.Rel.some ?_⟩
      · simpa only [List.append_nil, hpartlen] using scaledAt_within hscale h part []
      · simpa only [List.nil_append, List.length_nil] using
          scaledAt_within (by norm_num) hpart [] data

theorem readDelayLast_packed (hscale : 0 < scale) (hpart : IsDelayPart offDelay part)
    (h : IntFormat.pack .i (roundHalfEven (v.number * scale)) = some data) :
    ∃ q r, readDelayLast scale (data ++ part) = some ⟨[q], r⟩ ∧ |q - v.number| ≤ 1 / 2 / scale ∧
      Option.Rel (fun v q => |q - v.number| ≤ 1 / 2 / 1000) offDelay r := by
  have hlen : data.length = 4 := IntFormat.length_pack h
  cases offDelay with
  | none =>
      cases hpart
      obtain ⟨q, hread, hq⟩ := readSingle_packed hscale h
      refine ⟨q, none, ?_, hq, Option.Rel.none⟩
      rw [List.append_nil, readDelayLast, if_neg (by omega)]
      exact hread
  | some d =>
      have hpartlen : part.length = 2 := IntFormat.length_pack hpart
      refine ⟨_, _, if_pos (by rw [List.length_append, hlen, hpartlen]), ?_, Option.Rel.some ?_⟩
      · simpa only [List.nil_append, List.length_nil] using scaledAt_within hscale h [] part
      · simpa only [List.append_nil, hlen] using scaledAt_within (by norm_num) hpart data []

theorem length_delayPart_le (hpart : IsDelayPart offDelay part) : part.length ≤ 2 := by
  cases offDelay with
  | none =>
      cases hpart
      exact Nat.zero_le 2
  | some d => exact (IntFormat.length_pack hpart).le

end Reading

/-! ### Every call -/

namespace CanCommand

variable {c : CanCommand} {controllerId : ℤ} {frame : VescFrame}

theorem carriedBy_of_one {v : Quantity} {scale : ℚ} (hscale : 0 < scale)
    (hscaled : c.scaled = [(v, scale)]) (hdelay : c.offDelay = none)
    (hread : ∀ data, readCommand c.packetId data = readSingle scale data)
    (h : CarriesOne c.packetId controllerId v scale frame) : c.CarriedBy controllerId frame := by
  obtain ⟨⟨hpacket, hcontroller⟩, hpack⟩ := h
  have hlen : frame.data.length = 4 := IntFormat.length_pack hpack
  obtain ⟨q, hsingle, hq⟩ := readSingle_packed hscale hpack
  refine ⟨hpacket, hcontroller, by omega, _, (hread _).trans hsingle, ?_, ?_⟩
  · rw [hscaled]
    exact .cons hq .nil
  · rw [hdelay]
    exact .none

theorem carriedBy_of_pair {v w : Quantity} (hscaled : c.scaled = [(v, 1000), (w, 1000)])
    (hdelay : c.offDelay = none) (hread : ∀ data, readCommand c.packetId data = readPair data)
    (h : CarriesPair c.packetId controllerId v w frame) : c.CarriedBy controllerId frame := by
  obtain ⟨⟨hpacket, hcontroller⟩, head, tail, hhead, htail, hdata⟩ := h
  have hlen : head.length = 4 := IntFormat.length_pack hhead
  have hlen' : tail.length = 4 := IntFormat.length_pack htail
  obtain ⟨p, q, hpair, hp, hq⟩ := readPair_packed hhead htail
  rw [← hdata] at hpair
  refine ⟨hpacket, hcontroller, ?_, _, (hread _).trans hpair, ?_, ?_⟩
  · rw [hdata, List.length_append, hlen, hlen']
  · rw [hscaled]
    exact .cons hp (.cons hq .nil)
  · rw [hdelay]
    exact .none

/-- An argument with an off-delay before or behind it. -/
theorem carriedBy_of_delayed {v : Quantity} {scale : ℚ} (hscaled : c.scaled = [(v, scale)])
    (hid : IdOf c.packetId controllerId frame.arbitrationId) {part data : Bytes}
    (hpart : IsDelayPart c.offDelay part) (hdata : data.length = 4)
    (hlen : frame.data.length = part.length + data.length)
    (hread : ∃ q r, readCommand c.packetId frame.data = some ⟨[q], r⟩ ∧
      |q - v.number| ≤ 1 / 2 / scale ∧
      Option.Rel (fun v q => |q - v.number| ≤ 1 / 2 / 1000) c.offDelay r) :
    c.CarriedBy controllerId frame := by
  have hpartlen := length_delayPart_le hpart
  obtain ⟨q, r, hread, hq, hr⟩ := hread
  refine ⟨hid.1, hid.2, by omega, _, hread, ?_, hr⟩
  rw [hscaled]
  exact .cons hq .nil

theorem admissible_iff : c.Admissible controllerId ↔ IsControllerId controllerId ∧
    (∀ v ∈ c.fraction, v.IsFraction) ∧ (∀ v ∈ c.offDelay, v.IsOffDelay) ∧
    ∀ a ∈ c.scaled, a.1.Fits a.2 := by
  constructor
  · rintro ⟨hid, hfraction, hdelay, hscaled⟩
    exact ⟨hid, hfraction, hdelay, hscaled⟩
  · rintro ⟨hid, hfraction, hdelay, hscaled⟩
    exact ⟨hid, hfraction, hdelay, hscaled⟩

section Families
variable {r : Py VescFrame} {v w : Quantity}

theorem guards_of_scaled {scale : ℚ} (hscale : 0 < scale) (hfraction : c.fraction = none)
    (hdelay : c.offDelay = none) (hscaled : c.scaled = [(v, scale)])
    (hread : ∀ data, readCommand c.packetId data = readSingle scale data)
    (h : Guards r (IsControllerId controllerId ∧ v.Fits scale)
      (CarriesOne c.packetId controllerId v scale)) :
    Guards r (c.Admissible controllerId) (c.CarriedBy controllerId) := by
  apply h.congr
  · rw [admissible_iff, hfraction, hdelay, hscaled]
    simp
  · intro frame hframe
    exact carriedBy_of_one hscale hscaled hdelay hread hframe

theorem guards_of_rel (hfraction : c.fraction = some v) (hdelay : c.offDelay = none)
    (hscaled : c.scaled = [(v, 100000)])
    (hread : ∀ data, readCommand c.packetId data = readSingle 100000 data)
    (h : Guards r (v.IsFraction ∧ IsControllerId controllerId ∧ v.Fits 100000)
      (CarriesOne c.packetId controllerId v 100000)) :
    Guards r (c.Admissible controllerId) (c.CarriedBy controllerId) := by
  apply h.congr
  · rw [admissible_iff, hfraction, hdelay, hscaled]
    simp only [Option.mem_def, Option.some.injEq, forall_eq', reduceCtorEq, false_implies,
      implies_true, true_and, List.mem_singleton, forall_eq]
    exact and_left_comm
  · intro frame hframe
    exact carriedBy_of_one (by norm_num) hscaled hdelay hread hframe

theorem guards_of_conf (hfraction : c.fraction = none) (hdelay : c.offDelay = none)
    (hscaled : c.scaled = [(v, 1000), (w, 1000)])
    (hread : ∀ data, readCommand c.packetId data = readPair data)
    (h : Guards r (IsControllerId controllerId ∧ v.Fits 1000 ∧ w.Fits 1000)
      (CarriesPair c.packetId controllerId v w)) :
    Guards r (c.Admissible controllerId) (c.CarriedBy controllerId) := by
  apply h.congr
  · rw [admissible_iff, hfraction, hdelay, hscaled]
    simp
  · intro frame hframe
    exact carriedBy_of_pair hscaled hdelay hread hframe

end Families

theorem encode_guards (fmt : PyFormat) (c : CanCommand) (controllerId : ℤ) :
    Guards (c.encode fmt controllerId) (c.Admissible controllerId)
      (c.CarriedBy controllerId) := by
  cases c with
  | setDuty duty =>
      exact guards_of_rel rfl rfl rfl (fun _ => rfl) (encodeRel_guards fmt _ _ duty _)
  | setCurrent currentA offDelayS =>
      apply (encodeSetCurrent_guards fmt controllerId currentA offDelayS).congr
      · have hfraction : (setCurrent currentA offDelayS).fraction = none := rfl
        rw [admissible_iff, hfraction, offDelay, scaled]
        simp only [Option.mem_def, reduceCtorEq, false_implies, implies_true, true_and,
          List.mem_singleton, forall_eq]
        tauto
      · rintro frame ⟨hid, part, data, hpart, hpack, hdata⟩
        have hread := readDelayFirst_packed (by norm_num) hpart hpack
        rw [← hdata] at hread
        have hlen : frame.data.length = part.length + data.length := by
          rw [hdata, List.length_append]
        exact @carriedBy_of_delayed (setCurrent currentA offDelayS) _ _ _ _ rfl hid _ _ hpart
          (IntFormat.length_pack hpack) hlen hread
  | setCurrentBrake currentA =>
      exact guards_of_scaled (by norm_num) rfl rfl rfl (fun _ => rfl)
        (encodeScaled_guards fmt _ _ currentA _ 1000)
  | setRpm erpm =>
      exact guards_of_scaled (by norm_num) rfl rfl rfl (fun _ => rfl)
        (encodeScaled_guards fmt _ _ erpm _ 1)
  | setPos degrees =>
      exact guards_of_scaled (by norm_num) rfl rfl rfl (fun _ => rfl)
        (encodeScaled_guards fmt _ _ degrees _ 1000000)
  | setCurrentRel rel offDelayS =>
      apply (encodeSetCurrentRel_guards fmt controllerId rel offDelayS).congr
      · rw [admissible_iff, fraction, offDelay, scaled]
        simp only [Option.mem_def, Option.some.injEq, forall_eq', List.mem_singleton, forall_eq]
        tauto
      · rintro frame ⟨hid, part, data, hpart, hpack, hdata⟩
        have hread := readDelayLast_packed (by norm_num) hpart hpack
        rw [← hdata] at hread
        have hlen : frame.data.length = part.length + data.length := by
          rw [hdata, List.length_append, Nat.add_comm]
        exact @carriedBy_of_delayed (setCurrentRel rel offDelayS) _ _ _ _ rfl hid _ _ hpart
          (IntFormat.length_pack hpack) hlen hread
  | setCurrentBrakeRel rel =>
      exact guards_of_rel rfl rfl rfl (fun _ => rfl) (encodeRel_guards fmt _ _ rel _)
  | setHandbrake currentA =>
      exact guards_of_scaled (by norm_num) rfl rfl rfl (fun _ => rfl)
        (encodeScaled_guards fmt _ _ currentA _ 1000)
  | setHandbrakeRel rel =>
      exact guards_of_rel rfl rfl rfl (fun _ => rfl) (encodeRel_guards fmt _ _ rel _)
  | confCurrentLimits minA maxA store =>
      exact guards_of_conf rfl rfl rfl (fun _ => by cases store <;> rfl)
        (encodeConf_guards fmt _ minA maxA _ _ _ _ store)
  | confCurrentLimitsIn minA maxA store =>
      exact guards_of_conf rfl rfl rfl (fun _ => by cases store <;> rfl)
        (encodeConf_guards fmt _ minA maxA _ _ _ _ store)
  | confFocErpms focOpenloopRpm focSlErpm store =>
      exact guards_of_conf rfl rfl rfl (fun _ => by cases store <;> rfl)
        (encodeConf_guards fmt _ focOpenloopRpm focSlErpm _ _ _ _ store)
  | confBatteryCut startV endV store =>
      exact guards_of_conf rfl rfl rfl (fun _ => by cases store <;> rfl)
        (encodeConf_guards fmt _ startV endV _ _ _ _ store)
  | shutdown =>
      apply (encodeShutdown_guards controllerId).congr
      · have hfraction : shutdown.fraction = none := rfl
        have hdelay : shutdown.offDelay = none := rfl
        rw [admissible_iff, hfraction, hdelay, scaled]
        simp
      · rintro frame ⟨⟨hpacket, hcontroller⟩, hdata⟩
        refine ⟨hpacket, hcontroller, ?_, ⟨[], none⟩, if_pos hdata, .nil, .none⟩
        rw [hdata]
        exact Nat.zero_le 8

/-- A call raises a `ValueError` or makes a frame that carries what was asked. -/
theorem carried_or_refused (fmt : PyFormat) (c : CanCommand) (controllerId : ℤ) :
    ((∃ text, c.encode fmt controllerId = .error (.valueError text)) ↔
        ¬c.Admissible controllerId) ∧
      (c.Admissible controllerId →
        ∃ frame, c.encode fmt controllerId = .ok frame ∧ c.CarriedBy controllerId frame) :=
  ⟨(encode_guards fmt c controllerId).valueError_iff, (encode_guards fmt c controllerId).result⟩

example : encodeSetCurrentRel ⟨fun _ => "", fun _ => ""⟩ 7 (.float 0.5) (some (.float 0.5)) =
    .ok ⟨0xa07, [0x00, 0x00, 0xc3, 0x50, 0x01, 0xf4]⟩ := by decide +kernel

/-- Half of the current with an off-delay of half a second, for one node and for one that there
cannot be. -/
theorem carried_or_refused_setCurrentRel :
    let half : Quantity := ⟨.float (1 / 2), 1 / 2, rfl⟩
    let fmt : PyFormat := ⟨fun _ => "", fun _ => ""⟩
    (∃ frame, encodeSetCurrentRel fmt 7 half.value (some half.value) = .ok frame ∧
      (setCurrentRel half (some half)).CarriedBy 7 frame) ∧
    ∃ text, encodeSetCurrentRel fmt 256 half.value (some half.value) =
      .error (.valueError text) := by
  intro half fmt
  have hround : roundHalfEven (half.number * 100000) = 50000 := by decide +kernel
  constructor
  · refine (carried_or_refused fmt (setCurrentRel half (some half)) 7).2 ⟨by decide, ?_, ?_, ?_⟩
    · rintro v ⟨⟩
      norm_num [half]
    · rintro v ⟨⟩
      norm_num [half]
    · intro a ha
      rw [List.mem_singleton.mp ha, hround]
      decide
  · refine (carried_or_refused fmt (setCurrentRel half (some half)) 256).1.mpr fun h => ?_
    exact absurd h.controllerId (by decide)

end CanCommand

end PyVesc
