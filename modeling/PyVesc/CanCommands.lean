import PyVesc.CanFrames
import PyVesc.PyNumber

/-!
# The command encoders of the native CAN protocol

`can/frames.py`: the frames that command a motor. A quantity goes out as a scaled integer that is
rounded to the nearest one, a tie to the even one. Arguments are values of any kind, and what is no
number is refused.
-/

namespace PyVesc

open PyNumber

/-- How `%r` and `%g` write a value in the text of an error. -/
structure PyFormat where
  repr : PyVal → String
  general : ℚ → String

def int16Min : ℤ := -2 ^ 15

def int16Max : ℤ := 2 ^ 15 - 1

def int32Min : ℤ := -2 ^ 31

def int32Max : ℤ := 2 ^ 31 - 1

/-- `make_arbitration_id` for any integer. -/
def makeArbitrationIdInt (packetId : CanPacketId) (controllerId : ℤ) : Py ℕ :=
  if 0 ≤ controllerId ∧ controllerId ≤ 0xFF then
    .ok (packetId.value <<< 8 ||| controllerId.toNat)
  else .error (.valueError s!"controller_id must be 0..255, got {controllerId}")

theorem makeArbitrationIdInt_natCast (packetId : CanPacketId) (controllerId : ℕ) :
    makeArbitrationIdInt packetId controllerId = makeArbitrationId packetId controllerId := by
  rw [makeArbitrationIdInt, makeArbitrationId]
  by_cases h : controllerId ≤ 0xFF
  · rw [if_pos ⟨Int.natCast_nonneg _, by omega⟩, if_pos h]
    rfl
  · rw [if_neg (by omega), if_neg h]
    rfl

variable (fmt : PyFormat)

def scaled32 (value : PyVal) (scale : ℚ) (what : String) : Py Bytes :=
  match value.number with
  | none => .error (.typeError "")
  | some q =>
    let raw := roundHalfEven (q * scale)
    if int32Min ≤ raw ∧ raw ≤ int32Max then structPack [.int .i] [.int raw]
    else
      .error (.valueError
        s!"{what}={fmt.repr value} overflows int32 at scale {fmt.general scale}")

def scaled16 (value : PyVal) (scale : ℚ) (what : String) : Py Bytes :=
  match value.number with
  | none => .error (.typeError "")
  | some q =>
    let raw := roundHalfEven (q * scale)
    if int16Min ≤ raw ∧ raw ≤ int16Max then structPack [.int .h] [.int raw]
    else
      .error (.valueError
        s!"{what}={fmt.repr value} overflows int16 at scale {fmt.general scale}")

/-- The bound is taken as the decimal that the source writes, and not as the float next to it. -/
def offDelayBytes (offDelay : PyVal) : Py Bytes :=
  match offDelay.number with
  | none => .error (.typeError "")
  | some q =>
    if 0 ≤ q ∧ q ≤ 32.767 then scaled16 fmt offDelay 1000 "off_delay"
    else .error (.valueError s!"off_delay must be 0..32.767 s, got {fmt.repr offDelay}")

def checkRel (rel : PyVal) (what : String) : Py PyVal :=
  match rel.number with
  | none => .error (.typeError "")
  | some q =>
    if -1 ≤ q ∧ q ≤ 1 then .ok rel
    else .error (.valueError s!"{what} must be in [-1, 1], got {fmt.repr rel}")

section Encoders
variable (controllerId : ℤ)

def encodeSetDuty (duty : PyVal) : Py VescFrame := do
  let _ ← checkRel fmt duty "duty"
  let arbitrationId ← makeArbitrationIdInt .setDuty controllerId
  let data ← scaled32 fmt duty 100000 "duty"
  return ⟨arbitrationId, data⟩

/-- The off-delay comes first. -/
def encodeSetCurrent (currentA : PyVal) (offDelayS : Option PyVal) : Py VescFrame := do
  let data ← scaled32 fmt currentA 1000 "current_a"
  let data ← match offDelayS with
    | none => pure data
    | some offDelay => do
      let head ← offDelayBytes fmt offDelay
      pure (head ++ data)
  let arbitrationId ← makeArbitrationIdInt .setCurrent controllerId
  return ⟨arbitrationId, data⟩

/-- The encoders that only scale their argument. -/
def encodeScaled (packetId : CanPacketId) (value : PyVal) (scale : ℚ) (what : String) :
    Py VescFrame := do
  let arbitrationId ← makeArbitrationIdInt packetId controllerId
  let data ← scaled32 fmt value scale what
  return ⟨arbitrationId, data⟩

def encodeSetCurrentBrake (currentA : PyVal) : Py VescFrame :=
  encodeScaled fmt controllerId .setCurrentBrake currentA 1000 "current_a"

def encodeSetRpm (erpm : PyVal) : Py VescFrame :=
  encodeScaled fmt controllerId .setRpm erpm 1 "erpm"

def encodeSetPos (degrees : PyVal) : Py VescFrame :=
  encodeScaled fmt controllerId .setPos degrees 1000000 "degrees"

def encodeSetHandbrake (currentA : PyVal) : Py VescFrame :=
  encodeScaled fmt controllerId .setCurrentHandbrake currentA 1000 "current_a"

/-- The encoders of a fraction of a limit. -/
def encodeRel (packetId : CanPacketId) (rel : PyVal) (what : String) : Py VescFrame := do
  let _ ← checkRel fmt rel what
  let arbitrationId ← makeArbitrationIdInt packetId controllerId
  let data ← scaled32 fmt rel 100000 what
  return ⟨arbitrationId, data⟩

/-- The off-delay comes last. -/
def encodeSetCurrentRel (rel : PyVal) (offDelayS : Option PyVal) : Py VescFrame := do
  let _ ← checkRel fmt rel "rel"
  let data ← scaled32 fmt rel 100000 "rel"
  let data ← match offDelayS with
    | none => pure data
    | some offDelay => do
      let tail ← offDelayBytes fmt offDelay
      pure (data ++ tail)
  let arbitrationId ← makeArbitrationIdInt .setCurrentRel controllerId
  return ⟨arbitrationId, data⟩

def encodeSetCurrentBrakeRel (rel : PyVal) : Py VescFrame :=
  encodeRel fmt controllerId .setCurrentBrakeRel rel "rel"

def encodeSetHandbrakeRel (rel : PyVal) : Py VescFrame :=
  encodeRel fmt controllerId .setCurrentHandbrakeRel rel "rel"

/-- The encoders of a pair of limits, under one packet id to keep it and another to store it. -/
def encodeConf (pid storePid : CanPacketId) (first : PyVal) (whatFirst : String) (second : PyVal)
    (whatSecond : String) (store : Bool) : Py VescFrame := do
  let arbitrationId ← makeArbitrationIdInt (if store then storePid else pid) controllerId
  let head ← scaled32 fmt first 1000 whatFirst
  let tail ← scaled32 fmt second 1000 whatSecond
  return ⟨arbitrationId, head ++ tail⟩

def encodeConfCurrentLimits (minA maxA : PyVal) (store : Bool) : Py VescFrame :=
  encodeConf fmt controllerId .confCurrentLimits .confStoreCurrentLimits minA "min_a" maxA "max_a"
    store

def encodeConfCurrentLimitsIn (minA maxA : PyVal) (store : Bool) : Py VescFrame :=
  encodeConf fmt controllerId .confCurrentLimitsIn .confStoreCurrentLimitsIn minA "min_a" maxA
    "max_a" store

def encodeConfFocErpms (focOpenloopRpm focSlErpm : PyVal) (store : Bool) : Py VescFrame :=
  encodeConf fmt controllerId .confFocErpms .confStoreFocErpms focOpenloopRpm "foc_openloop_rpm"
    focSlErpm "foc_sl_erpm" store

def encodeConfBatteryCut (startV endV : PyVal) (store : Bool) : Py VescFrame :=
  encodeConf fmt controllerId .confBatteryCut .confStoreBatteryCut startV "start_v" endV "end_v"
    store

def encodePing (senderId : ℤ) : Py VescFrame :=
  if 0 ≤ senderId ∧ senderId ≤ 0xFF then do
    let arbitrationId ← makeArbitrationIdInt .ping controllerId
    return ⟨arbitrationId, [UInt8.ofNat senderId.toNat]⟩
  else .error (.valueError s!"sender_id must be 0..255, got {senderId}")

def encodeShutdown : Py VescFrame := do
  let arbitrationId ← makeArbitrationIdInt .shutdown controllerId
  return ⟨arbitrationId, []⟩

end Encoders

/-! ### What a scaled integer is -/

theorem structPack_single {f : StructFormat.IntFormat} {z : ℤ} {bs : Bytes}
    (h : structPack [.int f] [.int z] = .ok bs) : f.pack z = some bs := by
  obtain ⟨head, rest, hhead, hrest, rfl⟩ := StructFormat.pack_cons_eq_some (structPack_eq_ok h)
  cases hrest
  rw [List.append_nil]
  exact hhead

theorem scaled32_ok {value : PyVal} {scale : ℚ} {what : String} {bs : Bytes}
    (h : scaled32 fmt value scale what = .ok bs) :
    ∃ q, value.number = some q ∧
      StructFormat.IntFormat.pack .i (roundHalfEven (q * scale)) = some bs := by
  rw [scaled32] at h
  cases hq : value.number with
  | none =>
      rw [hq] at h
      cases h
  | some q =>
      rw [hq] at h
      dsimp only at h
      split_ifs at h with hrange
      exact ⟨q, rfl, structPack_single h⟩

end PyVesc
