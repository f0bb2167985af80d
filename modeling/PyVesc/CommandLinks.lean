import PyVesc.CanCommands
import PyVesc.FixedMessages
import PyVesc.Messages

/-!
# One command over both links

A command that the serial link and the CAN bus both have carries a scaled integer of 32 bits at its
end. The serial link cuts the scaled value off and the CAN bus rounds it. Both are followed on exact
numbers here, so that nothing else tells them apart.
-/

namespace PyVesc

open PyNumber StructFormat

/-- The commands of both links; the current has its off-delay on the CAN bus. -/
inductive MotorCommand where
  | duty
  | current (offDelayS : Option PyVal)
  | currentBrake
  | handbrake
  | rpm
  | pos
  deriving DecidableEq, Repr

namespace MotorCommand

def cls : MotorCommand → MessageClass
  | duty => Messages.setDutyCycle
  | current _ => Messages.setCurrent
  | currentBrake => Messages.setCurrentBrake
  | handbrake => Messages.setHandbrake
  | rpm => Messages.setRPM
  | pos => Messages.setPosition

def fieldName : MotorCommand → String
  | duty => "duty_cycle"
  | current _ => "current"
  | currentBrake => "current_brake"
  | handbrake => "current"
  | rpm => "rpm"
  | pos => "pos"

/-- What one unit of the quantity is on the wire. -/
def scale : MotorCommand → ℚ
  | duty => 100000
  | current _ => 1000
  | currentBrake => 1000
  | handbrake => 1000
  | rpm => 1
  | pos => 1000000

/-- The packed message of the class, made from the value, where scaling is exact. -/
def packComm (c : MotorCommand) (canId : Option ℕ) (v : PyVal) : Py Bytes := do
  let m ← c.cls.call [v] canId false
  @VESCMessage.pack exactNumbers m false true

def encodeCan (fmt : PyFormat) (controllerId : ℤ) (v : PyVal) : MotorCommand → Py VescFrame
  | duty => encodeSetDuty fmt controllerId v
  | current offDelayS => encodeSetCurrent fmt controllerId v offDelayS
  | currentBrake => encodeSetCurrentBrake fmt controllerId v
  | handbrake => encodeSetHandbrake fmt controllerId v
  | rpm => encodeSetRpm fmt controllerId v
  | pos => encodeSetPos fmt controllerId v

end MotorCommand

/-- The 32-bit integer at the end. -/
def lastInt (bs : Bytes) : ℤ := IntFormat.unpack .i (bs.drop (bs.length - 4))

theorem lastInt_append {z : ℤ} {bs : Bytes} (h : IntFormat.pack .i z = some bs) (head : Bytes) :
    lastInt (head ++ bs) = z := by
  have hlen : bs.length = 4 := IntFormat.length_pack h
  rw [lastInt, List.length_append, hlen, Nat.add_sub_cancel, List.drop_left]
  exact IntFormat.unpack_pack h

/-! ### The CAN bus -/

section Can
variable (fmt : PyFormat)

theorem lastInt_scaled32 {value : PyVal} {scale : ℚ} {what : String} {bs : Bytes}
    (h : scaled32 fmt value scale what = .ok bs) (head : Bytes) :
    ∃ q, value.number = some q ∧ lastInt (head ++ bs) = roundHalfEven (q * scale) := by
  obtain ⟨q, hq, hpack⟩ := scaled32_ok fmt h
  exact ⟨q, hq, lastInt_append hpack head⟩

theorem lastInt_encodeScaled {controllerId : ℤ} {packetId : CanPacketId} {value : PyVal}
    {scale : ℚ} {what : String} {frame : VescFrame}
    (h : encodeScaled fmt controllerId packetId value scale what = .ok frame) :
    ∃ q, value.number = some q ∧ lastInt frame.data = roundHalfEven (q * scale) := by
  obtain ⟨_, _, h⟩ := bind_eq_ok h
  obtain ⟨data, hdata, h⟩ := bind_eq_ok h
  cases h
  exact lastInt_scaled32 fmt hdata []

theorem lastInt_encodeCan {controllerId : ℤ} {v : PyVal} {c : MotorCommand} {frame : VescFrame}
    (h : c.encodeCan fmt controllerId v = .ok frame) :
    ∃ q, v.number = some q ∧ lastInt frame.data = roundHalfEven (q * c.scale) := by
  cases c with
  | duty =>
      obtain ⟨_, _, h⟩ := bind_eq_ok h
      exact lastInt_encodeScaled fmt h
  | current offDelayS =>
      obtain ⟨data, hdata, h⟩ := bind_eq_ok h
      cases offDelayS with
      | none =>
          obtain ⟨_, hsame, h⟩ := bind_eq_ok h
          obtain ⟨_, _, h⟩ := bind_eq_ok h
          cases hsame
          cases h
          exact lastInt_scaled32 fmt hdata []
      | some offDelay =>
          obtain ⟨head, _, h⟩ := bind_eq_ok h
          obtain ⟨_, hjoin, h⟩ := bind_eq_ok h
          obtain ⟨_, _, h⟩ := bind_eq_ok h
          cases hjoin
          cases h
          exact lastInt_scaled32 fmt hdata head
  | currentBrake => exact lastInt_encodeScaled fmt h
  | handbrake => exact lastInt_encodeScaled fmt h
  | rpm => exact lastInt_encodeScaled fmt h
  | pos => exact lastInt_encodeScaled fmt h

end Can

/-! ### The serial link -/

theorem MotorCommand.call_eq (c : MotorCommand) (canId : Option ℕ) (v : PyVal) :
    c.cls.call [v] canId false = .ok ⟨c.cls, canId, [(c.fieldName, v)]⟩ := by
  cases c <;> rfl

/-- The last item that is packed. -/
theorem lastInt_structPack {formats : List Format} {values : List PyVal} {v : PyVal} {bs : Bytes}
    (hlen : formats.length = values.length)
    (h : structPack (formats ++ [.int .i]) (values ++ [v]) = .ok bs) :
    ∃ z : ℤ, v.number = some (z : ℚ) ∧ lastInt bs = z := by
  have hpack := structPack_eq_ok h
  rw [pack_append _ _ _ _ hlen] at hpack
  obtain ⟨head, _, hpack⟩ := Option.bind_eq_some_iff.mp hpack
  obtain ⟨last, hlast, hpack⟩ := Option.bind_eq_some_iff.mp hpack
  cases hpack
  obtain ⟨item, rest, hitem, hrest, rfl⟩ := pack_cons_eq_some hlast
  cases hrest
  rw [List.append_nil]
  cases v with
  | int z => exact ⟨z, rfl, lastInt_append hitem head⟩
  | bool b =>
      refine ⟨if b then 1 else 0, ?_, lastInt_append hitem head⟩
      cases b <;> rfl
  | float q => cases hitem
  | bytes bs => cases hitem
  | str s => cases hitem

section Pack
open VESCMessage

theorem length_idItems (m : Message) : m.idItems.1.length = m.idItems.2.length := by
  rw [Message.idItems]
  cases m.canId <;> rfl

variable {cls : MessageClass} {name : String} {canId : Option ℕ} {v : PyVal}

theorem fieldValues_single [FloatArithmetic] {scalar : Option ℚ}
    (hsend : cls.sendFields = some [⟨name, .item (.int .i), scalar⟩]) :
    fieldValues ⟨cls, canId, [(name, v)]⟩ ⟨none, [name], [.item (.int .i)], scalar.toList⟩ =
      match scalar with
      | none => .ok [v]
      | some s => do
        let item ← scaleToInt v s
        return [item] := by
  have hattr : Message.getattr ⟨cls, canId, [(name, v)]⟩ name = .ok v := by
    rw [Message.getattr, List.lookup_cons, beq_self_eq_true]
  cases scalar with
  | none => simp [fieldValues, hattr]
  | some s =>
      simp only [fieldValues, Option.toList_some, List.cons_ne_nil, if_false, List.zip_cons_cons,
        List.zip_nil_right, List.zipIdx_cons, List.zipIdx_nil, List.mapM_cons, List.mapM_nil,
        hsend, getItem, hattr, ok_bind]
      rfl

/-- A message of one integer field: its value, scaled where the class declares a scalar. -/
theorem pack_single [FloatArithmetic] {scalar : Option ℚ}
    (hsend : cls.sendFields = some [⟨name, .item (.int .i), scalar⟩]) {payload : Bytes}
    (h : VESCMessage.pack ⟨cls, canId, [(name, v)]⟩ false true = .ok payload) :
    ∃ (item : PyVal) (z : ℤ),
      (scalar = none ∧ item = v ∨ ∃ s, scalar = some s ∧ scaleToInt v s = .ok item) ∧
      item.number = some (z : ℚ) ∧ lastInt payload = z := by
  have htable : packTable cls true = ⟨none, [name], [.item (.int .i)], scalar.toList⟩ := by
    rw [packTable, if_pos rfl, MessageClass.sendTable, hsend]
    rfl
  rw [pack_of_no_string (by rw [htable]), htable] at h
  obtain ⟨values, hvalues, h⟩ := bind_eq_ok h
  obtain ⟨formats, hformats, h⟩ := bind_eq_ok h
  cases hformats
  rw [fieldValues_single hsend] at hvalues
  cases scalar with
  | none =>
      cases hvalues
      obtain ⟨z, hz, hlast⟩ := lastInt_structPack (length_idItems _) h
      exact ⟨v, z, Or.inl ⟨rfl, rfl⟩, hz, hlast⟩
  | some s =>
      obtain ⟨item, hitem, hvalues⟩ := bind_eq_ok hvalues
      cases hvalues
      obtain ⟨z, hz, hlast⟩ := lastInt_structPack (length_idItems _) h
      exact ⟨item, z, Or.inr ⟨s, rfl, hitem⟩, hz, hlast⟩

theorem scaleToInt_exact {s : ℚ} {item : PyVal} (h : @scaleToInt exactNumbers v s = .ok item) :
    ∃ q, v.number = some q ∧ item = .int (truncate (q * s)) := by
  unfold scaleToInt at h
  rw [product_exactNumbers] at h
  cases hq : v.number with
  | none =>
      rw [hq] at h
      cases h
  | some q =>
      rw [hq] at h
      cases h
      exact ⟨q, rfl, rfl⟩

end Pack

theorem MotorCommand.sendFields_eq (c : MotorCommand) :
    ∃ scalar, c.cls.sendFields = some [⟨c.fieldName, .item (.int .i), scalar⟩] ∧
      (scalar = some c.scale ∨ scalar = none ∧ c.scale = 1) := by
  cases c
  case rpm => exact ⟨none, rfl, Or.inr ⟨rfl, rfl⟩⟩
  all_goals exact ⟨_, rfl, Or.inl rfl⟩

theorem lastInt_packComm {c : MotorCommand} {canId : Option ℕ} {v : PyVal} {payload : Bytes}
    (h : c.packComm canId v = .ok payload) :
    ∃ q, v.number = some q ∧ lastInt payload = truncate (q * c.scale) := by
  rw [MotorCommand.packComm, c.call_eq, ok_bind] at h
  obtain ⟨scalar, hsend, hscalar⟩ := c.sendFields_eq
  let _ := exactNumbers
  obtain ⟨item, z, hitem, hz, hlast⟩ := pack_single hsend h
  obtain ⟨rfl, rfl⟩ | ⟨s, rfl, hs⟩ := hitem
  · obtain hscalar | ⟨_, hscale⟩ := hscalar
    · cases hscalar
    · refine ⟨z, hz, ?_⟩
      rw [hlast, hscale, mul_one, truncate_intCast]
  · obtain hscalar | ⟨hscalar, _⟩ := hscalar
    · cases hscalar
      obtain ⟨q, hq, rfl⟩ := scaleToInt_exact hs
      cases Int.cast_injective (Option.some.inj hz)
      exact ⟨q, hq, hlast⟩
    · cases hscalar

/-- Where both links take a value, they send the same integer just when rounding takes the scaled
value towards zero. -/
theorem same_integer_iff (fmt : PyFormat) {c : MotorCommand} {canId : Option ℕ} {controllerId : ℤ}
    {v : PyVal} {q : ℚ} {payload : Bytes} {frame : VescFrame} (hq : v.number = some q)
    (hcomm : c.packComm canId v = .ok payload)
    (hcan : c.encodeCan fmt controllerId v = .ok frame) :
    lastInt payload = lastInt frame.data ↔ RoundsDown (q * c.scale) := by
  obtain ⟨q₁, hq₁, hcut⟩ := lastInt_packComm hcomm
  obtain ⟨q₂, hq₂, hround⟩ := lastInt_encodeCan fmt hcan
  rw [hq] at hq₁ hq₂
  cases hq₁
  cases hq₂
  rw [hcut, hround]
  exact truncate_eq_roundHalfEven_iff _

/-- Half of a milliampere more than 1.25 A. -/
theorem same_integer_halfway :
    MotorCommand.packComm (.current none) none (.float 1.2505) = .ok [6, 0x00, 0x00, 0x04, 0xe2] ∧
      MotorCommand.encodeCan ⟨fun _ => "", fun _ => ""⟩ 7 (.float 1.2505) (.current none) =
        .ok ⟨0x107, [0x00, 0x00, 0x04, 0xe2]⟩ ∧
      (lastInt [6, 0x00, 0x00, 0x04, 0xe2] = lastInt [0x00, 0x00, 0x04, 0xe2] ↔
        RoundsDown (1.2505 * (MotorCommand.current none).scale)) := by
  have hcomm : MotorCommand.packComm (.current none) none (.float 1.2505) =
      .ok [6, 0x00, 0x00, 0x04, 0xe2] := by decide +kernel
  have hcan : MotorCommand.encodeCan ⟨fun _ => "", fun _ => ""⟩ 7 (.float 1.2505)
      (.current none) = .ok ⟨0x107, [0x00, 0x00, 0x04, 0xe2]⟩ := by decide +kernel
  have hq : PyVal.number (.float 1.2505) = some 1.2505 := rfl
  have hsame := same_integer_iff _ hq hcomm hcan
  exact ⟨hcomm, hcan, hsame⟩

/-- 1.0006 A is 1000 mA over the serial link and 1001 mA over the CAN bus. -/
theorem integers_differ :
    MotorCommand.packComm (.current none) none (.float 1.0006) = .ok [6, 0x00, 0x00, 0x03, 0xe8] ∧
      MotorCommand.encodeCan ⟨fun _ => "", fun _ => ""⟩ 7 (.float 1.0006) (.current none) =
        .ok ⟨0x107, [0x00, 0x00, 0x03, 0xe9]⟩ ∧
      lastInt [6, 0x00, 0x00, 0x03, 0xe8] ≠ lastInt [0x00, 0x00, 0x03, 0xe9] := by
  decide +kernel

end PyVesc
