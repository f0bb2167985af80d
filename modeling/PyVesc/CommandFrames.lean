import PyVesc.CanCommands
import PyVesc.ErrorGuards

/-!
# What a command frame carries

Every encoder of a command either raises a `ValueError` or makes a frame that gives its arguments
back to half a unit. `CanCommand` is a call of an encoder with numbers. `readCommand` is the layout
of the packets, where the length of the data tells whether there is an off-delay.
-/

namespace PyVesc

open PyNumber StructFormat

/-- A value that is a number. -/
structure Quantity where
  value : PyVal
  number : ℚ
  number_eq : value.number = some number

/-- The scaled integer of the quantity is one of 32 bits. -/
def Quantity.Fits (v : Quantity) (scale : ℚ) : Prop :=
  int32Min ≤ roundHalfEven (v.number * scale) ∧ roundHalfEven (v.number * scale) ≤ int32Max

def Quantity.IsFraction (v : Quantity) : Prop := -1 ≤ v.number ∧ v.number ≤ 1

def Quantity.IsOffDelay (v : Quantity) : Prop := 0 ≤ v.number ∧ v.number ≤ 32.767

def IsControllerId (controllerId : ℤ) : Prop := 0 ≤ controllerId ∧ controllerId ≤ 0xFF

/-- The id of the frame names the packet and the controller. -/
def IdOf (packetId : CanPacketId) (controllerId : ℤ) (arbitrationId : ℕ) : Prop :=
  (splitArbitrationId arbitrationId).1 = packetId.value ∧
    ((splitArbitrationId arbitrationId).2 : ℤ) = controllerId

/-! ### The helpers of the encoders -/

theorem makeArbitrationIdInt_guards (packetId : CanPacketId) (controllerId : ℤ) :
    Guards (makeArbitrationIdInt packetId controllerId) (IsControllerId controllerId)
      (IdOf packetId controllerId) := by
  constructor
  · rintro ⟨hlow, hhigh⟩
    obtain ⟨c, rfl⟩ := Int.eq_ofNat_of_zero_le hlow
    have hmake : makeArbitrationId packetId c = .ok (packetId.value <<< 8 ||| c) :=
      if_pos (by omega)
    have hsplit := splitArbitrationId_make hmake
    rw [makeArbitrationIdInt_natCast]
    exact ⟨_, hmake, by rw [hsplit], by rw [hsplit]⟩
  · intro h
    exact ⟨_, if_neg h⟩

variable (fmt : PyFormat)

theorem structPack_int {f : IntFormat} {z : ℤ} (h : f.inRange z) :
    ∃ bs, structPack [.int f] [.int z] = .ok bs ∧ f.pack z = some bs := by
  have hpack : f.pack z = some (BigEndian.ofNat f.size (z % 2 ^ (8 * f.size)).toNat) := if_pos h
  refine ⟨_, ?_, hpack⟩
  rw [structPack, StructFormat.pack, Format.pack, hpack, StructFormat.pack]
  simp

theorem scaled32_guards (v : Quantity) (scale : ℚ) (what : String) :
    Guards (scaled32 fmt v.value scale what) (v.Fits scale)
      (fun bs => IntFormat.pack .i (roundHalfEven (v.number * scale)) = some bs) := by
  rw [scaled32, v.number_eq]
  constructor
  · intro h
    have hrange : IntFormat.inRange .i (roundHalfEven (v.number * scale)) := by
      obtain ⟨hlow, hhigh⟩ := h
      exact ⟨hlow, Int.lt_of_le_sub_one hhigh⟩
    obtain ⟨bs, hok, hpack⟩ := structPack_int hrange
    exact ⟨bs, (if_pos h).trans hok, hpack⟩
  · intro h
    exact ⟨_, if_neg h⟩

theorem offDelay_fits {q : ℚ} (hlow : 0 ≤ q) (hhigh : q ≤ 32.767) :
    int16Min ≤ roundHalfEven (q * 1000) ∧ roundHalfEven (q * 1000) ≤ int16Max := by
  have hzero := roundHalfEven_intCast 0
  have hmax := roundHalfEven_intCast 32767
  have hlow' : ((0 : ℤ) : ℚ) ≤ q * 1000 := by
    push_cast
    linarith
  have hhigh' : q * 1000 ≤ ((32767 : ℤ) : ℚ) := by
    push_cast
    linarith
  have hl := roundHalfEven_mono hlow'
  have hh := roundHalfEven_mono hhigh'
  rw [int16Min, int16Max]
  omega

theorem offDelayBytes_guards (v : Quantity) :
    Guards (offDelayBytes fmt v.value) v.IsOffDelay
      (fun bs => IntFormat.pack .h (roundHalfEven (v.number * 1000)) = some bs) := by
  rw [offDelayBytes, v.number_eq]
  constructor
  · intro h
    have hfits := offDelay_fits h.1 h.2
    have hrange : IntFormat.inRange .h (roundHalfEven (v.number * 1000)) :=
      ⟨hfits.1, Int.lt_of_le_sub_one hfits.2⟩
    obtain ⟨bs, hok, hpack⟩ := structPack_int hrange
    refine ⟨bs, (if_pos h).trans ?_, hpack⟩
    rw [scaled16, v.number_eq]
    exact (if_pos hfits).trans hok
  · intro h
    exact ⟨_, if_neg h⟩

theorem checkRel_guards (v : Quantity) (what : String) :
    Guards (checkRel fmt v.value what) v.IsFraction (fun rel => rel = v.value) := by
  rw [checkRel, v.number_eq]
  constructor
  · intro h
    exact ⟨_, if_pos h, rfl⟩
  · intro h
    exact ⟨_, if_neg h⟩

/-! ### The encoders -/

section Encoders
variable (controllerId : ℤ) (packetId : CanPacketId) (v w : Quantity) (what what' : String)

/-- The frame of one scaled integer. -/
def CarriesOne (packetId : CanPacketId) (controllerId : ℤ) (v : Quantity) (scale : ℚ)
    (frame : VescFrame) : Prop :=
  IdOf packetId controllerId frame.arbitrationId ∧
    IntFormat.pack .i (roundHalfEven (v.number * scale)) = some frame.data

theorem encodeScaled_guards (scale : ℚ) :
    Guards (encodeScaled fmt controllerId packetId v.value scale what)
      (IsControllerId controllerId ∧ v.Fits scale)
      (CarriesOne packetId controllerId v scale) := by
  apply (makeArbitrationIdInt_guards packetId controllerId).bind
  intro arbitrationId hid
  apply (scaled32_guards fmt v scale what).map
  intro data hdata
  exact ⟨hid, hdata⟩

theorem encodeRel_guards :
    Guards (encodeRel fmt controllerId packetId v.value what)
      (v.IsFraction ∧ IsControllerId controllerId ∧ v.Fits 100000)
      (CarriesOne packetId controllerId v 100000) := by
  apply (checkRel_guards fmt v what).bind
  intro _ _
  exact encodeScaled_guards fmt controllerId packetId v what 100000

/-- The frame of two scaled integers. -/
def CarriesPair (packetId : CanPacketId) (controllerId : ℤ) (v w : Quantity) (frame : VescFrame) :
    Prop :=
  IdOf packetId controllerId frame.arbitrationId ∧
    ∃ head tail, IntFormat.pack .i (roundHalfEven (v.number * 1000)) = some head ∧
      IntFormat.pack .i (roundHalfEven (w.number * 1000)) = some tail ∧ frame.data = head ++ tail

theorem encodeConf_guards (pid storePid : CanPacketId) (store : Bool) :
    Guards (encodeConf fmt controllerId pid storePid v.value what w.value what' store)
      (IsControllerId controllerId ∧ v.Fits 1000 ∧ w.Fits 1000)
      (CarriesPair (if store then storePid else pid) controllerId v w) := by
  apply (makeArbitrationIdInt_guards _ controllerId).bind
  intro arbitrationId hid
  apply (scaled32_guards fmt v 1000 what).bind
  intro head hhead
  apply (scaled32_guards fmt w 1000 what').map
  intro tail htail
  exact ⟨hid, head, tail, hhead, htail, rfl⟩

/-- The bytes of an off-delay, if there is one. -/
def IsDelayPart : Option Quantity → Bytes → Prop
  | none, bs => bs = []
  | some d, bs => IntFormat.pack .h (roundHalfEven (d.number * 1000)) = some bs

/-- The part of an encoder that puts the off-delay to the other data. -/
theorem delayPart_guards {offDelay : Option Quantity} {data : Bytes} {g : Bytes → Bytes}
    (hg : g [] = data) {f : Bytes → Py VescFrame} {P : Prop} {R : VescFrame → Prop}
    (hf : ∀ part, IsDelayPart offDelay part → Guards (f (g part)) P R) :
    Guards (match offDelay.map Quantity.value with
        | none => do
          let bs ← pure data
          f bs
        | some value => do
          let part ← offDelayBytes fmt value
          let bs ← pure (g part)
          f bs)
      ((∀ d ∈ offDelay, d.IsOffDelay) ∧ P) R := by
  cases offDelay with
  | none =>
      have h := hf [] rfl
      rw [hg] at h
      apply h.congr
      · simp
      · intro frame hframe
        exact hframe
  | some d =>
      have h := (offDelayBytes_guards fmt d).bind hf
      apply h.congr
      · simp
      · intro frame hframe
        exact hframe

theorem encodeSetCurrent_guards (offDelay : Option Quantity) :
    Guards (encodeSetCurrent fmt controllerId v.value (offDelay.map Quantity.value))
      (v.Fits 1000 ∧ (∀ d ∈ offDelay, d.IsOffDelay) ∧ IsControllerId controllerId)
      (fun frame => IdOf .setCurrent controllerId frame.arbitrationId ∧
        ∃ part data, IsDelayPart offDelay part ∧
          IntFormat.pack .i (roundHalfEven (v.number * 1000)) = some data ∧
          frame.data = part ++ data) := by
  apply (scaled32_guards fmt v 1000 "current_a").bind
  intro data hdata
  apply delayPart_guards fmt (g := fun part => part ++ data) rfl
  intro part hpart
  apply (makeArbitrationIdInt_guards _ controllerId).map
  intro arbitrationId hid
  exact ⟨hid, part, data, hpart, hdata, rfl⟩

theorem encodeSetCurrentRel_guards (offDelay : Option Quantity) :
    Guards (encodeSetCurrentRel fmt controllerId v.value (offDelay.map Quantity.value))
      (v.IsFraction ∧ v.Fits 100000 ∧ (∀ d ∈ offDelay, d.IsOffDelay) ∧
        IsControllerId controllerId)
      (fun frame => IdOf .setCurrentRel controllerId frame.arbitrationId ∧
        ∃ part data, IsDelayPart offDelay part ∧
          IntFormat.pack .i (roundHalfEven (v.number * 100000)) = some data ∧
          frame.data = data ++ part) := by
  apply (checkRel_guards fmt v "rel").bind
  intro _ _
  apply (scaled32_guards fmt v 100000 "rel").bind
  intro data hdata
  apply delayPart_guards fmt (g := fun part => data ++ part) (List.append_nil data)
  intro part hpart
  apply (makeArbitrationIdInt_guards _ controllerId).map
  intro arbitrationId hid
  exact ⟨hid, part, data, hpart, hdata, rfl⟩

theorem encodeShutdown_guards :
    Guards (encodeShutdown controllerId) (IsControllerId controllerId)
      (fun frame => IdOf .shutdown controllerId frame.arbitrationId ∧ frame.data = []) := by
  apply (makeArbitrationIdInt_guards _ controllerId).map
  intro arbitrationId hid
  exact ⟨hid, rfl⟩

/-- A ping names its sender under the same law. -/
theorem encodePing_guards (senderId : ℤ) :
    Guards (encodePing controllerId senderId)
      (IsControllerId controllerId ∧ IsControllerId senderId)
      (fun frame => IdOf .ping controllerId frame.arbitrationId ∧
        frame.data = [UInt8.ofNat senderId.toNat]) := by
  rw [encodePing]
  by_cases h : 0 ≤ senderId ∧ senderId ≤ 0xFF
  · rw [if_pos h]
    have hid := (makeArbitrationIdInt_guards .ping controllerId).map
      (f := fun arbitrationId => (⟨arbitrationId, [UInt8.ofNat senderId.toNat]⟩ : VescFrame))
      (R := fun frame => IdOf .ping controllerId frame.arbitrationId ∧
        frame.data = [UInt8.ofNat senderId.toNat]) (fun a ha => ⟨ha, rfl⟩)
    apply hid.congr
    · exact (and_iff_left h).symm
    · intro frame hframe
      exact hframe
  · rw [if_neg h]
    constructor
    · rintro ⟨_, hsender⟩
      exact absurd hsender h
    · intro _
      exact ⟨_, rfl⟩

end Encoders

end PyVesc
