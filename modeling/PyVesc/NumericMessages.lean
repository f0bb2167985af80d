import PyVesc.UniformScalars
import PyVesc.Interface
import PyVesc.Messages
import PyVesc.Crc16

/-!
# Numeric messages from end to end

A message of a class with integer fields goes through `encode` and `decode` and comes back with the
same numbers. The class scales all its fields or none. A field that is not scaled holds an integer,
since the `struct` module takes no other number for one, and a field that is scaled holds a number
that is a double, since the quotient is one.
-/

namespace PyVesc

open StructFormat PyNumber VESCMessage

variable (crc : Bytes → UInt16)

/-- Integer fields with different names that all have an integer scalar other than 0, or none. -/
structure NumericFields (fields : List Field) : Prop where
  names : (fields.map Field.name).Nodup
  formats : ∀ f ∈ fields, ∃ k, f.format = .item (.int k)
  scalars : (∀ f ∈ fields, f.scalar = none) ∨ ∀ f ∈ fields, ∃ z : ℤ, z ≠ 0 ∧ f.scalar = some (z : ℚ)

/-- The value times the scalar is an integer in the range of the format. -/
def Field.Fits (f : Field) (v : PyVal) : Prop :=
  ∃ (k : IntFormat) (q : ℚ) (z : ℤ), f.format = .item (.int k) ∧ v.number = some q ∧
    q * f.scalar.getD 1 = z ∧ k.inRange z

/-- An integer where nothing is scaled, and elsewhere what doubles hold. -/
def Field.Carries (f : Field) (v : PyVal) : Prop :=
  (f.scalar = none → v.integer ≠ none) ∧ ∀ s, f.scalar = some s → Held v s

variable {crc}

namespace NumericFields

variable {fields : List Field}

theorem not_isS (hfields : NumericFields fields) : ∀ f ∈ fields, f.format.isS = false := by
  intro f hf
  obtain ⟨k, hk⟩ := hfields.formats f hf
  rw [hk]
  rfl

theorem integerFields (hfields : NumericFields fields) : IntegerFields fields := by
  refine ⟨hfields.names, fun f hf => Or.inr (hfields.formats f hf), ?_⟩
  have hzero : fields.countP (fun f => f.format.isS) = 0 := by
    rw [List.countP_eq_zero]
    intro f hf
    rw [hfields.not_isS f hf]
    exact Bool.false_ne_true
  omega

theorem uniformScalars (hfields : NumericFields fields) {cls : MessageClass}
    (hsend : cls.sendFields = some fields) (hid : cls.id ≤ 255) : UniformScalars cls fields := by
  refine ⟨hid, ?_⟩
  rcases hfields.scalars with hnone | hscalars
  · exact Or.inl hnone
  · refine Or.inr ⟨?_, ⟨fields, hsend, ?_⟩, ?_⟩
    · intro f hf
      obtain ⟨z, _, hz⟩ := hscalars f hf
      rw [hz]
      exact Option.some_ne_none _
    · intro i f hf
      have hmem := List.mem_of_getElem? hf
      obtain ⟨z, hne, hz⟩ := hscalars f hmem
      refine ⟨f, hf, ?_⟩
      rw [Field.Unscaled, hz, hfields.not_isS f hmem]
      simp [hne]
    · rintro ⟨f, hf, hs⟩
      rw [hfields.not_isS f hf] at hs
      cases hs

end NumericFields

theorem Field.Fits.sends {f : Field} {v : PyVal} (h : f.Fits v)
    (hscalar : f.scalar = none ∨ ∃ z : ℤ, z ≠ 0 ∧ f.scalar = some (z : ℚ)) (hv : f.Carries v) :
    ∃ r : Row, r.field = f ∧ r.value = v ∧ r.Sends ∧ r.Exact ∧ r.Held := by
  obtain ⟨k, q, z, hformat, hnumber, hscaled, hrange⟩ := h
  refine ⟨⟨f, v, .int z⟩, rfl, rfl, ?_, ?_, fun s hs _ => hv.2 s hs⟩
  · rcases hscalar with hnone | ⟨s, hs, hsome⟩
    · obtain ⟨z', hz'⟩ := Option.ne_none_iff_exists'.mp (hv.1 hnone)
      have hsame : z' = z := by
        rw [PyVal.number_integer hz', Option.some.injEq] at hnumber
        rw [hnone, Option.getD_none, mul_one, ← hnumber] at hscaled
        exact_mod_cast hscaled
      rw [← hsame] at hrange ⊢
      exact Field.Sends.unscaled hformat (Or.inl hnone) hz' hrange
    · rw [hsome, Option.getD_some] at hscaled
      have hproduct : product v s = some (z : ℚ) := by
        rw [product_held (hv.2 _ hsome) hnumber, hscaled]
      rw [← truncate_intCast z] at hrange ⊢
      exact Field.Sends.scaled hformat hsome (by exact_mod_cast hs) hproduct hrange
  · intro q' s' hq' hs'
    change v.number = some q' at hq'
    change f.scalar = some s' at hs'
    rw [hnumber] at hq'
    cases hq'
    rw [hs', Option.getD_some] at hscaled
    exact ⟨z, hscaled⟩

theorem responseStringField_numbers {fields : List Field}
    (hnumbers : ∀ f ∈ fields, ∃ k, f.format = .item (.int k)) :
    responseStringField fields = (none, none) := by
  unfold responseStringField
  induction fields with
  | nil => rfl
  | cons f fields ih =>
      obtain ⟨⟨k, hk⟩, hrest⟩ := List.forall_mem_cons.mp hnumbers
      rw [List.foldl_cons, hk]
      exact ih hrest

/-- The payload of a numeric message, framed, is decoded to the message it is unpacked to. -/
theorem decode_frame {registry : Registry} {payload : Bytes} {msg : Message}
    {fields : List Field} (hframable : Framable payload)
    (hunpack : VESCMessage.unpack registry payload true = .ok msg)
    (hsend : msg.cls.sendFields = some fields)
    (hnumbers : ∀ f ∈ fields, ∃ k, f.format = .item (.int k)) :
    decode crc registry (frameBytes crc payload) false =
      .ok (some (.message msg), (frameBytes crc payload).length, payload) := by
  have hcombine : combine [msg] fields = .ok (.message msg) := by
    rw [combine, responseStringField_numbers hnumbers]
  simp only [decode_framed hframable, Bool.not_false, hunpack, ok_bind, Bool.false_eq_true,
    if_false, hsend, Option.getD_some, hcombine]
  rfl

/-- The rows of a message whose values fit. -/
theorem NumericFields.exists_rows {fields : List Field} (hfields : NumericFields fields)
    {m : Message} (hvalues : ∀ f ∈ fields, ∃ v, m.getattr f.name = .ok v ∧ f.Fits v ∧ f.Carries v) :
    ∃ rows : List Row, rows.map Row.field = fields ∧
      ∀ r ∈ rows, (m.getattr r.name = .ok r.value ∧ r.Sends) ∧ r.Exact ∧ r.Held ∧
        ∃ q, r.value.number = some q := by
  apply PyVesc.exists_rows
  intro f hf
  obtain ⟨v, hv, hfits, hcarries⟩ := hvalues f hf
  have hscalar : f.scalar = none ∨ ∃ z : ℤ, z ≠ 0 ∧ f.scalar = some (z : ℚ) :=
    hfields.scalars.imp (fun h => h f hf) fun h => h f hf
  obtain ⟨r, rfl, rfl, hsends, hexact, hheld⟩ := hfits.sends hscalar hcarries
  obtain ⟨_, q, _, _, hq, _⟩ := hfits
  exact ⟨r, rfl, ⟨hv, hsends⟩, hexact, hheld, q, hq⟩

theorem NumericFields.pack_rows {rows : List Row} (hfields : NumericFields (rows.map Row.field))
    {m : Message} (hsend : m.cls.sendFields = some (rows.map Row.field)) (hcan : m.canId = none)
    (hid : m.cls.id ≤ 255) (hrows : ∀ r ∈ rows, m.getattr r.name = .ok r.value ∧ r.Sends) :
    ∃ body, StructFormat.pack (rows.map Row.format) (rows.map Row.item) = some body ∧
      VESCMessage.pack m false true = .ok (UInt8.ofNat m.cls.id :: body) := by
  have hdecl : m.cls.declared true = some (rows.map Row.field) := hsend
  obtain ⟨body, hbody, hpayload⟩ := payload_exists hid fun r hr => (hrows r hr).2
  exact ⟨body, hbody, PyVesc.pack_rows rfl hcan hdecl hfields.integerFields
    (hfields.uniformScalars hsend hid) hrows hpayload⟩

/-- A numeric message comes back from `encode` and `decode` with the same numbers. -/
theorem decode_encode_numeric (crc : Bytes → UInt16) {registry : Registry} {cls : MessageClass}
    {fields : List Field} (hsend : cls.sendFields = some fields) (hfields : NumericFields fields)
    (hreg : registry.lookup cls.id = some cls) {m : Message} (hm : m.cls = cls)
    (hcan : m.canId = none)
    (hvalues : ∀ f ∈ fields, ∃ v, m.getattr f.name = .ok v ∧ f.Fits v ∧ f.Carries v) :
    ((∃ payload, VESCMessage.pack m false true = .ok payload) ↔ cls.id ≤ 255) ∧
      ∀ payload, VESCMessage.pack m false true = .ok payload → payload.length < 65536 →
        ∃ bytes msg, encode crc m = .ok bytes ∧
          decode crc registry bytes false = .ok (some (.message msg), bytes.length, payload) ∧
          msg.cls = cls ∧ ∀ f ∈ fields, ∃ v w, m.getattr f.name = .ok v ∧
            msg.getattr f.name = .ok w ∧ w.number = v.number := by
  subst hm
  obtain ⟨rows, hrows, hall⟩ := hfields.exists_rows hvalues
  subst hrows
  have hsent : ∀ r ∈ rows, m.getattr r.name = .ok r.value ∧ r.Sends := fun r hr => (hall r hr).1
  constructor
  · constructor
    · rintro ⟨payload, hpayload⟩
      exact id_le_of_packed hcan hpayload
    · intro hid
      obtain ⟨body, _, hpack⟩ := hfields.pack_rows hsend hcan hid hsent
      exact ⟨_, hpack⟩
  · intro payload hpayload hlen
    have hid := id_le_of_packed hcan hpayload
    obtain ⟨body, hbody, hpack⟩ := hfields.pack_rows hsend hcan hid hsent
    rw [hpack] at hpayload
    cases hpayload
    have hdecl : m.cls.declared true = some (rows.map Row.field) := hsend
    obtain ⟨msg, hunpack, hmsg, hgets⟩ := unpack_rows hreg hdecl hfields.integerFields
      (hfields.uniformScalars hsend hid) (fun r hr => (hsent r hr).2) hbody
    have hframable : Framable (UInt8.ofNat m.cls.id :: body) := ⟨List.cons_ne_nil _ _, hlen⟩
    refine ⟨_, msg, ?_, decode_frame hframable hunpack (by rw [hmsg]; exact hsend)
      hfields.formats, hmsg, ?_⟩
    · rw [encode, hpack]
      exact frame_eq crc hframable
    · intro f hf
      obtain ⟨r, hr, rfl⟩ := List.mem_map.mp hf
      obtain ⟨w, hw, hget⟩ := hgets r hr
      obtain ⟨⟨hv, hsends⟩, hexact, hheld, q, hq⟩ := hall r hr
      have hrestored := Field.Sends.restores hsends hget hexact hheld
      rw [hq] at hrestored
      exact ⟨r.value, w, hv, hw, hrestored.trans hq.symm⟩

def gains : MessageClass where
  id := 210
  sendFields := some [⟨"low", .item (.int .h), some 10⟩, ⟨"high", .item (.int .q), some (-100)⟩]
  recvFields := none

theorem decode_encode_numeric_gains :
    ∃ bytes msg, encode Crc16.xmodem ⟨gains, none, [("low", .float (-3 / 2)), ("high", .int 7)]⟩ =
        .ok bytes ∧
      decode Crc16.xmodem [(210, gains)] bytes false =
        .ok (some (.message msg), bytes.length,
          [210, 0xff, 0xf1, 0xff, 0xff, 0xff, 0xff, 0xff, 0xff, 0xfd, 0x44]) ∧
      msg.cls = gains ∧ ∀ f ∈ [⟨"low", .item (.int .h), some 10⟩,
          (⟨"high", .item (.int .q), some (-100)⟩ : Field)], ∃ v w,
        Message.getattr ⟨gains, none, [("low", .float (-3 / 2)), ("high", .int 7)]⟩ f.name = .ok v ∧
          msg.getattr f.name = .ok w ∧ w.number = v.number := by
  have hfields : NumericFields [⟨"low", .item (.int .h), some 10⟩,
      ⟨"high", .item (.int .q), some (-100)⟩] := by
    refine ⟨by decide, ?_, Or.inr ?_⟩
    · simp
    · simp only [List.forall_mem_cons]
      exact ⟨⟨10, by decide, by norm_num⟩, ⟨-100, by decide, by norm_num⟩, by simp⟩
  have hpack : VESCMessage.pack ⟨gains, none, [("low", .float (-3 / 2)), ("high", .int 7)]⟩ false
      true = .ok [210, 0xff, 0xf1, 0xff, 0xff, 0xff, 0xff, 0xff, 0xff, 0xfd, 0x44] := by
    decide +kernel
  apply (decode_encode_numeric Crc16.xmodem rfl hfields rfl rfl rfl ?_).2 _ hpack (by decide)
  have hlow : Held (.float (-3 / 2)) 10 := by
    apply held_of_le (q := -3 / 2) (z := -15) rfl (by norm_num) rfl (Or.inr ?_) (by norm_num)
      (by norm_num)
    decide +kernel
  have hhigh : Held (.int 7) (-100) :=
    held_of_le (q := 7) (z := -700) rfl (by norm_num) rfl (Or.inl (by simp [PyVal.integer]))
      (by norm_num) (by norm_num)
  simp only [List.forall_mem_cons]
  refine ⟨⟨_, rfl, ⟨.h, _, -15, rfl, rfl, by norm_num, by decide⟩, ?_⟩,
    ⟨_, rfl, ⟨.q, _, -700, rfl, rfl, by norm_num, by decide⟩, ?_⟩, by simp⟩
  · exact ⟨by simp, fun s hs => Option.some.inj hs ▸ hlow⟩
  · exact ⟨by simp, fun s hs => Option.some.inj hs ▸ hhigh⟩

/-- A class with one scaled field of 64 bits. -/
def wide (scalar : ℚ) : MessageClass where
  id := 211
  sendFields := some [⟨"count", .item (.int .q), some scalar⟩]
  recvFields := none

def wideRow (scalar : ℤ) (value : PyVal) (z : ℤ) : Row :=
  ⟨⟨"count", .item (.int .q), some (scalar : ℚ)⟩, value, .int z⟩

theorem numericFields_wide {scalar : ℤ} (hscalar : scalar ≠ 0) (value : PyVal) (z : ℤ) :
    NumericFields [(wideRow scalar value z).field] := by
  refine ⟨List.nodup_singleton _, ?_, Or.inr ?_⟩
  · rw [List.forall_mem_singleton]
    exact ⟨.q, rfl⟩
  · rw [List.forall_mem_singleton]
    exact ⟨scalar, hscalar, rfl⟩

/-- What is sent of the field comes back in floating point. -/
theorem wide_comes_back {scalar z : ℤ} (hscalar : scalar ≠ 0) {value : PyVal} {p : ℚ}
    (hproduct : product value scalar = some p) (hz : truncate p = z)
    (hrange : IntFormat.inRange .q z) {bits : Bytes}
    (hbits : StructFormat.pack [.int .q] [.int z] = some bits)
    (hpack : VESCMessage.pack ⟨wide scalar, none, [("count", value)]⟩ false true =
      .ok (211 :: bits)) (hlen : bits.length < 65535) :
    ∃ bytes msg, encode Crc16.xmodem ⟨wide scalar, none, [("count", value)]⟩ = .ok bytes ∧
      decode Crc16.xmodem [(211, wide scalar)] bytes false =
        .ok (some (.message msg), bytes.length, 211 :: bits) ∧
      msg.getattr "count" = .ok (wideRow scalar value z).got := by
  have hfields := numericFields_wide hscalar value z
  have hsends : ∀ r ∈ [wideRow scalar value z], r.Sends := by
    subst hz
    exact List.forall_mem_singleton.mpr
      (Field.Sends.scaled rfl rfl (Int.cast_ne_zero.mpr hscalar) hproduct hrange)
  have hscaled : ∀ f ∈ [(wideRow scalar value z).field], f.scalar ≠ none :=
    List.forall_mem_singleton.mpr (Option.some_ne_none _)
  obtain ⟨msg, hunpack, hmsg, hgot⟩ := @unpack_numbers (wide scalar) true [wideRow scalar value z]
    rfl hfields.names (Or.inr hscaled) hfields.not_isS hsends bits hbits 211
  have hframable : Framable (211 :: bits) := by
    refine ⟨List.cons_ne_nil _ _, ?_⟩
    rw [List.length_cons]
    omega
  refine ⟨_, msg, ?_, decode_frame hframable hunpack (by rw [hmsg]; rfl) hfields.formats, ?_⟩
  · rw [encode, hpack, ok_bind, frame_eq Crc16.xmodem hframable]
  · exact hgot _ (List.mem_singleton_self _)

/-- The class `SetRPM` scales nothing, and 3000.0 is refused though it is the number 3000. A scaled
field of 64 bits comes back as a float: the int 2^53 + 1, which is no double, as 2^53, and the float
2^53 - 1, whose product with 33 is no double, as 2^53 - 2. -/
theorem numbers_refused_or_rounded :
    (NumericFields [⟨"rpm", .item (.int .i), none⟩] ∧
      Field.Fits ⟨"rpm", .item (.int .i), none⟩ (.float 3000) ∧
      Message.getattr ⟨Messages.setRPM, none, [("rpm", .float 3000)]⟩ "rpm" = .ok (.float 3000) ∧
      encode Crc16.xmodem ⟨Messages.setRPM, none, [("rpm", .float 3000)]⟩ = .error .structError) ∧
    (NumericFields [⟨"count", .item (.int .q), some 1⟩] ∧
      Field.Fits ⟨"count", .item (.int .q), some 1⟩ (.int 9007199254740993) ∧
      ∃ bytes msg, encode Crc16.xmodem ⟨wide 1, none, [("count", .int 9007199254740993)]⟩ =
          .ok bytes ∧
        decode Crc16.xmodem [(211, wide 1)] bytes false =
          .ok (some (.message msg), bytes.length, [211, 0, 32, 0, 0, 0, 0, 0, 1]) ∧
        msg.getattr "count" = .ok (.float 9007199254740992)) ∧
    NumericFields [⟨"count", .item (.int .q), some 33⟩] ∧
      Field.Fits ⟨"count", .item (.int .q), some 33⟩ (.float 9007199254740991) ∧
      ∃ bytes msg, encode Crc16.xmodem ⟨wide 33, none, [("count", .float 9007199254740991)]⟩ =
          .ok bytes ∧
        decode Crc16.xmodem [(211, wide 33)] bytes false =
          .ok (some (.message msg), bytes.length, [211, 4, 31, 255, 255, 255, 255, 255, 192]) ∧
        msg.getattr "count" = .ok (.float 9007199254740990) := by
  have hrpm : NumericFields [⟨"rpm", .item (.int .i), none⟩] :=
    ⟨by decide, by simp, Or.inl (by simp)⟩
  have hone : (wideRow 1 (.int 9007199254740993) 9007199254740993).got =
      .float 9007199254740992 := by decide +kernel
  have hmany : (wideRow 33 (.float 9007199254740991) 297237575406452672).got =
      .float 9007199254740990 := by decide +kernel
  refine ⟨⟨hrpm, ⟨.i, 3000, 3000, rfl, rfl, by norm_num, by decide⟩, rfl, by decide +kernel⟩,
    ⟨numericFields_wide one_ne_zero (.int 0) 0, ⟨.q, _, 9007199254740993, rfl, rfl, by norm_num,
      by decide⟩, ?_⟩,
    numericFields_wide (by decide : (33 : ℤ) ≠ 0) (.int 0) 0, ⟨.q, _, 297237575406452703, rfl, rfl,
      by norm_num, by decide⟩, ?_⟩
  · rw [← hone]
    exact @wide_comes_back 1 9007199254740993 one_ne_zero (.int 9007199254740993)
      9007199254740993 (by decide +kernel) (by decide +kernel) (by decide)
      [0, 32, 0, 0, 0, 0, 0, 1] (by decide +kernel) (by decide +kernel) (by decide)
  · rw [← hmany]
    exact @wide_comes_back 33 297237575406452672 (by decide) (.float 9007199254740991)
      297237575406452672 (by decide +kernel) (by decide +kernel) (by decide)
      [4, 31, 255, 255, 255, 255, 255, 192] (by decide +kernel) (by decide +kernel) (by decide)

end PyVesc
