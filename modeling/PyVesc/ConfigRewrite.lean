import PyVesc.ConfigParam
import Mathlib.Data.Nat.Bitwise

/-!
# Reading a configuration and writing it back

Every kind of parameter gives its bytes back, apart from two: a truth value is written as 0 or 1,
and a float that is nearer to zero than `1.5e-38` is written as zero. The rest follows by induction
on the list of parameters.
-/

namespace PyVesc

open PyNumber

/-! ### Integers -/

theorem intToBytes_toInt (signed : Bool) {bs : Bytes} {width : ℕ} (hlen : bs.length = width)
    (hwidth : width ≠ 0) :
    intToBytes width signed (.int (BigEndian.toInt signed bs)) = .ok bs := by
  subst hlen
  obtain ⟨w, hw⟩ := Nat.exists_eq_succ_of_ne_zero hwidth
  have hfits : (if signed then
      -(if signed then ((256 ^ bs.length : ℕ) : ℤ) / 2 else (256 ^ bs.length : ℕ)) else 0) ≤
        BigEndian.toInt signed bs ∧
      BigEndian.toInt signed bs <
        if signed then ((256 ^ bs.length : ℕ) : ℤ) / 2 else (256 ^ bs.length : ℕ) := by
    cases signed with
    | false =>
      have hlt := BigEndian.toNat_lt bs
      rw [BigEndian.toInt_unsigned]
      simp only [Bool.false_eq_true, if_false]
      omega
    | true =>
      have hbounds := BigEndian.toInt_signed_bounds bs
      simp only [if_true]
      rw [hw, pow_succ] at hbounds ⊢
      omega
  rw [intToBytes]
  simp only
  rw [if_pos hfits, BigEndian.ofInt_toInt]

theorem serialiseInt_toInt {width : ℕ} {signed : Bool} {low high : ℤ} (message : String)
    {bs : Bytes} (hlen : bs.length = width) (hwidth : width ≠ 0)
    (hlow : low ≤ BigEndian.toInt signed bs) (hhigh : BigEndian.toInt signed bs ≤ high) :
    serialiseInt width signed low high message (.int (BigEndian.toInt signed bs)) = .ok bs := by
  have hrange : ¬ (((BigEndian.toInt signed bs : ℤ) : ℚ) < low ∨
      (high : ℚ) < (BigEndian.toInt signed bs : ℤ)) := by
    rw [not_or, not_lt, not_lt]
    exact ⟨by exact_mod_cast hlow, by exact_mod_cast hhigh⟩
  change (if _ then _ else _) = _
  rw [if_neg hrange]
  exact intToBytes_toInt signed hlen hwidth

theorem serialiseRounded_toInt {width : ℕ} {low high : ℤ} (message : String) {bs : Bytes}
    (hlen : bs.length = width) (hwidth : width ≠ 0) (hlow : low ≤ BigEndian.toInt true bs)
    (hhigh : BigEndian.toInt true bs ≤ high) :
    serialiseRounded width low high message (.float (BigEndian.toInt true bs : ℤ)) = .ok bs := by
  have hrange : ¬ (BigEndian.toInt true bs < low ∨ high < BigEndian.toInt true bs) := by omega
  change (if roundHalfEven _ < low ∨ high < roundHalfEven _ then _ else _) = _
  rw [roundHalfEven_intCast, if_neg hrange]
  exact intToBytes_toInt true hlen hwidth

/-- An integer of at most 53 bits is a float. -/
theorem floatOfInt_eq {z : ℤ} (hz : z.natAbs < 2 ^ 53) : floatOfInt z = some (z : ℚ) := by
  have hexp : Nat.log 2 z.natAbs - 52 = 0 := by
    have hlog := Nat.log_lt_of_lt_pow' (by decide) hz
    omega
  have hsmall : |(z : ℚ)| < 2 ^ 1024 := by
    have habs : |(z : ℚ)| = (z.natAbs : ℚ) := by rw [Nat.cast_natAbs, Int.cast_abs]
    rw [habs]
    calc (z.natAbs : ℚ) < 2 ^ 53 := by exact_mod_cast hz
      _ ≤ 2 ^ 1024 := pow_le_pow_right₀ one_le_two (by decide)
  rw [floatOfInt, hexp]
  simp only [pow_zero, div_one, mul_one, roundHalfEven_intCast]
  exact if_pos hsmall

/-! ### Floats -/

namespace ParamDouble32Auto

/-- The word with a sign, an exponent and a fraction. -/
def word (negative : Bool) (e m : ℕ) : ℕ := (if negative then 2 ^ 31 else 0) + e * 2 ^ 23 + m

theorem exists_word {w : ℕ} (hw : w < 2 ^ 32) :
    ∃ negative e m, e < 2 ^ 8 ∧ m < 2 ^ 23 ∧ w = word negative e m := by
  refine ⟨decide (2 ^ 31 ≤ w), w / 2 ^ 23 % 2 ^ 8, w % 2 ^ 23, Nat.mod_lt _ (by decide),
    Nat.mod_lt _ (by decide), ?_⟩
  unfold word
  by_cases h : 2 ^ 31 ≤ w
  · simp only [h, decide_true, if_true]
    omega
  · simp only [h, decide_false, Bool.false_eq_true, if_false]
    omega

variable {negative : Bool} {e m : ℕ}

theorem exponent_word (he : e < 2 ^ 8) (hm : m < 2 ^ 23) :
    (word negative e m >>> 23) &&& 0xFF = e := by
  have hmask : 0xFF = 2 ^ 8 - 1 := by norm_num
  rw [hmask, Nat.and_two_pow_sub_one_eq_mod, Nat.shiftRight_eq_div_pow]
  unfold word
  split_ifs <;> omega

theorem fraction_word (hm : m < 2 ^ 23) : word negative e m &&& 0x7FFFFF = m := by
  have hmask : 0x7FFFFF = 2 ^ 23 - 1 := by norm_num
  rw [hmask, Nat.and_two_pow_sub_one_eq_mod]
  unfold word
  split_ifs <;> omega

theorem sign_word (he : e < 2 ^ 8) (hm : m < 2 ^ 23) :
    word negative e m &&& (1 <<< 31) = if negative then 2 ^ 31 else 0 := by
  rw [Nat.one_shiftLeft, Nat.and_two_pow, Nat.testBit_eq_decide_div_mod_eq]
  unfold word
  cases negative with
  | false =>
    have hbit : (0 + e * 2 ^ 23 + m) / 2 ^ 31 % 2 = 0 := by omega
    simp only [Bool.false_eq_true, if_false, hbit]
    rfl
  | true =>
    have hbit : (2 ^ 31 + e * 2 ^ 23 + m) / 2 ^ 31 % 2 = 1 := by omega
    simp only [if_true, hbit]
    rfl

/-- The fraction behind a half. -/
def mantissa (negative : Bool) (m : ℕ) : ℚ :=
  if negative then -((m : ℚ) / (8388608 * 2) + 1 / 2) else (m : ℚ) / (8388608 * 2) + 1 / 2

theorem decode_word (he : e < 2 ^ 8) (hm : m < 2 ^ 23) (hne : e ≠ 0 ∨ m ≠ 0) :
    decode (word negative e m) = ldexp (mantissa negative m) (e - 126) := by
  have hne' : (e : ℤ) ≠ 0 ∨ m ≠ 0 := hne.imp_left Nat.cast_ne_zero.mpr
  rw [decode, exponent_word he hm, fraction_word hm, sign_word he hm, decodeFields, if_pos hne',
    mantissa]
  cases negative <;> rfl

theorem decode_zero : decode (word negative 0 0) = 0 := by
  rw [decode, exponent_word (by decide) (by decide), fraction_word (by decide), decodeFields,
    if_neg (by simp)]
  simp [ldexp]

theorem abs_mantissa (negative : Bool) (m : ℕ) :
    |mantissa negative m| = (m : ℚ) / (8388608 * 2) + 1 / 2 := by
  have hpos : (0 : ℚ) ≤ (m : ℚ) / (8388608 * 2) + 1 / 2 := by positivity
  unfold mantissa
  split_ifs
  · rw [abs_neg, abs_of_nonneg hpos]
  · exact abs_of_nonneg hpos

theorem encodeFields_eq_word {fr : ℚ} {e : ℤ} (hhalf : 1 / 2 ≤ |fr|) (hone : |fr| < 1) :
    encodeFields fr e =
      word (decide (fr < 0)) ((e + 126) % 256).toNat ⌊(|fr| - 1 / 2) * 2 * 8388608⌋₊ := by
  have hnonneg : 0 ≤ (|fr| - 1 / 2) * 2 * 8388608 := by linarith
  have hm : ⌊(|fr| - 1 / 2) * 2 * 8388608⌋₊ < 2 ^ 23 := by
    rw [Nat.floor_lt hnonneg]
    push_cast
    linarith
  have he : ((e + 126) % 256).toNat < 2 ^ 8 := by omega
  have hfraction : (⌊(|fr| - 1 / 2) * 2 * 8388608⌋ % 8388608).toNat =
      ⌊(|fr| - 1 / 2) * 2 * 8388608⌋₊ := by
    rw [← Int.natCast_floor_eq_floor hnonneg]
    omega
  have hlow : ((e + 126) % 256).toNat <<< 23 ||| ⌊(|fr| - 1 / 2) * 2 * 8388608⌋₊ =
      ((e + 126) % 256).toNat * 2 ^ 23 + ⌊(|fr| - 1 / 2) * 2 * 8388608⌋₊ := by
    rw [← Nat.shiftLeft_add_eq_or_of_lt hm, Nat.shiftLeft_eq]
  have hsmall : ((e + 126) % 256).toNat * 2 ^ 23 + ⌊(|fr| - 1 / 2) * 2 * 8388608⌋₊ < 2 ^ 31 := by
    omega
  rw [encodeFields, if_pos hhalf]
  dsimp only
  rw [truncate_of_nonneg hnonneg, hfraction, hlow, word]
  by_cases hneg : fr < 0
  · rw [if_pos hneg, if_pos (decide_eq_true hneg), Nat.or_comm,
      ← Nat.shiftLeft_add_eq_or_of_lt hsmall, Nat.one_shiftLeft, Nat.add_assoc]
  · rw [if_neg hneg, if_neg (by rw [decide_eq_true_iff]; exact hneg), Nat.zero_add]

theorem abs_mantissa_bounds (hm : m < 2 ^ 23) :
    1 / 2 ≤ |mantissa negative m| ∧ |mantissa negative m| < 1 := by
  have hm' : (m : ℚ) < 8388608 := by exact_mod_cast hm
  rw [abs_mantissa]
  constructor
  · exact le_add_of_nonneg_left (by positivity)
  · linarith

theorem encodeFields_mantissa (he : e < 2 ^ 8) (hm : m < 2 ^ 23) :
    encodeFields (mantissa negative m) (e - 126) = word negative e m := by
  have hpos : (0 : ℚ) < (m : ℚ) / (8388608 * 2) + 1 / 2 := by positivity
  obtain ⟨hhalf, hone⟩ := @abs_mantissa_bounds negative m hm
  have hfraction : (|mantissa negative m| - 1 / 2) * 2 * 8388608 = m := by
    rw [abs_mantissa]
    ring
  have hexponent : (((e : ℤ) - 126 + 126) % 256).toNat = e := by omega
  have hsign : decide (mantissa negative m < 0) = negative := by
    cases negative with
    | false => exact decide_eq_false (not_lt_of_gt hpos)
    | true => exact decide_eq_true (neg_neg_of_pos hpos)
  rw [encodeFields_eq_word hhalf hone, hfraction, Nat.floor_natCast, hexponent, hsign]

theorem encode_large {q : ℚ} (hlarge : smallest ≤ |q|) :
    encode q = encodeFields (frexp q).1 (frexp q).2 := by
  rw [encode]
  simp only [if_neg (not_lt_of_ge hlarge)]

/-- A number that is not set to zero is written as the word it was read from. -/
theorem encode_decode {w : ℕ} (hw : w < 2 ^ 32) (hlarge : smallest ≤ |decode w|) :
    encode (decode w) = w := by
  rw [encode_large hlarge]
  obtain ⟨negative, e, m, he, hm, rfl⟩ := exists_word hw
  have hne : e ≠ 0 ∨ m ≠ 0 := by
    by_contra h
    obtain ⟨rfl, rfl⟩ : e = 0 ∧ m = 0 := by omega
    rw [decode_zero, abs_zero] at hlarge
    exact absurd hlarge (not_le_of_gt (by rw [smallest]; positivity))
  obtain ⟨hhalf, hone⟩ := @abs_mantissa_bounds negative m hm
  rw [decode_word he hm hne, frexp_ldexp hhalf hone]
  exact encodeFields_mantissa he hm

/-- A number that is set to zero is written as the word of zeros. -/
theorem encode_small {q : ℚ} (hsmall : |q| < smallest) : encode q = 0 := by
  rw [encode]
  simp only [if_pos hsmall]
  decide +kernel

theorem serialise_float (q : ℚ) :
    serialise (.float q) = intToBytes 4 false (.int (encode q)) := by
  have hfloat : floatOf (.float q) = .ok q := rfl
  rw [serialise, hfloat, ok_bind]

theorem serialise_decode {bs : Bytes} (hlen : bs.length = 4) :
    serialise (.float (decode (BigEndian.toNat bs))) =
      .ok (if |decode (BigEndian.toNat bs)| < smallest then [0, 0, 0, 0] else bs) := by
  rw [serialise_float]
  by_cases hsmall : |decode (BigEndian.toNat bs)| < smallest
  · rw [if_pos hsmall, encode_small hsmall]
    rfl
  · have hlt := BigEndian.toNat_lt bs
    rw [hlen] at hlt
    rw [if_neg hsmall, encode_decode hlt (le_of_not_gt hsmall), ← BigEndian.toInt_unsigned]
    exact intToBytes_toInt false hlen (by decide)

end ParamDouble32Auto

/-! ### Parameters -/

namespace ConfigParam

/-- The bytes of a parameter that are written after they have been read. -/
def kept (param : ConfigParam) (bs : Bytes) : Bytes :=
  if param = .double32Auto ∧
      |ParamDouble32Auto.decode (BigEndian.toNat bs)| < ParamDouble32Auto.smallest then
    [0, 0, 0, 0]
  else bs

theorem kept_of_ne {param : ConfigParam} (h : param ≠ .double32Auto) (bs : Bytes) :
    param.kept bs = bs := if_neg fun hauto => h hauto.1

theorem deserialiseInt_eq {width : ℕ} {signed : Bool} (message : String) {bs : Bytes}
    (hlen : bs.length = width) :
    deserialiseInt width signed message bs = .ok (.int (BigEndian.toInt signed bs)) :=
  if_neg (not_not_intro hlen)

theorem toFloat_toInt {bs : Bytes} (hlen : bs.length ≤ 4) :
    toFloat (.int (BigEndian.toInt true bs)) = .ok (.float (BigEndian.toInt true bs : ℤ)) := by
  have hpow : 256 ^ bs.length ≤ 256 ^ 4 := Nat.pow_le_pow_right (by decide) hlen
  have hbounds := BigEndian.toInt_signed_bounds bs
  have hfloat := @floatOfInt_eq (BigEndian.toInt true bs) (by omega)
  have hinteger : floatOf (.int (BigEndian.toInt true bs)) =
      (floatOfInt (BigEndian.toInt true bs)).elim (.error .overflowError) .ok := rfl
  rw [toFloat, hinteger, hfloat]
  rfl

/-- A byte that is neither 0 nor 1 is a truth value too, and comes back as 1. -/
theorem serialise_deserialise_bool (b : UInt8) : ∃ v, ParamBool.deserialise [b] = .ok v ∧
    ParamBool.serialise v = .ok [if b = 0 then 0 else 1] := by
  refine ⟨.bool (decide (b.toNat ≠ 0)), ?_, ?_⟩
  · rw [← BigEndian.toNat_singleton]
    rfl
  · by_cases hb : b = 0
    · rw [hb]
      rfl
    · have hne : b.toNat ≠ 0 := fun h => hb (UInt8.toNat_inj.mp h)
      rw [if_neg hb, decide_eq_true hne]
      rfl

theorem serialise_deserialise {param : ConfigParam} {bs : Bytes} (hlen : bs.length = param.width)
    (hbool : param = .bool → bs = [0] ∨ bs = [1]) :
    ∃ v, param.deserialise bs = .ok v ∧ param.serialise v = .ok (param.kept bs) := by
  have hunsigned := BigEndian.toNat_lt bs
  have hsigned := BigEndian.toInt_signed_bounds bs
  rw [hlen] at hunsigned hsigned
  cases param with
  | bool =>
    rw [kept_of_ne (by decide)]
    rcases hbool rfl with rfl | rfl
    · exact ⟨.bool false, rfl, rfl⟩
    · exact ⟨.bool true, rfl, rfl⟩
  | uInt8 | uInt16 | uInt32 =>
    rw [kept_of_ne (by decide)]
    refine ⟨_, deserialiseInt_eq _ hlen, serialiseInt_toInt _ hlen (by decide) ?_ ?_⟩
    · rw [BigEndian.toInt_unsigned]
      omega
    · rw [BigEndian.toInt_unsigned]
      norm_num [width] at hunsigned
      omega
  | int8 | int16 | int32 =>
    rw [kept_of_ne (by decide)]
    refine ⟨_, deserialiseInt_eq _ hlen, serialiseInt_toInt _ hlen (by decide) ?_ ?_⟩ <;>
    · norm_num [width] at hsigned
      omega
  | double16 | double32 =>
    rw [kept_of_ne (by decide)]
    refine ⟨.float (BigEndian.toInt true bs : ℤ), ?_,
      serialiseRounded_toInt _ hlen (by decide) ?_ ?_⟩
    · have hwidth : bs.length ≤ 4 := by
        rw [hlen]
        decide
      have hfloat := toFloat_toInt hwidth
      refine Eq.trans ?_ hfloat
      exact congrArg (· >>= toFloat) (deserialiseInt_eq _ hlen)
    all_goals
      norm_num [width] at hsigned
      omega
  | double32Auto =>
    refine ⟨_, rfl, ?_⟩
    have hauto := ParamDouble32Auto.serialise_decode hlen
    have hkept : kept .double32Auto bs =
        if |ParamDouble32Auto.decode (BigEndian.toNat bs)| < ParamDouble32Auto.smallest then
          [0, 0, 0, 0]
        else bs := by simp only [kept, true_and]
    rw [hkept]
    exact hauto

end ConfigParam

/-! ### Configurations -/

/-- The bytes that the parameters take from a buffer. -/
def configFields : List ConfigParam → Bytes → List (ConfigParam × Bytes)
  | [], _ => []
  | param :: kinds, buffer =>
    (param, buffer.take param.width) :: configFields kinds (buffer.drop param.width)

def configWidth (kinds : List ConfigParam) : ℕ := (kinds.map ConfigParam.width).sum

/-- Reading a configuration and writing the parameters. -/
def rewriteConfig (kinds : List ConfigParam) (buffer : Bytes) : Py Bytes := do
  let (params, _) ← readParams kinds buffer
  writeParams params

theorem flatten_configFields {kinds : List ConfigParam} {buffer : Bytes}
    (hlen : buffer.length = configWidth kinds) :
    (configFields kinds buffer).flatMap Prod.snd = buffer := by
  induction kinds generalizing buffer with
  | nil => exact (List.eq_nil_of_length_eq_zero hlen).symm
  | cons param kinds ih =>
    have hrest : (buffer.drop param.width).length = configWidth kinds := by
      rw [configWidth, List.map_cons, List.sum_cons] at hlen
      rw [List.length_drop, hlen, Nat.add_sub_cancel_left]
      rfl
    rw [configFields, List.flatMap_cons, ih hrest]
    exact List.take_append_drop _ _

theorem length_of_mem_configFields {kinds : List ConfigParam} {buffer : Bytes}
    (hlen : buffer.length = configWidth kinds) :
    ∀ f ∈ configFields kinds buffer, f.2.length = f.1.width := by
  induction kinds generalizing buffer with
  | nil =>
    intro f hf
    cases hf
  | cons param kinds ih =>
    rw [configWidth, List.map_cons, List.sum_cons] at hlen
    intro f hf
    rcases List.mem_cons.mp hf with rfl | hf
    · dsimp only
      rw [List.length_take]
      omega
    · apply ih _ f hf
      rw [List.length_drop, hlen, Nat.add_sub_cancel_left]
      rfl

/-- One parameter after another gives its bytes back, as far as they are kept. -/
theorem read_then_write {kinds : List ConfigParam} {buffer : Bytes}
    (hlen : buffer.length = configWidth kinds)
    (hbool : ∀ f ∈ configFields kinds buffer, f.1 = .bool → f.2 = [0] ∨ f.2 = [1]) :
    ∃ params, readParams kinds buffer = .ok (params, []) ∧ params.map Prod.fst = kinds ∧
      writeParams params =
        .ok ((configFields kinds buffer).flatMap fun f => f.1.kept f.2) := by
  induction kinds generalizing buffer with
  | nil =>
    have hnil : buffer = [] := List.eq_nil_of_length_eq_zero hlen
    rw [hnil]
    exact ⟨[], rfl, rfl, rfl⟩
  | cons param kinds ih =>
    rw [configWidth, List.map_cons, List.sum_cons] at hlen
    have htake : (buffer.take param.width).length = param.width := by
      rw [List.length_take]
      omega
    have hdrop : (buffer.drop param.width).length = configWidth kinds := by
      rw [List.length_drop, hlen, Nat.add_sub_cancel_left]
      rfl
    obtain ⟨value, hread, hwrite⟩ := ConfigParam.serialise_deserialise htake
      (hbool (param, _) List.mem_cons_self)
    obtain ⟨params, hreads, hkinds, hwrites⟩ := ih hdrop
      fun f hf => hbool f (List.mem_cons_of_mem _ hf)
    refine ⟨(param, value) :: params, ?_, by rw [List.map_cons, hkinds], ?_⟩
    · rw [readParams, bufferPop]
      simp only
      rw [hread, ok_bind, hreads]
      rfl
    · rw [writeParams, hwrite, ok_bind, hwrites]
      rfl

theorem flatMap_eq_iff {l : List (ConfigParam × Bytes)} (f : ConfigParam × Bytes → Bytes)
    (hlen : ∀ x ∈ l, (f x).length = x.2.length) :
    l.flatMap f = l.flatMap Prod.snd ↔ ∀ x ∈ l, f x = x.2 := by
  induction l with
  | nil => exact iff_of_true rfl fun x hx => absurd hx List.not_mem_nil
  | cons a l ih =>
    have hl := ih fun x hx => hlen x (List.mem_cons_of_mem _ hx)
    rw [List.flatMap_cons, List.flatMap_cons, List.forall_mem_cons, ← hl]
    constructor
    · exact fun heq => List.append_inj heq (hlen a List.mem_cons_self)
    · rintro ⟨ha, hrest⟩
      rw [ha, hrest]

/-- A configuration that is read and written back is the same, apart from the floats near zero. Its
bytes are all taken, by the parameters in order. -/
theorem rewriteConfig_eq (kinds : List ConfigParam) (buffer : Bytes)
    (hlen : buffer.length = configWidth kinds)
    (hbool : ∀ f ∈ configFields kinds buffer, f.1 = .bool → f.2 = [0] ∨ f.2 = [1]) :
    (∃ params, readParams kinds buffer = .ok (params, []) ∧ params.map Prod.fst = kinds) ∧
    rewriteConfig kinds buffer =
        .ok ((configFields kinds buffer).flatMap fun f => f.1.kept f.2) ∧
      (rewriteConfig kinds buffer = .ok buffer ↔
        ∀ f ∈ configFields kinds buffer, f.1 = .double32Auto → f.2 = [0, 0, 0, 0] ∨
          ParamDouble32Auto.smallest ≤ |ParamDouble32Auto.decode (BigEndian.toNat f.2)|) := by
  obtain ⟨params, hread, hkinds, hwrite⟩ := read_then_write hlen hbool
  have heq : rewriteConfig kinds buffer =
      .ok ((configFields kinds buffer).flatMap fun f => f.1.kept f.2) := by
    rw [rewriteConfig, hread, ok_bind]
    exact hwrite
  refine ⟨⟨params, hread, hkinds⟩, heq, ?_⟩
  have hkept : ∀ f ∈ configFields kinds buffer, (f.1.kept f.2).length = f.2.length := by
    intro f hf
    have hwidth := length_of_mem_configFields hlen f hf
    by_cases h : f.1 = .double32Auto ∧
        |ParamDouble32Auto.decode (BigEndian.toNat f.2)| < ParamDouble32Auto.smallest
    · rw [ConfigParam.kept, if_pos h, hwidth, h.1]
      rfl
    · rw [ConfigParam.kept, if_neg h]
  have hsame := flatMap_eq_iff (fun f => f.1.kept f.2) hkept
  rw [flatten_configFields hlen] at hsame
  rw [heq, Except.ok.injEq, hsame]
  apply forall₂_congr
  intro f hf
  unfold ConfigParam.kept
  by_cases hauto : f.1 = .double32Auto
  · by_cases hsmall :
        |ParamDouble32Auto.decode (BigEndian.toNat f.2)| < ParamDouble32Auto.smallest
    · rw [if_pos ⟨hauto, hsmall⟩]
      simp only [hauto, forall_const, not_le_of_gt hsmall, or_false, eq_comm]
    · rw [if_neg fun h => hsmall h.2]
      exact iff_of_true rfl fun _ => Or.inr (le_of_not_gt hsmall)
  · rw [if_neg fun h => hauto h.1]
    exact iff_of_true rfl fun h => absurd h hauto

/-- A truth value, integers of either sign, a rounded float and the float 1.5. -/
theorem rewriteConfig_eq_mixed :
    rewriteConfig [.bool, .uInt8, .int16, .double16, .double32Auto]
      [1, 200, 255, 254, 128, 0, 0x3f, 0xc0, 0, 0] =
        .ok [1, 200, 255, 254, 128, 0, 0x3f, 0xc0, 0, 0] :=
  (rewriteConfig_eq _ _ (by decide) (by decide)).2.2.mpr (by decide +kernel)

/-- The smallest float of single precision is written as zero. -/
theorem rewriteConfig_subnormal :
    ([0, 0, 0, 1] : Bytes).length = configWidth [.double32Auto] ∧
      rewriteConfig [.double32Auto] [0, 0, 0, 1] = .ok [0, 0, 0, 0] ∧
      rewriteConfig [.double32Auto] [0, 0, 0, 1] ≠ .ok [0, 0, 0, 1] := by
  decide +kernel

end PyVesc
