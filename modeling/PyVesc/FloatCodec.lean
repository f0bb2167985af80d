import PyVesc.ConfigRewrite
import Mathlib.Data.Sign.Basic

/-!
# The float parameter as a codec of single precision

The reader and the writer of `Param_Double32_Auto` on exact numbers. A word is the number that
single precision gives it, apart from the exponents at both ends; a number is cut off to the 24 bits
of its word. The writer keeps eight bits of the exponent, so that from `2 ^ 129` on a number is
written as one of a different magnitude.
-/

namespace PyVesc.ParamDouble32Auto

open PyNumber

/-! ### Reading -/

def signField (bs : Bytes) : ℕ := BigEndian.toNat bs / 2 ^ 31

def exponentField (bs : Bytes) : ℕ := BigEndian.toNat bs / 2 ^ 23 % 2 ^ 8

def fractionField (bs : Bytes) : ℕ := BigEndian.toNat bs % 2 ^ 23

theorem toNat_lt_word {bs : Bytes} (hlen : bs.length = 4) : BigEndian.toNat bs < 2 ^ 32 := by
  have hlt := BigEndian.toNat_lt bs
  rw [hlen] at hlt
  exact hlt

variable {negative : Bool} {e m : ℕ}

theorem fields_word {bs : Bytes} (he : e < 2 ^ 8) (hm : m < 2 ^ 23)
    (hword : BigEndian.toNat bs = word negative e m) :
    signField bs = (if negative then 1 else 0) ∧ exponentField bs = e ∧ fractionField bs = m := by
  rw [signField, exponentField, fractionField, hword, word]
  cases negative with
  | false =>
    simp only [Bool.false_eq_true, if_false]
    omega
  | true =>
    simp only [if_true]
    omega

theorem mantissa_eq (negative : Bool) (m : ℕ) :
    mantissa negative m = (-1) ^ (if negative then 1 else 0) * (1 + (m : ℚ) / 2 ^ 23) / 2 := by
  rw [mantissa]
  cases negative with
  | false =>
    simp only [Bool.false_eq_true, if_false]
    ring
  | true =>
    simp only [if_true]
    ring

theorem decode_fields {bs : Bytes} (hlen : bs.length = 4) (he : 1 ≤ exponentField bs) :
    decode (BigEndian.toNat bs) =
      (-1) ^ signField bs * (1 + (fractionField bs : ℚ) / 2 ^ 23) *
        2 ^ ((exponentField bs : ℤ) - 127) := by
  obtain ⟨negative, e, m, he', hm, hword⟩ := exists_word (toNat_lt_word hlen)
  obtain ⟨hs, hexp, hfr⟩ := fields_word he' hm hword
  rw [hexp] at he
  have hexponent : (e : ℤ) - 126 = e - 127 + 1 := by omega
  rw [hword, decode_word he' hm (Or.inl (by omega)), hs, hexp, hfr, ldexp, mantissa_eq, hexponent,
    zpow_add_one₀ two_ne_zero]
  ring

/-- Reading gives the number of single precision, and writing it gives the word back. -/
theorem single_precision (bs : Bytes) (hlen : bs.length = 4) :
    (1 ≤ exponentField bs → exponentField bs ≤ 254 →
      deserialise bs = .ok (.float ((-1) ^ signField bs * (1 + (fractionField bs : ℚ) / 2 ^ 23) *
        2 ^ ((exponentField bs : ℤ) - 127)))) ∧
    ∀ v, deserialise bs = .ok (.float v) → 1 ≤ exponentField bs → smallest ≤ |v| →
      serialise (.float v) = .ok bs := by
  constructor
  · intro hlow _
    rw [deserialise, decode_fields hlen hlow]
  · intro v hread _ hlarge
    cases hread
    rw [serialise_decode hlen, if_neg (not_lt_of_ge hlarge)]

/-- The word of minus 1.5. -/
theorem single_precision_word :
    deserialise [0xbf, 0xc0, 0, 0] =
        .ok (.float ((-1) ^ 1 * (1 + (4194304 : ℕ) / 2 ^ 23) * 2 ^ (((127 : ℕ) : ℤ) - 127))) ∧
      serialise (.float (-3 / 2)) = .ok [0xbf, 0xc0, 0, 0] := by
  have hsign : signField [0xbf, 0xc0, 0, 0] = 1 := by decide +kernel
  have hexponent : exponentField [0xbf, 0xc0, 0, 0] = 127 := by decide +kernel
  have hfraction : fractionField [0xbf, 0xc0, 0, 0] = 4194304 := by decide +kernel
  obtain ⟨hread, hwrite⟩ := single_precision [0xbf, 0xc0, 0, 0] rfl
  rw [hsign, hexponent, hfraction] at hread
  rw [hexponent] at hwrite
  refine ⟨hread (by decide) (by decide), ?_⟩
  exact hwrite (-3 / 2) (by decide +kernel) (by decide) (by decide +kernel)

/-! ### Writing -/

/-- The fraction field that a number is written with. -/
def cutFraction (v : ℚ) : ℕ := ⌊(|(frexp v).1| - 1 / 2) * 2 * 8388608⌋₊

/-- The exponent field that a number is written with. -/
def maskedExponent (v : ℚ) : ℕ := (((frexp v).2 + 126) % 256).toNat

theorem maskedExponent_lt (v : ℚ) : maskedExponent v < 2 ^ 8 := by
  rw [maskedExponent]
  omega

variable {v : ℚ}

theorem ne_zero_of_large (h : smallest ≤ |v|) : v ≠ 0 := by
  rintro rfl
  rw [abs_zero] at h
  exact absurd h (not_le_of_gt (by rw [smallest]; positivity))

theorem abs_eq_frexp (v : ℚ) : |v| = |(frexp v).1| * 2 ^ (frexp v).2 := by
  rw [← abs_ldexp, ldexp_frexp]

theorem cutFraction_bounds (h : v ≠ 0) :
    (cutFraction v : ℚ) ≤ (|(frexp v).1| - 1 / 2) * 2 * 8388608 ∧
      (|(frexp v).1| - 1 / 2) * 2 * 8388608 < cutFraction v + 1 ∧ cutFraction v < 2 ^ 23 := by
  obtain ⟨hhalf, hone⟩ := frexp_bounds h
  have hnonneg : 0 ≤ (|(frexp v).1| - 1 / 2) * 2 * 8388608 := by linarith
  refine ⟨Nat.floor_le hnonneg, Nat.lt_floor_add_one _, ?_⟩
  rw [cutFraction, Nat.floor_lt hnonneg]
  push_cast
  linarith

theorem frexp_fst_neg_iff (v : ℚ) : (frexp v).1 < 0 ↔ v < 0 := by
  have hpow : (0 : ℚ) < 2 ^ (frexp v).2 := zpow_pos two_pos _
  nth_rewrite 2 [← ldexp_frexp v]
  rw [ldexp, mul_neg_iff]
  constructor
  · exact fun h => Or.inr ⟨h, hpow⟩
  · rintro (⟨_, h⟩ | ⟨h, _⟩)
    · exact absurd h (not_lt_of_gt hpow)
    · exact h

theorem encode_eq_word (h : smallest ≤ |v|) :
    encode v = word (decide (v < 0)) (maskedExponent v) (cutFraction v) := by
  obtain ⟨hhalf, hone⟩ := frexp_bounds (ne_zero_of_large h)
  rw [encode_large h, encodeFields_eq_word hhalf hone]
  simp only [frexp_fst_neg_iff]
  rfl

/-- The exponent of a number that is not set to zero is not too small for its field. -/
theorem exponent_of_large (h : smallest ≤ |v|) : -125 ≤ (frexp v).2 := by
  have hone := (frexp_bounds (ne_zero_of_large h)).2
  have hpow : (0 : ℚ) < 2 ^ (frexp v).2 := zpow_pos two_pos _
  by_contra! hlt
  have hle : (2 : ℚ) ^ (frexp v).2 ≤ 2 ^ (-126 : ℤ) :=
    zpow_le_zpow_right₀ one_le_two (by omega)
  have hsmall : (2 : ℚ) ^ (-126 : ℤ) < smallest := by decide +kernel
  rw [abs_eq_frexp] at h
  nlinarith

theorem exponent_fits_iff (h : v ≠ 0) : (frexp v).2 ≤ 129 ↔ |v| < 2 ^ 129 := by
  obtain ⟨hhalf, hone⟩ := frexp_bounds h
  have hpow : (0 : ℚ) < 2 ^ (frexp v).2 := zpow_pos two_pos _
  rw [abs_eq_frexp]
  constructor
  · intro hle
    calc |(frexp v).1| * 2 ^ (frexp v).2 < 1 * 2 ^ (frexp v).2 := by nlinarith
      _ ≤ 2 ^ (129 : ℤ) := by
        rw [one_mul]
        exact zpow_le_zpow_right₀ one_le_two hle
      _ = 2 ^ 129 := by norm_cast
  · intro hlt
    by_contra! hle
    have htop : (2 : ℚ) ^ (130 : ℤ) ≤ 2 ^ (frexp v).2 :=
      zpow_le_zpow_right₀ one_le_two (by omega)
    have hcast : (2 : ℚ) ^ (130 : ℤ) = 2 * 2 ^ 129 := by norm_cast
    nlinarith

theorem abs_decode_word_lt (negative : Bool) {e m : ℕ} (he : e < 2 ^ 8) (hm : m < 2 ^ 23) :
    |decode (word negative e m)| < 2 ^ ((e : ℤ) - 126) := by
  have hpow : (0 : ℚ) < 2 ^ ((e : ℤ) - 126) := zpow_pos two_pos _
  have hm' : (m : ℚ) < 8388608 := by exact_mod_cast hm
  by_cases hne : e ≠ 0 ∨ m ≠ 0
  · rw [decode_word he hm hne, abs_ldexp, abs_mantissa]
    nlinarith
  · obtain ⟨rfl, rfl⟩ : e = 0 ∧ m = 0 := by omega
    have hzero : decode (word negative 0 0) = 0 := by
      cases negative <;> decide +kernel
    rw [hzero, abs_zero]
    exact hpow

/-! ### What a number is written as -/

/-- Zero for a number near to zero, and otherwise the number cut off to 24 bits. -/
def Represents (v w : ℚ) : Prop :=
  (|v| < smallest → w = 0) ∧
    (smallest ≤ |v| → SignType.sign w = SignType.sign v ∧ |w| ≤ |v| ∧ |v| - |w| < |v| / 2 ^ 23)

theorem represents_cut (hlarge : smallest ≤ |v|) (htop : |v| < 2 ^ 129) :
    Represents v (decode (encode v)) := by
  have hv := ne_zero_of_large hlarge
  obtain ⟨hcut, hcut', hm⟩ := cutFraction_bounds hv
  obtain ⟨hhalf, hone⟩ := frexp_bounds hv
  have hlow := exponent_of_large hlarge
  have hhigh := (exponent_fits_iff hv).mpr htop
  have hpow : (0 : ℚ) < 2 ^ (frexp v).2 := zpow_pos two_pos _
  have hexponent : (maskedExponent v : ℤ) - 126 = (frexp v).2 := by
    rw [maskedExponent]
    omega
  have hne : maskedExponent v ≠ 0 := by omega
  have hdecode : decode (encode v) =
      ldexp (mantissa (decide (v < 0)) (cutFraction v)) (frexp v).2 := by
    rw [encode_eq_word hlarge, decode_word (maskedExponent_lt v) hm (Or.inl hne), hexponent]
  have habs : |decode (encode v)| =
      ((cutFraction v : ℚ) / (8388608 * 2) + 1 / 2) * 2 ^ (frexp v).2 := by
    rw [hdecode, abs_ldexp, abs_mantissa]
  have hpos : (0 : ℚ) < (cutFraction v : ℚ) / (8388608 * 2) + 1 / 2 := by positivity
  refine ⟨fun hsmall => absurd hlarge (not_le_of_gt hsmall), fun _ => ⟨?_, ?_, ?_⟩⟩
  · rw [hdecode, ldexp, mantissa]
    by_cases hneg : v < 0
    · rw [if_pos (decide_eq_true hneg), sign_neg hneg]
      exact sign_neg (mul_neg_of_neg_of_pos (neg_neg_of_pos hpos) hpow)
    · have hpos' : 0 < v := lt_of_le_of_ne (not_lt.mp hneg) hv.symm
      rw [if_neg (by rw [decide_eq_true_iff]; exact hneg), sign_pos hpos']
      exact sign_pos (mul_pos hpos hpow)
  · rw [habs, abs_eq_frexp v]
    apply mul_le_mul_of_nonneg_right _ hpow.le
    linarith
  · rw [habs, abs_eq_frexp v, ← sub_mul, mul_div_right_comm]
    apply mul_lt_mul_of_pos_right _ hpow
    linarith

/-- Above the range the exponent loses its high bits, and with them the magnitude. -/
theorem not_represents_wrapped (hlarge : smallest ≤ |v|) (htop : ¬ |v| < 2 ^ 129) :
    ¬ Represents v (decode (encode v)) := by
  have hv := ne_zero_of_large hlarge
  obtain ⟨_, _, hm⟩ := cutFraction_bounds hv
  have hhalf := (frexp_bounds hv).1
  have hhigh : 129 < (frexp v).2 := not_le.mp fun h => htop ((exponent_fits_iff hv).mp h)
  have hpow : (0 : ℚ) < 2 ^ (frexp v).2 := zpow_pos two_pos _
  have hexponent : (maskedExponent v : ℤ) - 126 ≤ (frexp v).2 - 2 := by
    rw [maskedExponent]
    omega
  have hwritten : |decode (encode v)| < 2 ^ (frexp v).2 / 4 := by
    rw [encode_eq_word hlarge]
    calc _ < (2 : ℚ) ^ ((maskedExponent v : ℤ) - 126) :=
          abs_decode_word_lt _ (maskedExponent_lt v) hm
      _ ≤ 2 ^ ((frexp v).2 - 2) := zpow_le_zpow_right₀ one_le_two hexponent
      _ = 2 ^ (frexp v).2 / 4 := by
        rw [zpow_sub₀ two_ne_zero]
        norm_num
  intro hrep
  obtain ⟨_, _, herror⟩ := hrep.2 hlarge
  rw [abs_eq_frexp v] at herror
  nlinarith

theorem encode_lt (v : ℚ) : encode v < 2 ^ 32 := by
  by_cases h : smallest ≤ |v|
  · obtain ⟨_, _, hm⟩ := cutFraction_bounds (ne_zero_of_large h)
    have he := maskedExponent_lt v
    rw [encode_eq_word h, word]
    split_ifs <;> omega
  · rw [encode_small (not_le.mp h)]
    decide

theorem serialise_eq {value : PyVal} (h : floatOf value = .ok v) :
    serialise value = .ok (BigEndian.ofNat 4 (encode v)) := by
  have hlt := encode_lt v
  have hmod : ((encode v : ℤ) % (256 ^ 4 : ℕ)).toNat = encode v := by omega
  rw [serialise, h, ok_bind, intToBytes]
  simp only [Bool.false_eq_true, if_false]
  rw [if_pos (by omega), BigEndian.ofInt, hmod]

/-- A number, taken as the float `v`, is written faithfully exactly below `2 ^ 129`. -/
theorem serialise_represents_iff (value : PyVal) (v : ℚ) (hfloat : floatOf value = .ok v) :
    (∀ bs, serialise value = .ok bs → bs.length = 4 ∧
      ∃ w, deserialise bs = .ok (.float w) ∧ Represents v w) ↔ |v| < 2 ^ 129 := by
  have hdecode : deserialise (BigEndian.ofNat 4 (encode v)) = .ok (.float (decode (encode v))) := by
    rw [deserialise, BigEndian.toNat_ofNat (encode_lt v)]
  have hiff : (∀ bs, serialise value = .ok bs → bs.length = 4 ∧
      ∃ w, deserialise bs = .ok (.float w) ∧ Represents v w) ↔
      Represents v (decode (encode v)) := by
    rw [serialise_eq hfloat]
    constructor
    · intro h
      obtain ⟨_, w, hw, hrep⟩ := h _ rfl
      rw [hdecode] at hw
      cases hw
      exact hrep
    · rintro hrep bs h
      cases h
      exact ⟨BigEndian.length_ofNat _ _, _, hdecode, hrep⟩
  rw [hiff]
  by_cases hlarge : smallest ≤ |v|
  · exact ⟨fun hrep => not_not.mp fun htop => not_represents_wrapped hlarge htop hrep,
      represents_cut hlarge⟩
  · have hsmall := not_le.mp hlarge
    refine iff_of_true ⟨fun _ => ?_, fun h => absurd h hlarge⟩ ?_
    · rw [encode_small hsmall]
      decide +kernel
    · exact hsmall.trans (by decide +kernel)

/-- The integer 3 is a number below the limit. -/
theorem serialise_represents_three :
    ∃ w, deserialise [0x40, 0x40, 0, 0] = .ok (.float w) ∧ Represents 3 w :=
  ((serialise_represents_iff (.int 3) 3 (by decide +kernel)).mpr (by norm_num)
    [0x40, 0x40, 0, 0] (by decide +kernel)).2

/-- `2 ^ 129` is written as the word of zero. -/
theorem serialise_wrapped : serialise (.float (2 ^ 129)) = .ok [0, 0, 0, 0] ∧
    deserialise [0, 0, 0, 0] = .ok (.float 0) ∧ ¬ Represents (2 ^ 129) 0 := by
  refine ⟨by decide +kernel, by decide +kernel, fun h => ?_⟩
  have hlarge : smallest ≤ |(2 : ℚ) ^ 129| := by decide +kernel
  have hsign := (h.2 hlarge).1
  rw [sign_zero, eq_comm, sign_eq_zero_iff] at hsign
  exact absurd hsign (by positivity)

end PyVesc.ParamDouble32Auto
