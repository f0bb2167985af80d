import PyVesc.PyNumber

/-!
# Products and quotients of Python numbers

A float has a significand of 53 bits and a bounded exponent. Arithmetic takes its operands to the
floats next to them, a tie to the even one, and its result again; only integers are multiplied
exactly. How a number becomes a float is a class, so that the same program can be followed with
doubles, the instance, or on exact numbers.
-/

namespace PyNumber

/-! ### Doubles -/

/-- A finite float holds the number. -/
def IsDouble (q : ℚ) : Prop :=
  ∃ m e : ℤ, q = m * 2 ^ e ∧ |m| < 2 ^ 53 ∧ -1074 ≤ e ∧ e ≤ 971

/-- The exponent of the last of 53 bits. -/
def lastBit (q : ℚ) : ℤ := max (Int.log 2 |q| - 52) (-1074)

/-- The number of 53 bits next to `q`, a tie to the even one. The exponent has no upper limit. -/
def nearest (q : ℚ) : ℚ := roundHalfEven (q / 2 ^ lastBit q) * 2 ^ lastBit q

theorem two_zpow_pos (e : ℤ) : (0 : ℚ) < 2 ^ e := zpow_pos two_pos e

theorem nearest_neg (q : ℚ) : nearest (-q) = -nearest q := by
  have hbit : lastBit (-q) = lastBit q := by rw [lastBit, lastBit, abs_neg]
  rw [nearest, nearest, hbit, neg_div, roundHalfEven_neg, Int.cast_neg, neg_mul]

/-- A power of two that is not below the last bit is a multiple of it. -/
theorem two_zpow_multiple {e k : ℤ} (h : e ≤ k) : ∃ n : ℤ, (2 : ℚ) ^ k = n * 2 ^ e := by
  obtain ⟨n, hn⟩ := Int.le.dest h
  refine ⟨2 ^ n, ?_⟩
  rw [← hn, zpow_add₀ two_ne_zero, zpow_natCast, mul_comm]
  push_cast
  rfl

theorem multiple_div {q d : ℚ} {n : ℤ} (hd : d = n * 2 ^ lastBit q) :
    d / 2 ^ lastBit q = n := by
  rw [hd, mul_div_cancel_right₀ _ (two_zpow_pos _).ne']

theorem nearest_le_multiple {q d : ℚ} {n : ℤ} (hd : d = n * 2 ^ lastBit q) (h : q ≤ d) :
    nearest q ≤ d := by
  have hpos := two_zpow_pos (lastBit q)
  have hround : roundHalfEven (q / 2 ^ lastBit q) ≤ n := by
    rw [← roundHalfEven_intCast n, ← multiple_div hd]
    exact roundHalfEven_mono ((div_le_div_iff_of_pos_right hpos).mpr h)
  rw [nearest, hd]
  exact mul_le_mul_of_nonneg_right (by exact_mod_cast hround) hpos.le

theorem multiple_le_nearest {q d : ℚ} {n : ℤ} (hd : d = n * 2 ^ lastBit q) (h : d ≤ q) :
    d ≤ nearest q := by
  have hpos := two_zpow_pos (lastBit q)
  have hround : n ≤ roundHalfEven (q / 2 ^ lastBit q) := by
    rw [← roundHalfEven_intCast n, ← multiple_div hd]
    exact roundHalfEven_mono ((div_le_div_iff_of_pos_right hpos).mpr h)
  rw [nearest, hd]
  exact mul_le_mul_of_nonneg_right (by exact_mod_cast hround) hpos.le

theorem nearest_multiple {q : ℚ} {n : ℤ} (hq : q = n * 2 ^ lastBit q) : nearest q = q :=
  le_antisymm (nearest_le_multiple hq le_rfl) (multiple_le_nearest hq le_rfl)

theorem lastBit_le {m e : ℤ} (hm : |m| < 2 ^ 53) (he : -1074 ≤ e) (hne : m ≠ 0) :
    lastBit (m * 2 ^ e) ≤ e := by
  have hpow := two_zpow_pos e
  have habs : |(m : ℚ) * 2 ^ e| = |(m : ℚ)| * 2 ^ e := by rw [abs_mul, abs_of_pos hpow]
  have hpos : 0 < |(m : ℚ) * 2 ^ e| := by
    rw [habs]
    exact mul_pos (abs_pos.mpr (by exact_mod_cast hne)) hpow
  have hlt : |(m : ℚ) * 2 ^ e| < (2 : ℕ) ^ (e + 53) := by
    have hm' : |(m : ℚ)| < 2 ^ 53 := by exact_mod_cast hm
    rw [habs, Nat.cast_ofNat, zpow_add₀ two_ne_zero, mul_comm (2 ^ e)]
    exact mul_lt_mul_of_pos_right hm' hpow
  have hlog := (Int.lt_zpow_iff_log_lt (by decide) hpos).mp hlt
  rw [lastBit]
  omega

/-- Rounding leaves a double as it is. -/
theorem nearest_of_isDouble {q : ℚ} (hq : IsDouble q) : nearest q = q := by
  obtain ⟨m, e, rfl, hm, he, _⟩ := hq
  by_cases hne : m = 0
  · refine nearest_multiple (n := 0) ?_
    rw [hne, Int.cast_zero, zero_mul, zero_mul]
  · obtain ⟨n, hn⟩ := two_zpow_multiple (lastBit_le hm he hne)
    refine nearest_multiple (n := m * n) ?_
    nth_rewrite 1 [hn]
    push_cast
    ring

theorem nearest_nonneg {q : ℚ} (h : 0 ≤ q) : 0 ≤ nearest q :=
  multiple_le_nearest (n := 0) (by rw [Int.cast_zero, zero_mul]) h

theorem nearest_mono_of_pos {p q : ℚ} (hp : 0 < p) (hpq : p ≤ q) : nearest p ≤ nearest q := by
  have hq : 0 < q := hp.trans_le hpq
  have hlog : Int.log 2 |p| ≤ Int.log 2 |q| := by
    rw [abs_of_pos hp, abs_of_pos hq]
    exact Int.log_mono_right hp hpq
  by_cases hbit : lastBit p = lastBit q
  · rw [nearest, nearest, hbit]
    have hpow := two_zpow_pos (lastBit q)
    have hround := roundHalfEven_mono ((div_le_div_iff_of_pos_right hpow).mpr hpq)
    exact mul_le_mul_of_nonneg_right (by exact_mod_cast hround) hpow.le
  -- a power of two lies between them
  · have hlt : Int.log 2 |p| < Int.log 2 |q| ∧ lastBit p ≤ Int.log 2 |q| ∧
        lastBit q ≤ Int.log 2 |q| := by
      simp only [lastBit] at hbit ⊢
      omega
    obtain ⟨m, hm⟩ := two_zpow_multiple hlt.2.1
    obtain ⟨n, hn⟩ := two_zpow_multiple hlt.2.2
    have hlow : p ≤ 2 ^ Int.log 2 |q| := by
      have hbelow := (Int.lt_zpow_iff_log_lt (b := 2) (by decide) (abs_pos.mpr hp.ne')).mpr hlt.1
      rw [abs_of_pos hp, Nat.cast_ofNat] at hbelow
      exact hbelow.le
    have hhigh : (2 : ℚ) ^ Int.log 2 |q| ≤ q := by
      have habove := Int.zpow_log_le_self (b := 2) (by decide) hq
      rw [abs_of_pos hq]
      rwa [Nat.cast_ofNat] at habove
    exact (nearest_le_multiple hm hlow).trans (multiple_le_nearest hn hhigh)

theorem nearest_mono : Monotone nearest := by
  intro p q hpq
  obtain hp | hp := lt_or_ge 0 p
  · exact nearest_mono_of_pos hp hpq
  · obtain hq | hq := lt_or_ge q 0
    · have hneg := nearest_mono_of_pos (neg_pos.mpr hq) (neg_le_neg hpq)
      rw [nearest_neg, nearest_neg] at hneg
      exact neg_le_neg_iff.mp hneg
    · have hneg := nearest_nonneg (neg_nonneg.mpr hp)
      rw [nearest_neg] at hneg
      exact (neg_nonneg.mp hneg).trans (nearest_nonneg hq)

theorem isDouble_two_zpow {k : ℤ} (hlow : -1074 ≤ k) (hhigh : k ≤ 971) : IsDouble (2 ^ k) :=
  ⟨1, k, by rw [Int.cast_one, one_mul], by norm_num, hlow, hhigh⟩

theorem IsDouble.neg {q : ℚ} (hq : IsDouble q) : IsDouble (-q) := by
  obtain ⟨m, e, rfl, hm, he⟩ := hq
  exact ⟨-m, e, by push_cast; ring, by rwa [abs_neg], he⟩

theorem nearest_le_of_isDouble {q d : ℚ} (hd : IsDouble d) (h : q ≤ d) : nearest q ≤ d := by
  rw [← nearest_of_isDouble hd]
  exact nearest_mono h

theorem le_nearest_of_isDouble {q d : ℚ} (hd : IsDouble d) (h : d ≤ q) : d ≤ nearest q := by
  rw [← nearest_of_isDouble hd]
  exact nearest_mono h

theorem abs_nearest_le {q d : ℚ} (hd : IsDouble d) (h : |q| ≤ d) : |nearest q| ≤ d := by
  rw [abs_le] at h ⊢
  exact ⟨le_nearest_of_isDouble hd.neg h.1, nearest_le_of_isDouble hd h.2⟩

theorem IsDouble.abs_lt_max {q : ℚ} (hq : IsDouble q) : |q| < 2 ^ 1024 := by
  obtain ⟨m, e, rfl, hm, _, he⟩ := hq
  have hm' : |(m : ℚ)| < 2 ^ 53 := by exact_mod_cast hm
  have hpow := two_zpow_pos e
  rw [abs_mul, abs_of_pos hpow]
  have hexp : (2 : ℚ) ^ e ≤ 2 ^ (971 : ℤ) := zpow_le_zpow_right₀ one_le_two he
  calc |(m : ℚ)| * 2 ^ e < 2 ^ 53 * 2 ^ e := mul_lt_mul_of_pos_right hm' hpow
    _ ≤ 2 ^ 53 * 2 ^ (971 : ℤ) := mul_le_mul_of_nonneg_left hexp (by positivity)
    _ = 2 ^ (53 + 971 : ℤ) := by rw [zpow_add₀ two_ne_zero]; rfl
    _ = 2 ^ 1024 := rfl

/-- A significand of 53 bits, or the one above. -/
theorem abs_roundHalfEven_lastBit_le (q : ℚ) : |roundHalfEven (q / 2 ^ lastBit q)| ≤ 2 ^ 53 := by
  have hpow := two_zpow_pos (lastBit q)
  have hsmall : |q / 2 ^ lastBit q| ≤ (2 ^ 53 : ℤ) := by
    have hlt := Int.lt_zpow_succ_log_self (b := 2) (by decide) |q|
    have hexp : Int.log 2 |q| + 1 ≤ lastBit q + 53 := by
      rw [lastBit]
      omega
    rw [Nat.cast_ofNat] at hlt
    have hle := hlt.le.trans (zpow_le_zpow_right₀ one_le_two hexp)
    rw [zpow_add₀ two_ne_zero, mul_comm] at hle
    rw [abs_div, abs_of_pos hpow, div_le_iff₀ hpow]
    exact_mod_cast hle
  rw [abs_le] at hsmall ⊢
  constructor
  · rw [← roundHalfEven_intCast (-2 ^ 53)]
    exact roundHalfEven_mono (by exact_mod_cast hsmall.1)
  · rw [← roundHalfEven_intCast (2 ^ 53)]
    exact roundHalfEven_mono hsmall.2

/-- Above the smallest exponent the first of the 53 bits is used. -/
theorem two_zpow_le_nearest {q : ℚ} (hq : q ≠ 0) (h : -1074 < lastBit q) :
    2 ^ (lastBit q + 52) ≤ |nearest q| := by
  have hlog : lastBit q + 52 = Int.log 2 |q| := by
    simp only [lastBit] at h ⊢
    omega
  obtain ⟨n, hn⟩ := two_zpow_multiple (show lastBit q ≤ lastBit q + 52 by omega)
  have hle : (2 : ℚ) ^ (lastBit q + 52) ≤ |q| := by
    have hself := Int.zpow_log_le_self (b := 2) (by decide) (abs_pos.mpr hq)
    rwa [Nat.cast_ofNat, ← hlog] at hself
  obtain hpos | hneg := le_total 0 q
  · rw [abs_of_nonneg hpos] at hle
    exact (multiple_le_nearest hn hle).trans (le_abs_self _)
  · rw [abs_of_nonpos hneg] at hle
    have hbit : lastBit (-q) = lastBit q := by rw [lastBit, lastBit, abs_neg]
    rw [← abs_neg, ← nearest_neg]
    rw [← hbit] at hn hle ⊢
    exact (multiple_le_nearest hn hle).trans (le_abs_self _)

/-- What a finite number is rounded to is a double, unless it is too large. -/
theorem isDouble_nearest {q : ℚ} (h : |nearest q| < 2 ^ 1024) : IsDouble (nearest q) := by
  by_cases hq : q = 0
  · rw [hq, nearest, zero_div, ← Int.cast_zero, roundHalfEven_intCast, Int.cast_zero, zero_mul]
    exact ⟨0, 0, by norm_num, by norm_num, by norm_num, by norm_num⟩
  have hmin : -1074 ≤ lastBit q := le_max_right _ _
  have hround := abs_roundHalfEven_lastBit_le q
  have hmax : lastBit q ≤ 971 := by
    by_cases hbit : -1074 < lastBit q
    · have hlt := (two_zpow_le_nearest hq hbit).trans_lt h
      rw [← zpow_natCast, zpow_lt_zpow_iff_right₀ one_lt_two] at hlt
      push_cast at hlt
      omega
    · omega
  obtain hlt | heq := lt_or_eq_of_le hround
  · exact ⟨_, _, rfl, hlt, hmin, hmax⟩
  · have hlt : lastBit q < 971 := by
      have hpow := two_zpow_pos (lastBit q)
      have hcast : |(roundHalfEven (q / 2 ^ lastBit q) : ℚ)| = 2 ^ (53 : ℤ) := by
        exact_mod_cast congrArg (Int.cast : ℤ → ℚ) heq
      rw [nearest, abs_mul, abs_of_pos hpow, hcast, ← zpow_add₀ two_ne_zero, ← zpow_natCast,
        zpow_lt_zpow_iff_right₀ one_lt_two] at h
      push_cast at h
      omega
    obtain ⟨half, hhalf⟩ : (2 : ℤ) ∣ roundHalfEven (q / 2 ^ lastBit q) := by
      rw [← dvd_abs, heq]
      exact ⟨2 ^ 52, by norm_num⟩
    refine ⟨half, lastBit q + 1, ?_, ?_, by omega, by omega⟩
    · rw [nearest, hhalf, zpow_add_one₀ two_ne_zero]
      push_cast
      ring
    · rw [hhalf, abs_mul] at heq
      norm_num at heq ⊢
      omega

theorem isDouble_iff {q : ℚ} : IsDouble q ↔ nearest q = q ∧ |q| < 2 ^ 1024 := by
  constructor
  · exact fun hq => ⟨nearest_of_isDouble hq, hq.abs_lt_max⟩
  · rintro ⟨hq, hlt⟩
    rw [← hq] at hlt ⊢
    exact isDouble_nearest hlt

instance : DecidablePred IsDouble := fun _ => decidable_of_iff _ isDouble_iff.symm

theorem isDouble_intCast {z : ℤ} (h : |z| ≤ 2 ^ 53) : IsDouble z := by
  obtain hlt | heq := lt_or_eq_of_le h
  · exact ⟨z, 0, by rw [zpow_zero, mul_one], hlt, by omega, by omega⟩
  · obtain rfl | rfl := eq_or_eq_neg_of_abs_eq heq
    · exact ⟨1, 53, by norm_num, by norm_num, by omega, by omega⟩
    · exact ⟨-1, 53, by norm_num, by norm_num, by omega, by omega⟩

/-- No double lies between 1 and its neighbours. -/
theorem IsDouble.spaced {s : ℚ} (hs : IsDouble s) :
    s ≤ 1 - 2 ^ (-53 : ℤ) ∨ s = 1 ∨ 1 + 2 ^ (-52 : ℤ) ≤ s := by
  obtain ⟨m, e, rfl, hm, -, -⟩ := hs
  rw [abs_lt] at hm
  by_cases he : -52 ≤ e
  · obtain ⟨n, hn⟩ := two_zpow_multiple he
    have hs : (m : ℚ) * 2 ^ e = ((m * n : ℤ) : ℚ) * 2 ^ (-52 : ℤ) := by
      rw [hn]
      push_cast
      ring
    rw [hs]
    obtain hlt | heq | hgt := lt_trichotomy (m * n) (2 ^ 52)
    · left
      have hle : ((m * n : ℤ) : ℚ) ≤ 2 ^ 52 - 1 := by exact_mod_cast Int.le_sub_one_of_lt hlt
      norm_num at hle ⊢
      linarith
    · right
      left
      rw [heq]
      norm_num
    · right
      right
      have hle : (2 ^ 52 + 1 : ℚ) ≤ ((m * n : ℤ) : ℚ) := by exact_mod_cast hgt
      norm_num at hle ⊢
      linarith
  · left
    have hpow := two_zpow_pos e
    have hexp : (2 : ℚ) ^ e ≤ 2 ^ (-53 : ℤ) := zpow_le_zpow_right₀ one_le_two (by omega)
    have hm' : (m : ℚ) ≤ 2 ^ 53 - 1 := by exact_mod_cast Int.le_sub_one_of_lt hm.2
    calc (m : ℚ) * 2 ^ e ≤ (2 ^ 53 - 1) * 2 ^ e := mul_le_mul_of_nonneg_right hm' hpow.le
      _ ≤ (2 ^ 53 - 1) * 2 ^ (-53 : ℤ) := mul_le_mul_of_nonneg_left hexp (by norm_num)
      _ = 1 - 2 ^ (-53 : ℤ) := by norm_num

/-! ### Arithmetic -/

/-- How a number becomes a float, and when it is too large for one. -/
class FloatArithmetic where
  rounded : ℚ → ℚ
  overflows : ℚ → Bool

instance doubles : FloatArithmetic := ⟨nearest, fun q => 2 ^ 1024 ≤ |q|⟩

/-- Exact numbers in the place of floats. -/
@[reducible]
def exactNumbers : FloatArithmetic := ⟨id, fun _ => false⟩

section Arithmetic
variable [FloatArithmetic]
open FloatArithmetic

/-- A number as a float, unless it is too large. -/
def asFloat (q : ℚ) : Option ℚ := if overflows (rounded q) then none else some (rounded q)

def floatProduct (p q : ℚ) : Option ℚ := do
  let p ← asFloat p
  let q ← asFloat q
  asFloat (p * q)

/-- `v * s`, where `s` is an `int` if it is whole and otherwise a float. It overflows, or is no
number, at `none`. -/
def product (v : PyVal) (s : ℚ) : Option ℚ :=
  match v.integer with
  | some z => if s.isInt then some (z * s) else floatProduct z s
  | none => v.number.bind fun q => floatProduct q s

/-- `v / s` for such an `s`. A quotient that is too large for a float is left as it is. -/
def quotient (v : PyVal) (s : ℚ) : Option ℚ :=
  match v.integer with
  | some z => some (if s.isInt then rounded (z / s) else rounded (rounded z / rounded s))
  | none => v.number.map fun q => rounded (rounded q / rounded s)

theorem product_of_number_none {v : PyVal} (h : v.number = none) (s : ℚ) : product v s = none := by
  cases v with
  | int z => cases h
  | float q => cases h
  | bool b => cases h
  | bytes bs => rfl
  | str t => rfl

end Arithmetic

theorem product_exactNumbers (v : PyVal) (s : ℚ) :
    @product exactNumbers v s = v.number.map fun q => q * s := by
  cases v with
  | int z => exact ite_self _
  | float q => rfl
  | bool b => cases b <;> exact ite_self _
  | bytes bs => rfl
  | str t => rfl

theorem asFloat_of_isDouble {q : ℚ} (hq : IsDouble q) : asFloat q = some q := by
  have hround : FloatArithmetic.rounded q = q := nearest_of_isDouble hq
  have hfinite : ¬ FloatArithmetic.overflows q = true := by
    change ¬ decide (2 ^ 1024 ≤ |q|) = true
    rw [decide_eq_true_eq]
    exact not_le.mpr hq.abs_lt_max
  rw [asFloat, hround, if_neg hfinite]

theorem asFloat_eq_some {q : ℚ} (h : |nearest q| < 2 ^ 1024) : asFloat q = some (nearest q) := by
  have hfinite : ¬ FloatArithmetic.overflows (nearest q) = true := by
    change ¬ decide (2 ^ 1024 ≤ |nearest q|) = true
    rw [decide_eq_true_eq]
    exact not_le.mpr h
  exact if_neg hfinite

/-- Doubles hold the value and, unless an integer is scaled by an integer, the scalar and the
product as well. -/
def Held (v : PyVal) (s : ℚ) : Prop :=
  ∃ q, v.number = some q ∧ IsDouble q ∧
    (v.integer ≠ none ∧ s.isInt ∨ IsDouble s ∧ IsDouble (q * s))

theorem product_held {v : PyVal} {s q : ℚ} (h : Held v s) (hq : v.number = some q) :
    product v s = some (q * s) := by
  obtain ⟨q', hq', hdouble, hheld⟩ := h
  rw [hq] at hq'
  cases hq'
  have hfloat (hs : IsDouble s ∧ IsDouble (q * s)) : floatProduct q s = some (q * s) := by
    rw [floatProduct, asFloat_of_isDouble hdouble, asFloat_of_isDouble hs.1]
    exact asFloat_of_isDouble hs.2
  rw [product]
  cases hv : v.integer with
  | none =>
    rw [hq]
    exact hfloat (hheld.resolve_left fun h => h.1 hv)
  | some z =>
    rw [PyVal.number_integer hv] at hq
    cases hq
    dsimp only
    split_ifs with hint
    · rfl
    · exact hfloat (hheld.resolve_left fun h => hint h.2)

/-- Dividing takes a held number back. -/
theorem quotient_held {v : PyVal} {s q : ℚ} {z : ℤ} (h : Held v s) (hq : v.number = some q)
    (hs : s ≠ 0) (hz : q * s = z) : quotient (.int z) s = some q := by
  obtain ⟨q', hq', hdouble, hheld⟩ := h
  rw [hq] at hq'
  cases hq'
  have hback : (z : ℚ) / s = q := by rw [← hz, mul_div_cancel_right₀ _ hs]
  change some (if s.isInt then nearest (z / s) else nearest (nearest z / nearest s)) = _
  split_ifs with hint
  · rw [hback, nearest_of_isDouble hdouble]
  · obtain ⟨hsd, hzd⟩ := hheld.resolve_left fun h => hint h.2
    rw [hz] at hzd
    rw [nearest_of_isDouble hzd, nearest_of_isDouble hsd, hback, nearest_of_isDouble hdouble]

theorem one_le_abs_of_isInt {s : ℚ} (hint : s.isInt = true) (hs : s ≠ 0) : 1 ≤ |s| := by
  have hnum : s.num ≠ 0 := Rat.num_ne_zero.mpr hs
  rw [Rat.eq_num_of_isInt hint]
  exact_mod_cast Int.one_le_abs hnum

/-- An integer scalar, and a scaled value of at most 53 bits: all that is asked of the value is that
it is an integer, or a float as the scalar can be. -/
theorem held_of_le {v : PyVal} {s q : ℚ} {z : ℤ} (hq : v.number = some q) (hs : s ≠ 0)
    (hint : s.isInt = true) (hv : v.integer ≠ none ∨ IsDouble q ∧ IsDouble s) (hz : q * s = z)
    (hle : |z| ≤ 2 ^ 53) : Held v s := by
  obtain hinteger | ⟨hqd, hsd⟩ := hv
  · obtain ⟨k, hk⟩ := Option.ne_none_iff_exists'.mp hinteger
    rw [PyVal.number_integer hk] at hq
    cases hq
    have hone := one_le_abs_of_isInt hint hs
    have habs : |(k : ℚ)| ≤ |(z : ℚ)| := by
      rw [← hz, abs_mul]
      exact le_mul_of_one_le_right (abs_nonneg _) hone
    have hk53 : |k| ≤ 2 ^ 53 := (by exact_mod_cast habs : |k| ≤ |z|).trans hle
    exact ⟨k, PyVal.number_integer hk, isDouble_intCast hk53, Or.inl ⟨hinteger, hint⟩⟩
  · refine ⟨q, hq, hqd, Or.inr ⟨hsd, ?_⟩⟩
    rw [hz]
    exact isDouble_intCast hle

/-! ### Scalars -/

/-- A scalar as it can be written, whose quotients of 64 bits stay far from the ends of the range of
a float. -/
structure Moderate (s : ℚ) : Prop where
  kind : s.isInt = true ∨ IsDouble s
  low : 2 ^ (-900 : ℤ) ≤ |s|
  high : |s| < 2 ^ (900 : ℤ)

/-- The integers of 64 bits are moderate. -/
theorem moderate_of_isInt {s : ℚ} (hint : s.isInt = true) (hne : s ≠ 0) (hle : |s| ≤ 2 ^ (64 : ℤ)) :
    Moderate s := by
  refine ⟨Or.inl hint, ?_, hle.trans_lt (zpow_lt_zpow_right₀ one_lt_two (by decide))⟩
  exact (zpow_le_one_of_nonpos₀ one_le_two (by decide)).trans (one_le_abs_of_isInt hint hne)

/-- The power of two that the scalar takes to a number from 1 to 2. -/
def unitFor (s : ℚ) : ℚ := (if 0 < s then 1 else -1) * 2 ^ (-Int.log 2 |s|)

namespace Moderate

variable {s : ℚ}

theorem pos_abs (hs : Moderate s) : 0 < |s| := (two_zpow_pos _).trans_le hs.low

theorem log_bounds (hs : Moderate s) : -900 ≤ Int.log 2 |s| ∧ Int.log 2 |s| < 900 := by
  constructor
  · apply (Int.zpow_le_iff_le_log (by decide) hs.pos_abs).mp
    rw [Nat.cast_ofNat]
    exact hs.low
  · apply (Int.lt_zpow_iff_log_lt (by decide) hs.pos_abs).mp
    rw [Nat.cast_ofNat]
    exact hs.high

theorem isDouble_unitFor (hs : Moderate s) : IsDouble (unitFor s) := by
  obtain ⟨hlow, hhigh⟩ := hs.log_bounds
  have hpow : IsDouble (2 ^ (-Int.log 2 |s|)) := isDouble_two_zpow (by omega) (by omega)
  rw [unitFor]
  split_ifs
  · rwa [one_mul]
  · rw [neg_one_mul]
    exact hpow.neg

/-- As a float the scalar is between the same powers of two. -/
theorem nearest_abs_bounds (hs : Moderate s) :
    2 ^ Int.log 2 |s| ≤ nearest |s| ∧ nearest |s| ≤ 2 ^ (Int.log 2 |s| + 1) := by
  obtain ⟨hlow, hhigh⟩ := hs.log_bounds
  have hself := Int.zpow_log_le_self (b := 2) (by decide) hs.pos_abs
  have hsucc := Int.lt_zpow_succ_log_self (b := 2) (by decide) |s|
  rw [Nat.cast_ofNat] at hself hsucc
  exact ⟨le_nearest_of_isDouble (isDouble_two_zpow (by omega) (by omega)) hself,
    nearest_le_of_isDouble (isDouble_two_zpow (by omega) (by omega)) hsucc.le⟩

theorem unitFor_mul_nearest (hs : Moderate s) :
    unitFor s * nearest s = 2 ^ (-Int.log 2 |s|) * nearest |s| := by
  rw [unitFor]
  split_ifs with hpos
  · rw [abs_of_pos hpos, one_mul]
  · have hneg : s < 0 := lt_of_le_of_ne (not_lt.mp hpos) (abs_pos.mp hs.pos_abs)
    rw [abs_of_neg hneg, nearest_neg]
    ring

theorem product_unitFor (hs : Moderate s) :
    ∃ p, product (.float (unitFor s)) s = some p ∧ 1 ≤ p ∧ p ≤ 2 := by
  obtain ⟨hlow, hhigh⟩ := hs.nearest_abs_bounds
  obtain ⟨_, hlog⟩ := hs.log_bounds
  have hpow := two_zpow_pos (Int.log 2 |s|)
  have hmul : 1 ≤ unitFor s * nearest s ∧ unitFor s * nearest s ≤ 2 := by
    rw [hs.unitFor_mul_nearest, zpow_neg, inv_mul_eq_div, one_le_div hpow, div_le_iff₀ hpow]
    rw [zpow_add_one₀ two_ne_zero, mul_comm] at hhigh
    exact ⟨hlow, hhigh⟩
  have hmax : IsDouble (2 ^ (900 : ℤ)) := isDouble_two_zpow (by omega) (by omega)
  have hfloat : |nearest s| < 2 ^ 1024 := by
    have hlt := hmax.abs_lt_max
    rw [abs_of_pos (two_zpow_pos _)] at hlt
    exact (abs_nearest_le hmax hs.high.le).trans_lt hlt
  have hone : IsDouble 1 ∧ IsDouble 2 := by decide +kernel
  have hlow' := le_nearest_of_isDouble hone.1 hmul.1
  have hhigh' := nearest_le_of_isDouble hone.2 hmul.2
  have hproduct : |nearest (unitFor s * nearest s)| < 2 ^ 1024 := by
    have hlt := hone.2.abs_lt_max
    rw [abs_two] at hlt
    rw [abs_of_nonneg (zero_le_one.trans hlow')]
    exact hhigh'.trans_lt hlt
  refine ⟨_, ?_, hlow', hhigh'⟩
  change floatProduct (unitFor s) s = _
  rw [floatProduct, asFloat_of_isDouble hs.isDouble_unitFor, asFloat_eq_some hfloat]
  exact asFloat_eq_some hproduct

end Moderate

theorem nearest_div_ne {z s : ℚ} (hz : z = 1 ∨ z = 2) (hs : s ≠ 0) (hone : s ≠ 1)
    (hkind : s.isInt = true ∨ IsDouble s) : nearest (z / s) ≠ z := by
  have hdoubles : IsDouble 0 ∧ IsDouble (z / 2) ∧ IsDouble (z * (1 - 2 ^ (-53 : ℤ))) := by
    obtain rfl | rfl := hz <;> decide +kernel
  have hzpos : 0 < z := by obtain rfl | rfl := hz <;> norm_num
  have hup : z < nearest (z * (1 + 2 ^ (-53 : ℤ) + 2 ^ (-106 : ℤ))) := by
    obtain rfl | rfl := hz <;> decide +kernel
  obtain hneg | hpos := lt_or_gt_of_ne hs
  · have hle := nearest_le_of_isDouble hdoubles.1 (div_nonpos_of_nonneg_of_nonpos hzpos.le hneg.le)
    linarith
  by_cases hint : s.isInt = true
  · have htwo : 2 ≤ s := by
      have hnum := Rat.eq_num_of_isInt hint
      rw [hnum] at hpos hone ⊢
      have hpos' : 0 < s.num := by exact_mod_cast hpos
      have hone' : s.num ≠ 1 := by exact_mod_cast hone
      exact_mod_cast (by omega : 2 ≤ s.num)
    have hle := nearest_le_of_isDouble hdoubles.2.1
      (div_le_div_of_nonneg_left hzpos.le two_pos htwo)
    linarith
  · obtain hlow | heq | hhigh := (hkind.resolve_left hint).spaced
    · have hbelow : z * (1 + 2 ^ (-53 : ℤ) + 2 ^ (-106 : ℤ)) ≤ z / s := by
        rw [le_div_iff₀ hpos, mul_assoc]
        apply mul_le_of_le_one_right hzpos.le
        refine (mul_le_mul_of_nonneg_left hlow (by norm_num)).trans ?_
        norm_num
      exact (hup.trans_le (nearest_mono hbelow)).ne'
    · exact absurd heq hone
    · have habove : z / s ≤ z * (1 - 2 ^ (-53 : ℤ)) := by
        rw [div_le_iff₀ hpos, mul_assoc]
        apply le_mul_of_one_le_right hzpos.le
        refine le_trans ?_ (mul_le_mul_of_nonneg_left hhigh (by norm_num))
        norm_num
      have hle := nearest_le_of_isDouble hdoubles.2.2 habove
      norm_num at hle ⊢
      linarith

/-- No scalar but 1 divides a 1 or a 2 to itself. -/
theorem quotient_ne {z : ℤ} {s : ℚ} (hz : z = 1 ∨ z = 2) (hs : s ≠ 0) (hone : s ≠ 1)
    (hkind : s.isInt = true ∨ IsDouble s) : quotient (.int z) s ≠ some (z : ℚ) := by
  intro h
  have hz' : (z : ℚ) = 1 ∨ (z : ℚ) = 2 := by exact_mod_cast hz
  apply nearest_div_ne hz' hs hone hkind
  change some (if s.isInt then nearest (z / s) else nearest (nearest z / nearest s)) = _ at h
  have heq := Option.some.inj h
  split_ifs at heq with hint
  · exact heq
  · have hzd : IsDouble z := by obtain rfl | rfl := hz <;> decide +kernel
    rwa [nearest_of_isDouble hzd, nearest_of_isDouble (hkind.resolve_left hint)] at heq

end PyNumber
