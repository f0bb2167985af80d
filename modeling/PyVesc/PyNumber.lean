import PyVesc.StructFormat
import Mathlib.Data.Int.Log

/-!
# Numbers of the Python standard library

`int()`, `round()`, `math.frexp` and `math.ldexp` on exact numbers. A float is a rational; an
integer that is used as a float is rounded to 53 bits.
-/

/-- A value as a number, if it is one. -/
def PyVal.number : PyVal → Option ℚ
  | .int z => some z
  | .float q => some q
  | .bool b => some (if b then 1 else 0)
  | .bytes _ => none
  | .str _ => none

/-- A value as an integer, if it is one. A `bool` is. -/
def PyVal.integer : PyVal → Option ℤ
  | .int z => some z
  | .bool b => some (if b then 1 else 0)
  | _ => none

theorem PyVal.number_integer {v : PyVal} {z : ℤ} (hv : v.integer = some z) :
    v.number = some (z : ℚ) := by
  cases v with
  | int _ => cases hv; rfl
  | bool b => cases hv; cases b <;> rfl
  | float _ => cases hv
  | bytes _ => cases hv
  | str _ => cases hv

namespace PyNumber

/-- `int(q)`, towards zero. -/
def truncate (q : ℚ) : ℤ := q.num.tdiv q.den

/-- `round(q)`, a tie to the even neighbour. -/
def roundHalfEven (q : ℚ) : ℤ :=
  if q - ⌊q⌋ < 1 / 2 then ⌊q⌋
  else if 1 / 2 < q - ⌊q⌋ then ⌊q⌋ + 1
  else if ⌊q⌋ % 2 = 0 then ⌊q⌋ else ⌊q⌋ + 1

/-- The number is the first component times two to the second, the former between a half and one. -/
def frexp (q : ℚ) : ℚ × ℤ :=
  if q = 0 then (0, 0) else (q / 2 ^ (Int.log 2 |q| + 1), Int.log 2 |q| + 1)

def ldexp (f : ℚ) (e : ℤ) : ℚ := f * 2 ^ e

/-- The float next to an integer; `none` if it is too large. -/
def floatOfInt (z : ℤ) : Option ℚ :=
  let unit : ℚ := 2 ^ (Nat.log 2 z.natAbs - 52)
  let q := roundHalfEven (z / unit) * unit
  if |q| < 2 ^ 1024 then some q else none

theorem truncate_intCast (z : ℤ) : truncate z = z := by
  rw [truncate, Rat.num_intCast, Rat.den_intCast, Nat.cast_one, Int.tdiv_one]

theorem roundHalfEven_intCast (z : ℤ) : roundHalfEven z = z := by
  rw [roundHalfEven, Int.floor_intCast, sub_self, if_pos (by norm_num)]

theorem abs_roundHalfEven_sub_le (q : ℚ) : |(roundHalfEven q : ℚ) - q| ≤ 1 / 2 := by
  have hfract := Int.self_sub_floor q
  have hlow := Int.fract_nonneg q
  have hhigh := Int.fract_lt_one q
  rw [roundHalfEven, abs_le]
  split_ifs with hdown hup heven <;> push_cast <;> constructor <;> linarith

theorem roundHalfEven_mono : Monotone roundHalfEven := by
  intro p q hpq
  by_contra hlt
  have hstep : roundHalfEven q + 1 ≤ roundHalfEven p := by omega
  have hcast : (roundHalfEven q : ℚ) + 1 ≤ roundHalfEven p := by exact_mod_cast hstep
  have hp := abs_le.mp (abs_roundHalfEven_sub_le p)
  have hq := abs_le.mp (abs_roundHalfEven_sub_le q)
  have heq : p = q := by linarith
  rw [heq] at hlt
  exact hlt le_rfl

theorem truncate_of_nonneg {q : ℚ} (h : 0 ≤ q) : truncate q = ⌊q⌋ := by
  rw [truncate, Rat.floor_def', Int.tdiv_eq_ediv_of_nonneg (Rat.num_nonneg.mpr h)]

theorem truncate_neg (q : ℚ) : truncate (-q) = -truncate q := by
  rw [truncate, truncate, Rat.neg_num, Rat.neg_den, Int.neg_tdiv]

theorem roundHalfEven_neg (q : ℚ) : roundHalfEven (-q) = -roundHalfEven q := by
  by_cases hq : (⌊q⌋ : ℚ) = q
  · rw [← hq, ← Int.cast_neg, roundHalfEven_intCast, roundHalfEven_intCast]
  · have hlt : (⌊q⌋ : ℚ) < q := lt_of_le_of_ne (Int.floor_le q) hq
    have hceil : ⌈q⌉ = ⌊q⌋ + 1 := by
      rw [Int.ceil_eq_iff]
      push_cast
      exact ⟨by linarith, (Int.lt_floor_add_one q).le⟩
    have hfloor : ⌊-q⌋ = -(⌊q⌋ + 1) := by rw [Int.floor_neg, hceil]
    have hrest : -q - ⌊-q⌋ = 1 - (q - ⌊q⌋) := by
      rw [hfloor]
      push_cast
      ring
    rw [roundHalfEven, roundHalfEven, hrest, hfloor]
    obtain hlow | htie | hhigh := lt_trichotomy (q - ⌊q⌋) (1 / 2)
    · rw [if_neg (by linarith), if_pos (by linarith), if_pos hlow]
      ring
    · have hhalf : (1 : ℚ) - 1 / 2 = 1 / 2 := by norm_num
      rw [htie, hhalf, if_neg (lt_irrefl _), if_neg (lt_irrefl _), if_neg (lt_irrefl _),
        if_neg (lt_irrefl _)]
      by_cases heven : ⌊q⌋ % 2 = 0
      · rw [if_neg (by omega), if_pos heven]
        ring
      · rw [if_pos (by omega), if_neg heven]
    · rw [if_pos (by linarith), if_neg (by linarith), if_pos hhigh]

/-- `round` takes the number to the integer next to it on the side of zero. -/
def RoundsDown (q : ℚ) : Prop :=
  Int.fract |q| < 1 / 2 ∨ Int.fract |q| = 1 / 2 ∧ Even ⌊|q|⌋

theorem roundHalfEven_eq_floor_iff (q : ℚ) :
    roundHalfEven q = ⌊q⌋ ↔ Int.fract q < 1 / 2 ∨ Int.fract q = 1 / 2 ∧ Even ⌊q⌋ := by
  rw [roundHalfEven, Int.self_sub_floor, Int.even_iff]
  split_ifs with hlow hhigh heven
  · exact iff_of_true rfl (Or.inl hlow)
  · refine iff_of_false (by omega) ?_
    rintro (h | ⟨h, _⟩) <;> linarith
  · exact iff_of_true rfl (Or.inr ⟨le_antisymm (not_lt.mp hhigh) (not_lt.mp hlow), heven⟩)
  · refine iff_of_false (by omega) ?_
    rintro (h | ⟨_, h⟩)
    · exact hlow h
    · exact heven h

theorem truncate_eq_roundHalfEven_iff (q : ℚ) : truncate q = roundHalfEven q ↔ RoundsDown q := by
  obtain h | h := le_total 0 q
  · rw [RoundsDown, abs_of_nonneg h, truncate_of_nonneg h, ← roundHalfEven_eq_floor_iff, eq_comm]
  · have hneg : 0 ≤ -q := neg_nonneg.mpr h
    rw [RoundsDown, abs_of_nonpos h, ← roundHalfEven_eq_floor_iff, ← truncate_of_nonneg hneg,
      truncate_neg, roundHalfEven_neg, neg_inj, eq_comm]

theorem frexp_of_ne_zero {q : ℚ} (h : q ≠ 0) :
    frexp q = (q / 2 ^ (Int.log 2 |q| + 1), Int.log 2 |q| + 1) := if_neg h

theorem ldexp_frexp (q : ℚ) : ldexp (frexp q).1 (frexp q).2 = q := by
  by_cases hq : q = 0
  · rw [hq]
    exact zero_mul _
  · rw [frexp_of_ne_zero hq]
    exact div_mul_cancel₀ q (zpow_ne_zero _ two_ne_zero)

theorem abs_ldexp (f : ℚ) (e : ℤ) : |ldexp f e| = |f| * 2 ^ e := by
  have hpow : (0 : ℚ) < 2 ^ e := zpow_pos two_pos e
  rw [ldexp, abs_mul, abs_of_pos hpow]

theorem frexp_bounds {q : ℚ} (h : q ≠ 0) : 1 / 2 ≤ |(frexp q).1| ∧ |(frexp q).1| < 1 := by
  have hpos : 0 < |q| := abs_pos.mpr h
  have hlow : (2 : ℚ) ^ Int.log 2 |q| ≤ |q| := Int.zpow_log_le_self one_lt_two hpos
  have hhigh : |q| < (2 : ℚ) ^ (Int.log 2 |q| + 1) := Int.lt_zpow_succ_log_self one_lt_two |q|
  have hpow : (0 : ℚ) < 2 ^ (Int.log 2 |q| + 1) := zpow_pos two_pos _
  rw [frexp_of_ne_zero h]
  dsimp only
  rw [abs_div, abs_of_pos hpow, le_div_iff₀ hpow, div_lt_one hpow]
  refine ⟨?_, hhigh⟩
  rw [zpow_add_one₀ two_ne_zero]
  linarith

theorem frexp_ldexp {f : ℚ} (hf : 1 / 2 ≤ |f|) (hf' : |f| < 1) (e : ℤ) :
    frexp (ldexp f e) = (f, e) := by
  have hpow : (0 : ℚ) < 2 ^ e := by positivity
  have hne : f ≠ 0 := abs_pos.mp (by linarith)
  have habs : |ldexp f e| = |f| * 2 ^ e := by rw [ldexp, abs_mul, abs_of_pos hpow]
  have hpos : 0 < |ldexp f e| := by
    rw [habs]
    exact mul_pos (by linarith) hpow
  have hlow : e - 1 ≤ Int.log 2 |ldexp f e| := by
    rw [← Int.zpow_le_iff_le_log (by decide) hpos, habs, Nat.cast_ofNat, zpow_sub_one₀ two_ne_zero]
    nlinarith
  have hhigh : Int.log 2 |ldexp f e| < e := by
    rw [← Int.lt_zpow_iff_log_lt (by decide) hpos, habs, Nat.cast_ofNat]
    nlinarith
  have hlog : Int.log 2 |ldexp f e| + 1 = e := by omega
  rw [frexp, if_neg (abs_pos.mp hpos), hlog, ldexp, mul_div_cancel_right₀ f hpow.ne']

end PyNumber
