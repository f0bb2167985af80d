import Mathlib.Tactic

/-!
# Big-endian numbers

The value of a byte string read most significant byte first, and the bytes of a number at a fixed
width. The two are inverse on byte strings of that width and on numbers below `256 ^ w`. `toInt` and
`ofInt` are the same for integers, where a signed number is in two's complement.
-/

namespace BigEndian

def toNat (bs : List UInt8) : ℕ := bs.foldl (fun acc b => acc * 256 + b.toNat) 0

def ofNat : ℕ → ℕ → List UInt8
  | 0, _ => []
  | w + 1, n => ofNat w (n / 256) ++ [UInt8.ofNat (n % 256)]

@[simp] theorem toNat_nil : toNat [] = 0 := rfl

@[simp] theorem toNat_singleton (a : UInt8) : toNat [a] = a.toNat := by simp [toNat]

@[simp] theorem toNat_pair (a b : UInt8) : toNat [a, b] = a.toNat * 256 + b.toNat := by
  simp [toNat]

theorem toNat_append_singleton (bs : List UInt8) (b : UInt8) :
    toNat (bs ++ [b]) = toNat bs * 256 + b.toNat := by
  simp only [toNat, List.foldl_append, List.foldl_cons, List.foldl_nil]

theorem toNat_lt (bs : List UInt8) : toNat bs < 256 ^ bs.length := by
  induction bs using List.reverseRecOn with
  | nil => simp
  | append_singleton bs b ih =>
    have hb := b.toNat_lt
    rw [toNat_append_singleton, List.length_append, List.length_singleton, pow_succ]
    omega

@[simp] theorem length_ofNat (w n : ℕ) : (ofNat w n).length = w := by
  induction w generalizing n with
  | zero => rfl
  | succ w ih => rw [ofNat, List.length_append, ih, List.length_singleton]

theorem toNat_ofNat {w n : ℕ} (hn : n < 256 ^ w) : toNat (ofNat w n) = n := by
  induction w generalizing n with
  | zero =>
    have h0 : n = 0 := by simpa using hn
    rw [h0]
    rfl
  | succ w ih =>
    have hdiv : n / 256 < 256 ^ w := by
      rw [pow_succ] at hn
      exact Nat.div_lt_of_lt_mul (by omega)
    have hmod : (UInt8.ofNat (n % 256)).toNat = n % 256 :=
      UInt8.toNat_ofNat_of_lt' (Nat.mod_lt n (by decide))
    rw [ofNat, toNat_append_singleton, ih hdiv, hmod]
    omega

theorem ofNat_toNat (bs : List UInt8) : ofNat bs.length (toNat bs) = bs := by
  induction bs using List.reverseRecOn with
  | nil => rfl
  | append_singleton bs b ih =>
    have hb := b.toNat_lt
    have hdiv : (toNat bs * 256 + b.toNat) / 256 = toNat bs := by omega
    have hmod : (toNat bs * 256 + b.toNat) % 256 = b.toNat := by omega
    rw [toNat_append_singleton, List.length_append, List.length_singleton, ofNat, hdiv, hmod, ih,
      UInt8.ofNat_toNat]

def toInt (signed : Bool) (bs : List UInt8) : ℤ :=
  if signed ∧ 256 ^ bs.length ≤ 2 * toNat bs then toNat bs - (256 ^ bs.length : ℕ) else toNat bs

def ofInt (w : ℕ) (z : ℤ) : List UInt8 := ofNat w (z % (256 ^ w : ℕ)).toNat

@[simp] theorem length_ofInt (w : ℕ) (z : ℤ) : (ofInt w z).length = w := length_ofNat w _

theorem ofInt_toInt (signed : Bool) (bs : List UInt8) : ofInt bs.length (toInt signed bs) = bs := by
  have hlt := toNat_lt bs
  have hmod : toInt signed bs % (256 ^ bs.length : ℕ) = toNat bs := by
    unfold toInt
    split_ifs
    · rw [Int.sub_emod_right]
      exact Int.emod_eq_of_lt (Int.natCast_nonneg _) (by exact_mod_cast hlt)
    · exact Int.emod_eq_of_lt (Int.natCast_nonneg _) (by exact_mod_cast hlt)
  rw [ofInt, hmod, Int.toNat_natCast, ofNat_toNat]

theorem toInt_unsigned (bs : List UInt8) : toInt false bs = toNat bs := if_neg (by simp)

/-- The values of `w` bytes in two's complement. -/
theorem toInt_signed_bounds (bs : List UInt8) :
    -(256 ^ bs.length : ℕ) ≤ 2 * toInt true bs ∧ 2 * toInt true bs < (256 ^ bs.length : ℕ) := by
  have hlt := toNat_lt bs
  unfold toInt
  split_ifs with h
  · obtain ⟨_, hle⟩ := h
    omega
  · rw [not_and] at h
    have hsmall := h rfl
    omega

/-- The integers that `w` bytes hold come back from them. -/
theorem toInt_ofInt {signed : Bool} {w : ℕ} {z : ℤ}
    (hlow : (if signed then -((256 ^ w : ℕ) : ℤ) else 0) ≤ 2 * z)
    (hhigh : (if signed then 2 * z else z) < (256 ^ w : ℕ)) : toInt signed (ofInt w z) = z := by
  have hpos : 0 < 256 ^ w := by positivity
  have hvalue : (toNat (ofInt w z) : ℤ) = z % (256 ^ w : ℕ) := by
    have hnonneg := Int.emod_nonneg z (Int.natCast_ne_zero.mpr hpos.ne')
    have hlt := Int.emod_lt_of_pos z (Int.natCast_pos.mpr hpos)
    rw [ofInt, toNat_ofNat (by omega), Int.toNat_of_nonneg hnonneg]
  rw [toInt, length_ofInt]
  by_cases hneg : z < 0
  · have hsigned : signed = true := by
      by_contra h
      rw [if_neg h] at hlow
      omega
    rw [if_pos hsigned] at hlow
    have hmod : z % (256 ^ w : ℕ) = z + (256 ^ w : ℕ) := by
      rw [← Int.add_emod_right]
      exact Int.emod_eq_of_lt (by omega) (by omega)
    rw [if_pos ⟨hsigned, by omega⟩, hvalue, hmod, add_sub_cancel_right]
  · have hmod : z % (256 ^ w : ℕ) = z := by
      apply Int.emod_eq_of_lt (by omega)
      split_ifs at hhigh <;> omega
    rw [hmod] at hvalue
    rw [if_neg, hvalue]
    rintro ⟨hsigned, hlarge⟩
    rw [if_pos hsigned] at hhigh
    omega

end BigEndian
