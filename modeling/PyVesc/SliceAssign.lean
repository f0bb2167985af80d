import Mathlib.Tactic

/-!
# Slice assignment of Python sequences

`buf[i:j] = x` for non-negative bounds: the bounds are cut off at the length of the sequence, the
items between them are replaced by those of `x`, and the sequence grows or shrinks by the
difference. A write that starts inside the sequence or at its end changes only the items it covers.
-/

namespace SliceAssign

variable {α : Type*}

def assign (buf : List α) (i j : ℕ) (x : List α) : List α :=
  buf.take i ++ x ++ buf.drop (max i j)

theorem take_assign {buf x : List α} {i : ℕ} (hi : i ≤ buf.length) (j : ℕ) :
    (assign buf i j x).take (i + x.length) = buf.take i ++ x := by
  have hlen : (buf.take i ++ x).length = i + x.length := by
    rw [List.length_append, List.length_take, Nat.min_eq_left hi]
  rw [assign, ← hlen, List.take_left]

theorem length_assign {buf x : List α} {i j : ℕ} :
    (assign buf i j x).length = min i buf.length + x.length + (buf.length - max i j) := by
  simp only [assign, List.length_append, List.length_take, List.length_drop]

theorem length_assign_self (buf x : List α) (i : ℕ) :
    (assign buf i (i + x.length) x).length = max buf.length (min i buf.length + x.length) := by
  rw [length_assign]
  omega

theorem length_le_length_assign (buf x : List α) (i : ℕ) :
    buf.length ≤ (assign buf i (i + x.length) x).length := by
  rw [length_assign_self]
  exact le_max_left _ _

/-- A sequence that a write can only take to `n` stays below it. -/
theorem length_assign_le {buf x : List α} {i n : ℕ} (hbuf : buf.length ≤ n)
    (hx : i + x.length ≤ n) : (assign buf i (i + x.length) x).length ≤ n := by
  rw [length_assign_self]
  omega

section Fits
variable {buf x : List α} {i : ℕ}

theorem length_assign_of_fits (h : i + x.length ≤ buf.length) :
    (assign buf i (i + x.length) x).length = buf.length := by
  rw [length_assign]
  omega

theorem getElem?_assign_inside (h : i ≤ buf.length) {p : ℕ} (hlow : i ≤ p)
    (hhigh : p < i + x.length) : (assign buf i (i + x.length) x)[p]? = x[p - i]? := by
  have hlen : (buf.take i).length = i := by
    rw [List.length_take]
    omega
  have hboth : (buf.take i ++ x).length = i + x.length := by rw [List.length_append, hlen]
  rw [assign, List.getElem?_append_left (by omega), List.getElem?_append_right (by omega), hlen]

theorem getElem?_assign_outside (h : i ≤ buf.length) {p : ℕ} (hout : p < i ∨ i + x.length ≤ p) :
    (assign buf i (i + x.length) x)[p]? = buf[p]? := by
  have hlen : (buf.take i).length = i := by
    rw [List.length_take]
    omega
  have hboth : (buf.take i ++ x).length = i + x.length := by rw [List.length_append, hlen]
  rw [assign, Nat.max_eq_right (by omega)]
  obtain hlow | hhigh := hout
  · rw [List.append_assoc, List.getElem?_append_left (by omega), List.getElem?_take, if_pos hlow]
  · rw [List.getElem?_append_right (by omega), hboth, List.getElem?_drop]
    congr 1
    omega

end Fits

/-- What is written lies where it was to go just if the sequence reaches up to there. Behind its end
it is appended. -/
theorem getElem?_assign_iff {buf x : List α} (hx : x ≠ []) (i : ℕ) :
    (∀ p < x.length, (assign buf i (i + x.length) x)[i + p]? = x[p]?) ↔ i ≤ buf.length := by
  have hpos := List.length_pos_iff.mpr hx
  constructor
  · intro h
    by_contra hbeyond
    have hlast := h (x.length - 1) (by omega)
    have hlen : (assign buf i (i + x.length) x).length = buf.length + x.length := by
      rw [length_assign]
      omega
    rw [List.getElem?_eq_none (by omega), List.getElem?_eq_getElem (by omega)] at hlast
    cases hlast
  · intro hi p hp
    rw [getElem?_assign_inside hi (by omega) (by omega), Nat.add_sub_cancel_left]

end SliceAssign
