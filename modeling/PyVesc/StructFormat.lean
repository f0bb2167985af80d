import PyVesc.BigEndian
import Mathlib.Data.Rat.Defs

/-!
# The `struct` module of the Python standard library

Packing and unpacking of values by a list of formats, big-endian, with standard sizes and without
alignment, as the byte-order characters `!` and `>` ask for. A format is one item of a format string
and converts one value. Numbers are exact: a Python float is a rational. The conversions of the
floating-point items are not fixed here, such an item carries its own (`ForeignFormat`).

`none` stands for a raised `struct.error`.
-/

inductive PyVal where
  | int (z : ℤ)
  | float (q : ℚ)
  | bool (b : Bool)
  | bytes (bs : List UInt8)
  | str (s : String)
  deriving DecidableEq, Repr

namespace StructFormat

/-- The integer format characters. -/
inductive IntFormat where
  | b | B | h | H | i | I | l | L | q | Q
  deriving DecidableEq, Repr

namespace IntFormat

def size : IntFormat → ℕ
  | .b | .B => 1
  | .h | .H => 2
  | .i | .I | .l | .L => 4
  | .q | .Q => 8

def signed : IntFormat → Bool
  | .b | .h | .i | .l | .q => true
  | .B | .H | .I | .L | .Q => false

/-- One more than the largest value. -/
def bound (f : IntFormat) : ℤ := if f.signed then 2 ^ (8 * f.size - 1) else 2 ^ (8 * f.size)

def inRange (f : IntFormat) (z : ℤ) : Prop := (if f.signed then -f.bound else 0) ≤ z ∧ z < f.bound

instance (f : IntFormat) (z : ℤ) : Decidable (f.inRange z) := inferInstanceAs (Decidable (_ ∧ _))

def pack (f : IntFormat) (z : ℤ) : Option (List UInt8) :=
  if f.inRange z then some (BigEndian.ofNat f.size (z % 2 ^ (8 * f.size)).toNat) else none

/-- An unsigned format holds the numbers below a power of 256. -/
theorem pack_unsigned {f : IntFormat} (hf : f.signed = false) {n : ℕ} (hn : n < 256 ^ f.size) :
    f.pack n = some (BigEndian.ofNat f.size n) := by
  have hpow : (2 : ℤ) ^ (8 * f.size) = ((256 ^ f.size : ℕ) : ℤ) := by
    rw [pow_mul]
    norm_num
  have hlt : (n : ℤ) < 2 ^ (8 * f.size) := by
    rw [hpow]
    exact_mod_cast hn
  have hrange : f.inRange n := by
    simp only [inRange, bound, hf, Bool.false_eq_true, if_false]
    exact ⟨Int.natCast_nonneg n, hlt⟩
  rw [pack, if_pos hrange, Int.emod_eq_of_lt (Int.natCast_nonneg n) hlt, Int.toNat_natCast]

theorem pack_B {n : ℕ} (hn : n ≤ 255) : IntFormat.pack .B n = some [UInt8.ofNat n] := by
  have hlt : n < 256 ^ size .B := by
    norm_num [size]
    omega
  have hone : BigEndian.ofNat 1 n = [UInt8.ofNat n] := by
    rw [BigEndian.ofNat, Nat.mod_eq_of_lt (by omega)]
    rfl
  exact (pack_unsigned rfl hlt).trans (congrArg some hone)

theorem pack_H {n : ℕ} (hn : n ≤ 65535) : IntFormat.pack .H n = some (BigEndian.ofNat 2 n) := by
  have hlt : n < 256 ^ size .H := by
    norm_num [size]
    omega
  exact pack_unsigned rfl hlt

theorem pack_B_none {n : ℕ} (hn : 255 < n) : IntFormat.pack .B n = none := by
  apply if_neg
  intro h
  have hlt := h.2
  norm_num [bound, signed, size] at hlt
  omega

theorem pack_H_none {n : ℕ} (hn : 65535 < n) : IntFormat.pack .H n = none := by
  apply if_neg
  intro h
  have hlt := h.2
  norm_num [bound, signed, size] at hlt
  omega

def unpack (f : IntFormat) (bs : List UInt8) : ℤ :=
  let n : ℤ := BigEndian.toNat bs
  if f.bound ≤ n then n - 2 ^ (8 * f.size) else n

theorem two_pow_size (f : IntFormat) :
    (2 : ℤ) ^ (8 * f.size) = ((256 ^ f.size : ℕ) : ℤ) ∧
      (2 : ℤ) ^ (8 * f.size) = if f.signed then 2 * f.bound else f.bound := by
  cases f <;> decide

theorem length_pack {f : IntFormat} {z : ℤ} {bs : List UInt8} (h : f.pack z = some bs) :
    bs.length = f.size := by
  obtain ⟨_, h⟩ := Option.ite_none_right_eq_some.mp h
  cases h
  exact BigEndian.length_ofNat _ _

theorem unpack_pack {f : IntFormat} {z : ℤ} {bs : List UInt8} (h : f.pack z = some bs) :
    f.unpack bs = z := by
  obtain ⟨hpow, hbound⟩ := f.two_pow_size
  obtain ⟨⟨hlow, hhigh⟩, h⟩ := Option.ite_none_right_eq_some.mp h
  cases h
  have hpos : (0 : ℤ) < 2 ^ (8 * f.size) := by positivity
  have hnonneg := Int.emod_nonneg z hpos.ne'
  have hmod := Int.emod_lt_of_pos z hpos
  have hlt : (z % 2 ^ (8 * f.size)).toNat < 256 ^ f.size := by
    rw [hpow] at hmod ⊢
    omega
  rw [unpack, BigEndian.toNat_ofNat hlt, Int.toNat_of_nonneg hnonneg]
  by_cases hsigned : f.signed
  · rw [if_pos hsigned] at hlow hbound
    by_cases hz : 0 ≤ z
    · rw [Int.emod_eq_of_lt hz (by omega), if_neg (by omega)]
    · have hwrap : z % 2 ^ (8 * f.size) = z + 2 ^ (8 * f.size) := by
        rw [← Int.add_emod_right, Int.emod_eq_of_lt (by omega) (by omega)]
      rw [hwrap, if_pos (by omega), add_sub_cancel_right]
  · rw [if_neg hsigned] at hlow hbound
    rw [Int.emod_eq_of_lt hlow (by omega), if_neg (by omega)]

/-- Every byte string of the size is the number it is unpacked to. -/
theorem pack_unpack {f : IntFormat} {bs : List UInt8} (hlen : bs.length = f.size) :
    f.pack (f.unpack bs) = some bs := by
  obtain ⟨hpow, hbound⟩ := f.two_pow_size
  have hlt := BigEndian.toNat_lt bs
  rw [hlen] at hlt
  have hmod : f.unpack bs % 2 ^ (8 * f.size) = BigEndian.toNat bs := by
    rw [unpack]
    split_ifs
    · rw [Int.sub_emod_right]
      exact Int.emod_eq_of_lt (Int.natCast_nonneg _) (by rw [hpow]; exact_mod_cast hlt)
    · exact Int.emod_eq_of_lt (Int.natCast_nonneg _) (by rw [hpow]; exact_mod_cast hlt)
  have hrange : f.inRange (f.unpack bs) := by
    rw [inRange, unpack]
    split_ifs at hbound ⊢ <;> omega
  rw [pack, if_pos hrange, hmod, Int.toNat_natCast, ← hlen, BigEndian.ofNat_toNat]
end IntFormat

/-- An item whose conversion is left open, as those of the IEEE floats are. -/
structure ForeignFormat where
  size : ℕ
  pack : PyVal → Option (List UInt8)
  unpack : List UInt8 → PyVal
  length_pack : ∀ v bs, pack v = some bs → bs.length = size

inductive Format where
  | int (f : IntFormat)
  | bool
  | char
  | bytes (n : ℕ)
  | foreign (f : ForeignFormat)

namespace Format

def size : Format → ℕ
  | .int f => f.size
  | .bool => 1
  | .char => 1
  | .bytes n => n
  | .foreign f => f.size

/-- Python's truth value, which the item `?` packs. -/
def truth : PyVal → Bool
  | .int z => decide (z ≠ 0)
  | .float q => decide (q ≠ 0)
  | .bool b => b
  | .bytes bs => decide (bs ≠ [])
  | .str s => decide (s ≠ "")

def pack : Format → PyVal → Option (List UInt8)
  | .int f, .int z => f.pack z
  | .int f, .bool b => f.pack (if b then 1 else 0)
  | .int _, _ => none
  | .bool, v => some [if truth v then 1 else 0]
  | .char, .bytes [c] => some [c]
  | .char, _ => none
  | .bytes n, .bytes bs => some (bs.take n ++ List.replicate (n - bs.length) 0)
  | .bytes _, _ => none
  | .foreign f, v => f.pack v

def unpack : Format → List UInt8 → PyVal
  | .int f, bs => .int (f.unpack bs)
  | .bool, bs => .bool (decide (BigEndian.toNat bs ≠ 0))
  | .char, bs => .bytes bs
  | .bytes _, bs => .bytes bs
  | .foreign f, bs => f.unpack bs

theorem length_pack {f : Format} {v : PyVal} {bs : List UInt8} (h : f.pack v = some bs) :
    bs.length = f.size := by
  cases f with
  | int f =>
      cases v with
      | int z => exact IntFormat.length_pack h
      | bool b => exact IntFormat.length_pack h
      | float q => cases h
      | bytes bs => cases h
      | str s => cases h
  | bool =>
      cases h
      rfl
  | char =>
      match v with
      | .bytes [c] =>
          cases h
          rfl
      | .bytes [] => cases h
      | .bytes (_ :: _ :: _) => cases h
      | .int z => cases h
      | .bool b => cases h
      | .float q => cases h
      | .str s => cases h
  | bytes n =>
      cases v with
      | bytes bs =>
          cases h
          rw [List.length_append, List.length_take, List.length_replicate, size]
          omega
      | int z => cases h
      | bool b => cases h
      | float q => cases h
      | str s => cases h
  | foreign f => exact f.length_pack v bs h

end Format

def calcsize (fs : List Format) : ℕ := (fs.map Format.size).sum

def pack : List Format → List PyVal → Option (List UInt8)
  | [], [] => some []
  | f :: fs, v :: vs => do
    let bs ← f.pack v
    let rest ← pack fs vs
    return bs ++ rest
  | _, _ => none

def unpackItems : List Format → List UInt8 → List PyVal
  | [], _ => []
  | f :: fs, bs => f.unpack (bs.take f.size) :: unpackItems fs (bs.drop f.size)

def unpackFrom (fs : List Format) (buffer : List UInt8) (offset : ℕ) : Option (List PyVal) :=
  if offset + calcsize fs ≤ buffer.length then some (unpackItems fs (buffer.drop offset)) else none

@[simp] theorem length_unpackItems (fs : List Format) (bs : List UInt8) :
    (unpackItems fs bs).length = fs.length := by
  induction fs generalizing bs with
  | nil => rfl
  | cons f fs ih => rw [unpackItems, List.length_cons, List.length_cons, ih]

/-- Packing goes item by item. -/
theorem pack_append (fs gs : List Format) (vs ws : List PyVal) (hlen : fs.length = vs.length) :
    pack (fs ++ gs) (vs ++ ws) = (do
      let bs ← pack fs vs
      let rest ← pack gs ws
      return bs ++ rest) := by
  induction fs generalizing vs with
  | nil =>
    cases vs with
    | nil => cases hg : pack gs ws <;> simp [pack, hg]
    | cons v vs => cases hlen
  | cons f fs ih =>
    cases vs with
    | nil => cases hlen
    | cons v vs =>
      have hi := ih vs (Nat.succ.inj hlen)
      simp only [List.cons_append, pack, hi]
      cases f.pack v <;> cases pack fs vs <;> cases pack gs ws <;> simp

theorem pack_cons_eq_some {f : Format} {fs : List Format} {v : PyVal} {vs : List PyVal}
    {bs : List UInt8} (h : pack (f :: fs) (v :: vs) = some bs) :
    ∃ head rest, f.pack v = some head ∧ pack fs vs = some rest ∧ bs = head ++ rest := by
  rw [pack] at h
  obtain ⟨head, hhead, h⟩ := Option.bind_eq_some_iff.mp h
  obtain ⟨rest, hrest, h⟩ := Option.bind_eq_some_iff.mp h
  cases h
  exact ⟨head, rest, hhead, hrest, rfl⟩

theorem length_eq_of_pack {fs : List Format} {vs : List PyVal} {bs : List UInt8}
    (h : pack fs vs = some bs) : vs.length = fs.length ∧ bs.length = calcsize fs := by
  induction fs generalizing vs bs with
  | nil =>
      cases vs with
      | nil =>
          cases h
          exact ⟨rfl, rfl⟩
      | cons v vs => cases h
  | cons f fs ih =>
      cases vs with
      | nil => cases h
      | cons v vs =>
          obtain ⟨head, rest, hhead, hrest, rfl⟩ := pack_cons_eq_some h
          obtain ⟨hvs, hbs⟩ := ih hrest
          rw [List.length_cons, List.length_cons, hvs, List.length_append, hbs,
            Format.length_pack hhead]
          exact ⟨rfl, rfl⟩

/-- The bytes of one item in those of a list. -/
theorem pack_item {fs : List Format} {vs : List PyVal} {bs : List UInt8}
    (h : pack fs vs = some bs) {i : ℕ} {f : Format} {v : PyVal} (hf : fs[i]? = some f)
    (hv : vs[i]? = some v) : f.pack v = some ((bs.drop (calcsize (fs.take i))).take f.size) := by
  induction fs generalizing vs bs i with
  | nil => cases hf
  | cons g fs ih =>
      cases vs with
      | nil => cases hv
      | cons w vs =>
          obtain ⟨head, rest, hhead, hrest, rfl⟩ := pack_cons_eq_some h
          have hlen := Format.length_pack hhead
          cases i with
          | zero =>
              cases hf
              cases hv
              rw [hhead, List.take_zero]
              change some head = some ((head ++ rest).take _)
              rw [List.take_left' hlen]
          | succ i =>
              have hsize : calcsize ((g :: fs).take (i + 1)) =
                  head.length + calcsize (fs.take i) := by
                rw [hlen, List.take_succ_cons]
                rfl
              rw [ih hrest hf hv, hsize, ← List.drop_drop, List.drop_left]

/-- What was packed is unpacked again where every item gives its value back. -/
theorem unpackItems_pack {fs : List Format} {vs : List PyVal}
    (hback : List.Forall₂ (fun f v => ∀ bs, f.pack v = some bs → f.unpack bs = v) fs vs)
    {bs : List UInt8} (h : pack fs vs = some bs) : unpackItems fs bs = vs := by
  induction hback generalizing bs with
  | nil => rfl
  | cons hf _ ih =>
      obtain ⟨head, rest, hhead, hrest, rfl⟩ := pack_cons_eq_some h
      rw [unpackItems, List.take_left' (Format.length_pack hhead),
        List.drop_left' (Format.length_pack hhead), hf head hhead, ih hrest]

/-- What lies behind the items does not matter. -/
theorem unpackItems_append {fs : List Format} {bs : List UInt8} (hlen : calcsize fs ≤ bs.length)
    (t : List UInt8) : unpackItems fs (bs ++ t) = unpackItems fs bs := by
  induction fs generalizing bs with
  | nil => rfl
  | cons f fs ih =>
      rw [calcsize, List.map_cons, List.sum_cons] at hlen
      have hdrop : calcsize fs ≤ (bs.drop f.size).length := by
        rw [List.length_drop, calcsize]
        omega
      rw [unpackItems, unpackItems, List.take_append_of_le_length (by omega),
        List.drop_append_of_le_length (by omega), ih hdrop]

section Rows

variable {α : Type*} {rows : List α} {f : α → Format} {v w : α → PyVal}

theorem pack_map_isSome (h : ∀ r ∈ rows, ∃ bs, (f r).pack (v r) = some bs) :
    ∃ bs, pack (rows.map f) (rows.map v) = some bs := by
  induction rows with
  | nil => exact ⟨[], rfl⟩
  | cons r rows ih =>
      obtain ⟨hr, hrows⟩ := List.forall_mem_cons.mp h
      obtain ⟨head, hhead⟩ := hr
      obtain ⟨rest, hrest⟩ := ih hrows
      refine ⟨head ++ rest, ?_⟩
      rw [List.map_cons, List.map_cons, pack, hhead, hrest]
      rfl

theorem pack_map_congr (h : ∀ r ∈ rows, (f r).pack (v r) = (f r).pack (w r)) :
    pack (rows.map f) (rows.map v) = pack (rows.map f) (rows.map w) := by
  induction rows with
  | nil => rfl
  | cons r rows ih =>
      obtain ⟨hr, hrows⟩ := List.forall_mem_cons.mp h
      rw [List.map_cons, List.map_cons, List.map_cons, pack, pack, hr, ih hrows]

end Rows

end StructFormat
