import Mathlib.Tactic

/-!
# Cyclic redundancy checks of any width

The register of a cyclic redundancy check takes the bits of a message one after another. A bit
enters at the most significant end, and what leaves there takes the generator `G`, written without
its leading term, out of the register. The register is linear in the message, the check of a message
followed by its own check is zero, and if the generator has a constant term then no error of at most
`w` consecutive bits goes unnoticed.
-/

namespace CyclicCode

variable {w : ℕ} (G : BitVec w)

/-- One shift of the register. -/
def step (c : BitVec w) : BitVec w := if c.msb then (c <<< 1) ^^^ G else c <<< 1

/-- The word with `b` as its most significant bit and zeros below. -/
def lead (w : ℕ) (b : Bool) : BitVec w := if b then BitVec.intMin w else 0#w

def push (c : BitVec w) (b : Bool) : BitVec w := step G (c ^^^ lead w b)

def remainder (l : List Bool) : BitVec w := l.foldl (push G) 0#w

/-- The bits of a word, the most significant one first. -/
def bits (x : BitVec w) : List Bool := (List.range w).map x.getMsbD

/-- The word that begins with the given bits. -/
def place (w : ℕ) : List Bool → BitVec w
  | [] => 0#w
  | b :: l => lead w b ^^^ (place w l >>> 1)

@[simp] theorem length_bits (x : BitVec w) : (bits x).length = w := by
  rw [bits, List.length_map, List.length_range]

theorem getD_bits (x : BitVec w) (i : ℕ) : (bits x).getD i false = x.getMsbD i := by
  rw [List.getD_eq_getElem?_getD, bits, List.getElem?_map]
  by_cases hi : i < w
  · rw [List.getElem?_range hi]
    rfl
  · rw [List.getElem?_eq_none (by rw [List.length_range]; omega),
      BitVec.getMsbD_of_ge x i (Nat.le_of_not_lt hi)]
    rfl

theorem bits_append {v : ℕ} (x : BitVec v) (y : BitVec w) : bits (x ++ y) = bits x ++ bits y := by
  rw [bits, bits, bits, List.range_add, List.map_append, List.map_map]
  congr 1
  · apply List.map_congr_left
    intro i hi
    rw [BitVec.getMsbD_append, if_neg (Nat.not_le_of_lt (List.mem_range.mp hi))]
  · apply List.map_congr_left
    intro i _
    rw [Function.comp_apply, BitVec.getMsbD_append, if_pos (Nat.le_add_right _ _),
      Nat.add_sub_cancel_left]

theorem bits_xor (x y : BitVec w) : bits (x ^^^ y) = List.zipWith xor (bits x) (bits y) := by
  rw [bits, bits, bits, List.zipWith_map, List.zipWith_self]
  apply List.map_congr_left
  intro i _
  exact BitVec.getMsbD_xor

/-! ### The register is linear -/

theorem step_zero : step G 0#w = 0#w := by
  have hmsb : (0#w).msb = false := BitVec.msb_zero
  rw [step, hmsb]
  exact BitVec.zero_shiftLeft 1

theorem step_xor (a b : BitVec w) : step G (a ^^^ b) = step G a ^^^ step G b := by
  have hcancel : ∀ x y : BitVec w, x ^^^ G ^^^ (y ^^^ G) = x ^^^ y := by
    intro x y
    rw [BitVec.xor_comm y G, BitVec.xor_assoc, ← BitVec.xor_assoc G G y, BitVec.xor_self,
      BitVec.zero_xor]
  rw [step, step, step, BitVec.msb_xor, BitVec.shiftLeft_xor_distrib]
  cases a.msb <;> cases b.msb
  · rfl
  · exact BitVec.xor_assoc _ _ _
  · change a <<< 1 ^^^ b <<< 1 ^^^ G = a <<< 1 ^^^ G ^^^ b <<< 1
    rw [BitVec.xor_assoc, BitVec.xor_comm (b <<< 1), ← BitVec.xor_assoc]
  · exact (hcancel _ _).symm

theorem iterate_step_zero (n : ℕ) : (step G)^[n] 0#w = 0#w :=
  Function.iterate_fixed (step_zero G) n

theorem iterate_step_xor (n : ℕ) (a b : BitVec w) :
    (step G)^[n] (a ^^^ b) = (step G)^[n] a ^^^ (step G)^[n] b := by
  induction n generalizing a b with
  | zero => rfl
  | succ n ih =>
      rw [Function.iterate_succ_apply, Function.iterate_succ_apply, Function.iterate_succ_apply,
        step_xor, ih]

theorem lead_xor (x y : Bool) : lead w (x ^^ y) = lead w x ^^^ lead w y := by
  cases x <;> cases y
  · exact (BitVec.xor_zero).symm
  · exact (BitVec.zero_xor).symm
  · exact (BitVec.xor_zero).symm
  · exact (BitVec.xor_self).symm

theorem push_xor (a b : BitVec w) (x y : Bool) :
    push G (a ^^^ b) (x ^^ y) = push G a x ^^^ push G b y := by
  rw [push, push, push, ← step_xor, lead_xor]
  congr 1
  rw [BitVec.xor_assoc, ← BitVec.xor_assoc b, BitVec.xor_comm b, BitVec.xor_assoc,
    ← BitVec.xor_assoc]

theorem foldl_push_xor {l m : List Bool} (hlen : l.length = m.length) (a b : BitVec w) :
    (List.zipWith xor l m).foldl (push G) (a ^^^ b) =
      l.foldl (push G) a ^^^ m.foldl (push G) b := by
  induction l generalizing m a b with
  | nil =>
      cases m with
      | nil => rfl
      | cons y m => cases hlen
  | cons x l ih =>
      cases m with
      | nil => cases hlen
      | cons y m =>
          rw [List.zipWith_cons_cons, List.foldl_cons, List.foldl_cons, List.foldl_cons, push_xor]
          exact ih (Nat.succ.inj hlen) _ _

theorem remainder_xor {l m : List Bool} (hlen : l.length = m.length) :
    remainder G (List.zipWith xor l m) = remainder G l ^^^ remainder G m := by
  rw [remainder, remainder, remainder, ← foldl_push_xor G hlen, BitVec.xor_zero]

/-! ### A word of the message at once -/

theorem getMsbD_lead (b : Bool) (i : ℕ) :
    (lead w b).getMsbD i = (decide (0 < w) && decide (i = 0) && b) := by
  cases b
  · rw [Bool.and_false]
    exact BitVec.getMsbD_zero
  · rw [Bool.and_true]
    exact BitVec.getMsbD_intMin

theorem getMsbD_place (l : List Bool) (i : ℕ) :
    (place w l).getMsbD i = (decide (i < w) && l.getD i false) := by
  induction l generalizing i with
  | nil => simp [place]
  | cons b l ih =>
      rw [place, BitVec.getMsbD_xor, getMsbD_lead, BitVec.getMsbD_ushiftRight]
      cases i with
      | zero => simp
      | succ i =>
          rw [ih]
          by_cases hi : i + 1 < w
          · simp [hi, Nat.lt_of_succ_lt hi]
          · simp [hi]

theorem place_bits_of_le {v : ℕ} (hv : v ≤ w) (x : BitVec v) :
    place w (bits x) = x.setWidth w <<< (w - v) := by
  apply BitVec.eq_of_getMsbD_eq
  intro i hi
  have hdrop : i + (w - v) + v - w = i := by omega
  rw [getMsbD_place, getD_bits, decide_eq_true hi, Bool.true_and, BitVec.getMsbD_shiftLeft,
    BitVec.getMsbD_setWidth, hdrop, decide_eq_true (Nat.le_add_left _ _), Bool.true_and]

theorem place_bits (x : BitVec w) : place w (bits x) = x := by
  rw [place_bits_of_le (Nat.le_refl w), BitVec.setWidth_eq, Nat.sub_self, BitVec.shiftLeft_zero]

theorem step_ushiftRight {x : BitVec w} (hx : x.getMsbD (w - 1) = false) :
    step G (x >>> 1) = x := by
  have hmsb : (x >>> 1).msb = false := by
    rw [BitVec.msb_eq_getMsbD_zero, BitVec.getMsbD_ushiftRight]
    simp
  rw [step, hmsb, if_neg Bool.false_ne_true]
  apply BitVec.eq_of_getMsbD_eq
  intro i hi
  rw [BitVec.getMsbD_shiftLeft, BitVec.getMsbD_ushiftRight, Nat.add_sub_cancel]
  by_cases hlast : i + 1 < w
  · simp [hlast]
  · have hi' : i = w - 1 := by omega
    rw [hi', hx]
    simp

/-- Up to `w` bits may be placed in the register first and shifted out of it afterwards. -/
theorem foldl_push {l : List Bool} (hl : l.length ≤ w) (c : BitVec w) :
    l.foldl (push G) c = (step G)^[l.length] (c ^^^ place w l) := by
  induction l generalizing c with
  | nil => exact (BitVec.xor_zero).symm
  | cons b l ih =>
      rw [List.length_cons] at hl
      have hlast : (place w l).getMsbD (w - 1) = false := by
        have hout : l.getD (w - 1) false = false := by
          rw [List.getD_eq_getElem?_getD, List.getElem?_eq_none (by omega)]
          rfl
        rw [getMsbD_place, hout, Bool.and_false]
      rw [List.foldl_cons, ih (by omega), List.length_cons, Function.iterate_succ_apply, place,
        ← BitVec.xor_assoc, step_xor, step_ushiftRight G hlast, push]

theorem foldl_push_bits (c x : BitVec w) :
    (bits x).foldl (push G) c = (step G)^[w] (c ^^^ x) := by
  rw [foldl_push G (by rw [length_bits]), place_bits, length_bits]

theorem remainder_append_remainder (l : List Bool) :
    remainder G (l ++ bits (remainder G l)) = 0#w := by
  rw [remainder, List.foldl_append]
  change (bits (remainder G l)).foldl (push G) (remainder G l) = 0
  rw [foldl_push_bits, BitVec.xor_self]
  exact iterate_step_zero G w

/-! ### Words by a table -/

/-- Zeros that leave the register take nothing out of it. -/
theorem iterate_step_of_zeros {n : ℕ} {c : BitVec w} (hc : ∀ i < n, c.getMsbD i = false) :
    (step G)^[n] c = c <<< n := by
  induction n generalizing c with
  | zero => exact (BitVec.shiftLeft_zero c).symm
  | succ n ih =>
      have hmsb : c.msb = false := by
        rw [BitVec.msb_eq_getMsbD_zero]
        exact hc 0 (Nat.succ_pos n)
      have hstep : step G c = c <<< 1 := by
        rw [step, hmsb]
        rfl
      rw [Function.iterate_succ_apply, hstep, ih, Nat.add_comm, BitVec.shiftLeft_add]
      intro i hi
      rw [BitVec.getMsbD_shiftLeft]
      exact hc (i + 1) (Nat.succ_lt_succ hi)

/-- What the high `n` bits of the register take out of it may be looked up: it depends on them
alone. -/
theorem iterate_step_high {n : ℕ} (hn : n ≤ w) (c : BitVec w) :
    (step G)^[n] c = (step G)^[n] ((c >>> (w - n)) <<< (w - n)) ^^^ c <<< n := by
  have hsplit : c = (c >>> (w - n)) <<< (w - n) ^^^ (c <<< n) >>> n := by
    apply BitVec.eq_of_getMsbD_eq
    intro i hi
    rw [BitVec.getMsbD_xor, BitVec.getMsbD_shiftLeft, BitVec.getMsbD_ushiftRight,
      BitVec.getMsbD_ushiftRight, BitVec.getMsbD_shiftLeft]
    by_cases hhigh : i < n
    · have hin : i + (w - n) < w := by omega
      simp [hhigh, hin]
    · have hout : ¬i + (w - n) < w := by omega
      have hback : i - n + n = i := by omega
      simp [hhigh, hout, hback, hi]
  have hlow : (step G)^[n] ((c <<< n) >>> n) = c <<< n := by
    rw [iterate_step_of_zeros]
    · apply BitVec.eq_of_getMsbD_eq
      intro i hi
      rw [BitVec.getMsbD_shiftLeft, BitVec.getMsbD_ushiftRight, BitVec.getMsbD_shiftLeft,
        BitVec.getMsbD_shiftLeft, Nat.add_sub_cancel]
      by_cases hin : i + n < w
      · simp [hin]
      · rw [BitVec.getMsbD_of_ge c (i + n) (by omega)]
        simp [hin]
    · intro i hi
      rw [BitVec.getMsbD_ushiftRight]
      simp [hi]
  conv_lhs => rw [hsplit]
  rw [iterate_step_xor, hlow]

/-- A word is taken into the register by a table over the bits that leave it. -/
theorem foldl_push_bits_high {v : ℕ} (hv : v ≤ w) (c : BitVec w) (x : BitVec v) :
    (bits x).foldl (push G) c =
      (step G)^[v] ((c >>> (w - v) ^^^ x.setWidth w) <<< (w - v)) ^^^ c <<< v := by
  have hback : (x.setWidth w <<< (w - v)) >>> (w - v) = x.setWidth w := by
    apply BitVec.eq_of_getMsbD_eq
    intro i hi
    rw [BitVec.getMsbD_ushiftRight, BitVec.getMsbD_shiftLeft, BitVec.getMsbD_setWidth]
    by_cases hhigh : i < w - v
    · have hout : ¬w ≤ i + v := by omega
      simp [hhigh, hout]
    · have hin : i - (w - v) + (w - v) = i := by omega
      simp [hhigh, hin, hi]
  have hgone : (x.setWidth w <<< (w - v)) <<< v = 0#w := by
    rw [← BitVec.shiftLeft_add]
    exact BitVec.shiftLeft_eq_zero (by omega)
  rw [foldl_push G (by rw [length_bits]; exact hv), length_bits, place_bits_of_le hv,
    iterate_step_high G hv, BitVec.ushiftRight_xor_distrib, hback, BitVec.shiftLeft_xor_distrib,
    BitVec.shiftLeft_xor_distrib, hgone, BitVec.xor_zero]

/-! ### Bursts -/

/-- Set bits, all of them within `k` consecutive ones. -/
def Burst (k : ℕ) (l : List Bool) : Prop :=
  ∃ i e j, l = List.replicate i false ++ e ++ List.replicate j false ∧ e.length ≤ k ∧ true ∈ e

variable {G}

theorem step_eq_zero (hG : G.getLsbD 0 = true) {c : BitVec w} (hc : step G c = 0#w) : c = 0#w := by
  have hmsb : c.msb = false := by
    by_contra hset
    rw [step, if_pos (Bool.eq_true_of_not_eq_false hset)] at hc
    have hlow : (c <<< 1 ^^^ G).getLsbD 0 = true := by
      rw [BitVec.getLsbD_xor, hG, BitVec.getLsbD_shiftLeft]
      simp
    rw [hc] at hlow
    simp at hlow
  rw [step, hmsb, if_neg Bool.false_ne_true] at hc
  apply BitVec.eq_of_getMsbD_eq
  intro i hi
  cases i with
  | zero => rw [← BitVec.msb_eq_getMsbD_zero, hmsb, BitVec.getMsbD_zero]
  | succ i => rw [← BitVec.getMsbD_shiftLeft, hc, BitVec.getMsbD_zero, BitVec.getMsbD_zero]

theorem iterate_step_eq_zero (hG : G.getLsbD 0 = true) {c : BitVec w} (n : ℕ)
    (hc : (step G)^[n] c = 0#w) : c = 0#w := by
  induction n with
  | zero => exact hc
  | succ n ih =>
      apply ih
      rw [Function.iterate_succ_apply'] at hc
      exact step_eq_zero hG hc

theorem foldl_push_replicate (n : ℕ) (c : BitVec w) :
    (List.replicate n false).foldl (push G) c = (step G)^[n] c := by
  induction n generalizing c with
  | zero => rfl
  | succ n ih =>
      have hpush : push G c false = step G c := congrArg (step G) BitVec.xor_zero
      rw [List.replicate_succ, List.foldl_cons, hpush, ih, Function.iterate_succ_apply]

theorem zipWith_xor_self (l : List Bool) :
    List.zipWith xor l l = List.replicate l.length false := by
  induction l with
  | nil => rfl
  | cons b l ih =>
      rw [List.zipWith_cons_cons, Bool.xor_self, ih, List.length_cons, List.replicate_succ]

theorem mem_zipWith_xor {l m : List Bool} (hlen : l.length = m.length) (hne : l ≠ m) :
    true ∈ List.zipWith xor l m := by
  induction l generalizing m with
  | nil =>
      cases m with
      | nil => exact absurd rfl hne
      | cons y m => cases hlen
  | cons x l ih =>
      cases m with
      | nil => cases hlen
      | cons y m =>
          rw [List.zipWith_cons_cons, List.mem_cons]
          by_cases hxy : x = y
          · apply Or.inr
            apply ih (Nat.succ.inj hlen)
            rintro rfl
            exact hne (hxy ▸ rfl)
          · exact Or.inl (bne_iff_ne.mpr hxy).symm

theorem bits_injective {x y : BitVec w} (hxy : bits x = bits y) : x = y := by
  rw [← place_bits x, hxy, place_bits]

/-- Messages that are equal but for one word of `k` bits differ in a burst. -/
theorem burst_of_word {k : ℕ} {x y : BitVec k} (hne : x ≠ y) (l m : List Bool) :
    Burst k (List.zipWith xor (l ++ (bits x ++ m)) (l ++ (bits y ++ m))) := by
  have hlen : (bits x).length = (bits y).length := by rw [length_bits, length_bits]
  refine ⟨l.length, List.zipWith xor (bits x) (bits y), m.length, ?_, ?_, ?_⟩
  · rw [List.zipWith_append rfl, List.zipWith_append hlen, zipWith_xor_self, zipWith_xor_self,
      List.append_assoc]
  · rw [List.length_zipWith, length_bits, length_bits, Nat.min_self]
  · exact mem_zipWith_xor hlen fun heq => hne (bits_injective heq)

theorem Burst.mono {k n : ℕ} (hkn : k ≤ n) {l : List Bool} (hl : Burst k l) : Burst n l := by
  obtain ⟨i, e, j, heq, hlen, hset⟩ := hl
  exact ⟨i, e, j, heq, hlen.trans hkn, hset⟩

theorem place_ne_zero {l : List Bool} (hl : l.length ≤ w) (hset : true ∈ l) : place w l ≠ 0#w := by
  intro hzero
  obtain ⟨i, hi, hget⟩ := List.getElem_of_mem hset
  have hbit := getMsbD_place (w := w) l i
  rw [hzero, BitVec.getMsbD_zero, decide_eq_true (by omega), Bool.true_and,
    List.getD_eq_getElem?_getD, List.getElem?_eq_getElem hi, hget] at hbit
  cases hbit

theorem remainder_burst (hG : G.getLsbD 0 = true) {l : List Bool} (hl : Burst w l) :
    remainder G l ≠ 0#w := by
  obtain ⟨i, e, j, rfl, hlen, hset⟩ := hl
  intro hzero
  rw [remainder, List.foldl_append, List.foldl_append, foldl_push_replicate,
    foldl_push_replicate, iterate_step_zero, foldl_push G hlen, BitVec.zero_xor] at hzero
  exact place_ne_zero hlen hset (iterate_step_eq_zero hG _ (iterate_step_eq_zero hG _ hzero))

/-- Two messages that differ in a burst have different remainders. -/
theorem remainder_ne_of_burst (hG : G.getLsbD 0 = true) {l m : List Bool}
    (hlen : l.length = m.length) (hburst : Burst w (List.zipWith xor l m)) :
    remainder G l ≠ remainder G m := by
  intro heq
  apply remainder_burst hG hburst
  rw [remainder_xor G hlen, heq, BitVec.xor_self]

end CyclicCode
