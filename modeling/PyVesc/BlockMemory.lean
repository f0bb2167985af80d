import Mathlib.Tactic

/-!
# Memories that are written in blocks

A memory maps addresses to values, and a write puts a list of values at an address. `Tiled` is the
state of a memory that was blank and in which an image has been written up to an address. It is kept
by the next block and by leaving out a block that is blank (`Tiled.write`, `Tiled.skip`). At the end
of the image the memory holds the image (`Tiled.eq_image`).
-/

namespace BlockMemory

variable {α : Type*}

def write (m : ℕ → α) (address : ℕ) (data : List α) : ℕ → α := fun a =>
  if address ≤ a then (data[a - address]?).getD (m a) else m a

def writeAll (m : ℕ → α) (ws : List (ℕ × List α)) : ℕ → α :=
  ws.foldl (fun m w => write m w.1 w.2) m

theorem write_of_lt {m : ℕ → α} {address a : ℕ} (h : a < address) (data : List α) :
    write m address data a = m a := if_neg (Nat.not_le_of_lt h)

theorem write_of_ge {m : ℕ → α} {address a : ℕ} {data : List α} (h : address + data.length ≤ a) :
    write m address data a = m a := by
  rw [write, List.getElem?_eq_none (by omega)]
  exact ite_self _

theorem write_of_getElem? {m : ℕ → α} {address a : ℕ} {data : List α} {x : α} (h : address ≤ a)
    (hx : data[a - address]? = some x) : write m address data a = x := by
  rw [write, if_pos h, hx, Option.getD_some]

/-- A write at the start of block `i` of the memory, when blocks have `n` places. -/
theorem write_block (m : ℕ → α) {n : ℕ} (hn : 0 < n) (i : ℕ) {data : List α}
    (hlen : data.length ≤ n) (a : ℕ) :
    write m (n * i) data a = if a / n = i then (data[a % n]?).getD (m a) else m a := by
  have hsplit := Nat.div_add_mod a n
  have hmod := Nat.mod_lt a hn
  by_cases hi : a / n = i
  · rw [if_pos hi, write, if_pos (by rw [← hi]; omega)]
    rw [hi] at hsplit
    rw [← hsplit, Nat.add_sub_cancel_left, Nat.mul_add_mod, Nat.mod_mod]
  · rw [if_neg hi]
    obtain hlt | hgt := Nat.lt_or_gt_of_ne hi
    · have hle := Nat.mul_le_mul_left n (Nat.succ_le_of_lt hlt)
      rw [Nat.mul_succ] at hle
      exact write_of_lt (by omega) data
    · have hle := Nat.mul_le_mul_left n (Nat.succ_le_of_lt hgt)
      rw [Nat.mul_succ] at hle
      exact write_of_ge (by omega)

theorem writeAll_append (m : ℕ → α) (ws ws' : List (ℕ × List α)) :
    writeAll m (ws ++ ws') = writeAll (writeAll m ws) ws' := List.foldl_append

theorem writeAll_singleton (m : ℕ → α) (w : ℕ × List α) :
    writeAll m [w] = write m w.1 w.2 := rfl

/-- The image is written up to the address `k`. -/
structure Tiled (blank : α) (image : List α) (k : ℕ) (m : ℕ → α) : Prop where
  written : ∀ i < k, ∀ x, image[i]? = some x → m i = x
  blank : ∀ i, k ≤ i → i < image.length → m i = blank

variable {blank : α} {image : List α} {k n : ℕ} {m : ℕ → α}

theorem Tiled.zero (blank : α) (image : List α) : Tiled blank image 0 fun _ => blank :=
  ⟨fun i hi => absurd hi (Nat.not_lt_zero i), fun _ _ _ => rfl⟩

/-- The data of a block may go on behind the end of the image. -/
theorem Tiled.write (h : Tiled blank image k m) {data : List α}
    (hdata : (image.drop k).take n <+: data) (hlen : data.length ≤ n) :
    Tiled blank image (k + n) (write m k data) := by
  constructor
  · intro i hi x hx
    by_cases hik : i < k
    · rw [write_of_lt hik]
      exact h.written i hik x hx
    · apply write_of_getElem? (Nat.le_of_not_lt hik)
      obtain ⟨rest, rfl⟩ := hdata
      have hblock : ((image.drop k).take n)[i - k]? = some x := by
        rw [List.getElem?_take_of_lt (by omega), List.getElem?_drop,
          Nat.add_sub_cancel' (Nat.le_of_not_lt hik), hx]
      rw [List.getElem?_append_left (List.getElem?_eq_some_iff.mp hblock).1, hblock]
  · intro i hi hlt
    rw [write_of_ge (by omega)]
    exact h.blank i (by omega) hlt

theorem Tiled.skip (h : Tiled blank image k m)
    (hblank : ∀ x ∈ (image.drop k).take n, x = blank) : Tiled blank image (k + n) m := by
  constructor
  · intro i hi x hx
    by_cases hik : i < k
    · exact h.written i hik x hx
    · have hlt := (List.getElem?_eq_some_iff.mp hx).1
      have hblock : ((image.drop k).take n)[i - k]? = some x := by
        rw [List.getElem?_take_of_lt (by omega), List.getElem?_drop,
          Nat.add_sub_cancel' (Nat.le_of_not_lt hik), hx]
      rw [h.blank i (by omega) hlt, hblank x (List.mem_of_getElem? hblock)]
  · intro i hi hlt
    exact h.blank i (by omega) hlt

theorem Tiled.eq_image (h : Tiled blank image k m) (hk : image.length ≤ k) :
    (List.range image.length).map m = image := by
  apply List.ext_getElem?
  intro i
  by_cases hi : i < image.length
  · have hx := List.getElem?_eq_getElem hi
    rw [List.getElem?_map, List.getElem?_range hi, Option.map_some, hx,
      h.written i (by omega) _ hx]
  · rw [List.getElem?_eq_none (by simpa using hi), List.getElem?_eq_none (by omega)]

end BlockMemory
