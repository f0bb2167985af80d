import PyVesc.PacketLayout
import Mathlib.Algebra.BigOperators.Intervals

/-!
# The unframer as a leftmost scan

The mutual recursion of `unpack` and `recoveryRecurse` has a closed form. A packet is returned
exactly when some offset of the buffer holds one, and then it is the packet at the least such
offset. When there is none, the bytes consumed are those of the segments that start at corrupt
packets: a segment reaches from one start byte to the next (`span`), and the segments of incomplete
packets are not counted, wherever they lie (`recoveryRecurse_scan`).
-/

open scoped BigOperators

namespace PyVesc

/-- Bytes from the head of a buffer to the next start byte or to the end. -/
def span : Bytes → ℕ
  | [] => 0
  | _ :: t => t.findIdx (fun x => decide (StartByte x)) + 1

theorem span_pos {w : Bytes} (hw : w ≠ []) : 1 ≤ span w := by
  cases w with
  | nil => exact absurd rfl hw
  | cons x t => exact Nat.succ_le_succ (Nat.zero_le _)

theorem span_le_length (w : Bytes) : span w ≤ w.length := by
  cases w with
  | nil => exact Nat.le_refl _
  | cons x t => exact Nat.succ_le_succ List.findIdx_le_length

theorem startByte_at_span {w : Bytes} (h : span w < w.length) : StartByte w[span w] := by
  cases w with
  | nil => cases h
  | cons x t =>
    have ht : t.findIdx (fun x => decide (StartByte x)) < t.length := Nat.lt_of_succ_lt_succ h
    have hget := List.findIdx_getElem (w := ht)
    simpa only [span, List.getElem_cons_succ, decide_eq_true_eq] using hget

theorem not_startByte_in_span {w : Bytes} {j : ℕ} (h1 : 1 ≤ j) (hj : j < span w)
    (hlt : j < w.length) : ¬ StartByte w[j] := by
  cases w with
  | nil => cases hlt
  | cons x t =>
    obtain ⟨i, rfl⟩ : ∃ i, j = i + 1 := ⟨j - 1, by omega⟩
    have hnot := List.not_of_lt_findIdx (Nat.lt_of_succ_lt_succ hj)
    simpa only [List.getElem_cons_succ, decide_eq_false_iff_not] using hnot

theorem min_shift (o p : Option ℕ) :
    ((o.map (· + 1)).toList ++ (p.map (· + 1)).toList).min? =
      ((o.toList ++ p.toList).min?).map (· + 1) := by
  cases o <;> cases p <;> simp [List.min?]

theorem min_idxOf (t : Bytes) :
    ((t.idxOf? 2).toList ++ (t.idxOf? 3).toList).min? =
      if t.findIdx (fun x => decide (StartByte x)) < t.length then
        some (t.findIdx (fun x => decide (StartByte x))) else none := by
  induction t with
  | nil => rfl
  | cons x t ih =>
    rw [List.idxOf?_cons, List.idxOf?_cons, List.findIdx_cons, List.length_cons]
    by_cases h2 : x = 2
    · subst h2
      cases t.idxOf? 3 <;> simp [StartByte, List.min?]
    · by_cases h3 : x = 3
      · subst h3
        cases t.idxOf? 2 <;> simp [StartByte, List.min?]
      · have hs : ¬ StartByte x := fun h => h.elim h2 h3
        simp only [beq_iff_eq, h2, h3, if_false, hs, decide_false, cond_false, min_shift, ih,
          Nat.add_lt_add_iff_right]
        split_ifs <;> rfl

theorem nextPossiblePacketIndex_eq (w : Bytes) :
    nextPossiblePacketIndex w = if span w < w.length then some (span w) else none := by
  unfold nextPossiblePacketIndex
  cases w with
  | nil => rfl
  | cons x t =>
    simp only [List.drop_succ_cons, List.drop_zero, min_shift, min_idxOf, span, List.length_cons,
      Nat.add_lt_add_iff_right]
    split_ifs with h1 h2 h2
    · omega
    · rfl
    · rfl
    · rfl

/-! ### Segments

The start bytes after offset 0 cut a buffer into segments. `segments P b a i` adds up the lengths of
those that start in `[a, i)` and satisfy `P` there. -/

section Segments
variable (P Q : Bytes → Prop) [DecidablePred P] [DecidablePred Q]

def segment (b : Bytes) (j : ℕ) : ℕ := if P (b.drop j) then span (b.drop j) else 0

def segments (b : Bytes) (a i : ℕ) : ℕ := ∑ j ∈ Finset.Ico a i, segment P b j

variable {P Q}

theorem startByte_of_startsPacket_drop {b : Bytes} {j : ℕ} (hs : StartsPacket (b.drop j)) :
    ∃ hj : j < b.length, StartByte b[j] := by
  obtain ⟨x, hx, hstart⟩ := hs
  rw [List.head?_drop, Option.mem_def] at hx
  obtain ⟨hj, rfl⟩ := List.getElem?_eq_some_iff.mp hx
  exact ⟨hj, hstart⟩

theorem startsPacket_drop {b : Bytes} {j : ℕ} (hj : j < b.length)
    (hs : StartByte b[j]) : StartsPacket (b.drop j) := by
  refine ⟨b[j], ?_, hs⟩
  rw [List.head?_drop, Option.mem_def, List.getElem?_eq_getElem hj]

theorem not_startsPacket_in_span {w : Bytes} {j : ℕ} (h1 : 1 ≤ j) (hj : j < span w) :
    ¬ StartsPacket (w.drop j) := by
  intro hs
  obtain ⟨hlt, hstart⟩ := startByte_of_startsPacket_drop hs
  exact not_startByte_in_span h1 hj hlt hstart

theorem segment_drop (b : Bytes) (d j : ℕ) : segment P (b.drop d) j = segment P b (d + j) := by
  rw [segment, segment, List.drop_drop]

theorem segments_drop (b : Bytes) (d a i : ℕ) :
    segments P (b.drop d) a i = segments P b (d + a) (d + i) := by
  simp only [segments, segment_drop]
  rw [Finset.sum_Ico_add (segment P b), Nat.add_comm a, Nat.add_comm i]

theorem segments_head {b : Bytes} {i : ℕ} (hi : 0 < i) :
    segments P b 0 i = segment P b 0 + segments P b 1 i :=
  Finset.sum_eq_sum_Ico_succ_bot hi _

theorem segments_mono (hPQ : ∀ w, P w → Q w) (b : Bytes) (a i : ℕ) :
    segments P b a i ≤ segments Q b a i := by
  apply Finset.sum_le_sum
  intro j _
  by_cases hP : P (b.drop j)
  · rw [segment, segment, if_pos hP, if_pos (hPQ _ hP)]
  · rw [segment, if_neg hP]
    exact Nat.zero_le _

/-- Between the head of a buffer and its next start byte no segment starts. -/
theorem segments_one (hP : ∀ w, P w → StartsPacket w) {w : Bytes} (hw : w ≠ []) {i : ℕ}
    (hi : span w ≤ i) : segments P w 1 i = segments P w (span w) i := by
  rw [segments, segments, ← Finset.sum_Ico_consecutive _ (span_pos hw) hi, Nat.add_eq_right]
  apply Finset.sum_eq_zero
  intro j hj
  obtain ⟨hj1, hjs⟩ := Finset.mem_Ico.mp hj
  exact if_neg (fun h => not_startsPacket_in_span hj1 hjs (hP _ h))

/-- The bytes before the first start byte and the segments after it make up the whole buffer, and
likewise every part of it that ends where a segment starts. -/
theorem segments_tile {w : Bytes} (hw : w ≠ []) {i : ℕ} (h1 : 1 ≤ i) (hi : i ≤ w.length)
    (hend : i = w.length ∨ StartsPacket (w.drop i)) :
    span w + segments StartsPacket w 1 i = i := by
  induction hlen : w.length using Nat.strong_induction_on generalizing w i with
  | _ len ih =>
    subst hlen
    have hle : span w ≤ i := by
      by_contra! hlt
      obtain rfl | hs := hend
      · exact absurd (span_le_length w) (Nat.not_le.mpr hlt)
      · exact not_startsPacket_in_span h1 hlt hs
    rw [segments_one (fun _ h => h) hw hle]
    obtain rfl | hlt := Nat.eq_or_lt_of_le hle
    · rw [segments, Finset.Ico_self, Finset.sum_empty, Nat.add_zero]
    · have hpos := span_pos hw
      have hs : span w < w.length := by omega
      have hv : w.drop (span w) ≠ [] :=
        List.ne_nil_of_length_pos (by rw [List.length_drop]; omega)
      have hstart := startsPacket_drop hs (startByte_at_span hs)
      obtain ⟨k, rfl⟩ : ∃ k, i = span w + k := ⟨i - span w, by omega⟩
      have htile := ih (w.drop (span w)).length (by rw [List.length_drop]; omega) hv
        (i := k) (by omega) (by rw [List.length_drop]; omega)
        (by rw [List.length_drop, List.drop_drop]; exact hend.imp_left (fun h => by omega)) rfl
      have hdrop := segments_drop (P := StartsPacket) w (span w) 0 k
      rw [Nat.add_zero] at hdrop
      rw [← hdrop, segments_head (by omega), segment, List.drop_zero, if_pos hstart, htile]

end Segments

variable (crc : Bytes → UInt16)

/-- The corrupt segments from offset `a` to the end. -/
def corruptSegments (b : Bytes) (a : ℕ) : ℕ := segments (HeadCorrupt crc) b a b.length

theorem corruptSegments_drop (b : Bytes) (d a : ℕ) (hd : d ≤ b.length) :
    corruptSegments crc (b.drop d) a = corruptSegments crc b (d + a) := by
  rw [corruptSegments, corruptSegments, segments_drop, List.length_drop, Nat.add_sub_cancel' hd]

theorem corruptSegments_zero {w : Bytes} (hw : w ≠ []) : corruptSegments crc w 0 =
    (if HeadCorrupt crc w then span w else 0) + corruptSegments crc w 1 := by
  rw [corruptSegments, segments_head (List.length_pos_iff.mpr hw), segment, List.drop_zero]
  rfl

theorem corruptSegments_one {w : Bytes} (hw : w ≠ []) :
    corruptSegments crc w 1 = corruptSegments crc w (span w) :=
  segments_one (fun _ h => h.startsPacket crc) hw (span_le_length w)

theorem span_add_corruptSegments_le {w : Bytes} (hw : w ≠ []) :
    span w + corruptSegments crc w 1 ≤ w.length := by
  have htile := segments_tile hw (List.length_pos_iff.mpr hw) (Nat.le_refl _) (Or.inl rfl)
  have hmono := segments_mono (fun w (h : HeadCorrupt crc w) => h.startsPacket crc) w 1 w.length
  rw [corruptSegments]
  omega

/-! ### Packets and their leftmost one -/

/-- The first packet at or after offset `a`. -/
structure FirstPacket (b : Bytes) (a i h n : ℕ) : Prop where
  le : a ≤ i
  packet : PacketAt crc b i h n
  first : ∀ j, a ≤ j → j < i → ∀ h' n', ¬ PacketAt crc b j h' n'

theorem PacketAt.startByte {b : Bytes} {i h n : ℕ} (hp : PacketAt crc b i h n) :
    ∃ hi : i < b.length, StartByte b[i] :=
  startByte_of_startsPacket_drop (hp.startsPacket crc)

theorem packetAt_drop (b : Bytes) (d i h n : ℕ) :
    PacketAt crc (b.drop d) i h n ↔ PacketAt crc b (d + i) h n := by
  rw [PacketAt, PacketAt, List.drop_drop]

/-- No packet starts before the next start byte. -/
theorem not_packetAt_in_span {w : Bytes} {j : ℕ} (h1 : 1 ≤ j) (hj : j < span w) (h n : ℕ) :
    ¬ PacketAt crc w j h n := by
  intro hp
  obtain ⟨hlt, hs⟩ := hp.startByte crc
  exact not_startByte_in_span h1 hj hlt hs

theorem firstPacket_drop_span {w : Bytes} {i h n : ℕ}
    (hf : FirstPacket crc (w.drop (span w)) 0 i h n) (hw : w ≠ []) :
    FirstPacket crc w 1 (span w + i) h n := by
  have h1 := span_pos hw
  refine ⟨by omega, (packetAt_drop crc w _ i h n).mp hf.packet, ?_⟩
  intro j hj1 hji h' n'
  by_cases hjs : j < span w
  · exact not_packetAt_in_span crc hj1 hjs h' n'
  · obtain ⟨k, rfl⟩ : ∃ k, j = span w + k := ⟨j - span w, by omega⟩
    rw [← packetAt_drop]
    exact hf.first k (Nat.zero_le _) (by omega) h' n'

theorem not_packetAt_drop_span {w : Bytes}
    (hnone : ∀ i h n, ¬ PacketAt crc (w.drop (span w)) i h n) :
    ∀ i h n, 1 ≤ i → ¬ PacketAt crc w i h n := by
  intro i h n hi
  by_cases his : i < span w
  · exact not_packetAt_in_span crc hi his h n
  · obtain ⟨k, rfl⟩ : ∃ k, i = span w + k := ⟨i - span w, by omega⟩
    rw [← packetAt_drop]
    exact hnone k h n

/-- The outcome of a scan from offset `a`: the first packet, or `skip` bytes and no packet. -/
def ScanFrom (b : Bytes) (a skip : ℕ) (out : Option Bytes × ℕ) : Prop :=
  (∃ i h n, FirstPacket crc b a i h n ∧
    out = (some (slice b (i + h) (i + h + n)), i + h + n + 3)) ∨
  ((∀ i h n, a ≤ i → ¬ PacketAt crc b i h n) ∧ out = (none, skip))

theorem slice_drop {α : Type*} (b : List α) (d i j : ℕ) :
    slice (b.drop d) i j = slice b (d + i) (d + j) := by
  rw [slice, slice, List.drop_drop, Nat.add_sub_add_left]

theorem scanFrom_packet {w : Bytes} {h n : ℕ} (hp : HeadPacket crc w h n) (skip : ℕ) :
    ScanFrom crc w 0 skip (some (slice w h (h + n)), h + n + 3) := by
  refine Or.inl ⟨0, h, n, ⟨Nat.le_refl _, ?_, ?_⟩, by simp only [Nat.zero_add]⟩
  · exact hp
  · intro j _ hj
    omega

/-- A scan past a head that holds no packet is a scan of the whole buffer. -/
theorem scanFrom_zero {w : Bytes} {skip : ℕ} {out : Option Bytes × ℕ}
    (hhead : ∀ h n, ¬ HeadPacket crc w h n) (hs : ScanFrom crc w 1 skip out) :
    ScanFrom crc w 0 skip out := by
  obtain ⟨i, h, n, hf, hout⟩ | ⟨hnone, hout⟩ := hs
  · refine Or.inl ⟨i, h, n, ⟨Nat.zero_le _, hf.packet, ?_⟩, hout⟩
    intro j _ hji h' n'
    by_cases hj : j = 0
    · subst hj
      exact hhead h' n'
    · exact hf.first j (by omega) hji h' n'
  · refine Or.inr ⟨?_, hout⟩
    intro i h n _
    by_cases hi : i = 0
    · subst hi
      exact hhead h n
    · exact hnone i h n (by omega)

/-! ### The recursion -/

/-- Scanning in recovery mode from a start byte, where going on behind it scans as it should. -/
theorem unpack_scan {v : Bytes} (hv : v ≠ []) (hstart : StartsPacket v) {depth : ℕ}
    (hrecover : ∀ consume, ∃ out, recoveryRecurse crc depth v none .ignore consume = .ok out ∧
      ScanFrom crc v 1 ((if consume then span v else 0) + corruptSegments crc v 1) out) :
    ∃ out, unpack crc (depth + 1) v none .ignore true = .ok out ∧
      ScanFrom crc v 0 (corruptSegments crc v 0) out := by
  rw [corruptSegments_zero crc hv]
  obtain ⟨h, n, hp⟩ | hc | hi := head_cases crc hstart
  · refine ⟨_, ?_, scanFrom_packet crc hp _⟩
    simp only [unpack, attempt_packet crc hp]
  · obtain ⟨out, hout, hscan⟩ := hrecover true
    obtain ⟨message, hatt⟩ := attempt_corrupt crc hc
    refine ⟨out, by simp only [unpack, hatt, hout], scanFrom_zero crc ?_ ?_⟩
    · exact fun h n hp => hp.not_corrupt crc hc
    · simpa only [if_pos hc, if_true] using hscan
  · obtain ⟨out, hout, hscan⟩ := hrecover false
    refine ⟨out, ?_, scanFrom_zero crc ?_ ?_⟩
    · simp only [unpack, attempt_pending crc (Or.inr hi), if_true, hout]
    · exact fun h n hp => hp.not_pending crc (Or.inr hi)
    · have hc : ¬ HeadCorrupt crc v := fun hc => hc.not_incomplete crc hi
      simpa only [if_neg hc, Bool.false_eq_true, if_false] using hscan

/-- The recovery from offset 1 on finds the first packet there; without one it consumes the corrupt
segments and, if asked to, the bytes before the first start byte. -/
theorem recoveryRecurse_scan (w : Bytes) (hw : w ≠ []) (depth : ℕ) (header : Option Header)
    (consume : Bool) (hdepth : 2 * w.length ≤ depth + 1) :
    ∃ out, recoveryRecurse crc depth w header .ignore consume = .ok out ∧
      ScanFrom crc w 1 ((if consume then span w else 0) + corruptSegments crc w 1) out := by
  induction hlen : w.length using Nat.strong_induction_on generalizing w depth header consume with
  | _ len ih =>
    subst hlen
    have hpos := List.length_pos_iff.mpr hw
    obtain ⟨depth, rfl⟩ : ∃ k, depth = k + 1 := ⟨depth - 1, by omega⟩
    rw [corruptSegments_one crc hw]
    by_cases hs : span w < w.length
    · have h1 := span_pos hw
      obtain ⟨depth, rfl⟩ : ∃ k, depth = k + 1 := ⟨depth - 1, by omega⟩
      have hvlen : (w.drop (span w)).length = w.length - span w := List.length_drop
      have hv : w.drop (span w) ≠ [] := List.ne_nil_of_length_pos (by omega)
      have hstart := startsPacket_drop hs (startByte_at_span hs)
      -- the candidate at the next start byte, scanned in recovery mode
      obtain ⟨out, hout, hscan⟩ := unpack_scan crc hv hstart fun consume =>
        ih _ (by omega) _ hv depth none consume (by omega) rfl
      rw [corruptSegments_drop crc w _ 0 hs.le, Nat.add_zero] at hscan
      simp only [recoveryRecurse, nextPossiblePacketIndex_eq, if_pos hs, hout, bind, Except.bind]
      obtain ⟨i, h, n, hf, rfl⟩ | ⟨hnone, rfl⟩ := hscan
      · refine ⟨_, rfl, Or.inl ⟨span w + i, h, n, firstPacket_drop_span crc hf hw, ?_⟩⟩
        rw [slice_drop]
        simp only [Prod.mk.injEq, Option.some.injEq]
        exact ⟨by simp only [Nat.add_assoc], by omega⟩
      · have hnone' := not_packetAt_drop_span crc (fun i h n => hnone i h n (Nat.zero_le _))
        cases consume
        · exact ⟨_, rfl, Or.inr ⟨hnone', by simp⟩⟩
        · exact ⟨_, rfl, Or.inr ⟨hnone', by simp [Nat.add_comm]⟩⟩
    · have hall : span w = w.length := Nat.le_antisymm (span_le_length w) (Nat.le_of_not_lt hs)
      have hsum : corruptSegments crc w (span w) = 0 := by
        rw [hall, corruptSegments, segments, Finset.Ico_self, Finset.sum_empty]
      have hnone : ∀ i h n, 1 ≤ i → ¬ PacketAt crc w i h n := by
        intro i h n hi hp
        obtain ⟨hlt, _⟩ := hp.startByte crc
        exact not_packetAt_in_span crc hi (by omega) h n hp
      simp only [recoveryRecurse, nextPossiblePacketIndex_eq, if_neg hs]
      cases consume
      · exact ⟨_, rfl, Or.inr ⟨hnone, by simp [hsum]⟩⟩
      · exact ⟨_, rfl, Or.inr ⟨hnone, by rw [hsum, if_pos rfl, hall, Nat.add_zero]⟩⟩

end PyVesc
