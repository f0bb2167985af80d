import PyVesc.DrainLoops
import PyVesc.Crc16

/-!
# Packets that are still arriving

When no packet is found, the unframer consumes the bytes before the first start byte and the corrupt
segments, but it counts them from the head of the buffer, as if the incomplete segments between them
were not there. The beginning of a packet at offset `i` survives exactly when the corrupt segments
from `i` on are not longer than the incomplete ones before `i` (`unframe_keeps_arriving_iff`).
-/

namespace PyVesc

variable (crc : Bytes → UInt16)

/-- From offset `i` on the buffer holds a proper beginning of the frame of `p`. -/
def Arriving (b : Bytes) (i : ℕ) (p : Bytes) : Prop :=
  Framable p ∧ ∃ s, frame crc p = .ok s ∧ b.drop i ≠ [] ∧ b.drop i <+: s ∧ b.drop i ≠ s

theorem Arriving.headIncomplete {b : Bytes} {i : ℕ} {p : Bytes} (ha : Arriving crc b i p) :
    HeadIncomplete (b.drop i) := by
  obtain ⟨hp, s, hs, hnil, hpre, hne⟩ := ha
  obtain ⟨_, rfl⟩ := (frame_ok_iff crc).mp hs
  obtain ⟨h, n, hpk, hlen, _⟩ := isPacket_frameBytes crc hp.2
  exact headIncomplete_of_beginning hpk.header hlen hpre hne hnil

/-- Where no packet lies, the corrupt and the incomplete segments are all there are. -/
theorem segments_corrupt_add_incomplete {b : Bytes} (hnone : ∀ i h n, ¬ PacketAt crc b i h n)
    (a i : ℕ) : segments (HeadCorrupt crc) b a i + segments HeadIncomplete b a i =
      segments StartsPacket b a i := by
  rw [segments, segments, segments, ← Finset.sum_add_distrib]
  apply Finset.sum_congr rfl
  intro j _
  by_cases hs : StartsPacket (b.drop j)
  · obtain ⟨h, n, hp⟩ | hc | hi := head_cases crc hs
    · exact absurd hp (hnone j h n)
    · rw [segment, segment, segment, if_pos hc, if_neg (hc.not_incomplete crc), if_pos hs,
        Nat.add_zero]
    · have hc : ¬ HeadCorrupt crc (b.drop j) := fun hc => hc.not_incomplete crc hi
      rw [segment, segment, segment, if_neg hc, if_pos hi, if_pos hs, Nat.zero_add]
  · have hc : ¬ HeadCorrupt crc (b.drop j) := fun hc => hs (hc.startsPacket crc)
    have hi : ¬ HeadIncomplete (b.drop j) := fun hi => hs hi.1
    rw [segment, segment, segment, if_neg hc, if_neg hi, if_neg hs]

theorem segments_split (P : Bytes → Prop) [DecidablePred P] (b : Bytes) {a i k : ℕ} (ha : a ≤ i)
    (hi : i ≤ k) : segments P b a i + segments P b i k = segments P b a k :=
  Finset.sum_Ico_consecutive _ ha hi

/-- One arriving packet in a buffer whose head is not pending. -/
theorem consumed_le_iff {b : Bytes} (hb : b ≠ []) (hnone : ∀ i h n, ¬ PacketAt crc b i h n)
    {i : ℕ} (h1 : 1 ≤ i) (hi : HeadIncomplete (b.drop i)) :
    span b + corruptSegments crc b 1 ≤ i ↔
      segments (HeadCorrupt crc) b i b.length ≤ segments HeadIncomplete b 1 i := by
  obtain ⟨hlt, _⟩ := startByte_of_startsPacket_drop hi.1
  have htile := segments_tile hb h1 hlt.le (Or.inr hi.1)
  have hsum := segments_corrupt_add_incomplete crc hnone 1 i
  have hsplit := segments_split (HeadCorrupt crc) b h1 hlt.le
  rw [corruptSegments]
  omega

/-- Exactly when an unframer that returned no packet has kept every packet still arriving. -/
theorem unframe_keeps_arriving_iff (b : Bytes) (c : ℕ)
    (h : unframe crc b .ignore = .ok (none, c)) :
    (∀ i p, Arriving crc b i p → c ≤ i) ↔
      HeadPending b ∨ ∀ i p, Arriving crc b i p →
        segments (HeadCorrupt crc) b i b.length ≤ segments HeadIncomplete b 1 i := by
  have hscan : scan crc b = (none, c) := Except.ok.inj ((unframe_eq_scan crc b).symm.trans h)
  have hu := scan_unframes crc b
  rw [hscan] at hu
  obtain ⟨hp, hout⟩ | ⟨hp, ⟨i, h, n, _, hout⟩ | ⟨hnone, hout⟩⟩ := hu
  · have hc : c = 0 := congrArg Prod.snd hout
    exact iff_of_true (fun i _ _ => hc ▸ Nat.zero_le i) (Or.inl hp)
  · cases hout
  · have hc : c = span b + corruptSegments crc b 1 := congrArg Prod.snd hout
    have hb : b ≠ [] := fun h => hp (Or.inl h)
    have hone (i : ℕ) (p : Bytes) (ha : Arriving crc b i p) :
        c ≤ i ↔ segments (HeadCorrupt crc) b i b.length ≤ segments HeadIncomplete b 1 i := by
      have hi := ha.headIncomplete crc
      have h1 : 1 ≤ i := by
        by_contra h0
        have hz : i = 0 := by omega
        rw [hz, List.drop_zero] at hi
        exact hp (Or.inr hi)
      rw [hc]
      exact consumed_le_iff crc hb (fun i h n => hnone i h n (Nat.zero_le _)) h1 hi
    constructor
    · exact fun hall => Or.inr (fun i p ha => (hone i p ha).mp (hall i p ha))
    · rintro (hp' | hall) i p ha
      · exact absurd hp' hp
      · exact (hone i p ha).mpr (hall i p ha)

/-- A corrupt byte, then a frame of ten payload bytes of which five have arrived, among them the
false start byte of a complete corrupt packet. -/
def cutFrame : Bytes := [0xFF, 2, 10, 2, 0, 1, 1, 1]

theorem unframe_keeps_arriving_cutFrame :
    (∀ i p, Arriving Crc16.xmodem cutFrame i p → 6 ≤ i) ↔
      HeadPending cutFrame ∨ ∀ i p, Arriving Crc16.xmodem cutFrame i p →
        segments (HeadCorrupt Crc16.xmodem) cutFrame i cutFrame.length ≤
          segments HeadIncomplete cutFrame 1 i :=
  unframe_keeps_arriving_iff Crc16.xmodem cutFrame 6 rfl

theorem unframe_drops_arriving :
    ¬ ∀ b c, unframe Crc16.xmodem b .ignore = .ok (none, c) →
      ∀ i p, Arriving Crc16.xmodem b i p → c ≤ i := by
  intro hall
  have hp : Framable [2, 0, 1, 1, 1, 0, 0, 0, 0, 0] := by decide
  have ha : Arriving Crc16.xmodem cutFrame 1 [2, 0, 1, 1, 1, 0, 0, 0, 0, 0] :=
    ⟨hp, _, frame_eq _ hp, by decide, by decide, by decide⟩
  have hle := hall cutFrame 6 rfl 1 _ ha
  omega

end PyVesc
