import PyVesc.Crc16
import PyVesc.Unframe

/-!
# Damage to the body of a packet

A frame whose header arrives as it was sent and whose body does not: the payload or the checksum is
changed within 16 consecutive bits, or the terminator is another byte. The unframer never delivers
such a packet.
-/

namespace PyVesc

open Crc16 CyclicCode

/-- The bytes of a frame between its header and its terminator. -/
def frameBody (p : Bytes) : Bytes := p ++ BigEndian.ofNat 2 (xmodem p).toNat

/-- The frame of `p` with the body and the terminator replaced: a terminator other than 3, or an
error in the body that is not zero and lies within 16 consecutive bits. -/
def DamagedFrame (p w : Bytes) : Prop :=
  ∃ body terminator, w = frameHeader p ++ (body ++ [terminator]) ∧
    body.length = (frameBody p).length ∧
    (terminator ≠ 3 ∨
      Burst 16 (List.zipWith xor (messageBits (frameBody p)) (messageBits body)))

/-- The strict unframer raises, and the lenient one finds a packet only behind the first byte. -/
def NotAtHead (b : Bytes) : Prop :=
  (∃ message, unframe xmodem b .strict = .error (.corruptPacket message)) ∧
    ∀ q consumed, unframe xmodem b .ignore = .ok (some q, consumed) →
      ∃ i h n, 1 ≤ i ∧ PacketAt xmodem b i h n ∧ q = slice b (i + h) (i + h + n) ∧
        consumed = i + h + n + 3

theorem frameBytes_eq_body (p : Bytes) :
    frameBytes xmodem p = frameHeader p ++ (frameBody p ++ [3]) := by
  rw [frameBytes, frameBody, List.append_assoc, List.append_assoc]

theorem length_frameBody (p : Bytes) : (frameBody p).length = p.length + 2 := by
  rw [frameBody, List.length_append, BigEndian.length_ofNat]

theorem xmodem_frameBody (p : Bytes) : xmodem (frameBody p) = 0 := by
  apply xmodem_append_eq_zero (BigEndian.length_ofNat 2 _)
  exact (BigEndian.toNat_ofNat (xmodem p).toNat_lt).symm

theorem Intact.of_append {crc : Bytes → UInt16} {head q s t : Bytes} {terminator : UInt8}
    (hs : s.length = 2)
    (hok : Intact crc (head ++ (q ++ s ++ [terminator]) ++ t) head.length q.length) :
    (crc q).toNat = BigEndian.toNat s ∧ terminator = 3 := by
  obtain ⟨hcrc, hterm⟩ := hok
  have hdrop : (head ++ (q ++ s ++ [terminator]) ++ t).drop (head.length + q.length) =
      s ++ (terminator :: t) := by
    have hsplit : head ++ (q ++ s ++ [terminator]) ++ t =
        (head ++ q) ++ (s ++ (terminator :: t)) := by
      simp only [List.append_assoc, List.singleton_append]
    rw [hsplit, ← List.length_append, List.drop_left]
  have hpayload : slice (head ++ (q ++ s ++ [terminator]) ++ t) head.length
      (head.length + q.length) = q := by
    rw [slice, Nat.add_sub_cancel_left, List.append_assoc, List.drop_left, List.append_assoc,
      List.append_assoc, List.take_left]
  have hchecksum : slice (head ++ (q ++ s ++ [terminator]) ++ t) (head.length + q.length)
      (head.length + q.length + 2) = s := by
    rw [slice, hdrop, Nat.add_sub_cancel_left, ← hs, List.take_left]
  rw [hpayload, hchecksum] at hcrc
  rw [← List.getElem?_drop, hdrop, ← hs, List.getElem?_append_right (Nat.le_refl _),
    Nat.sub_self] at hterm
  exact ⟨hcrc, Option.some.inj hterm⟩

theorem DamagedFrame.corrupt {p w : Bytes} (hlt : p.length < 65536) (hw : DamagedFrame p w)
    (t : Bytes) : HeadCorrupt xmodem (w ++ t) := by
  obtain ⟨body, terminator, rfl, hlen, hdamage⟩ := hw
  have hbody : body.length = p.length + 2 := by rw [hlen, length_frameBody]
  have hannounced : announced (frameHeader p ++ (body ++ [terminator]) ++ t) =
      some ((frameHeader p).length, p.length) := by
    rw [List.append_assoc]
    exact announced_frameHeader hlt _
  refine ⟨_, hannounced, ?_, ?_⟩
  · simp only [List.length_append, List.length_singleton, hbody]
    omega
  · intro hok
    obtain ⟨q, s, rfl, hq, hs⟩ : ∃ q s, body = q ++ s ∧ q.length = p.length ∧ s.length = 2 := by
      refine ⟨body.take p.length, body.drop p.length, (List.take_append_drop _ _).symm, ?_, ?_⟩
      · rw [List.length_take, hbody]
        omega
      · rw [List.length_drop, hbody]
        omega
    change Intact xmodem _ (frameHeader p).length p.length at hok
    rw [← hq] at hok
    obtain ⟨hcrc, hthree⟩ := Intact.of_append hs hok
    rcases hdamage with hne | hburst
    · exact hne hthree
    · apply xmodem_ne_of_burst hlen.symm hburst
      rw [xmodem_frameBody, xmodem_append_eq_zero hs hcrc]

theorem HeadCorrupt.notAtHead {b : Bytes} (hc : HeadCorrupt xmodem b) : NotAtHead b := by
  obtain ⟨message, hattempt⟩ := attempt_corrupt xmodem hc
  refine ⟨⟨message, ?_⟩, ?_⟩
  · rw [unframe, unpack, hattempt]
  · intro q consumed hunframe
    rw [unframe_eq_scan, Except.ok.injEq] at hunframe
    have hunframes := scan_unframes xmodem b
    rw [hunframe] at hunframes
    rcases hunframes with ⟨_, hout⟩ | ⟨_, hscan⟩
    · cases hout
    · rcases hscan with ⟨i, h, n, hfirst, hout⟩ | ⟨_, hout⟩
      · cases hout
        refine ⟨i, h, n, ?_, hfirst.packet, rfl, rfl⟩
        apply Nat.one_le_iff_ne_zero.mpr
        rintro rfl
        exact HeadPacket.not_corrupt xmodem hfirst.packet hc
      · cases hout

/-- A frame with one byte changed behind its header is a damaged one. -/
theorem damagedFrame_set {p : Bytes} {k : ℕ} {x : UInt8} (hk : (frameHeader p).length ≤ k)
    (hlt : k < (frameBytes xmodem p).length) (hne : (frameBytes xmodem p)[k]? ≠ some x) :
    DamagedFrame p ((frameBytes xmodem p).set k x) := by
  obtain ⟨j, rfl⟩ := Nat.exists_eq_add_of_le hk
  rw [frameBytes_eq_body] at hlt hne ⊢
  rw [List.getElem?_append_right (Nat.le_add_right _ _), Nat.add_sub_cancel_left] at hne
  rw [List.length_append, List.length_append, List.length_singleton] at hlt
  rw [List.set_append_right _ _ (Nat.le_add_right _ _), Nat.add_sub_cancel_left]
  by_cases hj : j < (frameBody p).length
  · rw [List.getElem?_append_left hj, List.getElem?_eq_getElem hj] at hne
    rw [List.set_append_left _ _ hj]
    refine ⟨_, 3, rfl, List.length_set, Or.inr ?_⟩
    have hold : frameBody p =
        (frameBody p).take j ++ (frameBody p)[j] :: (frameBody p).drop (j + 1) :=
      by rw [← List.drop_eq_getElem_cons hj, List.take_append_drop]
    have hbits : (frameBody p)[j].toBitVec ≠ x.toBitVec :=
      fun heq => hne (congrArg some (UInt8.toBitVec_inj.mp heq))
    rw [List.set_eq_take_append_cons_drop, if_pos hj]
    nth_rewrite 1 [hold]
    rw [messageBits_append, messageBits_append, messageBits_cons, messageBits_cons]
    exact (burst_of_word hbits _ _).mono (by decide)
  · have hj' : j = (frameBody p).length := by omega
    rw [hj', List.getElem?_append_right (Nat.le_refl _), Nat.sub_self] at hne
    rw [hj', List.set_append_right _ _ (Nat.le_refl _), Nat.sub_self]
    refine ⟨_, x, rfl, rfl, Or.inl ?_⟩
    rintro rfl
    exact hne rfl

/-- Whatever follows it, a damaged frame is not taken for a packet, and neither is a frame with one
byte changed in its payload, its checksum or its terminator. -/
theorem damage_detected {p fr : Bytes} (hframe : frame xmodem p = .ok fr) (t : Bytes) :
    (∀ w, DamagedFrame p w → NotAtHead (w ++ t)) ∧
      ∀ k x, (frameHeader p).length ≤ k → k < fr.length → fr[k]? ≠ some x →
        NotAtHead (fr.set k x ++ t) := by
  obtain ⟨⟨_, hlen⟩, rfl⟩ := (frame_ok_iff xmodem).mp hframe
  constructor
  · intro w hw
    exact (hw.corrupt hlen t).notAtHead
  · intro k x hk hlt hne
    exact ((damagedFrame_set hk hlt hne).corrupt hlen t).notAtHead

/-- The frame of one byte, with that byte changed, and with an error across the border between the
payload and the checksum. -/
theorem damage_detected_oneByte :
    NotAtHead [2, 1, 6, 0x70, 0xe7, 3] ∧ NotAtHead [2, 1, 6, 0xf0, 0xe7, 3, 2] := by
  have hframe : frame xmodem [7] = .ok [2, 1, 7, 0x70, 0xe7, 3] := by decide +kernel
  have hburst : DamagedFrame [7] [2, 1, 6, 0xf0, 0xe7, 3] := by
    refine ⟨[6, 0xf0, 0xe7], 3, by decide, by decide, Or.inr ⟨7, [true, true], 15, ?_, ?_, ?_⟩⟩
    · decide +kernel
    · decide
    · decide
  constructor
  · exact (damage_detected hframe []).2 2 6 (by decide) (by decide) (by decide)
  · exact (damage_detected hframe [2]).1 _ hburst

end PyVesc
