import PyVesc.Crc16
import PyVesc.Unframe

/-!
# Packets that the framer produces

The framer refuses an empty payload and picks the header form by the length of the payload. The
unframer goes by the start byte alone. It gives exactly the packets of the framer on the buffers
whose first packet has a payload, one of at least 256 bytes if the header is long. What the framer
makes is unframed to its payload whatever follows it.
-/

namespace PyVesc

variable (crc : Bytes → UInt16)

/-- A packet whose header the framer would write for its payload. -/
def CanonicalHeader (h n : ℕ) : Prop := n ≠ 0 ∧ (h = 3 → 256 ≤ n)

/-- The first packet of a buffer, if the unframer looks for one, has a canonical header. -/
def CanonicalFirst (b : Bytes) : Prop :=
  HeadPending b ∨ ∀ i h n, FirstPacket crc b 0 i h n → CanonicalHeader h n

/-- What the unframer accepts ends with the packet that the framer makes of the payload. -/
def AcceptsFramed (b : Bytes) : Prop :=
  ∀ p consumed, unframe crc b .ignore = .ok (some p, consumed) →
    ∃ fr, frame crc p = .ok fr ∧ fr <:+ b.take consumed

variable {crc}

theorem HeadPacket.length_payload {w : Bytes} {h n : ℕ} (hp : HeadPacket crc w h n) :
    (slice w h (h + n)).length = n := by
  have hfits := hp.fits
  rw [length_slice]
  omega

theorem HeadPacket.header_cases {w : Bytes} {h n : ℕ} (hp : HeadPacket crc w h n) :
    h = 2 ∧ w.take h = [2, UInt8.ofNat n] ∧ n < 256 ∨
      h = 3 ∧ w.take h = 3 :: BigEndian.ofNat 2 n ∧ n < 65536 := by
  obtain ⟨l, t, rfl, rfl, rfl⟩ | ⟨l, m, t, rfl, rfl, rfl⟩ := announced_cases hp.header
  · exact Or.inl ⟨rfl, by rw [UInt8.ofNat_toNat]; rfl, l.toNat_lt⟩
  · have hlm : BigEndian.ofNat 2 (l.toNat * 256 + m.toNat) = [l, m] := by
      rw [← BigEndian.toNat_pair]
      exact BigEndian.ofNat_toNat [l, m]
    have hl := l.toNat_lt
    have hm := m.toNat_lt
    exact Or.inr ⟨rfl, by rw [hlm]; rfl, by omega⟩

/-- The bytes of a packet: its header, its payload, the checksum and the terminator. -/
theorem HeadPacket.take_eq {w : Bytes} {h n : ℕ} (hp : HeadPacket crc w h n) :
    w.take (h + n + 3) = w.take h ++ slice w h (h + n) ++
      (BigEndian.ofNat 2 (crc (slice w h (h + n))).toNat ++ [3]) := by
  have hfits := hp.fits
  obtain ⟨hcrc, hterm⟩ := hp.intact
  have hfoot : (w.drop (h + n)).take 3 =
      BigEndian.ofNat 2 (crc (slice w h (h + n))).toNat ++ [3] := by
    have htwo : slice w (h + n) (h + n + 2) = (w.drop (h + n)).take 2 := by
      rw [slice, Nat.add_sub_cancel_left]
    have hlen : ((w.drop (h + n)).take 2).length = 2 := by
      rw [List.length_take, List.length_drop]
      omega
    have hlast : (w.drop (h + n))[2]? = some 3 := by rw [List.getElem?_drop, hterm]
    rw [hcrc, htwo, List.take_add_one, hlast, Option.toList_some]
    nth_rewrite 2 [← hlen]
    rw [BigEndian.ofNat_toNat]
  rw [List.take_add, List.take_add, hfoot, slice, Nat.add_sub_cancel_left]

theorem HeadPacket.framable {w : Bytes} {h n : ℕ} (hp : HeadPacket crc w h n) (hn : n ≠ 0) :
    Framable (slice w h (h + n)) := by
  have hlen := hp.length_payload
  constructor
  · exact List.ne_nil_of_length_pos (by omega)
  · rw [hlen]
    rcases hp.header_cases with ⟨_, _, hlt⟩ | ⟨_, _, hlt⟩ <;> omega

/-- A packet is the one the framer makes of its payload exactly when its header is canonical. -/
theorem HeadPacket.take_eq_frameBytes_iff {w : Bytes} {h n : ℕ} (hp : HeadPacket crc w h n) :
    w.take (h + n + 3) = frameBytes crc (slice w h (h + n)) ↔ (h = 3 → 256 ≤ n) := by
  have hlen := hp.length_payload
  have hheader : w.take h = frameHeader (slice w h (h + n)) ↔ (h = 3 → 256 ≤ n) := by
    rw [frameHeader, hlen]
    rcases hp.header_cases with ⟨rfl, htake, hlt⟩ | ⟨rfl, htake, _⟩
    · rw [htake, if_pos hlt]
      exact iff_of_true rfl fun h => absurd h (by decide)
    · rw [htake]
      by_cases hshort : n < 256
      · rw [if_pos hshort]
        apply iff_of_false
        · intro heq
          cases heq
        · intro hlong
          exact absurd (hlong rfl) (Nat.not_le_of_lt hshort)
      · rw [if_neg hshort]
        exact iff_of_true rfl fun _ => Nat.le_of_not_lt hshort
  rw [hp.take_eq, frameBytes, List.append_left_inj, List.append_left_inj]
  exact hheader

/-- The packet that the framer makes of a payload is never longer than one that carries it. -/
theorem HeadPacket.suffix_iff {w : Bytes} {h n : ℕ} (hp : HeadPacket crc w h n) (front : Bytes) :
    frameBytes crc (slice w h (h + n)) <:+ front ++ w.take (h + n + 3) ↔ (h = 3 → 256 ≤ n) := by
  have hfits := hp.fits
  constructor
  · intro hsuffix hlong
    subst hlong
    by_contra hshort
    have hlen := hp.length_payload
    rcases hp.header_cases with ⟨h2, _⟩ | ⟨_, htake, _⟩
    · cases h2
    · rw [hp.take_eq, frameBytes, List.append_assoc (w.take 3), ← List.append_assoc front,
        List.append_assoc (frameHeader _), List.suffix_append_self_iff, frameHeader, hlen,
        if_pos (by omega), htake] at hsuffix
      -- the short header would put the byte 2 where the long one has the high byte 0 of the length
      have hhigh : BigEndian.ofNat 2 n = [0, UInt8.ofNat (n % 256)] := by
        rw [BigEndian.ofNat, BigEndian.ofNat, BigEndian.ofNat, Nat.div_eq_of_lt (by omega)]
        rfl
      have hend : front ++ 3 :: BigEndian.ofNat 2 n =
          (front ++ [3]) ++ [0, UInt8.ofNat (n % 256)] := by
        rw [hhigh, List.append_assoc]
        rfl
      rw [hend] at hsuffix
      obtain ⟨t, ht⟩ := hsuffix
      cases List.append_inj_right' ht rfl
  · intro hcanon
    rw [hp.take_eq_frameBytes_iff.mpr hcanon]
    exact List.suffix_append _ _

theorem FirstPacket.slice_eq {b : Bytes} {a i h n : ℕ} (_ : FirstPacket crc b a i h n) :
    slice b (i + h) (i + h + n) = slice (b.drop i) h (h + n) := by
  rw [slice_drop, Nat.add_assoc]

/-- The unframer accepts only what the framer produces on the buffers whose first packet has a
canonical header, and on no others. -/
theorem acceptsFramed_iff (crc : Bytes → UInt16) (b : Bytes) :
    AcceptsFramed crc b ↔ CanonicalFirst crc b := by
  constructor
  · intro haccepts
    by_cases hpending : HeadPending b
    · exact Or.inl hpending
    · apply Or.inr
      intro i h n hfirst
      have hpacket : HeadPacket crc (b.drop i) h n := hfirst.packet
      have hunframe := unframe_eq_scan crc b
      rw [scan_firstPacket crc hpending hfirst, hfirst.slice_eq] at hunframe
      obtain ⟨fr, hframe, hsuffix⟩ := haccepts _ _ hunframe
      obtain ⟨⟨hne, _⟩, rfl⟩ := (frame_ok_iff crc).mp hframe
      have htake : b.take (i + h + n + 3) = b.take i ++ (b.drop i).take (h + n + 3) := by
        rw [← List.take_add, Nat.add_assoc i, Nat.add_assoc i]
      rw [htake, hpacket.suffix_iff] at hsuffix
      refine ⟨?_, hsuffix⟩
      rintro rfl
      exact hne (by rw [slice, Nat.add_zero, Nat.sub_self, List.take_zero])
  · intro hcanonical p consumed hunframe
    rw [unframe_eq_scan, Except.ok.injEq] at hunframe
    obtain ⟨_, hout⟩ | ⟨hpending, hscan⟩ := scan_unframes crc b
    · rw [hunframe] at hout
      cases hout
    · obtain ⟨i, h, n, hfirst, hout⟩ | ⟨_, hout⟩ := hscan
      · rw [hunframe, hfirst.slice_eq] at hout
        cases hout
        have hpacket : HeadPacket crc (b.drop i) h n := hfirst.packet
        obtain ⟨hn, hlong⟩ := hcanonical.resolve_left hpending i h n hfirst
        refine ⟨_, frame_eq crc (hpacket.framable hn), ?_⟩
        have htake : b.take (i + h + n + 3) = b.take i ++ (b.drop i).take (h + n + 3) := by
          rw [← List.take_add, Nat.add_assoc i, Nat.add_assoc i]
        rw [htake]
        exact (hpacket.suffix_iff _).mpr hlong
      · rw [hunframe] at hout
        cases hout

/-- A packet without payload, which the framer refuses, and a payload of one byte in the long form,
which the framer would put in the short one. -/
theorem accepts_uncanonical :
    unframe Crc16.xmodem [2, 0, 0, 0, 3] .ignore = .ok (some [], 5) ∧
      frame Crc16.xmodem [] = .error (.invalidPayload "Empty payload") ∧
      unframe Crc16.xmodem [3, 0, 1, 7, 0x70, 0xe7, 3] .ignore = .ok (some [7], 7) ∧
      frame Crc16.xmodem [7] = .ok [2, 1, 7, 0x70, 0xe7, 3] ∧
      ¬ AcceptsFramed Crc16.xmodem [2, 0, 0, 0, 3] ∧
      ¬ AcceptsFramed Crc16.xmodem [3, 0, 1, 7, 0x70, 0xe7, 3] := by
  have hempty : unframe Crc16.xmodem [2, 0, 0, 0, 3] .ignore = .ok (some [], 5) := by
    decide +kernel
  have hlong : unframe Crc16.xmodem [3, 0, 1, 7, 0x70, 0xe7, 3] .ignore = .ok (some [7], 7) := by
    decide +kernel
  have hframe : frame Crc16.xmodem [7] = .ok [2, 1, 7, 0x70, 0xe7, 3] := by decide +kernel
  refine ⟨hempty, rfl, hlong, hframe, fun haccepts => ?_, fun haccepts => ?_⟩
  · obtain ⟨fr, hfr, _⟩ := haccepts _ _ hempty
    cases hfr
  · obtain ⟨fr, hfr, hsuffix⟩ := haccepts _ _ hlong
    rw [hframe] at hfr
    cases hfr
    revert hsuffix
    decide

/-! ### What the framer makes -/

section Framed
variable (crc : Bytes → UInt16) (errors : Errors)

theorem unframe_packet {w : Bytes} {h n : ℕ} (hp : HeadPacket crc w h n) :
    unframe crc w errors = .ok (some (slice w h (h + n)), h + n + 3) := by
  change unpack crc (2 * w.length + 1 + 1) w none errors false = _
  rw [unpack, attempt_packet crc hp]

theorem unframe_pending {w : Bytes} (hp : HeadPending w) :
    unframe crc w errors = .ok (none, 0) := by
  change unpack crc (2 * w.length + 1 + 1) w none errors false = _
  rw [unpack, attempt_pending crc hp, if_neg Bool.false_ne_true]

theorem frame_invalidPayload_iff (p : Bytes) :
    (∃ message, frame crc p = .error (.invalidPayload message)) ↔ p = [] ∨ 65536 ≤ p.length := by
  constructor
  · rintro ⟨message, herror⟩
    by_contra hnot
    rw [not_or, not_le] at hnot
    rw [frame_eq crc hnot] at herror
    cases herror
  · intro hp
    by_cases hempty : p = []
    · exact ⟨_, if_pos hempty⟩
    · have hlong := hp.resolve_left hempty
      rw [frame, if_neg hempty, Header.generate, if_neg (by omega), if_neg (by omega)]
      exact ⟨_, rfl⟩

theorem length_frameHeader (p : Bytes) :
    (frameHeader p).length = if p.length < 256 then 2 else 3 := by
  rw [frameHeader]
  by_cases hshort : p.length < 256
  · rw [if_pos hshort, if_pos hshort]
    rfl
  · rw [if_neg hshort, if_neg hshort, List.length_cons, BigEndian.length_ofNat]

/-- Unframing undoes framing in front of any other bytes, and takes no beginning of a frame for
it. -/
theorem unframe_frame (p : Bytes) :
    ((∃ message, frame crc p = .error (.invalidPayload message)) ↔
        p = [] ∨ 65536 ≤ p.length) ∧
      (¬(p = [] ∨ 65536 ≤ p.length) → ∃ fr, frame crc p = .ok fr ∧
        fr.length = (if p.length < 256 then p.length + 5 else p.length + 6) ∧
        (∀ t, unframe crc (fr ++ t) errors = .ok (some p, fr.length)) ∧
        ∀ u, u <+: fr → u ≠ fr → unframe crc u errors = .ok (none, 0)) := by
  refine ⟨frame_invalidPayload_iff crc p, fun hp => ?_⟩
  rw [not_or, not_le] at hp
  obtain ⟨h, n, hpacket, hlen, hpayload⟩ := isPacket_frameBytes crc hp.2
  refine ⟨frameBytes crc p, frame_eq crc hp, ?_, ?_, ?_⟩
  · rw [length_frameBytes, length_frameHeader]
    split_ifs <;> omega
  · intro t
    rw [unframe_packet crc errors (hpacket.append crc t), slice_append_left (by omega), ← hpayload,
      hlen]
  · intro u hu hne
    apply unframe_pending
    by_cases hnil : u = []
    · exact Or.inl hnil
    · exact Or.inr (headIncomplete_of_beginning hpacket.header hlen hu hne hnil)

end Framed

end PyVesc
