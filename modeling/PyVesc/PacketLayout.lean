import PyVesc.PacketCodec

/-!
# What a buffer holds at an offset

The wire layout of a packet, stated on the bytes alone: a start byte 2 or 3, a payload length of
one or two bytes, the payload, its checksum, and the terminator 3. At an offset with a start byte a
buffer holds a complete packet that is intact (`HeadPacket`), a complete one that is not
(`HeadCorrupt`), or the beginning of one (`HeadIncomplete`). One attempt of the codec distinguishes
exactly these cases.
-/

namespace PyVesc

def StartByte (x : UInt8) : Prop := x = 2 ∨ x = 3

instance : DecidablePred StartByte := fun x => inferInstanceAs (Decidable (x = 2 ∨ x = 3))

def StartsPacket (w : Bytes) : Prop := ∃ x ∈ w.head?, StartByte x

instance (w : Bytes) : Decidable (StartsPacket w) :=
  inferInstanceAs (Decidable (∃ x ∈ w.head?, StartByte x))

/-- Header length and payload length of the packet that starts a buffer, once its header is
there. -/
def announced : Bytes → Option (ℕ × ℕ)
  | a :: l :: rest =>
    if a = 2 then some (2, l.toNat)
    else if a = 3 then rest.head?.map (fun m => (3, l.toNat * 256 + m.toNat))
    else none
  | _ => none

variable (crc : Bytes → UInt16)

/-- The checksum and the terminator of the packet are right. -/
def Intact (w : Bytes) (h n : ℕ) : Prop :=
  (crc (slice w h (h + n))).toNat = BigEndian.toNat (slice w (h + n) (h + n + 2)) ∧
    w[h + n + 2]? = some 3

instance (w : Bytes) (h n : ℕ) : Decidable (Intact crc w h n) :=
  inferInstanceAs (Decidable (_ ∧ _))

structure HeadPacket (w : Bytes) (h n : ℕ) : Prop where
  header : announced w = some (h, n)
  fits : h + n + 3 ≤ w.length
  intact : Intact crc w h n

def HeadCorrupt (w : Bytes) : Prop :=
  ∃ p ∈ announced w, p.1 + p.2 + 3 ≤ w.length ∧ ¬ Intact crc w p.1 p.2

instance (w : Bytes) : Decidable (HeadCorrupt crc w) :=
  inferInstanceAs (Decidable (∃ p ∈ announced w, _))

def HeadIncomplete (w : Bytes) : Prop :=
  StartsPacket w ∧ ∀ p ∈ announced w, w.length < p.1 + p.2 + 3

instance (w : Bytes) : Decidable (HeadIncomplete w) := inferInstanceAs (Decidable (_ ∧ _))

/-- Nothing is there, or the packet that starts the buffer does not fit in it. -/
def HeadPending (w : Bytes) : Prop := w = [] ∨ HeadIncomplete w

instance (w : Bytes) : Decidable (HeadPending w) := inferInstanceAs (Decidable (_ ∨ _))

/-- A complete valid packet with `h` header bytes and `n` payload bytes at offset `i`. -/
def PacketAt (b : Bytes) (i h n : ℕ) : Prop := HeadPacket crc (b.drop i) h n

theorem announced_cases {w : Bytes} {h n : ℕ} (ha : announced w = some (h, n)) :
    (∃ l t, w = 2 :: l :: t ∧ h = 2 ∧ n = l.toNat) ∨
      ∃ l m t, w = 3 :: l :: m :: t ∧ h = 3 ∧ n = l.toNat * 256 + m.toNat := by
  match w with
  | [] => cases ha
  | [_] => cases ha
  | a :: l :: t =>
    simp only [announced] at ha
    split_ifs at ha with h2 h3
    · cases ha
      exact Or.inl ⟨l, t, by rw [h2], rfl, rfl⟩
    · match t with
      | [] => cases ha
      | m :: t =>
        cases ha
        exact Or.inr ⟨l, m, t, by rw [h3], rfl, rfl⟩

theorem startsPacket_of_announced {w : Bytes} {h n : ℕ} (ha : announced w = some (h, n)) :
    StartsPacket w := by
  obtain ⟨l, t, rfl, _, _⟩ | ⟨l, m, t, rfl, _, _⟩ := announced_cases ha
  · exact ⟨2, rfl, Or.inl rfl⟩
  · exact ⟨3, rfl, Or.inr rfl⟩

theorem HeadPacket.startsPacket {w : Bytes} {h n : ℕ} (hp : HeadPacket crc w h n) :
    StartsPacket w := startsPacket_of_announced hp.header

theorem HeadCorrupt.startsPacket {w : Bytes} (hc : HeadCorrupt crc w) : StartsPacket w := by
  obtain ⟨⟨h, n⟩, ha, _⟩ := hc
  exact startsPacket_of_announced ha

/-- At a start byte the three cases are exhaustive. -/
theorem head_cases {w : Bytes} (hs : StartsPacket w) :
    (∃ h n, HeadPacket crc w h n) ∨ HeadCorrupt crc w ∨ HeadIncomplete w := by
  cases ha : announced w with
  | none => exact Or.inr (Or.inr ⟨hs, by simp [ha]⟩)
  | some p =>
    by_cases hfit : p.1 + p.2 + 3 ≤ w.length
    · by_cases hok : Intact crc w p.1 p.2
      · exact Or.inl ⟨p.1, p.2, ha, hfit, hok⟩
      · exact Or.inr (Or.inl ⟨p, ha, hfit, hok⟩)
    · refine Or.inr (Or.inr ⟨hs, ?_⟩)
      intro q hq
      rw [ha] at hq
      cases hq
      omega

theorem HeadPacket.not_pending {w : Bytes} {h n : ℕ} (hp : HeadPacket crc w h n) :
    ¬ HeadPending w := by
  rintro (rfl | ⟨_, hlt⟩)
  · cases hp.header
  · have hfit := hp.fits
    have := hlt _ hp.header
    omega

theorem HeadPacket.not_corrupt {w : Bytes} {h n : ℕ} (hp : HeadPacket crc w h n) :
    ¬ HeadCorrupt crc w := by
  rintro ⟨p, ha, _, hbad⟩
  have he : p = (h, n) := Option.some.inj (ha.symm.trans hp.header)
  rw [he] at hbad
  exact hbad hp.intact

theorem HeadCorrupt.not_incomplete {w : Bytes} (hc : HeadCorrupt crc w) : ¬ HeadIncomplete w := by
  obtain ⟨p, ha, hfit, _⟩ := hc
  rintro ⟨_, hlt⟩
  have := hlt p ha
  omega

theorem HeadPacket.unique {w : Bytes} {h n h' n' : ℕ} (hp : HeadPacket crc w h n)
    (hp' : HeadPacket crc w h' n') : h' = h ∧ n' = n := by
  have he : (h', n') = (h, n) := Option.some.inj (hp'.header.symm.trans hp.header)
  exact ⟨congrArg Prod.fst he, congrArg Prod.snd he⟩

/-! ### One attempt of the codec -/

theorem header_fmt_of_not_startByte {x : UInt8} (hx : ¬ StartByte x) :
    Header.fmt x.toNat = .error (.corruptPacket s!"Invalid start byte: {x.toNat}") := by
  have h2 : x.toNat ≠ 2 := fun h => hx (Or.inl (UInt8.toNat_inj.mp h))
  have h3 : x.toNat ≠ 3 := fun h => hx (Or.inr (UInt8.toNat_inj.mp h))
  rw [Header.fmt, if_neg h2, if_neg h3]

theorem unpackHeader_announced {w : Bytes} {h n : ℕ} (ha : announced w = some (h, n)) :
    unpackHeader w = .ok (some ⟨h, n⟩) := by
  obtain ⟨l, t, rfl, rfl, rfl⟩ | ⟨l, m, t, rfl, rfl, rfl⟩ := announced_cases ha
  · simp [unpackHeader, Header.fmt, Header.parse, HeaderFmt.calcsize, structErrorAsCorrupt,
      bind, Except.bind, pure, Except.pure]
  · have hlen : ¬ t.length + 1 + 1 + 1 < 3 := by omega
    simp [unpackHeader, Header.fmt, Header.parse, HeaderFmt.calcsize, structErrorAsCorrupt, hlen,
      bind, Except.bind, pure, Except.pure]

theorem unpackHeader_short {w : Bytes} (ha : announced w = none)
    (hs : w = [] ∨ StartsPacket w) : unpackHeader w = .ok none := by
  match w with
  | [] => rfl
  | [a] =>
    obtain h | ⟨x, hx, rfl | rfl⟩ := hs
    · cases h
    · cases hx; rfl
    · cases hx; rfl
  | a :: l :: t =>
    obtain h | ⟨x, hx, rfl | rfl⟩ := hs
    · cases h
    · cases hx
      cases ha
    · cases hx
      match t with
      | [] => rfl
      | m :: t => cases ha

theorem packetSize_announced {w : Bytes} {h n : ℕ} (ha : announced w = some (h, n)) :
    packetSize ⟨h, n⟩ = .ok (h + n + 3) := by
  obtain ⟨l, t, rfl, rfl, rfl⟩ | ⟨l, m, t, rfl, rfl, rfl⟩ := announced_cases ha <;> rfl

theorem attempt_pending {w : Bytes} (hp : HeadPending w) : attempt crc w none = .ok .tooShort := by
  have hs : w = [] ∨ StartsPacket w := hp.imp_right And.left
  cases ha : announced w with
  | none =>
    simp only [attempt, unpackHeader_short ha hs, bind, Except.bind, pure, Except.pure]
  | some p =>
    obtain rfl | ⟨_, hlt⟩ := hp
    · cases ha
    · have hshort := hlt p ha
      simp only [attempt, unpackHeader_announced ha, packetParsable, packetSize_announced ha,
        bind, Except.bind, pure, Except.pure, decide_eq_false (Nat.not_le.mpr hshort), if_true]

/-- A complete packet is judged by its checksum and its terminator alone. -/
theorem attempt_complete {w : Bytes} {h n : ℕ} (ha : announced w = some (h, n))
    (hfit : h + n + 3 ≤ w.length) :
    attempt crc w none = (do
      validatePayload crc (slice w h (h + n))
        ⟨BigEndian.toNat (slice w (h + n) (h + n + 2)), w[h + n + 2].toNat⟩
      return .packet (slice w h (h + n)) (h + n + 3)) := by
  have hfooter : unpackFooter w ⟨h, n⟩ =
      .ok ⟨BigEndian.toNat (slice w (h + n) (h + n + 2)), w[h + n + 2].toNat⟩ := by
    have h0 : w.drop (h + n) = w[h + n] :: w[h + n + 1] ::
        w[h + n + 2] :: w.drop (h + n + 3) := by
      rw [List.drop_eq_getElem_cons (by omega), List.drop_eq_getElem_cons (by omega),
        List.drop_eq_getElem_cons (by omega)]
    have htwo : h + n + 2 - (h + n) = 2 := by omega
    simp only [unpackFooter, Footer.parse, h0, structErrorAsCorrupt, slice, htwo,
      List.take_succ_cons, List.take_zero]
  simp only [attempt, unpackHeader_announced ha, packetParsable, packetSize_announced ha, hfooter,
    unpackPayload, bind, Except.bind, pure, Except.pure, decide_eq_true hfit]
  rfl

theorem attempt_packet {w : Bytes} {h n : ℕ} (hp : HeadPacket crc w h n) :
    attempt crc w none = .ok (.packet (slice w h (h + n)) (h + n + 3)) := by
  have hfit := hp.fits
  have hterm : w[h + n + 2] = 3 := by
    have := hp.intact.2
    rwa [List.getElem?_eq_getElem (by omega), Option.some.injEq] at this
  rw [attempt_complete crc hp.header hfit, validatePayload, if_neg (not_not.mpr hp.intact.1), hterm]
  rfl

theorem attempt_corrupt {w : Bytes} (hc : HeadCorrupt crc w) :
    ∃ message, attempt crc w none = .error (.corruptPacket message) := by
  obtain ⟨⟨h, n⟩, ha, hfit, hbad⟩ := hc
  have hlt : h + n + 2 < w.length := by omega
  rw [attempt_complete crc ha hfit, validatePayload]
  by_cases hcrc : (crc (slice w h (h + n))).toNat = BigEndian.toNat (slice w (h + n) (h + n + 2))
  · have hterm : w[h + n + 2].toNat ≠ Footer.TERMINATOR := by
      intro h3
      have h3' : w[h + n + 2] = 3 := UInt8.toNat_inj.mp h3
      exact hbad ⟨hcrc, by rw [List.getElem?_eq_getElem hlt, h3']⟩
    rw [if_neg (not_not.mpr hcrc), if_pos hterm]
    exact ⟨_, rfl⟩
  · rw [if_pos hcrc]
    exact ⟨_, rfl⟩

theorem attempt_not_startByte {x : UInt8} {t : Bytes} (hx : ¬ StartByte x) :
    attempt crc (x :: t) none =
      .error (.corruptPacket s!"Invalid start byte: {x.toNat}") := by
  simp only [attempt, unpackHeader, header_fmt_of_not_startByte hx, bind, Except.bind]

end PyVesc
