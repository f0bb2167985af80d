import PyVesc.LeftmostScan
import PyVesc.StreamScanner

/-!
# The unframer as a stream scanner

`unframe` in `ignore` mode always gives a pair, the same one for every sufficient call depth; `scan`
is that pair. A complete valid packet is read off the head of any buffer and a proper beginning of
one is waited on, so the unframer is a scanner in the sense of `Scanner.Reads`.
-/

namespace PyVesc

variable (crc : Bytes → UInt16)

/-- What the unframer returns in terms of the bytes of the buffer. -/
def Unframes (b : Bytes) (out : Option Bytes × ℕ) : Prop :=
  (HeadPending b ∧ out = (none, 0)) ∨
    (¬ HeadPending b ∧ ScanFrom crc b 0 (span b + corruptSegments crc b 1) out)

theorem FirstPacket.unique {b : Bytes} {a i h n i' h' n' : ℕ} (hf : FirstPacket crc b a i h n)
    (hf' : FirstPacket crc b a i' h' n') : i' = i ∧ h' = h ∧ n' = n := by
  have hi : i' = i := by
    rcases Nat.lt_trichotomy i' i with hlt | heq | hlt
    · exact absurd hf'.packet (hf.first i' hf'.le hlt h' n')
    · exact heq
    · exact absurd hf.packet (hf'.first i hf.le hlt h n)
  subst hi
  exact ⟨rfl, HeadPacket.unique crc hf.packet hf'.packet⟩

theorem ScanFrom.unique {b : Bytes} {a skip : ℕ} {out out' : Option Bytes × ℕ}
    (hs : ScanFrom crc b a skip out) (hs' : ScanFrom crc b a skip out') : out' = out := by
  obtain ⟨i, h, n, hf, rfl⟩ | ⟨hnone, rfl⟩ := hs <;>
    obtain ⟨i', h', n', hf', rfl⟩ | ⟨hnone', rfl⟩ := hs'
  · obtain ⟨rfl, rfl, rfl⟩ := hf.unique crc hf'
    rfl
  · exact absurd hf.packet (hnone' i h n hf.le)
  · exact absurd hf'.packet (hnone i' h' n' hf'.le)
  · rfl

theorem Unframes.unique {b : Bytes} {out out' : Option Bytes × ℕ} (hu : Unframes crc b out)
    (hu' : Unframes crc b out') : out' = out := by
  obtain ⟨hp, rfl⟩ | ⟨hp, hs⟩ := hu <;> obtain ⟨hp', rfl⟩ | ⟨hp', hs'⟩ := hu'
  · rfl
  · exact absurd hp hp'
  · exact absurd hp' hp
  · exact hs.unique crc hs'

theorem unpack_unframes (b : Bytes) (depth : ℕ) (hdepth : 2 * b.length + 2 ≤ depth) :
    ∃ out, unpack crc depth b none .ignore false = .ok out ∧ Unframes crc b out := by
  obtain ⟨depth, rfl⟩ : ∃ k, depth = k + 1 := ⟨depth - 1, by omega⟩
  by_cases hp : HeadPending b
  · exact ⟨(none, 0), by simp [unpack, attempt_pending crc hp], Or.inl ⟨hp, rfl⟩⟩
  · have hb : b ≠ [] := fun h => hp (Or.inl h)
    obtain ⟨out, hout, hscan⟩ := recoveryRecurse_scan crc b hb depth none true (by omega)
    rw [if_pos rfl] at hscan
    by_cases hs : StartsPacket b
    · obtain ⟨h, n, hpk⟩ | hc | hi := head_cases crc hs
      · refine ⟨_, ?_, Or.inr ⟨hp, scanFrom_packet crc hpk _⟩⟩
        simp only [unpack, attempt_packet crc hpk]
      · obtain ⟨message, hatt⟩ := attempt_corrupt crc hc
        refine ⟨out, by simp only [unpack, hatt, hout], Or.inr ⟨hp, scanFrom_zero crc ?_ hscan⟩⟩
        exact fun h n hpk => hpk.not_corrupt crc hc
      · exact absurd (Or.inr hi) hp
    · obtain ⟨x, t, rfl⟩ := List.exists_cons_of_ne_nil hb
      have hx : ¬ StartByte x := fun h => hs ⟨x, rfl, h⟩
      refine ⟨out, by simp only [unpack, attempt_not_startByte crc hx, hout],
        Or.inr ⟨hp, scanFrom_zero crc ?_ hscan⟩⟩
      exact fun h n hpk => hs (hpk.startsPacket crc)

/-- The pair returned by `unframe` in `ignore` mode. -/
def scan (b : Bytes) : Option Bytes × ℕ :=
  match unframe crc b .ignore with
  | .ok out => out
  | .error _ => (none, 0)

theorem unframe_eq_scan (b : Bytes) : unframe crc b .ignore = .ok (scan crc b) := by
  obtain ⟨out, hout, _⟩ := unpack_unframes crc b _ (Nat.le_refl _)
  rw [scan, show unframe crc b .ignore = .ok out from hout]

theorem scan_unframes (b : Bytes) : Unframes crc b (scan crc b) := by
  obtain ⟨out, hout, hu⟩ := unpack_unframes crc b _ (Nat.le_refl _)
  have heq : (Except.ok (scan crc b) : Py _) = .ok out := (unframe_eq_scan crc b).symm.trans hout
  rwa [Except.ok.inj heq]

/-- Call depth beyond what the buffer needs changes nothing. -/
theorem unpack_eq_unframe (b : Bytes) (depth : ℕ) (hdepth : 2 * b.length + 2 ≤ depth) :
    unpack crc depth b none .ignore false = unframe crc b .ignore := by
  obtain ⟨out, hout, hu⟩ := unpack_unframes crc b depth hdepth
  rw [hout, unframe_eq_scan, (scan_unframes crc b).unique crc hu]

theorem scan_pending {b : Bytes} (hp : HeadPending b) : scan crc b = (none, 0) := by
  obtain ⟨_, hout⟩ | ⟨hnot, _⟩ := scan_unframes crc b
  · exact hout
  · exact absurd hp hnot

theorem scan_firstPacket {b : Bytes} {i h n : ℕ} (hp : ¬ HeadPending b)
    (hf : FirstPacket crc b 0 i h n) :
    scan crc b = (some (slice b (i + h) (i + h + n)), i + h + n + 3) :=
  Unframes.unique crc (Or.inr ⟨hp, Or.inl ⟨i, h, n, hf, rfl⟩⟩) (scan_unframes crc b)

theorem scan_packet {b : Bytes} {h n : ℕ} (hp : HeadPacket crc b h n) :
    scan crc b = (some (slice b h (h + n)), h + n + 3) := by
  have hscan := scanFrom_packet crc hp (span b + corruptSegments crc b 1)
  exact Unframes.unique crc (Or.inr ⟨hp.not_pending crc, hscan⟩) (scan_unframes crc b)

def unframeScanner : Scanner UInt8 Bytes where
  scan := scan crc
  scan_nil := by rw [scan_pending crc (Or.inl rfl)]

@[simp] theorem unframeScanner_scan (b : Bytes) : (unframeScanner crc).scan b = scan crc b := rfl

/-! ### Whole packets -/

/-- `w` is a complete valid packet with payload `p` and nothing else. -/
def IsPacket (w p : Bytes) : Prop :=
  ∃ h n, HeadPacket crc w h n ∧ w.length = h + n + 3 ∧ p = slice w h (h + n)

theorem slice_append_left {α : Type*} {w t : List α} {i j : ℕ} (hj : j ≤ w.length) :
    slice (w ++ t) i j = slice w i j := by
  by_cases hi : i ≤ w.length
  · rw [slice, slice, List.drop_append_of_le_length hi, List.take_append_of_le_length]
    rw [List.length_drop]
    omega
  · have hz : j - i = 0 := by omega
    rw [slice, slice, hz, List.take_zero, List.take_zero]

theorem announced_append {u : Bytes} {p : ℕ × ℕ} (ha : announced u = some p) (t : Bytes) :
    announced (u ++ t) = some p := by
  obtain ⟨h, n⟩ := p
  obtain ⟨l, s, rfl, rfl, rfl⟩ | ⟨l, m, s, rfl, rfl, rfl⟩ := announced_cases ha <;> rfl

theorem HeadPacket.append {w : Bytes} {h n : ℕ} (hp : HeadPacket crc w h n) (t : Bytes) :
    HeadPacket crc (w ++ t) h n := by
  have hfit := hp.fits
  refine ⟨announced_append hp.header t, ?_, ?_, ?_⟩
  · rw [List.length_append]
    omega
  · rw [slice_append_left (by omega), slice_append_left (by omega)]
    exact hp.intact.1
  · rw [List.getElem?_append_left (by omega)]
    exact hp.intact.2

/-- A beginning of a packet, short of its end, announces that packet and does not hold it. -/
theorem headIncomplete_of_beginning {w u : Bytes} {h n : ℕ} (ha : announced w = some (h, n))
    (hlen : w.length = h + n + 3) (hu : u <+: w) (hne : u ≠ w) (hnil : u ≠ []) :
    HeadIncomplete u := by
  obtain ⟨t, rfl⟩ := hu
  obtain ⟨x, s, rfl⟩ := List.exists_cons_of_ne_nil hnil
  refine ⟨?_, ?_⟩
  · obtain ⟨y, hy, hstart⟩ := startsPacket_of_announced ha
    exact ⟨y, hy, hstart⟩
  · intro p hp
    have he : p = (h, n) := Option.some.inj ((announced_append hp t).symm.trans ha)
    have ht : t ≠ [] := by
      rintro rfl
      exact hne (List.append_nil _).symm
    have hpos := List.length_pos_iff.mpr ht
    rw [List.length_append] at hlen
    rw [he]
    omega

theorem reads_isPacket : (unframeScanner crc).Reads (IsPacket crc) where
  nonempty := by
    rintro w p ⟨h, n, hp, _⟩ rfl
    cases hp.header
  whole := by
    rintro w p t ⟨h, n, hp, hlen, rfl⟩
    have hscan := scan_packet crc (hp.append crc t)
    rwa [slice_append_left (by omega), ← hlen] at hscan
  part := by
    rintro w p u ⟨h, n, hp, hlen, rfl⟩ hu hne
    by_cases hnil : u = []
    · exact scan_pending crc (Or.inl hnil)
    · exact scan_pending crc (Or.inr (headIncomplete_of_beginning hp.header hlen hu hne hnil))

/-! ### Frames -/

def frameHeader (p : Bytes) : Bytes :=
  if p.length < 256 then [2, UInt8.ofNat p.length]
  else 3 :: BigEndian.ofNat 2 p.length

def frameBytes (p : Bytes) : Bytes :=
  frameHeader p ++ p ++ (BigEndian.ofNat 2 (crc p).toNat ++ [3])

/-- The payloads that can be framed. -/
def Framable (p : Bytes) : Prop := p ≠ [] ∧ p.length < 65536

instance (p : Bytes) : Decidable (Framable p) := inferInstanceAs (Decidable (_ ∧ _))

theorem frame_eq {p : Bytes} (hp : Framable p) : frame crc p = .ok (frameBytes crc p) := by
  obtain ⟨hne, hlt⟩ := hp
  have hcrc : (crc p).toNat < 65536 := (crc p).toNat_lt
  have hfoot : (Footer.generate crc p).pack = .ok (BigEndian.ofNat 2 (crc p).toNat ++ [3]) := by
    simp only [Footer.generate, Footer.pack, Footer.TERMINATOR, hcrc, true_and]
    rfl
  rw [frame, if_neg hne]
  simp only [frameBytes, frameHeader, Header.generate]
  by_cases hshort : p.length < 256
  · have hpack : Header.pack .BB ⟨2, p.length⟩ = .ok [2, UInt8.ofNat p.length] := by
      have hmod : p.length % 256 = p.length := Nat.mod_eq_of_lt hshort
      simp [Header.pack, HeaderFmt.calcsize, hshort, BigEndian.ofNat, hmod]
    simp [hshort, Header.fmt, hpack, hfoot, bind, Except.bind, pure, Except.pure]
  · have hpack : Header.pack .BH ⟨3, p.length⟩ = .ok (3 :: BigEndian.ofNat 2 p.length) := by
      simp [Header.pack, HeaderFmt.calcsize, hlt]
    simp [hshort, hlt, Header.fmt, hpack, hfoot, bind, Except.bind, pure, Except.pure]

theorem frame_ok_iff {p s : Bytes} :
    frame crc p = .ok s ↔ Framable p ∧ s = frameBytes crc p := by
  constructor
  · intro h
    have hp : Framable p := by
      refine ⟨?_, ?_⟩
      · rintro rfl
        cases h
      · by_contra hlong
        have h1 : ¬ p.length < 256 := by omega
        have hnil : p ≠ [] := by
          rintro rfl
          cases h
        simp [frame, Header.generate, h1, hlong, hnil, bind, Except.bind] at h
    exact ⟨hp, Except.ok.inj (h.symm.trans (frame_eq crc hp))⟩
  · rintro ⟨hp, rfl⟩
    exact frame_eq crc hp

theorem announced_frameHeader {p : Bytes} (hlt : p.length < 65536) (t : Bytes) :
    announced (frameHeader p ++ t) = some ((frameHeader p).length, p.length) := by
  rw [frameHeader]
  by_cases hshort : p.length < 256
  · rw [if_pos hshort]
    simp [announced, Nat.mod_eq_of_lt hshort]
  · have hdiv : p.length / 256 < 256 := by omega
    have hval : p.length / 256 * 256 + p.length % 256 = p.length := Nat.div_add_mod' _ _
    rw [if_neg hshort]
    simp [announced, BigEndian.ofNat, Nat.mod_eq_of_lt hdiv, hval]

theorem length_frameBytes (p : Bytes) :
    (frameBytes crc p).length = (frameHeader p).length + p.length + 3 := by
  simp only [frameBytes, List.length_append, BigEndian.length_ofNat, List.length_singleton]

theorem isPacket_frameBytes {p : Bytes} (hlt : p.length < 65536) :
    IsPacket crc (frameBytes crc p) p := by
  have hlen := length_frameBytes crc p
  have hpay : slice (frameBytes crc p) (frameHeader p).length
      ((frameHeader p).length + p.length) = p := by
    simp [slice, frameBytes, List.append_assoc]
  have hdrop : (frameBytes crc p).drop ((frameHeader p).length + p.length) =
      BigEndian.ofNat 2 (crc p).toNat ++ [3] := by
    rw [← List.length_append]
    exact List.drop_left
  have hcrc : slice (frameBytes crc p) ((frameHeader p).length + p.length)
      ((frameHeader p).length + p.length + 2) = BigEndian.ofNat 2 (crc p).toNat := by
    rw [slice, hdrop, Nat.add_sub_cancel_left]
    exact List.take_left' (BigEndian.length_ofNat 2 _)
  refine ⟨(frameHeader p).length, p.length, ⟨?_, by omega, ?_, ?_⟩, hlen, hpay.symm⟩
  · rw [frameBytes, List.append_assoc]
    exact announced_frameHeader hlt _
  · rw [hpay, hcrc]
    exact (BigEndian.toNat_ofNat (crc p).toNat_lt).symm
  · rw [← List.getElem?_drop, hdrop]
    rfl

end PyVesc
