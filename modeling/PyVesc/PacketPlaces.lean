import PyVesc.Unframe

/-!
# Where the accepted packets lie

Every payload that the unframer accepts is that of a complete valid packet at some offset of the
bytes received. Bytes that end in a packet `r` are drained up to `r` if the unframer is nowhere left
waiting in front of it (`Unblocked`); otherwise all that is accepted lies elsewhere.
-/

namespace PyVesc

variable (crc : Bytes → UInt16)

/-- A packet with payload `p` lies at offset `i`. -/
def Located (b p : Bytes) (i : ℕ) : Prop :=
  ∃ h n, PacketAt crc b i h n ∧ p = slice b (i + h) (i + h + n)

theorem Located.of_drop {b p : Bytes} {d i : ℕ} (hl : Located crc (b.drop d) p i) :
    Located crc b p (d + i) := by
  obtain ⟨h, n, hp, rfl⟩ := hl
  refine ⟨h, n, (packetAt_drop crc b d i h n).mp hp, ?_⟩
  rw [slice_drop]
  simp only [Nat.add_assoc]

theorem PacketAt.le_length {b : Bytes} {i h n : ℕ} (hp : PacketAt crc b i h n) :
    i + h + n + 3 ≤ b.length := by
  have hfit := hp.fits
  rw [List.length_drop] at hfit
  omega

theorem PacketAt.append {b : Bytes} {i h n : ℕ} (hp : PacketAt crc b i h n) (t : Bytes) :
    PacketAt crc (b ++ t) i h n := by
  have hle := hp.le_length
  rw [PacketAt, List.drop_append_of_le_length (by omega)]
  exact HeadPacket.append crc hp t

theorem Located.append {b p : Bytes} {i : ℕ} (hl : Located crc b p i) (t : Bytes) :
    Located crc (b ++ t) p i := by
  obtain ⟨h, n, hp, rfl⟩ := hl
  have hle := hp.le_length
  exact ⟨h, n, hp.append crc t, (slice_append_left (by omega)).symm⟩

/-- One call either accepts the first packet or accepts nothing. -/
theorem scan_fst_cases (b : Bytes) : (scan crc b).1 = none ∨
    ¬ HeadPending b ∧ ∃ i h n, FirstPacket crc b 0 i h n ∧
      scan crc b = (some (slice b (i + h) (i + h + n)), i + h + n + 3) := by
  obtain ⟨_, hout⟩ | ⟨hp, ⟨i, h, n, hf, hout⟩ | ⟨_, hout⟩⟩ := scan_unframes crc b
  · exact Or.inl (congrArg Prod.fst hout)
  · exact Or.inr ⟨hp, i, h, n, hf, hout⟩
  · exact Or.inl (congrArg Prod.fst hout)

theorem located_drain (b : Bytes) :
    ∀ p ∈ ((unframeScanner crc).drain b).1, ∃ i, Located crc b p i := by
  induction hn : b.length using Nat.strong_induction_on generalizing b with
  | _ m ih =>
    intro p hp
    by_cases hc : (scan crc b).2 = 0
    · rw [Scanner.drain_stop _ hc] at hp
      cases hp
    · have hlt := Scanner.length_drop_lt ((unframeScanner crc).ne_nil_of_consumed hc) hc
      rw [Scanner.drain_step _ (b := b) hc, unframeScanner_scan, List.mem_append] at hp
      obtain hp | hp := hp
      · obtain hnone | ⟨_, i, h, n, hf, hout⟩ := scan_fst_cases crc b
        · rw [hnone] at hp
          cases hp
        · rw [hout] at hp
          exact ⟨i, h, n, hf.packet, by simpa using hp⟩
      · obtain ⟨i, hl⟩ := ih _ (hn ▸ hlt) _ rfl p hp
        exact ⟨_, hl.of_drop crc⟩

theorem located_receive (chunks : List Bytes) :
    ∀ p ∈ ((unframeScanner crc).receive chunks).1, ∃ i, Located crc chunks.flatten p i := by
  induction chunks using List.reverseRecOn with
  | nil => intro p hp; cases hp
  | append_singleton chunks chunk ih =>
    intro p hp
    rw [Scanner.receive_append_singleton, Scanner.feed, List.mem_append] at hp
    rw [List.flatten_append, List.flatten_singleton]
    obtain hp | hp := hp
    · obtain ⟨i, hl⟩ := ih p hp
      exact ⟨i, hl.append crc chunk⟩
    · obtain ⟨t, ht⟩ := (unframeScanner crc).receive_snd_isSuffix chunks
      obtain ⟨i, hl⟩ := located_drain crc _ p hp
      refine ⟨t.length + i, Located.of_drop crc ?_⟩
      rwa [← ht, List.append_assoc, List.drop_left]

/-- From the bytes `x`, which end in the packet `r`, the unframer reaches `r`: each call that starts
before it finds a head that is not pending, and finds `r` or a packet that ends before it. -/
inductive Unblocked (r : Bytes) : Bytes → Prop
  | reply (u : Bytes) (hhead : ¬ HeadPending (u ++ r))
      (hfirst : ∀ i h n, i < u.length → ¬ PacketAt crc (u ++ r) i h n) : Unblocked r (u ++ r)
  | packet (u : Bytes) (i h n : ℕ) (hhead : ¬ HeadPending (u ++ r))
      (hfirst : FirstPacket crc (u ++ r) 0 i h n) (hend : i + h + n + 3 ≤ u.length)
      (hrest : Unblocked r (u.drop (i + h + n + 3) ++ r)) : Unblocked r (u ++ r)

theorem scan_reply {u r p : Bytes} (hr : IsPacket crc r p) (hhead : ¬ HeadPending (u ++ r))
    (hfirst : ∀ i h n, i < u.length → ¬ PacketAt crc (u ++ r) i h n) :
    scan crc (u ++ r) = (some p, (u ++ r).length) := by
  obtain ⟨h, n, hp, hlen, rfl⟩ := hr
  have hat : PacketAt crc (u ++ r) u.length h n := by
    rw [PacketAt, List.drop_left]
    exact hp
  have hscan := scan_firstPacket crc hhead
    ⟨Nat.zero_le _, hat, fun j _ hj h' n' => hfirst j h' n' hj⟩
  have hslice : slice (u ++ r) (u.length + h) (u.length + h + n) = slice r h (h + n) := by
    rw [Nat.add_assoc, ← slice_drop, List.drop_left]
  rw [hscan, hslice, List.length_append, hlen]
  simp only [Nat.add_assoc]

/-- Draining bytes from which a packet at their end is reached leaves nothing and finds that packet
last. -/
theorem drain_unblocked {r p x : Bytes} (hr : IsPacket crc r p) (hx : Unblocked crc r x) :
    ∃ ps, (unframeScanner crc).drain x = (ps ++ [p], []) := by
  induction hx with
  | reply u hhead hfirst =>
    have hscan := scan_reply crc hr hhead hfirst
    have hne : ((unframeScanner crc).scan (u ++ r)).2 ≠ 0 := by
      rw [unframeScanner_scan, hscan]
      intro h0
      exact hhead (Or.inl (List.eq_nil_of_length_eq_zero h0))
    refine ⟨[], ?_⟩
    rw [Scanner.drain_step _ hne, unframeScanner_scan, hscan]
    simp
  | packet u i h n hhead hfirst hend _ ih =>
    obtain ⟨ps, hps⟩ := ih
    have hscan := scan_firstPacket crc hhead hfirst
    have hne : ((unframeScanner crc).scan (u ++ r)).2 ≠ 0 := by
      rw [unframeScanner_scan, hscan]
      exact Nat.succ_ne_zero _
    refine ⟨slice (u ++ r) (i + h) (i + h + n) :: ps, ?_⟩
    rw [Scanner.drain_step _ hne, unframeScanner_scan, hscan,
      List.drop_append_of_le_length hend, hps]
    rfl

theorem IsPacket.packetAt {r p : Bytes} (hr : IsPacket crc r p) (u : Bytes) :
    ∃ h n, PacketAt crc (u ++ r) u.length h n ∧ u.length + h + n + 3 = (u ++ r).length := by
  obtain ⟨h, n, hp, hlen, _⟩ := hr
  refine ⟨h, n, ?_, ?_⟩
  · rw [PacketAt, List.drop_left]
    exact hp
  · rw [List.length_append]
    omega

/-- Whole packets in front of another do not hold it up. -/
theorem unblocked_stream {r p : Bytes} (hr : IsPacket crc r p) (ws : List (Bytes × Bytes))
    (hws : ∀ w ∈ ws, IsPacket crc w.1 w.2) : Unblocked crc r (Scanner.stream ws ++ r) := by
  induction ws with
  | nil =>
    obtain ⟨h, n, hp, _⟩ := hr
    exact Unblocked.reply [] (hp.not_pending crc) (fun i _ _ hi => absurd hi (Nat.not_lt_zero i))
  | cons w ws ih =>
    obtain ⟨h, n, hp, hlen, _⟩ := hws w List.mem_cons_self
    have hhead : HeadPacket crc (Scanner.stream (w :: ws) ++ r) h n := by
      rw [Scanner.stream_cons, List.append_assoc]
      exact hp.append crc _
    have hdrop : (Scanner.stream (w :: ws)).drop (0 + h + n + 3) = Scanner.stream ws := by
      rw [Scanner.stream_cons, Nat.zero_add, ← hlen, List.drop_left]
    refine Unblocked.packet _ 0 h n (hhead.not_pending crc) ?_ ?_ ?_
    · exact ⟨Nat.le_refl _, hhead, fun j _ hj => absurd hj (Nat.not_lt_zero j)⟩
    · rw [Scanner.stream_cons, List.length_append]
      omega
    · rw [hdrop]
      exact ih (fun v hv => hws v (List.mem_cons_of_mem w hv))

/-- Otherwise every packet accepted from these bytes lies elsewhere. -/
theorem unblocked_or_elsewhere {r p : Bytes} (hr : IsPacket crc r p) (u : Bytes) :
    Unblocked crc r (u ++ r) ∨ ∀ q ∈ ((unframeScanner crc).drain (u ++ r)).1,
      ∃ i, i ≠ u.length ∧ Located crc (u ++ r) q i := by
  induction hm : u.length using Nat.strong_induction_on generalizing u with
  | _ m ih =>
    subst hm
    obtain ⟨hr', nr, hpr, hend⟩ := hr.packetAt crc u
    obtain ⟨hpend, hout⟩ | ⟨hhead, ⟨i, h, n, hf, hout⟩ | ⟨hnone, _⟩⟩ := scan_unframes crc (u ++ r)
    · have hc : ((unframeScanner crc).scan (u ++ r)).2 = 0 := congrArg Prod.snd hout
      rw [Scanner.drain_stop _ hc]
      exact Or.inr (fun q hq => by cases hq)
    · have hle : i ≤ u.length := by
        by_contra hlt
        exact hf.first u.length (Nat.zero_le _) (by omega) hr' nr hpr
      by_cases heq : i = u.length
      · refine Or.inl (Unblocked.reply u hhead ?_)
        intro j h' n' hj
        exact hf.first j (Nat.zero_le _) (by omega) h' n'
      · have hne : ((unframeScanner crc).scan (u ++ r)).2 ≠ 0 := by
          rw [unframeScanner_scan, hout]
          exact Nat.succ_ne_zero _
        rw [Scanner.drain_step _ hne, unframeScanner_scan, hout]
        have hhere : Located crc (u ++ r) (slice (u ++ r) (i + h) (i + h + n)) i :=
          ⟨h, n, hf.packet, rfl⟩
        by_cases hfit : i + h + n + 3 ≤ u.length
        · have hdrop : (u ++ r).drop (i + h + n + 3) = u.drop (i + h + n + 3) ++ r :=
            List.drop_append_of_le_length hfit
          have hlen : (u.drop (i + h + n + 3)).length = u.length - (i + h + n + 3) :=
            List.length_drop
          obtain hu | helse := ih _ (by rw [hlen]; omega) (u.drop (i + h + n + 3)) rfl
          · exact Or.inl (Unblocked.packet u i h n hhead hf hfit hu)
          · refine Or.inr ?_
            intro q hq
            obtain hq | hq := List.mem_append.mp hq
            · exact ⟨i, heq, List.mem_singleton.mp hq ▸ hhere⟩
            · rw [hdrop] at hq
              obtain ⟨j, hj, hl⟩ := helse q hq
              rw [← hdrop] at hl
              exact ⟨_, by rw [hlen] at hj; omega, hl.of_drop crc⟩
        · refine Or.inr ?_
          intro q hq
          obtain hq | hq := List.mem_append.mp hq
          · exact ⟨i, heq, List.mem_singleton.mp hq ▸ hhere⟩
          · obtain ⟨j, hl⟩ := located_drain crc _ q hq
            exact ⟨_, by omega, hl.of_drop crc⟩
    · exact absurd hpr (hnone u.length hr' nr (Nat.zero_le _))

end PyVesc
