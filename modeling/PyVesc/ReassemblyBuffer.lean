import PyVesc.OrderFreeReassembly
import PyVesc.ReplyWait

/-!
# What the reassembly buffer holds

The buffer is a Python `bytearray` that fill frames write by slice assignment. It starts with 512
bytes and a fill frame that starts inside it, or at its end, writes its chunk where it belongs. One
that starts behind the end appends the chunk instead. The last frame of a packet takes a slice of
the buffer, which is shorter than announced where the buffer is.
-/

namespace PyVesc

/-- The offset and the chunk of a fill frame for the host. -/
def fillOf (msg : CanMessage) : Option (ℕ × Bytes) :=
  if tunnelForHost msg then
    if (splitArbitrationId msg.arbitrationId).1 = CanPacketId.fillRxBuffer.value then
      match msg.data with
      | off :: b :: chunk => some (off.toNat, b :: chunk)
      | _ => none
    else if (splitArbitrationId msg.arbitrationId).1 = CanPacketId.fillRxBufferLong.value then
      match msg.data with
      | offHigh :: offLow :: b :: chunk => some (BigEndian.toNat [offHigh, offLow], b :: chunk)
      | _ => none
    else none
  else none

/-- The sender, the length and the checksum in the last frame of a long packet for the host. -/
def processOf (msg : CanMessage) : Option (ℕ × ℕ × ℕ) :=
  if tunnelForHost msg ∧
      (splitArbitrationId msg.arbitrationId).1 = CanPacketId.processRxBuffer.value then
    match msg.data with
    | sender :: _ :: lengthHigh :: lengthLow :: crcHigh :: crcLow :: _ =>
      some (sender.toNat, BigEndian.toNat [lengthHigh, lengthLow],
        BigEndian.toNat [crcHigh, crcLow])
    | _ => none
  else none

variable (crc : Bytes → UInt16)

theorem onMessage_fillOf {msg : CanMessage} {off : ℕ} {chunk : Bytes}
    (h : fillOf msg = some (off, chunk)) (s : BusState) (now : ℚ) : chunk ≠ [] ∧
      onMessage crc s now msg =
        s.withBuf (SliceAssign.assign s.commBuf off (off + chunk.length) chunk) := by
  unfold fillOf at h
  split_ifs at h with htunnel hfill hlong
  · rw [onMessage_tunnel crc htunnel, hfill]
    split at h
    · next heq =>
      cases h
      rw [heq]
      exact ⟨List.cons_ne_nil _ _, onTunnelFrame_fill crc s _ (List.cons_ne_nil _ _)⟩
    · cases h
  · rw [onMessage_tunnel crc htunnel, hlong]
    split at h
    · next heq =>
      cases h
      rw [heq]
      exact ⟨List.cons_ne_nil _ _, onTunnelFrame_fillLong crc s _ _ (List.cons_ne_nil _ _)⟩
    · cases h

theorem commBuf_onMessage_of_fillOf_none {msg : CanMessage} (h : fillOf msg = none) (s : BusState)
    (now : ℚ) : (onMessage crc s now msg).commBuf = s.commBuf := by
  cases htunnel : tunnelForHost msg with
  | false => exact congrArg Prod.fst (comm_onMessage crc htunnel s now)
  | true =>
    rw [onMessage_tunnel crc htunnel]
    rw [fillOf, if_pos htunnel] at h
    generalize msg.data = data at h
    generalize (splitArbitrationId msg.arbitrationId).1 = packetId at h
    unfold onTunnelFrame
    split_ifs with hshort hfill hlong hprocess
    · split <;> rfl
    · rw [if_pos hfill.1] at h
      match data, hfill.2 with
      | off :: b :: chunk, _ => cases h
    · rw [if_neg (by rw [hlong.1]; decide), if_pos hlong.1] at h
      match data, hlong.2 with
      | offHigh :: offLow :: b :: chunk, _ => cases h
    · split
      · dsimp only
        split_ifs <;> rfl
      · rfl
    · rfl

/-- The highest offset of two bytes leaves room for six bytes in the frame. -/
theorem add_length_le_of_fillOf {msg : CanMessage} {off : ℕ} {chunk : Bytes}
    (h : fillOf msg = some (off, chunk)) (hdata : msg.data.length ≤ 8) :
    off + chunk.length ≤ 65541 := by
  unfold fillOf at h
  split_ifs at h
  · split at h
    · next off b chunk heq =>
      have hoff := off.toNat_lt
      rw [heq, List.length_cons] at hdata
      cases h
      omega
    · cases h
  · split at h
    · next offHigh offLow b chunk heq =>
      have hoff := BigEndian.toNat_lt [offHigh, offLow]
      rw [heq, List.length_cons, List.length_cons] at hdata
      cases h
      simp only [List.length_cons, List.length_nil] at hoff hdata ⊢
      omega
    · cases h

theorem published_processOf {msg : CanMessage} {sender n k : ℕ}
    (h : processOf msg = some (sender, n, k)) (buf : Bytes) : published crc buf msg =
      if (crc (buf.take n)).toNat = k then some (sender, buf.take n) else none := by
  unfold processOf at h
  split_ifs at h with hprocess
  obtain ⟨htunnel, hid⟩ := hprocess
  split at h
  · next heq =>
    cases h
    rw [published, if_pos htunnel, hid, heq, onTunnelFrame_process,
      apply_ite BusState.commReply]
    rfl
  · cases h

/-! ### Runs of the bus -/

inductive BusEvent where
  | message (now : ℚ) (msg : CanMessage)
  /-- A request clears the reply. -/
  | clearReply
  deriving DecidableEq, Repr

def BusState.step (s : BusState) : BusEvent → Option BusState
  | .message now msg => some (onMessage crc s now msg)
  | .clearReply => some s.clearReply

theorem BusState.reachable_step (s : BusState) (e : BusEvent) (t : BusState)
    (h : s.Reachable crc) (hstep : s.step crc e = some t) : t.Reachable crc := by
  cases e with
  | message now msg =>
    cases hstep
    exact .message now msg h
  | clearReply =>
    cases hstep
    exact .clearReply h

/-! ### Fill frames -/

/-- The chunk lies at its offset, and the bytes that were there beside it are unchanged. -/
structure Lands (before : Bytes) (off : ℕ) (chunk after : Bytes) : Prop where
  written : ∀ p < chunk.length, after[off + p]? = chunk[p]?
  others : ∀ p < before.length, (p < off ∨ off + chunk.length ≤ p) → after[p]? = before[p]?

def FillLands (s : BusState) : BusEvent → Prop
  | .message now msg => ∀ off chunk, fillOf msg = some (off, chunk) →
      Lands s.commBuf off chunk (onMessage crc s now msg).commBuf
  | .clearReply => True

/-- A fill frame starts inside the buffer or at its end. -/
def FillReaches (s : BusState) : BusEvent → Prop
  | .message _ msg => ∀ off chunk, fillOf msg = some (off, chunk) → off ≤ s.commBuf.length
  | .clearReply => True

variable {crc}

theorem lands_fill_iff {msg : CanMessage} {off : ℕ} {chunk : Bytes}
    (h : fillOf msg = some (off, chunk)) (s : BusState) (now : ℚ) :
    Lands s.commBuf off chunk (onMessage crc s now msg).commBuf ↔ off ≤ s.commBuf.length := by
  obtain ⟨hne, hfill⟩ := onMessage_fillOf crc h s now
  have hchunk := @SliceAssign.getElem?_assign_iff _ s.commBuf chunk hne off
  rw [hfill]
  constructor
  · exact fun hlands => hchunk.mp hlands.written
  · intro hoff
    exact ⟨hchunk.mpr hoff, fun p _ hout => SliceAssign.getElem?_assign_outside hoff hout⟩

variable (crc) in
/-- The chunks of a run land at their offsets just if none of them starts behind the end of the
buffer. -/
theorem fills_land (s : BusState) (events : List BusEvent) :
    Transition.Meets (BusState.step crc) (FillLands crc) s events ↔
      Transition.Meets (BusState.step crc) FillReaches s events := by
  apply Transition.meets_congr
  intro s e
  cases e with
  | message now msg => exact forall₃_congr fun off chunk h => lands_fill_iff h s now
  | clearReply => rfl

/-- In every run of a bus, chunks with offsets of at most 512 land. -/
theorem fills_land_of_le {s : BusState} (hs : s.Reachable crc) {events : List BusEvent}
    (h : ∀ now msg, .message now msg ∈ events → ∀ off chunk,
      fillOf msg = some (off, chunk) → off ≤ 512) :
    Transition.Meets (BusState.step crc) (FillLands crc) s events := by
  rw [fills_land]
  have hlow : Transition.Meets (BusState.step crc) (fun _ e => ∀ now msg, e = .message now msg →
      ∀ off chunk, fillOf msg = some (off, chunk) → off ≤ 512) s events := by
    apply Transition.meets_of_forall
    rintro e he _ now msg rfl
    exact h now msg he
  refine Transition.meets_of_invariant (BusState.Reachable crc) ?_ ?_ events s hs hlow
  · exact fun s e t hs _ hstep => s.reachable_step crc e t hs hstep
  · intro s e hs he
    cases e with
    | message now msg =>
      intro off chunk hfill
      exact (he now msg rfl off chunk hfill).trans (hs.length_commBuf crc)
    | clearReply => trivial

/-- The first chunk of a fresh bus has the offset 600. -/
def strayFill : CanMessage := ⟨true, 0x6fe, [0x02, 0x58, 7]⟩

/-- It is appended to the buffer of 512 bytes. -/
theorem strayFill_appended : ¬ ∀ s : BusState, s.Reachable Crc16.xmodem →
    ∀ now msg off chunk, fillOf msg = some (off, chunk) → msg.data.length ≤ 8 →
      Lands s.commBuf off chunk (onMessage Crc16.xmodem s now msg).commBuf := by
  intro h
  have hfill : fillOf strayFill = some (600, [7]) := by decide
  have hlands := h .initial .initial 0 strayFill 600 [7] hfill (by decide)
  rw [lands_fill_iff hfill] at hlands
  change 600 ≤ (List.replicate 512 0).length at hlands
  rw [List.length_replicate] at hlands
  omega

/-! ### The length of the buffer -/

/-- A message is a classical frame, of at most eight data bytes. -/
def BusEvent.Classical : BusEvent → Prop
  | .message _ msg => msg.data.length ≤ 8
  | .clearReply => True

theorem BusState.length_commBuf_step (s : BusState) (e : BusEvent) (t : BusState)
    (hstep : s.step crc e = some t) : s.commBuf.length ≤ t.commBuf.length := by
  cases e with
  | message now msg =>
    cases hstep
    exact length_commBuf_onMessage crc s now msg
  | clearReply =>
    cases hstep
    exact le_rfl

theorem BusState.length_commBuf_step_le (s : BusState) (e : BusEvent) (t : BusState)
    (hs : s.commBuf.length ≤ 65541) (he : e.Classical) (hstep : s.step crc e = some t) :
    t.commBuf.length ≤ 65541 := by
  cases e with
  | message now msg =>
    cases hstep
    cases hfill : fillOf msg with
    | none =>
      rw [commBuf_onMessage_of_fillOf_none crc hfill]
      exact hs
    | some fill =>
      obtain ⟨off, chunk⟩ := fill
      rw [(onMessage_fillOf crc hfill s now).2]
      exact SliceAssign.length_assign_le hs (add_length_le_of_fillOf hfill he)
  | clearReply =>
    cases hstep
    exact hs

variable (crc) in
/-- The buffer of a bus that receives classical frames never shrinks, and has 512 bytes at the start
and never more than a chunk at the highest offset needs. -/
theorem length_commBuf_run (before after : List BusEvent) (s t : BusState)
    (hframes : ∀ e ∈ before ++ after, e.Classical)
    (hs : Transition.run (BusState.step crc) .initial before = some s)
    (ht : Transition.run (BusState.step crc) s after = some t) :
    512 ≤ s.commBuf.length ∧ s.commBuf.length ≤ t.commBuf.length ∧ t.commBuf.length ≤ 65541 := by
  have hreach : s.Reachable crc :=
    Transition.run_preserves (BusState.reachable_step crc) before .initial s .initial hs
  have hgrow := Transition.run_monotone BusState.length_commBuf_step after s t ht
  have hall : Transition.run (BusState.step crc) .initial (before ++ after) = some t := by
    rw [Transition.run_append, hs]
    exact ht
  have hmost := Transition.run_invariant BusState.length_commBuf_step_le (before ++ after)
    .initial t (List.length_replicate.le.trans (by decide))
    (Transition.meets_of_forall (fun e he _ => hframes e he) _) hall
  exact ⟨hreach.length_commBuf crc, hgrow, hmost⟩

theorem strayFill_bounded : 512 ≤ BusState.initial.commBuf.length ∧
    BusState.initial.commBuf.length ≤
      (onMessage Crc16.xmodem .initial 0 strayFill).commBuf.length ∧
    (onMessage Crc16.xmodem .initial 0 strayFill).commBuf.length ≤ 65541 := by
  refine length_commBuf_run Crc16.xmodem [] [.message 0 strayFill] .initial _ ?_ rfl rfl
  intro e he
  cases List.mem_singleton.mp he
  change 3 ≤ 8
  decide

/-! ### Announced lengths -/

variable (crc) in
/-- A reply that the last frame of a packet publishes has the announced length and checksum, and is
the beginning of the buffer. -/
def AnnouncementKept (s : BusState) : BusEvent → Prop
  | .message _ msg => ∀ announcer n k, processOf msg = some (announcer, n, k) →
      ∀ sender payload, published crc s.commBuf msg = some (sender, payload) →
        payload.length = n ∧ (crc payload).toNat = k ∧ payload = s.commBuf.take n
  | .clearReply => True

variable (crc) in
/-- A last frame that announces more than the buffer holds does not carry the checksum of the whole
buffer. -/
def AnnouncementCovered (s : BusState) : BusEvent → Prop
  | .message _ msg => ∀ announcer n k, processOf msg = some (announcer, n, k) →
      s.commBuf.length < n → (crc s.commBuf).toNat ≠ k
  | .clearReply => True

theorem announcementKept_iff {msg : CanMessage} {announcer n k : ℕ}
    (h : processOf msg = some (announcer, n, k)) (buf : Bytes) :
    (∀ sender payload, published crc buf msg = some (sender, payload) →
      payload.length = n ∧ (crc payload).toNat = k ∧ payload = buf.take n) ↔
        (buf.length < n → (crc buf).toNat ≠ k) := by
  rw [published_processOf crc h]
  constructor
  · intro hkept hlt hcrc
    have htake : buf.take n = buf := List.take_of_length_le hlt.le
    rw [htake, if_pos hcrc] at hkept
    exact absurd (hkept announcer buf rfl).1 hlt.ne
  · intro hcovered sender payload hpub
    obtain ⟨hcrc, heq⟩ := Option.ite_none_right_eq_some.mp hpub
    cases heq
    refine ⟨?_, hcrc, rfl⟩
    rw [List.length_take, Nat.min_eq_left]
    by_contra hlong
    rw [List.take_of_length_le (by omega)] at hcrc
    exact hcovered (by omega) hcrc

variable (crc) in
/-- The long replies of a run have their announced lengths just if no announcement exceeds the
buffer and has the checksum of all of it. -/
theorem announcements_kept (s : BusState) (events : List BusEvent) :
    Transition.Meets (BusState.step crc) (AnnouncementKept crc) s events ↔
      Transition.Meets (BusState.step crc) (AnnouncementCovered crc) s events := by
  apply Transition.meets_congr
  intro s e
  cases e with
  | message now msg =>
    exact forall_congr' fun announcer => forall₃_congr fun n k h => announcementKept_iff h s.commBuf
  | clearReply => rfl

theorem xmodem_zeros (n : ℕ) : Crc16.xmodem (List.replicate n 0) = 0 := by
  have hfeed : Crc16.feed 0 0 = 0 := by decide +kernel
  induction n with
  | zero => rfl
  | succ n ih =>
    rw [List.replicate_succ, Crc16.xmodem, List.foldl_cons, hfeed]
    exact ih

/-- A fresh bus is told that a reply of 600 bytes with the checksum 0 is complete. -/
def strayProcess : CanMessage := ⟨true, 0x7fe, [1, 0, 0x02, 0x58, 0, 0]⟩

/-- It publishes the 512 zeros of its buffer. -/
theorem strayProcess_published : ¬ ∀ events : List (ℚ × CanMessage),
    ∀ before now msg after, events = before ++ (now, msg) :: after →
      ∀ announcer n k, processOf msg = some (announcer, n, k) →
        ∀ sender payload, published Crc16.xmodem
            (receiveAll Crc16.xmodem .initial before).commBuf msg = some (sender, payload) →
          payload.length = n ∧ (Crc16.xmodem payload).toNat = k ∧
            payload = (receiveAll Crc16.xmodem .initial before).commBuf.take n := by
  intro h
  have hprocess : processOf strayProcess = some (1, 600, 0) := by decide
  have hkept := h [(0, strayProcess)] [] 0 strayProcess [] rfl 1 600 0 hprocess
  rw [announcementKept_iff hprocess] at hkept
  change (List.replicate 512 0).length < 600 →
    (Crc16.xmodem (List.replicate 512 0)).toNat ≠ 0 at hkept
  rw [List.length_replicate, xmodem_zeros] at hkept
  exact hkept (by omega) rfl

end PyVesc
