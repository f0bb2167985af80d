import PyVesc.TunnelNet

/-!
# Reassembly in any order

The buffer of the bus starts with 512 bytes and never gets shorter. A fill frame of a packet that
fits in it therefore changes only the bytes that it carries. Whatever order the fill frames come in,
and however often, the buffer holds the packet once every one of them has come.
-/

namespace PyVesc

variable (crc : Bytes → UInt16)

/-- The states of the bus: it receives any messages, and requests clear the reply. -/
inductive BusState.Reachable : BusState → Prop
  | initial : Reachable .initial
  | message {s : BusState} (now : ℚ) (msg : CanMessage) (h : Reachable s) :
      Reachable (onMessage crc s now msg)
  | clearReply {s : BusState} (h : Reachable s) : Reachable s.clearReply

/-! ### The buffer never shrinks -/

theorem length_commBuf_onTunnelFrame (s : BusState) (packetId : ℕ) (data : Bytes) :
    s.commBuf.length ≤ (onTunnelFrame crc s packetId data).commBuf.length := by
  rcases onTunnelFrame_cases crc s packetId data with ⟨off, chunk, h⟩ | ⟨_, _, h⟩ | h
  · rw [h]
    exact SliceAssign.length_le_length_assign s.commBuf chunk off
  · rw [h]
    rfl
  · rw [h]

theorem length_commBuf_onMessage (s : BusState) (now : ℚ) (msg : CanMessage) :
    s.commBuf.length ≤ (onMessage crc s now msg).commBuf.length := by
  cases htunnel : tunnelForHost msg with
  | true =>
      rw [onMessage_tunnel crc htunnel]
      exact length_commBuf_onTunnelFrame crc s _ _
  | false =>
      have hcomm := congrArg Prod.fst (comm_onMessage crc htunnel s now)
      exact (congrArg List.length hcomm).ge

theorem BusState.Reachable.length_commBuf {s : BusState} (h : s.Reachable crc) :
    512 ≤ s.commBuf.length := by
  induction h with
  | initial => exact List.length_replicate.ge
  | message now msg _ ih => exact ih.trans (length_commBuf_onMessage crc _ now msg)
  | clearReply _ ih => exact ih

/-! ### Which bytes a fill frame settles -/

section Fill
variable {payload : Bytes}

theorem FillFrame.le_length {i j : ℕ} {f : VescFrame} (hf : FillFrame payload i f j) :
    j ≤ payload.length := by
  cases hf <;> rw [length_slice] <;> omega

theorem FillFrame.id_mem {i j : ℕ} {f : VescFrame} (hf : FillFrame payload i f j) :
    (splitArbitrationId f.arbitrationId).1 ∈
      [CanPacketId.fillRxBuffer.value, CanPacketId.fillRxBufferLong.value] := by
  cases hf <;> simp [splitArbitrationId_host]

theorem getElem?_slice {i w p : ℕ} (hlow : i ≤ p)
    (hhigh : p < i + (slice payload i (i + w)).length) :
    (slice payload i (i + w))[p - i]? = payload[p]? := by
  rw [length_slice] at hhigh
  rw [slice, List.getElem?_take, if_pos (by omega), List.getElem?_drop, Nat.add_sub_cancel' hlow]

/-- A fill frame writes the bytes it covers and no others. -/
theorem onMessage_fill_settles {i j : ℕ} {f : VescFrame} (hf : FillFrame payload i f j)
    (s : BusState) (hbuf : payload.length ≤ s.commBuf.length) (now : ℚ) :
    (onMessage crc s now f.message).commBuf.length = s.commBuf.length ∧
      ∀ p, (i ≤ p ∧ p < j ∨ s.commBuf[p]? = payload[p]?) →
        (onMessage crc s now f.message).commBuf[p]? = payload[p]? := by
  have hle := hf.le_length
  obtain ⟨w, rfl, hstep⟩ := onMessage_fill_assign crc hf s now
  have hfits : i + (slice payload i (i + w)).length ≤ s.commBuf.length := by omega
  rw [hstep]
  refine ⟨SliceAssign.length_assign_of_fits hfits, fun p hp => ?_⟩
  have hi : i ≤ s.commBuf.length := by omega
  by_cases hin : i ≤ p ∧ p < i + (slice payload i (i + w)).length
  · exact (SliceAssign.getElem?_assign_inside hi hin.1 hin.2).trans (getElem?_slice hin.1 hin.2)
  · have hsame := hp.resolve_left hin
    exact (SliceAssign.getElem?_assign_outside hi (by omega)).trans hsame

theorem Tiles.covers {i k : ℕ} {fs : List VescFrame} (ht : Tiles payload i fs k) {p : ℕ}
    (hlow : i ≤ p) (hhigh : p < k) :
    ∃ f ∈ fs, ∃ i j, FillFrame payload i f j ∧ i ≤ p ∧ p < j := by
  induction ht with
  | nil i => omega
  | @cons i j k f fs hf _ ih =>
      by_cases hp : p < j
      · exact ⟨f, List.mem_cons_self, i, j, hf, hlow, hp⟩
      · obtain ⟨g, hg, hcover⟩ := ih (by omega) hhigh
        exact ⟨g, List.mem_cons_of_mem f hg, hcover⟩

/-- Every fill frame that comes settles its bytes for good. -/
theorem receiveAll_fills {fs : List VescFrame} (hfs : ∀ f ∈ fs, ∃ i j, FillFrame payload i f j)
    (events : List (ℚ × CanMessage)) (s : BusState) (hbuf : payload.length ≤ s.commBuf.length)
    (honly : ∀ e ∈ events, tunnelForHost e.2 = true → e.2 ∈ fs.map VescFrame.message) :
    ∀ p, (s.commBuf[p]? = payload[p]? ∨ ∃ f i j, f.message ∈ events.map Prod.snd ∧
        FillFrame payload i f j ∧ i ≤ p ∧ p < j) →
      (receiveAll crc s events).commBuf[p]? = payload[p]? := by
  induction events generalizing s with
  | nil =>
      rintro p (hp | ⟨f, i, j, hmem, _⟩)
      · exact hp
      · cases hmem
  | cons e events ih =>
      obtain ⟨hfirst, hrest⟩ := List.forall_mem_cons.mp honly
      have hlater := ih (onMessage crc s e.1 e.2)
        (hbuf.trans (length_commBuf_onMessage crc s e.1 e.2)) hrest
      intro p hp
      apply hlater
      obtain hp | ⟨f, i, j, hmem, hf, hcover⟩ := hp
      · apply Or.inl
        cases htunnel : tunnelForHost e.2 with
        | false =>
            have hcomm := congrArg Prod.fst (comm_onMessage crc htunnel s e.1)
            change (onMessage crc s e.1 e.2).commBuf = s.commBuf at hcomm
            rw [hcomm]
            exact hp
        | true =>
            obtain ⟨f, hf, hmsg⟩ := List.mem_map.mp (hfirst htunnel)
            obtain ⟨i, j, hfill⟩ := hfs f hf
            rw [← hmsg]
            exact (onMessage_fill_settles crc hfill s hbuf e.1).2 p (Or.inr hp)
      · obtain hmsg | hmem := List.mem_cons.mp hmem
        · apply Or.inl
          rw [← hmsg]
          exact (onMessage_fill_settles crc hf s hbuf e.1).2 p (Or.inl hcover)
        · exact Or.inr ⟨f, i, j, hmem, hf, hcover⟩

end Fill

/-- The fill frames of a packet of 7 to 512 bytes may come in any order and more than once, with
messages in between that are none of the tunnel's. The last frame then stores the packet. -/
theorem order_free_reassembly (senderId : ℕ) (hsender : senderId ≤ 255) (payload : Bytes)
    (hlow : 7 ≤ payload.length) (hhigh : payload.length ≤ 512) :
    ∃ fills last, encodeCommFrames crc HOST_ID senderId payload 0 = .ok (fills ++ [last]) ∧
      (∀ f ∈ fills, (splitArbitrationId f.arbitrationId).1 ∈
        [CanPacketId.fillRxBuffer.value, CanPacketId.fillRxBufferLong.value]) ∧
      (splitArbitrationId last.arbitrationId).1 = CanPacketId.processRxBuffer.value ∧
      ∀ s : BusState, s.Reachable crc → ∀ (events : List (ℚ × CanMessage)) (now : ℚ),
        (∀ e ∈ events, tunnelForHost e.2 = true → e.2 ∈ fills.map VescFrame.message) →
        (∀ f ∈ fills, f.message ∈ events.map Prod.snd) →
        (receiveAll crc s (events ++ [(now, last.message)])).commReply =
          some (senderId, payload) := by
  have hlong : 6 < payload.length := by omega
  have hlen : payload.length ≤ 65535 := by omega
  obtain ⟨fills, hencode, htiles⟩ :=
    encodeCommFrames_tiles crc hlong hlen hsender (Nat.zero_le 255)
  have hfills := htiles.fillFrame
  refine ⟨fills, _, hencode, ?_, ?_, ?_⟩
  · intro f hf
    obtain ⟨i, j, hfill⟩ := hfills f hf
    exact hfill.id_mem
  · rw [lastFrame, splitArbitrationId_host]
  · intro s hs events now honly hall
    have hbuf : payload.length ≤ s.commBuf.length := hhigh.trans (hs.length_commBuf crc)
    have hsettled := receiveAll_fills crc hfills events s hbuf honly
    have htake : (receiveAll crc s events).commBuf.take payload.length = payload := by
      apply List.ext_getElem?
      intro p
      rw [List.getElem?_take]
      by_cases hp : p < payload.length
      · obtain ⟨f, hf, i, j, hfill, hcover⟩ := htiles.covers (Nat.zero_le p) hp
        rw [if_pos hp]
        exact hsettled p (Or.inr ⟨f, i, j, hall f hf, hfill, hcover⟩)
      · rw [if_neg hp, List.getElem?_eq_none (by omega)]
    have hlast := @onMessage_lastFrame crc payload hlen senderId 0 hsender
      (receiveAll crc s events) now
    rw [htake, if_pos rfl] at hlast
    rw [receiveAll, List.foldl_append, List.foldl_cons, List.foldl_nil]
    change (onMessage crc (receiveAll crc s events) now _).commReply = _
    rw [hlast]
    rfl

/-- A packet of ten bytes, which goes in two fill frames. -/
theorem order_free_reassembly_ten :
    ∃ fills last, encodeCommFrames Crc16.xmodem HOST_ID 10 [1, 2, 3, 4, 5, 6, 7, 8, 9, 10] 0 =
        .ok (fills ++ [last]) ∧
      (∀ f ∈ fills, (splitArbitrationId f.arbitrationId).1 ∈
        [CanPacketId.fillRxBuffer.value, CanPacketId.fillRxBufferLong.value]) ∧
      (splitArbitrationId last.arbitrationId).1 = CanPacketId.processRxBuffer.value ∧
      ∀ s : BusState, s.Reachable Crc16.xmodem → ∀ (events : List (ℚ × CanMessage)) (now : ℚ),
        (∀ e ∈ events, tunnelForHost e.2 = true → e.2 ∈ fills.map VescFrame.message) →
        (∀ f ∈ fills, f.message ∈ events.map Prod.snd) →
        (receiveAll Crc16.xmodem s (events ++ [(now, last.message)])).commReply =
          some (10, [1, 2, 3, 4, 5, 6, 7, 8, 9, 10]) :=
  order_free_reassembly Crc16.xmodem 10 (by decide) [1, 2, 3, 4, 5, 6, 7, 8, 9, 10] (by decide)
    (by decide)

end PyVesc
