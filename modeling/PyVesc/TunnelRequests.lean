import PyVesc.TunnelNet

/-!
# Requests through the tunnel

A call returns the first reply of the node it asked that it finds in the slot. It is the reply to
its own request if no earlier request of that node is still to be answered and no colliding
checksum lets a mixture of two replies pass. The invariant says where the answer to the call under
way can be: still to come, on the wire, or in the slot.
-/

namespace PyVesc

variable (crc : Bytes → UInt16)

/-! ### What a frame of a node does -/

/-- A frame of the node `d` writes to the reassembly buffer, or it can only publish a reply of
`d`. -/
def SentBy (d : ℕ) (msg : CanMessage) : Prop :=
  (TunnelNet.IsFill msg ∧ ∀ s now, ∃ buf, onMessage crc s now msg = s.withBuf buf) ∨
    ∀ s now, onMessage crc s now msg = s ∨ ∃ q, onMessage crc s now msg = s.publish d q

variable {crc}

theorem FillFrame.isFill {payload : Bytes} {i j : ℕ} {f : VescFrame}
    (hf : FillFrame payload i f j) : TunnelNet.IsFill f.message := by
  cases hf with
  | short hi hlt =>
    rw [TunnelNet.IsFill, VescFrame.message, splitArbitrationId_host .fillRxBuffer]
    simp
  | long hi hlt =>
    rw [TunnelNet.IsFill, VescFrame.message, splitArbitrationId_host .fillRxBufferLong]
    simp

/-- The next message of a packet that has arrived in part is the last one, or a fill frame. -/
theorem next_message {fs : List VescFrame} {last : VescFrame} {msg : CanMessage}
    {rest : List CanMessage} (h : msg :: rest <:+ (fs ++ [last]).map VescFrame.message) :
    (rest = [] ∧ msg = last.message) ∨ ∃ f ∈ fs, msg = f.message := by
  obtain ⟨before, h⟩ := h
  rw [List.map_append, List.map_singleton] at h
  obtain rfl | ⟨rest, b, rfl⟩ := List.eq_nil_or_concat' rest
  · left
    obtain ⟨_, hlast⟩ := List.append_inj' h rfl
    cases hlast
    exact ⟨rfl, rfl⟩
  · right
    rw [← List.cons_append, ← List.append_assoc] at h
    obtain ⟨hfs, _⟩ := List.append_inj' h rfl
    have hmem : msg ∈ fs.map VescFrame.message := by
      rw [← hfs]
      simp
    obtain ⟨f, hf, rfl⟩ := List.mem_map.mp hmem
    exact ⟨f, hf, rfl⟩

namespace Transmits

variable {payload : Bytes} {d j : ℕ} {fs : List VescFrame} {last : VescFrame}

theorem fills (ht : Transmits crc payload d fs j last) {f : VescFrame} (hf : f ∈ fs) :
    TunnelNet.IsFill f.message ∧ ∀ s now, ∃ buf, onMessage crc s now f.message = s.withBuf buf := by
  obtain ⟨k, l, hfill⟩ := ht.tiles.fillFrame f hf
  refine ⟨hfill.isFill, fun s now => ?_⟩
  obtain ⟨buf, hbuf, _⟩ := onMessage_fill crc hfill s now
  exact ⟨buf, hbuf⟩

theorem publishes_short (ht : Transmits crc payload d fs j last) (hshort : payload.length ≤ 6)
    (s : BusState) (now : ℚ) : onMessage crc s now last.message = s.publish d payload := by
  apply ht.publishes
  rw [(ht.short hshort).2]
  exact ⟨Nat.zero_le _, rfl⟩

theorem sentBy (ht : Transmits crc payload d fs j last) :
    ∀ msg ∈ (fs ++ [last]).map VescFrame.message, SentBy crc d msg := by
  intro msg hmsg
  obtain ⟨f, hf, rfl⟩ := List.mem_map.mp hmsg
  obtain hf | hf := List.mem_append.mp hf
  · exact Or.inl (ht.fills hf)
  · right
    intro s now
    rw [List.mem_singleton.mp hf]
    by_cases hshort : payload.length ≤ 6
    · exact Or.inr ⟨_, ht.publishes_short hshort s now⟩
    · rw [(ht.long (by omega)).2 s now]
      split_ifs with hcrc
      · exact Or.inr ⟨_, rfl⟩
      · exact Or.inl rfl

end Transmits

namespace TunnelNet

variable (crc) (reply : ℕ → Bytes)

def Orderly (s : TunnelNet) (e : Event) : Prop := FreshCall s e ∧ ChecksumTells crc reply s e

/-- Where the answer to call `n`, which asks the node `c`, can be. -/
structure Current (s : TunnelNet) (n c : ℕ) : Prop where
  only : ∀ m, (c, m) ∈ s.pending → m = n
  unanswered : (c, n) ∈ s.pending → s.wire c = []
  arriving : s.wire c = [] ∨ n ∈ s.answered ∧ ∃ frames,
    encodeCommFrames crc HOST_ID c (reply n) 0 = .ok frames ∧
    s.wire c <:+ frames.map VescFrame.message
  slot : ∀ q, s.bus.commReply = some (c, q) → n ∈ s.answered ∧ q = reply n

structure Inv (s : TunnelNet) : Prop where
  nodup : s.pending.Nodup
  sent : ∀ d, ∀ msg ∈ s.wire d, SentBy crc d msg
  own : ∀ msg ∈ s.echo, tunnelForHost msg = false
  returned : ∀ p ∈ s.returned, p.1 ∈ s.answered ∧ p.2 = reply p.1
  current : ∀ n c, s.phase.asks = some (n, c) → Current crc reply s n c

theorem inv_initial : Inv crc reply initial :=
  ⟨List.nodup_nil, fun d msg h => absurd h List.not_mem_nil, fun msg h => absurd h List.not_mem_nil,
    fun p h => absurd h List.not_mem_nil, fun n c h => by cases h⟩

variable {crc reply} {s : TunnelNet}

/-! ### Messages -/

/-- A message that puts no wrong reply into the slot. -/
theorem Inv.hear (h : Inv crc reply s) (now : ℚ) (msg : CanMessage)
    (hmsg : ∀ n c q, s.phase.asks = some (n, c) →
      (onMessage crc s.bus now msg).commReply = some (c, q) →
      s.bus.commReply = some (c, q) ∨ n ∈ s.answered ∧ q = reply n) :
    Inv crc reply (s.hear crc now msg) := by
  refine ⟨h.nodup, h.sent, h.own, h.returned, fun n c hasks => ?_⟩
  have hcur := h.current n c hasks
  refine ⟨hcur.only, hcur.unanswered, hcur.arriving, fun q hq => ?_⟩
  obtain hq | hq := hmsg n c q hasks hq
  · exact hcur.slot q hq
  · exact hq

theorem Inv.hear_other (h : Inv crc reply s) (now : ℚ) {msg : CanMessage}
    (hmsg : tunnelForHost msg = false) : Inv crc reply (s.hear crc now msg) := by
  refine h.hear now msg fun n c q _ hq => Or.inl ?_
  have hcomm := comm_onMessage crc hmsg s.bus now
  simp only [BusState.comm, Prod.mk.injEq] at hcomm
  rw [← hcomm.2.1]
  exact hq

theorem Inv.tail (h : Inv crc reply s) {d : ℕ} {msg : CanMessage} {rest : List CanMessage}
    (hwire : s.wire d = msg :: rest) : Inv crc reply (s.withWire d rest) := by
  refine ⟨h.nodup, fun c m hm => ?_, h.own, h.returned, fun n c hasks => ?_⟩
  · by_cases hc : c = d
    · subst hc
      rw [withWire_self] at hm
      exact h.sent c m (by rw [hwire]; exact List.mem_cons_of_mem _ hm)
    · rw [withWire_of_ne s hc] at hm
      exact h.sent c m hm
  · have hcur := h.current n c hasks
    by_cases hc : c = d
    · subst hc
      refine ⟨hcur.only, fun hp => ?_, ?_, hcur.slot⟩
      · have hnil := hcur.unanswered hp
        rw [hwire] at hnil
        cases hnil
      · obtain hnil | ⟨hn, frames, hencode, hsuffix⟩ := hcur.arriving
        · rw [hwire] at hnil
          cases hnil
        · right
          refine ⟨hn, frames, hencode, ?_⟩
          rw [hwire] at hsuffix
          rw [withWire_self]
          exact (List.suffix_cons msg rest).trans hsuffix
    · refine ⟨hcur.only, ?_, ?_, hcur.slot⟩ <;> rw [withWire_of_ne s hc]
      · exact hcur.unanswered
      · exact hcur.arriving

/-- A message of a node puts no wrong reply into the slot. -/
theorem Inv.slot_deliver (h : Inv crc reply s) {d : ℕ} (now : ℚ) {msg : CanMessage}
    {rest : List CanMessage} (htells : ChecksumTells crc reply s (.deliver d now))
    (hwire : s.wire d = msg :: rest) (n c : ℕ) (q : Bytes) (hasks : s.phase.asks = some (n, c))
    (hq : (onMessage crc s.bus now msg).commReply = some (c, q)) :
    s.bus.commReply = some (c, q) ∨ n ∈ s.answered ∧ q = reply n := by
  by_cases hd : d = c
  · subst hd
    obtain hnil | ⟨hn, frames, hencode, hsuffix⟩ := (h.current n d hasks).arriving
    · rw [hwire] at hnil
      cases hnil
    obtain ⟨fs, j, last, rfl, ht⟩ := transmits_of_encode crc (by decide) hencode
    rw [hwire] at hsuffix
    obtain ⟨rfl, rfl⟩ | ⟨f, hf, rfl⟩ := next_message hsuffix
    · by_cases hshort : (reply n).length ≤ 6
      · rw [ht.publishes_short hshort] at hq
        cases hq
        exact Or.inr ⟨hn, rfl⟩
      · rw [(ht.long (by omega)).2] at hq
        split_ifs at hq with hcrc
        · have htake := htells n hasks (by omega) (by rw [hwire]; rfl) hcrc
          rw [htake] at hq
          cases hq
          exact Or.inr ⟨hn, rfl⟩
        · exact Or.inl hq
    · obtain ⟨buf, hbuf⟩ := (ht.fills hf).2 s.bus now
      rw [hbuf] at hq
      exact Or.inl hq
  · left
    obtain ⟨_, hfill⟩ | hreport := h.sent d msg (by rw [hwire]; exact List.mem_cons_self)
    · obtain ⟨buf, hbuf⟩ := hfill s.bus now
      rw [hbuf] at hq
      exact hq
    · obtain hsame | ⟨p, hp⟩ := hreport s.bus now
      · rw [hsame] at hq
        exact hq
      · rw [hp] at hq
        cases hq
        exact absurd rfl hd

/-! ### The steps -/

theorem inv_call (h : Inv crc reply s) {c : ℕ} {payload : Bytes} (hidle : s.phase = .idle)
    (hfresh : FreshCall s (.call c payload)) : Inv crc reply (s.call crc c payload) := by
  obtain ⟨hhost, hpending, hwire⟩ := hfresh
  unfold call
  cases hencode : encodeCommFrames crc c HOST_ID payload 0 with
  | error e =>
    refine ⟨h.nodup, h.sent, h.own, h.returned, fun n d hasks => ?_⟩
    change s.phase.asks = some (n, d) at hasks
    rw [hidle] at hasks
    cases hasks
  | ok frames =>
    refine ⟨List.nodup_cons.mpr ⟨hpending s.calls, h.nodup⟩, h.sent, ?_, h.returned, ?_⟩
    · intro msg hmsg
      obtain hmsg | hmsg := List.mem_append.mp hmsg
      · exact h.own msg hmsg
      · obtain ⟨f, hf, rfl⟩ := List.mem_map.mp hmsg
        have haddressee : (splitArbitrationId f.message.arbitrationId).2 = c :=
          encodeCommFrames_addressed crc hencode f hf
        simp [tunnelForHost, haddressee, hhost]
    · intro n d hasks
      cases hasks
      refine ⟨fun m hm => ?_, fun _ => hwire, Or.inl hwire, fun q hq => ?_⟩
      · obtain heq | hm := List.mem_cons.mp hm
        · cases heq
          rfl
        · exact absurd hm (hpending m)
      · cases hq

theorem inv_answer (h : Inv crc reply s) {c n : ℕ} (hpending : (c, n) ∈ s.pending)
    {frames : List VescFrame}
    (hencode : encodeCommFrames crc HOST_ID c (reply n) 0 = .ok frames) :
    Inv crc reply { s.withWire c (s.wire c ++ frames.map VescFrame.message) with
      pending := s.pending.erase (c, n)
      answered := n :: s.answered } := by
  obtain ⟨fs, j, last, rfl, ht⟩ := transmits_of_encode crc (by decide) hencode
  have hanswered : ∀ {m : ℕ}, m ∈ s.answered → m ∈ n :: s.answered :=
    List.mem_cons_of_mem n
  refine ⟨h.nodup.erase _, fun d msg hmsg => ?_, h.own, fun p hp => ?_, fun m d hasks => ?_⟩
  · change msg ∈ (s.withWire c _).wire d at hmsg
    by_cases hd : d = c
    · subst hd
      rw [withWire_self] at hmsg
      obtain hmsg | hmsg := List.mem_append.mp hmsg
      · exact h.sent d msg hmsg
      · exact ht.sentBy msg hmsg
    · rw [withWire_of_ne s hd] at hmsg
      exact h.sent d msg hmsg
  · obtain ⟨hmem, heq⟩ := h.returned p hp
    exact ⟨hanswered hmem, heq⟩
  · have hcur := h.current m d hasks
    refine ⟨fun k hk => hcur.only k (List.mem_of_mem_erase hk), fun hp => ?_, ?_, fun q hq => ?_⟩
    · have hne := (h.nodup.mem_erase_iff.mp hp).1
      have hd : d ≠ c := by
        rintro rfl
        exact hne (by rw [hcur.only n hpending])
      change (s.withWire c _).wire d = []
      rw [withWire_of_ne s hd]
      exact hcur.unanswered (List.mem_of_mem_erase hp)
    · change (s.withWire c _).wire d = [] ∨ m ∈ n :: s.answered ∧ ∃ frames,
        encodeCommFrames crc HOST_ID d (reply m) 0 = .ok frames ∧
        (s.withWire c _).wire d <:+ frames.map VescFrame.message
      by_cases hd : d = c
      · subst hd
        obtain rfl := hcur.only n hpending
        rw [withWire_self, hcur.unanswered hpending]
        exact Or.inr ⟨List.mem_cons_self, _, hencode, List.suffix_rfl⟩
      · rw [withWire_of_ne s hd]
        exact hcur.arriving.imp_right fun ⟨hm, hframes⟩ => ⟨hanswered hm, hframes⟩
    · obtain ⟨hmem, heq⟩ := hcur.slot q hq
      exact ⟨hanswered hmem, heq⟩

theorem inv_lose (h : Inv crc reply s) (c n : ℕ) :
    Inv crc reply { s with pending := s.pending.erase (c, n) } := by
  refine ⟨h.nodup.erase _, h.sent, h.own, h.returned, fun m d hasks => ?_⟩
  have hcur := h.current m d hasks
  exact ⟨fun k hk => hcur.only k (List.mem_of_mem_erase hk),
    fun hp => hcur.unanswered (List.mem_of_mem_erase hp), hcur.arriving, hcur.slot⟩

theorem inv_inspect (h : Inv crc reply s) {n c : ℕ} (hphase : s.phase = .waiting n c) :
    Inv crc reply (s.inspect n c) := by
  have hasks : s.phase.asks = some (n, c) := by rw [hphase]; rfl
  have hcur := h.current n c hasks
  unfold inspect
  cases hslot : s.bus.commReply with
  | none => exact h
  | some p =>
    obtain ⟨sender, payload⟩ := p
    dsimp only
    split_ifs with hsender
    · subst hsender
      refine ⟨h.nodup, h.sent, h.own, fun p hp => ?_, fun m d hasks => by cases hasks⟩
      obtain hp | hp := List.mem_append.mp hp
      · exact h.returned p hp
      · rw [List.mem_singleton.mp hp]
        exact hcur.slot payload hslot
    · refine ⟨h.nodup, h.sent, h.own, h.returned, fun m d hasks' => ?_⟩
      cases hasks'
      exact ⟨hcur.only, hcur.unanswered, hcur.arriving, hcur.slot⟩

theorem inv_discard (h : Inv crc reply s) {n c : ℕ} (hphase : s.phase = .discarding n c) :
    Inv crc reply { s with bus := s.bus.clearReply, phase := .waiting n c } := by
  have hcur := h.current n c (by rw [hphase]; rfl)
  refine ⟨h.nodup, h.sent, h.own, h.returned, fun m d hasks => ?_⟩
  cases hasks
  exact ⟨hcur.only, hcur.unanswered, hcur.arriving, fun q hq => by cases hq⟩

theorem inv_idle (h : Inv crc reply s) : Inv crc reply { s with phase := .idle } :=
  ⟨h.nodup, h.sent, h.own, h.returned, fun n c hasks => by cases hasks⟩

theorem inv_receiveOwn (h : Inv crc reply s) (now : ℚ) {msg : CanMessage} {rest : List CanMessage}
    (hecho : s.echo = msg :: rest) : Inv crc reply (hear crc { s with echo := rest } now msg) := by
  have hown : ∀ m ∈ rest, tunnelForHost m = false := by
    intro m hm
    exact h.own m (by rw [hecho]; exact List.mem_cons_of_mem _ hm)
  have hrest : Inv crc reply { s with echo := rest } := by
    refine ⟨h.nodup, h.sent, hown, h.returned, fun n c hasks => ?_⟩
    have hcur := h.current n c hasks
    exact ⟨hcur.only, hcur.unanswered, hcur.arriving, hcur.slot⟩
  exact hrest.hear_other now (h.own msg (by rw [hecho]; exact List.mem_cons_self))

theorem inv_step (s : TunnelNet) (e : Event) (t : TunnelNet) (h : Inv crc reply s)
    (horderly : Orderly crc reply s e) (hstep : step crc reply s e = some t) :
    Inv crc reply t := by
  cases move_of_step crc hstep with
  | call hidle => exact inv_call h hidle horderly.1
  | answer hpending hencode => exact inv_answer h hpending hencode
  | lose => exact inv_lose h _ _
  | deliver hwire => exact (h.tail hwire).hear _ _ (h.slot_deliver _ horderly.2 hwire)
  | receiveOwn hecho => exact inv_receiveOwn h _ hecho
  | receiveOther hmsg => exact h.hear_other _ hmsg
  | inspect hphase => exact inv_inspect h hphase
  | discard hphase => exact inv_discard h hphase
  | timeout hphase => exact inv_idle h

/-- A call that returns bytes returns what the node it asked answered to that very call. -/
theorem returned_reply (crc : Bytes → UInt16) (reply : ℕ → Bytes) (events : List Event)
    (t : TunnelNet) (hmeets : Transition.Meets (step crc reply) (Orderly crc reply) initial events)
    (hrun : Transition.run (step crc reply) initial events = some t) (n : ℕ) (bytes : Bytes)
    (hreturned : (n, bytes) ∈ t.returned) : n ∈ t.answered ∧ bytes = reply n := by
  have hinv := Transition.run_invariant inv_step events initial t (inv_initial crc reply) hmeets
    hrun
  exact hinv.returned (n, bytes) hreturned

/-- Nodes whose firmware version counts the requests. -/
def versionReply (n : ℕ) : Bytes := [0, 5, UInt8.ofNat n]

def lateOther : List Event :=
  [.call 11 [0], .timeout, .call 10 [0], .answer 11 0, .answer 10 1, .deliver 11 0, .inspect,
    .discard, .deliver 10 0, .inspect]

theorem returned_reply_late_other : ∃ t,
    Transition.run (step Crc16.xmodem versionReply) initial lateOther = some t ∧
    (1, [0, 5, 1]) ∈ t.returned ∧ 1 ∈ t.answered ∧ [0, 5, 1] = versionReply 1 := by
  have hshort : ∀ s c now, ChecksumTells Crc16.xmodem versionReply s (.deliver c now) := by
    intro s c now n _ hlong
    simp [versionReply] at hlong
  have hmeets : Transition.Meets (step Crc16.xmodem versionReply)
      (Orderly Crc16.xmodem versionReply) initial lateOther := by
    refine Transition.meets_cons ⟨⟨by decide, fun n => List.not_mem_nil, rfl⟩, trivial⟩ rfl ?_
    refine Transition.meets_cons ⟨trivial, trivial⟩ rfl ?_
    refine Transition.meets_cons ⟨⟨by decide, fun n h => ?_, rfl⟩, trivial⟩ rfl ?_
    · cases h
      · next h => cases h
    refine Transition.meets_cons ⟨trivial, trivial⟩ rfl ?_
    refine Transition.meets_cons ⟨trivial, trivial⟩ rfl ?_
    refine Transition.meets_cons ⟨trivial, hshort _ _ _⟩ rfl ?_
    refine Transition.meets_cons ⟨trivial, trivial⟩ rfl ?_
    refine Transition.meets_cons ⟨trivial, trivial⟩ rfl ?_
    refine Transition.meets_cons ⟨trivial, hshort _ _ _⟩ rfl ?_
    exact Transition.meets_cons ⟨trivial, trivial⟩ rfl trivial
  have hreturned : (Transition.run (step Crc16.xmodem versionReply) initial lateOther).map
      TunnelNet.returned = some [(1, [0, 5, 1])] := by decide +kernel
  obtain ⟨t, hrun, ht⟩ := Option.map_eq_some_iff.mp hreturned
  have hmem : (1, [0, 5, 1]) ∈ t.returned := by
    rw [ht]
    exact List.mem_singleton_self _
  exact ⟨t, hrun, hmem, returned_reply Crc16.xmodem versionReply lateOther t hmeets hrun 1 [0, 5, 1]
    hmem⟩

/-- Without the conditions: the late reply of an earlier request to the same node, a request to
the host's own id that the host receives itself, and two replies of one checksum that share the
buffer. -/
theorem returned_other_bytes :
    (versionReply 0 ≠ versionReply 1 ∧ (Transition.run (step Crc16.xmodem versionReply) initial
      [.call 10 [0], .timeout, .call 10 [0], .answer 10 0, .deliver 10 0, .inspect]).map
      TunnelNet.returned = some [(1, versionReply 0)]) ∧
    (Transition.run (step Crc16.xmodem versionReply) initial
      [.call HOST_ID [0], .receiveOwn 0, .inspect]).map TunnelNet.returned = some [(0, [0])] ∧
    (Transition.run (step Crc16.xmodem fun n =>
        if n = 0 then [4, 0, 0, 0, 1, 16, 33] else [4, 0, 0, 0, 0, 0, 0]) initial
      [.call 11 [4], .timeout, .call 10 [4], .answer 11 0, .answer 10 1, .deliver 10 0,
        .deliver 11 0, .deliver 10 0, .inspect]).map TunnelNet.returned =
      some [(1, [4, 0, 0, 0, 1, 16, 33])] := by
  refine ⟨?_, ?_, ?_⟩ <;> decide +kernel

/-! ### Replies that do not share the buffer -/

/-- What is still to come of a long packet, and what the buffer holds of it already. -/
def Awaits (payload buf : Bytes) (rest : List CanMessage) : Prop :=
  ∃ fs i last, rest = (fs ++ [last]).map VescFrame.message ∧
    Tiles payload i fs payload.length ∧ Assembled payload i buf

theorem awaits_frames {d : ℕ} {payload : Bytes} {frames : List VescFrame}
    (hencode : encodeCommFrames crc HOST_ID d payload 0 = .ok frames) (hlong : 6 < payload.length)
    (buf : Bytes) : Awaits payload buf (frames.map VescFrame.message) := by
  obtain ⟨fs, j, last, rfl, ht⟩ := transmits_of_encode crc (by decide) hencode
  have htiles := ht.tiles
  rw [(ht.long hlong).1] at htiles
  exact ⟨fs, 0, last, rfl, htiles, ⟨Nat.zero_le _, rfl⟩⟩

theorem Awaits.tail {payload : Bytes} {bus : BusState} {msg : CanMessage} {rest : List CanMessage}
    (h : Awaits payload bus.commBuf (msg :: rest)) (now : ℚ) :
    rest = [] ∨ Awaits payload (onMessage crc bus now msg).commBuf rest := by
  obtain ⟨fs, i, last, heq, htiles, hbuf⟩ := h
  cases htiles with
  | nil =>
    cases heq
    exact Or.inl rfl
  | cons hf hfs =>
    cases heq
    obtain ⟨buf, hstep, hassembled⟩ := onMessage_fill crc hf bus now
    rw [hstep]
    exact Or.inr ⟨_, _, last, rfl, hfs, hassembled hbuf⟩

variable (reply) in
def Buffered (s : TunnelNet) : Prop :=
  ∀ n c, s.phase.asks = some (n, c) → 6 < (reply n).length →
    s.wire c = [] ∨ Awaits (reply n) s.bus.commBuf (s.wire c)

theorem buffered_hear_other (h : Buffered reply s) (now : ℚ) {msg : CanMessage}
    (hmsg : tunnelForHost msg = false) : Buffered reply (s.hear crc now msg) := by
  intro n c hasks hlong
  have hcomm := comm_onMessage crc hmsg s.bus now
  simp only [BusState.comm, Prod.mk.injEq] at hcomm
  rw [hear, hcomm.1]
  exact h n c hasks hlong

theorem buffered_deliver (hinv : Inv crc reply s) (h : Buffered reply s) {d : ℕ} (now : ℚ)
    {msg : CanMessage} {rest : List CanMessage} (hwire : s.wire d = msg :: rest)
    (hunshared : BufferUnshared crc reply s (.deliver d now)) :
    Buffered reply ((s.withWire d rest).hear crc now msg) := by
  intro n c hasks hlong
  change (s.withWire d rest).wire c = [] ∨
    Awaits (reply n) (onMessage crc s.bus now msg).commBuf ((s.withWire d rest).wire c)
  have hbuffered := h n c hasks hlong
  by_cases hc : c = d
  · subst hc
    rw [withWire_self]
    rw [hwire] at hbuffered
    obtain hnil | hawaits := hbuffered
    · cases hnil
    · exact hawaits.tail now
  · rw [withWire_of_ne s hc]
    have hmem : msg ∈ s.wire d := by
      rw [hwire]
      exact List.mem_cons_self
    obtain ⟨hfill, _⟩ | hreport := hinv.sent d msg hmem
    · have hwhole := hunshared n c hasks (Ne.symm hc) ⟨msg, by rw [hwire]; rfl, hfill⟩
      obtain hnil | ⟨frames, hencode, hframes⟩ := hwhole
      · exact Or.inl hnil
      · rw [hframes]
        exact Or.inr (awaits_frames hencode hlong _)
    · have hbuf : (onMessage crc s.bus now msg).commBuf = s.bus.commBuf := by
        obtain hsame | ⟨q, hq⟩ := hreport s.bus now
        · rw [hsame]
        · rw [hq]
          rfl
      rw [hbuf]
      exact hbuffered

theorem buffered_answer (hinv : Inv crc reply s) (h : Buffered reply s) {c n : ℕ}
    (hpending : (c, n) ∈ s.pending) {frames : List VescFrame}
    (hencode : encodeCommFrames crc HOST_ID c (reply n) 0 = .ok frames) :
    Buffered reply { s.withWire c (s.wire c ++ frames.map VescFrame.message) with
      pending := s.pending.erase (c, n)
      answered := n :: s.answered } := by
  intro m d hasks hlong
  change (s.withWire c _).wire d = [] ∨ Awaits (reply m) s.bus.commBuf ((s.withWire c _).wire d)
  by_cases hd : d = c
  · subst hd
    have hcur := hinv.current m d hasks
    obtain rfl := hcur.only n hpending
    rw [withWire_self, hcur.unanswered hpending]
    exact Or.inr (awaits_frames hencode hlong _)
  · rw [withWire_of_ne s hd]
    exact h m d hasks hlong

theorem buffered_call (h : Buffered reply s) {c : ℕ} {payload : Bytes}
    (hfresh : FreshCall s (.call c payload)) : Buffered reply (s.call crc c payload) := by
  unfold call
  cases encodeCommFrames crc c HOST_ID payload 0 with
  | error e => exact h
  | ok frames =>
    intro n d hasks _
    cases hasks
    exact Or.inl hfresh.2.2

theorem buffered_inspect (h : Buffered reply s) {n c : ℕ} (hphase : s.phase = .waiting n c) :
    Buffered reply (s.inspect n c) := by
  unfold inspect
  cases s.bus.commReply with
  | none => exact h
  | some p =>
    dsimp only
    split_ifs with hsender
    · intro m d hasks
      cases hasks
    · intro m d hasks
      cases hasks
      exact h n c (by rw [hphase]; rfl)

variable (crc reply) in
def Undisturbed (s : TunnelNet) (e : Event) : Prop :=
  FreshCall s e ∧ BufferUnshared crc reply s e

theorem buffered_step (s : TunnelNet) (e : Event) (t : TunnelNet) (hinv : Inv crc reply s)
    (h : Buffered reply s) (hcond : Undisturbed crc reply s e)
    (hstep : step crc reply s e = some t) : Buffered reply t := by
  cases move_of_step crc hstep with
  | call hidle => exact buffered_call h hcond.1
  | answer hpending hencode => exact buffered_answer hinv h hpending hencode
  | lose => exact h
  | deliver hwire => exact buffered_deliver hinv h _ hwire hcond.2
  | receiveOwn hecho =>
    have hrest : Buffered reply { s with echo := _ } := h
    exact buffered_hear_other hrest _ (hinv.own _ (by rw [hecho]; exact List.mem_cons_self))
  | receiveOther hmsg => exact buffered_hear_other h _ hmsg
  | inspect hphase => exact buffered_inspect h hphase
  | discard hphase =>
    intro n c hasks
    cases hasks
    exact h _ _ (by rw [hphase]; rfl)
  | timeout hphase =>
    intro n c hasks
    cases hasks

theorem checksumTells_of_buffered (h : Buffered reply s) (e : Event) :
    ChecksumTells crc reply s e := by
  cases e with
  | deliver c now =>
    intro n hasks hlong hlast _
    obtain hnil | ⟨fs, i, last, heq, htiles, hbuf⟩ := h n c hasks hlong
    · rw [hnil] at hlast
      cases hlast
    · rw [heq, List.length_map, List.length_append, List.length_singleton] at hlast
      obtain rfl := List.length_eq_zero_iff.mp (Nat.succ_injective hlast)
      cases htiles
      exact hbuf.take_length
  | _ => trivial

/-- Where no fill frame of another node is processed while the awaited reply has arrived in part,
the checksum has nothing to tell. -/
theorem orderly_of_undisturbed (crc : Bytes → UInt16) (reply : ℕ → Bytes) (events : List Event)
    (hmeets : Transition.Meets (step crc reply) (Undisturbed crc reply) initial events) :
    Transition.Meets (step crc reply) (Orderly crc reply) initial events := by
  have horderly : ∀ s e, Inv crc reply s ∧ Buffered reply s → Undisturbed crc reply s e →
      Orderly crc reply s e :=
    fun s e hinv hcond => ⟨hcond.1, checksumTells_of_buffered hinv.2 e⟩
  refine Transition.meets_of_invariant (fun s => Inv crc reply s ∧ Buffered reply s) ?_
    horderly events initial ⟨inv_initial crc reply, fun n c hasks => by cases hasks⟩ hmeets
  intro s e t hinv hcond hstep
  exact ⟨inv_step s e t hinv.1 (horderly s e hinv hcond) hstep,
    buffered_step s e t hinv.1 hinv.2 hcond hstep⟩

end TunnelNet

end PyVesc
