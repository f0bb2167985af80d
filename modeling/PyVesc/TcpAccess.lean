import PyVesc.OwnReplies
import PyVesc.TcpSession

/-!
# What the host has in hand

What the device has sent and the host has not used lies in its hand, in the buffer of the transport
or in the socket. It has something in hand between the return of a `read` and the use of what came
back. A number that `in_waiting` has announced is the length of the buffer until the host asks for
so many bytes, and meanwhile the buffer only grows.
-/

namespace PyVesc

/-- Which access to the transport the host is at. -/
inductive TransportUse where
  | none
  | inWaiting
  | read
  deriving DecidableEq, Repr

namespace TcpStage

def use : TcpStage → TransportUse
  | idle | drained _ | reading _ _ _ => .none
  | draining | polling _ _ _ _ => .inWaiting
  | discarding | taking _ _ _ _ => .read

/-- The clock of a round has been read before the deadline. -/
def Timely : TcpStage → Prop
  | polling _ deadline _ check | taking _ deadline _ check => check < deadline
  | _ => True

end TcpStage

namespace TcpSession

variable {crc : Bytes → UInt16} {registry : Registry} {S : Session} {s t : TcpSession}

/-! ### Bytes in hand -/

/-- The message of `in_waiting` when it raises. -/
def closedMessage : String := "VESC bridge closed the TCP connection"

/-- How far the access of the host has come, and the bytes that it has got from it. -/
inductive Access (transport : TCPTransport) (phase : PumpPhase) (log : List Returned)
    (stage : TcpStage) : Bytes → Prop
  | rest (huse : stage.use = .none) (hphase : phase = .idle) : Access transport phase log stage []
  | asking (huse : stage.use = .inWaiting)
      (hphase : phase = .looping .inWaiting ∨ phase = .readable .inWaiting) :
      Access transport phase log stage []
  | told {k} (huse : stage.use = .inWaiting) (hphase : phase = .idle)
      (hlog : log.head? = some (.inWaiting k)) (hk : k = transport.buffer.length)
      (halive : ¬ (transport.buffer = [] ∧ transport.isOpen = false)) :
      Access transport phase log stage []
  | refused (huse : stage.use = .inWaiting) (hphase : phase = .idle)
      (hlog : log.head? = some (.connectionError closedMessage))
      (hdead : transport.buffer = [] ∧ transport.isOpen = false) :
      Access transport phase log stage []
  | fetching {size} (huse : stage.use = .read)
      (hphase : phase = .looping (.read size) ∨ phase = .readable (.read size))
      (hsize : size ≠ 0 ∧ size ≤ transport.buffer.length) : Access transport phase log stage []
  | fetched {size data} (huse : stage.use = .read) (hphase : phase = .idle)
      (hlog : log.head? = some (.read size data)) (hdata : data ≠ []) :
      Access transport phase log stage data

structure Inv (s : TcpSession) : Prop where
  closed : s.link.transport.isOpen = false → s.link.peerClosed = true ∧ s.link.socket = []
  timely : s.stage.Timely
  access : ∃ inHand, Access s.link.transport s.link.phase s.link.log s.stage inHand ∧
    s.line.map LineByte.value = inHand ++ (s.link.transport.buffer ++ s.link.socket)

theorem inv_initial : Inv initial where
  closed h := by cases h
  timely := trivial
  access := ⟨[], .rest rfl rfl, rfl⟩

section Access
variable {transport transport' : TCPTransport} {phase phase' : PumpPhase}
variable {log log' : List Returned} {stage : TcpStage} {inHand : Bytes} {c : TransportCall}

/-- The transport is at work for the host. -/
theorem Access.under_way (h : Access transport phase log stage inHand)
    (hphase : phase = .looping c ∨ phase = .readable c) :
    inHand = [] ∧ (stage.use = .inWaiting ∧ c = .inWaiting ∨ stage.use = .read ∧
      ∃ size, c = .read size ∧ size ≠ 0 ∧ size ≤ transport.buffer.length) := by
  have hbusy : phase ≠ .idle := by
    rintro rfl
    rcases hphase with hphase | hphase <;> cases hphase
  have hsame {c'} (hphase' : phase = .looping c' ∨ phase = .readable c') : c = c' := by
    rcases hphase with rfl | rfl <;> rcases hphase' with hphase' | hphase'
    · cases hphase'
      rfl
    · cases hphase'
    · cases hphase'
    · cases hphase'
      rfl
  cases h with
  | rest _ hidle => exact absurd hidle hbusy
  | told _ hidle => exact absurd hidle hbusy
  | refused _ hidle => exact absurd hidle hbusy
  | fetched _ hidle => exact absurd hidle hbusy
  | asking huse hphase' => exact ⟨rfl, Or.inl ⟨huse, hsame hphase'⟩⟩
  | @fetching size huse hphase' hsize =>
    exact ⟨rfl, Or.inr ⟨huse, size, hsame hphase', hsize.1, hsize.2⟩⟩

/-- The access goes on with at least as many bytes in the buffer. -/
theorem Access.goOn (h : Access transport phase log stage inHand)
    (hphase : phase = .looping c ∨ phase = .readable c)
    (hphase' : phase' = .looping c ∨ phase' = .readable c)
    (hlen : transport.buffer.length ≤ transport'.buffer.length) :
    Access transport' phase' log' stage [] := by
  obtain ⟨_, ⟨huse, rfl⟩ | ⟨huse, size, rfl, hsize, hle⟩⟩ := h.under_way hphase
  · exact .asking huse hphase'
  · exact .fetching huse hphase' ⟨hsize, hle.trans hlen⟩

end Access

/-- The transport returns, or raises. -/
theorem Inv.finish (h : Inv s) {c : TransportCall}
    (hphase : s.link.phase = .looping c ∨ s.link.phase = .readable c) :
    Inv { s with link := s.link.finish c } := by
  obtain ⟨inHand, haccess, hline⟩ := h.access
  obtain ⟨rfl, ⟨huse, rfl⟩ | ⟨huse, size, rfl, hsize, hle⟩⟩ := haccess.under_way hphase
  · refine ⟨h.closed, h.timely, [], ?_, hline⟩
    by_cases hdead : s.link.transport.buffer = [] ∧ s.link.transport.isOpen = false
    · exact .refused huse rfl (congrArg some (if_pos hdead)) hdead
    · exact .told huse rfl (congrArg some (if_neg hdead)) rfl hdead
  · refine ⟨h.closed, h.timely, s.link.transport.buffer.take size, .fetched huse rfl rfl ?_, ?_⟩
    · intro hnil
      have hlen := congrArg List.length hnil
      rw [List.length_take_of_le hle] at hlen
      exact hsize hlen
    · change s.line.map LineByte.value = _ ++ (s.link.transport.buffer.drop size ++ s.link.socket)
      rw [← List.append_assoc, List.take_append_drop]
      exact hline

theorem Inv.shut (h : Inv s) (hend : s.link.socket = []) (hclosed : s.link.peerClosed = true)
    {c : TransportCall} (hphase : s.link.phase = .readable c) :
    Inv { s with link := s.link.shut } := by
  obtain ⟨inHand, haccess, hline⟩ := h.access
  obtain ⟨rfl, _⟩ := haccess.under_way (Or.inr hphase)
  exact ⟨fun _ => ⟨hclosed, hend⟩, h.timely, [],
    haccess.goOn (Or.inr hphase) (Or.inr hphase) le_rfl, hline⟩

theorem Inv.receive (h : Inv s) (hmore : s.link.socket ≠ []) (k : ℕ) {c : TransportCall}
    (hphase : s.link.phase = .readable c) :
    Inv { s with link := { s.link.receive k with phase := .looping c } } := by
  obtain ⟨inHand, haccess, hline⟩ := h.access
  obtain ⟨rfl, _⟩ := haccess.under_way (Or.inr hphase)
  refine ⟨fun hshut => absurd (h.closed hshut).2 hmore, h.timely, [], ?_, ?_⟩
  · apply haccess.goOn (Or.inr hphase) (Or.inl rfl)
    change _ ≤ (s.link.transport.buffer ++ s.link.socket.take k).length
    rw [List.length_append]
    exact Nat.le_add_right _ _
  · change s.line.map LineByte.value =
      [] ++ (s.link.transport.buffer ++ s.link.socket.take k ++ s.link.socket.drop k)
    rw [List.append_assoc, List.take_append_drop]
    exact hline

/-- A step of the transport itself. -/
theorem Inv.pump (h : Inv s) {e : TcpLink.Event} {link : TcpLink}
    (hpump : s.link.step e = some link)
    (he : (∃ ready, e = .select ready) ∨ ∃ k, e = .recv k) : Inv { s with link := link } := by
  cases TcpLink.move_of_step hpump with
  | send | peerClose | call => rcases he with ⟨_, he⟩ | ⟨_, he⟩ <;> cases he
  | leave hphase => exact h.finish (Or.inl hphase)
  | @ready _ c hphase _ =>
    obtain ⟨inHand, haccess, hline⟩ := h.access
    obtain ⟨rfl, _⟩ := haccess.under_way (Or.inl hphase)
    exact ⟨h.closed, h.timely, [], haccess.goOn (Or.inl hphase) (Or.inr rfl) le_rfl, hline⟩
  | shut hphase hend hclosed =>
    have hshut := h.shut hend hclosed hphase
    exact hshut.finish (Or.inr hphase)
  | receive hphase hmore _ => exact h.receive hmore _ hphase

/-- The device sends. -/
theorem Inv.sendReply (h : Inv s) (n : ℕ) (bytes : Bytes) (hopen : ¬ s.link.peerClosed = true)
    (owed answered : List ℕ) : Inv { s with
      link := { s.link with socket := s.link.socket ++ bytes, sent := s.link.sent ++ bytes }
      owed := owed
      answered := answered
      line := s.line ++ lineBytes n bytes } := by
  obtain ⟨inHand, haccess, hline⟩ := h.access
  refine ⟨fun hshut => absurd (h.closed hshut).1 hopen, h.timely, inHand, haccess, ?_⟩
  rw [List.map_append, value_lineBytes, hline, List.append_assoc, List.append_assoc]

/-- The bytes that a read of the transport has returned are the first ones of the line. -/
theorem Inv.fetched (h : Inv s) (hphase : s.link.phase = .idle) {size : ℕ} {data : Bytes}
    (hlog : s.link.log.head? = some (.read size data)) (huse : s.stage.use = .read) :
    data ≠ [] ∧
      s.line.map LineByte.value = data ++ (s.link.transport.buffer ++ s.link.socket) := by
  obtain ⟨inHand, haccess, hline⟩ := h.access
  cases haccess with
  | @fetched _ data' _ _ hlog' hdata =>
    cases hlog.symm.trans hlog'
    exact ⟨hdata, hline⟩
  | fetching _ hbusy => rw [hphase] at hbusy; rcases hbusy with hbusy | hbusy <;> cases hbusy
  | rest huse' | asking huse' | told huse' | refused huse' =>
    rw [huse] at huse'
    cases huse'

/-- A host that is at no access is not at work in the transport. -/
theorem Inv.resting (h : Inv s) (huse : s.stage.use = .none) : s.link.phase = .idle := by
  obtain ⟨inHand, haccess, _⟩ := h.access
  cases haccess with
  | rest _ hphase => exact hphase
  | told huse' | asking huse' | refused huse' | fetching huse' | fetched huse' =>
    rw [huse] at huse'
    cases huse'

/-- A host that does not read has nothing in hand. -/
theorem Inv.unused (h : Inv s) (huse : s.stage.use ≠ .read) :
    s.line.map LineByte.value = s.link.transport.buffer ++ s.link.socket := by
  obtain ⟨inHand, haccess, hline⟩ := h.access
  cases haccess with
  | fetched huse' => exact absurd huse' huse
  | _ => exact hline

theorem Inv.told (h : Inv s) (hphase : s.link.phase = .idle) {k : ℕ}
    (hlog : s.link.log.head? = some (.inWaiting k)) (huse : s.stage.use = .inWaiting) :
    k = s.link.transport.buffer.length ∧
      ¬ (s.link.transport.buffer = [] ∧ s.link.transport.isOpen = false) := by
  obtain ⟨inHand, haccess, _⟩ := h.access
  cases haccess with
  | told _ _ hlog' hk halive =>
    cases hlog.symm.trans hlog'
    exact ⟨hk, halive⟩
  | refused _ _ hlog' => cases hlog.symm.trans hlog'
  | asking _ hbusy => rw [hphase] at hbusy; rcases hbusy with hbusy | hbusy <;> cases hbusy
  | rest huse' | fetching huse' | fetched huse' =>
    rw [huse] at huse'
    cases huse'

theorem Inv.refused (h : Inv s) (hphase : s.link.phase = .idle) {message : String}
    (hlog : s.link.log.head? = some (.connectionError message)) (huse : s.stage.use = .inWaiting) :
    message = closedMessage ∧ s.link.transport.isOpen = false ∧ s.line = [] := by
  obtain ⟨inHand, haccess, hline⟩ := h.access
  cases haccess with
  | refused _ _ hlog' hdead =>
    cases hlog.symm.trans hlog'
    rw [hdead.1, (h.closed hdead.2).2] at hline
    exact ⟨rfl, hdead.2, List.map_eq_nil_iff.mp hline⟩
  | told _ _ hlog' => cases hlog.symm.trans hlog'
  | asking _ hbusy => rw [hphase] at hbusy; rcases hbusy with hbusy | hbusy <;> cases hbusy
  | rest huse' | fetching huse' | fetched huse' =>
    rw [huse] at huse'
    cases huse'

/-- Between two accesses the host has nothing in hand. -/
theorem Inv.atRest (h : Inv s) (hlink : t.link = s.link) (hphase : s.link.phase = .idle)
    (huse : t.stage.use = .none)
    (hline : t.line.map LineByte.value = s.link.transport.buffer ++ s.link.socket) : Inv t := by
  constructor
  · rw [hlink]
    exact h.closed
  · cases hstage : t.stage with
    | polling => rw [hstage] at huse; cases huse
    | taking => rw [hstage] at huse; cases huse
    | _ => trivial
  · rw [hlink]
    exact ⟨[], .rest huse hphase, hline⟩

/-- The host uses the bytes it has got. -/
theorem drop_fetched {data rest : Bytes} (h : s.line.map LineByte.value = data ++ rest) :
    (s.line.drop data.length).map LineByte.value = rest := by
  rw [List.map_drop, h, List.drop_left]

theorem round_eq (s : TcpSession) (n : ℕ) (deadline : ℚ) (r : ReadState) (poll : Poll) :
    (s.round crc registry S n deadline r poll).link = s.link ∧
      (s.round crc registry S n deadline r poll).line = s.line.drop poll.chunk.length ∧
      (s.round crc registry S n deadline r poll).stage.use = .none := by
  unfold round
  cases pollRound crc registry (S.args n) r poll <;> exact ⟨rfl, rfl, rfl⟩

theorem Inv.resume (h : Inv s) {now : ℚ} {r : Returned} (hphase : s.link.phase = .idle)
    (hlog : s.link.log.head? = some r) (hresume : Resume crc registry S s now r t) : Inv t := by
  have hunused (huse : s.stage.use = .inWaiting) :
      s.line.map LineByte.value = s.link.transport.buffer ++ s.link.socket :=
    h.unused (by rw [huse]; nofun)
  cases hresume with
  | drain hstage => exact h.atRest rfl hphase rfl (hunused (by rw [hstage]; rfl))
  | discard hstage hk =>
    have huse : s.stage.use = .inWaiting := by rw [hstage]; rfl
    obtain ⟨hlen, _⟩ := h.told hphase hlog huse
    exact ⟨h.closed, trivial, [], .fetching rfl (Or.inl rfl) ⟨hk, hlen.le⟩, hunused huse⟩
  | dropped hstage =>
    obtain ⟨_, hline⟩ := h.fetched hphase hlog (by rw [hstage]; rfl)
    exact h.atRest rfl hphase rfl (drop_fetched hline)
  | @idle n deadline r check hstage =>
    obtain ⟨hlink, hdrop, huse⟩ := @round_eq crc registry S s n deadline r ⟨check, [], now⟩
    refine h.atRest hlink hphase huse ?_
    rw [hdrop]
    exact hunused (by rw [hstage]; rfl)
  | @take n deadline r check k hstage hk =>
    have huse : s.stage.use = .inWaiting := by rw [hstage]; rfl
    obtain ⟨hlen, _⟩ := h.told hphase hlog huse
    have htimely := h.timely
    rw [hstage] at htimely
    exact ⟨h.closed, htimely, [], .fetching rfl (Or.inl rfl) ⟨hk, hlen.le⟩, hunused huse⟩
  | @taken n deadline r check size data hstage =>
    obtain ⟨_, hline⟩ := h.fetched hphase hlog (by rw [hstage]; rfl)
    obtain ⟨hlink, hdrop, huse⟩ := @round_eq crc registry S s n deadline r ⟨check, data, now⟩
    refine h.atRest hlink hphase huse ?_
    rw [hdrop]
    exact drop_fetched hline
  | refused hstage => exact h.atRest rfl hphase rfl (hunused (by rw [hstage]; rfl))
  | raised hstage => exact h.atRest rfl hphase rfl (hunused (by rw [hstage]; rfl))

theorem Inv.step (h : Inv s) {e : Event} (hmove : Move crc registry S s e t) : Inv t := by
  cases hmove with
  | answer _ _ hopen => exact h.sendReply _ _ hopen _ _
  | lose => exact ⟨h.closed, h.timely, h.access⟩
  | duplicate _ _ hopen => exact h.sendReply _ _ hopen s.owed s.answered
  | close => exact ⟨fun hshut => ⟨rfl, (h.closed hshut).2⟩, h.timely, h.access⟩
  | start hidle hphase =>
    have hline := h.unused (by rw [hidle]; nofun)
    exact ⟨h.closed, trivial, [], .asking rfl (Or.inl rfl), hline⟩
  | select hpump => exact h.pump hpump (Or.inl ⟨_, rfl⟩)
  | recv hpump => exact h.pump hpump (Or.inr ⟨_, rfl⟩)
  | resume hphase hlog hresume => exact h.resume hphase hlog hresume
  | send hstage =>
    have huse : s.stage.use = .none := by rw [hstage]; rfl
    exact h.atRest rfl (h.resting huse) rfl (h.unused (by rw [huse]; nofun))
  | poll hstage hphase hbefore =>
    have hline := h.unused (by rw [hstage]; nofun)
    exact ⟨h.closed, hbefore, [], .asking rfl (Or.inl rfl), hline⟩
  | expire hstage =>
    have huse : s.stage.use = .none := by rw [hstage]; rfl
    exact h.atRest rfl (h.resting huse) rfl (h.unused (by rw [huse]; nofun))

end TcpSession

end PyVesc
