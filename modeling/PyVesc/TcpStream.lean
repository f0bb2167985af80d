import PyVesc.PacketCodec
import PyVesc.Transition

/-!
# The TCP transport

`in_waiting` and `read` of `transport.py` first move the bytes that wait on the socket into a local
buffer. The peer sends and closes at any time, also between two turns of the loop that moves them;
the socket keeps what it sent in order, and hands it over in pieces of any size. An empty piece says
that the peer has closed. Connecting, writing and closing the transport are not modelled.
-/

namespace PyVesc

/-- The part of the transport object that `in_waiting` and `read` use. -/
structure TCPTransport where
  buffer : Bytes
  isOpen : Bool
  deriving DecidableEq, Repr

/-- A call of the client has returned a number of bytes, raised, or returned bytes. -/
inductive Returned where
  | inWaiting (n : ℕ)
  | connectionError (message : String)
  | read (size : ℕ) (data : Bytes)
  deriving DecidableEq, Repr

inductive TransportCall where
  | inWaiting
  | read (size : ℕ)
  deriving DecidableEq, Repr

namespace TCPTransport

def init : TCPTransport := ⟨[], true⟩

/-- What is left of `in_waiting` after `_pump`. -/
def inWaiting (t : TCPTransport) : Returned :=
  if t.buffer = [] ∧ t.isOpen = false then
    .connectionError "VESC bridge closed the TCP connection"
  else .inWaiting t.buffer.length

/-- What is left of `read` after `_pump`. -/
def read (t : TCPTransport) (size : ℕ) : Returned × TCPTransport :=
  (.read size (t.buffer.take size), { t with buffer := t.buffer.drop size })

def afterPump (t : TCPTransport) : TransportCall → Returned × TCPTransport
  | .inWaiting => (t.inWaiting, t)
  | .read size => t.read size

end TCPTransport

/-- Where the client is: between two calls, at the head of the loop of `_pump`, or about to receive
since `select` has reported the socket readable. -/
inductive PumpPhase where
  | idle
  | looping (call : TransportCall)
  | readable (call : TransportCall)
  deriving DecidableEq, Repr

structure TcpLink where
  transport : TCPTransport
  phase : PumpPhase
  /-- Bytes that the peer has sent and `recv` has not returned. -/
  socket : Bytes
  peerClosed : Bool
  sent : Bytes
  /-- What the calls have returned, the last one first. -/
  log : List Returned
  deriving DecidableEq, Repr

def Returned.data : Returned → Bytes
  | .read _ data => data
  | _ => []

/-- The bytes that the reads of a log have returned, in their order. -/
def readBytes : List Returned → Bytes
  | [] => []
  | r :: earlier => readBytes earlier ++ r.data

namespace TcpLink

def initial : TcpLink := ⟨.init, .idle, [], false, [], []⟩

inductive Event where
  | send (chunk : Bytes)
  | peerClose
  | call (c : TransportCall)
  /-- The loop test and, if the transport is open, `select`. -/
  | select (ready : Bool)
  /-- `recv` finds `k` bytes of what the peer has sent, or the end. -/
  | recv (k : ℕ)
  deriving DecidableEq, Repr

/-- `_pump` is left and the call returns. -/
def finish (s : TcpLink) (c : TransportCall) : TcpLink :=
  { s with
    transport := (s.transport.afterPump c).2
    phase := .idle
    log := (s.transport.afterPump c).1 :: s.log }

/-- `recv` returns an empty chunk. -/
def shut (s : TcpLink) : TcpLink :=
  { s with transport := { s.transport with isOpen := false } }

/-- `recv` returns up to `k` bytes. -/
def receive (s : TcpLink) (k : ℕ) : TcpLink :=
  { s with
    transport := { s.transport with buffer := s.transport.buffer ++ s.socket.take k }
    socket := s.socket.drop k }

def step (s : TcpLink) : Event → Option TcpLink
  | .send chunk =>
    if s.peerClosed then none
    else some { s with socket := s.socket ++ chunk, sent := s.sent ++ chunk }
  | .peerClose => some { s with peerClosed := true }
  | .call c =>
    match s.phase with
    | .idle => some { s with phase := .looping c }
    | _ => none
  | .select ready =>
    match s.phase with
    | .looping c =>
      if s.transport.isOpen = false ∨ ready = false then some (s.finish c)
      else if s.socket = [] ∧ s.peerClosed = false then none
      else some { s with phase := .readable c }
    | _ => none
  | .recv k =>
    match s.phase with
    | .readable c =>
      if s.socket = [] then
        if s.peerClosed then some (s.shut.finish c) else none
      else if 1 ≤ k ∧ k ≤ 4096 then some { s.receive k with phase := .looping c }
      else none
    | _ => none

/-- The steps, one by one. -/
inductive Move (s : TcpLink) : Event → TcpLink → Prop
  | send {chunk : Bytes} (hopen : ¬ s.peerClosed = true) :
      Move s (.send chunk) { s with socket := s.socket ++ chunk, sent := s.sent ++ chunk }
  | peerClose : Move s .peerClose { s with peerClosed := true }
  | call {c : TransportCall} (hphase : s.phase = .idle) :
      Move s (.call c) { s with phase := .looping c }
  | leave {ready : Bool} {c : TransportCall} (hphase : s.phase = .looping c) :
      Move s (.select ready) (s.finish c)
  | ready {ready : Bool} {c : TransportCall} (hphase : s.phase = .looping c)
      (hready : s.socket ≠ [] ∨ s.peerClosed = true) :
      Move s (.select ready) { s with phase := .readable c }
  | shut {k : ℕ} {c : TransportCall} (hphase : s.phase = .readable c) (hend : s.socket = [])
      (hclosed : s.peerClosed = true) : Move s (.recv k) (s.shut.finish c)
  | receive {k : ℕ} {c : TransportCall} (hphase : s.phase = .readable c) (hmore : s.socket ≠ [])
      (hsize : 1 ≤ k ∧ k ≤ 4096) : Move s (.recv k) { s.receive k with phase := .looping c }

theorem move_of_step {s t : TcpLink} {e : Event} (hstep : step s e = some t) : Move s e t := by
  cases e with
  | send chunk =>
    simp only [step] at hstep
    split_ifs at hstep with hopen
    cases hstep
    exact .send hopen
  | peerClose =>
    cases hstep
    exact .peerClose
  | call c =>
    simp only [step] at hstep
    split at hstep
    · next hphase =>
      cases hstep
      exact .call hphase
    · cases hstep
  | select ready =>
    simp only [step] at hstep
    split at hstep
    · next c hphase =>
      split_ifs at hstep with hleave hblocked
      · cases hstep
        exact .leave hphase
      · cases hstep
        refine .ready hphase ?_
        by_cases hend : s.socket = []
        · exact Or.inr (Bool.eq_true_of_not_eq_false fun hopen => hblocked ⟨hend, hopen⟩)
        · exact Or.inl hend
    · cases hstep
  | recv k =>
    simp only [step] at hstep
    split at hstep
    · next c hphase =>
      split_ifs at hstep with hend hclosed hsize
      · cases hstep
        exact .shut hphase hend hclosed
      · cases hstep
        exact .receive hphase hend hsize
    · cases hstep

/-! ### The invariant -/

structure Inv (s : TcpLink) : Prop where
  stream : readBytes s.log ++ s.transport.buffer ++ s.socket = s.sent
  closed : s.transport.isOpen = false → s.peerClosed = true ∧ s.socket = []
  /-- The error is raised by a transport that is shut and drained. -/
  dead : ∀ message, .connectionError message ∈ s.log →
    s.transport.isOpen = false ∧ s.transport.buffer = []
  /-- What has been announced is in the buffer until it is read. -/
  held : ∀ later n earlier, s.log = later ++ .inWaiting n :: earlier →
    n ≤ (readBytes later).length + s.transport.buffer.length
  kept : ∀ later size data between n earlier,
    s.log = later ++ .read size data :: (between ++ .inWaiting n :: earlier) →
      (readBytes between).length + size ≤ n → data.length = size

theorem inv_initial : Inv initial where
  stream := rfl
  closed := nofun
  dead := nofun
  held later n earlier h := by
    cases later with
    | nil => cases h
    | cons r later => cases h
  kept later size data between n earlier h := by
    cases later with
    | nil => cases h
    | cons r later => cases h

theorem inWaiting_cases (t : TCPTransport) :
    (t.inWaiting = .connectionError "VESC bridge closed the TCP connection" ∧
      t.isOpen = false ∧ t.buffer = []) ∨ t.inWaiting = .inWaiting t.buffer.length := by
  rw [TCPTransport.inWaiting]
  by_cases hdead : t.buffer = [] ∧ t.isOpen = false
  · rw [if_pos hdead]
    exact Or.inl ⟨rfl, hdead.2, hdead.1⟩
  · rw [if_neg hdead]
    exact Or.inr rfl

theorem data_inWaiting (t : TCPTransport) : t.inWaiting.data = [] := by
  obtain ⟨hraise, _⟩ | hn := inWaiting_cases t
  · rw [hraise]
    rfl
  · rw [hn]
    rfl

theorem eq_length_of_inWaiting {t : TCPTransport} {n : ℕ} (h : t.inWaiting = .inWaiting n) :
    n = t.buffer.length := by
  obtain ⟨hraise, _⟩ | hn := inWaiting_cases t
  · cases hraise.symm.trans h
  · cases hn.symm.trans h
    rfl

theorem inWaiting_ne_read {t : TCPTransport} {size : ℕ} {data : Bytes} :
    t.inWaiting ≠ .read size data := by
  intro h
  obtain ⟨hraise, _⟩ | hn := inWaiting_cases t
  · cases hraise.symm.trans h
  · cases hn.symm.trans h

theorem shut_of_connectionError {t : TCPTransport} {message : String}
    (h : t.inWaiting = .connectionError message) : t.isOpen = false ∧ t.buffer = [] := by
  obtain ⟨_, hshut⟩ | hn := inWaiting_cases t
  · exact hshut
  · cases hn.symm.trans h

theorem Inv.finish_inWaiting {s : TcpLink} (h : s.Inv) : (s.finish .inWaiting).Inv where
  stream := by
    change readBytes s.log ++ s.transport.inWaiting.data ++ s.transport.buffer ++ s.socket = s.sent
    rw [data_inWaiting, List.append_nil]
    exact h.stream
  closed := h.closed
  dead message hmem := by
    obtain heq | hmem := List.mem_cons.mp hmem
    · exact shut_of_connectionError heq.symm
    · exact h.dead message hmem
  held later n earlier hlog := by
    cases later with
    | nil =>
      rw [eq_length_of_inWaiting (List.cons.inj hlog).1]
      exact Nat.le_add_left _ _
    | cons r later =>
      obtain ⟨rfl, hrest⟩ := List.cons.inj hlog
      have hheld := h.held later n earlier hrest
      change n ≤ (readBytes later ++ s.transport.inWaiting.data).length + s.transport.buffer.length
      rwa [data_inWaiting, List.append_nil]
  kept later size data between n earlier hlog := by
    cases later with
    | nil => exact absurd (List.cons.inj hlog).1 inWaiting_ne_read
    | cons r later => exact h.kept later size data between n earlier (List.cons.inj hlog).2

theorem Inv.finish_read {s : TcpLink} (h : s.Inv) (size : ℕ) : (s.finish (.read size)).Inv where
  stream := by
    change readBytes s.log ++ s.transport.buffer.take size ++ s.transport.buffer.drop size ++
      s.socket = s.sent
    rw [List.append_assoc (readBytes s.log), List.take_append_drop]
    exact h.stream
  closed := h.closed
  dead message hmem := by
    obtain heq | hmem := List.mem_cons.mp hmem
    · cases heq
    · obtain ⟨hshut, hnil⟩ := h.dead message hmem
      refine ⟨hshut, ?_⟩
      change s.transport.buffer.drop size = []
      rw [hnil, List.drop_nil]
  held later n earlier hlog := by
    cases later with
    | nil => cases (List.cons.inj hlog).1
    | cons r later =>
      obtain ⟨rfl, hrest⟩ := List.cons.inj hlog
      have hheld := h.held later n earlier hrest
      change n ≤ (readBytes later ++ s.transport.buffer.take size).length +
        (s.transport.buffer.drop size).length
      rw [List.length_append, List.length_take, List.length_drop]
      omega
  kept later size' data between n earlier hlog hle := by
    cases later with
    | nil =>
      obtain ⟨heq, hrest⟩ := List.cons.inj hlog
      cases heq
      have hheld := h.held between n earlier hrest
      rw [List.length_take]
      omega
    | cons r later => exact h.kept later size' data between n earlier (List.cons.inj hlog).2 hle

theorem Inv.finish {s : TcpLink} (h : s.Inv) (c : TransportCall) : (s.finish c).Inv := by
  cases c with
  | inWaiting => exact h.finish_inWaiting
  | read size => exact h.finish_read size

theorem Inv.shut {s : TcpLink} (h : s.Inv) (hclosed : s.peerClosed = true)
    (hend : s.socket = []) : s.shut.Inv where
  stream := h.stream
  closed _ := ⟨hclosed, hend⟩
  dead message hmem := ⟨rfl, (h.dead message hmem).2⟩
  held := h.held
  kept := h.kept

theorem Inv.receive {s : TcpLink} (h : s.Inv) (hmore : s.socket ≠ []) (k : ℕ) :
    (s.receive k).Inv where
  stream := by
    change readBytes s.log ++ (s.transport.buffer ++ s.socket.take k) ++ s.socket.drop k = s.sent
    rw [← h.stream, List.append_assoc, List.append_assoc s.transport.buffer, List.take_append_drop,
      List.append_assoc]
  closed hshut := absurd (h.closed hshut).2 hmore
  dead message hmem := absurd (h.closed (h.dead message hmem).1).2 hmore
  held later n earlier hlog := by
    have hheld := h.held later n earlier hlog
    change n ≤ (readBytes later).length + (s.transport.buffer ++ s.socket.take k).length
    rw [List.length_append]
    omega
  kept := h.kept

theorem Inv.withPhase {s : TcpLink} (h : s.Inv) (phase : PumpPhase) :
    Inv { s with phase := phase } := ⟨h.stream, h.closed, h.dead, h.held, h.kept⟩

theorem inv_step (s : TcpLink) (e : Event) (t : TcpLink) (h : s.Inv) (hstep : step s e = some t) :
    t.Inv := by
  cases move_of_step hstep with
  | @send chunk hopen =>
    refine ⟨?_, fun hshut => absurd (h.closed hshut).1 hopen, h.dead, h.held, h.kept⟩
    change readBytes s.log ++ s.transport.buffer ++ (s.socket ++ chunk) = s.sent ++ chunk
    rw [← h.stream, List.append_assoc (readBytes s.log ++ s.transport.buffer)]
  | peerClose =>
    exact ⟨h.stream, fun hshut => ⟨rfl, (h.closed hshut).2⟩, h.dead, h.held, h.kept⟩
  | call hphase => exact h.withPhase _
  | leave hphase => exact h.finish _
  | ready hphase hready => exact h.withPhase _
  | shut hphase hend hclosed => exact (h.shut hclosed hend).finish _
  | receive hphase hmore hsize => exact (h.receive hmore _).withPhase _

/-- In every run of a transport, the bytes that its reads returned, those in its buffer and those
still in the socket make up what the peer has sent. A read returns all it was asked for if no more
was asked for since `in_waiting` announced it, and the error of `in_waiting` comes when the peer has
closed and everything has been read. -/
theorem faithful_stream (events : List Event) (s : TcpLink)
    (hrun : Transition.run step initial events = some s) :
    readBytes s.log ++ s.transport.buffer ++ s.socket = s.sent ∧
    (∀ later size data between n earlier,
      s.log = later ++ .read size data :: (between ++ .inWaiting n :: earlier) →
        (readBytes between).length + size ≤ n → data.length = size) ∧
    ∀ message, .connectionError message ∈ s.log →
      s.peerClosed = true ∧ readBytes s.log = s.sent := by
  have hinv : s.Inv := Transition.run_preserves inv_step events initial s inv_initial hrun
  refine ⟨hinv.stream, hinv.kept, ?_⟩
  intro message hmem
  obtain ⟨hshut, hbuffer⟩ := hinv.dead message hmem
  obtain ⟨hclosed, hsocket⟩ := hinv.closed hshut
  have hstream := hinv.stream
  rw [hbuffer, hsocket, List.append_nil, List.append_nil] at hstream
  exact ⟨hclosed, hstream⟩

/-- The peer sends three bytes, of which the client reads two, and closes. -/
def tailRun : List Event :=
  [.send [1, 2, 3], .call .inWaiting, .select true, .recv 2, .select false, .peerClose,
    .call (.read 2), .select true, .recv 4, .select true, .recv 0, .call (.read 5), .select false,
    .call .inWaiting, .select false]

def tailLink : TcpLink :=
  { transport := ⟨[], false⟩
    phase := .idle
    socket := []
    peerClosed := true
    sent := [1, 2, 3]
    log := [.connectionError "VESC bridge closed the TCP connection", .read 5 [3],
      .read 2 [1, 2], .inWaiting 2] }

theorem tailRun_faithful :
    readBytes tailLink.log ++ tailLink.transport.buffer ++ tailLink.socket = tailLink.sent ∧
    [1, 2].length = 2 ∧ tailLink.peerClosed = true ∧ readBytes tailLink.log = tailLink.sent := by
  obtain ⟨hstream, hkept, hdrained⟩ := faithful_stream tailRun tailLink (by decide +kernel)
  have hread := hkept [_, _] 2 [1, 2] [] 2 [] rfl (by decide)
  exact ⟨hstream, hread, hdrained _ List.mem_cons_self⟩

/-! ### No call waits for the peer -/

/-- `select` does not report a socket from which nothing can be received. -/
def Ready (s : TcpLink) : Prop :=
  ∀ c, s.phase = .readable c → s.socket ≠ [] ∨ s.peerClosed = true

theorem ready_step (s : TcpLink) (e : Event) (t : TcpLink) (h : s.Ready)
    (hstep : step s e = some t) : t.Ready := by
  intro c hphase
  cases move_of_step hstep with
  | send hopen =>
    refine (h c hphase).imp_left fun hmore hnil => ?_
    exact hmore (List.append_eq_nil_iff.mp hnil).1
  | peerClose => exact Or.inr rfl
  | call _ => cases hphase
  | leave _ => cases hphase
  | ready _ hready => exact hready
  | shut _ _ _ => cases hphase
  | receive _ _ _ => cases hphase

/-- A call that is about to receive can do so without another move of the peer. -/
theorem recv_enabled (events : List Event) (s : TcpLink)
    (hrun : Transition.run step initial events = some s) (c : TransportCall)
    (hphase : s.phase = .readable c) : ∃ t, step s (.recv 1) = some t := by
  have hready : s.Ready := Transition.run_preserves ready_step events initial s nofun hrun
  simp only [step, hphase]
  by_cases hend : s.socket = []
  · rw [if_pos hend, if_pos ((hready c hphase).resolve_left (not_not.mpr hend))]
    exact ⟨_, rfl⟩
  · rw [if_neg hend, if_pos (by decide)]
    exact ⟨_, rfl⟩

end TcpLink

end PyVesc
