import PyVesc.TunnelReassembly
import PyVesc.Transition

/-!
# The host and the nodes of a CAN bus

The host calls `comm_request` again and again while nodes answer late and bus frames arrive in any
order of the nodes. A call clears the reply slot, sends its request, and waits for a reply of the
node it asked; meanwhile the thread that receives messages fills the slot. The tunnel has no request
ids. Requests are sent at once, a node may answer from then on, and a call may time out at any time.
A request goes to one node: every node would answer one to the broadcast id, which is left out.
-/

namespace PyVesc

variable (crc : Bytes → UInt16)

/-- What the host does: nothing, or call number `n` waits for a reply of the node `c`, or that call
has just seen the reply of another node in the slot. -/
inductive Phase where
  | idle
  | waiting (n c : ℕ)
  | discarding (n c : ℕ)
  deriving DecidableEq, Repr

/-- The call under way and the node it asks. -/
def Phase.asks : Phase → Option (ℕ × ℕ)
  | idle => none
  | waiting n c => some (n, c)
  | discarding n c => some (n, c)

structure TunnelNet where
  bus : BusState
  calls : ℕ
  phase : Phase
  /-- The requests that nodes may still answer: the node and the number of the call. -/
  pending : List (ℕ × ℕ)
  answered : List ℕ
  /-- The frames of each node that are on their way, in the order sent. -/
  wire : ℕ → List CanMessage
  /-- The frames of the host, which it receives itself. -/
  echo : List CanMessage
  /-- The calls that returned bytes, and what they returned. -/
  returned : List (ℕ × Bytes)

def BusState.clearReply (bus : BusState) : BusState :=
  { bus with commReply := none, commEvent := false }

namespace TunnelNet

def initial : TunnelNet := ⟨.initial, 0, .idle, [], [], fun _ => [], [], []⟩

inductive Event where
  | call (c : ℕ) (payload : Bytes)
  | answer (c n : ℕ)
  | lose (c n : ℕ)
  | deliver (c : ℕ) (now : ℚ)
  | receiveOwn (now : ℚ)
  | receiveOther (now : ℚ) (msg : CanMessage)
  | inspect
  | discard
  | timeout
  deriving DecidableEq, Repr

/-- The start of `comm_request`, up to the sending of the request. -/
def call (s : TunnelNet) (c : ℕ) (payload : Bytes) : TunnelNet :=
  match encodeCommFrames crc c HOST_ID payload 0 with
  | .error _ => { s with bus := s.bus.clearReply, calls := s.calls + 1 }
  | .ok frames =>
    { s with
      bus := s.bus.clearReply
      calls := s.calls + 1
      phase := .waiting s.calls c
      pending := (c, s.calls) :: s.pending
      echo := s.echo ++ frames.map VescFrame.message }

/-- One look of the waiting call `n` at the reply slot. -/
def inspect (s : TunnelNet) (n c : ℕ) : TunnelNet :=
  match s.bus.commReply with
  | none => s
  | some (sender, payload) =>
    if sender = c then { s with phase := .idle, returned := s.returned ++ [(n, payload)] }
    else { s with phase := .discarding n c }

def hear (s : TunnelNet) (now : ℚ) (msg : CanMessage) : TunnelNet :=
  { s with bus := onMessage crc s.bus now msg }

def withWire (s : TunnelNet) (c : ℕ) (msgs : List CanMessage) : TunnelNet :=
  { s with wire := Function.update s.wire c msgs }

theorem withWire_self (s : TunnelNet) (c : ℕ) (msgs : List CanMessage) :
    (s.withWire c msgs).wire c = msgs := by
  unfold withWire
  exact Function.update_self c msgs s.wire

theorem withWire_of_ne (s : TunnelNet) {c d : ℕ} (h : d ≠ c) (msgs : List CanMessage) :
    (s.withWire c msgs).wire d = s.wire d := by
  unfold withWire
  exact Function.update_of_ne h msgs s.wire

/-- `reply n` is what the node that call `n` asks answers to it. -/
def step (reply : ℕ → Bytes) (s : TunnelNet) : Event → Option TunnelNet
  | .call c payload =>
    if s.phase = .idle ∧ c ≠ BROADCAST_ID then some (s.call crc c payload) else none
  | .answer c n =>
    if (c, n) ∈ s.pending then
      match encodeCommFrames crc HOST_ID c (reply n) 0 with
      | .error _ => none
      | .ok frames => some { s.withWire c (s.wire c ++ frames.map VescFrame.message) with
          pending := s.pending.erase (c, n)
          answered := n :: s.answered }
    else none
  | .lose c n => some { s with pending := s.pending.erase (c, n) }
  | .deliver c now =>
    match s.wire c with
    | [] => none
    | msg :: rest => some ((s.withWire c rest).hear crc now msg)
  | .receiveOwn now =>
    match s.echo with
    | [] => none
    | msg :: rest => some (hear crc { s with echo := rest } now msg)
  | .receiveOther now msg => if tunnelForHost msg then none else some (s.hear crc now msg)
  | .inspect =>
    match s.phase with
    | .waiting n c => some (s.inspect n c)
    | _ => none
  | .discard =>
    match s.phase with
    | .discarding n c => some { s with bus := s.bus.clearReply, phase := .waiting n c }
    | _ => none
  | .timeout =>
    match s.phase with
    | .waiting _ _ => some { s with phase := .idle }
    | _ => none

/-- What each event does where it can happen. -/
inductive Move (reply : ℕ → Bytes) (s : TunnelNet) : Event → TunnelNet → Prop
  | call {c payload} (hidle : s.phase = .idle) (hone : c ≠ BROADCAST_ID) :
      Move reply s (.call c payload) (s.call crc c payload)
  | answer {c n frames} (hpending : (c, n) ∈ s.pending)
      (hencode : encodeCommFrames crc HOST_ID c (reply n) 0 = .ok frames) :
      Move reply s (.answer c n) { s.withWire c (s.wire c ++ frames.map VescFrame.message) with
        pending := s.pending.erase (c, n)
        answered := n :: s.answered }
  | lose {c n} : Move reply s (.lose c n) { s with pending := s.pending.erase (c, n) }
  | deliver {c now msg rest} (hwire : s.wire c = msg :: rest) :
      Move reply s (.deliver c now) ((s.withWire c rest).hear crc now msg)
  | receiveOwn {now msg rest} (hecho : s.echo = msg :: rest) :
      Move reply s (.receiveOwn now) (hear crc { s with echo := rest } now msg)
  | receiveOther {now msg} (hmsg : tunnelForHost msg = false) :
      Move reply s (.receiveOther now msg) (s.hear crc now msg)
  | inspect {n c} (hphase : s.phase = .waiting n c) : Move reply s .inspect (s.inspect n c)
  | discard {n c} (hphase : s.phase = .discarding n c) :
      Move reply s .discard { s with bus := s.bus.clearReply, phase := .waiting n c }
  | timeout {n c} (hphase : s.phase = .waiting n c) :
      Move reply s .timeout { s with phase := .idle }

theorem move_of_step {reply : ℕ → Bytes} {s t : TunnelNet} {e : Event}
    (h : step crc reply s e = some t) : Move crc reply s e t := by
  cases e with
  | call c payload =>
    obtain ⟨⟨hidle, hone⟩, ht⟩ := Option.ite_none_right_eq_some.mp h
    cases ht
    exact .call hidle hone
  | answer c n =>
    obtain ⟨hpending, ht⟩ := Option.ite_none_right_eq_some.mp h
    split at ht
    · cases ht
    · next frames hencode =>
      cases ht
      exact .answer hpending hencode
  | lose c n =>
    cases h
    exact .lose
  | deliver c now =>
    rw [step] at h
    split at h
    · cases h
    · next msg rest hwire =>
      cases h
      exact .deliver hwire
  | receiveOwn now =>
    rw [step] at h
    split at h
    · cases h
    · next msg rest hecho =>
      cases h
      exact .receiveOwn hecho
  | receiveOther now msg =>
    obtain ⟨hmsg, ht⟩ := Option.ite_none_left_eq_some.mp h
    cases ht
    exact .receiveOther (Bool.eq_false_iff.mpr hmsg)
  | inspect =>
    rw [step] at h
    split at h
    · next n c hphase =>
      cases h
      exact .inspect hphase
    · cases h
  | discard =>
    rw [step] at h
    split at h
    · next n c hphase =>
      cases h
      exact .discard hphase
    · cases h
  | timeout =>
    rw [step] at h
    split at h
    · next n c hphase =>
      cases h
      exact .timeout hphase
    · cases h

/-! ### What a run may have to meet -/

/-- A call asks a node, not the host itself, of which no earlier request may still be answered and
no frame is on its way. -/
def FreshCall (s : TunnelNet) : Event → Prop
  | .call c _ => c ≠ HOST_ID ∧ (∀ n, (c, n) ∉ s.pending) ∧ s.wire c = []
  | _ => True

/-- When the last frame of a reply in several frames to the waiting call is processed, the checksum
tells the reply from other contents of the reassembly buffer. -/
def ChecksumTells (reply : ℕ → Bytes) (s : TunnelNet) : Event → Prop
  | .deliver c _ => ∀ n, s.phase.asks = some (n, c) → 6 < (reply n).length →
      (s.wire c).length = 1 →
      crc (s.bus.commBuf.take (reply n).length) = crc (reply n) →
      s.bus.commBuf.take (reply n).length = reply n
  | _ => True

def IsFill (msg : CanMessage) : Prop :=
  (splitArbitrationId msg.arbitrationId).1 ∈
    [CanPacketId.fillRxBuffer.value, CanPacketId.fillRxBufferLong.value]

/-- No fill frame of another node is processed while the reply to the waiting call has arrived in
part. -/
def BufferUnshared (reply : ℕ → Bytes) (s : TunnelNet) : Event → Prop
  | .deliver d _ => ∀ n c, s.phase.asks = some (n, c) → d ≠ c →
      (∃ msg ∈ (s.wire d).head?, IsFill msg) →
      s.wire c = [] ∨ ∃ frames, encodeCommFrames crc HOST_ID c (reply n) 0 = .ok frames ∧
        s.wire c = frames.map VescFrame.message
  | _ => True

end TunnelNet

end PyVesc
