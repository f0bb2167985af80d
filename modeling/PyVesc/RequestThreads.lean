import PyVesc.ReplyWait
import PyVesc.TunnelRequests

/-!
# Requests in several threads

`comm_request` of the bus object, called by any number of threads. A step of a thread is what it
does up to the next access to something that threads share: the lock, the reply slot, the event, the
bus and the clock. The receiving thread fills the slot first and sets the event in a step of its
own. Nodes and the wire are as for a single caller; a node can answer when the last frame of a
request has been sent. What every node would answer to a request to the broadcast id is left out,
and what is said of replies is said of runs without such requests.
-/

namespace PyVesc

/-- What a caller passes to `comm_request`. -/
structure CommRequest where
  controllerId : ℕ
  payload : Bytes
  timeout : ℚ
  deriving DecidableEq, Repr

/-- Where a thread is in `comm_request`: call number `n` asks the node `c`. -/
inductive RequestPhase where
  | idle
  | acquiring (r : CommRequest)
  /-- The lock is held. -/
  | entered (r : CommRequest)
  /-- The slot is cleared, the event is not. -/
  | cleared (n : ℕ) (r : CommRequest)
  | sending (n : ℕ) (r : CommRequest) (frames : List VescFrame)
  /-- The head of the loop. -/
  | checking (n c : ℕ) (deadline : ℚ)
  | resting (n c : ℕ) (deadline remaining : ℚ)
  | waiting (n c : ℕ) (deadline ending : ℚ)
  | looking (n c : ℕ) (deadline : ℚ)
  /-- The slot was not `None`. -/
  | unpacking (n c : ℕ) (deadline : ℚ)
  /-- The reply is of another node. -/
  | dropping (n c : ℕ) (deadline : ℚ)
  | rearming (n c : ℕ) (deadline : ℚ)
  deriving DecidableEq, Repr

/-- The thread is in the body of `with self._comm_lock`. -/
def RequestPhase.inside : RequestPhase → Bool
  | .idle | .acquiring _ => false
  | _ => true

structure RequestThreads (ι : Type) where
  bus : BusState
  clock : ℚ
  /-- A reply has been stored, and its event is not set yet. -/
  signalling : Bool
  owner : Option ι
  phases : ι → RequestPhase
  /-- The calls that have cleared the slot, in that order; the place of a call is its number. -/
  asked : List (ι × CommRequest)
  pending : List (ℕ × ℕ)
  answered : List ℕ
  wire : ℕ → List CanMessage
  echo : List CanMessage
  /-- What the calls came to, in the order in which they left the lock. -/
  results : List (ι × ℕ × Py (Option Bytes))

namespace RequestThreads

variable {ι : Type}

def initial : RequestThreads ι :=
  ⟨.initial, 0, false, none, fun _ => .idle, [], [], [], fun _ => [], [], []⟩

inductive Event (ι : Type) where
  | start (k : ι) (r : CommRequest)
  /-- The next step of the thread `k`. -/
  | advance (k : ι) (now : ℚ)
  /-- The bus is dead: a frame of the thread `k` cannot be sent. -/
  | sendFails (k : ι) (now : ℚ)
  /-- Sending a frame raises another exception. -/
  | sendRaises (k : ι) (now : ℚ) (e : PyError)
  | answer (c n : ℕ)
  | lose (c n : ℕ)
  | deliver (c : ℕ) (now : ℚ)
  | receiveOwn (now : ℚ)
  | receiveOther (now : ℚ) (msg : CanMessage)
  | signal

variable [DecidableEq ι] (crc : Bytes → UInt16)

def goto (s : RequestThreads ι) (k : ι) (phase : RequestPhase) : RequestThreads ι :=
  { s with phases := Function.update s.phases k phase }

def atTime (s : RequestThreads ι) (now : ℚ) : RequestThreads ι := { s with clock := now }

/-- Call number `n` of the thread `k` releases the lock. -/
def leave (s : RequestThreads ι) (k : ι) (n : ℕ) (result : Py (Option Bytes)) : RequestThreads ι :=
  { s.goto k .idle with owner := none, results := s.results ++ [(k, n, result)] }

def setReply (s : RequestThreads ι) (reply : Option (ℕ × Bytes)) : RequestThreads ι :=
  { s with bus := { s.bus with commReply := reply } }

def setEvent (s : RequestThreads ι) (set : Bool) : RequestThreads ι :=
  { s with bus := { s.bus with commEvent := set } }

/-- The frame is sent. With the last one the node has the request. -/
def send (s : RequestThreads ι) (n c : ℕ) (f : VescFrame) (rest : List VescFrame) :
    RequestThreads ι :=
  { s with
    echo := s.echo ++ [f.message]
    pending := if rest = [] then (c, n) :: s.pending else s.pending }

def advance (s : RequestThreads ι) (k : ι) (now : ℚ) : Option (RequestThreads ι) :=
  match s.phases k with
  | .idle => none
  | .acquiring r =>
    match s.owner with
    | none => some { s.goto k (.entered r) with owner := some k }
    | some _ => none
  | .entered r =>
    some { (s.setReply none).goto k (.cleared s.asked.length r) with asked := s.asked ++ [(k, r)] }
  | .cleared n r =>
    match encodeCommFrames crc r.controllerId HOST_ID r.payload 0 with
    | .ok frames => some ((s.setEvent false).goto k (.sending n r frames))
    | .error e => some ((s.setEvent false).leave k n (.error e))
  | .sending n r frames =>
    match frames with
    | [] => some (s.goto k (.checking n r.controllerId (now + r.timeout)))
    | f :: rest => some ((s.send n r.controllerId f rest).goto k (.sending n r rest))
  | .checking n c deadline =>
    if deadline - now ≤ 0 then some (s.leave k n (.ok none))
    else some (s.goto k (.resting n c deadline (deadline - now)))
  | .resting n c deadline remaining => some (s.goto k (.waiting n c deadline (now + remaining)))
  | .waiting n c deadline ending =>
    if s.bus.commEvent = true ∨ ending ≤ now then some (s.goto k (.looking n c deadline)) else none
  | .looking n c deadline =>
    match s.bus.commReply with
    | none => some (s.goto k (.checking n c deadline))
    | some _ => some (s.goto k (.unpacking n c deadline))
  | .unpacking n c deadline =>
    match s.bus.commReply with
    | none =>
      some (s.leave k n (.error (.typeError "cannot unpack non-iterable NoneType object")))
    | some (sender, reply) =>
      if sender = c then some (s.leave k n (.ok (some reply)))
      else some (s.goto k (.dropping n c deadline))
  | .dropping n c deadline => some ((s.setReply none).goto k (.rearming n c deadline))
  | .rearming n c deadline => some ((s.setEvent false).goto k (.checking n c deadline))

/-- A frame cannot be sent, and the call comes to `result`. -/
def failSend (s : RequestThreads ι) (k : ι) (result : Py (Option Bytes)) :
    Option (RequestThreads ι) :=
  match s.phases k with
  | .sending n _ (_ :: _) => some (s.leave k n result)
  | _ => none

def hear (s : RequestThreads ι) (now : ℚ) (msg : CanMessage) : RequestThreads ι :=
  { s with
    bus := { onMessage crc s.bus now msg with commEvent := s.bus.commEvent }
    clock := now
    signalling := (published crc s.bus.commBuf msg).isSome }

def withWire (s : RequestThreads ι) (c : ℕ) (msgs : List CanMessage) : RequestThreads ι :=
  { s with wire := Function.update s.wire c msgs }

/-- `reply n` is what the node that call `n` asks answers to it. -/
def step (reply : ℕ → Bytes) (s : RequestThreads ι) : Event ι → Option (RequestThreads ι)
  | .start k r => if s.phases k = .idle then some (s.goto k (.acquiring r)) else none
  | .advance k now => if s.clock ≤ now then advance crc (s.atTime now) k now else none
  | .sendFails k now => if s.clock ≤ now then failSend (s.atTime now) k (.ok none) else none
  | .sendRaises k now e => if s.clock ≤ now then failSend (s.atTime now) k (.error e) else none
  | .answer c n =>
    if s.pending.contains (c, n) then
      match encodeCommFrames crc HOST_ID c (reply n) 0 with
      | .error _ => none
      | .ok frames => some { s.withWire c (s.wire c ++ frames.map VescFrame.message) with
          pending := s.pending.erase (c, n)
          answered := n :: s.answered }
    else none
  | .lose c n => some { s with pending := s.pending.erase (c, n) }
  | .deliver c now =>
    if s.clock ≤ now ∧ s.signalling = false then
      match s.wire c with
      | [] => none
      | msg :: rest => some ((s.withWire c rest).hear crc now msg)
    else none
  | .receiveOwn now =>
    if s.clock ≤ now ∧ s.signalling = false then
      match s.echo with
      | [] => none
      | msg :: rest => some (hear crc { s with echo := rest } now msg)
    else none
  | .receiveOther now msg =>
    if s.clock ≤ now ∧ s.signalling = false ∧ tunnelForHost msg = false then
      some (s.hear crc now msg)
    else none
  | .signal =>
    if s.signalling = true then some { s.setEvent true with signalling := false } else none

/-! ### What the steps are -/

/-- What a step of the thread `k` at the time `now` makes of the state. -/
inductive Advance (s : RequestThreads ι) (k : ι) (now : ℚ) : RequestThreads ι → Prop
  | acquire {r} (hphase : s.phases k = .acquiring r) (hfree : s.owner = none) :
      Advance s k now { s.goto k (.entered r) with owner := some k }
  | clear {r} (hphase : s.phases k = .entered r) :
      Advance s k now { (s.setReply none).goto k (.cleared s.asked.length r) with
        asked := s.asked ++ [(k, r)] }
  | encode {n r frames} (hphase : s.phases k = .cleared n r)
      (hencode : encodeCommFrames crc r.controllerId HOST_ID r.payload 0 = .ok frames) :
      Advance s k now ((s.setEvent false).goto k (.sending n r frames))
  | refuse {n r e} (hphase : s.phases k = .cleared n r)
      (hencode : encodeCommFrames crc r.controllerId HOST_ID r.payload 0 = .error e) :
      Advance s k now ((s.setEvent false).leave k n (.error e))
  | send {n r f rest} (hphase : s.phases k = .sending n r (f :: rest)) :
      Advance s k now ((s.send n r.controllerId f rest).goto k (.sending n r rest))
  | sent {n r} (hphase : s.phases k = .sending n r []) :
      Advance s k now (s.goto k (.checking n r.controllerId (now + r.timeout)))
  | expire {n c deadline} (hphase : s.phases k = .checking n c deadline) (htime : deadline ≤ now) :
      Advance s k now (s.leave k n (.ok none))
  | check {n c deadline} (hphase : s.phases k = .checking n c deadline) (htime : now < deadline) :
      Advance s k now (s.goto k (.resting n c deadline (deadline - now)))
  | rest {n c deadline remaining} (hphase : s.phases k = .resting n c deadline remaining) :
      Advance s k now (s.goto k (.waiting n c deadline (now + remaining)))
  | wake {n c deadline ending} (hphase : s.phases k = .waiting n c deadline ending) :
      Advance s k now (s.goto k (.looking n c deadline))
  | lookNone {n c deadline} (hphase : s.phases k = .looking n c deadline) :
      Advance s k now (s.goto k (.checking n c deadline))
  | look {n c deadline found} (hphase : s.phases k = .looking n c deadline)
      (hslot : s.bus.commReply = some found) :
      Advance s k now (s.goto k (.unpacking n c deadline))
  | unpackNone {n c deadline} (hphase : s.phases k = .unpacking n c deadline)
      (hslot : s.bus.commReply = none) : Advance s k now
        (s.leave k n (.error (.typeError "cannot unpack non-iterable NoneType object")))
  | take {n c deadline reply} (hphase : s.phases k = .unpacking n c deadline)
      (hslot : s.bus.commReply = some (c, reply)) :
      Advance s k now (s.leave k n (.ok (some reply)))
  | reject {n c deadline sender reply} (hphase : s.phases k = .unpacking n c deadline)
      (hslot : s.bus.commReply = some (sender, reply)) (hsender : sender ≠ c) :
      Advance s k now (s.goto k (.dropping n c deadline))
  | drop {n c deadline} (hphase : s.phases k = .dropping n c deadline) :
      Advance s k now ((s.setReply none).goto k (.rearming n c deadline))
  | rearm {n c deadline} (hphase : s.phases k = .rearming n c deadline) :
      Advance s k now ((s.setEvent false).goto k (.checking n c deadline))

/-- What each event does where it can happen. -/
inductive Move (reply : ℕ → Bytes) (s : RequestThreads ι) : Event ι → RequestThreads ι → Prop
  | start {k r} (hphase : s.phases k = .idle) :
      Move reply s (.start k r) (s.goto k (.acquiring r))
  | advance {k now t} (h : Advance crc (s.atTime now) k now t) : Move reply s (.advance k now) t
  | sendFails {k now n r f rest} (hphase : s.phases k = .sending n r (f :: rest)) :
      Move reply s (.sendFails k now) ((s.atTime now).leave k n (.ok none))
  | sendRaises {k now e n r f rest} (hphase : s.phases k = .sending n r (f :: rest)) :
      Move reply s (.sendRaises k now e) ((s.atTime now).leave k n (.error e))
  | answer {c n frames} (hpending : (c, n) ∈ s.pending)
      (hencode : encodeCommFrames crc HOST_ID c (reply n) 0 = .ok frames) :
      Move reply s (.answer c n) { s.withWire c (s.wire c ++ frames.map VescFrame.message) with
        pending := s.pending.erase (c, n)
        answered := n :: s.answered }
  | lose {c n} : Move reply s (.lose c n) { s with pending := s.pending.erase (c, n) }
  | deliver {c now msg rest} (hwire : s.wire c = msg :: rest) :
      Move reply s (.deliver c now) ((s.withWire c rest).hear crc now msg)
  | receiveOwn {now msg rest} (hecho : s.echo = msg :: rest) :
      Move reply s (.receiveOwn now) (hear crc { s with echo := rest } now msg)
  | receiveOther {now msg} (hmsg : tunnelForHost msg = false) :
      Move reply s (.receiveOther now msg) (s.hear crc now msg)
  | signal : Move reply s .signal { s.setEvent true with signalling := false }

variable {crc} {s t : RequestThreads ι} {k : ι} {now : ℚ}

theorem advance_of_advance (h : advance crc s k now = some t) : Advance crc s k now t := by
  unfold advance at h
  split at h
  · cases h
  · next r hphase =>
    split at h
    · next hfree =>
      cases h
      exact .acquire hphase hfree
    · cases h
  · next r hphase =>
    cases h
    exact .clear hphase
  · next n r hphase =>
    split at h
    · next frames hencode =>
      cases h
      exact .encode hphase hencode
    · next e hencode =>
      cases h
      exact .refuse hphase hencode
  · next n r frames hphase =>
    split at h
    · cases h
      exact .sent hphase
    · cases h
      exact .send hphase
  · next n c deadline hphase =>
    split_ifs at h with htime
    · cases h
      exact .expire hphase (by linarith)
    · cases h
      exact .check hphase (by linarith)
  · next hphase =>
    cases h
    exact .rest hphase
  · next hphase =>
    split_ifs at h
    cases h
    exact .wake hphase
  · next hphase =>
    split at h
    · cases h
      exact .lookNone hphase
    · next hslot =>
      cases h
      exact .look hphase hslot
  · next n c deadline hphase =>
    split at h
    · next hslot =>
      cases h
      exact .unpackNone hphase hslot
    · next sender reply hslot =>
      split_ifs at h with hsender
      · subst hsender
        cases h
        exact .take hphase hslot
      · cases h
        exact .reject hphase hslot hsender
  · next hphase =>
    cases h
    exact .drop hphase
  · next hphase =>
    cases h
    exact .rearm hphase

theorem failSend_eq_some {result : Py (Option Bytes)} (h : failSend s k result = some t) :
    ∃ n r f rest, s.phases k = .sending n r (f :: rest) ∧ t = s.leave k n result := by
  unfold failSend at h
  split at h
  · next n r f rest hphase =>
    cases h
    exact ⟨n, r, f, rest, hphase, rfl⟩
  · cases h

theorem move_of_step {reply : ℕ → Bytes} {e : Event ι} (h : step crc reply s e = some t) :
    Move crc reply s e t := by
  cases e with
  | start k r =>
    obtain ⟨hphase, ht⟩ := Option.ite_none_right_eq_some.mp h
    cases ht
    exact .start hphase
  | advance k now =>
    obtain ⟨_, ht⟩ := Option.ite_none_right_eq_some.mp h
    exact .advance (advance_of_advance ht)
  | sendFails k now =>
    obtain ⟨_, ht⟩ := Option.ite_none_right_eq_some.mp h
    obtain ⟨n, r, f, rest, hphase, rfl⟩ := failSend_eq_some ht
    exact .sendFails hphase
  | sendRaises k now e =>
    obtain ⟨_, ht⟩ := Option.ite_none_right_eq_some.mp h
    obtain ⟨n, r, f, rest, hphase, rfl⟩ := failSend_eq_some ht
    exact .sendRaises hphase
  | answer c n =>
    obtain ⟨hpending, ht⟩ := Option.ite_none_right_eq_some.mp h
    split at ht
    · cases ht
    · next frames hencode =>
      cases ht
      exact .answer (List.contains_iff_mem.mp hpending) hencode
  | lose c n =>
    cases h
    exact .lose
  | deliver c now =>
    obtain ⟨_, ht⟩ := Option.ite_none_right_eq_some.mp h
    split at ht
    · cases ht
    · next msg rest hwire =>
      cases ht
      exact .deliver hwire
  | receiveOwn now =>
    obtain ⟨_, ht⟩ := Option.ite_none_right_eq_some.mp h
    split at ht
    · cases ht
    · next msg rest hecho =>
      cases ht
      exact .receiveOwn hecho
  | receiveOther now msg =>
    obtain ⟨hmsg, ht⟩ := Option.ite_none_right_eq_some.mp h
    cases ht
    exact .receiveOther hmsg.2.2
  | signal =>
    obtain ⟨_, ht⟩ := Option.ite_none_right_eq_some.mp h
    cases ht
    exact .signal

end RequestThreads

end PyVesc
