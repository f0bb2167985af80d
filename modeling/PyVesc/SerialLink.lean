import PyVesc.CleanStream
import PyVesc.ReadOutcome
import PyVesc.Transition

/-!
# The host and a device on a serial link

The host calls `VESC.write` again and again, each time with a response expected. A call drops the
bytes that wait in the transport, sends its request and reads, one round after the other. The device
answers a request some time after it has received it; the frames of its replies are delivered intact
and in order, in pieces of any size. Bytes may arrive between any two steps, and the readings of the
clock are any.
-/

namespace PyVesc

variable (crc : Bytes → UInt16) (registry : Registry)

/-- What call number `n` expects and how long it waits, and what the device answers to it. -/
structure Session where
  msgId : ℕ → ℕ
  maxWait : ℕ → ℚ
  reply : ℕ → Bytes

def Session.args (S : Session) (n : ℕ) : ReadArgs :=
  { ReadArgs.expecting (S.msgId n) with maxWait := S.maxWait n }

/-- A byte on the line. The host sees its value; `ends` says whose reply it is the last byte of. -/
structure LineByte where
  value : UInt8
  ends : Option ℕ
  deriving DecidableEq, Repr

/-- The bytes of a frame with the reply to request `n`. -/
def lineBytes (n : ℕ) : Bytes → List LineByte
  | [] => []
  | b :: bs => ⟨b, if bs = [] then some n else none⟩ :: lineBytes n bs

/-- Where the host is: between two calls, in call `n` before its request is sent, or in its read. -/
inductive Stage where
  | idle
  | drained (n : ℕ)
  | reading (n : ℕ) (deadline : ℚ) (s : ReadState)
  deriving DecidableEq, Repr

/-- The call under way, the bytes it holds, and its match. -/
def Stage.view : Stage → Option (ℕ × Bytes × Option Bytes)
  | idle => none
  | drained n => some (n, [], none)
  | reading n _ s => some (n, s.payload, s.matched)

structure SerialLink where
  calls : ℕ
  stage : Stage
  /-- The requests that the device may still answer. -/
  owed : List ℕ
  answered : List ℕ
  /-- Bytes of the device that are on their way. -/
  transit : List LineByte
  /-- Bytes that wait in the transport. -/
  waiting : List LineByte
  /-- Bytes that the call under way has read. -/
  taken : List LineByte
  returned : List (ℕ × Py (Option Response))

namespace SerialLink

def initial : SerialLink := ⟨0, .idle, [], [], [], [], [], []⟩

inductive Event where
  | drain
  | send (start : ℚ)
  | answer (n : ℕ)
  | lose (n : ℕ)
  | duplicate (n : ℕ)
  | arrive (k : ℕ)
  | poll (check now : ℚ)
  | expire (check : ℚ)
  deriving DecidableEq, Repr

def startCall (s : SerialLink) : SerialLink :=
  { s with
    calls := s.calls + 1
    stage := .drained s.calls
    waiting := discardStale s.waiting
    taken := [] }

def sendReply (s : SerialLink) (n : ℕ) (bytes : Bytes) : SerialLink :=
  { s with transit := s.transit ++ lineBytes n bytes }

def arrive (s : SerialLink) (k : ℕ) : SerialLink :=
  { s with waiting := s.waiting ++ s.transit.take k, transit := s.transit.drop k }

def takeWaiting (s : SerialLink) : SerialLink :=
  { s with waiting := [], taken := s.taken ++ s.waiting }

def leave (s : SerialLink) (n : ℕ) (result : Py (Option Response)) : SerialLink :=
  { s with stage := .idle, returned := s.returned ++ [(n, result)] }

variable (S : Session)

/-- What a round of the read makes of the link. -/
def settle (s : SerialLink) (n : ℕ) (deadline : ℚ) : Turn ReadState (Py ReadExit) → SerialLink
  | .next r => { s with stage := .reading n deadline r }
  | .done loopExit => s.leave n (loopExit >>= ReadExit.result crc registry (S.args n))

def round (s : SerialLink) (n : ℕ) (deadline : ℚ) (r : ReadState) (check now : ℚ) : SerialLink :=
  settle crc registry S s.takeWaiting n deadline
    (pollRound crc registry (S.args n) r ⟨check, s.waiting.map LineByte.value, now⟩)

def step (s : SerialLink) : Event → Option SerialLink
  | .drain => if s.stage = .idle then some s.startCall else none
  | .send start =>
    match s.stage with
    | .drained n => some { s with
        stage := .reading n (start + (S.args n).maxWait) ⟨[], none, none⟩
        owed := n :: s.owed }
    | _ => none
  | .answer n =>
    if n ∈ s.owed then
      match frame crc (S.reply n) with
      | .error _ => none
      | .ok bytes => some { s.sendReply n bytes with
          owed := s.owed.erase n
          answered := n :: s.answered }
    else none
  | .lose n => some { s with owed := s.owed.erase n }
  | .duplicate n =>
    if n ∈ s.answered then
      match frame crc (S.reply n) with
      | .error _ => none
      | .ok bytes => some (s.sendReply n bytes)
    else none
  | .arrive k => some (s.arrive k)
  | .poll check now =>
    match s.stage with
    | .reading n deadline r =>
      if check < deadline then some (s.round crc registry S n deadline r check now) else none
    | _ => none
  | .expire check =>
    match s.stage with
    | .reading n deadline r =>
      if check < deadline then none else some (s.leave n (afterLoop crc registry (S.args n) r))
    | _ => none

/-- What each event does where it can happen. -/
inductive Move (s : SerialLink) : Event → SerialLink → Prop
  | drain (hidle : s.stage = .idle) : Move s .drain s.startCall
  | send {start n} (hstage : s.stage = .drained n) : Move s (.send start) { s with
      stage := .reading n (start + (S.args n).maxWait) ⟨[], none, none⟩
      owed := n :: s.owed }
  | answer {n bytes} (howed : n ∈ s.owed) (hframe : frame crc (S.reply n) = .ok bytes) :
      Move s (.answer n) { s.sendReply n bytes with
        owed := s.owed.erase n
        answered := n :: s.answered }
  | lose {n} : Move s (.lose n) { s with owed := s.owed.erase n }
  | duplicate {n bytes} (hanswered : n ∈ s.answered) (hframe : frame crc (S.reply n) = .ok bytes) :
      Move s (.duplicate n) (s.sendReply n bytes)
  | arrive {k} : Move s (.arrive k) (s.arrive k)
  | poll {check now n deadline r} (hstage : s.stage = .reading n deadline r) :
      Move s (.poll check now) (s.round crc registry S n deadline r check now)
  | expire {check n deadline r} (hstage : s.stage = .reading n deadline r) :
      Move s (.expire check) (s.leave n (afterLoop crc registry (S.args n) r))

theorem move_of_step {s t : SerialLink} {e : Event} (h : step crc registry S s e = some t) :
    Move crc registry S s e t := by
  cases e with
  | drain =>
    obtain ⟨hidle, ht⟩ := Option.ite_none_right_eq_some.mp h
    cases ht
    exact .drain hidle
  | send start =>
    rw [step] at h
    split at h
    · next n hstage =>
      cases h
      exact .send hstage
    · cases h
  | answer n =>
    obtain ⟨howed, ht⟩ := Option.ite_none_right_eq_some.mp h
    split at ht
    · cases ht
    · next bytes hframe =>
      cases ht
      exact .answer howed hframe
  | lose n =>
    cases h
    exact .lose
  | duplicate n =>
    obtain ⟨hanswered, ht⟩ := Option.ite_none_right_eq_some.mp h
    split at ht
    · cases ht
    · next bytes hframe =>
      cases ht
      exact .duplicate hanswered hframe
  | arrive k =>
    cases h
    exact .arrive
  | poll check now =>
    rw [step] at h
    split at h
    · next n deadline r hstage =>
      obtain ⟨_, ht⟩ := Option.ite_none_right_eq_some.mp h
      cases ht
      exact .poll hstage
    · cases h
  | expire check =>
    rw [step] at h
    split at h
    · next n deadline r hstage =>
      obtain ⟨_, ht⟩ := Option.ite_none_left_eq_some.mp h
      cases ht
      exact .expire hstage
    · cases h

/-! ### The reply that a call takes -/

/-- The replies to some requests, as they lie on the line. -/
def onLine (ms : List ℕ) : List (List LineByte × ℕ) :=
  ms.map fun m => (lineBytes m (frameBytes crc (S.reply m)), m)

/-- A reply to request `m` would be taken for an answer to call `n`. -/
def Answers (n m : ℕ) : Prop := carries (some (S.msgId n)) (S.reply m) = true

instance (n m : ℕ) : Decidable (Answers S n m) := inferInstanceAs (Decidable (_ = true))

/-- The newest of the replies with the id that end among some bytes is the call's own, if any is. -/
def NewestOwn (n : ℕ) (bytes : List LineByte) : Prop :=
  ∀ m ∈ ((bytes.filterMap LineByte.ends).filter (Answers S n ·)).getLast?, m = n

instance (n : ℕ) (bytes : List LineByte) : Decidable (NewestOwn S n bytes) :=
  inferInstanceAs (Decidable (∀ m ∈ _, m = n))

/-- The round is the last one of a read that has a match: it takes the bytes up to the end of a
reply, or it finds none and the line has been quiet for too long. -/
def EndsRound (s : SerialLink) (n : ℕ) (r : ReadState) (now : ℚ) : Prop :=
  if s.waiting = [] then
    r.tQuiet.any (fun tQuiet => decide ((S.args n).timeout < now - tQuiet)) = true
  else ∃ b, s.waiting.getLast? = some b ∧ b.ends ≠ none

/-- No reply is cut in two when a call starts, and when a read may end, the newest of the replies
with the expected id that it has taken in is the reply to its own request. -/
def Fresh (s : SerialLink) : Event → Prop
  | .drain => ∃ ms, s.transit = Scanner.stream (onLine crc S ms)
  | .poll _ now => ∀ n deadline r, s.stage = .reading n deadline r → EndsRound S s n r now →
      NewestOwn S n (s.taken ++ s.waiting)
  | .expire _ => ∀ n deadline r, s.stage = .reading n deadline r → NewestOwn S n s.taken
  | _ => True

/-- When a call starts, no reply is cut in two, and none of the replies that are on their way or
that the device still owes could be taken for an answer to the call; and while it lasts, only its
own reply may be repeated of those that could. -/
def Quiet (s : SerialLink) : Event → Prop
  | .drain => (∃ ms : List ℕ, s.transit = Scanner.stream (onLine crc S ms) ∧
      ∀ m ∈ ms, ¬ Answers S s.calls m) ∧ ∀ m ∈ s.owed, ¬ Answers S s.calls m
  | .duplicate m => ∀ n buf matched, s.stage.view = some (n, buf, matched) → Answers S n m → m = n
  | _ => True

end SerialLink

end PyVesc
