import PyVesc.SerialLink
import PyVesc.TcpStream

/-!
# Calls over the TCP transport

`VESC.write` and `VESC.read` on a `TCPTransport`, call after call, each with a response expected.
Where the serial port is looked at, `in_waiting` and `read` of the transport are called, and they
move bytes piece by piece while the bridge goes on sending, or closes. `in_waiting` raises when the
bridge has closed and nothing is left, and then so does the call. An error of `serial_port.write` is
logged, and the call reads all the same.
-/

namespace PyVesc

variable (crc : Bytes → UInt16) (registry : Registry)

/-- Where the host is: between two calls; at the access to `in_waiting` before its request, or at
the `read` of the stale bytes; before its request is sent; at the head of the loop of `VESC.read`,
at the access to `in_waiting` in it, or at the `read` behind that. -/
inductive TcpStage where
  | idle
  | draining
  | discarding
  | drained (n : ℕ)
  | reading (n : ℕ) (deadline : ℚ) (s : ReadState)
  | polling (n : ℕ) (deadline : ℚ) (s : ReadState) (check : ℚ)
  | taking (n : ℕ) (deadline : ℚ) (s : ReadState) (check : ℚ)
  deriving DecidableEq, Repr

/-- How a call of `write` ends: with the `ConnectionError` of the transport, or as over a serial
port. The exceptions that `read` itself raises on either transport, such as the `struct.error` of a
reply that is too short, are results of the latter kind. -/
inductive CallResult where
  | returned (result : Py (Option Response))
  | connectionError (message : String)

structure TcpSession where
  link : TcpLink
  calls : ℕ
  stage : TcpStage
  /-- The requests that the device may still answer. -/
  owed : List ℕ
  answered : List ℕ
  /-- Bytes of the device that the host has not used yet. -/
  line : List LineByte
  results : List (ℕ × CallResult)

namespace TcpSession

def initial : TcpSession := ⟨.initial, 0, .idle, [], [], [], []⟩

inductive Event where
  | answer (n : ℕ)
  | lose (n : ℕ)
  | duplicate (n : ℕ)
  | close
  /-- `write` is called and looks at `in_waiting`. -/
  | start
  | select (ready : Bool)
  | recv (k : ℕ)
  /-- The host goes on when the transport has returned or raised. -/
  | resume (now : ℚ)
  | send (start : ℚ) (written : Bool)
  | poll (check : ℚ)
  deriving DecidableEq, Repr

/-- The device sends a reply and the bridge passes it on. -/
def sendReply (s : TcpSession) (n : ℕ) (bytes : Bytes) : Option TcpSession :=
  (s.link.step (.send bytes)).map fun link =>
    { s with link := link, line := s.line ++ lineBytes n bytes }

/-- A step of the transport. -/
def pump (s : TcpSession) (e : TcpLink.Event) : Option TcpSession :=
  (s.link.step e).map fun link => { s with link := link }

/-- The host calls the transport. -/
def access (s : TcpSession) (c : TransportCall) (stage : TcpStage) : Option TcpSession :=
  (s.link.step (.call c)).map fun link => { s with link := link, stage := stage }

/-- The call gets its number when the stale bytes have been dropped. -/
def startCall (s : TcpSession) (dropped : ℕ) : TcpSession :=
  { s with calls := s.calls + 1, stage := .drained s.calls, line := s.line.drop dropped }

def leave (s : TcpSession) (n : ℕ) (result : CallResult) : TcpSession :=
  { s with stage := .idle, results := s.results ++ [(n, result)] }

variable (S : Session)

/-- What a round of the read makes of the session. -/
def settle (s : TcpSession) (n : ℕ) (deadline : ℚ) : Turn ReadState (Py ReadExit) → TcpSession
  | .next r => { s with stage := .reading n deadline r }
  | .done loopExit => s.leave n (.returned (loopExit >>= ReadExit.result crc registry (S.args n)))

def round (s : TcpSession) (n : ℕ) (deadline : ℚ) (r : ReadState) (poll : Poll) : TcpSession :=
  settle crc registry S { s with line := s.line.drop poll.chunk.length } n deadline
    (pollRound crc registry (S.args n) r poll)

/-- What the host does with what the transport has returned, or with its error. -/
def resume (s : TcpSession) (now : ℚ) : TcpStage → Returned → Option TcpSession
  | .draining, .inWaiting k =>
    if k = 0 then some (s.startCall 0) else s.access (.read k) .discarding
  | .draining, .connectionError message =>
    some ({ s with calls := s.calls + 1 }.leave s.calls (.connectionError message))
  | .discarding, .read _ data => some (s.startCall data.length)
  | .polling n deadline r check, .inWaiting k =>
    if k = 0 then some (s.round crc registry S n deadline r ⟨check, [], now⟩)
    else s.access (.read k) (.taking n deadline r check)
  | .polling n _ _ _, .connectionError message => some (s.leave n (.connectionError message))
  | .taking n deadline r check, .read _ data =>
    some (s.round crc registry S n deadline r ⟨check, data, now⟩)
  | _, _ => none

def step (s : TcpSession) : Event → Option TcpSession
  | .answer n =>
    if n ∈ s.owed then
      match frame crc (S.reply n) with
      | .error _ => none
      | .ok bytes => { s with
          owed := s.owed.erase n
          answered := n :: s.answered }.sendReply n bytes
    else none
  | .lose n => some { s with owed := s.owed.erase n }
  | .duplicate n =>
    if n ∈ s.answered then
      match frame crc (S.reply n) with
      | .error _ => none
      | .ok bytes => s.sendReply n bytes
    else none
  | .close => s.pump .peerClose
  | .start => if s.stage = .idle then s.access .inWaiting .draining else none
  | .select ready => s.pump (.select ready)
  | .recv k => s.pump (.recv k)
  | .resume now =>
    if s.link.phase = .idle then s.link.log.head?.bind (s.resume crc registry S now s.stage)
    else none
  | .send start written =>
    match s.stage with
    | .drained n => some { s with
        stage := .reading n (start + (S.args n).maxWait) ⟨[], none, none⟩
        owed := if written then n :: s.owed else s.owed }
    | _ => none
  | .poll check =>
    match s.stage with
    | .reading n deadline r =>
      if check < deadline then s.access .inWaiting (.polling n deadline r check)
      else some (s.leave n (.returned (afterLoop crc registry (S.args n) r)))
    | _ => none

/-- What the host does when the transport has returned or raised. -/
inductive Resume (s : TcpSession) (now : ℚ) : Returned → TcpSession → Prop
  | drain (hstage : s.stage = .draining) : Resume s now (.inWaiting 0) (s.startCall 0)
  | discard {k} (hstage : s.stage = .draining) (hk : k ≠ 0) :
      Resume s now (.inWaiting k)
        { s with link := { s.link with phase := .looping (.read k) }, stage := .discarding }
  | dropped {size data} (hstage : s.stage = .discarding) :
      Resume s now (.read size data) (s.startCall data.length)
  | idle {n deadline r check} (hstage : s.stage = .polling n deadline r check) :
      Resume s now (.inWaiting 0) (s.round crc registry S n deadline r ⟨check, [], now⟩)
  | take {n deadline r check k} (hstage : s.stage = .polling n deadline r check) (hk : k ≠ 0) :
      Resume s now (.inWaiting k)
        { s with
          link := { s.link with phase := .looping (.read k) }
          stage := .taking n deadline r check }
  | taken {n deadline r check size data} (hstage : s.stage = .taking n deadline r check) :
      Resume s now (.read size data) (s.round crc registry S n deadline r ⟨check, data, now⟩)
  | refused {message} (hstage : s.stage = .draining) :
      Resume s now (.connectionError message)
        ({ s with calls := s.calls + 1 }.leave s.calls (.connectionError message))
  | raised {n deadline r check message} (hstage : s.stage = .polling n deadline r check) :
      Resume s now (.connectionError message) (s.leave n (.connectionError message))

/-- What each event does where it can happen. -/
inductive Move (s : TcpSession) : Event → TcpSession → Prop
  | answer {n bytes} (howed : n ∈ s.owed) (hframe : frame crc (S.reply n) = .ok bytes)
      (hopen : ¬ s.link.peerClosed = true) :
      Move s (.answer n) { s with
        link := { s.link with socket := s.link.socket ++ bytes, sent := s.link.sent ++ bytes }
        owed := s.owed.erase n
        answered := n :: s.answered
        line := s.line ++ lineBytes n bytes }
  | lose {n} : Move s (.lose n) { s with owed := s.owed.erase n }
  | duplicate {n bytes} (hanswered : n ∈ s.answered) (hframe : frame crc (S.reply n) = .ok bytes)
      (hopen : ¬ s.link.peerClosed = true) :
      Move s (.duplicate n) { s with
        link := { s.link with socket := s.link.socket ++ bytes, sent := s.link.sent ++ bytes }
        line := s.line ++ lineBytes n bytes }
  | close : Move s .close { s with link := { s.link with peerClosed := true } }
  | start (hidle : s.stage = .idle) (hphase : s.link.phase = .idle) :
      Move s .start
        { s with link := { s.link with phase := .looping .inWaiting }, stage := .draining }
  | select {ready link} (hpump : s.link.step (.select ready) = some link) :
      Move s (.select ready) { s with link := link }
  | recv {k link} (hpump : s.link.step (.recv k) = some link) :
      Move s (.recv k) { s with link := link }
  | resume {now r t} (hphase : s.link.phase = .idle) (hlog : s.link.log.head? = some r)
      (hresume : Resume crc registry S s now r t) : Move s (.resume now) t
  | send {start written n} (hstage : s.stage = .drained n) : Move s (.send start written) { s with
      stage := .reading n (start + (S.args n).maxWait) ⟨[], none, none⟩
      owed := if written then n :: s.owed else s.owed }
  | poll {check n deadline r} (hstage : s.stage = .reading n deadline r)
      (hphase : s.link.phase = .idle) (hbefore : check < deadline) :
      Move s (.poll check) { s with
        link := { s.link with phase := .looping .inWaiting }
        stage := .polling n deadline r check }
  | expire {check n deadline r} (hstage : s.stage = .reading n deadline r)
      (hpassed : ¬ check < deadline) :
      Move s (.poll check) (s.leave n (.returned (afterLoop crc registry (S.args n) r)))

section Inversion
variable {crc : Bytes → UInt16} {registry : Registry} {S : Session} {s t : TcpSession}

theorem sendReply_eq {n : ℕ} {bytes : Bytes} (h : s.sendReply n bytes = some t) :
    ¬ s.link.peerClosed = true ∧ t = { s with
      link := { s.link with socket := s.link.socket ++ bytes, sent := s.link.sent ++ bytes }
      line := s.line ++ lineBytes n bytes } := by
  obtain ⟨link, hlink, rfl⟩ := Option.map_eq_some_iff.mp h
  obtain ⟨hopen, hsend⟩ := Option.ite_none_left_eq_some.mp hlink
  cases hsend
  exact ⟨hopen, rfl⟩

theorem access_eq {c : TransportCall} {stage : TcpStage} (h : s.access c stage = some t) :
    s.link.phase = .idle ∧
      t = { s with link := { s.link with phase := .looping c }, stage := stage } := by
  obtain ⟨link, hlink, rfl⟩ := Option.map_eq_some_iff.mp h
  cases TcpLink.move_of_step hlink with
  | call hphase => exact ⟨hphase, rfl⟩

theorem resume_cases {now : ℚ} {r : Returned} (h : s.resume crc registry S now s.stage r = some t) :
    Resume crc registry S s now r t := by
  cases hstage : s.stage with
  | idle => rw [hstage] at h; cases r <;> cases h
  | drained n => rw [hstage] at h; cases r <;> cases h
  | reading n deadline r' => rw [hstage] at h; cases r <;> cases h
  | draining =>
    rw [hstage] at h
    cases r with
    | inWaiting k =>
      simp only [resume] at h
      split_ifs at h with hk
      · cases h
        rw [hk]
        exact .drain hstage
      · obtain ⟨_, rfl⟩ := access_eq h
        exact .discard hstage hk
    | connectionError message =>
      cases h
      exact .refused hstage
    | read size data => cases h
  | discarding =>
    rw [hstage] at h
    cases r with
    | read size data =>
      cases h
      exact .dropped hstage
    | inWaiting k => cases h
    | connectionError message => cases h
  | polling n deadline r' check =>
    rw [hstage] at h
    cases r with
    | inWaiting k =>
      simp only [resume] at h
      split_ifs at h with hk
      · cases h
        rw [hk]
        exact .idle hstage
      · obtain ⟨_, rfl⟩ := access_eq h
        exact .take hstage hk
    | connectionError message =>
      cases h
      exact .raised hstage
    | read size data => cases h
  | taking n deadline r' check =>
    rw [hstage] at h
    cases r with
    | read size data =>
      cases h
      exact .taken hstage
    | inWaiting k => cases h
    | connectionError message => cases h

theorem move_of_step {e : Event} (h : step crc registry S s e = some t) :
    Move crc registry S s e t := by
  cases e with
  | answer n =>
    obtain ⟨howed, ht⟩ := Option.ite_none_right_eq_some.mp h
    split at ht
    · cases ht
    · next bytes hframe =>
      obtain ⟨hopen, rfl⟩ := sendReply_eq ht
      exact .answer howed hframe hopen
  | lose n =>
    cases h
    exact .lose
  | duplicate n =>
    obtain ⟨hanswered, ht⟩ := Option.ite_none_right_eq_some.mp h
    split at ht
    · cases ht
    · next bytes hframe =>
      obtain ⟨hopen, rfl⟩ := sendReply_eq ht
      exact .duplicate hanswered hframe hopen
  | close =>
    cases h
    exact .close
  | start =>
    obtain ⟨hidle, ht⟩ := Option.ite_none_right_eq_some.mp h
    obtain ⟨hphase, rfl⟩ := access_eq ht
    exact .start hidle hphase
  | select ready =>
    obtain ⟨link, hlink, rfl⟩ := Option.map_eq_some_iff.mp h
    exact .select hlink
  | recv k =>
    obtain ⟨link, hlink, rfl⟩ := Option.map_eq_some_iff.mp h
    exact .recv hlink
  | resume now =>
    obtain ⟨hphase, ht⟩ := Option.ite_none_right_eq_some.mp h
    obtain ⟨r, hlog, ht⟩ := Option.bind_eq_some_iff.mp ht
    exact .resume hphase hlog (resume_cases ht)
  | send start written =>
    simp only [step] at h
    split at h
    · next n hstage =>
      cases h
      exact .send hstage
    · cases h
  | poll check =>
    simp only [step] at h
    split at h
    · next n deadline r hstage =>
      split_ifs at h with hbefore
      · obtain ⟨hphase, rfl⟩ := access_eq h
        exact .poll hstage hphase hbefore
      · cases h
        exact .expire hstage hbefore
    · cases h

end Inversion

end TcpSession

end PyVesc
