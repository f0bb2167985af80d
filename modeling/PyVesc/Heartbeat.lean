import PyVesc.CleanStream
import PyVesc.Interface
import PyVesc.Messages
import PyVesc.Transition

/-!
# The heartbeat of a VESC object

The thread of `start_heartbeat` beside the caller of the object. A step is what one of the two does
up to the next point where the other may see it: the loop of the thread tests the event, sleeps, and
goes through `alive_msgs` by index, so that it meets messages that are registered meanwhile. A write
to the port is one step. Whether the port raises is the same to both, since that is logged. What a
call reads is left out.
-/

namespace PyVesc

variable (crc : Bytes → UInt16) (canId : Option ℕ)

/-- `encode(Alive(can_id=can_id))`. -/
def aliveMsg (canId : Option ℕ) : Py Bytes := do
  let msg ← Messages.alive.call [] canId true
  encode crc msg

/-- `encode_request(JumpToBootloader(can_id=can_id))`. -/
def jumpMsg (canId : Option ℕ) : Py Bytes := do
  let msg ← Messages.jumpToBootloader.call [] canId true
  encodeRequest crc msg

/-- `encode(SetRotorPositionMode(SetRotorPositionMode.DISP_POS_OFF, can_id=can_id))`. -/
def rotorMsg (canId : Option ℕ) : Py Bytes := do
  let msg ← Messages.setRotorPositionMode.call [.int 0] canId true
  encode crc msg

/-- Where `_heartbeat_cmd_func` is: at the test of its loop, asleep, or at an index of
`alive_msgs`. -/
inductive HeartbeatThread where
  | unstarted
  | looping
  | sleeping
  | sending (i : ℕ)
  | finished
  deriving DecidableEq, Repr

/-- What a method does after `stop_heartbeat`: `fw_jump_to_bootloader` writes its request,
`__exit__` flushes the port, which may raise, and closes it. -/
inductive AfterStop where
  | nothing
  | jump
  | exit (flushes : Bool)
  deriving DecidableEq, Repr

/-- Where the caller is: between two calls, in `start_heartbeat` behind the registration, or in
`stop_heartbeat` behind the setting of the event. -/
inductive Caller where
  | idle
  | starting
  | stopping (next : AfterStop)
  deriving DecidableEq, Repr

/-- What can be seen of the object. `stopped` is the return of `stop_heartbeat`, `refused` the
`RuntimeError` of a thread that is started again. -/
inductive Act where
  | heartbeat (msg : Bytes)
  | command (data : Bytes)
  | stopped
  | jump (data : Bytes)
  | close
  | refused
  deriving DecidableEq, Repr

structure Heartbeat where
  aliveMsgs : List Bytes
  /-- Whether the event `_stop_heartbeat` is set. -/
  stopHeartbeat : Bool
  thread : HeartbeatThread
  caller : Caller
  isOpen : Bool
  log : List Act
  /-- The length of `alive_msgs` at the end of every round of the thread. -/
  rounds : List ℕ
  deriving DecidableEq, Repr

namespace Heartbeat

/-- What `__init__` writes. -/
def initialLog (hasSensor : Bool) : Py (List Act) :=
  if hasSensor then (rotorMsg crc canId).map fun data => [.command data] else .ok []

/-- `__init__` up to `start_heartbeat`. -/
def initial (hasSensor : Bool) : Py Heartbeat := do
  let log ← initialLog crc canId hasSensor
  let msg ← aliveMsg crc canId
  return ⟨[msg], false, .unstarted, .idle, true, log, []⟩

inductive Event where
  | startHeartbeat (canId : Option ℕ)
  | startThread
  | stopHeartbeat (next : AfterStop)
  | leaveStop
  | command (payload : Bytes)
  | beat
  deriving DecidableEq, Repr

/-- `is_alive` of the thread. -/
def isAlive (s : Heartbeat) : Bool :=
  match s.thread with
  | .unstarted | .finished => false
  | _ => true

/-- The messages that `start_heartbeat` registers. A can id that does not fit into its byte raises
before. -/
def registered (target : Option ℕ) : Py (List Bytes) :=
  match target with
  | none => .ok []
  | some target => (aliveMsg crc (some target)).map fun msg => [msg]

def register (s : Heartbeat) (target : Option ℕ) : Heartbeat :=
  match registered crc target with
  | .ok msgs => { s with aliveMsgs := s.aliveMsgs ++ msgs, caller := .starting }
  | .error _ => s

def startThread (s : Heartbeat) : Heartbeat :=
  match s.thread with
  | .unstarted => { s with thread := .looping, caller := .idle }
  | .finished => { s with caller := .idle, log := s.log ++ [.refused] }
  | _ => { s with caller := .idle }

/-- The return of `stop_heartbeat` and what the method does next. -/
def afterStop (s : Heartbeat) (next : AfterStop) : Heartbeat :=
  let s := { s with caller := .idle, log := s.log ++ [.stopped] }
  match next with
  | .nothing => s
  | .jump =>
    match jumpMsg crc canId with
    | .ok data => { s with log := s.log ++ [.jump data] }
    | .error _ => s
  | .exit flushes =>
    if s.isOpen = true ∧ flushes = true then { s with isOpen := false, log := s.log ++ [.close] }
    else s

def command (s : Heartbeat) (payload : Bytes) : Heartbeat :=
  match frame crc payload with
  | .ok data => { s with log := s.log ++ [.command data] }
  | .error _ => s

/-- A step of the thread. -/
def beat (s : Heartbeat) : Option Heartbeat :=
  match s.thread with
  | .unstarted | .finished => none
  | .looping => some { s with thread := if s.stopHeartbeat then .finished else .sleeping }
  | .sleeping => some { s with thread := .sending 0 }
  | .sending i =>
    match s.aliveMsgs[i]? with
    | some msg => some { s with thread := .sending (i + 1), log := s.log ++ [.heartbeat msg] }
    | none => some { s with thread := .looping, rounds := s.rounds ++ [i] }

def step (s : Heartbeat) : Event → Option Heartbeat
  | .startHeartbeat target => if s.caller = .idle then some (s.register crc target) else none
  | .startThread => if s.caller = .starting then some s.startThread else none
  | .stopHeartbeat next =>
    if s.caller = .idle then some { s with stopHeartbeat := true, caller := .stopping next }
    else none
  | .leaveStop =>
    match s.caller with
    -- `join` waits for the thread; without a thread there is nothing to wait for
    | .stopping next => if s.isAlive then none else some (s.afterStop crc canId next)
    | _ => none
  | .command payload => if s.caller = .idle then some (s.command crc payload) else none
  | .beat => s.beat

/-- What a step does, with the steps of the thread one by one. -/
inductive Move (s : Heartbeat) : Event → Heartbeat → Prop
  | startHeartbeat {target} (hcaller : s.caller = .idle) :
      Move s (.startHeartbeat target) (s.register crc target)
  | startThread (hcaller : s.caller = .starting) : Move s .startThread s.startThread
  | stopHeartbeat {next} (hcaller : s.caller = .idle) :
      Move s (.stopHeartbeat next) { s with stopHeartbeat := true, caller := .stopping next }
  | leaveStop {next} (hcaller : s.caller = .stopping next) (hthread : s.isAlive = false) :
      Move s .leaveStop (s.afterStop crc canId next)
  | command {payload} (hcaller : s.caller = .idle) :
      Move s (.command payload) (s.command crc payload)
  | test (hthread : s.thread = .looping) :
      Move s .beat { s with thread := if s.stopHeartbeat then .finished else .sleeping }
  | wake (hthread : s.thread = .sleeping) : Move s .beat { s with thread := .sending 0 }
  | send {i msg} (hthread : s.thread = .sending i) (hmsg : s.aliveMsgs[i]? = some msg) :
      Move s .beat { s with thread := .sending (i + 1), log := s.log ++ [.heartbeat msg] }
  | turn {i} (hthread : s.thread = .sending i) (hmsg : s.aliveMsgs[i]? = none) :
      Move s .beat { s with thread := .looping, rounds := s.rounds ++ [i] }

theorem move_of_beat {s t : Heartbeat} (h : s.beat = some t) : Move crc canId s .beat t := by
  rw [beat] at h
  cases hthread : s.thread with
  | unstarted | finished =>
    rw [hthread] at h
    cases h
  | looping =>
    rw [hthread] at h
    cases h
    exact .test hthread
  | sleeping =>
    rw [hthread] at h
    cases h
    exact .wake hthread
  | sending i =>
    rw [hthread] at h
    dsimp only at h
    cases hmsg : s.aliveMsgs[i]? with
    | some msg =>
      rw [hmsg] at h
      cases h
      exact .send hthread hmsg
    | none =>
      rw [hmsg] at h
      cases h
      exact .turn hthread hmsg

theorem move_of_step {s t : Heartbeat} {e : Event} (h : step crc canId s e = some t) :
    Move crc canId s e t := by
  cases e with
  | startHeartbeat target =>
    obtain ⟨hcaller, ht⟩ := Option.ite_none_right_eq_some.mp h
    cases ht
    exact .startHeartbeat hcaller
  | startThread =>
    obtain ⟨hcaller, ht⟩ := Option.ite_none_right_eq_some.mp h
    cases ht
    exact .startThread hcaller
  | stopHeartbeat next =>
    obtain ⟨hcaller, ht⟩ := Option.ite_none_right_eq_some.mp h
    cases ht
    exact .stopHeartbeat hcaller
  | leaveStop =>
    rw [step] at h
    cases hcaller : s.caller with
    | stopping next =>
      rw [hcaller] at h
      dsimp only at h
      split_ifs at h with hthread
      cases h
      exact .leaveStop hcaller (Bool.eq_false_of_not_eq_true hthread)
    | _ =>
      rw [hcaller] at h
      cases h
  | command payload =>
    obtain ⟨hcaller, ht⟩ := Option.ite_none_right_eq_some.mp h
    cases ht
    exact .command hcaller
  | beat => exact move_of_beat crc canId h

end Heartbeat

end PyVesc
