import PyVesc.Telemetry
import PyVesc.Transition

/-!
# The feed of statuses

`_on_message` beside threads that call `is_alive` of a node and `subscribe`. The receiving thread
reads the clock before it takes the lock and stores the status, and calls the subscribers one by one
after that, by their places in the list, so that it meets those that are added meanwhile. A watching
thread takes a snapshot first and reads the clock later.
-/

namespace PyVesc

/-- `age` of a snapshot, at a reading of the clock. -/
def NodeTelemetry.age (telem : NodeTelemetry) (name : StatusSlot) (now : ℚ) : Option ℚ :=
  (telem.stamps.lookup name).map fun stamp => now - stamp

/-- What `is_alive` makes of the age of the first status. -/
def withinAge (age : Option ℚ) (maxAge : ℚ) : Bool :=
  match age with
  | some age => decide (age ≤ maxAge)
  | none => false

/-- Where the receiving thread is in `_on_message`. -/
inductive FeedPhase where
  | idle
  /-- The clock has been read for a status that is not stored yet. -/
  | stamped (stamp : ℚ) (msg : CanMessage)
  /-- The next subscriber is the `i`-th. -/
  | notifying (c : ℕ) (obj : DecodedStatus) (i : ℕ)
  /-- A subscriber has raised, and nothing has caught it. -/
  | dead
  deriving DecidableEq, Repr

/-- A call of a subscriber, with the snapshot of the node that it finds. -/
structure SubscriberCall where
  subscriber : ℕ
  controllerId : ℕ
  obj : DecodedStatus
  telemetry : NodeTelemetry
  deriving DecidableEq, Repr

/-- A thread in `is_alive`, with the number of messages that its snapshot has seen. -/
structure Watch where
  controllerId : ℕ
  maxAge : ℚ
  telemetry : NodeTelemetry
  seen : ℕ
  deriving DecidableEq, Repr

/-- What a call of `is_alive` has returned at a time. -/
structure AliveCheck where
  controllerId : ℕ
  maxAge : ℚ
  seen : ℕ
  now : ℚ
  alive : Bool
  deriving DecidableEq, Repr

structure StatusFeed (ι : Type) where
  bus : BusState
  clock : ℚ
  phase : FeedPhase
  /-- The messages that have had their effect on the bus object. -/
  received : List (ℚ × CanMessage)
  /-- The number of statuses that all subscribers have been called with. -/
  told : ℕ
  /-- For each subscriber, how many statuses were told when it was added. -/
  subscribers : List ℕ
  called : List SubscriberCall
  watches : ι → Option Watch
  checks : List AliveCheck

namespace StatusFeed

variable {ι : Type}

def initial : StatusFeed ι := ⟨.initial, 0, .idle, [], 0, [], [], fun _ => none, []⟩

inductive Event (ι : Type) where
  | receive (now : ℚ) (msg : CanMessage)
  | store
  /-- The next subscriber is called, or there is none. -/
  | notify
  /-- The next subscriber is called and raises. -/
  | notifyRaises (caught : Bool)
  | subscribe
  | look (k : ι) (c : ℕ) (maxAge : ℚ)
  | check (k : ι) (now : ℚ)

/-- The next subscriber is called with the status. -/
def callSubscriber (s : StatusFeed ι) (c : ℕ) (obj : DecodedStatus) (i : ℕ) (next : FeedPhase) :
    StatusFeed ι :=
  { s with phase := next, called := s.called ++ [⟨i, c, obj, s.bus.telemetryOf c⟩] }

variable [DecidableEq ι] (crc : Bytes → UInt16)

/-- The message has its effect on the bus object. -/
def take (s : StatusFeed ι) (stamp : ℚ) (msg : CanMessage) (next : FeedPhase) : StatusFeed ι :=
  { s with
    bus := onMessage crc s.bus stamp msg
    phase := next
    received := s.received ++ [(stamp, msg)] }

def step (s : StatusFeed ι) : Event ι → Option (StatusFeed ι)
  | .receive now msg =>
    if s.clock ≤ now ∧ s.phase = .idle then
      match statusOf msg with
      | none => some { s.take crc now msg .idle with clock := now }
      | some _ => some { s with clock := now, phase := .stamped now msg }
    else none
  | .store =>
    match s.phase with
    | .stamped stamp msg =>
      match statusOf msg with
      | some (c, _, obj) => some (s.take crc stamp msg (.notifying c obj 0))
      | none => none
    | _ => none
  | .notify =>
    match s.phase with
    | .notifying c obj i =>
      if i < s.subscribers.length then some (s.callSubscriber c obj i (.notifying c obj (i + 1)))
      else some { s with phase := .idle, told := s.told + 1 }
    | _ => none
  | .notifyRaises caught =>
    match s.phase with
    | .notifying c obj i =>
      if i < s.subscribers.length then
        some { s.callSubscriber c obj i (if caught then .idle else .dead) with told := s.told + 1 }
      else none
    | _ => none
  | .subscribe => some { s with subscribers := s.subscribers ++ [s.told] }
  | .look k c maxAge =>
    match s.watches k with
    | none => some { s with
        watches := Function.update s.watches k
          (some ⟨c, maxAge, s.bus.telemetryOf c, s.received.length⟩) }
    | some _ => none
  | .check k now =>
    match s.watches k with
    | some w =>
      if s.clock ≤ now then
        some { s with
          clock := now
          watches := Function.update s.watches k none
          checks := s.checks ++ [⟨w.controllerId, w.maxAge, w.seen, now,
            withinAge (w.telemetry.age .status1 now) w.maxAge⟩] }
      else none
    | none => none

/-- What each event does where it can happen. -/
inductive Move (s : StatusFeed ι) : Event ι → StatusFeed ι → Prop
  | pass {now msg} (hclock : s.clock ≤ now) (hphase : s.phase = .idle)
      (hstatus : statusOf msg = none) :
      Move s (.receive now msg) { s.take crc now msg .idle with clock := now }
  | stamp {now msg c slot obj} (hclock : s.clock ≤ now) (hphase : s.phase = .idle)
      (hstatus : statusOf msg = some (c, slot, obj)) :
      Move s (.receive now msg) { s with clock := now, phase := .stamped now msg }
  | store {stamp msg c slot obj} (hphase : s.phase = .stamped stamp msg)
      (hstatus : statusOf msg = some (c, slot, obj)) :
      Move s .store (s.take crc stamp msg (.notifying c obj 0))
  | notify {c obj i} (hphase : s.phase = .notifying c obj i) (hi : i < s.subscribers.length) :
      Move s .notify (s.callSubscriber c obj i (.notifying c obj (i + 1)))
  | finish {c obj i} (hphase : s.phase = .notifying c obj i) (hi : s.subscribers.length ≤ i) :
      Move s .notify { s with phase := .idle, told := s.told + 1 }
  | raise {caught c obj i} (hphase : s.phase = .notifying c obj i)
      (hi : i < s.subscribers.length) :
      Move s (.notifyRaises caught)
        { s.callSubscriber c obj i (if caught then .idle else .dead) with told := s.told + 1 }
  | subscribe : Move s .subscribe { s with subscribers := s.subscribers ++ [s.told] }
  | look {k c maxAge} : Move s (.look k c maxAge) { s with
      watches := Function.update s.watches k
        (some ⟨c, maxAge, s.bus.telemetryOf c, s.received.length⟩) }
  | check {k now w} (hwatch : s.watches k = some w) (hclock : s.clock ≤ now) :
      Move s (.check k now) { s with
        clock := now
        watches := Function.update s.watches k none
        checks := s.checks ++ [⟨w.controllerId, w.maxAge, w.seen, now,
          withinAge (w.telemetry.age .status1 now) w.maxAge⟩] }

variable {crc} {s t : StatusFeed ι}

theorem move_of_step {e : Event ι} (h : step crc s e = some t) : Move crc s e t := by
  cases e with
  | receive now msg =>
    obtain ⟨⟨hclock, hphase⟩, ht⟩ := Option.ite_none_right_eq_some.mp h
    split at ht
    · next hstatus =>
      cases ht
      exact .pass hclock hphase hstatus
    · next status hstatus =>
      cases ht
      exact .stamp hclock hphase hstatus
  | store =>
    rw [step] at h
    split at h
    · next hphase =>
      split at h
      · next hstatus =>
        cases h
        exact .store hphase hstatus
      · cases h
    · cases h
  | notify =>
    rw [step] at h
    split at h
    · next hphase =>
      split_ifs at h with hi
      · cases h
        exact .notify hphase hi
      · cases h
        exact .finish hphase (not_lt.mp hi)
    · cases h
  | notifyRaises caught =>
    rw [step] at h
    split at h
    · next hphase =>
      obtain ⟨hi, ht⟩ := Option.ite_none_right_eq_some.mp h
      cases ht
      exact .raise hphase hi
    · cases h
  | subscribe =>
    cases h
    exact .subscribe
  | look k c maxAge =>
    rw [step] at h
    split at h
    · cases h
      exact .look
    · cases h
  | check k now =>
    rw [step] at h
    split at h
    · next hwatch =>
      obtain ⟨hclock, ht⟩ := Option.ite_none_right_eq_some.mp h
      cases ht
      exact .check hwatch hclock
    · cases h

end StatusFeed

end PyVesc
