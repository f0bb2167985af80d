import PyVesc.Crc16
import PyVesc.StatusFeed

/-!
# The watchdog of a node

`is_alive` tells in every run whether a first status of the node with all its data came in time. The
times of the messages do not decrease, so that the last one is the newest; frames that are too
short, of another node or of another kind do not count.
-/

namespace PyVesc

/-- In messages in the order of their times the last status is the newest. -/
theorem withinAge_lastStatus {events : List (ℚ × CanMessage)}
    (hsorted : events.Pairwise fun a b => a.1 ≤ b.1) (slot : StatusSlot) (c : ℕ) (now maxAge : ℚ) :
    withinAge ((lastStatus slot c events).map fun e => now - e.1) maxAge = true ↔
      ∃ e ∈ events, slot.Frame c e.2 ∧ now - e.1 ≤ maxAge := by
  rw [lastStatus]
  cases hlast : (events.filter fun e => slot.Frame c e.2).getLast? with
  | none =>
    have hnil := List.getLast?_eq_none_iff.mp hlast
    refine iff_of_false Bool.false_ne_true ?_
    rintro ⟨e, he, hframe, _⟩
    have hmem : e ∈ events.filter fun e => slot.Frame c e.2 :=
      List.mem_filter.mpr ⟨he, decide_eq_true hframe⟩
    rw [hnil] at hmem
    exact List.not_mem_nil hmem
  | some newest =>
    obtain ⟨hmem, hframe⟩ := List.mem_filter.mp (List.mem_of_getLast? hlast)
    obtain ⟨earlier, hfilter⟩ := List.getLast?_eq_some_iff.mp hlast
    refine decide_eq_true_iff.trans ⟨fun hage => ?_, ?_⟩
    · exact ⟨newest, hmem, of_decide_eq_true hframe, hage⟩
    · rintro ⟨e, he, hslot, hage⟩
      have hin : e ∈ earlier ++ [newest] := by
        rw [← hfilter]
        exact List.mem_filter.mpr ⟨he, decide_eq_true hslot⟩
      have hle : e.1 ≤ newest.1 := by
        have hpair := hsorted.filter fun e => decide (slot.Frame c e.2)
        rw [hfilter, List.pairwise_append] at hpair
        obtain hearlier | hlast := List.mem_append.mp hin
        · exact hpair.2.2 e hearlier newest (List.mem_singleton_self newest)
        · rw [List.mem_singleton.mp hlast]
      linarith

/-- A first status of the node that is young enough. -/
def RecentStatus (events : List (ℚ × CanMessage)) (c : ℕ) (now maxAge : ℚ) : Prop :=
  ∃ e ∈ events, StatusSlot.status1.Frame c e.2 ∧ now - e.1 ≤ maxAge

namespace StatusFeed

variable {ι : Type} {crc : Bytes → UInt16} {s t : StatusFeed ι}

/-- The stored messages, the snapshots that threads hold, and what was made of them. -/
structure Watched (s : StatusFeed ι) : Prop where
  word : LastWord s.received s.bus
  sorted : s.received.Pairwise fun a b => a.1 ≤ b.1
  before : ∀ e ∈ s.received, e.1 ≤ s.clock
  stamp : ∀ stamp msg, s.phase = .stamped stamp msg →
    stamp ≤ s.clock ∧ ∀ e ∈ s.received, e.1 ≤ stamp
  watches : ∀ k w, s.watches k = some w → w.seen ≤ s.received.length ∧
    w.telemetry.stamps.lookup .status1 =
      (lastStatus .status1 w.controllerId (s.received.take w.seen)).map fun e => e.1
  checks : ∀ check ∈ s.checks, check.seen ≤ s.received.length ∧
    (check.alive = true ↔
      RecentStatus (s.received.take check.seen) check.controllerId check.now check.maxAge)

theorem watched_initial : Watched (initial : StatusFeed ι) where
  word := lastWord_initial
  sorted := List.Pairwise.nil
  before _ h := absurd h List.not_mem_nil
  stamp _ _ h := by cases h
  watches _ _ h := by cases h
  checks _ h := absurd h List.not_mem_nil

/-- Nothing is received, and nobody looks. -/
theorem Watched.same (h : Watched s) (hbus : t.bus = s.bus) (hreceived : t.received = s.received)
    (hclock : s.clock ≤ t.clock) (hwatches : t.watches = s.watches) (hchecks : t.checks = s.checks)
    (hstamp : ∀ stamp msg, t.phase = .stamped stamp msg →
      s.phase = .stamped stamp msg ∨ stamp = t.clock) : Watched t := by
  have hbefore : ∀ e ∈ s.received, e.1 ≤ t.clock := fun e he => (h.before e he).trans hclock
  constructor
  · rw [hbus, hreceived]
    exact h.word
  · rw [hreceived]
    exact h.sorted
  · rw [hreceived]
    exact hbefore
  · intro stamp msg hphase
    rw [hreceived]
    obtain hold | rfl := hstamp stamp msg hphase
    · obtain ⟨hle, hall⟩ := h.stamp stamp msg hold
      exact ⟨hle.trans hclock, hall⟩
    · exact ⟨le_rfl, hbefore⟩
  · rw [hwatches, hreceived]
    exact h.watches
  · rw [hchecks, hreceived]
    exact h.checks

/-- A message has its effect, at a time that is no earlier than those before. -/
theorem Watched.take (h : Watched s) {stamp : ℚ} {msg : CanMessage}
    (hafter : ∀ e ∈ s.received, e.1 ≤ stamp) (hclock : stamp ≤ t.clock)
    (hbus : t.bus = onMessage crc s.bus stamp msg)
    (hreceived : t.received = s.received ++ [(stamp, msg)])
    (hwatches : t.watches = s.watches) (hchecks : t.checks = s.checks)
    (hphase : ∀ stamp msg, t.phase ≠ .stamped stamp msg) : Watched t := by
  have hlen {n : ℕ} (hn : n ≤ s.received.length) : n ≤ (s.received ++ [(stamp, msg)]).length := by
    rw [List.length_append]
    omega
  constructor
  · rw [hbus, hreceived]
    exact h.word.onMessage crc stamp msg
  · rw [hreceived, List.pairwise_append]
    refine ⟨h.sorted, List.pairwise_singleton _ _, fun a ha b hb => ?_⟩
    rw [List.mem_singleton.mp hb]
    exact hafter a ha
  · rw [hreceived]
    intro e he
    obtain hold | hnew := List.mem_append.mp he
    · exact (hafter e hold).trans hclock
    · rw [List.mem_singleton.mp hnew]
      exact hclock
  · exact fun stamp msg hstamped => absurd hstamped (hphase stamp msg)
  · rw [hwatches, hreceived]
    intro k w hw
    obtain ⟨hseen, hstamp⟩ := h.watches k w hw
    refine ⟨hlen hseen, ?_⟩
    rw [List.take_append_of_le_length hseen]
    exact hstamp
  · rw [hchecks, hreceived]
    intro check hcheck
    obtain ⟨hseen, halive⟩ := h.checks check hcheck
    refine ⟨hlen hseen, ?_⟩
    rw [List.take_append_of_le_length hseen]
    exact halive

variable [DecidableEq ι]

theorem Watched.look (h : Watched s) {k : ι} {c : ℕ} {maxAge : ℚ} :
    Watched { s with
      watches := Function.update s.watches k
        (some ⟨c, maxAge, s.bus.telemetryOf c, s.received.length⟩) } := by
  refine ⟨h.word, h.sorted, h.before, h.stamp, ?_, h.checks⟩
  refine (Function.forall_update_iff s.watches fun _ watch => ∀ w, watch = some w →
    w.seen ≤ s.received.length ∧ w.telemetry.stamps.lookup .status1 =
      (lastStatus .status1 w.controllerId (s.received.take w.seen)).map fun e => e.1).mpr
    ⟨fun w hw => ?_, fun j _ => h.watches j⟩
  cases hw
  refine ⟨le_rfl, ?_⟩
  rw [List.take_length]
  exact h.word.stamp c .status1

theorem Watched.check (h : Watched s) {k : ι} {w : Watch} {now : ℚ} (hwatch : s.watches k = some w)
    (hclock : s.clock ≤ now) : Watched { s with
      clock := now
      watches := Function.update s.watches k none
      checks := s.checks ++ [⟨w.controllerId, w.maxAge, w.seen, now,
        withinAge (w.telemetry.age .status1 now) w.maxAge⟩] } := by
  refine ⟨h.word, h.sorted, fun e he => (h.before e he).trans hclock, ?_, ?_, ?_⟩
  · intro stamp msg hphase
    obtain ⟨hle, hall⟩ := h.stamp stamp msg hphase
    exact ⟨hle.trans hclock, hall⟩
  · exact (Function.forall_update_iff s.watches fun _ watch => ∀ w, watch = some w →
      w.seen ≤ s.received.length ∧ w.telemetry.stamps.lookup .status1 =
        (lastStatus .status1 w.controllerId (s.received.take w.seen)).map fun e => e.1).mpr
      ⟨nofun, fun j _ => h.watches j⟩
  · intro check hcheck
    obtain hold | hnew := List.mem_append.mp hcheck
    · exact h.checks check hold
    · obtain ⟨hseen, hstamp⟩ := h.watches k w hwatch
      rw [List.mem_singleton.mp hnew]
      refine ⟨hseen, ?_⟩
      dsimp only
      rw [NodeTelemetry.age, hstamp, Option.map_map]
      exact withinAge_lastStatus (h.sorted.sublist (List.take_sublist _ _)) .status1 w.controllerId
        now w.maxAge

theorem Watched.step {e : Event ι} (h : Watched s) (hmove : Move crc s e t) : Watched t := by
  cases hmove with
  | @pass now msg hclock hphase hstatus =>
    refine h.take (fun e he => (h.before e he).trans hclock) le_rfl rfl rfl rfl rfl nofun
  | stamp hclock hphase hstatus =>
    refine h.same rfl rfl hclock rfl rfl fun stamp msg hstamped => ?_
    cases hstamped
    exact Or.inr rfl
  | store hphase hstatus =>
    obtain ⟨hle, hall⟩ := h.stamp _ _ hphase
    exact h.take hall hle rfl rfl rfl rfl nofun
  | notify | finish => exact h.same rfl rfl le_rfl rfl rfl nofun
  | @raise caught c obj i hphase hi =>
    refine h.same rfl rfl le_rfl rfl rfl fun stamp msg hstamped => ?_
    cases caught <;> cases hstamped
  | subscribe => exact h.same rfl rfl le_rfl rfl rfl fun _ _ => Or.inl
  | look => exact h.look
  | check hwatch hclock => exact h.check hwatch hclock

end StatusFeed

/-- The message that the receiving thread has read and not stored, with the time when it read it. -/
def FeedPhase.unstored : FeedPhase → List (ℚ × CanMessage)
  | .stamped stamp msg => [(stamp, msg)]
  | _ => []

namespace StatusFeed

variable {ι : Type} [DecidableEq ι] {crc : Bytes → UInt16} {s t : StatusFeed ι}

def Event.messages : Event ι → List (ℚ × CanMessage)
  | .receive now msg => [(now, msg)]
  | _ => []

/-- The messages in the order in which they came, with their times. -/
def messages (s : StatusFeed ι) : List (ℚ × CanMessage) := s.received ++ s.phase.unstored

theorem messages_step {e : Event ι} (hmove : Move crc s e t) :
    t.messages = s.messages ++ e.messages := by
  cases hmove with
  | pass _ hphase _ | stamp _ hphase _ | store hphase _ | notify hphase _ | finish hphase _ =>
    simp [messages, Event.messages, StatusFeed.take, callSubscriber, hphase, FeedPhase.unstored]
  | @raise caught c obj i hphase hi =>
    cases caught <;>
      simp [messages, Event.messages, callSubscriber, hphase, FeedPhase.unstored]
  | subscribe | look | check => exact (List.append_nil _).symm

/-- `is_alive` in any thread, whatever else happens: it returns `True` if and only if, among the
messages that had been taken in when it took its snapshot, there is a first status of the node, with
all its data, which at the time of the check is no older than `max_age_s`. The messages taken in are
those that came, each with the time when it came, but for one that is not stored yet. -/
theorem is_alive_iff (crc : Bytes → UInt16) (events : List (Event ι)) (t : StatusFeed ι)
    (hrun : Transition.run (step crc) initial events = some t) :
    t.received ++ t.phase.unstored = events.flatMap Event.messages ∧
    ∀ check ∈ t.checks, check.seen ≤ t.received.length ∧ (check.alive = true ↔
      RecentStatus (t.received.take check.seen) check.controllerId check.now check.maxAge) := by
  have hmessages := Transition.run_trace (fun s e u hstep => messages_step (move_of_step hstep))
    events initial t hrun
  have hwatched : Watched t := by
    apply Transition.run_preserves _ events initial t watched_initial hrun
    exact fun s e u hs hstep => hs.step (move_of_step hstep)
  exact ⟨hmessages, hwatched.checks⟩

/-- A node sends its first status, and a thread finds it alive; another one has taken its snapshot
before, and a third one is late. -/
def watching : List (Event (Fin 3)) :=
  [.look 0 7 (1 / 2), .receive 1 ⟨true, 0x907, [0, 0, 1, 0, 0, 10, 0, 20]⟩, .store, .notify,
    .look 1 7 (1 / 2), .check 1 (3 / 2), .check 0 (3 / 2), .look 2 7 (1 / 2), .check 2 2]

theorem is_alive_iff_watching : ∃ t,
    Transition.run (step Crc16.xmodem) initial watching = some t ∧
    t.checks.map AliveCheck.alive = [true, false, false] ∧
    ∀ check ∈ t.checks, check.seen ≤ t.received.length ∧ (check.alive = true ↔
      RecentStatus (t.received.take check.seen) check.controllerId check.now check.maxAge) := by
  have hview : (Transition.run (step Crc16.xmodem) initial watching).map
      (fun t => t.checks.map AliveCheck.alive) = some [true, false, false] := by
    decide +kernel
  obtain ⟨t, ht, hchecks⟩ := Option.map_eq_some_iff.mp hview
  exact ⟨t, ht, hchecks, (is_alive_iff Crc16.xmodem watching t ht).2⟩

end StatusFeed

end PyVesc
