import PyVesc.Crc16
import PyVesc.StatusFeed

/-!
# What the subscribers get

A subscriber that is added at any time, also while the others are being called, gets every status
from then on, each once and in the order in which they came. When it is called, the status is in the
store already.
-/

namespace PyVesc

/-- The node and the status that a message brings. -/
def statusFrom (msg : CanMessage) : Option (ℕ × DecodedStatus) :=
  (statusOf msg).map fun status => (status.1, status.2.2)

theorem slot_of_statusOf {msg : CanMessage} {c : ℕ} {slot : StatusSlot} {obj : DecodedStatus}
    (h : statusOf msg = some (c, slot, obj)) : obj = slot.decode msg.data := by
  have hframe := statusOf_of_frame (frame_of_statusOf h)
  rw [h] at hframe
  cases hframe
  rfl

/-- How many statuses the `j`-th subscriber has been called with since the start, had it been there:
those that were told to all, and the present one if its turn is over. -/
def FeedPhase.toldTo (phase : FeedPhase) (told j : ℕ) : ℕ :=
  match phase with
  | .notifying _ _ i => if j < i then told + 1 else told
  | _ => told

namespace StatusFeed

variable {ι : Type} {crc : Bytes → UInt16} {s t : StatusFeed ι}

def statuses (s : StatusFeed ι) : List (ℕ × DecodedStatus) :=
  s.received.filterMap fun e => statusFrom e.2

/-- What the `j`-th subscriber has been called with. -/
def callsOf (s : StatusFeed ι) (j : ℕ) : List (ℕ × DecodedStatus) :=
  (s.called.filter fun call => call.subscriber = j).map fun call => (call.controllerId, call.obj)

/-- The store has the status that the subscribers are being called with. -/
def Shown (bus : BusState) (c : ℕ) (obj : DecodedStatus) : Prop :=
  ∃ slot, obj.slot = some slot ∧ (bus.telemetryOf c).slots.lookup slot = some obj

/-- The statuses that are told to all, and the present one. -/
structure Rounds (s : StatusFeed ι) : Prop where
  current : ∀ c obj i, s.phase = .notifying c obj i →
    s.statuses = s.statuses.take s.told ++ [(c, obj)] ∧ i ≤ s.subscribers.length ∧
      Shown s.bus c obj
  between : (∀ c obj i, s.phase ≠ .notifying c obj i) → s.statuses.length = s.told
  told : s.told ≤ s.statuses.length
  since : ∀ since ∈ s.subscribers, since ≤ s.told

structure Told (s : StatusFeed ι) : Prop where
  rounds : Rounds s
  calls : ∀ j since, s.subscribers[j]? = some since →
    s.callsOf j = (s.statuses.take (s.phase.toldTo s.told j)).drop since
  later : ∀ j, s.subscribers.length ≤ j → s.callsOf j = []
  shown : ∀ call ∈ s.called, ∃ slot, call.obj.slot = some slot ∧
    call.telemetry.slots.lookup slot = some call.obj

theorem told_initial : Told (initial : StatusFeed ι) := by
  refine ⟨⟨nofun, fun _ => rfl, le_rfl, fun _ h => absurd h List.not_mem_nil⟩, nofun,
    fun _ _ => rfl, fun _ h => absurd h List.not_mem_nil⟩

theorem toldTo_of_not_notifying {phase : FeedPhase} (h : ∀ c obj i, phase ≠ .notifying c obj i)
    (told j : ℕ) : phase.toldTo told j = told := by
  cases phase with
  | notifying c obj i => exact absurd rfl (h c obj i)
  | _ => rfl

/-- Nothing happens to the feed, or it is between two rounds. -/
theorem Told.quiet (h : Told s) (hstatuses : t.statuses = s.statuses) (htold : t.told = s.told)
    (hsubscribers : t.subscribers = s.subscribers) (hcalled : t.called = s.called)
    (hphase : t.phase = s.phase ∧ t.bus = s.bus ∨
      (∀ c obj i, s.phase ≠ .notifying c obj i) ∧ ∀ c obj i, t.phase ≠ .notifying c obj i) :
    Told t := by
  have hto (j : ℕ) : t.phase.toldTo t.told j = s.phase.toldTo s.told j := by
    rw [htold]
    obtain ⟨hsame, _⟩ | ⟨hs, ht⟩ := hphase
    · rw [hsame]
    · rw [toldTo_of_not_notifying hs, toldTo_of_not_notifying ht]
  have hcalls (j : ℕ) : t.callsOf j = s.callsOf j := by
    rw [callsOf, hcalled]
    rfl
  refine ⟨⟨fun c obj i hnotifying => ?_, fun hnot => ?_, ?_, ?_⟩, fun j since hj => ?_, ?_, ?_⟩
  · obtain ⟨hsame, hbus⟩ | ⟨_, ht⟩ := hphase
    · rw [hstatuses, htold, hsubscribers, hbus]
      exact h.rounds.current c obj i (hsame ▸ hnotifying)
    · exact absurd hnotifying (ht c obj i)
  · rw [hstatuses, htold]
    obtain ⟨hsame, _⟩ | ⟨hs, _⟩ := hphase
    · exact h.rounds.between (hsame ▸ hnot)
    · exact h.rounds.between hs
  · rw [htold, hstatuses]
    exact h.rounds.told
  · rw [hsubscribers, htold]
    exact h.rounds.since
  · rw [hcalls, hto, hstatuses]
    exact h.calls j since (hsubscribers ▸ hj)
  · rw [hsubscribers]
    exact fun j hj => (hcalls j).trans (h.later j hj)
  · rw [hcalled]
    exact h.shown

theorem statuses_take {stamp : ℚ} {msg : CanMessage} {next : FeedPhase} :
    (s.take crc stamp msg next).statuses = s.statuses ++ (statusFrom msg).toList := by
  rw [statuses, StatusFeed.take]
  dsimp only
  rw [List.filterMap_append, List.filterMap_cons, List.filterMap_nil]
  cases statusFrom msg <;> rfl

/-- A status is stored, and the calls of the subscribers are to begin. -/
theorem Told.store (h : Told s) {stamp : ℚ} {msg : CanMessage} {c : ℕ} {slot : StatusSlot}
    {obj : DecodedStatus} (hphase : s.phase = .stamped stamp msg)
    (hstatus : statusOf msg = some (c, slot, obj)) :
    Told (s.take crc stamp msg (.notifying c obj 0)) := by
  have hbetween : ∀ c obj i, s.phase ≠ .notifying c obj i := by
    rw [hphase]
    nofun
  have hfrom : statusFrom msg = some (c, obj) := by
    rw [statusFrom, hstatus]
    rfl
  have htold := h.rounds.between hbetween
  have hstatuses : (s.take crc stamp msg (.notifying c obj 0)).statuses =
      s.statuses ++ [(c, obj)] := by
    rw [statuses_take, hfrom]
    rfl
  have htake : (s.statuses ++ [(c, obj)]).take s.told = s.statuses := by
    rw [List.take_append_of_le_length htold.ge, ← htold, List.take_length]
  refine ⟨⟨fun c' obj' i hnotifying => ?_, fun hnot => absurd rfl (hnot c obj 0), ?_,
    h.rounds.since⟩, fun j since hj => ?_, h.later, h.shown⟩
  · cases hnotifying
    rw [hstatuses]
    refine ⟨?_, Nat.zero_le _, slot, ?_, ?_⟩
    · exact congrArg (· ++ [(c, obj)]) htake.symm
    · rw [slot_of_statusOf hstatus]
      cases slot <;> rfl
    · change ((onMessage crc s.bus stamp msg).telemetryOf c).slots.lookup slot = some obj
      rw [telemetryOf_onMessage_of_frame crc (frame_of_statusOf hstatus), if_pos rfl]
      dsimp only
      rw [Dict.lookup_set, if_pos rfl, slot_of_statusOf hstatus]
  · rw [hstatuses, List.length_append, htold]
    exact Nat.le_succ s.told
  · have hcalls := h.calls j since hj
    rw [toldTo_of_not_notifying hbetween, ← htold, List.take_length] at hcalls
    rw [hstatuses]
    change s.callsOf j = ((s.statuses ++ [(c, obj)]).take s.told).drop since
    rw [htake]
    exact hcalls

theorem callsOf_callSubscriber (s : StatusFeed ι) (c : ℕ) (obj : DecodedStatus) (i : ℕ)
    (next : FeedPhase) (j : ℕ) : (s.callSubscriber c obj i next).callsOf j =
      s.callsOf j ++ if i = j then [(c, obj)] else [] := by
  rw [callsOf, callSubscriber]
  dsimp only
  rw [List.filter_append, List.map_append]
  by_cases hi : i = j
  · rw [if_pos hi, List.filter_singleton, decide_eq_true hi]
    rfl
  · rw [if_neg hi, List.filter_singleton, decide_eq_false hi]
    rfl

theorem Rounds.take_succ (h : Rounds s) {c : ℕ} {obj : DecodedStatus} {i : ℕ}
    (hphase : s.phase = .notifying c obj i) : s.statuses.take (s.told + 1) = s.statuses := by
  apply List.take_of_length_le
  rw [(h.current c obj i hphase).1, List.length_append, List.length_take_of_le h.told]
  rfl

/-- The next subscriber is called. -/
theorem Told.call (h : Told s) {c : ℕ} {obj : DecodedStatus} {i : ℕ}
    (hphase : s.phase = .notifying c obj i) (hi : i < s.subscribers.length) :
    Told (s.callSubscriber c obj i (.notifying c obj (i + 1))) := by
  obtain ⟨hlast, hle, hshown⟩ := h.rounds.current c obj i hphase
  refine ⟨⟨fun c' obj' i' hnotifying => ?_, fun hnot => absurd rfl (hnot c obj (i + 1)),
    h.rounds.told, h.rounds.since⟩, fun j since hj => ?_, fun j hj => ?_, fun call hcall => ?_⟩
  · cases hnotifying
    exact ⟨hlast, hi, hshown⟩
  · have hcalls := h.calls j since hj
    have hsince := h.rounds.since since (List.mem_of_getElem? hj)
    rw [callsOf_callSubscriber, hcalls, hphase]
    change _ = (s.statuses.take (if j < i + 1 then s.told + 1 else s.told)).drop since
    rw [FeedPhase.toldTo]
    obtain hlt | rfl | hgt := lt_trichotomy j i
    · rw [if_pos hlt, if_neg hlt.ne', if_pos (by omega), List.append_nil]
    · have hdrop : since ≤ (s.statuses.take s.told).length := by
        rw [List.length_take_of_le h.rounds.told]
        exact hsince
      rw [if_neg (lt_irrefl j), if_pos rfl, if_pos (Nat.lt_succ_self j),
        h.rounds.take_succ hphase, ← List.drop_append_of_le_length hdrop]
      exact congrArg (List.drop since) hlast.symm
    · rw [if_neg hgt.not_gt, if_neg hgt.ne, if_neg (by omega), List.append_nil]
  · rw [callsOf_callSubscriber, h.later j hj]
    have hne : i ≠ j := by
      have hj' : s.subscribers.length ≤ j := hj
      omega
    rw [if_neg hne, List.append_nil]
  · obtain hold | hnew := List.mem_append.mp hcall
    · exact h.shown call hold
    · rw [List.mem_singleton.mp hnew]
      exact hshown

/-- All subscribers have been called with the status. -/
theorem Told.finish (h : Told s) {c : ℕ} {obj : DecodedStatus} {i : ℕ}
    (hphase : s.phase = .notifying c obj i) (hi : s.subscribers.length ≤ i) :
    Told { s with phase := .idle, told := s.told + 1 } := by
  have hlength : s.statuses.length = s.told + 1 := by
    rw [(h.rounds.current c obj i hphase).1, List.length_append,
      List.length_take_of_le h.rounds.told]
    rfl
  refine ⟨⟨nofun, fun _ => hlength, hlength.ge, fun since hs => ?_⟩, fun j since hj => ?_, h.later,
    h.shown⟩
  · exact Nat.le_succ_of_le (h.rounds.since since hs)
  · have hcalls := h.calls j since hj
    have hlt : j < i := (List.getElem?_eq_some_iff.mp hj).1.trans_le hi
    rw [hphase, FeedPhase.toldTo, if_pos hlt] at hcalls
    exact hcalls

theorem Told.subscribe (h : Told s) : Told { s with subscribers := s.subscribers ++ [s.told] } := by
  have hmore : s.subscribers.length ≤ (s.subscribers ++ [s.told]).length := by
    rw [List.length_append]
    omega
  refine ⟨⟨fun c obj i hphase => ?_, h.rounds.between, h.rounds.told, fun since hs => ?_⟩,
    fun j since hj => ?_, fun j hj => h.later j (hmore.trans hj), h.shown⟩
  · obtain ⟨hlast, hi, hshown⟩ := h.rounds.current c obj i hphase
    exact ⟨hlast, hi.trans hmore, hshown⟩
  · obtain hold | hnew := List.mem_append.mp hs
    · exact h.rounds.since since hold
    · exact (List.mem_singleton.mp hnew).le
  · change (s.subscribers ++ [s.told])[j]? = some since at hj
    by_cases hlt : j < s.subscribers.length
    · rw [List.getElem?_append_left hlt] at hj
      exact h.calls j since hj
    · -- the one that is new, and whose turn is still to come
      have hto : s.phase.toldTo s.told j = s.told := by
        cases hphase : s.phase with
        | notifying c obj i =>
          have hi := (h.rounds.current c obj i hphase).2.1
          exact if_neg (by omega)
        | _ => rfl
      rw [List.getElem?_append_right (not_lt.mp hlt)] at hj
      have hsince := List.mem_singleton.mp (List.mem_of_getElem? hj)
      change s.callsOf j = (s.statuses.take (s.phase.toldTo s.told j)).drop since
      rw [h.later j (not_lt.mp hlt), hto, hsince]
      exact (List.drop_eq_nil_of_le (List.length_take_le _ _)).symm

theorem Told.step [DecidableEq ι] {e : Event ι} (h : Told s) (hmove : Move crc s e t)
    (hraise : ∀ caught, e ≠ .notifyRaises caught) : Told t := by
  cases hmove with
  | @pass now msg _ hphase hstatus =>
    have hstatuses : (s.take crc now msg .idle).statuses = s.statuses := by
      rw [statuses_take, statusFrom, hstatus]
      exact List.append_nil _
    exact h.quiet hstatuses rfl rfl rfl (Or.inr ⟨by rw [hphase]; nofun, nofun⟩)
  | stamp _ hphase hstatus =>
    exact h.quiet rfl rfl rfl rfl (Or.inr ⟨by rw [hphase]; nofun, nofun⟩)
  | store hphase hstatus => exact h.store hphase hstatus
  | notify hphase hi => exact h.call hphase hi
  | finish hphase hi => exact h.finish hphase hi
  | raise => exact absurd rfl (hraise _)
  | subscribe => exact h.subscribe
  | look | check => exact h.quiet rfl rfl rfl rfl (Or.inl ⟨rfl, rfl⟩)

/-- As long as no subscriber raises: each of them has been called with every status from its
subscription on, the present one at its turn, in the order in which they came and none twice; and
the snapshot that it finds has the status already. -/
theorem subscribers_miss_nothing [DecidableEq ι] (crc : Bytes → UInt16) (events : List (Event ι))
    (hraise : ∀ caught, .notifyRaises caught ∉ events) (t : StatusFeed ι)
    (hrun : Transition.run (step crc) initial events = some t) :
    (∀ j since, t.subscribers[j]? = some since →
      t.callsOf j = (t.statuses.take (t.phase.toldTo t.told j)).drop since ∧
      ((∀ c obj i, t.phase ≠ .notifying c obj i) → t.callsOf j = t.statuses.drop since)) ∧
    ∀ call ∈ t.called, ∃ slot, call.obj.slot = some slot ∧
      call.telemetry.slots.lookup slot = some call.obj := by
  have hmeets : Transition.Meets (step crc) (fun _ e => ∀ caught, e ≠ .notifyRaises caught)
      (initial : StatusFeed ι) events := by
    apply Transition.meets_of_forall
    rintro e he _ caught rfl
    exact hraise caught he
  have htold : Told t := Transition.run_invariant
    (fun s e u hs hcond hstep => hs.step (move_of_step hstep) hcond) events initial t told_initial
    hmeets hrun
  refine ⟨fun j since hj => ?_, htold.shown⟩
  have hcalls := htold.calls j since hj
  refine ⟨hcalls, fun hbetween => ?_⟩
  rw [toldTo_of_not_notifying hbetween, ← htold.rounds.between hbetween, List.take_length] at hcalls
  exact hcalls

/-- A second subscriber is added while the first one is being called, and a third one behind the
round. -/
def subscribing : List (Event Unit) :=
  [.subscribe, .receive 1 ⟨true, 0x907, [0, 0, 1, 0, 0, 10, 0, 20]⟩, .store, .notify, .subscribe,
    .notify, .notify, .subscribe, .receive 2 ⟨true, 0x1b08, [0, 0, 0, 9, 0, 120]⟩, .store, .notify,
    .notify, .notify, .notify]

theorem subscribers_miss_nothing_subscribing : ∃ t,
    Transition.run (step Crc16.xmodem) initial subscribing = some t ∧
    t.subscribers = [0, 0, 1] ∧ t.callsOf 1 = t.statuses ∧ t.callsOf 2 = t.statuses.drop 1 ∧
    t.statuses.length = 2 := by
  have hview : (Transition.run (step Crc16.xmodem) initial subscribing).map
      (fun t => (t.subscribers, t.phase, t.statuses.length)) = some ([0, 0, 1], .idle, 2) := by
    decide +kernel
  obtain ⟨t, ht, htold⟩ := Option.map_eq_some_iff.mp hview
  obtain ⟨hsubscribers, hrest⟩ := Prod.mk.inj htold
  obtain ⟨hidle, hlength⟩ := Prod.mk.inj hrest
  have hraise : ∀ caught, Event.notifyRaises caught ∉ subscribing := by
    intro caught h
    simp [subscribing] at h
  have hbetween : ∀ c obj i, t.phase ≠ .notifying c obj i := by
    rw [hidle]
    nofun
  obtain ⟨hcalls, _⟩ := subscribers_miss_nothing Crc16.xmodem subscribing hraise t ht
  refine ⟨t, ht, hsubscribers, ?_, ?_, hlength⟩
  · exact (hcalls 1 0 (by rw [hsubscribers]; rfl)).2 hbetween
  · exact (hcalls 2 1 (by rw [hsubscribers]; rfl)).2 hbetween

end StatusFeed

end PyVesc
