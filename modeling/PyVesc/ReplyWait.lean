import PyVesc.Crc16
import PyVesc.TunnelNet

/-!
# Waiting for a reply over the CAN tunnel

One call of `comm_request(c, payload, timeout)`, from the moment at which it has cleared the reply
slot. The receiving thread processes messages at any time. The call sends its frames and then wakes
up and looks at the slot, again and again; a wake-up is one step, with the look at the clock that
follows where the slot holds no reply of `c`.

The slot holds one reply. A reply of `c` that is overwritten before the call wakes up is lost.
-/

namespace PyVesc

variable (crc : Bytes → UInt16) (c : ℕ) (timeout : ℚ)

inductive WaitPhase where
  | sending
  | waiting (deadline : ℚ)
  | done (result : Option Bytes)
  deriving DecidableEq, Repr

structure ReplyWait where
  bus : BusState
  clock : ℚ
  phase : WaitPhase
  /-- Whether a short reply of the node has been processed in time. -/
  heard : Bool
  /-- What replies of the node that have been processed carried. -/
  replies : List Bytes
  deriving DecidableEq

/-- The sender and the payload that a message puts into the reply slot. -/
def published (buf : Bytes) (msg : CanMessage) : Option (ℕ × Bytes) :=
  if tunnelForHost msg then
    (onTunnelFrame crc (BusState.initial.withBuf buf) (splitArbitrationId msg.arbitrationId).1
      msg.data).commReply
  else none

/-- A complete short reply of the node. -/
def shortReplyOf (msg : CanMessage) : Bool :=
  tunnelForHost msg &&
    decide ((splitArbitrationId msg.arbitrationId).1 = CanPacketId.processShortBuffer.value ∧
      3 ≤ msg.data.length ∧ msg.data.head?.map UInt8.toNat = some c)

theorem onTunnelFrame_published (s : BusState) (packetId : ℕ) (data : Bytes) :
    (onTunnelFrame crc s packetId data).commReply =
      ((onTunnelFrame crc (BusState.initial.withBuf s.commBuf) packetId data).commReply).or
        s.commReply ∧
    (onTunnelFrame crc s packetId data).commEvent =
      ((onTunnelFrame crc (BusState.initial.withBuf s.commBuf) packetId data).commReply.isSome ||
        s.commEvent) := by
  unfold onTunnelFrame
  split_ifs
  · split <;> exact ⟨rfl, rfl⟩
  · split <;> exact ⟨rfl, rfl⟩
  · split <;> exact ⟨rfl, rfl⟩
  · split
    · dsimp only [BusState.withBuf]
      split_ifs <;> exact ⟨rfl, rfl⟩
    · exact ⟨rfl, rfl⟩
  · exact ⟨rfl, rfl⟩

/-- A message changes the slot and the event only by publishing a reply. -/
theorem onMessage_published (s : BusState) (now : ℚ) (msg : CanMessage) :
    (onMessage crc s now msg).commReply = (published crc s.commBuf msg).or s.commReply ∧
      (onMessage crc s now msg).commEvent =
        ((published crc s.commBuf msg).isSome || s.commEvent) := by
  by_cases h : tunnelForHost msg = true
  · rw [onMessage_tunnel crc h, published, if_pos h]
    exact onTunnelFrame_published crc s _ _
  · have hcomm := comm_onMessage crc (Bool.eq_false_iff.mpr h) s now
    rw [published, if_neg h]
    simp only [BusState.comm, Prod.mk.injEq] at hcomm
    exact hcomm.2

theorem published_shortReply {msg : CanMessage} (h : shortReplyOf c msg = true) (buf : Bytes) :
    ∃ payload, published crc buf msg = some (c, payload) := by
  rw [shortReplyOf, Bool.and_eq_true, decide_eq_true_iff] at h
  obtain ⟨hhost, hid, hlen, hsender⟩ := h
  rw [published, if_pos hhost, hid]
  cases hdata : msg.data with
  | nil =>
    rw [hdata] at hlen
    exact absurd hlen (by decide)
  | cons sender rest =>
    rw [hdata] at hlen hsender
    cases rest with
    | nil =>
      rw [List.length_singleton] at hlen
      omega
    | cons flag payload =>
      have hne : payload ≠ [] := by
        rintro rfl
        simp only [List.length_cons, List.length_nil] at hlen
        omega
      rw [onTunnelFrame_short crc _ sender flag hne]
      exact ⟨payload, by rw [← Option.some.inj hsender]; rfl⟩

namespace ReplyWait

/-- The call has just cleared the slot of a bus. -/
def initial (bus : BusState) (start : ℚ) : ReplyWait :=
  ⟨bus.clearReply, start, .sending, false, []⟩

inductive Event where
  | receive (now : ℚ) (msg : CanMessage)
  /-- A frame cannot be sent: the bus is dead. -/
  | sendFails (now : ℚ)
  /-- The last frame is sent, then the clock is read for the first time. -/
  | enter (sent checked : ℚ)
  | wake (now : ℚ)
  deriving DecidableEq, Repr

def inTime (s : ReplyWait) (now : ℚ) : Bool :=
  match s.phase with
  | .sending => true
  | .waiting deadline => decide (now < deadline)
  | .done _ => false

def receive (s : ReplyWait) (now : ℚ) (msg : CanMessage) : ReplyWait where
  bus := onMessage crc s.bus now msg
  clock := now
  phase := s.phase
  heard := s.heard || (shortReplyOf c msg && s.inTime now)
  replies :=
    match published crc s.bus.commBuf msg with
    | some (sender, payload) => if sender = c then payload :: s.replies else s.replies
    | none => s.replies

/-- `remaining <= 0`, or the next wait. -/
def waitUntil (s : ReplyWait) (deadline now : ℚ) : ReplyWait :=
  { s with clock := now, phase := if deadline - now ≤ 0 then .done none else .waiting deadline }

def wake (s : ReplyWait) (deadline now : ℚ) : ReplyWait :=
  match s.bus.commReply with
  | some (sender, reply) =>
    if sender = c then { s with clock := now, phase := .done (some reply) }
    else waitUntil { s with bus := s.bus.clearReply } deadline now
  | none => s.waitUntil deadline now

/-- A wait ends when the event is set or the time is over. -/
def step (s : ReplyWait) : Event → Option ReplyWait
  | .receive now msg => if s.clock ≤ now then some (s.receive crc c now msg) else none
  | .sendFails now =>
    if s.clock ≤ now ∧ s.phase = .sending then some { s with clock := now, phase := .done none }
    else none
  | .enter sent checked =>
    if s.clock ≤ sent ∧ sent ≤ checked ∧ s.phase = .sending then
      some (s.waitUntil (sent + timeout) checked)
    else none
  | .wake now =>
    match s.phase with
    | .waiting deadline =>
      if s.clock ≤ now ∧ (s.bus.commEvent = true ∨ deadline ≤ now) then some (s.wake c deadline now)
      else none
    | _ => none

/-- Once a short reply of the node has been processed, no frame fails to be sent, the first look at
the clock is in time, and no wake-up finds the reply of another node in the slot. -/
def Undisturbed (s : ReplyWait) : Event → Prop
  | .receive _ _ => True
  | .sendFails _ => s.heard = false
  | .enter sent checked => s.heard = true → checked < sent + timeout
  | .wake _ => s.heard = true → ∀ sender reply, s.bus.commReply = some (sender, reply) → sender = c

structure Inv (s : ReplyWait) : Prop where
  slot : ∀ reply, s.bus.commReply = some (c, reply) → reply ∈ s.replies
  kept : s.heard = true → (∃ reply ∈ s.replies, s.phase = .done (some reply)) ∨
    (∀ result, s.phase ≠ .done result) ∧ s.bus.commEvent = true ∧ s.bus.commReply.isSome = true

variable {crc c timeout}

theorem inv_initial (bus : BusState) (start : ℚ) : Inv c (initial bus start) := by
  constructor
  · intro reply h
    cases h
  · intro h
    cases h

theorem Inv.receive {s : ReplyWait} (h : Inv c s) (now : ℚ) (msg : CanMessage) :
    Inv c (s.receive crc c now msg) := by
  obtain ⟨hreply, hevent⟩ := onMessage_published crc s.bus now msg
  constructor
  · intro reply hslot
    change (onMessage crc s.bus now msg).commReply = _ at hslot
    unfold ReplyWait.receive
    dsimp only
    rw [hreply] at hslot
    cases hpub : published crc s.bus.commBuf msg with
    | none =>
      rw [hpub, Option.none_or] at hslot
      exact h.slot reply hslot
    | some found =>
      rw [hpub, Option.some_or] at hslot
      cases hslot
      simp only [if_true]
      exact List.mem_cons_self
  · intro hheard
    have hmono : ∀ reply ∈ s.replies, reply ∈ (s.receive crc c now msg).replies := by
      intro reply hmem
      unfold ReplyWait.receive
      dsimp only
      split
      · split_ifs
        · exact List.mem_cons_of_mem _ hmem
        · exact hmem
      · exact hmem
    change (s.heard || (shortReplyOf c msg && s.inTime now)) = true at hheard
    change _ ∨ _ ∧ (onMessage crc s.bus now msg).commEvent = true ∧
      (onMessage crc s.bus now msg).commReply.isSome = true
    rw [hreply, hevent]
    rcases Bool.or_eq_true _ _ |>.mp hheard with hold | hnew
    · rcases h.kept hold with ⟨reply, hmem, hdone⟩ | ⟨hphase, hset, hsome⟩
      · exact Or.inl ⟨reply, hmono reply hmem, hdone⟩
      · apply Or.inr
        refine ⟨hphase, by rw [hset, Bool.or_true], ?_⟩
        rw [Option.isSome_or, hsome, Bool.or_true]
    · obtain ⟨hshort, htime⟩ := Bool.and_eq_true _ _ |>.mp hnew
      obtain ⟨payload, hpub⟩ := published_shortReply crc c hshort s.bus.commBuf
      apply Or.inr
      refine ⟨fun result hdone => ?_, by rw [hpub]; rfl, by rw [hpub]; rfl⟩
      rw [inTime, show s.phase = .done result from hdone] at htime
      cases htime

theorem Inv.waitUntil {s : ReplyWait} (h : Inv c s) {deadline now : ℚ}
    (hphase : s.heard = true → now < deadline ∧ ∀ result, s.phase ≠ .done result) :
    Inv c (s.waitUntil deadline now) := by
  constructor
  · exact h.slot
  · intro hheard
    obtain ⟨hlt, hnot⟩ := hphase hheard
    have hremaining : ¬ deadline - now ≤ 0 := by linarith
    rcases h.kept hheard with ⟨reply, _, hdone⟩ | ⟨_, hset, hsome⟩
    · exact absurd hdone (hnot _)
    · refine Or.inr ⟨fun result => ?_, hset, hsome⟩
      rw [ReplyWait.waitUntil, if_neg hremaining]
      intro hdone
      cases hdone

theorem step_wake {s t : ReplyWait} {now : ℚ} (h : step crc c timeout s (.wake now) = some t) :
    ∃ deadline, s.phase = .waiting deadline ∧ t = s.wake c deadline now := by
  rw [step] at h
  split at h
  · next deadline hphase =>
    obtain ⟨_, ht⟩ := Option.ite_none_right_eq_some.mp h
    cases ht
    exact ⟨deadline, hphase, rfl⟩
  · cases h

theorem wake_own {s : ReplyWait} {reply : Bytes} (h : s.bus.commReply = some (c, reply))
    (deadline now : ℚ) :
    s.wake c deadline now = { s with clock := now, phase := .done (some reply) } := by
  rw [wake, h]
  exact if_pos rfl

theorem inv_step (s : ReplyWait) (e : Event) (t : ReplyWait) (h : Inv c s)
    (hcond : Undisturbed c timeout s e) (hstep : step crc c timeout s e = some t) : Inv c t := by
  cases e with
  | receive now msg =>
    obtain ⟨_, ht⟩ := Option.ite_none_right_eq_some.mp hstep
    cases ht
    exact h.receive now msg
  | sendFails now =>
    obtain ⟨_, ht⟩ := Option.ite_none_right_eq_some.mp hstep
    cases ht
    constructor
    · exact h.slot
    · intro hheard
      rw [show s.heard = false from hcond] at hheard
      cases hheard
  | enter sent checked =>
    obtain ⟨⟨_, _, hphase⟩, ht⟩ := Option.ite_none_right_eq_some.mp hstep
    cases ht
    apply h.waitUntil
    intro hheard
    refine ⟨hcond hheard, fun result hdone => ?_⟩
    rw [hphase] at hdone
    cases hdone
  | wake now =>
    obtain ⟨deadline, hphase, rfl⟩ := step_wake hstep
    cases hslot : s.bus.commReply with
    | none =>
      rw [wake, hslot]
      apply h.waitUntil
      intro hheard
      rcases h.kept hheard with ⟨reply, _, hdone⟩ | ⟨_, _, hsome⟩
      · rw [hphase] at hdone
        cases hdone
      · rw [hslot] at hsome
        cases hsome
    | some found =>
      obtain ⟨sender, reply⟩ := found
      by_cases hsender : sender = c
      · rw [hsender] at hslot
        rw [wake_own hslot]
        constructor
        · exact h.slot
        · intro _
          exact Or.inl ⟨reply, h.slot reply hslot, rfl⟩
      · have hunheard : s.heard ≠ true := fun hheard => hsender (hcond hheard sender reply hslot)
        rw [wake, hslot]
        simp only [if_neg hsender]
        constructor
        · intro reply' hslot'
          cases hslot'
        · intro hheard
          exact absurd hheard hunheard

/-- In a run that is not disturbed, a call of which a short reply has been processed in time does
not end without a reply of the node; while it waits, its next wake-up returns one. -/
theorem reply_not_lost (crc : Bytes → UInt16) (c : ℕ) (timeout : ℚ) (bus : BusState) (start : ℚ)
    (events : List Event) (t : ReplyWait)
    (hmeets : Transition.Meets (step crc c timeout) (Undisturbed c timeout) (initial bus start)
      events)
    (hrun : Transition.run (step crc c timeout) (initial bus start) events = some t)
    (hheard : t.heard = true) :
    (∀ result, t.phase = .done result → ∃ reply ∈ t.replies, result = some reply) ∧
    ∀ deadline now, t.phase = .waiting deadline → t.clock ≤ now →
      Undisturbed c timeout t (.wake now) → ∃ reply ∈ t.replies, ∃ u,
        step crc c timeout t (.wake now) = some u ∧ u.phase = .done (some reply) := by
  have hinv := Transition.run_invariant inv_step events _ t (inv_initial bus start) hmeets hrun
  constructor
  · intro result hdone
    rcases hinv.kept hheard with ⟨reply, hmem, hreply⟩ | ⟨hnot, _⟩
    · rw [hdone] at hreply
      cases hreply
      exact ⟨reply, hmem, rfl⟩
    · exact absurd hdone (hnot result)
  · intro deadline now hphase hclock hwake
    rcases hinv.kept hheard with ⟨reply, _, hdone⟩ | ⟨_, hset, hsome⟩
    · rw [hphase] at hdone
      cases hdone
    · obtain ⟨⟨sender, reply⟩, hslot⟩ := Option.isSome_iff_exists.mp hsome
      obtain rfl := hwake hheard sender reply hslot
      refine ⟨reply, hinv.slot reply hslot,
        { t with clock := now, phase := .done (some reply) }, ?_, rfl⟩
      rw [step, hphase]
      dsimp only
      rw [if_pos ⟨hclock, Or.inl hset⟩, wake_own hslot]

/-- Once a short reply of the node has been processed, no other node puts a reply into the slot. -/
def Alone (crc : Bytes → UInt16) (c : ℕ) (timeout : ℚ) (s : ReplyWait) : Event → Prop
  | .receive _ msg => s.heard = true → ∀ sender reply,
      published crc s.bus.commBuf msg = some (sender, reply) → sender = c
  | .wake _ => True
  | e => Undisturbed c timeout s e

def Own (c : ℕ) (s : ReplyWait) : Prop :=
  s.heard = true → ∀ sender reply, s.bus.commReply = some (sender, reply) → sender = c

theorem own_step (s : ReplyWait) (e : Event) (t : ReplyWait) (h : Own c s)
    (hcond : Alone crc c timeout s e) (hstep : step crc c timeout s e = some t) : Own c t := by
  cases e with
  | receive now msg =>
    obtain ⟨_, ht⟩ := Option.ite_none_right_eq_some.mp hstep
    cases ht
    intro hheard sender reply hslot
    change (onMessage crc s.bus now msg).commReply = _ at hslot
    rw [(onMessage_published crc s.bus now msg).1] at hslot
    change (s.heard || (shortReplyOf c msg && s.inTime now)) = true at hheard
    cases hpub : published crc s.bus.commBuf msg with
    | none =>
      rw [hpub, Option.none_or] at hslot
      rcases Bool.or_eq_true _ _ |>.mp hheard with hold | hnew
      · exact h hold sender reply hslot
      · obtain ⟨payload, hsome⟩ := published_shortReply crc c
          (Bool.and_eq_true _ _ |>.mp hnew).1 s.bus.commBuf
        rw [hpub] at hsome
        cases hsome
    | some found =>
      rw [hpub, Option.some_or] at hslot
      cases hslot
      rcases Bool.or_eq_true _ _ |>.mp hheard with hold | hnew
      · exact hcond hold sender reply hpub
      · obtain ⟨payload, hsome⟩ := published_shortReply crc c
          (Bool.and_eq_true _ _ |>.mp hnew).1 s.bus.commBuf
        rw [hpub] at hsome
        cases hsome
        rfl
  | sendFails now =>
    obtain ⟨_, ht⟩ := Option.ite_none_right_eq_some.mp hstep
    cases ht
    exact h
  | enter sent checked =>
    obtain ⟨_, ht⟩ := Option.ite_none_right_eq_some.mp hstep
    cases ht
    exact h
  | wake now =>
    obtain ⟨deadline, _, rfl⟩ := step_wake hstep
    unfold wake
    split
    · split_ifs
      · exact h
      · intro _ sender reply hslot
        cases hslot
    · exact h

theorem undisturbed_of_alone (bus : BusState) (start : ℚ) (events : List Event)
    (hmeets : Transition.Meets (step crc c timeout) (Alone crc c timeout) (initial bus start)
      events) :
    Transition.Meets (step crc c timeout) (Undisturbed c timeout) (initial bus start) events := by
  apply Transition.meets_of_invariant (Own c) own_step _ events _ _ hmeets
  · intro s e hown hcond
    cases e with
    | wake now => exact hown
    | receive now msg => trivial
    | sendFails now => exact hcond
    | enter sent checked => exact hcond
  · intro hheard
    cases hheard

/-! ### Two runs of one call -/

/-- A short reply in the tunnel to the host. -/
def shortReply (sender : UInt8) (payload : Bytes) : CanMessage :=
  ⟨true, 0x8fe, sender :: 0 :: payload⟩

/-- A late reply of another node is found and dropped, and then the reply comes in. -/
def answered : List Event :=
  [.enter 0 0, .receive (1 / 10) (shortReply 9 [4, 1]), .wake (1 / 5),
    .receive (3 / 10) (shortReply 7 [0, 5, 3]), .wake (2 / 5)]

/-- The reply has not been processed, or the call wakes up. -/
def unheard (s : ReplyWait) : Event → Bool
  | .wake _ => true
  | _ => !s.heard

theorem alone_of_unheard {crc : Bytes → UInt16} {c : ℕ} {timeout : ℚ} (s : ReplyWait) (e : Event)
    (h : s.unheard e = true) : Alone crc c timeout s e := by
  cases e with
  | wake => trivial
  | receive | enter =>
    intro hheard
    change (!s.heard) = true at h
    rw [hheard] at h
    cases h
  | sendFails => exact Bool.not_eq_true' _ |>.mp h

theorem reply_not_lost_answered : ∃ t,
    Transition.run (step Crc16.xmodem 7 (1 / 2)) (initial .initial 0) answered = some t ∧
      t.heard = true ∧ ∃ result, t.phase = .done result ∧ ∃ reply ∈ t.replies,
        result = some reply := by
  have hguarded : (Transition.run
      (fun s e => if s.unheard e then step Crc16.xmodem 7 (1 / 2) s e else none)
      (initial .initial 0) answered).map (fun t => (t.heard, t.phase)) =
        some (true, .done (some [0, 5, 3])) := by decide +kernel
  obtain ⟨t, hguarded, hview⟩ := Option.map_eq_some_iff.mp hguarded
  obtain ⟨hmeets, ht⟩ := Transition.meets_of_guarded alone_of_unheard answered _ t hguarded
  obtain ⟨hheard, hdone⟩ := Prod.mk.inj hview
  exact ⟨t, ht, hheard, _, hdone, (reply_not_lost Crc16.xmodem 7 (1 / 2) .initial 0 answered t
    (undisturbed_of_alone _ _ _ hmeets) ht hheard).1 _ hdone⟩

/-- Before the call wakes up, a late reply of another node comes in behind the reply to the call. -/
def overwritten : List Event :=
  [.enter 0 0, .receive (1 / 10) (shortReply 7 [0, 5, 3]),
    .receive (1 / 5) (shortReply 9 [4, 1]), .wake (3 / 10), .wake (1 / 2)]

/-- The call has heard the node it asked and returns `None`. -/
theorem reply_lost : ∃ t,
    Transition.run (step Crc16.xmodem 7 (1 / 2)) (initial .initial 0) overwritten = some t ∧
      t.heard = true ∧ t.phase = .done none := by
  have hrun : (Transition.run (step Crc16.xmodem 7 (1 / 2)) (initial .initial 0) overwritten).map
      (fun t => (t.heard, t.phase)) = some (true, .done none) := by decide +kernel
  obtain ⟨t, ht, hview⟩ := Option.map_eq_some_iff.mp hrun
  simp only [Prod.mk.injEq] at hview
  exact ⟨t, ht, hview⟩

end ReplyWait

end PyVesc
