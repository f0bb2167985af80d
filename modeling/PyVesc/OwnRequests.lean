import PyVesc.NodeEnvelope
import PyVesc.OrderFreeReassembly
import PyVesc.ReplyWait

/-!
# The echo of a request

The bus gives back the frames that the host sends. While a call of `comm_request` lasts, its own
frames reach the receiving thread in the order in which they were sent, mixed with messages of the
other nodes. They are addressed to the node that is asked, so the receiving thread leaves them
alone, unless the node has the id of the host. It then takes the request for a reply, and the sender
of the request, which is the host, for the node.
-/

namespace PyVesc

variable (crc : Bytes → UInt16) (c : ℕ) (timeout : ℚ)

namespace ReplyWait

/-- Nothing is in the slot, and the call has not found anything in it. -/
def Unanswered (s : ReplyWait) : Prop :=
  s.bus.commReply = none ∧ ∀ result, s.phase = .done result → result = none

/-- The call does not wait, and has not found anything. -/
def Unwaiting (s : ReplyWait) : Prop :=
  s.phase = .sending ∨ s.phase = .done none

variable {crc c timeout} {s t : ReplyWait}

theorem Unanswered.waitUntil (h : Unanswered s) (deadline now : ℚ) :
    Unanswered (s.waitUntil deadline now) := by
  refine ⟨h.1, fun result hdone => ?_⟩
  rw [ReplyWait.waitUntil] at hdone
  dsimp only at hdone
  split_ifs at hdone
  cases hdone
  rfl

variable (crc) in
theorem commReply_onMessage_of_not_tunnel {msg : CanMessage} (h : tunnelForHost msg = false)
    (bus : BusState) (now : ℚ) : (onMessage crc bus now msg).commReply = bus.commReply :=
  congrArg (fun comm => comm.2.1) (comm_onMessage crc h bus now)

/-- As long as no tunnel frame for the host is processed, the slot stays empty. -/
theorem Unanswered.step {e : Event} (h : Unanswered s)
    (hmsg : ∀ now msg, e = .receive now msg → tunnelForHost msg = false)
    (hstep : ReplyWait.step crc c timeout s e = some t) : Unanswered t := by
  cases e with
  | receive now msg =>
    obtain ⟨_, ht⟩ := Option.ite_none_right_eq_some.mp hstep
    cases ht
    have hslot := commReply_onMessage_of_not_tunnel crc (hmsg now msg rfl) s.bus now
    exact ⟨hslot.trans h.1, h.2⟩
  | sendFails now =>
    obtain ⟨_, ht⟩ := Option.ite_none_right_eq_some.mp hstep
    cases ht
    refine ⟨h.1, fun result hdone => ?_⟩
    cases hdone
    rfl
  | enter sent checked =>
    obtain ⟨_, ht⟩ := Option.ite_none_right_eq_some.mp hstep
    cases ht
    exact h.waitUntil _ _
  | wake now =>
    obtain ⟨deadline, _, rfl⟩ := step_wake hstep
    rw [wake, h.1]
    exact h.waitUntil _ _

/-- A call without time never waits. -/
theorem unwaiting_step (htimeout : timeout ≤ 0) {e : Event} (h : Unwaiting s)
    (hstep : step crc c timeout s e = some t) : Unwaiting t := by
  cases e with
  | receive now msg =>
    obtain ⟨_, ht⟩ := Option.ite_none_right_eq_some.mp hstep
    cases ht
    exact h
  | sendFails now =>
    obtain ⟨_, ht⟩ := Option.ite_none_right_eq_some.mp hstep
    cases ht
    exact Or.inr rfl
  | enter sent checked =>
    obtain ⟨⟨_, hlate, _⟩, ht⟩ := Option.ite_none_right_eq_some.mp hstep
    cases ht
    exact Or.inr (if_pos (by linarith))
  | wake now =>
    obtain ⟨deadline, hwaiting, _⟩ := step_wake hstep
    rcases h with h | h <;> rw [hwaiting] at h <;> cases h

end ReplyWait

/-! ### A call and its echo -/

structure OwnRequest where
  wait : ReplyWait
  /-- The frames that are to be sent. -/
  toSend : List VescFrame
  /-- The frames that are sent and have not come back. -/
  echoes : List VescFrame

namespace OwnRequest

def initial (bus : BusState) (start : ℚ) (frames : List VescFrame) : OwnRequest :=
  ⟨ReplyWait.initial bus start, frames, []⟩

inductive Event where
  /-- The next frame is sent. -/
  | send (now : ℚ)
  /-- The receiving thread processes the next frame that comes back. -/
  | echo (now : ℚ)
  /-- It processes a message of another node, which is no tunnel frame for the host. -/
  | receive (now : ℚ) (msg : CanMessage)
  | sendFails (now : ℚ)
  | enter (sent checked : ℚ)
  | wake (now : ℚ)
  deriving DecidableEq, Repr

/-- A step of the call. -/
def advance (s : OwnRequest) (e : ReplyWait.Event) : Option OwnRequest :=
  (ReplyWait.step crc c timeout s.wait e).map fun w => { s with wait := w }

def step (s : OwnRequest) : Event → Option OwnRequest
  | .send now =>
    match s.toSend with
    | f :: fs =>
      if s.wait.clock ≤ now ∧ s.wait.phase = .sending then
        some ⟨{ s.wait with clock := now }, fs, s.echoes ++ [f]⟩
      else none
    | [] => none
  | .echo now =>
    match s.echoes with
    | f :: fs => advance crc c timeout { s with echoes := fs } (.receive now f.message)
    | [] => none
  | .receive now msg =>
    if tunnelForHost msg = false then advance crc c timeout s (.receive now msg) else none
  | .sendFails now => if s.toSend ≠ [] then advance crc c timeout s (.sendFails now) else none
  | .enter sent checked =>
    if s.toSend = [] then advance crc c timeout s (.enter sent checked) else none
  | .wake now => advance crc c timeout s (.wake now)

/-- The call has not ended with a reply, and while it waits, a wake-up at its deadline or later ends
it without one. -/
structure ReturnsNone (s : OwnRequest) : Prop where
  done : ∀ result, s.wait.phase = .done result → result = none
  ends : ∀ deadline now, s.wait.phase = .waiting deadline → s.wait.clock ≤ now → deadline ≤ now →
    ∃ t, step crc c timeout s (.wake now) = some t ∧ t.wait.phase = .done none

/-- A step sends a frame, or it is a step of the call that processes no other tunnel frame for the
host than an echo. -/
inductive Does (s t : OwnRequest) : Prop
  | sends (f : VescFrame) (now : ℚ) (htoSend : s.toSend = f :: t.toSend)
      (hechoes : t.echoes = s.echoes ++ [f]) (hwait : t.wait = { s.wait with clock := now })
  | advances (e : ReplyWait.Event) (hstep : ReplyWait.step crc c timeout s.wait e = some t.wait)
      (htoSend : t.toSend = s.toSend) (hechoes : t.echoes ⊆ s.echoes)
      (hmsg : ∀ now msg, e = .receive now msg →
        tunnelForHost msg = false ∨ ∃ f ∈ s.echoes, msg = f.message)

variable {crc c timeout} {s t : OwnRequest}

theorem Does.advance {e : ReplyWait.Event} (h : advance crc c timeout s e = some t)
    (hmsg : ∀ now msg, e = .receive now msg → tunnelForHost msg = false) :
    Does crc c timeout s t := by
  obtain ⟨w, hw, rfl⟩ := Option.map_eq_some_iff.mp h
  exact .advances e hw rfl (List.Subset.refl _) fun now msg he => Or.inl (hmsg now msg he)

theorem step_does {e : Event} (h : step crc c timeout s e = some t) : Does crc c timeout s t := by
  cases e with
  | send now =>
    rw [step] at h
    split at h
    · next f fs htoSend =>
      obtain ⟨_, ht⟩ := Option.ite_none_right_eq_some.mp h
      cases ht
      exact .sends f now htoSend rfl rfl
    · cases h
  | echo now =>
    rw [step] at h
    split at h
    · next f fs hechoes =>
      obtain ⟨w, hw, rfl⟩ := Option.map_eq_some_iff.mp h
      refine .advances _ hw rfl ?_ fun now' msg hmsg => Or.inr ⟨f, ?_, ?_⟩
      · rw [hechoes]
        exact List.subset_cons_self f fs
      · rw [hechoes]
        exact List.mem_cons_self
      · cases hmsg
        rfl
    · cases h
  | receive now msg =>
    obtain ⟨hmsg, ht⟩ := Option.ite_none_right_eq_some.mp h
    refine .advance ht fun now' msg' he => ?_
    cases he
    exact hmsg
  | sendFails now =>
    obtain ⟨_, ht⟩ := Option.ite_none_right_eq_some.mp h
    exact .advance ht nofun
  | enter sent checked =>
    obtain ⟨_, ht⟩ := Option.ite_none_right_eq_some.mp h
    exact .advance ht nofun
  | wake now => exact .advance h nofun

/-! ### Calls that end without a reply -/

theorem unwaiting_of_does (htimeout : timeout ≤ 0) (h : s.wait.Unwaiting)
    (hdoes : Does crc c timeout s t) : t.wait.Unwaiting := by
  cases hdoes with
  | sends f now _ _ hwait =>
    rw [hwait]
    exact h
  | advances e hstep _ _ _ => exact ReplyWait.unwaiting_step htimeout h hstep

theorem returnsNone_of_unwaiting (h : s.wait.Unwaiting) : ReturnsNone crc c timeout s := by
  constructor
  · intro result hdone
    rcases h with h | h
    · rw [h] at hdone
      cases hdone
    · rw [h] at hdone
      cases hdone
      rfl
  · intro deadline now hwaiting
    rcases h with h | h <;> rw [h] at hwaiting <;> cases hwaiting

/-- The frames of the call are not for the host, and nothing has come in. -/
structure Ignored (c : ℕ) (s : OwnRequest) : Prop where
  unanswered : s.wait.Unanswered
  toSend : ∀ f ∈ s.toSend, AddressedTo c f
  echoes : ∀ f ∈ s.echoes, AddressedTo c f

theorem not_tunnelForHost {f : VescFrame} (hc : c ≠ HOST_ID) (h : AddressedTo c f) :
    tunnelForHost f.message = false := by
  have haddressee : (splitArbitrationId f.arbitrationId).2 ≠ HOST_ID := by rwa [h]
  simp [tunnelForHost, VescFrame.message, haddressee]

theorem Ignored.does (hc : c ≠ HOST_ID) (h : Ignored c s) (hdoes : Does crc c timeout s t) :
    Ignored c t := by
  cases hdoes with
  | sends f now htoSend hechoes hwait =>
    have hto := h.toSend
    rw [htoSend] at hto
    obtain ⟨hf, hrest⟩ := List.forall_mem_cons.mp hto
    refine ⟨?_, hrest, ?_⟩
    · rw [hwait]
      exact h.unanswered
    · rw [hechoes]
      intro g hg
      rcases List.mem_append.mp hg with hg | hg
      · exact h.echoes g hg
      · rw [List.mem_singleton.mp hg]
        exact hf
  | advances e hstep htoSend hechoes hmsg =>
    refine ⟨h.unanswered.step ?_ hstep, ?_, fun f hf => h.echoes f (hechoes hf)⟩
    · intro now msg he
      rcases hmsg now msg he with hother | ⟨f, hf, rfl⟩
      · exact hother
      · exact not_tunnelForHost hc (h.echoes f hf)
    · rw [htoSend]
      exact h.toSend

theorem Ignored.returnsNone (h : Ignored c s) : ReturnsNone crc c timeout s := by
  refine ⟨h.unanswered.2, fun deadline now hwaiting hclock hlate => ?_⟩
  have hwake : s.wait.wake c deadline now = s.wait.waitUntil deadline now := by
    rw [ReplyWait.wake, h.unanswered.1]
  refine ⟨{ s with wait := s.wait.waitUntil deadline now }, ?_, if_pos (by linarith)⟩
  rw [step, OwnRequest.advance, ReplyWait.step, hwaiting]
  dsimp only
  rw [if_pos ⟨hclock, Or.inr hlate⟩, hwake]
  rfl

/-! ### The call that is answered by its own request -/

theorem run_sends {w : ReplyWait} (hphase : w.phase = .sending) (fs es : List VescFrame) :
    Transition.run (step crc c timeout) ⟨w, fs, es⟩ (fs.map fun _ => .send w.clock) =
      some ⟨w, [], es ++ fs⟩ := by
  induction fs generalizing es with
  | nil => rw [List.append_nil]; rfl
  | cons f fs ih =>
    have hstep : step crc c timeout ⟨w, f :: fs, es⟩ (.send w.clock) = some ⟨w, fs, es ++ [f]⟩ :=
      if_pos ⟨le_refl _, hphase⟩
    rw [List.map_cons, Transition.run, hstep, Option.bind_some, ih, List.append_assoc]
    rfl

theorem run_echoes (w : ReplyWait) (fs : List VescFrame) : ∃ u : ReplyWait,
    Transition.run (step crc c timeout) ⟨w, [], fs⟩ (fs.map fun _ => .echo w.clock) =
      some ⟨u, [], []⟩ ∧
    u.bus = receiveAll crc w.bus (fs.map fun f => (w.clock, f.message)) ∧
    u.phase = w.phase ∧ u.clock = w.clock := by
  induction fs generalizing w with
  | nil => exact ⟨w, rfl, rfl, rfl, rfl⟩
  | cons f fs ih =>
    have hreceive : ReplyWait.step crc c timeout w (.receive w.clock f.message) =
        some (w.receive crc c w.clock f.message) := if_pos (le_refl _)
    have hstep : step crc c timeout ⟨w, [], f :: fs⟩ (.echo w.clock) =
        some ⟨w.receive crc c w.clock f.message, [], fs⟩ := by
      change OwnRequest.advance crc c timeout ⟨w, [], fs⟩ (.receive w.clock f.message) = _
      rw [OwnRequest.advance, hreceive]
      rfl
    obtain ⟨u, hrun, hbus, hphase, hclock⟩ := ih (w.receive crc c w.clock f.message)
    refine ⟨u, ?_, hbus, hphase, hclock⟩
    rw [List.map_cons, Transition.run, hstep, Option.bind_some]
    exact hrun

/-- A call that has its reply in the slot when it begins to wait returns it. -/
theorem run_wait (htimeout : 0 < timeout) {w : ReplyWait} (hphase : w.phase = .sending)
    {payload : Bytes} (hslot : w.bus.commReply = some (c, payload))
    (hset : w.bus.commEvent = true) : ∃ t, Transition.run (step crc c timeout) ⟨w, [], []⟩
      [.enter w.clock w.clock, .wake w.clock] = some t ∧ t.wait.phase = .done (some payload) := by
  obtain ⟨v, hv⟩ : ∃ v, v = w.waitUntil (w.clock + timeout) w.clock := ⟨_, rfl⟩
  have hwaiting : v.phase = .waiting (w.clock + timeout) := by
    rw [hv]
    exact if_neg (by linarith)
  have hclock : v.clock ≤ w.clock := by rw [hv]; exact le_refl _
  have hbus : v.bus = w.bus := by rw [hv]; rfl
  have henter : step crc c timeout ⟨w, [], []⟩ (.enter w.clock w.clock) = some ⟨v, [], []⟩ := by
    change OwnRequest.advance crc c timeout ⟨w, [], []⟩ (.enter w.clock w.clock) = _
    rw [OwnRequest.advance, ReplyWait.step, if_pos ⟨le_refl _, le_refl _, hphase⟩, hv]
    rfl
  have hwake : step crc c timeout ⟨v, [], []⟩ (.wake w.clock) =
      some ⟨{ v with clock := w.clock, phase := .done (some payload) }, [], []⟩ := by
    rw [← hbus] at hslot hset
    rw [step, OwnRequest.advance, ReplyWait.step, hwaiting]
    dsimp only
    rw [if_pos ⟨hclock, Or.inl hset⟩, ReplyWait.wake_own hslot]
    rfl
  refine ⟨⟨{ v with clock := w.clock, phase := .done (some payload) }, [], []⟩, ?_, rfl⟩
  rw [Transition.run, henter, Option.bind_some, Transition.run, hwake]
  rfl

/-- A call to the id of the host whose frames are sent, and come back, before it waits. -/
def echoed (frames : List VescFrame) : List Event :=
  (frames.map fun _ => .send 0) ++ ((frames.map fun _ => .echo 0) ++ [.enter 0 0, .wake 0])

theorem run_echoed (htimeout : 0 < timeout) {frames : List VescFrame} {payload : Bytes}
    (hne : payload ≠ []) (hlen : payload.length ≤ 65535)
    (hframes : encodeCommFrames crc HOST_ID HOST_ID payload 0 = .ok frames) :
    ∃ t, Transition.run (step crc HOST_ID timeout) (initial .initial 0 frames) (echoed frames) =
      some t ∧ t.wait.phase = .done (some payload) := by
  obtain ⟨fs, j, last, hencode, htransmits⟩ :=
    encodeCommFrames_transmits crc (show HOST_ID ≤ 255 by decide) (Nat.zero_le 255) hne hlen
  rw [hframes] at hencode
  cases hencode
  obtain ⟨b, hbus⟩ := receiveAll_transmits crc htransmits (ReplyWait.initial .initial 0).bus 0
  have hsends : Transition.run (step crc HOST_ID timeout) (initial .initial 0 (fs ++ [last]))
      ((fs ++ [last]).map fun _ => .send 0) =
        some ⟨ReplyWait.initial .initial 0, [], fs ++ [last]⟩ := run_sends rfl (fs ++ [last]) []
  obtain ⟨u, hechoes, hu, hphase, hclock⟩ : ∃ u : ReplyWait,
      Transition.run (step crc HOST_ID timeout)
        ⟨ReplyWait.initial .initial 0, [], fs ++ [last]⟩ ((fs ++ [last]).map fun _ => .echo 0) =
          some ⟨u, [], []⟩ ∧
      u.bus = receiveAll crc (ReplyWait.initial .initial 0).bus
        ((fs ++ [last]).map fun f => (0, f.message)) ∧ u.phase = .sending ∧ u.clock = 0 :=
    run_echoes (ReplyWait.initial .initial 0) (fs ++ [last])
  rw [hbus] at hu
  obtain ⟨t, hwait, hdone⟩ := @run_wait crc HOST_ID timeout htimeout u hphase payload
    (by rw [hu]; rfl) (by rw [hu]; rfl)
  rw [hclock] at hwait
  refine ⟨t, ?_, hdone⟩
  rw [echoed, Transition.run_append, hsends, Option.bind_some, Transition.run_append, hechoes]
  exact hwait

/-- A call of `comm_request` through a node never takes its own request for a reply, just if the
node does not have the id of the host, or the call has no time. -/
theorem own_request_ignored (crc : Bytes → UInt16) (node : VescCanNode) (timeout : ℚ)
    (payload : Bytes) (hne : payload ≠ []) (hlen : payload.length ≤ 65535) : ∃ frames,
    encodeCommFrames crc node.controllerId HOST_ID payload 0 = .ok frames ∧
    ((∀ bus : BusState, bus.Reachable crc → ∀ start events t,
      Transition.run (step crc node.controllerId timeout) (initial bus start frames) events =
        some t → ReturnsNone crc node.controllerId timeout t) ↔
      node.controllerId ≠ HOST_ID ∨ timeout ≤ 0) := by
  obtain ⟨frames, hframes⟩ := encodeCommFrames_ok crc (node.real.trans (by decide))
    (show HOST_ID ≤ 255 by decide) (Nat.zero_le 255) hne hlen
  refine ⟨frames, hframes, ?_, ?_⟩
  · intro hnone
    by_contra hcond
    rw [not_or, not_not, not_le] at hcond
    obtain ⟨hid, htimeout⟩ := hcond
    rw [hid] at hframes hnone
    obtain ⟨t, hrun, hdone⟩ := run_echoed htimeout hne hlen hframes
    cases (hnone .initial .initial 0 _ t hrun).done _ hdone
  · intro hcond bus _ start events t hrun
    rcases hcond with hid | htimeout
    · have hstart : Ignored node.controllerId (initial bus start frames) :=
        ⟨⟨rfl, nofun⟩, encodeCommFrames_addressed crc hframes, nofun⟩
      exact (Transition.run_preserves (fun _ _ _ h hstep => h.does hid (step_does hstep)) events
        _ t hstart hrun).returnsNone
    · have hstart : (initial bus start frames).wait.Unwaiting := Or.inl rfl
      have hstep : ∀ s e t, s.wait.Unwaiting →
          step crc node.controllerId timeout s e = some t → t.wait.Unwaiting :=
        fun _ _ _ h hstep => unwaiting_of_does htimeout h (step_does hstep)
      exact returnsNone_of_unwaiting (Transition.run_preserves hstep events _ t hstart hrun)

theorem own_request_ignored_seven : ∃ frames,
    encodeCommFrames Crc16.xmodem 7 HOST_ID [0] 0 = .ok frames ∧
    ∀ bus : BusState, bus.Reachable Crc16.xmodem → ∀ start events t,
      Transition.run (step Crc16.xmodem 7 (1 / 2)) (initial bus start frames) events = some t →
        ReturnsNone Crc16.xmodem 7 (1 / 2) t := by
  obtain ⟨frames, hframes, hiff⟩ :=
    own_request_ignored Crc16.xmodem ⟨7, by decide, []⟩ (1 / 2) [0] (by decide) (by decide)
  exact ⟨frames, hframes, hiff.mpr (Or.inl (by decide))⟩

/-- A request for the firmware version of node 254 returns the request. -/
theorem own_request_returned : ¬ ∀ (node : VescCanNode) (payload : Bytes), payload ≠ [] →
    payload.length ≤ 65535 → ∀ frames,
      encodeCommFrames Crc16.xmodem node.controllerId HOST_ID payload 0 = .ok frames →
        ∀ bus : BusState, bus.Reachable Crc16.xmodem → ∀ timeout start events t,
          Transition.run (step Crc16.xmodem node.controllerId timeout) (initial bus start frames)
            events = some t → ∀ result, t.wait.phase = .done result → result = none := by
  intro h
  obtain ⟨frames, hframes⟩ : ∃ frames,
      encodeCommFrames Crc16.xmodem HOST_ID HOST_ID [0] 0 = .ok frames :=
    encodeCommFrames_ok _ (by decide) (by decide) (by decide) (by decide) (by decide)
  obtain ⟨t, hrun, hdone⟩ := @run_echoed Crc16.xmodem (1 / 2) (by norm_num) frames [0]
    (by decide) (by decide) hframes
  cases h ⟨254, by decide, []⟩ [0] (by decide) (by decide) frames hframes .initial .initial
    (1 / 2) 0 _ t hrun _ hdone

end OwnRequest

end PyVesc
