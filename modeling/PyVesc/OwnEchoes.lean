import PyVesc.CommandReading
import PyVesc.NodeScan
import PyVesc.SubscriberCalls
import PyVesc.TunnelNet

/-!
# The host's own frames

With `receive_own_messages`, which is the default, the bus hands the host every frame that it sends
itself. The bus object then goes through the same states as without, and tells its subscribers the
same, as long as no request goes to the id of the host.
-/

namespace PyVesc

open PyNumber

/-- The frame of `stop_all`. -/
def stopAllFrame (fmt : PyFormat) : Py VescFrame :=
  encodeSetCurrent fmt BROADCAST_ID (.float 0) none

/-- The bus object, the frames that it has sent and not received yet, and the statuses that its
subscribers have been called with. -/
structure HostBus where
  bus : BusState
  echoes : List VescFrame
  published : List (ℕ × DecodedStatus)

namespace HostBus

def initial : HostBus := ⟨.initial, [], []⟩

/-- What the methods of the bus and of its nodes do to it, and what it receives. What sends frames
sends as many of them as the bus takes before it raises, none of them on a dead bus. -/
inductive Event where
  | command (controllerId : ℤ) (c : CanCommand) (taken : ℕ)
  | stopAll (taken : ℕ)
  /-- A ping forgets the pong of its node and sends a frame. -/
  | ping (controllerId : ℤ) (taken : ℕ)
  | clearPongEvent
  /-- A request forgets the reply and sends its frames. -/
  | request (controllerId : ℕ) (payload : Bytes) (taken : ℕ)
  /-- The reply was for someone else. -/
  | dropReply
  | echo (now : ℚ)
  | hear (now : ℚ) (msg : CanMessage)

/-- The frames are sent as far as the bus takes them, and none where the encoder raises. -/
def send (s : HostBus) (taken : ℕ) : Py (List VescFrame) → HostBus
  | .ok frames => { s with echoes := s.echoes ++ frames.take taken }
  | .error _ => s

def single (frame : Py VescFrame) : Py (List VescFrame) := do
  let frame ← frame
  return [frame]

variable (crc : Bytes → UInt16) (fmt : PyFormat)

def receive (s : HostBus) (now : ℚ) (msg : CanMessage) : HostBus where
  bus := onMessage crc s.bus now msg
  echoes := s.echoes
  published := s.published ++ (statusFrom msg).toList

def step (s : HostBus) : Event → Option HostBus
  | .command controllerId c taken => some (s.send taken (single (c.encode fmt controllerId)))
  | .stopAll taken => some (s.send taken (single (stopAllFrame fmt)))
  | .ping controllerId taken =>
    some ({ s with bus := s.bus.popPong controllerId }.send taken
      (single (encodePing controllerId HOST_ID)))
  | .clearPongEvent => some { s with bus := { s.bus with pongEvent := false } }
  | .request controllerId payload taken =>
    some ({ s with bus := s.bus.clearReply }.send taken
      (encodeCommFrames crc controllerId HOST_ID payload 0))
  | .dropReply => some { s with bus := s.bus.clearReply }
  | .echo now =>
    match s.echoes with
    | [] => none
    | frame :: echoes => some ({ s with echoes := echoes }.receive crc now frame.message)
  | .hear now msg => some (s.receive crc now msg)

def Event.isEcho : Event → Bool
  | .echo _ => true
  | _ => false

/-- A request goes to another id than that of the host. -/
def Event.Abroad : Event → Prop
  | .request controllerId _ _ => controllerId ≠ HOST_ID
  | _ => True

end HostBus

/-! ### Harmless frames -/

/-- A frame that is neither a status nor a pong nor a part of a packet for the host. -/
structure Harmless (f : VescFrame) : Prop where
  notDecoded : decodeFrame f.arbitrationId f.data = none
  notForHost : tunnelForHost f.message = false

/-- The packets that are decoded. -/
def decodedIds : List CanPacketId :=
  [.status, .status2, .status3, .status4, .status5, .status6, .pong]

theorem StatusSlot.packetId_mem (slot : StatusSlot) : slot.packetId ∈ decodedIds := by
  cases slot <;> decide

theorem harmless_of_id {f : VescFrame} {pid : CanPacketId} {c : ℕ}
    (hid : splitArbitrationId f.arbitrationId = (pid.value, c)) (hpid : pid ∉ decodedIds)
    (hhost : ¬ (c = HOST_ID ∧ pid.value ∈ tunnelIds)) : Harmless f := by
  have hinj : ∀ {other : CanPacketId} {d : ℕ},
      splitArbitrationId f.arbitrationId = (other.value, d) → pid = other := by
    intro other d hother
    have hvalue := congrArg Prod.fst (hid.symm.trans hother)
    have hsame := (CanPacketId.ofValue_value pid).symm.trans
      ((congrArg CanPacketId.ofValue hvalue).trans (CanPacketId.ofValue_value other))
    exact Option.some.inj hsame
  constructor
  · cases hdecode : decodeFrame f.arbitrationId f.data with
    | none => rfl
    | some decoded =>
      obtain ⟨d, obj⟩ := decoded
      obtain ⟨slot, _, hsplit⟩ | ⟨_, hsplit⟩ := decodeFrame_cases hdecode
      · exact absurd (hinj hsplit ▸ slot.packetId_mem) hpid
      · exact absurd (hinj hsplit ▸ by decide) hpid
  · rw [tunnelForHost]
    change (true && decide ((splitArbitrationId f.arbitrationId).2 = HOST_ID ∧
      (splitArbitrationId f.arbitrationId).1 ∈ tunnelIds)) = false
    rw [hid, Bool.true_and, decide_eq_false_iff_not]
    exact hhost

variable {crc : Bytes → UInt16} {fmt : PyFormat}

theorem Harmless.onMessage {f : VescFrame} (h : Harmless f) (s : BusState) (now : ℚ) :
    onMessage crc s now f.message = s := by
  have hhost := h.notForHost
  rw [tunnelForHost, VescFrame.message, Bool.true_and, decide_eq_false_iff_not] at hhost
  rw [PyVesc.onMessage, VescFrame.message]
  dsimp only
  rw [if_neg (by decide), if_neg hhost, h.notDecoded]

theorem Harmless.statusFrom {f : VescFrame} (h : Harmless f) :
    PyVesc.statusFrom f.message = none := by
  have hstatus : statusOf f.message = none := by
    have hhost := h.notForHost
    rw [tunnelForHost, VescFrame.message, Bool.true_and, decide_eq_false_iff_not] at hhost
    rw [statusOf, VescFrame.message]
    dsimp only
    rw [if_neg (by decide), if_neg hhost, h.notDecoded]
  rw [PyVesc.statusFrom, hstatus]
  rfl

/-! ### The encoders -/

/-- The packets of the commands. -/
def commandIds : List CanPacketId :=
  [.setDuty, .setCurrent, .setCurrentBrake, .setRpm, .setPos, .setCurrentRel, .setCurrentBrakeRel,
    .setCurrentHandbrake, .setCurrentHandbrakeRel, .confCurrentLimits, .confStoreCurrentLimits,
    .confCurrentLimitsIn, .confStoreCurrentLimitsIn, .confFocErpms, .confStoreFocErpms,
    .confBatteryCut, .confStoreBatteryCut, .shutdown, .ping]

theorem CanCommand.packetId_mem (c : CanCommand) : c.packetId ∈ commandIds := by
  cases c with
  | confCurrentLimits _ _ store => cases store <;> exact of_decide_eq_true rfl
  | confCurrentLimitsIn _ _ store => cases store <;> exact of_decide_eq_true rfl
  | confFocErpms _ _ store => cases store <;> exact of_decide_eq_true rfl
  | confBatteryCut _ _ store => cases store <;> exact of_decide_eq_true rfl
  | _ => exact of_decide_eq_true rfl

theorem harmless_of_idOf {f : VescFrame} {pid : CanPacketId} {controllerId : ℤ}
    (hid : IdOf pid controllerId f.arbitrationId) (hpid : pid ∈ commandIds) : Harmless f := by
  have hids : ∀ pid ∈ commandIds, pid ∉ decodedIds ∧ pid.value ∉ tunnelIds := by decide
  obtain ⟨hdecoded, htunnel⟩ := hids pid hpid
  exact harmless_of_id (Prod.ext hid.1 rfl) hdecoded fun h => htunnel h.2

theorem harmless_command {c : CanCommand} {controllerId : ℤ} {f : VescFrame}
    (h : c.encode fmt controllerId = .ok f) : Harmless f := by
  have hguards := CanCommand.encode_guards fmt c controllerId
  by_cases hadmissible : c.Admissible controllerId
  · obtain ⟨g, hg, hcarried⟩ := hguards.result hadmissible
    cases hg.symm.trans h
    exact harmless_of_idOf ⟨hcarried.packetId, hcarried.controllerId⟩ c.packetId_mem
  · obtain ⟨text, hrefuse⟩ := hguards.refusal hadmissible
    cases hrefuse.symm.trans h

theorem harmless_ping {controllerId senderId : ℤ} {f : VescFrame}
    (h : encodePing controllerId senderId = .ok f) : Harmless f := by
  have hguards := encodePing_guards controllerId senderId
  by_cases hids : IsControllerId controllerId ∧ IsControllerId senderId
  · obtain ⟨g, hg, hid, _⟩ := hguards.result hids
    cases hg.symm.trans h
    exact harmless_of_idOf hid (by decide)
  · obtain ⟨text, hrefuse⟩ := hguards.refusal hids
    cases hrefuse.symm.trans h

section Requests
variable {c : ℕ} (hc : c ≠ HOST_ID)
include hc

theorem harmless_tunnel {pid : CanPacketId} (hpid : pid ∉ decodedIds) {head : Py Bytes}
    (data : Bytes → Bytes) {f : VescFrame} (h : (do
      let arbitrationId ← makeArbitrationId pid c
      let bytes ← head
      return (⟨arbitrationId, data bytes⟩ : VescFrame)) = .ok f) : Harmless f := by
  obtain ⟨arbitrationId, hid, h⟩ := bind_eq_ok h
  obtain ⟨bytes, _, h⟩ := bind_eq_ok h
  cases h
  exact harmless_of_id (splitArbitrationId_make hid) hpid fun h => hc h.1

theorem harmless_request {senderId sendFlag : ℕ} {payload : Bytes} {frames : List VescFrame}
    (h : encodeCommFrames crc c senderId payload sendFlag = .ok frames) :
    ∀ f ∈ frames, Harmless f := by
  unfold encodeCommFrames at h
  split_ifs at h with hne hshort
  · obtain ⟨f, hf, h⟩ := bind_eq_ok h
    cases h
    intro g hg
    rw [List.mem_singleton.mp hg]
    exact harmless_tunnel hc (by decide) _ hf
  · obtain ⟨s, hs, h⟩ := bind_eq_ok h
    obtain ⟨t, ht, h⟩ := bind_eq_ok h
    obtain ⟨f, hf, h⟩ := bind_eq_ok h
    cases h
    have hfill : ∀ f ∈ s.2, Harmless f :=
      chunkLoop_forall (fun i chunk f hf => harmless_tunnel hc (by decide) _ hf) _ s (by simp) hs
    have hlong : ∀ f ∈ t.2, Harmless f :=
      chunkLoop_forall (fun i chunk f hf => harmless_tunnel hc (by decide) _ hf) _ t hfill ht
    intro g hg
    obtain hg | hg := List.mem_append.mp hg
    · exact hlong g hg
    · rw [List.mem_singleton.mp hg]
      exact harmless_tunnel hc (by decide) id hf

end Requests

/-! ### Runs with and without the host's own frames -/

namespace HostBus

/-- Two buses that differ in the frames that are to come back, all of them harmless. -/
structure Beside (s t : HostBus) : Prop where
  bus : s.bus = t.bus
  published : s.published = t.published
  harmless : ∀ f ∈ s.echoes, Harmless f

theorem Beside.send {s t : HostBus} (h : Beside s t) {frames : Py (List VescFrame)}
    (hframes : ∀ sent, frames = .ok sent → ∀ f ∈ sent, Harmless f) (taken : ℕ) :
    Beside (s.send taken frames) (t.send taken frames) := by
  cases frames with
  | error e => exact h
  | ok sent =>
    refine ⟨h.bus, h.published, fun f hf => ?_⟩
    rcases List.mem_append.mp hf with hf | hf
    · exact h.harmless f hf
    · exact hframes sent rfl f (List.mem_of_mem_take hf)

theorem Beside.withBus {s t : HostBus} (h : Beside s t) (f : BusState → BusState) :
    Beside { s with bus := f s.bus } { t with bus := f t.bus } :=
  ⟨congrArg f h.bus, h.published, h.harmless⟩

theorem harmless_single {frame : Py VescFrame} (h : ∀ f, frame = .ok f → Harmless f) :
    ∀ sent, single frame = .ok sent → ∀ f ∈ sent, Harmless f := by
  intro sent hsent f hf
  obtain ⟨g, hg, hsent⟩ := bind_eq_ok hsent
  cases hsent
  rw [List.mem_singleton.mp hf]
  exact h g hg

theorem Beside.receive {s t : HostBus} (h : Beside s t) (now : ℚ) (msg : CanMessage) :
    Beside (s.receive crc now msg) (t.receive crc now msg) :=
  ⟨congrArg (fun bus => onMessage crc bus now msg) h.bus,
    congrArg (fun published => published ++ (statusFrom msg).toList) h.published, h.harmless⟩

theorem harmless_stopAll {f : VescFrame} (h : stopAllFrame fmt = .ok f) : Harmless f :=
  @harmless_command fmt (.setCurrent ⟨.float 0, 0, rfl⟩ none) _ f h

/-- An own frame that comes back changes nothing. -/
theorem Beside.echo {s t s' : HostBus} {now : ℚ} (h : Beside s t)
    (hstep : step crc fmt s (.echo now) = some s') : Beside s' t := by
  rw [step] at hstep
  cases hechoes : s.echoes with
  | nil =>
    rw [hechoes] at hstep
    cases hstep
  | cons f echoes =>
    rw [hechoes] at hstep
    cases hstep
    have hharmless := h.harmless
    rw [hechoes] at hharmless
    obtain ⟨hf, hrest⟩ := List.forall_mem_cons.mp hharmless
    refine ⟨(hf.onMessage s.bus now).trans h.bus, ?_, hrest⟩
    change s.published ++ (statusFrom f.message).toList = _
    rw [hf.statusFrom, Option.toList_none, List.append_nil]
    exact h.published

theorem Beside.step {s t s' : HostBus} {e : Event} (h : Beside s t) (hfar : e.Abroad)
    (hshown : e.isEcho = false) (hstep : HostBus.step crc fmt s e = some s') :
    ∃ t', HostBus.step crc fmt t e = some t' ∧ Beside s' t' := by
  cases e with
  | command controllerId c taken =>
    cases hstep
    exact ⟨_, rfl, h.send (harmless_single fun f hf => harmless_command hf) taken⟩
  | stopAll taken =>
    cases hstep
    exact ⟨_, rfl, h.send (harmless_single fun f hf => harmless_stopAll hf) taken⟩
  | ping controllerId taken =>
    cases hstep
    refine ⟨_, rfl, ?_⟩
    apply Beside.send (h.withBus fun bus => bus.popPong controllerId)
    exact harmless_single fun f hf => harmless_ping hf
  | clearPongEvent =>
    cases hstep
    exact ⟨_, rfl, h.withBus fun bus => { bus with pongEvent := false }⟩
  | request controllerId payload taken =>
    cases hstep
    refine ⟨_, rfl, (h.withBus BusState.clearReply).send ?_ taken⟩
    exact fun frames hframes => harmless_request hfar hframes
  | dropReply =>
    cases hstep
    exact ⟨_, rfl, h.withBus BusState.clearReply⟩
  | echo now => cases hshown
  | hear now msg =>
    cases hstep
    exact ⟨_, rfl, h.receive now msg⟩

/-- Whatever is sent and received, and whenever the own frames come back: without them the bus
object and its subscribers would have got to the same. -/
theorem echoes_make_no_difference (crc : Bytes → UInt16) (fmt : PyFormat) {events : List Event}
    {s : HostBus} (hfar : ∀ e ∈ events, e.Abroad)
    (hrun : Transition.run (step crc fmt) initial events = some s) :
    ∃ t, Transition.run (step crc fmt) initial (events.filter fun e => !e.isEcho) = some t ∧
      t.bus = s.bus ∧ t.published = s.published := by
  have hinitial : Beside initial initial := ⟨rfl, rfl, fun f hf => absurd hf List.not_mem_nil⟩
  obtain ⟨t, ht, hbeside⟩ := @Transition.run_filtered _ _ (step crc fmt) _ (step crc fmt) Beside
    Event.isEcho Event.Abroad
    (fun s e s' t h _ hecho hstep => by
      cases e with
      | echo now => exact h.echo hstep
      | _ => cases hecho)
    (fun s e s' t h hfar hshown hstep => h.step hfar hshown hstep)
    events initial s initial hinitial hfar hrun
  exact ⟨t, ht, hbeside.bus.symm, hbeside.published.symm⟩

/-- A stop, a ping, a request and a status, between them the host's own frames, and a ping of
another node that cannot be sent. -/
def echoing : List Event :=
  [.stopAll 1, .ping 7 1, .echo 1, .request 7 [0] 1, .hear 2 ⟨true, 0x907, List.replicate 8 1⟩,
    .echo 3, .ping 8 0, .echo 4]

theorem echoes_make_no_difference_echoing : ∃ s t,
    Transition.run (step Crc16.xmodem ⟨fun _ => "", fun _ => ""⟩) initial echoing = some s ∧
      Transition.run (step Crc16.xmodem ⟨fun _ => "", fun _ => ""⟩) initial
        [.stopAll 1, .ping 7 1, .request 7 [0] 1, .hear 2 ⟨true, 0x907, List.replicate 8 1⟩,
          .ping 8 0] = some t ∧ t.bus = s.bus := by
  have hends : (Transition.run (step Crc16.xmodem ⟨fun _ => "", fun _ => ""⟩) initial
      echoing).isSome = true := by decide +kernel
  obtain ⟨s, hs⟩ := Option.isSome_iff_exists.mp hends
  have hfar : ∀ e ∈ echoing, e.Abroad := by
    simp [echoing, Event.Abroad, HOST_ID]
  obtain ⟨t, ht, hbus, _⟩ := echoes_make_no_difference Crc16.xmodem _ hfar hs
  exact ⟨s, t, hs, ht, hbus⟩

end HostBus

end PyVesc
