import PyVesc.CanBus

/-!
# The telemetry store

`telemetry` and `known_nodes` of the bus object after any run of messages. For every node and every
kind of status the store has the last frame of that kind that the node sent, and the time at which
it came.
-/

namespace PyVesc

def BusState.telemetryOf (s : BusState) (controllerId : ℕ) : NodeTelemetry :=
  (s.telemetry.lookup controllerId).getD ⟨controllerId, [], []⟩

def BusState.knownNodes (s : BusState) : List ℕ := (Dict.keys s.telemetry).mergeSort

/-! ### The frames of a status -/

namespace StatusSlot

def packetId : StatusSlot → CanPacketId
  | status1 => .status
  | status2 => .status2
  | status3 => .status3
  | status4 => .status4
  | status5 => .status5
  | status6 => .status6

def size : StatusSlot → ℕ
  | status5 => 6
  | _ => 8

def decode : StatusSlot → Bytes → DecodedStatus
  | status1, data => .status1 (i32 data 0) (i16 data 4 / 10) (i16 data 6 / 1000)
  | status2, data => .status2 (i32 data 0 / 10000) (i32 data 4 / 10000)
  | status3, data => .status3 (i32 data 0 / 10000) (i32 data 4 / 10000)
  | status4, data =>
    .status4 (i16 data 0 / 10) (i16 data 2 / 10) (i16 data 4 / 10) (i16 data 6 / 50)
  | status5, data => .status5 (i32 data 0) (i16 data 4 / 10)
  | status6, data =>
    .status6 (i16 data 0 / 1000) (i16 data 2 / 1000) (i16 data 4 / 1000) (i16 data 6 / 1000)

/-- The node `c` sent this status in `msg`, with enough data. -/
def Frame (slot : StatusSlot) (c : ℕ) (msg : CanMessage) : Prop :=
  msg.isExtendedId = true ∧ splitArbitrationId msg.arbitrationId = (slot.packetId.value, c) ∧
    slot.size ≤ msg.data.length

instance (slot : StatusSlot) (c : ℕ) (msg : CanMessage) : Decidable (slot.Frame c msg) :=
  inferInstanceAs (Decidable (_ ∧ _ ∧ _))

end StatusSlot

theorem CanPacketId.ofValue_value (pid : CanPacketId) : ofValue pid.value = some pid := by
  cases pid <;> rfl

theorem CanPacketId.value_of_ofValue {n : ℕ} {pid : CanPacketId} (h : ofValue n = some pid) :
    pid.value = n := of_decide_eq_true (List.find?_some h :)

theorem decodeFrame_status {a c : ℕ} {slot : StatusSlot}
    (h : splitArbitrationId a = (slot.packetId.value, c)) (data : Bytes) :
    decodeFrame a data = if slot.size ≤ data.length then some (c, slot.decode data) else none := by
  rw [decodeFrame, h]
  dsimp only
  rw [CanPacketId.ofValue_value]
  cases slot <;> rfl

/-- A decoded frame is a status with its id, or a pong. -/
theorem decodeFrame_cases {a c : ℕ} {data : Bytes} {obj : DecodedStatus}
    (h : decodeFrame a data = some (c, obj)) :
    (∃ slot, obj.slot = some slot ∧ splitArbitrationId a = (slot.packetId.value, c)) ∨
      obj.slot = none ∧ splitArbitrationId a = (CanPacketId.pong.value, c) := by
  rw [decodeFrame] at h
  dsimp only at h
  cases hpid : CanPacketId.ofValue (splitArbitrationId a).1 with
  | none =>
      rw [hpid] at h
      cases h
  | some pid =>
      rw [hpid] at h
      rw [← Prod.mk.eta (p := splitArbitrationId a), ← CanPacketId.value_of_ofValue hpid]
      cases pid
      case pong =>
        rcases data with _ | ⟨responder, _ | ⟨hwType, rest⟩⟩
        · cases h
        · cases h
          exact Or.inr ⟨rfl, rfl⟩
        · cases h
          exact Or.inr ⟨rfl, rfl⟩
      case status | status2 | status3 | status4 | status5 | status6 =>
        dsimp only at h
        split_ifs at h
        cases h
        exact Or.inl ⟨_, rfl, rfl⟩
      all_goals cases h

theorem status_of_decodeFrame {a c : ℕ} {data : Bytes} {obj : DecodedStatus} {slot : StatusSlot}
    (h : decodeFrame a data = some (c, obj)) (hslot : obj.slot = some slot) :
    splitArbitrationId a = (slot.packetId.value, c) := by
  obtain ⟨slot', hslot', hsplit⟩ | ⟨hnone, _⟩ := decodeFrame_cases h
  · cases hslot.symm.trans hslot'
    exact hsplit
  · cases hslot.symm.trans hnone

/-- The node, the slot and the contents of the status that a message brings. -/
def statusOf (msg : CanMessage) : Option (ℕ × StatusSlot × DecodedStatus) :=
  if msg.isExtendedId = false then none
  else
    let (packetId, addressee) := splitArbitrationId msg.arbitrationId
    if addressee = HOST_ID ∧ packetId ∈ tunnelIds then none
    else
      match decodeFrame msg.arbitrationId msg.data with
      | none => none
      | some (controllerId, obj) =>
        match obj.slot with
        | some slot => some (controllerId, slot, obj)
        | none => none

theorem StatusSlot.not_mem_tunnelIds (slot : StatusSlot) :
    slot.packetId.value ∉ tunnelIds := by
  cases slot <;> decide

theorem statusOf_of_frame {slot : StatusSlot} {c : ℕ} {msg : CanMessage}
    (h : slot.Frame c msg) : statusOf msg = some (c, slot, slot.decode msg.data) := by
  obtain ⟨hext, hid, hsize⟩ := h
  have hslot : (slot.decode msg.data).slot = some slot := by cases slot <;> rfl
  rw [statusOf, if_neg (by rw [hext]; decide)]
  dsimp only
  rw [decodeFrame_status hid, if_pos hsize, hid,
    if_neg fun htunnel => slot.not_mem_tunnelIds htunnel.2]
  dsimp only
  rw [hslot]

theorem frame_of_statusOf {slot : StatusSlot} {c : ℕ} {msg : CanMessage} {obj : DecodedStatus}
    (h : statusOf msg = some (c, slot, obj)) : slot.Frame c msg := by
  rw [statusOf] at h
  split_ifs at h with hext
  dsimp only at h
  split_ifs at h with htunnel
  cases hdecode : decodeFrame msg.arbitrationId msg.data with
  | none =>
      rw [hdecode] at h
      cases h
  | some decoded =>
      obtain ⟨c', obj'⟩ := decoded
      rw [hdecode] at h
      dsimp only at h
      cases hslot : obj'.slot with
      | none =>
          rw [hslot] at h
          cases h
      | some slot' =>
          rw [hslot] at h
          cases h
          have hid := status_of_decodeFrame hdecode hslot
          refine ⟨Bool.eq_true_of_not_eq_false hext, hid, ?_⟩
          by_contra hsize
          rw [decodeFrame_status hid, if_neg hsize] at hdecode
          cases hdecode

/-- A message is a frame of one slot of one node at most. -/
theorem StatusSlot.Frame.eq {slot slot' : StatusSlot} {c c' : ℕ} {msg : CanMessage}
    (h : slot.Frame c msg) (h' : slot'.Frame c' msg) : c = c' ∧ slot = slot' := by
  have heq := (statusOf_of_frame h).symm.trans (statusOf_of_frame h')
  cases heq
  exact ⟨rfl, rfl⟩

/-! ### One message -/

theorem lookup_telemetryOf (s : BusState) (c : ℕ) :
    (s.telemetry.lookup c).getD ⟨c, [], []⟩ = s.telemetryOf c := rfl

theorem telemetryOf_recordStatus (s : BusState) (c c' : ℕ) (slot : StatusSlot)
    (obj : DecodedStatus) (now : ℚ) :
    (s.recordStatus c slot obj now).telemetryOf c' =
      if c' = c then
        { s.telemetryOf c with
          slots := Dict.set (s.telemetryOf c).slots slot obj
          stamps := Dict.set (s.telemetryOf c).stamps slot now }
      else s.telemetryOf c' := by
  rw [BusState.telemetryOf, BusState.recordStatus]
  dsimp only
  rw [Dict.lookup_set, lookup_telemetryOf]
  by_cases hc : c' = c
  · rw [if_pos hc, if_pos hc]
    rfl
  · rw [if_neg hc, if_neg hc]
    rfl

section Run
variable (crc : Bytes → UInt16)

theorem telemetry_onTunnelFrame (s : BusState) (packetId : ℕ) (data : Bytes) :
    (onTunnelFrame crc s packetId data).telemetry = s.telemetry := by
  rcases onTunnelFrame_cases crc s packetId data with ⟨_, _, h⟩ | ⟨_, _, h⟩ | h <;> rw [h] <;> rfl

/-- What a message does to the telemetry. -/
theorem telemetry_onMessage (s : BusState) (now : ℚ) (msg : CanMessage) :
    (onMessage crc s now msg).telemetry =
      match statusOf msg with
      | none => s.telemetry
      | some (c, slot, obj) => (s.recordStatus c slot obj now).telemetry := by
  rw [onMessage, statusOf]
  by_cases hext : msg.isExtendedId = false
  · rw [if_pos hext, if_pos hext]
  · rw [if_neg hext, if_neg hext]
    dsimp only
    by_cases htunnel : (splitArbitrationId msg.arbitrationId).2 = HOST_ID ∧
        (splitArbitrationId msg.arbitrationId).1 ∈ tunnelIds
    · rw [if_pos htunnel, if_pos htunnel]
      exact telemetry_onTunnelFrame crc s _ _
    · rw [if_neg htunnel, if_neg htunnel]
      cases decodeFrame msg.arbitrationId msg.data with
      | none => rfl
      | some decoded =>
          obtain ⟨c, obj⟩ := decoded
          cases obj with
          | pong responder hwType =>
              dsimp only [DecodedStatus.slot]
              split_ifs <;> rfl
          | _ => rfl

theorem telemetryOf_onMessage_of_frame {slot : StatusSlot} {c : ℕ} {msg : CanMessage}
    (h : slot.Frame c msg) (s : BusState) (now : ℚ) (c' : ℕ) :
    (onMessage crc s now msg).telemetryOf c' =
      if c' = c then
        { s.telemetryOf c with
          slots := Dict.set (s.telemetryOf c).slots slot (slot.decode msg.data)
          stamps := Dict.set (s.telemetryOf c).stamps slot now }
      else s.telemetryOf c' := by
  rw [← telemetryOf_recordStatus, BusState.telemetryOf, telemetry_onMessage, statusOf_of_frame h]
  rfl

/-- A message that is no status frame of the node leaves its snapshot as it is. -/
theorem telemetryOf_onMessage_of_not_frame {c : ℕ} {msg : CanMessage}
    (h : ∀ slot : StatusSlot, ¬ slot.Frame c msg) (s : BusState) (now : ℚ) :
    (onMessage crc s now msg).telemetryOf c = s.telemetryOf c := by
  cases hstatus : statusOf msg with
  | none =>
      rw [BusState.telemetryOf, telemetry_onMessage, hstatus]
      rfl
  | some status =>
      obtain ⟨c', slot, obj⟩ := status
      have hframe := frame_of_statusOf hstatus
      have hne : c ≠ c' := by
        rintro rfl
        exact h slot hframe
      rw [telemetryOf_onMessage_of_frame crc hframe, if_neg hne]

theorem mem_keys_onMessage (s : BusState) (now : ℚ) (msg : CanMessage) (c : ℕ) :
    c ∈ Dict.keys (onMessage crc s now msg).telemetry ↔
      c ∈ Dict.keys s.telemetry ∨ ∃ slot : StatusSlot, slot.Frame c msg := by
  rw [telemetry_onMessage]
  cases hstatus : statusOf msg with
  | none =>
      refine (or_iff_left ?_).symm
      rintro ⟨slot, hframe⟩
      rw [statusOf_of_frame hframe] at hstatus
      cases hstatus
  | some status =>
      obtain ⟨c', slot, obj⟩ := status
      have hframe := frame_of_statusOf hstatus
      change c ∈ Dict.keys (Dict.set s.telemetry c' _) ↔ _
      rw [Dict.mem_keys_set, or_comm]
      refine or_congr_right ?_
      constructor
      · rintro rfl
        exact ⟨slot, hframe⟩
      · rintro ⟨slot', hframe'⟩
        exact (hframe'.eq hframe).1

theorem nodup_keys_onMessage {s : BusState} (hs : (Dict.keys s.telemetry).Nodup) (now : ℚ)
    (msg : CanMessage) : (Dict.keys (onMessage crc s now msg).telemetry).Nodup := by
  rw [telemetry_onMessage]
  cases statusOf msg with
  | none => exact hs
  | some status => exact Dict.nodup_keys_set hs _ _

/-! ### Runs -/

/-- The last frame of a status that the node `c` sent, with its time. -/
def lastStatus (slot : StatusSlot) (c : ℕ) (events : List (ℚ × CanMessage)) :
    Option (ℚ × CanMessage) := (events.filter fun e => slot.Frame c e.2).getLast?

theorem lastStatus_concat (slot : StatusSlot) (c : ℕ) (events : List (ℚ × CanMessage))
    (e : ℚ × CanMessage) :
    lastStatus slot c (events ++ [e]) =
      if slot.Frame c e.2 then some e else lastStatus slot c events := by
  rw [lastStatus, List.filter_append, List.filter_singleton]
  by_cases h : slot.Frame c e.2
  · rw [decide_eq_true h, if_pos h]
    exact List.getLast?_concat
  · rw [decide_eq_false h, if_neg h]
    exact congrArg List.getLast? (List.append_nil _)

/-- The store has the last word of every node in `events`. -/
structure LastWord (events : List (ℚ × CanMessage)) (s : BusState) : Prop where
  controllerId : ∀ c, (s.telemetryOf c).controllerId = c
  status : ∀ (c : ℕ) (slot : StatusSlot), (s.telemetryOf c).slots.lookup slot =
    (lastStatus slot c events).map fun e => slot.decode e.2.data
  stamp : ∀ (c : ℕ) (slot : StatusSlot), (s.telemetryOf c).stamps.lookup slot =
    (lastStatus slot c events).map fun e => e.1
  known : ∀ c, c ∈ Dict.keys s.telemetry ↔ ∃ e ∈ events, ∃ slot : StatusSlot, slot.Frame c e.2
  nodup : (Dict.keys s.telemetry).Nodup

theorem lastWord_initial : LastWord [] BusState.initial where
  controllerId _ := rfl
  status _ _ := rfl
  stamp _ _ := rfl
  known _ := iff_of_false (List.not_mem_nil) fun ⟨_, he, _⟩ => List.not_mem_nil he
  nodup := List.nodup_nil

theorem LastWord.onMessage {events : List (ℚ × CanMessage)} {s : BusState}
    (h : LastWord events s) (now : ℚ) (msg : CanMessage) :
    LastWord (events ++ [(now, msg)]) (onMessage crc s now msg) := by
  have hnode (c : ℕ) : ((PyVesc.onMessage crc s now msg).telemetryOf c).controllerId = c ∧
      ∀ slot : StatusSlot,
        ((PyVesc.onMessage crc s now msg).telemetryOf c).slots.lookup slot =
          (lastStatus slot c (events ++ [(now, msg)])).map (fun e => slot.decode e.2.data) ∧
        ((PyVesc.onMessage crc s now msg).telemetryOf c).stamps.lookup slot =
          (lastStatus slot c (events ++ [(now, msg)])).map fun e => e.1 := by
    by_cases hframe : ∃ slot : StatusSlot, slot.Frame c msg
    · obtain ⟨slot, hframe⟩ := hframe
      rw [telemetryOf_onMessage_of_frame crc hframe, if_pos rfl]
      refine ⟨h.controllerId c, fun slot' => ?_⟩
      dsimp only
      rw [Dict.lookup_set, Dict.lookup_set, lastStatus_concat]
      by_cases hslot : slot' = slot
      · subst hslot
        rw [if_pos rfl, if_pos rfl, if_pos hframe]
        exact ⟨rfl, rfl⟩
      · rw [if_neg hslot, if_neg hslot, if_neg fun hframe' => hslot (hframe'.eq hframe).2]
        exact ⟨h.status c slot', h.stamp c slot'⟩
    · rw [not_exists] at hframe
      rw [telemetryOf_onMessage_of_not_frame crc hframe]
      refine ⟨h.controllerId c, fun slot => ?_⟩
      rw [lastStatus_concat, if_neg (hframe slot)]
      exact ⟨h.status c slot, h.stamp c slot⟩
  refine ⟨fun c => (hnode c).1, fun c slot => ((hnode c).2 slot).1,
    fun c slot => ((hnode c).2 slot).2, fun c => ?_, nodup_keys_onMessage crc h.nodup now msg⟩
  rw [mem_keys_onMessage, h.known]
  simp only [List.mem_append, List.mem_singleton, or_and_right, exists_or, exists_eq_left]

theorem lastWord_receiveAll (events : List (ℚ × CanMessage)) :
    LastWord events (receiveAll crc BusState.initial events) := by
  induction events using List.reverseRecOn with
  | nil => exact lastWord_initial
  | append_singleton events e ih =>
      rw [receiveAll, List.foldl_concat]
      exact ih.onMessage crc e.1 e.2

theorem pairwise_lt_knownNodes {events : List (ℚ × CanMessage)} {s : BusState}
    (h : LastWord events s) : s.knownNodes.Pairwise (· < ·) := by
  have hperm := List.mergeSort_perm (Dict.keys s.telemetry) (fun a b => decide (a ≤ b))
  have hle : s.knownNodes.Pairwise fun a b => decide (a ≤ b) = true :=
    List.pairwise_mergeSort
      (fun a b c hab hbc => decide_eq_true ((of_decide_eq_true hab).trans (of_decide_eq_true hbc)))
      (fun a b => by simpa using le_total a b) (Dict.keys s.telemetry)
  have hne := (hperm.nodup_iff.mpr h.nodup).and hle
  exact hne.imp fun hab => lt_of_le_of_ne (of_decide_eq_true hab.2) hab.1

theorem mem_knownNodes {events : List (ℚ × CanMessage)} {s : BusState} (h : LastWord events s)
    (c : ℕ) : c ∈ s.knownNodes ↔ ∃ e ∈ events, ∃ slot : StatusSlot, slot.Frame c e.2 :=
  List.mem_mergeSort.trans (h.known c)

end Run

end PyVesc
