import PyVesc.CanCommands
import PyVesc.Crc16
import PyVesc.StatusDecoding
import PyVesc.Transition

/-!
# Scanning the bus for nodes

`ping` and `scan` of the bus object against the receiving thread. The caller takes one step after
another, each of them between two accesses to what it shares with the receiving thread: the table of
pongs and the event. The receiving thread processes messages at any time; a pong for the host is
stored first, and its event is set in a step of its own.

The pings of a run are noted beside it, each with the events between the step that clears the entry
of the node and the step at which the ping returns.
-/

namespace PyVesc

/-! ### Pongs -/

/-- The responder and the hardware type of a pong that is addressed to the host. -/
def pongForHost (msg : CanMessage) : Option (ℕ × ℕ) :=
  if msg.isExtendedId = true ∧
      splitArbitrationId msg.arbitrationId = (CanPacketId.pong.value, HOST_ID) then
    pongOf msg.data
  else none

variable (crc : Bytes → UInt16)

/-- The table of pongs and their event. -/
def BusState.ponged (s : BusState) : Dict ℕ ℕ × Bool := (s.pongs, s.pongEvent)

theorem ponged_onTunnelFrame (s : BusState) (packetId : ℕ) (data : Bytes) :
    (onTunnelFrame crc s packetId data).ponged = s.ponged := by
  rcases onTunnelFrame_cases crc s packetId data with ⟨_, _, h⟩ | ⟨_, _, h⟩ | h <;> rw [h] <;> rfl

/-- Only a pong for the host changes the table and sets the event. -/
theorem ponged_onMessage (s : BusState) (now : ℚ) (msg : CanMessage) :
    (onMessage crc s now msg).ponged =
      match pongForHost msg with
      | some (responder, hwType) => (Dict.set s.pongs responder hwType, true)
      | none => s.ponged := by
  by_cases hpong : msg.isExtendedId = true ∧
      splitArbitrationId msg.arbitrationId = (CanPacketId.pong.value, HOST_ID)
  · obtain ⟨hext, hid⟩ := hpong
    have hdecode := decodeFrame_pong hid msg.data
    rw [pongForHost, if_pos ⟨hext, hid⟩, onMessage, if_neg (by rw [hext]; decide), hid]
    dsimp only
    rw [if_neg fun h => absurd h.2 (by decide), hdecode]
    cases pongOf msg.data with
    | none => rfl
    | some pong =>
      dsimp only [Option.map_some]
      rw [if_pos rfl]
      rfl
  · rw [pongForHost, if_neg hpong, onMessage]
    by_cases hext : msg.isExtendedId = false
    · rw [if_pos hext]
    · rw [if_neg hext]
      dsimp only
      split_ifs with htunnel
      · exact ponged_onTunnelFrame crc s _ _
      · cases hdecode : decodeFrame msg.arbitrationId msg.data with
        | none => rfl
        | some decoded =>
          obtain ⟨c, obj⟩ := decoded
          cases obj with
          | pong responder hwType =>
            have hid := (pong_of_decodeFrame hdecode).1
            have hhost : c ≠ HOST_ID := by
              rintro rfl
              exact hpong ⟨Bool.eq_true_of_not_eq_false hext, hid⟩
            dsimp only
            rw [if_neg hhost]
          | _ => rfl

namespace BusState

/-- `self._pongs.pop(controller_id, None)`. -/
def popPong (s : BusState) : ℤ → BusState
  | .ofNat c => { s with pongs := Dict.pop s.pongs c }
  | .negSucc _ => s

/-- `self._pongs[controller_id]`, if it is there. -/
def hwTypeOf (s : BusState) : ℤ → Option ℕ
  | .ofNat c => s.pongs.lookup c
  | .negSucc _ => none

theorem hwTypeOf_popPong (s : BusState) (c : ℤ) : (s.popPong c).hwTypeOf c = none := by
  cases c with
  | ofNat c => exact (Dict.lookup_pop s.pongs c c).trans (if_pos rfl)
  | negSucc _ => rfl

/-- What a message leaves for the caller to find at the node. -/
theorem hwTypeOf_onMessage (s : BusState) (now : ℚ) (msg : CanMessage) (c : ℤ) :
    (onMessage crc s now msg).hwTypeOf c =
      match pongForHost msg with
      | some (responder, hwType) => if c = responder then some hwType else s.hwTypeOf c
      | none => s.hwTypeOf c := by
  have hpongs := congrArg Prod.fst (ponged_onMessage crc s now msg)
  change (onMessage crc s now msg).pongs = _ at hpongs
  cases c with
  | ofNat c =>
    change (onMessage crc s now msg).pongs.lookup c = _
    rw [hpongs]
    cases pongForHost msg with
    | none => rfl
    | some pong =>
      dsimp only
      rw [Dict.lookup_set]
      simp only [Int.ofNat_eq_natCast, Nat.cast_inj]
      rfl
  | negSucc c =>
    cases pongForHost msg with
    | none => rfl
    | some pong => exact (if_neg (by omega)).symm

end BusState

/-! ### The caller and the receiving thread -/

inductive ScanPhase where
  /-- No ping is running. -/
  | idle
  | popped (c : ℤ)
  | sending (c : ℤ) (deadline : ℚ)
  /-- The head of the loop. -/
  | checking (c : ℤ) (deadline : ℚ)
  | clearing (c : ℤ) (deadline remaining : ℚ)
  | looking (c : ℤ) (deadline remaining : ℚ)
  | waiting (c : ℤ) (deadline ending : ℚ)
  /-- The look behind the wait. -/
  | woken (c : ℤ) (deadline : ℚ)
  | sleeping (c : ℤ) (ending : ℚ)
  | returned
  | raised (e : PyError)
  deriving DecidableEq, Repr

/-- The node that is being pinged. -/
def ScanPhase.pinging : ScanPhase → Option ℤ
  | .idle | .returned | .raised _ => none
  | .popped c | .sending c _ | .checking c _ | .clearing c _ _ | .looking c _ _ | .waiting c _ _
  | .woken c _ | .sleeping c _ => some c

structure NodeScan where
  bus : BusState
  clock : ℚ
  /-- A pong has been stored, and its event is not set yet. -/
  signalling : Bool
  /-- The ids that have not been pinged. -/
  ids : List ℤ
  found : Dict ℤ ℕ
  phase : ScanPhase
  deriving DecidableEq

namespace NodeScan

def initial (bus : BusState) (start : ℚ) (ids : List ℤ) : NodeScan :=
  ⟨bus, start, false, ids, [], .idle⟩

inductive Event where
  /-- The receiving thread processes a message. -/
  | receive (now : ℚ) (msg : CanMessage)
  /-- It sets the event of the pong that it has stored. -/
  | signal
  /-- The next step of the caller. -/
  | advance (now : ℚ)
  /-- The bus is dead: the ping cannot be sent. -/
  | sendFails (now : ℚ)
  /-- Sending the ping raises another exception. -/
  | sendRaises (now : ℚ) (e : PyError)
  deriving DecidableEq, Repr

def receive (s : NodeScan) (now : ℚ) (msg : CanMessage) : NodeScan :=
  { s with
    bus := { onMessage crc s.bus now msg with pongEvent := s.bus.pongEvent }
    clock := now
    signalling := (pongForHost msg).isSome }

/-- The ping of `c` returns. -/
def pinged (s : NodeScan) (c : ℤ) (hw : Option ℕ) : NodeScan :=
  match hw with
  | some hw => { s with found := Dict.set s.found c hw, phase := .idle }
  | none => { s with phase := .idle }

variable (timeout : ℚ)

def advance (s : NodeScan) (now : ℚ) : Option NodeScan :=
  match s.phase with
  | .idle =>
    match s.ids with
    | [] => some { s with phase := .returned }
    | c :: ids => some { s with bus := s.bus.popPong c, ids := ids, phase := .popped c }
  | .popped c => some { s with phase := .sending c (now + timeout) }
  | .sending c deadline =>
    match encodePing c HOST_ID with
    | .ok _ => some { s with phase := .checking c deadline }
    | .error e => some { s with phase := .raised e }
  | .checking c deadline =>
    if deadline - now ≤ 0 then some (s.pinged c none)
    else some { s with phase := .clearing c deadline (deadline - now) }
  | .clearing c deadline remaining =>
    some { s with bus := { s.bus with pongEvent := false }, phase := .looking c deadline remaining }
  | .looking c deadline remaining =>
    match s.bus.hwTypeOf c with
    | some hw => some (s.pinged c (some hw))
    | none => some { s with phase := .waiting c deadline (now + remaining) }
  | .waiting c deadline ending =>
    if s.bus.pongEvent = true ∨ ending ≤ now then some { s with phase := .woken c deadline }
    else none
  | .woken c deadline =>
    match s.bus.hwTypeOf c with
    | some hw => some (s.pinged c (some hw))
    | none => some { s with phase := .checking c deadline }
  | .sleeping c ending => if ending ≤ now then some (s.pinged c none) else none
  | .returned | .raised _ => none

/-- The ping is encoded, and the bus cannot send it. -/
def sendFails (s : NodeScan) (now : ℚ) : Option NodeScan :=
  match s.phase with
  | .sending c _ =>
    match encodePing c HOST_ID with
    | .ok _ =>
      if timeout < 0 then
        some { s with phase := .raised (.valueError "sleep length must be non-negative") }
      else some { s with phase := .sleeping c (now + timeout) }
    | .error _ => none
  | _ => none

def step (s : NodeScan) : Event → Option NodeScan
  | .receive now msg =>
    if s.clock ≤ now ∧ s.signalling = false then some (s.receive crc now msg) else none
  | .signal =>
    if s.signalling = true then
      some { s with bus := { s.bus with pongEvent := true }, signalling := false }
    else none
  | .advance now => if s.clock ≤ now then advance timeout { s with clock := now } now else none
  | .sendFails now => if s.clock ≤ now then sendFails timeout { s with clock := now } now else none
  | .sendRaises now e =>
    match s.phase with
    | .sending c _ =>
      if s.clock ≤ now ∧ (encodePing c HOST_ID).isOk then
        some { s with clock := now, phase := .raised e }
      else none
    | _ => none

/-! ### What a step does -/

/-- The step is a look at the table. -/
def looks (s : NodeScan) : Event → Bool
  | .advance _ =>
    match s.phase with
    | .looking .. | .woken .. => true
    | _ => false
  | _ => false

/-- The steps of the system, as far as the table and the result are concerned. -/
inductive Does (s : NodeScan) (e : Event) (t : NodeScan) : Prop
  | other (hids : t.ids = s.ids) (hfound : t.found = s.found)
      (hphase : t.phase.pinging = s.phase.pinging ∨ t.phase.pinging = none)
      (hbus : ∀ c, t.bus.hwTypeOf c = s.bus.hwTypeOf c)
      (hlook : s.looks e = true → ∀ c, s.phase.pinging = some c → s.bus.hwTypeOf c = none)
      (hreturned : t.phase = .returned → s.phase = .returned ∨ s.ids = [])
      (hevent : ∀ now msg, e ≠ .receive now msg)
  | receives (now : ℚ) (msg : CanMessage) (hevent : e = .receive now msg) (hids : t.ids = s.ids)
      (hfound : t.found = s.found) (hphase : t.phase = s.phase)
      (hbus : ∀ c, t.bus.hwTypeOf c = (onMessage crc s.bus now msg).hwTypeOf c)
  | starts (c : ℤ) (hidle : s.phase.pinging = none) (hids : s.ids = c :: t.ids)
      (hfound : t.found = s.found) (hphase : t.phase.pinging = some c)
      (hbus : t.bus.hwTypeOf c = none)
  | finds (c : ℤ) (hw : ℕ) (hpinging : s.phase.pinging = some c) (hids : t.ids = s.ids)
      (hbus : s.bus.hwTypeOf c = some hw) (hfound : t.found = Dict.set s.found c hw)
      (hphase : t.phase = .idle) (hevent : ∀ now msg, e ≠ .receive now msg)

variable {crc timeout} {s t : NodeScan}

theorem hwTypeOf_pongEvent (s : BusState) (set : Bool) (c : ℤ) :
    ({ s with pongEvent := set } : BusState).hwTypeOf c = s.hwTypeOf c := by
  cases c <;> rfl

/-- A step of the caller that does not look at the table, and does not begin or end a ping with an
answer. -/
theorem Does.caller {e : Event} (hevent : ∀ now msg, e ≠ .receive now msg)
    (hids : t.ids = s.ids) (hfound : t.found = s.found)
    (hphase : t.phase.pinging = s.phase.pinging ∨ t.phase.pinging = none)
    (hbus : ∀ c, t.bus.hwTypeOf c = s.bus.hwTypeOf c) (hlook : s.looks e = false)
    (hreturned : t.phase = .returned → s.phase = .returned ∨ s.ids = []) : Does crc s e t := by
  refine .other hids hfound hphase hbus (fun h => ?_) hreturned hevent
  rw [hlook] at h
  cases h

/-- A look at the table ends the ping with an answer, or finds nothing and goes on. -/
theorem Does.look {e : Event} (hevent : ∀ now msg, e ≠ .receive now msg) {c : ℤ}
    {phase : ScanPhase} {now : ℚ} (hpinging : s.phase.pinging = some c)
    (hphase : phase.pinging = some c)
    (h : (match s.bus.hwTypeOf c with
      | some hw => some (({ s with clock := now } : NodeScan).pinged c (some hw))
      | none => some { s with clock := now, phase := phase }) = some t) : Does crc s e t := by
  cases hlook : s.bus.hwTypeOf c with
  | some hw =>
    rw [hlook] at h
    cases h
    exact .finds c hw hpinging rfl hlook rfl rfl hevent
  | none =>
    rw [hlook] at h
    cases h
    refine .other rfl rfl (Or.inl (hphase.trans hpinging.symm)) (fun _ => rfl)
      (fun _ c' hc' => ?_) (fun hreturned => ?_) hevent
    · cases hpinging.symm.trans hc'
      exact hlook
    · rw [show phase = .returned from hreturned] at hphase
      cases hphase

theorem advance_does {now start : ℚ} (h : advance timeout { s with clock := start } now = some t) :
    Does crc s (.advance now) t := by
  obtain ⟨bus, clock, signalling, ids, found, phase⟩ := s
  cases phase with
  | idle =>
    cases ids with
    | nil =>
      cases h
      exact .caller nofun rfl rfl (Or.inl rfl) (fun _ => rfl) rfl fun _ => Or.inr rfl
    | cons c ids =>
      cases h
      exact .starts c rfl rfl rfl rfl (BusState.hwTypeOf_popPong bus c)
  | popped c =>
    cases h
    exact .caller nofun rfl rfl (Or.inl rfl) (fun _ => rfl) rfl nofun
  | sending c deadline =>
    rw [advance] at h
    dsimp only at h
    split at h
    · cases h
      exact .caller nofun rfl rfl (Or.inl rfl) (fun _ => rfl) rfl nofun
    · cases h
      exact .caller nofun rfl rfl (Or.inr rfl) (fun _ => rfl) rfl nofun
  | checking c deadline =>
    rw [advance] at h
    dsimp only at h
    split_ifs at h
    · cases h
      exact .caller nofun rfl rfl (Or.inr rfl) (fun _ => rfl) rfl nofun
    · cases h
      exact .caller nofun rfl rfl (Or.inl rfl) (fun _ => rfl) rfl nofun
  | clearing c deadline remaining =>
    cases h
    exact .caller nofun rfl rfl (Or.inl rfl) (hwTypeOf_pongEvent bus false) rfl nofun
  | looking c deadline remaining => exact .look nofun rfl rfl h
  | waiting c deadline ending =>
    rw [advance] at h
    dsimp only at h
    split_ifs at h
    cases h
    exact .caller nofun rfl rfl (Or.inl rfl) (fun _ => rfl) rfl nofun
  | woken c deadline => exact .look nofun rfl rfl h
  | sleeping c ending =>
    rw [advance] at h
    dsimp only at h
    split_ifs at h
    cases h
    exact .caller nofun rfl rfl (Or.inr rfl) (fun _ => rfl) rfl nofun
  | returned => cases h
  | raised e => cases h

theorem sendFails_does {now start : ℚ}
    (h : sendFails timeout { s with clock := start } now = some t) :
    Does crc s (.sendFails now) t := by
  obtain ⟨bus, clock, signalling, ids, found, phase⟩ := s
  cases phase with
  | sending c deadline =>
    rw [sendFails] at h
    dsimp only at h
    split at h
    · split_ifs at h
      · cases h
        exact .caller nofun rfl rfl (Or.inr rfl) (fun _ => rfl) rfl nofun
      · cases h
        exact .caller nofun rfl rfl (Or.inl rfl) (fun _ => rfl) rfl nofun
    · cases h
  | _ => cases h

theorem step_does {e : Event} (h : step crc timeout s e = some t) : Does crc s e t := by
  cases e with
  | receive now msg =>
    obtain ⟨_, ht⟩ := Option.ite_none_right_eq_some.mp h
    cases ht
    exact .receives now msg rfl rfl rfl rfl (hwTypeOf_pongEvent _ _)
  | signal =>
    obtain ⟨_, ht⟩ := Option.ite_none_right_eq_some.mp h
    cases ht
    exact .caller nofun rfl rfl (Or.inl rfl) (hwTypeOf_pongEvent s.bus true) rfl Or.inl
  | advance now =>
    obtain ⟨_, ht⟩ := Option.ite_none_right_eq_some.mp h
    exact advance_does ht
  | sendFails now =>
    obtain ⟨_, ht⟩ := Option.ite_none_right_eq_some.mp h
    exact sendFails_does ht
  | sendRaises now e =>
    rw [step] at h
    split at h
    · obtain ⟨_, ht⟩ := Option.ite_none_right_eq_some.mp h
      cases ht
      exact .caller nofun rfl rfl (Or.inr rfl) (fun _ => rfl) rfl nofun
    · cases h

/-! ### The pings of a run -/

/-- A ping with the events after the step that has cleared its entry, up to the step at which it
ends, and those of them that came before its last look at the table. -/
structure Ping where
  id : ℤ
  events : List Event
  beforeLook : List Event
  deriving DecidableEq

/-- The pings after a step from `s` to `t`, the last one first. -/
def note (s : NodeScan) (e : Event) (t : NodeScan) (pings : List Ping) : List Ping :=
  match s.phase.pinging with
  | some _ => pings.modifyHead fun p =>
      ⟨p.id, p.events ++ [e], if s.looks e then p.events else p.beforeLook⟩
  | none =>
    match t.phase.pinging with
    | some c => ⟨c, [], []⟩ :: pings
    | none => pings

variable (crc timeout) in
/-- The system with the pings noted beside it. -/
def observed (o : NodeScan × List Ping) (e : Event) : Option (NodeScan × List Ping) :=
  (step crc timeout o.1 e).map fun t => (t, note o.1 e t o.2)

/-- A pong from the node `c` with this hardware type, addressed to the host, is among the events. -/
def Heard (events : List Event) (c : ℤ) (hwType : ℕ) : Prop :=
  ∃ now msg, ∃ responder : ℕ, Event.receive now msg ∈ events ∧
    pongForHost msg = some (responder, hwType) ∧ c = responder

theorem Heard.mono {events : List Event} {c : ℤ} {hw : ℕ} (h : Heard events c hw)
    (after : List Event) : Heard (events ++ after) c hw := by
  obtain ⟨now, msg, responder, hmem, hpong, hc⟩ := h
  exact ⟨now, msg, responder, List.mem_append_left _ hmem, hpong, hc⟩

theorem heard_concat_receive {events : List Event} {now : ℚ} {msg : CanMessage} {c : ℤ} {hw : ℕ} :
    Heard (events ++ [.receive now msg]) c hw ↔
      Heard events c hw ∨
        ∃ responder : ℕ, pongForHost msg = some (responder, hw) ∧ c = responder := by
  constructor
  · rintro ⟨now', msg', responder, hmem, hpong, hc⟩
    rcases List.mem_append.mp hmem with hmem | hmem
    · exact Or.inl ⟨now', msg', responder, hmem, hpong, hc⟩
    · cases List.mem_singleton.mp hmem
      exact Or.inr ⟨responder, hpong, hc⟩
  · rintro (h | ⟨responder, hpong, hc⟩)
    · exact h.mono _
    · exact ⟨now, msg, responder, List.mem_append_right _ List.mem_cons_self, hpong, hc⟩

theorem heard_concat_other {events : List Event} {e : Event} (he : ∀ now msg, e ≠ .receive now msg)
    {c : ℤ} {hw : ℕ} : Heard (events ++ [e]) c hw ↔ Heard events c hw := by
  constructor
  · rintro ⟨now, msg, responder, hmem, hpong, hc⟩
    rcases List.mem_append.mp hmem with hmem | hmem
    · exact ⟨now, msg, responder, hmem, hpong, hc⟩
    · exact absurd (List.mem_singleton.mp hmem).symm (he now msg)
  · exact fun h => h.mono _

/-- The running ping: what the table says of its node was heard since the entry was cleared, nothing
that was heard is missing, and no look has found anything. -/
structure Current (s : NodeScan) (c : ℤ) (p : Ping) : Prop where
  id : p.id = c
  heard : ∀ hw, s.bus.hwTypeOf c = some hw → Heard p.events c hw
  stored : ∀ hw, Heard p.events c hw → s.bus.hwTypeOf c ≠ none
  unseen : ∀ hw, ¬ Heard p.beforeLook c hw

structure Inv (ids : List ℤ) (o : NodeScan × List Ping) : Prop where
  order : ids = (o.2.map Ping.id).reverse ++ o.1.ids
  sound : ∀ c hw, o.1.found.lookup c = some hw → ∃ p ∈ o.2, p.id = c ∧ Heard p.events c hw
  complete : ∀ p ∈ o.2, ∀ hw, Heard p.beforeLook p.id hw → ∃ hw', o.1.found.lookup p.id = some hw'
  current : ∀ c, o.1.phase.pinging = some c → ∃ p pings, o.2 = p :: pings ∧ Current o.1 c p

theorem inv_initial (bus : BusState) (start : ℚ) (ids : List ℤ) :
    Inv ids (initial bus start ids, []) where
  order := rfl
  sound c hw h := by cases h
  complete p hp := by cases hp
  current c h := by cases h

/-- What is noted of a step while a ping runs. -/
theorem note_running {e : Event} {c : ℤ} (h : s.phase.pinging = some c) (p : Ping)
    (pings : List Ping) : note s e t (p :: pings) =
      ⟨p.id, p.events ++ [e], if s.looks e then p.events else p.beforeLook⟩ :: pings := by
  rw [note, h]
  rfl

/-- The result stays sound when more events are noted of the running ping. -/
theorem sound_concat {p : Ping} {pings : List Ping} {found : Dict ℤ ℕ} {e : Event}
    {seen : List Event}
    (h : ∀ c hw, found.lookup c = some hw → ∃ q ∈ p :: pings, q.id = c ∧ Heard q.events c hw) :
    ∀ c hw, found.lookup c = some hw →
      ∃ q ∈ ⟨p.id, p.events ++ [e], seen⟩ :: pings, q.id = c ∧ Heard q.events c hw := by
  intro c hw hfound
  obtain ⟨q, hq, hid, hheard⟩ := h c hw hfound
  rcases List.mem_cons.mp hq with rfl | hq
  · exact ⟨_, List.mem_cons_self, hid, hheard.mono _⟩
  · exact ⟨q, List.mem_cons_of_mem _ hq, hid, hheard⟩

theorem not_heard_nil {c : ℤ} {hw : ℕ} : ¬ Heard [] c hw := by
  rintro ⟨_, _, _, hmem, _⟩
  cases hmem

/-- A look that finds nothing keeps the running ping unseen. -/
theorem Current.unseen_concat {c : ℤ} {p : Ping} (h : Current s c p) {e : Event}
    (hlook : s.looks e = true → s.bus.hwTypeOf c = none) (hw : ℕ) :
    ¬ Heard (if s.looks e then p.events else p.beforeLook) c hw := by
  by_cases hl : s.looks e = true
  · rw [if_pos hl]
    exact fun hheard => h.stored hw hheard (hlook hl)
  · rw [if_neg hl]
    exact h.unseen hw

/-- The running ping after a step that does not find its node. -/
theorem Inv.concat {ids : List ℤ} {c : ℤ} {p : Ping} {pings : List Ping} {e : Event}
    (h : Inv ids (s, p :: pings)) (hp : Current s c p) (hpinging : s.phase.pinging = some c)
    (hids : t.ids = s.ids) (hfound : t.found = s.found)
    (hphase : ∀ c', t.phase.pinging = some c' → c' = c)
    (hlook : s.looks e = true → s.bus.hwTypeOf c = none)
    (hheard : ∀ hw, t.bus.hwTypeOf c = some hw → Heard (p.events ++ [e]) c hw)
    (hstored : ∀ hw, Heard (p.events ++ [e]) c hw → t.bus.hwTypeOf c ≠ none) :
    Inv ids (t, note s e t (p :: pings)) := by
  have hunseen := hp.unseen_concat hlook
  rw [note_running hpinging]
  constructor
  · rw [hids]
    exact h.order
  · rw [hfound]
    exact sound_concat h.sound
  · rw [hfound]
    intro q hq hw hseen
    rcases List.mem_cons.mp hq with rfl | hq
    · rw [← hp.id] at hunseen
      exact absurd hseen (hunseen hw)
    · exact h.complete q (List.mem_cons_of_mem _ hq) hw hseen
  · intro c' hc'
    rw [hphase c' hc']
    exact ⟨_, _, rfl, hp.id, hheard, hstored, hunseen⟩

/-- A step between two pings that does not start one. -/
theorem Inv.idle {ids : List ℤ} {pings : List Ping} {e : Event} (h : Inv ids (s, pings))
    (hs : s.phase.pinging = none) (ht : t.phase.pinging = none) (hids : t.ids = s.ids)
    (hfound : t.found = s.found) : Inv ids (t, note s e t pings) := by
  have hnote : note s e t pings = pings := by rw [note, hs, ht]
  rw [hnote]
  constructor
  · rw [hids]
    exact h.order
  · rw [hfound]
    exact h.sound
  · rw [hfound]
    exact h.complete
  · intro c hc
    rw [ht] at hc
    cases hc

theorem Inv.starts {ids : List ℤ} {pings : List Ping} {e : Event} {c : ℤ} (h : Inv ids (s, pings))
    (hs : s.phase.pinging = none) (hids : s.ids = c :: t.ids) (hfound : t.found = s.found)
    (ht : t.phase.pinging = some c) (hbus : t.bus.hwTypeOf c = none) :
    Inv ids (t, note s e t pings) := by
  have hnote : note s e t pings = ⟨c, [], []⟩ :: pings := by rw [note, hs, ht]
  have horder := h.order
  rw [hnote]
  constructor
  · rw [hids] at horder
    rw [horder, List.map_cons, List.reverse_cons, List.append_assoc]
    rfl
  · rw [hfound]
    intro c' hw hlookup
    obtain ⟨q, hq, hheard⟩ := h.sound c' hw hlookup
    exact ⟨q, List.mem_cons_of_mem _ hq, hheard⟩
  · rw [hfound]
    intro q hq hw hseen
    rcases List.mem_cons.mp hq with rfl | hq
    · exact absurd hseen not_heard_nil
    · exact h.complete q hq hw hseen
  · intro c' hc'
    rw [ht] at hc'
    cases hc'
    refine ⟨_, _, rfl, rfl, fun hw hlookup => ?_, fun hw hheard => absurd hheard not_heard_nil,
      fun _ => not_heard_nil⟩
    rw [hbus] at hlookup
    cases hlookup

theorem Inv.finds {ids : List ℤ} {p : Ping} {pings : List Ping} {e : Event} {c : ℤ} {hw : ℕ}
    (h : Inv ids (s, p :: pings)) (hp : Current s c p) (hpinging : s.phase.pinging = some c)
    (hids : t.ids = s.ids) (hbus : s.bus.hwTypeOf c = some hw)
    (hfound : t.found = Dict.set s.found c hw) (ht : t.phase = .idle) :
    Inv ids (t, note s e t (p :: pings)) := by
  have hlookup (c' : ℤ) := Dict.lookup_set s.found c c' hw
  rw [note_running hpinging]
  constructor
  · rw [hids]
    exact h.order
  · intro c' hw' hfound'
    rw [hfound, hlookup] at hfound'
    by_cases hc : c' = c
    · rw [if_pos hc] at hfound'
      cases hfound'
      rw [hc]
      exact ⟨_, List.mem_cons_self, hp.id, (hp.heard hw hbus).mono _⟩
    · rw [if_neg hc] at hfound'
      exact sound_concat h.sound c' hw' hfound'
  · intro q hq hw' hseen
    rw [hfound, hlookup]
    by_cases hc : q.id = c
    · rw [if_pos hc]
      exact ⟨hw, rfl⟩
    · rw [if_neg hc]
      rcases List.mem_cons.mp hq with rfl | hq
      · exact absurd hp.id hc
      · exact h.complete q (List.mem_cons_of_mem _ hq) hw' hseen
  · intro c' hc'
    rw [ht] at hc'
    cases hc'

variable (crc) in
/-- The running ping after a message: what the table says of its node is still what was heard. -/
theorem Current.receive {c : ℤ} {p : Ping} (h : Current s c p) (now : ℚ) (msg : CanMessage) :
    (∀ hw, (onMessage crc s.bus now msg).hwTypeOf c = some hw →
      Heard (p.events ++ [.receive now msg]) c hw) ∧
    ∀ hw, Heard (p.events ++ [.receive now msg]) c hw →
      (onMessage crc s.bus now msg).hwTypeOf c ≠ none := by
  simp only [BusState.hwTypeOf_onMessage, heard_concat_receive]
  cases pongForHost msg with
  | none =>
    refine ⟨fun hw hlookup => Or.inl (h.heard hw hlookup), fun hw hheard => ?_⟩
    rcases hheard with hheard | ⟨_, hnone, _⟩
    · exact h.stored hw hheard
    · cases hnone
  | some pong =>
    dsimp only
    by_cases hc : c = pong.1
    · rw [if_pos hc]
      refine ⟨fun hw hlookup => ?_, fun _ _ => Option.some_ne_none _⟩
      cases hlookup
      exact Or.inr ⟨pong.1, rfl, hc⟩
    · rw [if_neg hc]
      refine ⟨fun hw hlookup => Or.inl (h.heard hw hlookup), fun hw hheard => ?_⟩
      rcases hheard with hheard | ⟨responder, hsome, hresponder⟩
      · exact h.stored hw hheard
      · cases hsome
        exact absurd hresponder hc

theorem Inv.step {ids : List ℤ} {pings : List Ping} {e : Event} (h : Inv ids (s, pings))
    (hdoes : Does crc s e t) : Inv ids (t, note s e t pings) := by
  cases hdoes with
  | other hids hfound hphase hbus hlook _ hevent =>
    cases hpinging : s.phase.pinging with
    | none =>
      rw [hpinging, or_self] at hphase
      exact h.idle hpinging hphase hids hfound
    | some c =>
      obtain ⟨p, rest, rfl, hp⟩ := h.current c hpinging
      refine h.concat hp hpinging hids hfound ?_ (fun hl => hlook hl c hpinging) ?_ ?_
      · intro c' hc'
        rcases hphase with hsame | hnone
        · rw [hsame, hpinging] at hc'
          exact (Option.some.inj hc').symm
        · rw [hnone] at hc'
          cases hc'
      · intro hw hlookup
        rw [hbus] at hlookup
        exact (hp.heard hw hlookup).mono _
      · intro hw hheard
        rw [hbus]
        exact hp.stored hw ((heard_concat_other hevent).mp hheard)
  | receives now msg hevent hids hfound hphase hbus =>
    subst hevent
    cases hpinging : s.phase.pinging with
    | none => exact h.idle hpinging (by rw [hphase, hpinging]) hids hfound
    | some c =>
      obtain ⟨p, rest, rfl, hp⟩ := h.current c hpinging
      have hreceived := hp.receive crc now msg
      rw [← hbus] at hreceived
      refine h.concat hp hpinging hids hfound ?_ Bool.noConfusion hreceived.1 hreceived.2
      intro c' hc'
      rw [hphase, hpinging] at hc'
      exact (Option.some.inj hc').symm
  | starts c hidle hids hfound hphase hbus => exact h.starts hidle hids hfound hphase hbus
  | finds c hw hpinging hids hbus hfound hphase _ =>
    obtain ⟨p, rest, rfl, hp⟩ := h.current c hpinging
    exact h.finds hp hpinging hids hbus hfound hphase

theorem ids_of_returned {e : Event} (h : s.phase = .returned → s.ids = [])
    (hdoes : Does crc s e t) : t.phase = .returned → t.ids = [] := by
  intro ht
  cases hdoes with
  | other hids _ _ _ _ hreturned _ =>
    rw [hids]
    exact (hreturned ht).elim h id
  | receives _ _ _ hids _ hphase _ =>
    rw [hids]
    exact h (hphase.symm.trans ht)
  | starts c _ _ _ hphase _ =>
    rw [ht] at hphase
    cases hphase
  | finds _ _ _ _ _ _ hphase _ =>
    rw [ht] at hphase
    cases hphase

/-- A scan that returns has pinged its ids in order. It reports a node just with a hardware type
that was heard while the node was pinged, and every node heard before the last look of its ping. -/
theorem scan_reports (crc : Bytes → UInt16) (timeout : ℚ) (bus : BusState) (start : ℚ)
    (ids : List ℤ) (events : List Event) (t : NodeScan) (pings : List Ping)
    (hrun : Transition.run (observed crc timeout) (initial bus start ids, []) events =
      some (t, pings)) (hreturned : t.phase = .returned) :
    (∀ c hw, t.found.lookup c = some hw → ∃ p ∈ pings, p.id = c ∧ Heard p.events c hw) ∧
    (∀ p ∈ pings, ∀ hw, Heard p.beforeLook p.id hw → ∃ hw', t.found.lookup p.id = some hw') ∧
    (pings.map Ping.id).reverse = ids := by
  have hstep : ∀ o e o', Inv ids o ∧ (o.1.phase = .returned → o.1.ids = []) →
      observed crc timeout o e = some o' →
        Inv ids o' ∧ (o'.1.phase = .returned → o'.1.ids = []) := by
    rintro ⟨s, pings⟩ e o' ⟨hinv, hids⟩ ho
    obtain ⟨t, ht, rfl⟩ := Option.map_eq_some_iff.mp ho
    exact ⟨hinv.step (step_does ht), ids_of_returned hids (step_does ht)⟩
  obtain ⟨hinv, hids⟩ := Transition.run_preserves hstep events _ (t, pings)
    ⟨inv_initial bus start ids, fun h => by cases h⟩ hrun
  refine ⟨hinv.sound, hinv.complete, ?_⟩
  have horder := hinv.order
  rw [hids hreturned, List.append_nil] at horder
  exact horder.symm

/-- A scan of node 7, whose pong comes while the caller waits. -/
def answeredScan : List Event :=
  List.replicate 6 (.advance 0) ++ [.receive (1 / 10) ⟨true, 0x12fe, [7, 0]⟩, .signal] ++
    List.replicate 3 (.advance (1 / 5))

theorem scan_reports_answered : ∃ t pings,
    Transition.run (observed Crc16.xmodem (1 / 2)) (initial .initial 0 [7], []) answeredScan =
      some (t, pings) ∧ t.phase = .returned ∧ t.found = [(7, 0)] ∧
      ∃ p ∈ pings, p.id = 7 ∧ Heard p.events 7 0 := by
  have hrun : (Transition.run (observed Crc16.xmodem (1 / 2)) (initial .initial 0 [7], [])
      answeredScan).map (fun o => (o.1.phase, o.1.found)) = some (.returned, [(7, 0)]) := by
    decide +kernel
  obtain ⟨⟨t, pings⟩, ht, hview⟩ := Option.map_eq_some_iff.mp hrun
  simp only [Prod.mk.injEq] at hview
  obtain ⟨hreturned, hfound⟩ := hview
  have hlookup : t.found.lookup 7 = some 0 := by
    rw [hfound]
    rfl
  exact ⟨t, pings, ht, hreturned, hfound, (scan_reports Crc16.xmodem (1 / 2) .initial 0 [7]
    answeredScan t pings ht hreturned).1 7 0 hlookup⟩

end NodeScan

end PyVesc
