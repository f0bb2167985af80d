import PyVesc.RequestLock

/-!
# Requests in threads as calls of one caller

The lock makes the calls of all threads the calls of one caller, in the order in which they clear
the slot. Such a caller clears the slot and the event and sends its whole request at once; a call of
a thread does so in many steps, and a late reply may come between any two of them. That a reply may
find the event cleared behind it makes no difference, since a wait ends and then the slot is looked
at. A request that is given up half-sent is one that its node never answers.
-/

namespace PyVesc

variable (crc : Bytes → UInt16)

/-! ### The event apart -/

theorem onTunnelFrame_commEvent (s : BusState) (set : Bool) (packetId : ℕ) (data : Bytes) :
    ∃ set', onTunnelFrame crc { s with commEvent := set } packetId data =
      { onTunnelFrame crc s packetId data with commEvent := set' } := by
  unfold onTunnelFrame
  split_ifs
  · split <;> exact ⟨_, rfl⟩
  · split <;> exact ⟨_, rfl⟩
  · split <;> exact ⟨_, rfl⟩
  · split
    · dsimp only
      split_ifs <;> exact ⟨_, rfl⟩
    · exact ⟨_, rfl⟩
  · exact ⟨_, rfl⟩

/-- What a message does besides setting the event does not depend on the event. -/
theorem onMessage_commEvent (s : BusState) (set : Bool) (now : ℚ) (msg : CanMessage) :
    ∃ set', onMessage crc { s with commEvent := set } now msg =
      { onMessage crc s now msg with commEvent := set' } := by
  unfold onMessage
  split_ifs
  · exact ⟨_, rfl⟩
  · dsimp only
    split_ifs
    · exact onTunnelFrame_commEvent crc s set _ _
    · cases decodeFrame msg.arbitrationId msg.data with
      | none => exact ⟨_, rfl⟩
      | some decoded =>
        obtain ⟨controllerId, obj⟩ := decoded
        cases obj with
        | pong responder hwType =>
          dsimp only
          split_ifs <;> exact ⟨_, rfl⟩
        | _ => exact ⟨_, rfl⟩

/-! ### The one caller -/

/-- What a thread in the body is to the one caller. A request that cannot be encoded is over when
the slot is cleared. -/
def RequestPhase.net : RequestPhase → Phase
  | .idle | .acquiring _ | .entered _ => .idle
  | .cleared n r =>
    match encodeCommFrames crc r.controllerId HOST_ID r.payload 0 with
    | .ok _ => .waiting n r.controllerId
    | .error _ => .idle
  | .sending n r _ => .waiting n r.controllerId
  | .checking n c _ | .resting n c _ _ | .waiting n c _ _ | .looking n c _ | .unpacking n c _
  | .rearming n c _ => .waiting n c
  | .dropping n c _ => .discarding n c

/-- The request of the one caller that no node can answer so far. -/
def RequestPhase.unsent : RequestPhase → List (ℕ × ℕ)
  | .cleared n r =>
    match encodeCommFrames crc r.controllerId HOST_ID r.payload 0 with
    | .ok _ => [(r.controllerId, n)]
    | .error _ => []
  | .sending n r (_ :: _) => [(r.controllerId, n)]
  | _ => []

variable {crc} in
theorem RequestPhase.cleared_of_ok {r : CommRequest} {frames : List VescFrame}
    (h : encodeCommFrames crc r.controllerId HOST_ID r.payload 0 = .ok frames) (n : ℕ) :
    (cleared n r).net crc = .waiting n r.controllerId ∧
      (cleared n r).unsent crc = [(r.controllerId, n)] := by
  simp only [net, unsent, h, and_self]

variable {crc} in
theorem RequestPhase.cleared_of_error {r : CommRequest} {e : PyError}
    (h : encodeCommFrames crc r.controllerId HOST_ID r.payload 0 = .error e) (n : ℕ) :
    (cleared n r).net crc = .idle ∧ (cleared n r).unsent crc = [] := by
  simp only [net, unsent, h, and_self]

namespace RequestThreads

variable {ι : Type}

/-- Where the thread with the lock is. -/
def current (s : RequestThreads ι) : RequestPhase :=
  match s.owner with
  | some k => s.phases k
  | none => .idle

/-- The calls that returned bytes, and what they returned. -/
def replies (results : List (ι × ℕ × Py (Option Bytes))) : List (ℕ × Bytes) :=
  results.filterMap fun entry =>
    match entry.2.2 with
    | .ok (some reply) => some (entry.2.1, reply)
    | _ => none

/-- The threads as the one caller sees them. -/
structure Implements (s : RequestThreads ι) (u : TunnelNet) : Prop where
  bus : ∃ set, u.bus = { s.bus with commEvent := set }
  calls : u.calls = s.asked.length
  phase : u.phase = s.current.net crc
  pending : u.pending.Perm (s.current.unsent crc ++ s.pending)
  answered : u.answered = s.answered
  wire : u.wire = s.wire
  returned : u.returned = replies s.results

theorem implements_initial : Implements crc (initial : RequestThreads ι) TunnelNet.initial :=
  ⟨⟨false, rfl⟩, rfl, rfl, .nil, rfl, rfl, rfl⟩

variable {crc} {s t : RequestThreads ι} {u : TunnelNet} {k : ι} {phase : RequestPhase}

theorem Implements.setEvent (h : Implements crc s u) (set : Bool) :
    Implements crc (s.setEvent set) u :=
  ⟨h.bus, h.calls, h.phase, h.pending, h.answered, h.wire, h.returned⟩

theorem Implements.atTime (h : Implements crc s u) (now : ℚ) : Implements crc (s.atTime now) u :=
  ⟨h.bus, h.calls, h.phase, h.pending, h.answered, h.wire, h.returned⟩

theorem current_of_owner (h : s.owner = some k) : s.current = s.phases k := by
  rw [current, h]

section Goto

variable [DecidableEq ι]

theorem current_goto (h : s.owner = some k) (phase : RequestPhase) :
    (s.goto k phase).current = phase :=
  (@current_of_owner ι (s.goto k phase) k h).trans (phases_goto_self s k phase)

/-- A step of the caller's thread that the one caller does not see. -/
theorem Implements.goto (h : Implements crc s u) (howner : s.owner = some k)
    (hnet : phase.net crc = (s.phases k).net crc)
    (hunsent : phase.unsent crc = (s.phases k).unsent crc) : Implements crc (s.goto k phase) u := by
  refine ⟨h.bus, h.calls, ?_, ?_, h.answered, h.wire, h.returned⟩
  · rw [current_goto howner, hnet, ← current_of_owner howner]
    exact h.phase
  · rw [current_goto howner, hunsent, ← current_of_owner howner]
    exact h.pending

theorem current_goto_of_outside (h : Locked s) (hout : (s.phases k).inside = false)
    (phase : RequestPhase) : (s.goto k phase).current = s.current := by
  unfold current
  change (match s.owner with
    | some j => Function.update s.phases k phase j
    | none => .idle) = _
  cases howner : s.owner with
  | none => rfl
  | some j =>
    dsimp only
    rw [Function.update_of_ne]
    rintro rfl
    rw [(h j).owner.mpr howner] at hout
    cases hout

end Goto

end RequestThreads

/-! ### Addressees -/

/-- The request goes to one node, neither to the host itself nor to all nodes. -/
def CommRequest.ToNode (r : CommRequest) : Prop :=
  r.controllerId ≠ HOST_ID ∧ r.controllerId ≠ BROADCAST_ID

instance (r : CommRequest) : Decidable r.ToNode := inferInstanceAs (Decidable (_ ∧ _))

/-- The request goes to one node, or its frames are not for the host. -/
def RequestPhase.Foreign : RequestPhase → Prop
  | .acquiring r | .entered r | .cleared _ r => r.ToNode
  | .sending _ _ frames => ∀ f ∈ frames, tunnelForHost f.message = false
  | _ => True

theorem ne_nil_of_encode {crc : Bytes → UInt16} {c senderId sendFlag : ℕ} {payload : Bytes}
    {frames : List VescFrame} (h : encodeCommFrames crc c senderId payload sendFlag = .ok frames) :
    frames ≠ [] := by
  unfold encodeCommFrames at h
  split_ifs at h
  · obtain ⟨f, _, h⟩ := bind_eq_ok h
    cases h
    exact List.cons_ne_nil f []
  · obtain ⟨s, _, h⟩ := bind_eq_ok h
    obtain ⟨t, _, h⟩ := bind_eq_ok h
    obtain ⟨f, _, h⟩ := bind_eq_ok h
    cases h
    exact List.append_ne_nil_of_right_ne_nil t.2 (List.cons_ne_nil f [])

theorem tunnelForHost_of_encode {crc : Bytes → UInt16} {c : ℕ} {payload : Bytes}
    {frames : List VescFrame} (hc : c ≠ HOST_ID)
    (h : encodeCommFrames crc c HOST_ID payload 0 = .ok frames) :
    ∀ f ∈ frames, tunnelForHost f.message = false := by
  intro f hf
  have haddressee : (splitArbitrationId f.message.arbitrationId).2 = c :=
    encodeCommFrames_addressed crc h f hf
  simp [tunnelForHost, haddressee, hc]

namespace RequestThreads

variable {ι : Type} [DecidableEq ι] {crc : Bytes → UInt16} {s t : RequestThreads ι} {k : ι}

/-- What the host receives of its own frames is not for it. -/
structure Foreign (s : RequestThreads ι) : Prop where
  phases : ∀ k, (s.phases k).Foreign
  echo : ∀ msg ∈ s.echo, tunnelForHost msg = false

omit [DecidableEq ι] in
theorem foreign_initial : Foreign (initial : RequestThreads ι) :=
  ⟨fun _ => trivial, fun _ h => absurd h List.not_mem_nil⟩

theorem Foreign.goto (h : Foreign s) {phase : RequestPhase}
    (hphases : t.phases = Function.update s.phases k phase) (hphase : phase.Foreign)
    (hecho : ∀ msg ∈ t.echo, msg ∈ s.echo ∨ tunnelForHost msg = false) : Foreign t := by
  constructor
  · rw [hphases]
    exact (Function.forall_update_iff s.phases fun _ p => p.Foreign).mpr
      ⟨hphase, fun j _ => h.phases j⟩
  · intro msg hmsg
    obtain hold | hnew := hecho msg hmsg
    · exact h.echo msg hold
    · exact hnew

theorem Foreign.advance {now : ℚ} (h : Foreign s) (hmove : Advance crc s k now t) : Foreign t := by
  have hold (phase : RequestPhase) (hp : s.phases k = phase) : phase.Foreign := by
    rw [← hp]
    exact h.phases k
  cases hmove with
  | @acquire r hp => exact h.goto rfl (hold (.acquiring r) hp) fun _ => Or.inl
  | @clear r hp => exact h.goto rfl (hold (.entered r) hp) fun _ => Or.inl
  | encode hp hencode =>
    exact h.goto rfl (tunnelForHost_of_encode (hold _ hp).1 hencode) fun _ => Or.inl
  | send hp =>
    obtain ⟨hf, hrest⟩ := List.forall_mem_cons.mp (hold _ hp)
    refine h.goto rfl hrest fun msg hmsg => ?_
    obtain hmsg | hmsg := List.mem_append.mp hmsg
    · exact Or.inl hmsg
    · rw [List.mem_singleton.mp hmsg]
      exact Or.inr hf
  | sent | check | rest | wake | lookNone | look | reject | drop | rearm | refuse | expire
  | unpackNone | take => exact h.goto rfl trivial fun _ => Or.inl

/-- A call asks one node. -/
def Event.ToNode : Event ι → Prop
  | .start _ r => r.ToNode
  | _ => True

instance (e : Event ι) : Decidable e.ToNode :=
  match e with
  | .start _ r => inferInstanceAs (Decidable r.ToNode)
  | .advance .. | .sendFails .. | .sendRaises .. | .answer .. | .lose .. | .deliver ..
  | .receiveOwn .. | .receiveOther .. | .signal => isTrue trivial

theorem Foreign.step {reply : ℕ → Bytes} {e : Event ι} (h : Foreign s)
    (hmove : Move crc reply s e t) (hnode : e.ToNode) : Foreign t := by
  have hsame {v : RequestThreads ι} (hphases : v.phases = s.phases)
      (hecho : ∀ msg ∈ v.echo, msg ∈ s.echo) : Foreign v := by
    constructor
    · rw [hphases]
      exact h.phases
    · exact fun msg hmsg => h.echo msg (hecho msg hmsg)
  cases hmove with
  | start => exact h.goto rfl hnode fun _ => Or.inl
  | @advance _ now _ hadvance =>
    have htime : Foreign (s.atTime now) := hsame rfl fun _ => id
    exact htime.advance hadvance
  | sendFails | sendRaises => exact h.goto rfl trivial fun _ => Or.inl
  | answer | lose | deliver | receiveOther | signal => exact hsame rfl fun _ => id
  | receiveOwn hecho =>
    refine hsame rfl fun msg hmsg => ?_
    rw [hecho]
    exact List.mem_cons_of_mem _ hmsg

end RequestThreads

end PyVesc
