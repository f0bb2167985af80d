import PyVesc.RequestThreads

/-!
# The lock of the tunnel

At most one thread is in the body of `comm_request`, so that nobody clears the slot between the look
at it and its use. No thread keeps the lock for ever: from any state that can be reached, the thread
that holds it gets out by steps of its own, whatever the receiving thread has done.
-/

namespace PyVesc

/-- The steps that are left to a thread in the body if it finds its time over. -/
def RequestPhase.left (crc : Bytes → UInt16) : RequestPhase → ℕ
  | .idle | .acquiring _ => 0
  | .checking .. => 1
  | .rearming .. => 2
  | .dropping .. => 3
  | .unpacking .. => 4
  | .looking .. => 5
  | .waiting .. => 6
  | .resting .. => 7
  | .sending _ _ frames => frames.length + 8
  | .cleared _ r => encodedLength crc r + 9
  | .entered r => encodedLength crc r + 10
where
  encodedLength (crc : Bytes → UInt16) (r : CommRequest) : ℕ :=
    match encodeCommFrames crc r.controllerId HOST_ID r.payload 0 with
    | .ok frames => frames.length
    | .error _ => 0

/-- The time that the phase waits for is over. -/
def RequestPhase.late (now : ℚ) : RequestPhase → Prop
  | .checking _ _ deadline => deadline ≤ now
  | .waiting _ _ _ ending => ending ≤ now
  | _ => True

theorem RequestPhase.exists_late (phase : RequestPhase) (clock : ℚ) :
    ∃ now, clock ≤ now ∧ phase.late now := by
  cases phase with
  | checking n c deadline => exact ⟨max clock deadline, le_max_left .., le_max_right ..⟩
  | waiting n c deadline ending => exact ⟨max clock ending, le_max_left .., le_max_right ..⟩
  | _ => exact ⟨clock, le_rfl, trivial⟩

namespace RequestThreads

variable {ι : Type}

/-- A thread in the body holds the lock. It does not find the slot empty where it has just seen a
reply. -/
structure Holds (owner : Option ι) (slot : Option (ℕ × Bytes)) (k : ι) (phase : RequestPhase) :
    Prop where
  owner : phase.inside = true ↔ owner = some k
  slot : ∀ n c deadline, phase = .unpacking n c deadline → slot ≠ none

def Locked (s : RequestThreads ι) : Prop :=
  ∀ k, Holds s.owner s.bus.commReply k (s.phases k)

theorem Holds.outside {owner : Option ι} {slot : Option (ℕ × Bytes)} {k : ι} {phase : RequestPhase}
    (hphase : phase.inside = false) (howner : owner ≠ some k) : Holds owner slot k phase := by
  constructor
  · rw [hphase]
    exact ⟨fun h => absurd h Bool.false_ne_true, fun h => absurd h howner⟩
  · intro n c deadline h
    rw [h] at hphase
    cases hphase

theorem locked_initial : Locked (initial : RequestThreads ι) :=
  fun _ => .outside rfl nofun

variable {s t : RequestThreads ι} {j k : ι}

theorem Locked.unique (h : Locked s) (hj : (s.phases j).inside = true)
    (hk : (s.phases k).inside = true) : j = k := by
  have hown := (h j).owner.mp hj
  rw [(h k).owner.mp hk] at hown
  exact (Option.some.inj hown).symm

/-- A thread that does not hold the lock is outside. -/
theorem Locked.outside_of_ne (h : Locked s) (hne : s.owner ≠ some k) :
    (s.phases k).inside = false := by
  rw [Bool.eq_false_iff]
  exact fun hin => hne ((h k).owner.mp hin)

/-- A step that leaves the threads as they are, and does not empty the slot. -/
theorem Locked.others (h : Locked s) (hphases : t.phases = s.phases) (howner : t.owner = s.owner)
    (hslot : s.bus.commReply ≠ none → t.bus.commReply ≠ none) : Locked t := by
  intro j
  rw [hphases, howner]
  exact ⟨(h j).owner, fun n c deadline hphase => hslot ((h j).slot n c deadline hphase)⟩

variable [DecidableEq ι]

/-- The owner of the lock takes a step in the body. -/
theorem Locked.stays (h : Locked s) (hin : (s.phases k).inside = true) {phase : RequestPhase}
    (hphases : t.phases = Function.update s.phases k phase) (howner : t.owner = s.owner)
    (hphase : phase.inside = true)
    (hslot : ∀ n c deadline, phase = .unpacking n c deadline → t.bus.commReply ≠ none) :
    Locked t := by
  have hown := (h k).owner.mp hin
  rw [Locked, hphases, howner]
  refine (Function.forall_update_iff s.phases (Holds s.owner t.bus.commReply)).mpr
    ⟨⟨⟨fun _ => hown, fun _ => hphase⟩, hslot⟩, fun j hj => ?_⟩
  have hne : s.owner ≠ some j := by
    rw [hown]
    exact fun heq => hj (Option.some.inj heq).symm
  exact .outside (h.outside_of_ne hne) hne

/-- The owner of the lock releases it. -/
theorem Locked.leaves (h : Locked s) (hin : (s.phases k).inside = true)
    (hphases : t.phases = Function.update s.phases k .idle) (howner : t.owner = none) :
    Locked t := by
  rw [Locked, hphases, howner]
  refine (Function.forall_update_iff s.phases (Holds none t.bus.commReply)).mpr
    ⟨.outside rfl nofun, fun j hj => .outside ?_ nofun⟩
  rw [Bool.eq_false_iff]
  exact fun hother => hj (h.unique hother hin)

/-- A thread that is outside stays outside. -/
theorem Locked.outside (h : Locked s) (hout : (s.phases k).inside = false) {phase : RequestPhase}
    (hphase : phase.inside = false) : Locked (s.goto k phase) := by
  refine (Function.forall_update_iff s.phases (Holds s.owner s.bus.commReply)).mpr
    ⟨.outside hphase fun hown => ?_, fun j _ => h j⟩
  rw [(h k).owner.mpr hown] at hout
  cases hout

/-- A thread takes the free lock. -/
theorem Locked.acquires (h : Locked s) {r : CommRequest} (hfree : s.owner = none) :
    Locked { s.goto k (.entered r) with owner := some k } := by
  refine (Function.forall_update_iff s.phases (Holds (some k) s.bus.commReply)).mpr
    ⟨⟨⟨fun _ => rfl, fun _ => rfl⟩, nofun⟩, fun j hj => ?_⟩
  apply Holds.outside
  · apply h.outside_of_ne
    rw [hfree]
    nofun
  · exact fun heq => hj (Option.some.inj heq).symm

variable {crc : Bytes → UInt16} {reply : ℕ → Bytes}

omit [DecidableEq ι] in
theorem Locked.hear (h : Locked s) (now : ℚ) (msg : CanMessage) : Locked (s.hear crc now msg) := by
  have hslot : s.bus.commReply ≠ none → (onMessage crc s.bus now msg).commReply ≠ none := by
    intro hsome
    rw [(onMessage_published crc s.bus now msg).1]
    cases published crc s.bus.commBuf msg with
    | none => exact hsome
    | some found => exact Option.some_ne_none found
  exact h.others rfl rfl hslot

theorem Locked.advance {now : ℚ} (h : Locked s) (hmove : Advance crc s k now t) : Locked t := by
  have hin {phase : RequestPhase} (hphase : s.phases k = phase) (hp : phase.inside = true) :
      (s.phases k).inside = true := by
    rw [hphase]
    exact hp
  cases hmove with
  | acquire hphase hfree => exact h.acquires hfree
  | look hphase hslot =>
    have hsome : s.bus.commReply ≠ none := by
      rw [hslot]
      exact Option.some_ne_none _
    exact h.stays (hin hphase rfl) rfl rfl rfl fun _ _ _ _ => hsome
  | refuse hphase | expire hphase | unpackNone hphase | take hphase =>
    exact h.leaves (hin hphase rfl) rfl rfl
  | clear hphase | encode hphase | send hphase | sent hphase | check hphase | rest hphase
  | wake hphase | lookNone hphase | reject hphase | drop hphase | rearm hphase =>
    exact h.stays (hin hphase rfl) rfl rfl rfl nofun

theorem Locked.step {e : Event ι} (h : Locked s) (hstep : step crc reply s e = some t) :
    Locked t := by
  have htime (now : ℚ) : Locked (s.atTime now) := h.others rfl rfl id
  cases move_of_step hstep with
  | start hphase => exact h.outside (by rw [hphase]; rfl) rfl
  | @advance _ now _ hmove => exact (htime now).advance hmove
  | @sendFails _ now _ _ _ _ hphase | @sendRaises _ now _ _ _ _ _ hphase =>
    exact (htime now).leaves (congrArg RequestPhase.inside hphase) rfl rfl
  | answer | lose | signal => exact h.others rfl rfl id
  | @deliver c _ _ rest hwire =>
    have hrest : Locked (s.withWire c rest) := h.others rfl rfl id
    exact hrest.hear _ _
  | @receiveOwn _ _ rest hecho =>
    have hrest : Locked { s with echo := rest } := h.others rfl rfl id
    exact hrest.hear _ _
  | receiveOther => exact h.hear _ _

/-! ### The way out -/

theorem phases_goto_self (s : RequestThreads ι) (k : ι) (phase : RequestPhase) :
    (s.goto k phase).phases k = phase :=
  Function.update_self ..

/-- The call of the thread `k` is over, with a result of its own. -/
def Left (s t : RequestThreads ι) (k : ι) : Prop :=
  t.owner = none ∧ ∃ n result, t.results = s.results ++ [(k, n, result)]

variable (crc) in
/-- The call is still running, and nearer to its end. -/
structure Nearer (s t : RequestThreads ι) (k : ι) : Prop where
  inside : (t.phases k).inside = true
  results : t.results = s.results
  left : (t.phases k).left crc < (s.phases k).left crc

theorem nearer_goto {u : RequestThreads ι} {phase : RequestPhase} (hin : phase.inside = true)
    (hresults : u.results = s.results) (hleft : phase.left crc < (s.phases k).left crc) :
    Nearer crc s (u.goto k phase) k := by
  constructor
  · rw [phases_goto_self]
    exact hin
  · exact hresults
  · rw [phases_goto_self]
    exact hleft

theorem exists_advance {now : ℚ} (hin : (s.phases k).inside = true)
    (hlate : (s.phases k).late now) : ∃ t, advance crc s k now = some t := by
  unfold advance
  cases hphase : s.phases k with
  | idle | acquiring r =>
    rw [hphase] at hin
    cases hin
  | cleared n r =>
    dsimp only
    cases encodeCommFrames crc r.controllerId HOST_ID r.payload 0 with
    | ok frames => exact ⟨_, rfl⟩
    | error e => exact ⟨_, rfl⟩
  | sending n r frames =>
    cases frames with
    | nil => exact ⟨_, rfl⟩
    | cons f rest => exact ⟨_, rfl⟩
  | checking n c deadline =>
    dsimp only
    split_ifs <;> exact ⟨_, rfl⟩
  | waiting n c deadline ending =>
    rw [hphase] at hlate
    exact ⟨_, if_pos (Or.inr hlate)⟩
  | looking n c deadline =>
    dsimp only
    cases s.bus.commReply with
    | none => exact ⟨_, rfl⟩
    | some found => exact ⟨_, rfl⟩
  | unpacking n c deadline =>
    dsimp only
    cases s.bus.commReply with
    | none => exact ⟨_, rfl⟩
    | some found =>
      dsimp only
      split_ifs <;> exact ⟨_, rfl⟩
  | entered r => exact ⟨_, rfl⟩
  | resting n c deadline remaining => exact ⟨_, rfl⟩
  | dropping n c deadline => exact ⟨_, rfl⟩
  | rearming n c deadline => exact ⟨_, rfl⟩

theorem Advance.left_or_nearer {now : ℚ} (hin : (s.phases k).inside = true)
    (hlate : (s.phases k).late now) (h : Advance crc s k now t) :
    Left s t k ∨ Nearer crc s t k := by
  cases h with
  | acquire hphase =>
    rw [hphase] at hin
    cases hin
  | check hphase htime =>
    rw [hphase] at hlate
    exact absurd hlate (not_le.mpr htime)
  | refuse | expire | unpackNone | take => exact Or.inl ⟨rfl, _, _, rfl⟩
  | @clear r hphase =>
    refine Or.inr (@nearer_goto _ s k _ crc
      { s.setReply none with asked := s.asked ++ [(k, r)] } _ rfl rfl ?_)
    rw [hphase]
    exact Nat.lt_succ_self _
  | encode hphase hencode =>
    refine Or.inr (nearer_goto rfl rfl ?_)
    rw [hphase, RequestPhase.left, RequestPhase.left, RequestPhase.left.encodedLength, hencode]
    exact Nat.lt_succ_self _
  | send hphase =>
    refine Or.inr (nearer_goto rfl rfl ?_)
    rw [hphase]
    exact Nat.lt_succ_self _
  | sent hphase | rest hphase | wake hphase | lookNone hphase | look hphase | reject hphase
  | drop hphase | rearm hphase =>
    refine Or.inr (nearer_goto rfl rfl ?_)
    rw [hphase]
    exact Nat.lt_of_sub_eq_succ rfl

/-- A thread in the body can get out by steps of its own. -/
theorem can_leave (crc : Bytes → UInt16) (reply : ℕ → Bytes)
    (hin : (s.phases k).inside = true) : ∃ events t,
      (∀ e ∈ events, ∃ now, e = .advance k now) ∧
      Transition.run (step crc reply) s events = some t ∧ Left s t k := by
  apply @Transition.run_reaches _ _ (step crc reply)
    (fun u => (u.phases k).inside = true ∧ u.results = s.results) (fun u => Left s u k) _
    (fun u => (u.phases k).left crc) _ s ⟨hin, rfl⟩
  rintro u ⟨huin, hresults⟩
  obtain ⟨now, hclock, hlate⟩ := (u.phases k).exists_late u.clock
  obtain ⟨v, hv⟩ := @exists_advance _ (u.atTime now) k _ crc now huin hlate
  have hstep : step crc reply u (.advance k now) = some v := (if_pos hclock).trans hv
  refine ⟨.advance k now, v, ⟨now, rfl⟩, hstep, ?_⟩
  obtain ⟨hfree, n, result, hleft⟩ | hnear :=
    Advance.left_or_nearer (s := u.atTime now) huin hlate (advance_of_advance hv)
  · exact Or.inl ⟨hfree, n, result, by rw [← hresults]; exact hleft⟩
  · exact Or.inr ⟨⟨hnear.inside, hnear.results.trans hresults⟩, hnear.left⟩

/-- `comm_request` in any number of threads: at most one of them is in the body; the slot is not
`None` when a thread unpacks it; and the thread in the body can always come to a result and release
the lock without the others. -/
theorem one_call_at_a_time (crc : Bytes → UInt16) (reply : ℕ → Bytes) (events : List (Event ι))
    (t : RequestThreads ι) (hrun : Transition.run (step crc reply) initial events = some t) :
    (∀ j k, (t.phases j).inside = true → (t.phases k).inside = true → j = k) ∧
    (∀ k n c deadline, t.phases k = .unpacking n c deadline → t.bus.commReply ≠ none) ∧
    ∀ k, (t.phases k).inside = true → ∃ events' u,
      (∀ e ∈ events', ∃ now, e = .advance k now) ∧
      Transition.run (step crc reply) t events' = some u ∧ u.owner = none ∧
      ∃ n result, u.results = t.results ++ [(k, n, result)] := by
  have hlocked : Locked t := Transition.run_preserves (fun s e u hs hstep => hs.step hstep) events
    initial t locked_initial hrun
  exact ⟨fun j k => hlocked.unique, fun k => (hlocked k).slot, fun k hin => can_leave crc reply hin⟩

/-- One thread waits for its reply, and another one for the lock. -/
theorem one_call_at_a_time_two : ∃ t : RequestThreads Bool,
    Transition.run (step Crc16.xmodem TunnelNet.versionReply) initial
      ([.start true ⟨10, [0], 1⟩, .start false ⟨11, [0], 1⟩] ++
        List.replicate 7 (.advance true 0)) = some t ∧
    t.phases true = .waiting 0 10 1 1 ∧ t.phases false = .acquiring ⟨11, [0], 1⟩ ∧
    ∃ events u, (∀ e ∈ events, ∃ now, e = .advance true now) ∧
      Transition.run (step Crc16.xmodem TunnelNet.versionReply) t events = some u ∧
      u.owner = none ∧ ∃ n result, u.results = t.results ++ [(true, n, result)] := by
  have hview : (Transition.run (step Crc16.xmodem TunnelNet.versionReply) initial
      ([.start true ⟨10, [0], 1⟩, .start false ⟨11, [0], 1⟩] ++
        List.replicate 7 (.advance true 0))).map (fun t => (t.phases true, t.phases false)) =
      some (.waiting 0 10 1 1, .acquiring ⟨11, [0], 1⟩) := by
    decide +kernel
  obtain ⟨t, ht, hphases⟩ := Option.map_eq_some_iff.mp hview
  obtain ⟨htrue, hfalse⟩ := Prod.mk.inj hphases
  obtain ⟨_, _, hleave⟩ := one_call_at_a_time Crc16.xmodem TunnelNet.versionReply _ t ht
  exact ⟨t, ht, htrue, hfalse, hleave true (by rw [htrue]; rfl)⟩

end RequestThreads

end PyVesc
