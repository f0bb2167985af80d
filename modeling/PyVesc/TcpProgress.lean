import PyVesc.TcpAccess

/-!
# Calls over the TCP transport end

The transport never waits for the bridge: while it is at work it can take another step. Each of its
steps moves a byte or brings it nearer to its return, so an access takes long only if the bridge
keeps sending. The deadline of a read is not looked at during an access.
-/

namespace PyVesc

namespace TcpSession

variable {crc : Bytes → UInt16} {registry : Registry} {S : Session} {s t : TcpSession}

/-- The steps of the transport. -/
def Event.pumps : Event → Bool
  | .select _ | .recv _ => true
  | _ => false

/-- The steps of the device and the bridge. -/
def Event.ofBridge : Event → Bool
  | .answer _ | .lose _ | .duplicate _ | .close => true
  | _ => false

/-! ### The link -/

/-- What a step does to the link is a step of the link. -/
theorem link_step {e : Event} (hstep : step crc registry S s e = some t) :
    t.link = s.link ∨ ∃ e', s.link.step e' = some t.link := by
  have hcall {c : TransportCall} (hphase : s.link.phase = .idle) :
      s.link.step (.call c) = some { s.link with phase := .looping c } := by
    rw [TcpLink.step, hphase]
  cases move_of_step hstep with
  | answer _ _ hopen => exact Or.inr ⟨.send _, if_neg hopen⟩
  | duplicate _ _ hopen => exact Or.inr ⟨.send _, if_neg hopen⟩
  | close => exact Or.inr ⟨.peerClose, rfl⟩
  | start _ hphase => exact Or.inr ⟨_, hcall hphase⟩
  | select hpump => exact Or.inr ⟨_, hpump⟩
  | recv hpump => exact Or.inr ⟨_, hpump⟩
  | poll _ hphase _ => exact Or.inr ⟨_, hcall hphase⟩
  | lose => exact Or.inl rfl
  | send => exact Or.inl rfl
  | expire => exact Or.inl rfl
  | resume hphase _ hresume =>
    cases hresume with
    | discard => exact Or.inr ⟨_, hcall hphase⟩
    | take => exact Or.inr ⟨_, hcall hphase⟩
    | idle => exact Or.inl (round_eq s _ _ _ _).1
    | taken => exact Or.inl (round_eq s _ _ _ _).1
    | drain | dropped | refused | raised => exact Or.inl rfl

theorem ready_step (s : TcpSession) (e : Event) (t : TcpSession) (h : s.link.Ready)
    (hstep : step crc registry S s e = some t) : t.link.Ready := by
  obtain hsame | ⟨e', hlink⟩ := link_step hstep
  · rw [hsame]
    exact h
  · exact TcpLink.ready_step s.link e' t.link h hlink

/-! ### One access -/

/-- How far the transport is from its return, or from the next look at the socket. -/
def phaseRank : PumpPhase → ℕ
  | .idle => 0
  | .looping _ => 2
  | .readable _ => 1

/-- The steps that the transport can still take with what is in the socket. -/
def work (s : TcpSession) : ℕ := 2 * s.link.socket.length + phaseRank s.link.phase

theorem work_pump {e : TcpLink.Event} {link : TcpLink} (hpump : s.link.step e = some link)
    (he : (∃ ready, e = .select ready) ∨ ∃ k, e = .recv k) :
    work { s with link := link } < work s ∧ link.sent = s.link.sent := by
  cases TcpLink.move_of_step hpump with
  | send | peerClose | call => rcases he with ⟨_, he⟩ | ⟨_, he⟩ <;> cases he
  | leave hphase =>
    refine ⟨?_, rfl⟩
    change 2 * s.link.socket.length + 0 < work s
    rw [work, hphase, phaseRank]
    omega
  | ready hphase _ =>
    refine ⟨?_, rfl⟩
    change 2 * s.link.socket.length + 1 < work s
    rw [work, hphase, phaseRank]
    omega
  | shut hphase _ _ =>
    refine ⟨?_, rfl⟩
    change 2 * s.link.socket.length + 0 < work s
    rw [work, hphase, phaseRank]
    omega
  | @receive k c hphase hmore hsize =>
    refine ⟨?_, rfl⟩
    change 2 * (s.link.socket.drop k).length + 2 < work s
    have hpos := List.length_pos_of_ne_nil hmore
    rw [work, hphase, phaseRank, List.length_drop]
    omega

/-- The work less what the bridge has sent. -/
def load (s : TcpSession) : ℤ := work s - 2 * s.link.sent.length

theorem load_pump {e : TcpLink.Event} {link : TcpLink} (hpump : s.link.step e = some link)
    (he : (∃ ready, e = .select ready) ∨ ∃ k, e = .recv k) :
    load { s with link := link } + 1 ≤ load s := by
  obtain ⟨hwork, hsent⟩ := work_pump hpump he
  rw [load, load, hsent]
  omega

/-- A step of the transport lowers the load, and the bridge does not change it. -/
theorem load_step {e : Event} (he : (e.pumps || e.ofBridge) = true)
    (hstep : step crc registry S s e = some t) :
    load t + (if e.pumps then 1 else 0) ≤ load s := by
  have hsend (bytes : Bytes) : ((2 * (s.link.socket ++ bytes).length +
      phaseRank s.link.phase : ℕ) : ℤ) - 2 * (s.link.sent ++ bytes).length = load s := by
    rw [load, work, List.length_append, List.length_append]
    push_cast
    ring
  have hsame {e' : Event} {u : TcpSession} (hpumps : e'.pumps = false) (hu : load u = load s) :
      load u + (if e'.pumps then 1 else 0) ≤ load s := by
    rw [hpumps, hu]
    exact (add_zero _).le
  cases move_of_step hstep with
  | @answer n bytes _ _ _ => exact hsame rfl (hsend bytes)
  | @duplicate n bytes _ _ _ => exact hsame rfl (hsend bytes)
  | lose => exact hsame rfl rfl
  | close => exact hsame rfl rfl
  | select hpump => exact load_pump hpump (Or.inl ⟨_, rfl⟩)
  | recv hpump => exact load_pump hpump (Or.inr ⟨_, rfl⟩)
  | start | resume | send | poll | expire => cases he

/-- The transport can take a step, whatever the bridge does. -/
theorem pump_enabled (hready : s.link.Ready) (hbusy : s.link.phase ≠ .idle) :
    ∃ e t, e.pumps = true ∧ step crc registry S s e = some t := by
  cases hphase : s.link.phase with
  | idle => exact absurd hphase hbusy
  | looping c =>
    refine ⟨.select false, { s with link := s.link.finish c }, rfl, ?_⟩
    simp only [step, pump, TcpLink.step, hphase, or_true, if_true, Option.map_some]
  | readable c =>
    by_cases hend : s.link.socket = []
    · have hclosed := (hready c hphase).resolve_left (not_not.mpr hend)
      refine ⟨.recv 1, { s with link := s.link.shut.finish c }, rfl, ?_⟩
      simp only [step, pump, TcpLink.step, hphase, hend, hclosed, if_true, Option.map_some]
    · refine ⟨.recv 1, { s with link := { s.link.receive 1 with phase := .looping c } }, rfl, ?_⟩
      simp only [step, pump, TcpLink.step, hphase, hend, if_false]
      rfl

/-! ### A whole call -/

/-- How far the host is from the end of its call, if the bridge sends nothing. -/
def rank (s : TcpSession) : ℕ := work s + stageRank s.stage
where
  stageRank : TcpStage → ℕ
    | .idle => 0
    | .reading _ _ _ => 1
    | .drained _ | .taking _ _ _ _ => 2
    | .discarding => 3
    | .polling _ _ _ _ => 5
    | .draining => 6

/-- What the host can rely on while its call lasts. -/
structure Calling (s : TcpSession) : Prop where
  inv : Inv s
  ready : s.link.Ready
  busy : s.stage ≠ .idle

variable (crc registry S) in
/-- A step of the host or the transport that ends the call or brings it nearer to its end. -/
def Nearer (s : TcpSession) : Prop :=
  ∃ e t, e.ofBridge = false ∧ step crc registry S s e = some t ∧
    (t.stage = .idle ∨ Calling t ∧ rank t < rank s)

theorem Calling.nearer (h : Calling s) {e : Event} (he : e.ofBridge = false)
    (hstep : step crc registry S s e = some t) (hrank : t.stage = .idle ∨ rank t < rank s) :
    Nearer crc registry S s := by
  refine ⟨e, t, he, hstep, ?_⟩
  by_cases hidle : t.stage = .idle
  · exact Or.inl hidle
  · exact Or.inr ⟨⟨h.inv.step (move_of_step hstep), ready_step s e t h.ready hstep, hidle⟩,
      hrank.resolve_left hidle⟩

/-- The transport takes a step. -/
theorem Calling.pump (h : Calling s) (hbusy : s.link.phase ≠ .idle) :
    Nearer crc registry S s := by
  obtain ⟨e, t, he, hstep⟩ := @pump_enabled crc registry S s h.ready hbusy
  have hlower {link : TcpLink} (hwork : work { s with link := link } < work s) :
      rank { s with link := link } < rank s := Nat.add_lt_add_right hwork _
  refine h.nearer ?_ hstep (Or.inr ?_)
  · cases e <;> first | rfl | cases he
  · cases move_of_step hstep with
    | select hpump => exact hlower (work_pump hpump (Or.inl ⟨_, rfl⟩)).1
    | recv hpump => exact hlower (work_pump hpump (Or.inr ⟨_, rfl⟩)).1
    | answer | lose | duplicate | close | start | resume | send | poll | expire => cases he

/-- The host goes on with what the transport has returned. -/
theorem Calling.resume (h : Calling s) (hphase : s.link.phase = .idle) {r : Returned}
    (hlog : s.link.log.head? = some r) (ht : s.resume crc registry S 0 s.stage r = some t)
    (hrank : t.stage = .idle ∨ rank t < rank s) : Nearer crc registry S s := by
  refine h.nearer (e := .resume 0) rfl ?_ hrank
  rw [step, if_pos hphase, hlog]
  exact ht

/-- A round leaves the loop, or it comes back to its head. -/
theorem Calling.round (h : Calling s) (hphase : s.link.phase = .idle) {r : Returned}
    (hlog : s.link.log.head? = some r) {n : ℕ} {deadline : ℚ} {r' : ReadState} {poll : Poll}
    (ht : s.resume crc registry S 0 s.stage r =
      some (s.round crc registry S n deadline r' poll))
    (hstage : 1 < rank.stageRank s.stage) : Nearer crc registry S s := by
  refine h.resume hphase hlog ht ?_
  unfold TcpSession.round
  cases pollRound crc registry (S.args n) r' poll with
  | done loopExit => exact Or.inl rfl
  | next s' => exact Or.inr (Nat.add_lt_add_left hstage _)

/-- What the transport has returned. -/
theorem Inv.answer (h : Inv s) (hphase : s.link.phase = .idle) :
    (s.stage.use = .inWaiting → (∃ k, s.link.log.head? = some (.inWaiting k)) ∨
      ∃ message, s.link.log.head? = some (.connectionError message)) ∧
    (s.stage.use = .read → ∃ size data, s.link.log.head? = some (.read size data)) := by
  obtain ⟨inHand, haccess, _⟩ := h.access
  cases haccess with
  | rest huse => rw [huse]; exact ⟨nofun, nofun⟩
  | told huse _ hlog => rw [huse]; exact ⟨fun _ => Or.inl ⟨_, hlog⟩, nofun⟩
  | refused huse _ hlog => rw [huse]; exact ⟨fun _ => Or.inr ⟨_, hlog⟩, nofun⟩
  | fetched huse _ hlog => rw [huse]; exact ⟨nofun, fun _ => ⟨_, _, hlog⟩⟩
  | asking _ hbusy => rw [hphase] at hbusy; rcases hbusy with hbusy | hbusy <;> cases hbusy
  | fetching _ hbusy => rw [hphase] at hbusy; rcases hbusy with hbusy | hbusy <;> cases hbusy

/-- The transport is asked for what it has announced. -/
theorem access_idle (hphase : s.link.phase = .idle) (c : TransportCall) (stage : TcpStage) :
    s.access c stage =
      some { s with link := { s.link with phase := .looping c }, stage := stage } := by
  rw [access, TcpLink.step, hphase]
  rfl

theorem rank_lt {t : TcpSession} (hlink : t.link = s.link)
    (hstage : rank.stageRank t.stage < rank.stageRank s.stage) : rank t < rank s := by
  rw [rank, rank, work, work, hlink]
  exact Nat.add_lt_add_left hstage _

/-- The host asks the transport for what it has announced. -/
theorem rank_access (hphase : s.link.phase = .idle) {c : TransportCall} {stage : TcpStage}
    (hstage : rank.stageRank stage + 2 < rank.stageRank s.stage) :
    rank { s with link := { s.link with phase := .looping c }, stage := stage } < rank s := by
  rw [rank, rank, work, work, hphase]
  change 2 * s.link.socket.length + 2 + rank.stageRank stage < 2 * s.link.socket.length + 0 + _
  omega

theorem Calling.fetch (h : Calling s) (hphase : s.link.phase = .idle) {r : Returned}
    (hlog : s.link.log.head? = some r) {c : TransportCall} {stage : TcpStage}
    (haccess : s.resume crc registry S 0 s.stage r = s.access c stage)
    (hstage : rank.stageRank stage + 2 < rank.stageRank s.stage) : Nearer crc registry S s := by
  rw [access_idle hphase] at haccess
  exact h.resume hphase hlog haccess (Or.inr (rank_access hphase hstage))

theorem Calling.comes_nearer (h : Calling s) : Nearer crc registry S s := by
  by_cases hphase : s.link.phase = .idle
  · obtain ⟨hasked, hread⟩ := h.inv.answer hphase
    cases hstage : s.stage with
    | idle => exact absurd hstage h.busy
    | drained n =>
      have hstep : step crc registry S s (.send 0 true) = some { s with
          stage := .reading n (0 + (S.args n).maxWait) ⟨[], none, none⟩
          owed := n :: s.owed } := by
        rw [step, hstage]
        rfl
      refine h.nearer rfl hstep (Or.inr (rank_lt rfl ?_))
      rw [hstage]
      exact Nat.one_lt_two
    | reading n deadline r =>
      have hstep : step crc registry S s (.poll deadline) =
          some (s.leave n (.returned (afterLoop crc registry (S.args n) r))) := by
        rw [step, hstage]
        exact if_neg (lt_irrefl deadline)
      exact h.nearer rfl hstep (Or.inl rfl)
    | draining =>
      obtain ⟨k, hlog⟩ | ⟨message, hlog⟩ := hasked (by rw [hstage]; rfl)
      · by_cases hk : k = 0
        · refine h.resume (t := s.startCall 0) hphase hlog ?_ (Or.inr (rank_lt rfl ?_))
          · rw [hstage, TcpSession.resume, if_pos hk]
          · rw [hstage]
            change 2 < 6
            omega
        · refine @Calling.fetch _ _ _ s h hphase _ hlog (.read k) .discarding ?_ ?_
          · rw [hstage, TcpSession.resume, if_neg hk]
          · rw [hstage]
            change 3 + 2 < 6
            omega
      · refine h.resume hphase hlog (t := { s with calls := s.calls + 1 }.leave s.calls
          (.connectionError message)) ?_ (Or.inl rfl)
        simp only [hstage, TcpSession.resume]
    | discarding =>
      obtain ⟨size, data, hlog⟩ := hread (by rw [hstage]; rfl)
      refine h.resume (t := s.startCall data.length) hphase hlog ?_ (Or.inr (rank_lt rfl ?_))
      · rw [hstage, TcpSession.resume]
      · rw [hstage]
        change 2 < 3
        omega
    | polling n deadline r check =>
      have hround : 1 < rank.stageRank s.stage := by
        rw [hstage]
        change 1 < 5
        omega
      obtain ⟨k, hlog⟩ | ⟨message, hlog⟩ := hasked (by rw [hstage]; rfl)
      · by_cases hk : k = 0
        · apply @Calling.round _ _ _ s h hphase _ hlog n deadline r ⟨check, [], 0⟩ _ hround
          rw [hstage, TcpSession.resume, if_pos hk]
        · refine @Calling.fetch _ _ _ s h hphase _ hlog (.read k) (.taking n deadline r check) ?_ ?_
          · rw [hstage, TcpSession.resume, if_neg hk]
          · rw [hstage]
            change 2 + 2 < 5
            omega
      · refine h.resume hphase hlog (t := s.leave n (.connectionError message)) ?_ (Or.inl rfl)
        rw [hstage, TcpSession.resume]
    | taking n deadline r check =>
      obtain ⟨size, data, hlog⟩ := hread (by rw [hstage]; rfl)
      refine @Calling.round _ _ _ s h hphase _ hlog n deadline r ⟨check, data, 0⟩ ?_ ?_
      · rw [hstage, TcpSession.resume]
      · rw [hstage]
        exact Nat.one_lt_two
  · exact h.pump hphase

/-- No call over the TCP transport can hang unless the bridge keeps sending. The transport always
has a step to take; an access takes two steps for each byte that waits in the socket or comes in
meanwhile, and two more; and the host alone can bring its call to an end. -/
theorem tcp_calls_end (crc : Bytes → UInt16) (registry : Registry) (S : Session)
    (before : List Event) (s : TcpSession)
    (hrun : Transition.run (step crc registry S) initial before = some s) :
    (s.link.phase ≠ .idle → ∃ e t, e.pumps = true ∧ step crc registry S s e = some t) ∧
    (∀ events t, (∀ e ∈ events, (e.pumps || e.ofBridge) = true) →
      Transition.run (step crc registry S) s events = some t →
      events.countP Event.pumps + 2 * s.link.sent.length ≤
        2 * s.link.socket.length + 2 * t.link.sent.length + 2) ∧
    ∃ events t, (∀ e ∈ events, e.ofBridge = false) ∧
      Transition.run (step crc registry S) s events = some t ∧ t.stage = .idle := by
  have hready : s.link.Ready := Transition.run_preserves ready_step before initial s nofun hrun
  have hinv : Inv s := by
    apply Transition.run_preserves _ before initial s inv_initial hrun
    exact fun s e t hs hstep => hs.step (move_of_step hstep)
  refine ⟨pump_enabled hready, fun events t hevents hrun' => ?_, ?_⟩
  · have hcount : load t + events.countP Event.pumps ≤ load s :=
      Transition.run_countP_le (fun _ _ _ => load_step) events s t hevents hrun'
    have hphase : phaseRank s.link.phase ≤ 2 := by
      cases s.link.phase with
      | idle => exact Nat.zero_le 2
      | looping c => exact le_refl 2
      | readable c => exact Nat.le_succ 1
    have hload : load s = 2 * s.link.socket.length + phaseRank s.link.phase -
      2 * s.link.sent.length := rfl
    have hleft : load t = work t - 2 * t.link.sent.length := rfl
    omega
  · by_cases hidle : s.stage = .idle
    · exact ⟨[], s, nofun, rfl, hidle⟩
    · have hcalling : Calling s := ⟨hinv, hready, hidle⟩
      obtain ⟨events, t, hevents, hrun', hend⟩ := @Transition.run_reaches _ _
        (step crc registry S) Calling (fun t => t.stage = .idle) (fun e => e.ofBridge = false) rank
        (fun _ hs => hs.comes_nearer) s hcalling
      exact ⟨events, t, hevents, hrun', hend⟩

/-- The bridge closes while the first call looks at `in_waiting`. -/
theorem tcp_calls_end_closed : ∃ s events t,
    Transition.run (step Crc16.xmodem Messages.registry SerialLink.upgrade) initial
      [.start, .close, .select true] = some s ∧
    (∃ e u, e.pumps = true ∧
      step Crc16.xmodem Messages.registry SerialLink.upgrade s e = some u) ∧
    Transition.run (step Crc16.xmodem Messages.registry SerialLink.upgrade) s events = some t ∧
    t.stage = .idle := by
  have hview : (Transition.run (step Crc16.xmodem Messages.registry SerialLink.upgrade) initial
      [.start, .close, .select true]).map (fun s => s.link.phase) =
      some (.readable .inWaiting) := by
    decide +kernel
  obtain ⟨s, hs, hphase⟩ := Option.map_eq_some_iff.mp hview
  obtain ⟨hstep, _, events, t, _, hrun, hidle⟩ := tcp_calls_end Crc16.xmodem Messages.registry
    SerialLink.upgrade [.start, .close, .select true] s hs
  exact ⟨s, events, t, hs, hstep (by rw [hphase]; nofun), hrun, hidle⟩

end TcpSession

end PyVesc
