import PyVesc.TcpAccess

/-!
# The TCP transport as a serial line

The host takes as many bytes as `in_waiting` has announced, also when more have come in since: on a
serial line, these are the bytes that have arrived, and the others have not arrived yet. So every
run over the TCP transport is a run over a serial line until `in_waiting` raises, and from then on
it raises in every call.
-/

namespace PyVesc

/-- The stage of a host on a serial line. A call that has not dropped the stale bytes yet has not
begun there. -/
def TcpStage.serial : TcpStage → Stage
  | idle | draining | discarding => .idle
  | drained n => .drained n
  | reading n deadline r | polling n deadline r _ | taking n deadline r _ => .reading n deadline r

namespace TcpSession

variable {crc : Bytes → UInt16} {registry : Registry} {S : Session} {s t : TcpSession}

/-- The session as one over a serial line. -/
structure Implements (s : TcpSession) (u : SerialLink) : Prop where
  calls : u.calls = s.calls
  stage : u.stage = s.stage.serial
  owed : u.owed = s.owed
  answered : u.answered = s.answered
  transit : u.transit = s.line
  waiting : u.waiting = []
  results : s.results = u.returned.map fun p => (p.1, .returned p.2)

/-- A call has raised. The transport is shut and empty, and every later call raises as well. -/
structure Broken (s : TcpSession) (u : SerialLink) : Prop where
  shut : s.link.transport.isOpen = false
  empty : s.line = []
  stage : s.stage = .idle ∨ s.stage = .draining
  answered : s.answered = u.answered
  results : ∃ raised, raised ≠ [] ∧
    s.results = (u.returned.map fun p => (p.1, .returned p.2)) ++ raised ∧
    ∀ p ∈ raised, p.2 = .connectionError closedMessage

theorem implements_initial : Implements initial .initial := ⟨rfl, rfl, rfl, rfl, rfl, rfl, rfl⟩

variable {u v : SerialLink}

/-- A call raises. -/
theorem Implements.leave (h : Implements s u) (hshut : s.link.transport.isOpen = false)
    (hempty : s.line = []) (calls n : ℕ) :
    Broken ({ s with calls := calls }.leave n (.connectionError closedMessage)) u := by
  refine ⟨hshut, hempty, Or.inl rfl, h.answered.symm, [(n, .connectionError closedMessage)],
    List.cons_ne_nil _ _, ?_, List.forall_mem_singleton.mpr rfl⟩
  change s.results ++ _ = _
  rw [h.results]

theorem Broken.leave (h : Broken s u) (n : ℕ) :
    Broken ({ s with calls := s.calls + 1 }.leave n (.connectionError closedMessage)) u := by
  obtain ⟨raised, _, hresults, hraised⟩ := h.results
  refine ⟨h.shut, h.empty, Or.inl rfl, h.answered,
    raised ++ [(n, .connectionError closedMessage)], ?_, ?_, ?_⟩
  · exact List.append_ne_nil_of_right_ne_nil raised (List.cons_ne_nil _ _)
  · change s.results ++ _ = _
    rw [hresults, List.append_assoc]
  · exact List.forall_mem_append.mpr ⟨hraised, List.forall_mem_singleton.mpr rfl⟩

/-- The transport stays shut. -/
theorem shut_step {l l' : TcpLink} {e : TcpLink.Event} (h : l.transport.isOpen = false)
    (hstep : l.step e = some l') : l'.transport.isOpen = false := by
  cases TcpLink.move_of_step hstep with
  | @leave _ c _ => cases c <;> exact h
  | @shut _ c _ _ _ => cases c <;> rfl
  | _ => exact h

theorem Broken.step (h : Broken s u) (hinv : Inv s) {e : Event}
    (hmove : Move crc registry S s e t) : Broken t u := by
  have hclosed := (hinv.closed h.shut).1
  have hkeep {w : TcpSession} (hshut : w.link.transport.isOpen = false)
      (hline : w.line = s.line) (hstage : w.stage = s.stage) (hanswered : w.answered = s.answered)
      (hresults : w.results = s.results) : Broken w u := by
    refine ⟨hshut, hline.trans h.empty, ?_, hanswered.trans h.answered, ?_⟩
    · rw [hstage]
      exact h.stage
    · rw [hresults]
      exact h.results
  cases hmove with
  | answer _ _ hopen => exact absurd hclosed hopen
  | duplicate _ _ hopen => exact absurd hclosed hopen
  | lose => exact hkeep h.shut rfl rfl rfl rfl
  | close => exact hkeep h.shut rfl rfl rfl rfl
  | start => exact ⟨h.shut, h.empty, Or.inr rfl, h.answered, h.results⟩
  | select hpump => exact hkeep (shut_step h.shut hpump) rfl rfl rfl rfl
  | recv hpump => exact hkeep (shut_step h.shut hpump) rfl rfl rfl rfl
  | send hsend => rcases h.stage with hs | hs <;> cases hsend.symm.trans hs
  | poll hpoll => rcases h.stage with hs | hs <;> cases hpoll.symm.trans hs
  | expire hpoll => rcases h.stage with hs | hs <;> cases hpoll.symm.trans hs
  | resume hphase hlog hresume =>
    cases hresume with
    | drain hdrain | discard hdrain =>
      have huse : s.stage.use = .inWaiting := by rw [hdrain]; rfl
      have hline := hinv.unused (by rw [huse]; nofun)
      rw [h.empty, List.map_nil] at hline
      obtain ⟨_, halive⟩ := hinv.told hphase hlog huse
      exact absurd ⟨(List.nil_eq_append_iff.mp hline).1, h.shut⟩ halive
    | refused hdrain =>
      obtain ⟨rfl, _⟩ := hinv.refused hphase hlog (by rw [hdrain]; rfl)
      exact h.leave s.calls
    | dropped hs' | idle hs' | take hs' | taken hs' | raised hs' =>
      rcases h.stage with hs | hs <;> cases hs'.symm.trans hs

/-- How many bytes the host drops when it has what it needs for that. -/
def dropped (s : TcpSession) : Option ℕ :=
  match s.stage, s.link.log.head? with
  | .draining, some (.inWaiting 0) => some 0
  | .discarding, some (.read _ data) => some data.length
  | _, _ => none

/-- When the host has dropped the stale bytes, no reply is cut in two, and none of those that are on
their way or still owed could be taken for an answer to the call; and while the call lasts, only its
own reply may be repeated of those that could. -/
def Quiet (crc : Bytes → UInt16) (S : Session) (s : TcpSession) : Event → Prop
  | .resume _ => ∀ k, s.dropped = some k →
      (∃ ms : List ℕ, s.line.drop k = Scanner.stream (SerialLink.onLine crc S ms) ∧
        ∀ m ∈ ms, ¬ SerialLink.Answers S s.calls m) ∧
      ∀ m ∈ s.owed, ¬ SerialLink.Answers S s.calls m
  | .duplicate m => ∀ n buf matched, s.stage.serial.view = some (n, buf, matched) →
      SerialLink.Answers S n m → m = n
  | _ => True

variable (crc registry S) in
/-- Steps over the serial line, quiet under `ok`, to a state that the session `t` stands for. -/
def Matched (ok : Prop) (t : TcpSession) (u : SerialLink) : Prop :=
  ∃ events v, Transition.run (SerialLink.step crc registry S) u events = some v ∧
    (ok → Transition.Meets (SerialLink.step crc registry S) (SerialLink.Quiet crc S) u events) ∧
    (Implements t v ∨ Broken t v)

variable {ok : Prop}

theorem matched_silent (h : Implements t u) : Matched crc registry S ok t u :=
  ⟨[], u, rfl, fun _ => trivial, Or.inl h⟩

theorem matched_step {e : SerialLink.Event} (hstep : SerialLink.step crc registry S u e = some v)
    (hok : ok → SerialLink.Quiet crc S u e) (h : Implements t v) :
    Matched crc registry S ok t u := by
  refine ⟨[e], v, ?_, fun h => Transition.meets_cons (hok h) hstep trivial, Or.inl h⟩
  rw [Transition.run, hstep]
  rfl

/-- Some bytes arrive, and something happens to them. -/
theorem matched_arrival {k : ℕ} {e : SerialLink.Event}
    (hstep : SerialLink.step crc registry S (u.arrive k) e = some v)
    (hok : ok → SerialLink.Quiet crc S (u.arrive k) e) (h : Implements t v) :
    Matched crc registry S ok t u := by
  refine ⟨[.arrive k, e], v, ?_, fun h => ?_, Or.inl h⟩
  · rw [Transition.run, SerialLink.step, Option.bind_some, Transition.run, hstep]
    rfl
  · exact Transition.meets_cons trivial rfl (Transition.meets_cons (hok h) hstep trivial)

/-- The call drops the bytes that it has got. -/
theorem Implements.start (h : Implements s u) (hidle : s.stage.serial = .idle) (k : ℕ)
    (hok : ok → (∃ ms : List ℕ, s.line.drop k = Scanner.stream (SerialLink.onLine crc S ms) ∧
        ∀ m ∈ ms, ¬ SerialLink.Answers S s.calls m) ∧
      ∀ m ∈ s.owed, ¬ SerialLink.Answers S s.calls m) :
    Matched crc registry S ok (s.startCall k) u := by
  have hstep : SerialLink.step crc registry S (u.arrive k) .drain = some (u.arrive k).startCall :=
    if_pos (h.stage.trans hidle)
  refine matched_arrival hstep (fun hcond => ?_) ?_
  · change (∃ ms : List ℕ, u.transit.drop k = _ ∧ ∀ m ∈ ms, ¬ SerialLink.Answers S u.calls m) ∧
      ∀ m ∈ u.owed, ¬ SerialLink.Answers S u.calls m
    rw [h.transit, h.calls, h.owed]
    exact hok hcond
  · refine ⟨congrArg (· + 1) h.calls, ?_, h.owed, h.answered, ?_, ?_, h.results⟩
    · exact congrArg Stage.drained h.calls
    · exact congrArg (List.drop k) h.transit
    · exact discardStale_eq_nil _

/-- A round with the bytes that the host has got. -/
theorem Implements.round (h : Implements s u) {n : ℕ} {deadline : ℚ} {r : ReadState}
    (hstage : s.stage.serial = .reading n deadline r) {check now : ℚ} (hbefore : check < deadline)
    {data rest : Bytes} (hline : s.line.map LineByte.value = data ++ rest) :
    Matched crc registry S ok (s.round crc registry S n deadline r ⟨check, data, now⟩) u := by
  have hwaiting : (u.arrive data.length).waiting = s.line.take data.length := by
    change u.waiting ++ u.transit.take data.length = _
    rw [h.waiting, h.transit]
    rfl
  have hchunk : (u.arrive data.length).waiting.map LineByte.value = data := by
    rw [hwaiting, List.map_take, hline, List.take_left]
  have hstep : SerialLink.step crc registry S (u.arrive data.length) (.poll check now) =
      some ((u.arrive data.length).round crc registry S n deadline r check now) := by
    have hreading : (u.arrive data.length).stage = .reading n deadline r := h.stage.trans hstage
    rw [SerialLink.step, hreading]
    exact if_pos hbefore
  refine matched_arrival hstep (fun _ => trivial) ?_
  rw [SerialLink.round, hchunk, TcpSession.round]
  have htransit : u.transit.drop data.length = s.line.drop data.length := by rw [h.transit]
  cases pollRound crc registry (S.args n) r ⟨check, data, now⟩ with
  | next r' => exact ⟨h.calls, rfl, h.owed, h.answered, htransit, rfl, h.results⟩
  | done loopExit =>
    refine ⟨h.calls, rfl, h.owed, h.answered, htransit, rfl, ?_⟩
    change s.results ++ [_] = (u.returned ++ [_]).map _
    rw [h.results, List.map_append]
    rfl

/-- The request is sent. If it cannot be written, it is one that the device does not answer. -/
theorem Implements.send (h : Implements s u) {n : ℕ} (hstage : s.stage = .drained n) (start : ℚ)
    (written : Bool) : Matched crc registry S ok { s with
      stage := .reading n (start + (S.args n).maxWait) ⟨[], none, none⟩
      owed := if written then n :: s.owed else s.owed } u := by
  have hdrained : u.stage = .drained n := by
    rw [h.stage, hstage]
    rfl
  have hstep : SerialLink.step crc registry S u (.send start) = some { u with
      stage := .reading n (start + (S.args n).maxWait) ⟨[], none, none⟩
      owed := n :: u.owed } := by
    rw [SerialLink.step, hdrained]
  cases written with
  | true =>
    exact matched_step hstep (fun _ => trivial) ⟨h.calls, rfl, congrArg (n :: ·) h.owed,
      h.answered, h.transit, h.waiting, h.results⟩
  | false =>
    refine ⟨[.send start, .lose n], { u with
      stage := .reading n (start + (S.args n).maxWait) ⟨[], none, none⟩
      owed := (n :: u.owed).erase n }, ?_, fun _ => ?_, Or.inl ⟨h.calls, rfl, ?_, h.answered,
        h.transit, h.waiting, h.results⟩⟩
    · rw [Transition.run, hstep]
      rfl
    · exact Transition.meets_cons trivial hstep (Transition.meets_cons trivial rfl trivial)
    · change (n :: u.owed).erase n = s.owed
      rw [List.erase_cons_head, h.owed]

/-- The host goes on. -/
theorem Implements.resume (h : Implements s u) (hinv : Inv s) {now : ℚ} {r : Returned}
    (hphase : s.link.phase = .idle) (hlog : s.link.log.head? = some r)
    (hok : ok → Quiet crc S s (.resume now)) (hresume : Resume crc registry S s now r t) :
    Matched crc registry S ok t u := by
  have hunused (huse : s.stage.use = .inWaiting) :
      s.line.map LineByte.value = [] ++ (s.link.transport.buffer ++ s.link.socket) :=
    hinv.unused (by rw [huse]; nofun)
  have hbefore := hinv.timely
  cases hresume with
  | drain hstage =>
    refine h.start (by rw [hstage]; rfl) 0 fun hcond => hok hcond 0 ?_
    simp only [dropped, hstage, hlog]
  | @dropped size data hstage =>
    refine h.start (by rw [hstage]; rfl) data.length fun hcond => hok hcond data.length ?_
    simp only [dropped, hstage, hlog]
  | discard hstage _ =>
    refine matched_silent ⟨h.calls, ?_, h.owed, h.answered, h.transit, h.waiting, h.results⟩
    rw [h.stage, hstage]
    rfl
  | take hstage _ =>
    refine matched_silent ⟨h.calls, ?_, h.owed, h.answered, h.transit, h.waiting, h.results⟩
    rw [h.stage, hstage]
    rfl
  | @idle n deadline r check hstage =>
    rw [hstage] at hbefore
    exact h.round (by rw [hstage]; rfl) hbefore (hunused (by rw [hstage]; rfl))
  | @taken n deadline r check size data hstage =>
    rw [hstage] at hbefore
    obtain ⟨_, hline⟩ := hinv.fetched hphase hlog (by rw [hstage]; rfl)
    exact h.round (by rw [hstage]; rfl) hbefore hline
  | refused hstage =>
    obtain ⟨rfl, hshut, hempty⟩ := hinv.refused hphase hlog (by rw [hstage]; rfl)
    exact ⟨[], u, rfl, fun _ => trivial, Or.inr (h.leave hshut hempty _ _)⟩
  | raised hstage =>
    obtain ⟨rfl, hshut, hempty⟩ := hinv.refused hphase hlog (by rw [hstage]; rfl)
    exact ⟨[], u, rfl, fun _ => trivial, Or.inr (h.leave hshut hempty _ _)⟩

theorem Implements.step (h : Implements s u) (hinv : Inv s) {e : Event}
    (hmove : Move crc registry S s e t) (hok : ok → Quiet crc S s e) :
    Matched crc registry S ok t u := by
  cases hmove with
  | @answer n bytes howed hframe _ =>
    have hstep : SerialLink.step crc registry S u (.answer n) = some { u.sendReply n bytes with
        owed := u.owed.erase n
        answered := n :: u.answered } := by
      rw [SerialLink.step, h.owed, if_pos howed, hframe]
    refine matched_step hstep (fun _ => trivial)
      ⟨h.calls, h.stage, ?_, ?_, ?_, h.waiting, h.results⟩
    · exact congrArg (·.erase n) h.owed
    · exact congrArg (n :: ·) h.answered
    · exact congrArg (· ++ lineBytes n bytes) h.transit
  | @lose n =>
    exact matched_step (e := .lose n) rfl (fun _ => trivial) ⟨h.calls, h.stage,
      congrArg (·.erase n) h.owed, h.answered, h.transit, h.waiting, h.results⟩
  | @duplicate n bytes hanswered hframe _ =>
    have hstep : SerialLink.step crc registry S u (.duplicate n) =
        some (u.sendReply n bytes) := by
      rw [SerialLink.step, h.answered, if_pos hanswered, hframe]
    refine matched_step hstep (fun hcond m buf matched hview => ?_)
      ⟨h.calls, h.stage, h.owed, h.answered, ?_, h.waiting, h.results⟩
    · rw [h.stage] at hview
      exact hok hcond m buf matched hview
    · exact congrArg (· ++ lineBytes n bytes) h.transit
  | close =>
    exact matched_silent
      ⟨h.calls, h.stage, h.owed, h.answered, h.transit, h.waiting, h.results⟩
  | start hidle _ =>
    refine matched_silent ⟨h.calls, ?_, h.owed, h.answered, h.transit, h.waiting, h.results⟩
    rw [h.stage, hidle]
    rfl
  | select _ =>
    exact matched_silent
      ⟨h.calls, h.stage, h.owed, h.answered, h.transit, h.waiting, h.results⟩
  | recv _ =>
    exact matched_silent
      ⟨h.calls, h.stage, h.owed, h.answered, h.transit, h.waiting, h.results⟩
  | resume hphase hlog hresume => exact h.resume hinv hphase hlog hok hresume
  | @send start written n hstage => exact h.send hstage start written
  | poll hstage _ _ =>
    refine matched_silent ⟨h.calls, ?_, h.owed, h.answered, h.transit, h.waiting, h.results⟩
    rw [h.stage, hstage]
    rfl
  | @expire check n deadline r hstage hpassed =>
    have hstep : SerialLink.step crc registry S u (.expire check) =
        some (u.leave n (afterLoop crc registry (S.args n) r)) := by
      have hreading : u.stage = .reading n deadline r := by rw [h.stage, hstage]; rfl
      rw [SerialLink.step, hreading]
      exact if_neg hpassed
    refine matched_step hstep (fun _ => trivial)
      ⟨h.calls, rfl, h.owed, h.answered, h.transit, h.waiting, ?_⟩
    change s.results ++ [_] = (u.returned ++ [_]).map _
    rw [h.results, List.map_append]
    rfl

/-! ### Runs -/

/-- The session and the serial line beside each other. -/
structure Beside (s : TcpSession) (u : SerialLink) : Prop where
  inv : Inv s
  stands : Implements s u ∨ Broken s u

/-- A run of the session under `cond`, and one over the serial line under `cond'`. -/
theorem run_beside {cond : TcpSession → Event → Prop} {cond' : SerialLink → SerialLink.Event → Prop}
    (hcond : ∀ s e moves u, cond s e → (Quiet crc S s e → Transition.Meets
        (SerialLink.step crc registry S) (SerialLink.Quiet crc S) u moves) →
      Transition.Meets (SerialLink.step crc registry S) cond' u moves)
    (events : List Event) (hmeets : Transition.Meets (step crc registry S) cond initial events)
    (hrun : Transition.run (step crc registry S) initial events = some t) :
    ∃ moves u, Transition.run (SerialLink.step crc registry S) .initial moves = some u ∧
      Transition.Meets (SerialLink.step crc registry S) cond' .initial moves ∧ Beside t u := by
  apply @Transition.run_matched _ _ (step crc registry S) _ _ (SerialLink.step crc registry S) cond
    cond' Beside _ events initial t .initial ⟨inv_initial, Or.inl implements_initial⟩ hmeets hrun
  intro s e t u h he hstep
  have hmove := move_of_step hstep
  have hinv := h.inv.step hmove
  obtain himplements | hbroken := h.stands
  · obtain ⟨moves, v, hmoves, hquiet, hstands⟩ := himplements.step h.inv hmove id
    exact ⟨moves, v, hmoves, hcond s e moves u he hquiet, hinv, hstands⟩
  · exact ⟨[], u, rfl, trivial, hinv, Or.inr (hbroken.step h.inv hmove)⟩

/-- Calls over the TCP transport are calls over a serial line, until one of them raises. It raises
when the bridge has closed and all that it sent has been used, and so do all later calls. -/
theorem refines_serial_link (crc : Bytes → UInt16) (registry : Registry) (S : Session)
    (events : List Event) (t : TcpSession)
    (hrun : Transition.run (step crc registry S) initial events = some t) :
    ∃ moves u raised, Transition.run (SerialLink.step crc registry S) .initial moves = some u ∧
      t.results = (u.returned.map fun p => (p.1, .returned p.2)) ++ raised ∧
      (∀ p ∈ raised, p.2 = .connectionError closedMessage) ∧ u.answered = t.answered ∧
      (raised = [] → u.stage = t.stage.serial ∧ u.owed = t.owed ∧ u.transit = t.line) ∧
      (raised ≠ [] → t.link.peerClosed = true ∧ t.line = []) := by
  obtain ⟨moves, u, hmoves, _, hbeside⟩ := run_beside
    (fun _ _ moves u _ _ => Transition.meets_true moves u) events
    (Transition.meets_true events initial) hrun
  obtain h | h := hbeside.stands
  · refine ⟨moves, u, [], hmoves, ?_, nofun, h.answered, fun _ => ⟨h.stage, h.owed, h.transit⟩,
      fun hne => absurd rfl hne⟩
    rw [List.append_nil]
    exact h.results
  · obtain ⟨raised, hne, hresults, hraised⟩ := h.results
    exact ⟨moves, u, raised, hmoves, hresults, hraised, h.answered.symm,
      fun hnil => absurd hnil hne, fun _ => ⟨(hbeside.inv.closed h.shut).1, h.empty⟩⟩

/-- A call over the TCP transport that returns a message returns the device's reply to the request
of that very call. -/
theorem tcp_returns_own_reply (crc : Bytes → UInt16) (registry : Registry) (S : Session)
    (events : List Event) (t : TcpSession)
    (hmeets : Transition.Meets (step crc registry S) (Quiet crc S) initial events)
    (hrun : Transition.run (step crc registry S) initial events = some t) (n : ℕ)
    (response : Response) (hreturned : (n, .returned (.ok (some response))) ∈ t.results) :
    n ∈ t.answered ∧ unpackMatch registry (S.reply n) = .ok (some response) := by
  obtain ⟨moves, u, hmoves, hquiet, hbeside⟩ := run_beside (fun _ _ _ _ he h => h he) events
    hmeets hrun
  have hinv : SerialLink.Inv crc registry S u := Transition.run_invariant SerialLink.inv_step moves
    .initial u SerialLink.inv_initial (SerialLink.fresh_of_quiet crc registry S moves hquiet) hmoves
  have hmem (raised : List (ℕ × CallResult))
      (hresults : t.results = (u.returned.map fun p => (p.1, .returned p.2)) ++ raised)
      (hraised : ∀ p ∈ raised, p.2 = .connectionError closedMessage) :
      (n, .ok (some response)) ∈ u.returned := by
    rw [hresults] at hreturned
    obtain hmem | hmem := List.mem_append.mp hreturned
    · obtain ⟨⟨m, result⟩, hp, heq⟩ := List.mem_map.mp hmem
      cases heq
      exact hp
    · cases hraised _ hmem
  obtain h | h := hbeside.stands
  · rw [← h.answered]
    apply hinv.returned n response
    apply hmem [] _ nofun
    rw [List.append_nil]
    exact h.results
  · obtain ⟨raised, _, hresults, hraised⟩ := h.results
    rw [h.answered]
    exact hinv.returned n response (hmem raised hresults hraised)

/-- Two calls. The reply to the first comes in two pieces, and then the bridge closes. -/
def oneReply : List Event :=
  [.start, .select false, .resume 0, .send 0 true, .answer 0, .poll 0, .select true, .recv 5,
    .select true, .recv 3, .select false, .resume 0, .select false, .resume 0, .close, .start,
    .select true, .recv 1, .resume 1]

/-- The fields of the message that a call returned, or the text of its error. -/
def shown : CallResult → List (String × PyVal)
  | .returned result => SerialLink.fieldsOf result
  | .connectionError message => [("ConnectionError", .str message)]

theorem returned_of_shown {result : CallResult} {name : String} {value : PyVal}
    {fields : List (String × PyVal)} (h : shown result = (name, value) :: fields)
    (hname : name ≠ "ConnectionError") : ∃ response, result = .returned (.ok (some response)) := by
  cases result with
  | connectionError message =>
    cases h
    exact absurd rfl hname
  | returned result =>
    cases result with
    | error e => cases h
    | ok response =>
      cases response with
      | none => cases h
      | some response => exact ⟨response, rfl⟩

theorem refines_serial_link_once : ∃ t moves u raised,
    Transition.run (step Crc16.xmodem Messages.registry SerialLink.upgrade) initial oneReply =
      some t ∧
    t.results.map (fun p => (p.1, shown p.2)) =
      [(0, [("fw_version_minor", .int 3), ("fw_version_major", .int 5)]),
        (1, [("ConnectionError", .str closedMessage)])] ∧
    Transition.run (SerialLink.step Crc16.xmodem Messages.registry SerialLink.upgrade) .initial
      moves = some u ∧
    t.results = (u.returned.map fun p => (p.1, .returned p.2)) ++ raised := by
  have hview : (Transition.run (step Crc16.xmodem Messages.registry SerialLink.upgrade) initial
      oneReply).map (fun t => t.results.map fun p => (p.1, shown p.2)) =
      some [(0, [("fw_version_minor", .int 3), ("fw_version_major", .int 5)]),
        (1, [("ConnectionError", .str closedMessage)])] := by
    decide +kernel
  obtain ⟨t, ht, hresults⟩ := Option.map_eq_some_iff.mp hview
  obtain ⟨moves, u, raised, hmoves, hsplit, _⟩ := refines_serial_link Crc16.xmodem
    Messages.registry SerialLink.upgrade oneReply t ht
  exact ⟨t, moves, u, raised, ht, hresults, hmoves, hsplit⟩

/-- Nothing is on its way or owed when a call has dropped the stale bytes, and no reply is
repeated. -/
def quietTest (s : TcpSession) : Event → Bool
  | .resume _ => s.dropped.all fun k => (s.line.drop k).isEmpty && s.owed.isEmpty
  | .duplicate _ => false
  | _ => true

theorem quiet_of_test (crc : Bytes → UInt16) (S : Session) (s : TcpSession) (e : Event)
    (h : quietTest s e = true) : Quiet crc S s e := by
  cases e with
  | resume now =>
    intro k hk
    rw [quietTest, hk] at h
    obtain ⟨hline, howed⟩ := Bool.and_eq_true_iff.mp h
    rw [List.isEmpty_iff.mp hline, List.isEmpty_iff.mp howed]
    exact ⟨⟨[], rfl, nofun⟩, nofun⟩
  | duplicate m => cases h
  | _ => trivial

theorem tcp_returns_own_reply_once : ∃ t response,
    Transition.run (step Crc16.xmodem Messages.registry SerialLink.upgrade) initial oneReply =
      some t ∧
    (0, .returned (.ok (some response))) ∈ t.results ∧ 0 ∈ t.answered ∧
    unpackMatch Messages.registry (SerialLink.upgrade.reply 0) = .ok (some response) := by
  have hview : (Transition.run (fun s e => if quietTest s e then
      step Crc16.xmodem Messages.registry SerialLink.upgrade s e else none) initial
      oneReply).map (fun t => t.results.map fun p => (p.1, shown p.2)) =
      some [(0, [("fw_version_minor", .int 3), ("fw_version_major", .int 5)]),
        (1, [("ConnectionError", .str closedMessage)])] := by
    decide +kernel
  obtain ⟨t, ht, hresults⟩ := Option.map_eq_some_iff.mp hview
  obtain ⟨hmeets, hrun⟩ := Transition.meets_of_guarded
    (quiet_of_test Crc16.xmodem SerialLink.upgrade) oneReply initial t ht
  have hmem : (0, [("fw_version_minor", .int 3), ("fw_version_major", .int 5)]) ∈
      t.results.map fun p => (p.1, shown p.2) := by
    rw [hresults]
    exact List.mem_cons_self
  obtain ⟨⟨n, result⟩, hp, heq⟩ := List.mem_map.mp hmem
  obtain ⟨rfl, hshown⟩ := Prod.mk.inj heq
  obtain ⟨response, rfl⟩ := returned_of_shown hshown (by decide)
  exact ⟨t, response, hrun, hp, tcp_returns_own_reply Crc16.xmodem Messages.registry
    SerialLink.upgrade oneReply t hmeets hrun 0 response hp⟩

end TcpSession

end PyVesc
