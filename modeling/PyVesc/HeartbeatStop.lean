import PyVesc.HeartbeatRounds

/-!
# Stopping the heartbeat

`stop_heartbeat` sets the event and waits for the thread, which first finishes its round. Once the
call has returned nothing brings the heartbeat back, so that neither the jump to the bootloader nor
the closing of the port is followed by one.
-/

namespace PyVesc

variable {crc : Bytes → UInt16} {canId : Option ℕ}

/-- The return of `stop_heartbeat`, and the acts behind it. -/
def Act.ends : Act → Prop
  | .stopped | .jump _ | .close => True
  | .heartbeat _ | .command _ | .refused => False

namespace Heartbeat

variable {s t : Heartbeat}

/-- The thread will write nothing more: it is not running, or at the test of its loop, and the event
is set. -/
structure Quiet (s : Heartbeat) : Prop where
  stop : s.stopHeartbeat = true
  thread : s.thread = .unstarted ∨ s.thread = .looping ∨ s.thread = .finished

structure Stops (s : Heartbeat) : Prop where
  silent : s.log.Pairwise fun a b => a.ends → b.heartbeat? = none
  quiet : (∃ a ∈ s.log, a.ends) → s.Quiet
  waits : s.stopHeartbeat = true → (∃ next, s.caller = .stopping next) ∨ s.Quiet
  stopping : ∀ next, s.caller = .stopping next → s.stopHeartbeat = true

theorem Quiet.of_dead (hstop : s.stopHeartbeat = true) (hthread : s.isAlive = false) : s.Quiet := by
  refine ⟨hstop, ?_⟩
  rw [isAlive] at hthread
  split at hthread
  · next h => exact Or.inl h
  · next h => exact Or.inr (Or.inr h)
  · cases hthread

theorem Quiet.congr (h : s.Quiet) (hstop : t.stopHeartbeat = s.stopHeartbeat)
    (hthread : t.thread = s.thread) : t.Quiet := by
  refine ⟨hstop.trans h.stop, ?_⟩
  rw [hthread]
  exact h.thread

theorem not_quiet_of_sleeping (h : s.thread = .sleeping) : ¬ s.Quiet := by
  intro hquiet
  obtain hthread | hthread | hthread := hquiet.thread <;> cases h.symm.trans hthread

theorem not_quiet_of_sending {i : ℕ} (h : s.thread = .sending i) : ¬ s.Quiet := by
  intro hquiet
  obtain hthread | hthread | hthread := hquiet.thread <;> cases h.symm.trans hthread

theorem silent_append {l acts : List Act} (h : l.Pairwise fun a b => a.ends → b.heartbeat? = none)
    (hacts : ∀ a ∈ acts, a.heartbeat? = none) :
    (l ++ acts).Pairwise fun a b => a.ends → b.heartbeat? = none := by
  rw [List.pairwise_append]
  refine ⟨h, ?_, fun a _ b hb _ => hacts b hb⟩
  exact List.pairwise_of_forall_mem_list fun a _ b hb _ => hacts b hb

/-- A step of the caller that ends nothing, and does not set the event. -/
theorem Stops.beside {acts : List Act} (h : Stops s) (hlog : t.log = s.log ++ acts)
    (hacts : ∀ a ∈ acts, a.heartbeat? = none ∧ ¬ a.ends)
    (hstop : t.stopHeartbeat = s.stopHeartbeat) (hquiet : s.Quiet → t.Quiet)
    (hcaller : ∀ next, s.caller ≠ .stopping next) (hcaller' : ∀ next, t.caller ≠ .stopping next) :
    Stops t where
  silent := by
    rw [hlog]
    exact silent_append h.silent fun a ha => (hacts a ha).1
  quiet := by
    rintro ⟨a, ha, hends⟩
    rw [hlog] at ha
    rcases List.mem_append.mp ha with ha | ha
    · exact hquiet (h.quiet ⟨a, ha, hends⟩)
    · exact absurd hends (hacts a ha).2
  waits := by
    intro hset
    rw [hstop] at hset
    obtain ⟨next, hnext⟩ | hs := h.waits hset
    · exact absurd hnext (hcaller next)
    · exact Or.inr (hquiet hs)
  stopping := fun next hnext => absurd hnext (hcaller' next)

theorem Stops.startHeartbeat (h : Stops s) (hcaller : s.caller = .idle) (target : Option ℕ) :
    Stops (s.register crc target) := by
  have hidle : ∀ next, s.caller ≠ .stopping next := by
    rw [hcaller]
    exact fun next hnext => by cases hnext
  rw [register]
  cases registered crc target with
  | error e => exact h
  | ok msgs =>
    exact @Stops.beside s _ [] h (List.append_nil _).symm (fun a ha => absurd ha List.not_mem_nil)
      rfl (fun hquiet => hquiet.congr rfl rfl) hidle (fun next hnext => by cases hnext)

theorem Stops.startThread (h : Stops s) (hcaller : s.caller = .starting) :
    Stops s.startThread := by
  have hstarting : ∀ next, s.caller ≠ .stopping next := by
    rw [hcaller]
    exact fun next hnext => by cases hnext
  obtain ⟨_, heq⟩ | ⟨_, heq⟩ | ⟨_, heq⟩ := s.startThread_cases
  · rw [heq]
    exact @Stops.beside s _ [] h (List.append_nil _).symm (fun a ha => absurd ha List.not_mem_nil)
      rfl (fun hquiet => ⟨hquiet.stop, Or.inr (Or.inl rfl)⟩) hstarting
      (fun next hnext => by cases hnext)
  · rw [heq]
    exact @Stops.beside s _ [.refused] h rfl (List.forall_mem_singleton.mpr ⟨rfl, id⟩) rfl
      (fun hquiet => hquiet.congr rfl rfl) hstarting (fun next hnext => by cases hnext)
  · rw [heq]
    exact @Stops.beside s _ [] h (List.append_nil _).symm (fun a ha => absurd ha List.not_mem_nil)
      rfl (fun hquiet => hquiet.congr rfl rfl) hstarting (fun next hnext => by cases hnext)

theorem Stops.command (h : Stops s) (hcaller : s.caller = .idle) (payload : Bytes) :
    Stops (s.command crc payload) := by
  have hidle : ∀ next, s.caller ≠ .stopping next := by
    rw [hcaller]
    exact fun next hnext => by cases hnext
  rw [Heartbeat.command]
  cases frame crc payload with
  | error e => exact h
  | ok data =>
    exact @Stops.beside s _ [.command data] h rfl (List.forall_mem_singleton.mpr ⟨rfl, id⟩) rfl
      (fun hquiet => hquiet.congr rfl rfl) hidle hidle

theorem Stops.leaveStop {next : AfterStop} (h : Stops s) (hcaller : s.caller = .stopping next)
    (hthread : s.isAlive = false) : Stops (s.afterStop crc canId next) := by
  obtain ⟨_, _, hthread', hstop, hidle⟩ := afterStop_rest crc canId s next
  obtain ⟨acts, hlog, hacts⟩ := (beside_afterStop crc canId s next).log
  have hquiet : (s.afterStop crc canId next).Quiet :=
    (Quiet.of_dead (h.stopping next hcaller) hthread).congr hstop hthread'
  refine ⟨?_, fun _ => hquiet, fun _ => Or.inr hquiet, fun next' hnext => ?_⟩
  · rw [hlog]
    exact silent_append h.silent hacts
  · rw [hidle] at hnext
    cases hnext

/-- A step of the thread, from a state that is not quiet. -/
theorem Stops.beat {acts : List Act} (h : Stops s) (hnot : ¬ s.Quiet)
    (hlog : t.log = s.log ++ acts) (hacts : ∀ a ∈ acts, ¬ a.ends)
    (hstop : t.stopHeartbeat = s.stopHeartbeat) (hcaller : t.caller = s.caller) : Stops t := by
  have hnone : ∀ a ∈ t.log, ¬ a.ends := by
    rw [hlog]
    intro a ha
    rcases List.mem_append.mp ha with ha | ha
    · exact fun hends => hnot (h.quiet ⟨a, ha, hends⟩)
    · exact hacts a ha
  refine ⟨?_, fun ⟨a, ha, hends⟩ => absurd hends (hnone a ha), fun hset => Or.inl ?_, ?_⟩
  · exact List.pairwise_of_forall_mem_list fun a ha b _ hends => absurd hends (hnone a ha)
  · rw [hcaller]
    exact (h.waits (hstop ▸ hset)).resolve_right hnot
  · rw [hcaller, hstop]
    exact h.stopping

theorem Stops.step {e : Event} (h : Stops s) (hmove : Move crc canId s e t) : Stops t := by
  cases hmove with
  | startHeartbeat hcaller => exact h.startHeartbeat hcaller _
  | startThread hcaller => exact h.startThread hcaller
  | stopHeartbeat hcaller =>
    exact ⟨h.silent, fun hends => ⟨rfl, (h.quiet hends).thread⟩, fun _ => Or.inl ⟨_, rfl⟩,
      fun _ _ => rfl⟩
  | leaveStop hcaller hthread => exact h.leaveStop hcaller hthread
  | command hcaller => exact h.command hcaller _
  | test hthread =>
    by_cases hstop : s.stopHeartbeat = true
    · have hquiet :
          Quiet { s with thread := if s.stopHeartbeat then .finished else .sleeping } := by
        refine ⟨hstop, Or.inr (Or.inr ?_)⟩
        exact if_pos hstop
      exact ⟨h.silent, fun _ => hquiet, fun _ => Or.inr hquiet, h.stopping⟩
    · refine ⟨h.silent, fun hends => absurd (h.quiet hends).stop hstop,
        fun hset => absurd hset hstop, h.stopping⟩
  | wake hthread =>
    exact @Stops.beat s _ [] h (not_quiet_of_sleeping hthread) (List.append_nil _).symm
      (fun a ha => absurd ha List.not_mem_nil) rfl rfl
  | send hthread =>
    exact @Stops.beat s _ [_] h (not_quiet_of_sending hthread) rfl
      (List.forall_mem_singleton.mpr id) rfl rfl
  | turn hthread =>
    exact @Stops.beat s _ [] h (not_quiet_of_sending hthread) (List.append_nil _).symm
      (fun a ha => absurd ha List.not_mem_nil) rfl rfl

theorem stops_initial {hasSensor : Bool} (h : initial crc canId hasSensor = .ok s) : Stops s := by
  obtain ⟨log, hlog, h⟩ := bind_eq_ok h
  obtain ⟨own, _, h⟩ := bind_eq_ok h
  cases h
  have hnone : ∀ a ∈ log, ¬ a.ends := by
    obtain rfl | ⟨data, _, rfl⟩ := initialLog_cases hlog
    · exact fun a ha => absurd ha List.not_mem_nil
    · exact List.forall_mem_singleton.mpr id
  constructor
  · exact List.pairwise_of_forall_mem_list fun a ha b _ hends => absurd hends (hnone a ha)
  · exact fun ⟨a, ha, hends⟩ => absurd hends (hnone a ha)
  · nofun
  · nofun

/-! ### What is still written -/

/-- What the thread writes before its next test of the event. -/
def roundRest (s : Heartbeat) : List Bytes :=
  match s.thread with
  | .sleeping => s.aliveMsgs
  | .sending i => s.aliveMsgs.drop i
  | .unstarted | .looping | .finished => []

theorem Quiet.roundRest (h : s.Quiet) : s.roundRest = [] := by
  rw [Heartbeat.roundRest]
  obtain hthread | hthread | hthread := h.thread <;> rw [hthread]

theorem length_roundRest_le (s : Heartbeat) : s.roundRest.length ≤ s.aliveMsgs.length := by
  rw [roundRest]
  split
  · exact le_rfl
  · rw [List.length_drop]
    exact Nat.sub_le _ _
  all_goals exact Nat.zero_le _

theorem Beside.roundRest (h : Beside s t) (hquiet : s.Quiet) : t.roundRest = s.roundRest := by
  rw [hquiet.roundRest, Heartbeat.roundRest]
  obtain hthread | ⟨_, hthread⟩ := h.thread
  · rw [hthread]
    obtain hthread | hthread | hthread := hquiet.thread <;> rw [hthread]
  · rw [hthread]

theorem stopHeartbeat_mono {e : Event} (hmove : Move crc canId s e t)
    (hstop : s.stopHeartbeat = true) : t.stopHeartbeat = true := by
  cases hmove with
  | startHeartbeat =>
    rw [register]
    cases registered crc _ <;> exact hstop
  | startThread =>
    obtain ⟨_, heq⟩ | ⟨_, heq⟩ | ⟨_, heq⟩ := s.startThread_cases <;> rw [heq] <;> exact hstop
  | stopHeartbeat => rfl
  | leaveStop => exact (afterStop_rest crc canId s _).2.2.2.1.trans hstop
  | command =>
    rw [command]
    cases frame crc _ <;> exact hstop
  | test | wake | send | turn => exact hstop

/-- With the event set, what has been written and what is still to be written is the same in every
step. -/
theorem Stops.roundRest {e : Event} (h : Stops s) (hstop : s.stopHeartbeat = true)
    (hmove : Move crc canId s e t) :
    t.heartbeats ++ t.roundRest = s.heartbeats ++ s.roundRest := by
  have hbeside (hother : ∀ next, s.caller ≠ .stopping next) (hb : Beside s t) :
      t.heartbeats ++ t.roundRest = s.heartbeats ++ s.roundRest := by
    obtain ⟨next, hnext⟩ | hquiet := h.waits hstop
    · exact absurd hnext (hother next)
    · rw [hb.heartbeats, hb.roundRest hquiet]
  cases hmove with
  | startHeartbeat hcaller =>
    exact hbeside (fun next hnext => by cases hcaller.symm.trans hnext) (beside_register crc s _)
  | startThread hcaller =>
    exact hbeside (fun next hnext => by cases hcaller.symm.trans hnext) s.beside_startThread
  | stopHeartbeat => rfl
  | leaveStop hcaller hthread =>
    have hb := beside_afterStop crc canId s
    rw [(hb _).heartbeats, (hb _).roundRest (Quiet.of_dead hstop hthread)]
  | command hcaller =>
    exact hbeside (fun next hnext => by cases hcaller.symm.trans hnext) (beside_command crc s _)
  | test hthread =>
    rw [Heartbeat.roundRest, Heartbeat.roundRest, hthread]
    dsimp only
    rw [if_pos hstop]
    rfl
  | wake hthread =>
    rw [Heartbeat.roundRest, Heartbeat.roundRest, hthread]
    rfl
  | @send i msg hthread hmsg =>
    obtain ⟨hi, hmsg⟩ := List.getElem?_eq_some_iff.mp hmsg
    rw [Heartbeat.roundRest, Heartbeat.roundRest, hthread, heartbeats, List.filterMap_append,
      ← heartbeats, List.append_assoc]
    dsimp only
    rw [List.drop_eq_getElem_cons hi, hmsg]
    rfl
  | turn hthread hmsg =>
    rw [Heartbeat.roundRest, Heartbeat.roundRest, hthread]
    dsimp only
    rw [List.drop_eq_nil_of_le (List.getElem?_eq_none_iff.mp hmsg)]
    rfl

/-- No heartbeat follows the return of `stop_heartbeat`, the jump to the bootloader or the closing
of the port. From the setting of the event on, the thread writes at most the rest of its round. -/
theorem stopped_is_silent (hasSensor : Bool) (events : List Event) (s t : Heartbeat)
    (hinit : initial crc canId hasSensor = .ok s)
    (hrun : Transition.run (step crc canId) s events = some t) :
    (t.log.Pairwise fun a b => a.ends → b.heartbeat? = none) ∧
    (t.stopHeartbeat = true → ∀ later u, Transition.run (step crc canId) t later = some u →
      u.heartbeats <+: t.heartbeats ++ t.roundRest ∧
      t.roundRest.length ≤ t.aliveMsgs.length) := by
  have hstops : Stops t := by
    apply Transition.run_preserves _ events s t (stops_initial hinit) hrun
    exact fun u e v hu hstep => hu.step (move_of_step crc canId hstep)
  refine ⟨hstops.silent, fun hset later u hlater => ⟨?_, t.length_roundRest_le⟩⟩
  obtain ⟨_, _, hrest⟩ : Stops u ∧ u.stopHeartbeat = true ∧
      u.heartbeats ++ u.roundRest = t.heartbeats ++ t.roundRest := by
    apply @Transition.run_preserves _ _ _ (fun u => Stops u ∧ u.stopHeartbeat = true ∧
      u.heartbeats ++ u.roundRest = t.heartbeats ++ t.roundRest) _ later t u
      ⟨hstops, hset, rfl⟩ hlater
    rintro v e w ⟨hv, hvset, hvrest⟩ hstep
    have hmove := move_of_step crc canId hstep
    exact ⟨hv.step hmove, stopHeartbeat_mono hmove hvset, (hv.roundRest hvset hmove).trans hvrest⟩
  exact ⟨u.roundRest, hrest⟩

/-- The heartbeat is stopped in a round, the caller jumps to the bootloader, and tries to start the
heartbeat again. -/
def jumping : List Event :=
  [.startHeartbeat none, .startThread, .beat, .beat, .stopHeartbeat .jump] ++
    List.replicate 3 .beat ++ [.leaveStop, .startHeartbeat none, .startThread]

theorem stopped_is_silent_jumping : ∃ s t, initial Crc16.xmodem none false = .ok s ∧
    Transition.run (step Crc16.xmodem none) s jumping = some t ∧
    t.log.map (fun a => (a.heartbeat?.isSome, decide (a = .refused))) =
      [(true, false), (false, false), (false, false), (false, true)] ∧
    ∀ later u, Transition.run (step Crc16.xmodem none) t later = some u →
      u.heartbeats.length ≤ 1 := by
  have hview : (initial Crc16.xmodem none false).toOption.bind (fun s =>
      (Transition.run (step Crc16.xmodem none) s jumping).map fun t =>
        (t.log.map (fun a => (a.heartbeat?.isSome, decide (a = .refused))), t.stopHeartbeat,
          t.heartbeats.length, t.roundRest)) =
      some ([(true, false), (false, false), (false, false), (false, true)], true, 1, []) := by
    decide +kernel
  obtain ⟨s, hs, hrun⟩ := Option.bind_eq_some_iff.mp hview
  obtain ⟨t, ht, hview⟩ := Option.map_eq_some_iff.mp hrun
  simp only [Prod.mk.injEq] at hview
  obtain ⟨hlog, hset, hlen, hrest⟩ := hview
  replace hs := eq_ok_of_toOption hs
  refine ⟨s, t, hs, ht, hlog, fun later u hlater => ?_⟩
  have hsilent := (stopped_is_silent false jumping s t hs ht).2 hset later u hlater
  rw [hrest, List.append_nil] at hsilent
  exact hsilent.1.length_le.trans hlen.le

/-! ### The call returns -/

/-- The steps of the thread up to its end, with the event set. -/
def joinSteps (s : Heartbeat) : ℕ :=
  match s.thread with
  | .unstarted | .finished => 0
  | .looping => 1
  | .sleeping => s.aliveMsgs.length + 3
  | .sending i => s.aliveMsgs.length - i + 2

theorem joinSteps_le (s : Heartbeat) : s.joinSteps ≤ s.aliveMsgs.length + 3 := by
  rw [joinSteps]
  split <;> omega

/-- The caller waits in `stop_heartbeat`. -/
structure Waiting (next : AfterStop) (s : Heartbeat) : Prop where
  caller : s.caller = .stopping next
  stop : s.stopHeartbeat = true

variable {next : AfterStop}

theorem Waiting.move {e : Event} (h : Waiting next s) (hmove : Move crc canId s e t)
    (hleave : e ≠ .leaveStop) :
    e = .beat ∧ Waiting next t ∧ t.joinSteps + 1 = s.joinSteps := by
  have hcaller := h.caller
  cases hmove with
  | startHeartbeat hother | startThread hother | stopHeartbeat hother | command hother =>
    cases hcaller.symm.trans hother
  | leaveStop => exact absurd rfl hleave
  | test hthread =>
    refine ⟨rfl, ⟨hcaller, h.stop⟩, ?_⟩
    rw [joinSteps, joinSteps, hthread]
    dsimp only
    rw [if_pos h.stop]
  | wake hthread =>
    refine ⟨rfl, ⟨hcaller, h.stop⟩, ?_⟩
    rw [joinSteps, joinSteps, hthread]
    rfl
  | send hthread hmsg =>
    have hi := (List.getElem?_eq_some_iff.mp hmsg).1
    refine ⟨rfl, ⟨hcaller, h.stop⟩, ?_⟩
    rw [joinSteps, joinSteps, hthread]
    dsimp only
    omega
  | turn hthread hmsg =>
    have hi := List.getElem?_eq_none_iff.mp hmsg
    refine ⟨rfl, ⟨hcaller, h.stop⟩, ?_⟩
    rw [joinSteps, joinSteps, hthread]
    dsimp only
    omega

theorem exists_beat (h : s.joinSteps ≠ 0) : ∃ t, s.beat = some t := by
  cases hthread : s.thread with
  | unstarted | finished =>
    rw [joinSteps, hthread] at h
    exact absurd rfl h
  | looping | sleeping =>
    rw [beat, hthread]
    exact ⟨_, rfl⟩
  | sending i =>
    rw [beat, hthread]
    dsimp only
    cases s.aliveMsgs[i]? with
    | none => exact ⟨_, rfl⟩
    | some msg => exact ⟨_, rfl⟩

theorem isAlive_of_joinSteps (h : s.joinSteps = 0) : s.isAlive = false := by
  cases hthread : s.thread with
  | unstarted | finished =>
    rw [isAlive, hthread]
  | looping | sleeping | sending i =>
    rw [joinSteps, hthread] at h
    cases h

theorem Waiting.returns (h : Waiting next s) {n : ℕ} (hn : s.joinSteps = n) :
    ∃ t, Transition.run (step crc canId) s (List.replicate n .beat ++ [.leaveStop]) = some t ∧
      t.caller = .idle := by
  induction n generalizing s with
  | zero =>
    refine ⟨s.afterStop crc canId next, ?_, (afterStop_rest crc canId s next).2.2.2.2⟩
    have hleave : step crc canId s .leaveStop = some (s.afterStop crc canId next) := by
      rw [step, h.caller]
      dsimp only
      rw [isAlive_of_joinSteps hn]
      rfl
    rw [List.replicate_zero, List.nil_append, Transition.run, hleave]
    rfl
  | succ n ih =>
    obtain ⟨t, ht⟩ := exists_beat (hn.trans_ne (Nat.succ_ne_zero n))
    obtain ⟨_, hwaiting, hsteps⟩ := h.move (move_of_beat crc canId ht) (by decide)
    obtain ⟨u, hu, hidle⟩ := ih hwaiting (Nat.succ.inj (hsteps.trans hn))
    refine ⟨u, ?_, hidle⟩
    have hbeat : step crc canId s .beat = some t := ht
    rw [List.replicate_succ, List.cons_append, Transition.run, hbeat]
    exact hu

theorem Waiting.run {events : List Event} (h : Waiting next s)
    (hrun : Transition.run (step crc canId) s events = some t) (hleave : .leaveStop ∉ events) :
    Waiting next t ∧ t.joinSteps + events.length = s.joinSteps := by
  induction events generalizing s with
  | nil =>
    cases hrun
    exact ⟨h, rfl⟩
  | cons e events ih =>
    obtain ⟨u, hu, hrun⟩ := Option.bind_eq_some_iff.mp hrun
    obtain ⟨hne, hleave⟩ := List.ne_and_not_mem_of_not_mem_cons hleave
    obtain ⟨_, hwaiting, hsteps⟩ := h.move (move_of_step crc canId hu) hne.symm
    obtain ⟨ht, hlen⟩ := ih hwaiting hrun hleave
    refine ⟨ht, ?_⟩
    rw [List.length_cons]
    omega

/-- `stop_heartbeat` returns: while the caller waits, the thread makes at most three steps more than
there are messages, and then the call is over. -/
theorem stopHeartbeat_returns (hasSensor : Bool) (events : List Event) (s t : Heartbeat)
    (next : AfterStop) (hinit : initial crc canId hasSensor = .ok s)
    (hrun : Transition.run (step crc canId) s events = some t)
    (hcaller : t.caller = .stopping next) (waited : List Event) (u : Heartbeat)
    (hwaited : Transition.run (step crc canId) t waited = some u) (hleave : .leaveStop ∉ waited) :
    waited.length ≤ t.aliveMsgs.length + 3 ∧ ∃ n v,
      waited.length + n ≤ t.aliveMsgs.length + 3 ∧
      Transition.run (step crc canId) u (List.replicate n .beat ++ [.leaveStop]) = some v ∧
      v.caller = .idle := by
  have hstops : Stops t := by
    apply Transition.run_preserves _ events s t (stops_initial hinit) hrun
    exact fun u e v hu hstep => hu.step (move_of_step crc canId hstep)
  have hwaiting : Waiting next t := ⟨hcaller, hstops.stopping next hcaller⟩
  obtain ⟨hend, hlen⟩ := hwaiting.run hwaited hleave
  obtain ⟨v, hv, hidle⟩ := @Waiting.returns crc canId u next hend u.joinSteps rfl
  have hle := t.joinSteps_le
  exact ⟨by omega, u.joinSteps, v, by omega, hv, hidle⟩

theorem stopHeartbeat_returns_jumping : ∃ s t n v, initial Crc16.xmodem none false = .ok s ∧
    Transition.run (step Crc16.xmodem none) s (jumping.take 5) = some t ∧
    t.caller = .stopping .jump ∧ n ≤ t.aliveMsgs.length + 3 ∧
    Transition.run (step Crc16.xmodem none) t (List.replicate n .beat ++ [.leaveStop]) = some v ∧
      v.caller = .idle := by
  have hview : (initial Crc16.xmodem none false).toOption.bind (fun s =>
      (Transition.run (step Crc16.xmodem none) s (jumping.take 5)).map fun t => t.caller) =
      some (.stopping .jump) := by
    decide +kernel
  obtain ⟨s, hs, hrun⟩ := Option.bind_eq_some_iff.mp hview
  obtain ⟨t, ht, hcaller⟩ := Option.map_eq_some_iff.mp hrun
  replace hs := eq_ok_of_toOption hs
  obtain ⟨_, n, v, hn, hv, hidle⟩ := stopHeartbeat_returns false (jumping.take 5) s t .jump hs ht
    hcaller [] t rfl List.not_mem_nil
  exact ⟨s, t, n, v, hs, ht, hcaller, by simpa using hn, hv, hidle⟩

end Heartbeat

end PyVesc
