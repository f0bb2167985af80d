import PyVesc.CanForwarding
import PyVesc.Heartbeat

/-!
# The rounds of the heartbeat

Whatever the caller does meanwhile, a round of the thread writes the messages that are registered by
its end, each once and in the order of their registration. With the writes of the caller in between,
the port gets a clean stream of frames.
-/

namespace PyVesc

open StructFormat

variable (crc : Bytes → UInt16) (canId : Option ℕ)

namespace Act

def heartbeat? : Act → Option Bytes
  | .heartbeat msg => some msg
  | _ => none

/-- The bytes that are written to the port. -/
def written? : Act → Option Bytes
  | .heartbeat data | .command data | .jump data => some data
  | .stopped | .close | .refused => none

end Act

def HeartbeatThread.index : HeartbeatThread → ℕ
  | .sending i => i
  | _ => 0

namespace Heartbeat

def heartbeats (s : Heartbeat) : List Bytes := s.log.filterMap Act.heartbeat?

/-- What the steps of the caller leave alone. -/
structure Beside (s t : Heartbeat) : Prop where
  registered : s.aliveMsgs <+: t.aliveMsgs
  rounds : t.rounds = s.rounds
  log : ∃ acts, t.log = s.log ++ acts ∧ ∀ a ∈ acts, a.heartbeat? = none
  thread : t.thread = s.thread ∨ s.thread = .unstarted ∧ t.thread = .looping

variable {s t : Heartbeat}

theorem Beside.of_log {acts : List Act} (hmsgs : t.aliveMsgs = s.aliveMsgs)
    (hrounds : t.rounds = s.rounds) (hlog : t.log = s.log ++ acts)
    (hacts : ∀ a ∈ acts, a.heartbeat? = none) (hthread : t.thread = s.thread) : Beside s t where
  registered := hmsgs ▸ List.prefix_refl _
  rounds := hrounds
  log := ⟨acts, hlog, hacts⟩
  thread := Or.inl hthread

theorem Beside.of_silent (hmsgs : s.aliveMsgs <+: t.aliveMsgs) (hrounds : t.rounds = s.rounds)
    (hlog : t.log = s.log)
    (hthread : t.thread = s.thread ∨ s.thread = .unstarted ∧ t.thread = .looping) :
    Beside s t where
  registered := hmsgs
  rounds := hrounds
  log := ⟨[], by rw [hlog, List.append_nil], fun a ha => absurd ha List.not_mem_nil⟩
  thread := hthread

theorem beside_register (s : Heartbeat) (target : Option ℕ) : Beside s (s.register crc target) := by
  rw [register]
  cases registered crc target with
  | ok msgs => exact .of_silent (List.prefix_append _ _) rfl rfl (Or.inl rfl)
  | error e => exact .of_silent (List.prefix_refl _) rfl rfl (Or.inl rfl)

/-- The start of the thread, according to whether it has been started before. -/
theorem startThread_cases (s : Heartbeat) :
    s.thread = .unstarted ∧ s.startThread = { s with thread := .looping, caller := .idle } ∨
      s.thread = .finished ∧
        s.startThread = { s with caller := .idle, log := s.log ++ [.refused] } ∨
      s.isAlive = true ∧ s.startThread = { s with caller := .idle } := by
  rw [startThread, isAlive]
  split
  · next h => exact Or.inl ⟨h, rfl⟩
  · next h => exact Or.inr (Or.inl ⟨h, rfl⟩)
  · exact Or.inr (Or.inr ⟨rfl, rfl⟩)

theorem beside_startThread (s : Heartbeat) : Beside s s.startThread := by
  obtain ⟨hthread, h⟩ | ⟨_, h⟩ | ⟨_, h⟩ := s.startThread_cases
  · rw [h]
    exact .of_silent (List.prefix_refl _) rfl rfl (Or.inr ⟨hthread, rfl⟩)
  · rw [h]
    have hacts : ∀ a ∈ [Act.refused], a.heartbeat? = none := by decide
    exact .of_log rfl rfl rfl hacts rfl
  · rw [h]
    exact .of_silent (List.prefix_refl _) rfl rfl (Or.inl rfl)

/-- The acts of the method behind `stop_heartbeat`. -/
theorem afterStop_log (s : Heartbeat) (next : AfterStop) :
    ∃ acts, (s.afterStop crc canId next).log = s.log ++ .stopped :: acts ∧
      ∀ a ∈ acts, a = .close ∨ ∃ data, jumpMsg crc canId = .ok data ∧ a = .jump data := by
  cases next with
  | nothing => exact ⟨[], rfl, fun a ha => by cases ha⟩
  | jump =>
    rw [afterStop]
    dsimp only
    cases hjump : jumpMsg crc canId with
    | ok data =>
      refine ⟨[.jump data], List.append_assoc _ _ _, fun a ha => Or.inr ⟨data, rfl, ?_⟩⟩
      exact List.mem_singleton.mp ha
    | error e => exact ⟨[], rfl, fun a ha => by cases ha⟩
  | exit flushes =>
    rw [afterStop]
    dsimp only
    split_ifs
    · exact ⟨[.close], List.append_assoc _ _ _, fun a ha => Or.inl (List.mem_singleton.mp ha)⟩
    · exact ⟨[], rfl, fun a ha => by cases ha⟩

theorem afterStop_rest (s : Heartbeat) (next : AfterStop) :
    (s.afterStop crc canId next).aliveMsgs = s.aliveMsgs ∧
      (s.afterStop crc canId next).rounds = s.rounds ∧
      (s.afterStop crc canId next).thread = s.thread ∧
      (s.afterStop crc canId next).stopHeartbeat = s.stopHeartbeat ∧
      (s.afterStop crc canId next).caller = .idle := by
  cases next with
  | nothing => exact ⟨rfl, rfl, rfl, rfl, rfl⟩
  | jump =>
    rw [afterStop]
    dsimp only
    cases jumpMsg crc canId <;> exact ⟨rfl, rfl, rfl, rfl, rfl⟩
  | exit flushes =>
    rw [afterStop]
    dsimp only
    split_ifs <;> exact ⟨rfl, rfl, rfl, rfl, rfl⟩

theorem beside_afterStop (s : Heartbeat) (next : AfterStop) :
    Beside s (s.afterStop crc canId next) := by
  obtain ⟨acts, hlog, hacts⟩ := afterStop_log crc canId s next
  obtain ⟨hmsgs, hrounds, hthread, _, _⟩ := afterStop_rest crc canId s next
  apply Beside.of_log hmsgs hrounds hlog _ hthread
  intro a ha
  rcases List.mem_cons.mp ha with rfl | ha
  · rfl
  · rcases hacts a ha with rfl | ⟨data, _, rfl⟩ <;> rfl

theorem beside_command (s : Heartbeat) (payload : Bytes) : Beside s (s.command crc payload) := by
  rw [command]
  cases frame crc payload with
  | ok data =>
    have hacts : ∀ a ∈ [Act.command data], a.heartbeat? = none :=
      List.forall_mem_singleton.mpr rfl
    exact .of_log rfl rfl rfl hacts rfl
  | error e => exact .of_silent (List.prefix_refl _) rfl rfl (Or.inl rfl)

/-! ### Rounds -/

/-- The messages that the rounds so far have written, and the round under way. -/
def roundsWritten (s : Heartbeat) : List Bytes :=
  s.rounds.flatMap (fun n => s.aliveMsgs.take n) ++ s.aliveMsgs.take s.thread.index

structure Rounds (own : Bytes) (s : Heartbeat) : Prop where
  own : [own] <+: s.aliveMsgs
  written : s.heartbeats = s.roundsWritten
  bounds : ∀ n ∈ s.rounds, 1 ≤ n ∧ n ≤ s.aliveMsgs.length
  sorted : s.rounds.Pairwise (· ≤ ·)
  index : s.thread.index ≤ s.aliveMsgs.length

theorem take_of_prefix {α : Type} {l l' : List α} (h : l <+: l') {n : ℕ} (hn : n ≤ l.length) :
    l'.take n = l.take n := by
  obtain ⟨rest, rfl⟩ := h
  exact List.take_append_of_le_length hn

theorem flatMap_take_of_prefix {α : Type} {l l' : List α} (h : l <+: l') {ns : List ℕ}
    (hns : ∀ n ∈ ns, n ≤ l.length) :
    ns.flatMap (fun n => l'.take n) = ns.flatMap fun n => l.take n := by
  induction ns with
  | nil => rfl
  | cons n ns ih =>
    obtain ⟨hn, hns⟩ := List.forall_mem_cons.mp hns
    rw [List.flatMap_cons, List.flatMap_cons, take_of_prefix h hn, ih hns]

theorem Beside.heartbeats (h : Beside s t) : t.heartbeats = s.heartbeats := by
  obtain ⟨acts, hlog, hacts⟩ := h.log
  rw [Heartbeat.heartbeats, hlog, List.filterMap_append, List.filterMap_eq_nil_iff.mpr hacts,
    List.append_nil]
  rfl

theorem Beside.index (h : Beside s t) : t.thread.index = s.thread.index := by
  obtain hthread | ⟨hs, ht⟩ := h.thread
  · rw [hthread]
  · rw [hs, ht]
    rfl

variable {own : Bytes}

theorem Rounds.beside (h : Rounds own s) (hbeside : Beside s t) : Rounds own t where
  own := h.own.trans hbeside.registered
  written := by
    rw [hbeside.heartbeats, h.written, roundsWritten, roundsWritten, hbeside.rounds, hbeside.index,
      flatMap_take_of_prefix hbeside.registered fun n hn => (h.bounds n hn).2,
      take_of_prefix hbeside.registered h.index]
  bounds := by
    rw [hbeside.rounds]
    intro n hn
    exact ⟨(h.bounds n hn).1, (h.bounds n hn).2.trans hbeside.registered.length_le⟩
  sorted := by
    rw [hbeside.rounds]
    exact h.sorted
  index := by
    rw [hbeside.index]
    exact h.index.trans hbeside.registered.length_le

/-- A round ends when the messages that are registered have been gone through. -/
theorem Rounds.turn_eq (h : Rounds own s) {i : ℕ} (hthread : s.thread = .sending i)
    (hmsg : s.aliveMsgs[i]? = none) : i = s.aliveMsgs.length := by
  have hindex := h.index
  rw [hthread] at hindex
  exact le_antisymm hindex (List.getElem?_eq_none_iff.mp hmsg)

variable {crc canId} in
/-- The number of a round is that of the messages registered at its end. -/
theorem Rounds.rounds_step {e : Event} (h : Rounds own s) (hmove : Move crc canId s e t) :
    t.rounds = s.rounds ∨ t.rounds = s.rounds ++ [t.aliveMsgs.length] := by
  cases hmove with
  | startHeartbeat => exact Or.inl (beside_register crc s _).rounds
  | startThread => exact Or.inl s.beside_startThread.rounds
  | leaveStop => exact Or.inl (beside_afterStop crc canId s _).rounds
  | command => exact Or.inl (beside_command crc s _).rounds
  | stopHeartbeat | test | wake | send => exact Or.inl rfl
  | @turn i hthread hmsg =>
    right
    change s.rounds ++ [i] = s.rounds ++ [s.aliveMsgs.length]
    rw [h.turn_eq hthread hmsg]

variable {crc canId} in
theorem Rounds.step {e : Event} (h : Rounds own s) (hmove : Move crc canId s e t) :
    Rounds own t := by
  cases hmove with
  | startHeartbeat => exact h.beside (beside_register crc s _)
  | startThread => exact h.beside s.beside_startThread
  | stopHeartbeat => exact h.beside (.of_silent (List.prefix_refl _) rfl rfl (Or.inl rfl))
  | leaveStop => exact h.beside (beside_afterStop crc canId s _)
  | command => exact h.beside (beside_command crc s _)
  | test hthread =>
    have hindex : (if s.stopHeartbeat then HeartbeatThread.finished else .sleeping).index = 0 := by
      split_ifs <;> rfl
    refine ⟨h.own, ?_, h.bounds, h.sorted, hindex.trans_le (Nat.zero_le _)⟩
    have hwritten := h.written
    rw [roundsWritten, hthread] at hwritten
    rw [roundsWritten]
    dsimp only
    rw [hindex]
    exact hwritten
  | wake hthread =>
    refine ⟨h.own, ?_, h.bounds, h.sorted, Nat.zero_le _⟩
    have hwritten := h.written
    rw [roundsWritten, hthread] at hwritten
    exact hwritten
  | send hthread hmsg =>
    obtain ⟨hi, hmsg⟩ := List.getElem?_eq_some_iff.mp hmsg
    refine ⟨h.own, ?_, h.bounds, h.sorted, hi⟩
    have hwritten := h.written
    rw [roundsWritten, hthread] at hwritten
    rw [heartbeats, List.filterMap_append, ← heartbeats, hwritten, roundsWritten]
    dsimp only [HeartbeatThread.index]
    rw [List.take_add_one, List.getElem?_eq_getElem hi, hmsg, List.append_assoc]
    rfl
  | @turn i hthread hmsg =>
    have hi := h.turn_eq hthread hmsg
    refine ⟨h.own, ?_, ?_, ?_, Nat.zero_le _⟩
    · have hwritten := h.written
      rw [roundsWritten, hthread] at hwritten
      rw [roundsWritten]
      dsimp only [HeartbeatThread.index]
      rw [List.flatMap_append, List.flatMap_singleton, List.take_zero, List.append_nil]
      exact hwritten
    · intro n hn
      rcases List.mem_append.mp hn with hn | hn
      · exact h.bounds n hn
      · rw [List.mem_singleton.mp hn, hi]
        exact ⟨h.own.length_le, le_rfl⟩
    · rw [List.pairwise_append]
      refine ⟨h.sorted, List.pairwise_singleton _ _, fun n hn m hm => ?_⟩
      rw [List.mem_singleton.mp hm, hi]
      exact (h.bounds n hn).2

variable {crc canId} in
theorem initialLog_cases {hasSensor : Bool} {log : List Act}
    (h : initialLog crc canId hasSensor = .ok log) :
    log = [] ∨ ∃ data, rotorMsg crc canId = .ok data ∧ log = [.command data] := by
  cases hasSensor with
  | false =>
    cases h
    exact Or.inl rfl
  | true =>
    rw [initialLog, if_pos rfl] at h
    cases hrotor : rotorMsg crc canId with
    | ok data =>
      rw [hrotor] at h
      cases h
      exact Or.inr ⟨data, rfl, rfl⟩
    | error e =>
      rw [hrotor] at h
      cases h

theorem rounds_initial {hasSensor : Bool} (h : initial crc canId hasSensor = .ok s) :
    ∃ own, aliveMsg crc canId = .ok own ∧ Rounds own s := by
  obtain ⟨log, hlog, h⟩ := bind_eq_ok h
  obtain ⟨own, hown, h⟩ := bind_eq_ok h
  cases h
  refine ⟨own, hown, List.prefix_refl _, ?_, fun n hn => absurd hn List.not_mem_nil, .nil,
    Nat.zero_le _⟩
  obtain rfl | ⟨data, _, rfl⟩ := initialLog_cases hlog
  · rfl
  · rfl

/-- The thread writes in rounds. Every round that is over has written the messages that were
registered by its end, in their order, the object's own message first; the round under way has
written some of the first of them. A step that ends a round adds to `rounds` the number of messages
registered at that step. -/
theorem heartbeats_in_rounds (hasSensor : Bool) (events : List Event) (s t : Heartbeat)
    (hinit : initial crc canId hasSensor = .ok s)
    (hrun : Transition.run (step crc canId) s events = some t) :
    ∃ own, aliveMsg crc canId = .ok own ∧ [own] <+: t.aliveMsgs ∧
      t.heartbeats = t.rounds.flatMap (fun n => t.aliveMsgs.take n) ++
        t.aliveMsgs.take t.thread.index ∧
      (∀ n ∈ t.rounds, 1 ≤ n ∧ n ≤ t.aliveMsgs.length) ∧ t.rounds.Pairwise (· ≤ ·) ∧
      ∀ earlier e u v, earlier ++ [e] <+: events →
        Transition.run (step crc canId) s earlier = some u → step crc canId u e = some v →
        v.rounds = u.rounds ∨ v.rounds = u.rounds ++ [v.aliveMsgs.length] := by
  obtain ⟨own, hown, hrounds⟩ := rounds_initial crc canId hinit
  have hreach : ∀ events u, Transition.run (step crc canId) s events = some u → Rounds own u := by
    intro events u hrun
    apply Transition.run_preserves _ events s u hrounds hrun
    exact fun u e v hu hstep => hu.step (move_of_step crc canId hstep)
  have hend := hreach events t hrun
  refine ⟨own, hown, hend.own, hend.written, hend.bounds, hend.sorted, ?_⟩
  intro earlier e u v _ hearlier hstep
  exact (hreach earlier u hearlier).rounds_step (move_of_step crc canId hstep)

theorem eq_ok_of_toOption {α : Type} {x : Py α} {a : α} (h : x.toOption = some a) :
    x = .ok a := by
  cases x with
  | ok b =>
    cases h
    rfl
  | error e => cases h

/-- A heartbeat of its own, one for the controller 9 as well from the second round on, and a
command in between. -/
def beating : List Event :=
  [.startHeartbeat none, .startThread] ++ List.replicate 4 .beat ++
    [.command [29], .startHeartbeat (some 9), .startThread] ++ List.replicate 4 .beat

theorem heartbeats_in_rounds_beating : ∃ s t, initial Crc16.xmodem none true = .ok s ∧
    Transition.run (step Crc16.xmodem none) s beating = some t ∧ t.rounds = [1] ∧
      t.heartbeats = t.aliveMsgs.take 1 ++ t.aliveMsgs := by
  have hview : (initial Crc16.xmodem none true).toOption.bind (fun s =>
      (Transition.run (step Crc16.xmodem none) s beating).map
        fun t => (t.rounds, t.thread.index, t.aliveMsgs.length)) = some ([1], 2, 2) := by
    decide +kernel
  obtain ⟨s, hs, hrun⟩ := Option.bind_eq_some_iff.mp hview
  obtain ⟨t, ht, hview⟩ := Option.map_eq_some_iff.mp hrun
  simp only [Prod.mk.injEq] at hview
  obtain ⟨hrounds, hindex, hlen⟩ := hview
  replace hs := eq_ok_of_toOption hs
  obtain ⟨own, _, _, hheartbeats, _⟩ :=
    heartbeats_in_rounds Crc16.xmodem none true beating s t hs ht
  refine ⟨s, t, hs, ht, hrounds, ?_⟩
  rw [hheartbeats, hrounds, hindex, List.flatMap_singleton,
    List.take_of_length_le (hlen.trans_le le_rfl)]

/-! ### The stream of frames -/

/-- The payload of a heartbeat, which names the controller that it is forwarded to. -/
def alivePayload (target : Option ℕ) : Bytes :=
  match target with
  | none => [30]
  | some n => [34, UInt8.ofNat n, 30]

theorem framable_alivePayload (target : Option ℕ) : Framable (alivePayload target) := by
  cases target <;> exact ⟨List.cons_ne_nil _ _, by simp [alivePayload]⟩

theorem canId_le_of_pack {n : ℕ} {payload : Bytes}
    (h : VESCMessage.pack ⟨Messages.alive, some n, []⟩ false true = .ok payload) : n ≤ 255 := by
  have hstring : (VESCMessage.packTable Messages.alive true).stringField = none := rfl
  simp only [VESCMessage.pack, Bool.false_eq_true, if_false, hstring] at h
  obtain ⟨fieldValues, _, h⟩ := bind_eq_ok h
  obtain ⟨formats, _, h⟩ := bind_eq_ok h
  have hpack := structPack_eq_ok h
  by_contra hn
  have hrange : ¬ IntFormat.inRange .B n := by
    simp only [IntFormat.inRange, IntFormat.bound, IntFormat.size, IntFormat.signed]
    omega
  have hnone : IntFormat.pack .B n = none := if_neg hrange
  simp [VESCMessage.canIdFmt, StructFormat.pack, Format.pack, hnone] at hpack

/-- A heartbeat that is encoded is the frame of its payload. -/
theorem aliveMsg_eq {target : Option ℕ} {msg : Bytes} (h : aliveMsg crc target = .ok msg) :
    msg = frameBytes crc (alivePayload target) := by
  have hpack : VESCMessage.pack (⟨Messages.alive, none, []⟩ : Message) false true = .ok [30] := by
    decide +kernel
  have hencode : aliveMsg crc target =
      VESCMessage.pack ⟨Messages.alive, target, []⟩ false true >>= frame crc := rfl
  rw [hencode] at h
  obtain ⟨payload, hpayload, h⟩ := bind_eq_ok h
  have heq : payload = alivePayload target := by
    cases target with
    | none =>
      cases hpack.symm.trans hpayload
      rfl
    | some n =>
      have hn : n ≤ 255 := canId_le_of_pack hpayload
      have hforward := VESCMessage.pack_forwarded ⟨Messages.alive, none, []⟩ true hn rfl hpack
      cases hforward.symm.trans hpayload
      rfl
  rw [heq] at h
  exact ((frame_ok_iff crc).mp h).2

def written (s : Heartbeat) : List Bytes := s.log.filterMap Act.written?

/-- The object writes frames only, and its own heartbeats where it writes heartbeats. -/
structure Framed (s : Heartbeat) : Prop where
  registered : ∀ msg ∈ s.aliveMsgs, ∃ target, msg = frameBytes crc (alivePayload target)
  written : ∀ a ∈ s.log, ∀ data, a.written? = some data →
    ∃ p, Framable p ∧ data = frameBytes crc p
  heartbeats : ∀ a ∈ s.log, ∀ msg, a.heartbeat? = some msg →
    ∃ target, msg = frameBytes crc (alivePayload target)

/-- Acts of the caller that write frames, if they write, and no heartbeats. -/
def Framing (acts : List Act) : Prop :=
  ∀ a ∈ acts, a.heartbeat? = none ∧ ∀ data, a.written? = some data →
    ∃ p, Framable p ∧ data = frameBytes crc p

theorem Framing.singleton_of_none {a : Act} (hbeat : a.heartbeat? = none)
    (hwritten : a.written? = none) : Framing crc [a] := by
  intro b hb
  rw [List.mem_singleton.mp hb, hwritten]
  exact ⟨hbeat, fun data hdata => by cases hdata⟩

theorem exists_framable_of_encode {msg : Message} {headerOnly : Bool} {data : Bytes}
    (h : (VESCMessage.pack msg headerOnly true >>= frame crc) = .ok data) :
    ∃ p, Framable p ∧ data = frameBytes crc p := by
  obtain ⟨payload, _, h⟩ := bind_eq_ok h
  exact ⟨payload, (frame_ok_iff crc).mp h⟩

variable {crc}

theorem Framed.append {acts : List Act} (h : Framed crc s) (hmsgs : t.aliveMsgs = s.aliveMsgs)
    (hlog : t.log = s.log ++ acts) (hacts : Framing crc acts) : Framed crc t where
  registered := by
    rw [hmsgs]
    exact h.registered
  written := by
    rw [hlog]
    intro a ha
    rcases List.mem_append.mp ha with ha | ha
    · exact h.written a ha
    · exact (hacts a ha).2
  heartbeats := by
    rw [hlog]
    intro a ha msg hmsg
    rcases List.mem_append.mp ha with ha | ha
    · exact h.heartbeats a ha msg hmsg
    · rw [(hacts a ha).1] at hmsg
      cases hmsg

theorem Framed.register (h : Framed crc s) (target : Option ℕ) :
    Framed crc (s.register crc target) := by
  rw [Heartbeat.register]
  cases hmsgs : Heartbeat.registered crc target with
  | error e => exact h
  | ok msgs =>
    refine ⟨fun msg hmsg => ?_, h.written, h.heartbeats⟩
    rcases List.mem_append.mp hmsg with hmsg | hmsg
    · exact h.registered msg hmsg
    · cases target with
      | none =>
        cases hmsgs
        cases hmsg
      | some n =>
        rw [Heartbeat.registered] at hmsgs
        cases halive : aliveMsg crc (some n) with
        | error e =>
          rw [halive] at hmsgs
          cases hmsgs
        | ok alive =>
          rw [halive] at hmsgs
          cases hmsgs
          rw [List.mem_singleton.mp hmsg]
          exact ⟨some n, aliveMsg_eq crc halive⟩

theorem Framed.afterStop (h : Framed crc s) (next : AfterStop) :
    Framed crc (s.afterStop crc canId next) := by
  obtain ⟨acts, hlog, hacts⟩ := afterStop_log crc canId s next
  apply h.append (afterStop_rest crc canId s next).1 hlog
  intro a ha
  rcases List.mem_cons.mp ha with rfl | ha
  · exact ⟨rfl, fun data hdata => by cases hdata⟩
  · rcases hacts a ha with rfl | ⟨data, hjump, rfl⟩
    · exact ⟨rfl, fun data hdata => by cases hdata⟩
    · refine ⟨rfl, fun data' hdata => ?_⟩
      cases hdata
      exact exists_framable_of_encode crc hjump

theorem Framed.command (h : Framed crc s) (payload : Bytes) :
    Framed crc (s.command crc payload) := by
  rw [Heartbeat.command]
  cases hframe : frame crc payload with
  | error e => exact h
  | ok data =>
    refine @Framed.append _ _ _ [.command data] h rfl rfl fun a ha => ?_
    rw [List.mem_singleton.mp ha]
    refine ⟨rfl, fun data' hdata => ?_⟩
    cases hdata
    exact ⟨payload, (frame_ok_iff crc).mp hframe⟩

theorem Framed.step {e : Event} (h : Framed crc s) (hmove : Move crc canId s e t) :
    Framed crc t := by
  cases hmove with
  | startHeartbeat => exact h.register _
  | startThread =>
    obtain ⟨_, heq⟩ | ⟨_, heq⟩ | ⟨_, heq⟩ := s.startThread_cases
    · rw [heq]
      exact ⟨h.registered, h.written, h.heartbeats⟩
    · rw [heq]
      exact @Framed.append _ _ _ [.refused] h rfl rfl (.singleton_of_none crc rfl rfl)
    · rw [heq]
      exact ⟨h.registered, h.written, h.heartbeats⟩
  | stopHeartbeat => exact ⟨h.registered, h.written, h.heartbeats⟩
  | leaveStop => exact h.afterStop canId _
  | command => exact h.command _
  | test => exact ⟨h.registered, h.written, h.heartbeats⟩
  | wake => exact ⟨h.registered, h.written, h.heartbeats⟩
  | turn => exact ⟨h.registered, h.written, h.heartbeats⟩
  | @send i msg _ hmsg =>
    obtain ⟨target, rfl⟩ := h.registered msg (List.mem_of_getElem? hmsg)
    refine ⟨h.registered, fun a ha => ?_, fun a ha => ?_⟩
    · rcases List.mem_append.mp ha with ha | ha
      · exact h.written a ha
      · rw [List.mem_singleton.mp ha]
        intro data hdata
        cases hdata
        exact ⟨alivePayload target, framable_alivePayload target, rfl⟩
    · rcases List.mem_append.mp ha with ha | ha
      · exact h.heartbeats a ha
      · rw [List.mem_singleton.mp ha]
        intro data hdata
        cases hdata
        exact ⟨target, rfl⟩

theorem framed_initial {hasSensor : Bool} (h : initial crc canId hasSensor = .ok s) :
    Framed crc s := by
  obtain ⟨log, hlog, h⟩ := bind_eq_ok h
  obtain ⟨own, hown, h⟩ := bind_eq_ok h
  cases h
  have hbase : Framed crc ⟨[own], false, .unstarted, .idle, true, [], []⟩ := by
    refine ⟨fun msg hmsg => ⟨canId, ?_⟩, fun a ha => absurd ha List.not_mem_nil,
      fun a ha => absurd ha List.not_mem_nil⟩
    rw [List.mem_singleton.mp hmsg]
    exact aliveMsg_eq crc hown
  refine @Framed.append _ _ _ log hbase rfl rfl ?_
  obtain rfl | ⟨data, hrotor, rfl⟩ := initialLog_cases hlog
  · exact fun a ha => absurd ha List.not_mem_nil
  · intro a ha
    rw [List.mem_singleton.mp ha]
    refine ⟨rfl, fun data' hdata => ?_⟩
    cases hdata
    exact exists_framable_of_encode crc hrotor

theorem receiver_frames {ps : List Bytes} (hps : ∀ p ∈ ps, Framable p) {chunks : List Bytes}
    (h : chunks.flatten = (ps.map (frameBytes crc)).flatten) :
    receiver crc chunks = .ok (ps, []) := by
  rw [← stream_framed] at h
  rw [receiver_eq_receive,
    Scanner.receive_packets (reads_isPacket crc) (isPacket_framed crc hps) chunks h, values_framed]

theorem exists_frames {l : List Bytes} (h : ∀ w ∈ l, ∃ p, Framable p ∧ w = frameBytes crc p) :
    ∃ ps : List Bytes, (∀ p ∈ ps, Framable p) ∧ l = ps.map (frameBytes crc) := by
  induction l with
  | nil => exact ⟨[], fun p hp => absurd hp List.not_mem_nil, rfl⟩
  | cons w l ih =>
    obtain ⟨⟨p, hp, rfl⟩, hl⟩ := List.forall_mem_cons.mp h
    obtain ⟨ps, hps, rfl⟩ := ih hl
    exact ⟨p :: ps, List.forall_mem_cons.mpr ⟨hp, hps⟩, rfl⟩

variable (crc)

/-- In whatever pieces the port passes on what the object writes, the payloads that a receiver
extracts are those of the commands and the heartbeats, in the order of the writes. -/
theorem writes_received (hasSensor : Bool) (events : List Event) (s t : Heartbeat)
    (hinit : initial crc canId hasSensor = .ok s)
    (hrun : Transition.run (step crc canId) s events = some t) :
    (∀ msg ∈ t.heartbeats, ∃ target, msg = frameBytes crc (alivePayload target)) ∧
    ∃ payloads, payloads.mapM (frame crc) = .ok t.written ∧
      ∀ chunks : List Bytes, chunks.flatten = t.written.flatten →
        receiver crc chunks = .ok (payloads, []) := by
  have hframed : Framed crc t := by
    apply Transition.run_preserves _ events s t (framed_initial canId hinit) hrun
    exact fun u e v hu hstep => hu.step canId (move_of_step crc canId hstep)
  constructor
  · intro msg hmsg
    obtain ⟨a, ha, hbeat⟩ := List.mem_filterMap.mp hmsg
    exact hframed.heartbeats a ha msg hbeat
  · have hwritten : ∀ w ∈ t.written, ∃ p, Framable p ∧ w = frameBytes crc p := by
      intro w hw
      obtain ⟨a, ha, hdata⟩ := List.mem_filterMap.mp hw
      exact hframed.written a ha w hdata
    obtain ⟨payloads, hpayloads, hmap⟩ := exists_frames hwritten
    refine ⟨payloads, ?_, fun chunks hchunks => ?_⟩
    · rw [mapM_frame crc hpayloads, hmap]
    · rw [hmap] at hchunks
      exact receiver_frames hpayloads hchunks

theorem writes_received_beating : ∃ s t payloads, initial Crc16.xmodem none true = .ok s ∧
    Transition.run (step Crc16.xmodem none) s beating = some t ∧ t.written.length = 5 ∧
      receiver Crc16.xmodem t.written = .ok (payloads, []) := by
  have hview : (initial Crc16.xmodem none true).toOption.bind (fun s =>
      (Transition.run (step Crc16.xmodem none) s beating).map fun t => t.written.length) =
        some 5 := by
    decide +kernel
  obtain ⟨s, hs, hrun⟩ := Option.bind_eq_some_iff.mp hview
  obtain ⟨t, ht, hlen⟩ := Option.map_eq_some_iff.mp hrun
  replace hs := eq_ok_of_toOption hs
  obtain ⟨_, payloads, _, hreceived⟩ := writes_received Crc16.xmodem none true beating s t hs ht
  exact ⟨s, t, payloads, hs, ht, hlen, hreceived t.written rfl⟩

end Heartbeat

end PyVesc
