import PyVesc.RequestRefinement

/-!
# Every run of the threads is a run of one caller

Each step of the threads is matched by steps of the one caller of the tunnel, mostly by none: the
call is where the slot is cleared, and what comes before and behind it is not seen. So what has been
proved of one caller holds for the threads.
-/

namespace PyVesc

/-- What an event asks of a node. -/
def TunnelNet.Event.asked : TunnelNet.Event → List (ℕ × Bytes)
  | .call c payload => [(c, payload)]
  | _ => []

namespace RequestThreads

variable {ι : Type}

/-- The calls that have cleared the slot, as the one caller would make them. -/
def requests (s : RequestThreads ι) : List (ℕ × Bytes) :=
  s.asked.map fun entry => (entry.2.controllerId, entry.2.payload)

/-- The conditions on the one caller, where the threads meet them: a request goes to one node, of
which no earlier request can still be answered and no frame is on its way when the slot is cleared;
and the checksum tells a reply from other contents of the buffer. -/
def Orderly (crc : Bytes → UInt16) (reply : ℕ → Bytes) (s : RequestThreads ι) : Event ι → Prop
  | .start _ r => r.ToNode
  | .advance k _ => ∀ r, s.phases k = .entered r →
      (∀ n, (r.controllerId, n) ∉ s.pending) ∧ s.wire r.controllerId = []
  | .deliver c _ => ∀ n, (s.current.net crc).asks = some (n, c) → 6 < (reply n).length →
      (s.wire c).length = 1 →
      crc (s.bus.commBuf.take (reply n).length) = crc (reply n) →
      s.bus.commBuf.take (reply n).length = reply n
  | _ => True

variable {crc : Bytes → UInt16} {reply : ℕ → Bytes} {s t : RequestThreads ι} {u v : TunnelNet}
variable {k : ι} {ok : Prop}

variable (crc reply) in
/-- Steps of the one caller, orderly under `ok`, that match what happens between `s` and `t`. -/
def Matched (ok : Prop) (s t : RequestThreads ι) (u : TunnelNet) : Prop :=
  ∃ events v, Transition.run (TunnelNet.step crc reply) u events = some v ∧
    (ok → Transition.Meets (TunnelNet.step crc reply) (TunnelNet.Orderly crc reply) u events) ∧
    t.requests = s.requests ++ events.flatMap TunnelNet.Event.asked ∧ Implements crc t v

theorem matched_silent (hasked : t.asked = s.asked) (h : Implements crc t u) :
    Matched crc reply ok s t u := by
  refine ⟨[], u, rfl, fun _ => trivial, ?_, h⟩
  rw [requests, hasked, List.flatMap_nil, List.append_nil]
  rfl

theorem matched_step {e : TunnelNet.Event} (hstep : TunnelNet.step crc reply u e = some v)
    (hok : ok → TunnelNet.Orderly crc reply u e) (hasked : t.requests = s.requests ++ e.asked)
    (h : Implements crc t v) : Matched crc reply ok s t u := by
  refine ⟨[e], v, ?_, fun h => Transition.meets_cons (hok h) hstep trivial, ?_, h⟩
  · rw [Transition.run, hstep]
    rfl
  · rw [hasked, List.flatMap_singleton]

/-- The one caller at the call of the thread with the lock. -/
theorem Implements.phase_eq (h : Implements crc s u) (howner : s.owner = some k)
    {phase : RequestPhase} (hphase : s.phases k = phase) :
    u.phase = phase.net crc ∧ u.pending.Perm (phase.unsent crc ++ s.pending) := by
  have hcurrent : s.current = phase := (current_of_owner howner).trans hphase
  rw [← hcurrent]
  exact ⟨h.phase, h.pending⟩

/-- The receiving thread processes a message. -/
theorem Implements.hear (h : Implements crc s u) (now : ℚ) (msg : CanMessage) :
    Implements crc (s.hear crc now msg) (u.hear crc now msg) := by
  refine ⟨?_, h.calls, h.phase, h.pending, h.answered, h.wire, h.returned⟩
  obtain ⟨set, hbus⟩ := h.bus
  obtain ⟨set', hmsg⟩ := onMessage_commEvent crc s.bus set now msg
  refine ⟨set', ?_⟩
  change onMessage crc u.bus now msg = _
  rw [hbus, hmsg]
  rfl

theorem Implements.withWire (h : Implements crc s u) (c : ℕ) (msgs : List CanMessage) :
    Implements crc (s.withWire c msgs) (u.withWire c msgs) := by
  refine ⟨h.bus, h.calls, h.phase, h.pending, h.answered, ?_, h.returned⟩
  change Function.update u.wire c msgs = Function.update s.wire c msgs
  rw [h.wire]

/-- The request is not among those that may be answered any more. -/
theorem Implements.erase (h : Implements crc s u) {p : ℕ × ℕ} (hp : p ∈ s.pending) :
    (u.pending.erase p).Perm (s.current.unsent crc ++ s.pending.erase p) := by
  have hcomm := h.pending.trans List.perm_append_comm
  have herase := hcomm.erase p
  rw [List.erase_append_left _ hp] at herase
  exact herase.trans List.perm_append_comm

variable [DecidableEq ι]

/-- The call of the thread is over, and so is that of the one caller. -/
theorem Implements.leave (h : Implements crc s u) {n : ℕ} {result : Py (Option Bytes)}
    (hbus : v.bus = u.bus) (hcalls : v.calls = u.calls) (hphase : v.phase = .idle)
    (hpending : v.pending.Perm s.pending) (hanswered : v.answered = u.answered)
    (hwire : v.wire = u.wire) (hreturned : v.returned = u.returned ++ replies [(k, n, result)]) :
    Implements crc (s.leave k n result) v := by
  refine ⟨?_, hcalls.trans h.calls, hphase, hpending, hanswered.trans h.answered,
    hwire.trans h.wire, ?_⟩
  · rw [hbus]
    exact h.bus
  · rw [hreturned, h.returned]
    exact (List.filterMap_append ..).symm

/-- The thread clears the slot: the one caller makes its call. -/
theorem Implements.clear (h : Implements crc s u) (howner : s.owner = some k) {r : CommRequest}
    (hphase : s.phases k = .entered r) :
    Implements crc { (s.setReply none).goto k (.cleared s.asked.length r) with
      asked := s.asked ++ [(k, r)] } (u.call crc r.controllerId r.payload) := by
  obtain ⟨hidle, hpending⟩ := h.phase_eq howner hphase
  obtain ⟨set, hbus⟩ := h.bus
  have hcleared : u.bus.clearReply =
      { { s.bus with commReply := none } with commEvent := false } := by
    rw [hbus]
    rfl
  have hcurrent : ((s.setReply none).goto k (.cleared s.asked.length r)).current =
      .cleared s.asked.length r := current_goto howner _
  have hcalls : u.calls + 1 = (s.asked ++ [(k, r)]).length := by
    rw [h.calls, List.length_append, List.length_singleton]
  unfold TunnelNet.call
  cases hencode : encodeCommFrames crc r.controllerId HOST_ID r.payload 0 with
  | error e =>
    obtain ⟨hnet, hunsent⟩ := RequestPhase.cleared_of_error hencode s.asked.length
    refine ⟨⟨false, hcleared⟩, hcalls, ?_, ?_, h.answered, h.wire, h.returned⟩
    · change u.phase = RequestPhase.net crc ((s.setReply none).goto k _).current
      rw [hidle, hcurrent, hnet]
      rfl
    · change u.pending.Perm
        (RequestPhase.unsent crc ((s.setReply none).goto k _).current ++ s.pending)
      rw [hcurrent, hunsent]
      exact hpending
  | ok frames =>
    obtain ⟨hnet, hunsent⟩ := RequestPhase.cleared_of_ok hencode s.asked.length
    refine ⟨⟨false, hcleared⟩, hcalls, ?_, ?_, h.answered, h.wire, h.returned⟩
    · change Phase.waiting u.calls r.controllerId =
        RequestPhase.net crc ((s.setReply none).goto k _).current
      rw [hcurrent, hnet, h.calls]
    · change ((r.controllerId, u.calls) :: u.pending).Perm
        (RequestPhase.unsent crc ((s.setReply none).goto k _).current ++ s.pending)
      rw [hcurrent, hunsent, h.calls]
      exact hpending.cons _

/-- The last frame of the request, or one before it, is sent. -/
theorem Implements.send (h : Implements crc s u) (howner : s.owner = some k) {n : ℕ}
    {r : CommRequest} {f : VescFrame} {rest : List VescFrame}
    (hphase : s.phases k = .sending n r (f :: rest)) :
    Implements crc ((s.send n r.controllerId f rest).goto k (.sending n r rest)) u := by
  obtain ⟨hnet, hpending⟩ := h.phase_eq howner hphase
  have hcurrent : ((s.send n r.controllerId f rest).goto k (.sending n r rest)).current =
      .sending n r rest := current_goto howner _
  refine ⟨h.bus, h.calls, ?_, ?_, h.answered, h.wire, h.returned⟩
  · rw [hcurrent]
    exact hnet
  · rw [hcurrent]
    cases rest with
    | nil => exact hpending
    | cons g rest => exact hpending

/-- The thread with the lock takes a step. -/
theorem Implements.advance {now : ℚ} (h : Implements crc s u) (hlocked : Locked s)
    (hforeign : Foreign s) (hmove : Advance crc s k now t)
    (hok : ok → ∀ r, s.phases k = .entered r →
      (∀ n, (r.controllerId, n) ∉ s.pending) ∧ s.wire r.controllerId = []) :
    Matched crc reply ok s t u := by
  have hown {phase : RequestPhase} (hphase : s.phases k = phase) (hin : phase.inside = true) :
      s.owner = some k := by
    rw [← (hlocked k).owner, hphase]
    exact hin
  cases hmove with
  | @acquire r hphase hfree =>
    have hcurrent : s.current = .idle := by
      rw [current, hfree]
    have hentered : ({ s.goto k (.entered r) with owner := some k } : RequestThreads ι).current =
        .entered r := phases_goto_self s k (.entered r)
    refine matched_silent rfl ⟨h.bus, h.calls, ?_, ?_, h.answered, h.wire, h.returned⟩
    · rw [hentered, h.phase, hcurrent]
      rfl
    · have hpending := h.pending
      rw [hcurrent] at hpending
      rw [hentered]
      exact hpending
  | @clear r hphase =>
    have howner := hown hphase rfl
    obtain ⟨hidle, hpending⟩ := h.phase_eq howner hphase
    obtain ⟨hhost, hone⟩ : (RequestPhase.entered r).Foreign := hphase ▸ hforeign.phases k
    have hstep : TunnelNet.step crc reply u (.call r.controllerId r.payload) =
        some (u.call crc r.controllerId r.payload) := if_pos ⟨hidle, hone⟩
    refine matched_step hstep (fun hcond => ⟨⟨hhost, ?_, ?_⟩, trivial⟩) ?_ (h.clear howner hphase)
    · intro n hmem
      exact (hok hcond r hphase).1 n (hpending.subset hmem)
    · rw [h.wire]
      exact (hok hcond r hphase).2
    · exact List.map_append
  | @encode n r frames hphase hencode =>
    obtain ⟨hnet, hunsent⟩ := RequestPhase.cleared_of_ok hencode n
    refine matched_silent rfl ((h.setEvent false).goto (hown hphase rfl) ?_ ?_)
    · rw [show (s.setEvent false).phases k = _ from hphase, hnet]
      rfl
    · rw [show (s.setEvent false).phases k = _ from hphase, hunsent]
      obtain ⟨f, rest, rfl⟩ := List.exists_cons_of_ne_nil (ne_nil_of_encode hencode)
      rfl
  | @refuse n r e hphase hencode =>
    obtain ⟨hnet, hunsent⟩ := RequestPhase.cleared_of_error hencode n
    obtain ⟨hidle, hpending⟩ := h.phase_eq (hown hphase rfl) hphase
    rw [hnet] at hidle
    rw [hunsent] at hpending
    exact matched_silent rfl ((h.setEvent false).leave rfl rfl hidle hpending rfl rfl
      (List.append_nil _).symm)
  | send hphase => exact matched_silent rfl (h.send (hown hphase rfl) hphase)
  | sent hphase | check hphase | rest hphase | wake hphase | lookNone hphase | look hphase =>
    refine matched_silent rfl (h.goto (hown hphase rfl) ?_ ?_) <;> rw [hphase] <;> rfl
  | rearm hphase =>
    refine matched_silent rfl ((h.setEvent false).goto (hown hphase rfl) ?_ ?_) <;>
      rw [show (s.setEvent false).phases k = _ from hphase] <;> rfl
  | @expire n c deadline hphase =>
    obtain ⟨hnet, hpending⟩ := h.phase_eq (hown hphase rfl) hphase
    have hstep : TunnelNet.step crc reply u .timeout = some { u with phase := .idle } := by
      rw [TunnelNet.step, hnet]
      rfl
    refine matched_step hstep (fun _ => ⟨trivial, trivial⟩) (List.append_nil _).symm ?_
    exact h.leave rfl rfl rfl hpending rfl rfl (List.append_nil _).symm
  | unpackNone hphase hslot => exact absurd hslot ((hlocked k).slot _ _ _ hphase)
  | @take n c deadline bytes hphase hslot =>
    obtain ⟨hnet, hpending⟩ := h.phase_eq (hown hphase rfl) hphase
    have hfound : u.bus.commReply = some (c, bytes) := by
      obtain ⟨set, hbus⟩ := h.bus
      rw [hbus]
      exact hslot
    have hstep : TunnelNet.step crc reply u .inspect =
        some { u with phase := .idle, returned := u.returned ++ [(n, bytes)] } := by
      rw [TunnelNet.step, hnet]
      dsimp only [RequestPhase.net]
      rw [TunnelNet.inspect, hfound]
      dsimp only
      rw [if_pos rfl]
    refine matched_step hstep (fun _ => ⟨trivial, trivial⟩) (List.append_nil _).symm ?_
    exact h.leave rfl rfl rfl hpending rfl rfl rfl
  | @reject n c deadline sender bytes hphase hslot hsender =>
    obtain ⟨hnet, hpending⟩ := h.phase_eq (hown hphase rfl) hphase
    have hfound : u.bus.commReply = some (sender, bytes) := by
      obtain ⟨set, hbus⟩ := h.bus
      rw [hbus]
      exact hslot
    have hstep : TunnelNet.step crc reply u .inspect =
        some { u with phase := .discarding n c } := by
      rw [TunnelNet.step, hnet]
      dsimp only [RequestPhase.net]
      rw [TunnelNet.inspect, hfound]
      dsimp only
      rw [if_neg hsender]
    refine matched_step hstep (fun _ => ⟨trivial, trivial⟩) (List.append_nil _).symm ?_
    refine ⟨h.bus, h.calls, ?_, ?_, h.answered, h.wire, h.returned⟩
    · rw [current_goto (hown hphase rfl)]
      rfl
    · rw [current_goto (hown hphase rfl)]
      exact hpending
  | @drop n c deadline hphase =>
    obtain ⟨hnet, hpending⟩ := h.phase_eq (hown hphase rfl) hphase
    have hstep : TunnelNet.step crc reply u .discard =
        some { u with bus := u.bus.clearReply, phase := .waiting n c } := by
      rw [TunnelNet.step, hnet]
      rfl
    have hcurrent : ((s.setReply none).goto k (.rearming n c deadline)).current =
        .rearming n c deadline := current_goto (hown hphase rfl) _
    refine matched_step hstep (fun _ => ⟨trivial, trivial⟩) (List.append_nil _).symm ?_
    refine ⟨⟨false, ?_⟩, h.calls, ?_, ?_, h.answered, h.wire, h.returned⟩
    · obtain ⟨set, hbus⟩ := h.bus
      change u.bus.clearReply = _
      rw [hbus]
      rfl
    · rw [hcurrent]
      rfl
    · rw [hcurrent]
      exact hpending

/-- A frame cannot be sent: the one caller gives up, and the node never has the request. -/
theorem Implements.fails (h : Implements crc s u) (howner : s.owner = some k) {n : ℕ}
    {r : CommRequest} {f : VescFrame} {rest : List VescFrame}
    (hphase : s.phases k = .sending n r (f :: rest)) {result : Py (Option Bytes)}
    (hresult : replies [(k, n, result)] = []) :
    Matched crc reply ok s (s.leave k n result) u := by
  obtain ⟨hnet, hpending⟩ := h.phase_eq howner hphase
  have htimeout : TunnelNet.step crc reply u .timeout = some { u with phase := .idle } := by
    rw [TunnelNet.step, hnet]
    rfl
  refine ⟨[.timeout, .lose r.controllerId n], _, ?_, fun _ => ?_, (List.append_nil _).symm,
    @Implements.leave ι crc s u { u with
      phase := .idle
      pending := u.pending.erase (r.controllerId, n) } k _ h n result rfl rfl rfl ?_ rfl rfl ?_⟩
  · rw [Transition.run, htimeout]
    rfl
  · exact Transition.meets_cons ⟨trivial, trivial⟩ htimeout
      (Transition.meets_cons ⟨trivial, trivial⟩ rfl trivial)
  · have herase := hpending.erase (r.controllerId, n)
    rw [RequestPhase.unsent, List.singleton_append, List.erase_cons_head] at herase
    exact herase
  · rw [hresult]
    exact (List.append_nil _).symm

theorem Implements.step {e : Event ι} (h : Implements crc s u) (hlocked : Locked s)
    (hforeign : Foreign s) (hmove : Move crc reply s e t) (hok : ok → Orderly crc reply s e) :
    Matched crc reply ok s t u := by
  have hown {k : ι} {n : ℕ} {r : CommRequest} {frames : List VescFrame}
      (hphase : s.phases k = .sending n r frames) : s.owner = some k := by
    rw [← (hlocked k).owner, hphase]
    rfl
  cases hmove with
  | @start k r hphase =>
    have hcurrent := current_goto_of_outside hlocked (by rw [hphase]; rfl) (.acquiring r)
    refine matched_silent rfl ⟨h.bus, h.calls, ?_, ?_, h.answered, h.wire, h.returned⟩
    · rw [hcurrent]
      exact h.phase
    · rw [hcurrent]
      exact h.pending
  | @advance k now _ hadvance =>
    exact (h.atTime now).advance (hlocked.others rfl rfl id) ⟨hforeign.phases, hforeign.echo⟩
      hadvance hok
  | @sendFails k now n r f rest hphase => exact (h.atTime now).fails (hown hphase) hphase rfl
  | @sendRaises k now e n r f rest hphase => exact (h.atTime now).fails (hown hphase) hphase rfl
  | @answer c n frames hpending hencode =>
    have hmem : (c, n) ∈ u.pending := h.pending.symm.subset (List.mem_append_right _ hpending)
    have hstep : TunnelNet.step crc reply u (.answer c n) =
        some { u.withWire c (u.wire c ++ frames.map VescFrame.message) with
          pending := u.pending.erase (c, n)
          answered := n :: u.answered } := by
      rw [TunnelNet.step, if_pos hmem, hencode]
    have hwire := h.withWire c (u.wire c ++ frames.map VescFrame.message)
    refine matched_step hstep (fun _ => ⟨trivial, trivial⟩) (List.append_nil _).symm
      ⟨h.bus, h.calls, h.phase, h.erase hpending, ?_, ?_, h.returned⟩
    · exact congrArg (n :: ·) h.answered
    · refine hwire.wire.trans ?_
      rw [h.wire]
  | @lose c n =>
    by_cases hpending : (c, n) ∈ s.pending
    · have hstep : TunnelNet.step crc reply u (.lose c n) =
          some { u with pending := u.pending.erase (c, n) } := rfl
      exact matched_step hstep (fun _ => ⟨trivial, trivial⟩) (List.append_nil _).symm
        ⟨h.bus, h.calls, h.phase, h.erase hpending, h.answered, h.wire, h.returned⟩
    · rw [List.erase_of_not_mem hpending]
      exact matched_silent rfl h
  | @deliver c now msg rest hwire =>
    have hstep : TunnelNet.step crc reply u (.deliver c now) =
        some ((u.withWire c rest).hear crc now msg) := by
      rw [TunnelNet.step, h.wire, hwire]
    refine matched_step hstep (fun hcond => ⟨trivial, ?_⟩) (List.append_nil _).symm
      ((h.withWire c rest).hear now msg)
    obtain ⟨set, hbus⟩ := h.bus
    intro n hasks hlong hlast
    rw [h.phase] at hasks
    rw [h.wire] at hlast
    rw [hbus]
    exact hok hcond n hasks hlong hlast
  | @receiveOwn now msg rest hecho =>
    have hmsg : tunnelForHost msg = false := by
      apply hforeign.echo
      rw [hecho]
      exact List.mem_cons_self
    have hrest : Implements crc { s with echo := rest } u :=
      ⟨h.bus, h.calls, h.phase, h.pending, h.answered, h.wire, h.returned⟩
    have hstep : TunnelNet.step crc reply u (.receiveOther now msg) = some (u.hear crc now msg) :=
      if_neg (Bool.eq_false_iff.mp hmsg)
    exact matched_step hstep (fun _ => ⟨trivial, trivial⟩) (List.append_nil _).symm
      (hrest.hear now msg)
  | @receiveOther now msg hmsg =>
    have hstep : TunnelNet.step crc reply u (.receiveOther now msg) = some (u.hear crc now msg) :=
      if_neg (Bool.eq_false_iff.mp hmsg)
    exact matched_step hstep (fun _ => ⟨trivial, trivial⟩) (List.append_nil _).symm (h.hear now msg)
  | signal =>
    exact matched_silent rfl
      ⟨h.bus, h.calls, h.phase, h.pending, h.answered, h.wire, h.returned⟩

end RequestThreads

/-! ### Whose call it is -/

/-- The number and the node of the call that the thread is in. -/
def RequestPhase.call : RequestPhase → Option (ℕ × ℕ)
  | .idle | .acquiring _ | .entered _ => none
  | .cleared n r | .sending n r _ => some (n, r.controllerId)
  | .checking n c _ | .resting n c _ _ | .waiting n c _ _ | .looking n c _ | .unpacking n c _
  | .dropping n c _ | .rearming n c _ => some (n, c)

namespace RequestThreads

variable {ι : Type} [DecidableEq ι] {crc : Bytes → UInt16} {reply : ℕ → Bytes}
variable {s t : RequestThreads ι} {k : ι}

/-- The call that a thread is in, or has come to a result of, is its own. -/
structure Owned (s : RequestThreads ι) : Prop where
  phases : ∀ k n c, (s.phases k).call = some (n, c) →
    ∃ r, s.asked[n]? = some (k, r) ∧ r.controllerId = c
  results : ∀ entry ∈ s.results, ∃ r, s.asked[entry.2.1]? = some (entry.1, r)

theorem Owned.goto (h : Owned s) {phase : RequestPhase}
    (hphases : t.phases = Function.update s.phases k phase) (hasked : t.asked = s.asked)
    (hresults : t.results = s.results)
    (hcall : phase.call = none ∨ phase.call = (s.phases k).call) : Owned t := by
  constructor
  · rw [hphases, hasked]
    refine (Function.forall_update_iff s.phases fun j p => ∀ n c, p.call = some (n, c) →
      ∃ r, s.asked[n]? = some (j, r) ∧ r.controllerId = c).mpr ⟨fun n c hp => ?_, fun j _ => ?_⟩
    · obtain hnone | hsame := hcall
      · rw [hnone] at hp
        cases hp
      · rw [hsame] at hp
        exact h.phases k n c hp
    · exact h.phases j
  · rw [hresults, hasked]
    exact h.results

/-- The thread comes to a result of its call. -/
theorem Owned.leave (h : Owned s) {n c : ℕ} (hcall : (s.phases k).call = some (n, c))
    (hphases : t.phases = Function.update s.phases k .idle) (hasked : t.asked = s.asked)
    {result : Py (Option Bytes)} (hresults : t.results = s.results ++ [(k, n, result)]) :
    Owned t := by
  have hgoto : Owned { s with phases := Function.update s.phases k .idle } :=
    h.goto rfl rfl rfl (Or.inl rfl)
  constructor
  · rw [hphases, hasked]
    exact hgoto.phases
  · intro entry hentry
    rw [hresults] at hentry
    rw [hasked]
    obtain hold | hnew := List.mem_append.mp hentry
    · exact h.results entry hold
    · obtain ⟨r, hr, _⟩ := h.phases k n c hcall
      rw [List.mem_singleton.mp hnew]
      exact ⟨r, hr⟩

theorem Owned.clear (h : Owned s) (r : CommRequest) :
    Owned { (s.setReply none).goto k (.cleared s.asked.length r) with
      asked := s.asked ++ [(k, r)] } := by
  have hmore {n : ℕ} {j : ι} {q : CommRequest} (hn : s.asked[n]? = some (j, q)) :
      (s.asked ++ [(k, r)])[n]? = some (j, q) := by
    rw [List.getElem?_append_left (List.getElem?_eq_some_iff.mp hn).1]
    exact hn
  constructor
  · refine (Function.forall_update_iff s.phases fun j p => ∀ n c, p.call = some (n, c) →
      ∃ q, (s.asked ++ [(k, r)])[n]? = some (j, q) ∧ q.controllerId = c).mpr
      ⟨fun n c hp => ?_, fun j _ n c hp => ?_⟩
    · cases hp
      exact ⟨r, List.getElem?_concat_length, rfl⟩
    · obtain ⟨q, hq, hnode⟩ := h.phases j n c hp
      exact ⟨q, hmore hq, hnode⟩
  · intro entry hentry
    obtain ⟨q, hq⟩ := h.results entry hentry
    exact ⟨q, hmore hq⟩

theorem Owned.advance {now : ℚ} (h : Owned s) (hmove : Advance crc s k now t) : Owned t := by
  cases hmove with
  | acquire => exact h.goto rfl rfl rfl (Or.inl rfl)
  | clear => exact h.clear _
  | encode hp | send hp | sent hp | check hp | rest hp | wake hp | lookNone hp | look hp
  | reject hp | drop hp | rearm hp =>
    have hcall := congrArg RequestPhase.call hp
    exact h.goto rfl rfl rfl (Or.inr hcall.symm)
  | refuse hp | expire hp | unpackNone hp | take hp =>
    exact h.leave (congrArg RequestPhase.call hp) rfl rfl rfl

theorem Owned.step {e : Event ι} (h : Owned s) (hmove : Move crc reply s e t) : Owned t := by
  have hsame {v : RequestThreads ι} (hphases : v.phases = s.phases) (hasked : v.asked = s.asked)
      (hresults : v.results = s.results) : Owned v := by
    constructor
    · rw [hphases, hasked]
      exact h.phases
    · rw [hresults, hasked]
      exact h.results
  cases hmove with
  | start => exact h.goto rfl rfl rfl (Or.inl rfl)
  | @advance _ now _ hadvance =>
    have htime : Owned (s.atTime now) := hsame rfl rfl rfl
    exact htime.advance hadvance
  | sendFails hp | sendRaises hp => exact h.leave (congrArg RequestPhase.call hp) rfl rfl rfl
  | answer | lose | deliver | receiveOwn | receiveOther | signal => exact hsame rfl rfl rfl

/-! ### Runs -/

/-- The threads and the one caller beside each other. -/
structure Beside (crc : Bytes → UInt16) (s : RequestThreads ι) (u : TunnelNet) : Prop where
  locked : Locked s
  foreign : Foreign s
  implements : Implements crc s u

omit [DecidableEq ι] in
theorem beside_initial : Beside crc (initial : RequestThreads ι) TunnelNet.initial :=
  ⟨locked_initial, foreign_initial, implements_initial crc⟩

variable (crc reply) in
/-- A run of the threads under `cond`, and a run of the one caller under `cond'`. -/
theorem run_beside {cond : RequestThreads ι → Event ι → Prop}
    {cond' : TunnelNet → TunnelNet.Event → Prop} (hnode : ∀ s e, cond s e → e.ToNode)
    (hcond : ∀ s e calls u, cond s e →
      (Orderly crc reply s e →
        Transition.Meets (TunnelNet.step crc reply) (TunnelNet.Orderly crc reply) u calls) →
      Transition.Meets (TunnelNet.step crc reply) cond' u calls)
    (events : List (Event ι)) (hmeets : Transition.Meets (step crc reply) cond initial events)
    (hrun : Transition.run (step crc reply) initial events = some t) :
    ∃ calls u, Transition.run (TunnelNet.step crc reply) .initial calls = some u ∧
      Transition.Meets (TunnelNet.step crc reply) cond' .initial calls ∧
      t.requests = calls.flatMap TunnelNet.Event.asked ∧ Beside crc t u := by
  apply @Transition.run_simulated _ _ (step crc reply) _ _ _ (TunnelNet.step crc reply) cond cond'
    (Beside crc) requests TunnelNet.Event.asked _ events initial t .initial beside_initial hmeets
    hrun
  intro s e t u h he hstep
  have hmove := move_of_step hstep
  obtain ⟨calls, v, hcalls, horderly, hasked, himplements⟩ :=
    h.implements.step h.locked h.foreign hmove id
  exact ⟨calls, v, hcalls, hcond s e calls u he horderly, hasked, h.locked.step hstep,
    h.foreign.step hmove (hnode s e he), himplements⟩

/-- Whatever threads do, one caller that makes their calls in the order in which they clear the slot
can come to the same replies. -/
theorem refines_one_caller (crc : Bytes → UInt16) (reply : ℕ → Bytes) (events : List (Event ι))
    (hnode : ∀ e ∈ events, e.ToNode) (t : RequestThreads ι)
    (hrun : Transition.run (step crc reply) initial events = some t) :
    ∃ calls u, Transition.run (TunnelNet.step crc reply) .initial calls = some u ∧
      calls.flatMap TunnelNet.Event.asked = t.requests ∧ u.returned = replies t.results ∧
      u.answered = t.answered ∧ u.wire = t.wire := by
  have hmeets : Transition.Meets (step crc reply) (fun _ e => e.ToNode) initial events :=
    Transition.meets_of_forall (fun e he _ => hnode e he) initial
  obtain ⟨calls, u, hcalls, _, hasked, hbeside⟩ := run_beside crc reply (fun _ _ => id)
    (fun _ _ calls u _ _ => Transition.meets_true calls u) events hmeets hrun
  have himplements := hbeside.implements
  exact ⟨calls, u, hcalls, hasked.symm, himplements.returned, himplements.answered,
    himplements.wire⟩

/-- A thread whose call returns bytes returns what the node it asked answered to that very call. -/
theorem threads_return_own_replies (crc : Bytes → UInt16) (reply : ℕ → Bytes)
    (events : List (Event ι)) (t : RequestThreads ι)
    (hmeets : Transition.Meets (step crc reply) (Orderly crc reply) initial events)
    (hrun : Transition.run (step crc reply) initial events = some t) (k : ι) (n : ℕ) (bytes : Bytes)
    (hreturned : (k, n, .ok (some bytes)) ∈ t.results) :
    (∃ r, t.asked[n]? = some (k, r)) ∧ n ∈ t.answered ∧ bytes = reply n := by
  have howned : Owned t := by
    apply Transition.run_preserves _ events initial t ⟨nofun, nofun⟩ hrun
    exact fun s e u hs hstep => hs.step (move_of_step hstep)
  have hnode (s : RequestThreads ι) (e : Event ι) (he : Orderly crc reply s e) : e.ToNode := by
    cases e with
    | start => exact he
    | _ => trivial
  obtain ⟨calls, u, hcalls, hordered, _, hbeside⟩ := run_beside crc reply hnode
    (fun _ _ _ _ he h => h he) events hmeets hrun
  have hinv : TunnelNet.Inv crc reply u := Transition.run_invariant TunnelNet.inv_step calls
    .initial u (TunnelNet.inv_initial crc reply) hordered hcalls
  have hmem : (n, bytes) ∈ u.returned := by
    rw [hbeside.implements.returned]
    exact List.mem_filterMap.mpr ⟨_, hreturned, rfl⟩
  rw [← hbeside.implements.answered]
  exact ⟨howned.results _ hreturned, hinv.returned (n, bytes) hmem⟩

/-- The conditions as a test, for replies in one frame. -/
def orderlyTest (s : RequestThreads ι) : Event ι → Bool
  | .advance k _ =>
    match s.phases k with
    | .entered r =>
      s.pending.all (fun p => decide (p.1 ≠ r.controllerId)) && (s.wire r.controllerId).isEmpty
    | _ => true
  | e => decide e.ToNode

omit [DecidableEq ι] in
theorem orderly_of_test (hshort : ∀ n, (reply n).length ≤ 6) (s : RequestThreads ι) (e : Event ι)
    (h : orderlyTest s e = true) : Orderly crc reply s e := by
  cases e with
  | start k r =>
    have hnode : (Event.start k r).ToNode := of_decide_eq_true h
    exact hnode
  | advance k now =>
    intro r hphase
    rw [orderlyTest, hphase] at h
    obtain ⟨hpending, hwire⟩ := Bool.and_eq_true_iff.mp h
    refine ⟨fun n hmem => ?_, List.isEmpty_iff.mp hwire⟩
    exact of_decide_eq_true (List.all_eq_true.mp hpending _ hmem) rfl
  | deliver c now => exact fun n _ hlong => absurd hlong (not_lt.mpr (hshort n))
  | _ => trivial

/-- A thread gives up on node 12. Then two threads ask two nodes: the second one finds the lock
taken, and the first one finds the late reply of node 12 in the slot. -/
def twoThreads : List (Event Bool) :=
  List.flatten [[.start true ⟨12, [0], 0⟩], List.replicate 6 (.advance true 0),
    [.start true ⟨10, [0], 1⟩, .start false ⟨11, [0], 1⟩], List.replicate 7 (.advance true 0),
    [.answer 12 0, .deliver 12 (1 / 4), .signal], List.replicate 5 (.advance true (1 / 4)),
    [.answer 10 1, .deliver 10 (1 / 2), .signal], List.replicate 5 (.advance true (1 / 2)),
    List.replicate 7 (.advance false (1 / 2)), [.answer 11 2, .deliver 11 1, .signal],
    List.replicate 3 (.advance false 1)]

theorem refines_one_caller_two : ∃ (t : RequestThreads Bool) (calls : List TunnelNet.Event)
    (u : TunnelNet),
    Transition.run (step Crc16.xmodem TunnelNet.versionReply) initial twoThreads = some t ∧
    Transition.run (TunnelNet.step Crc16.xmodem TunnelNet.versionReply) .initial calls = some u ∧
    calls.flatMap TunnelNet.Event.asked = [(12, [0]), (10, [0]), (11, [0])] ∧
    u.returned = [(1, [0, 5, 1]), (2, [0, 5, 2])] := by
  have hview : (Transition.run (step Crc16.xmodem TunnelNet.versionReply) initial twoThreads).map
      (fun t => (t.requests, replies t.results)) =
      some ([(12, [0]), (10, [0]), (11, [0])], [(1, [0, 5, 1]), (2, [0, 5, 2])]) := by
    decide +kernel
  have hnode : ∀ e ∈ twoThreads, e.ToNode := by
    decide
  obtain ⟨t, ht, hreplies⟩ := Option.map_eq_some_iff.mp hview
  obtain ⟨hrequests, hresults⟩ := Prod.mk.inj hreplies
  obtain ⟨calls, u, hcalls, hasked, hreturned, _⟩ := refines_one_caller Crc16.xmodem
    TunnelNet.versionReply twoThreads hnode t ht
  exact ⟨t, calls, u, ht, hcalls, hasked.trans hrequests, hreturned.trans hresults⟩

theorem threads_return_own_replies_two : ∃ t : RequestThreads Bool,
    Transition.run (step Crc16.xmodem TunnelNet.versionReply) initial twoThreads = some t ∧
    (∃ r, t.asked[1]? = some (true, r)) ∧ 1 ∈ t.answered ∧
      [0, 5, 1] = TunnelNet.versionReply 1 := by
  have hview : (Transition.run (fun s e => if orderlyTest s e then
      step Crc16.xmodem TunnelNet.versionReply s e else none) initial twoThreads).bind
      (fun t => t.results[1]?) = some (true, 1, .ok (some [0, 5, 1])) := by
    decide +kernel
  obtain ⟨t, hguarded, hresult⟩ := Option.bind_eq_some_iff.mp hview
  have hshort : ∀ n, (TunnelNet.versionReply n).length ≤ 6 := fun n => Nat.le_of_ble_eq_true rfl
  obtain ⟨hmeets, hrun⟩ := Transition.meets_of_guarded (orderly_of_test hshort) twoThreads initial t
    hguarded
  have hmem : (true, 1, .ok (some [0, 5, 1])) ∈ t.results := List.mem_of_getElem? hresult
  exact ⟨t, hrun, threads_return_own_replies Crc16.xmodem TunnelNet.versionReply twoThreads t hmeets
    hrun true 1 [0, 5, 1] hmem⟩

end RequestThreads

end PyVesc
