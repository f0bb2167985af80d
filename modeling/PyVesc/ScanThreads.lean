import PyVesc.NodeScan

/-!
# Scans in several threads

`ping` and `scan` take no lock for their whole length, so that several threads may be at it at once.
They share the table of pongs, the event and the clock; each has its own ids, result and place in
the code. A thread may clear the event that another one is waiting for.
-/

namespace PyVesc

/-- What a scan has for itself. -/
structure ScanThread where
  ids : List ℤ
  found : Dict ℤ ℕ
  phase : ScanPhase
  deriving DecidableEq

structure ScanThreads (ι : Type) where
  bus : BusState
  clock : ℚ
  signalling : Bool
  threads : ι → ScanThread

namespace ScanThreads

variable {ι : Type}

def initial (bus : BusState) (start : ℚ) (ids : ι → List ℤ) : ScanThreads ι :=
  ⟨bus, start, false, fun k => ⟨ids k, [], .idle⟩⟩

/-- The bus as the thread `k` sees it. -/
def view (s : ScanThreads ι) (k : ι) : NodeScan :=
  ⟨s.bus, s.clock, s.signalling, (s.threads k).ids, (s.threads k).found, (s.threads k).phase⟩

inductive Event (ι : Type) where
  | receive (now : ℚ) (msg : CanMessage)
  | signal
  /-- The thread `k` takes one of the steps of a caller. -/
  | thread (k : ι) (e : NodeScan.Event)

end ScanThreads

/-- The steps of a caller, not of the receiving thread. -/
def NodeScan.Event.ofCaller : NodeScan.Event → Bool
  | .advance _ | .sendFails _ | .sendRaises _ _ => true
  | .receive _ _ | .signal => false

namespace ScanThreads

variable {ι : Type} [DecidableEq ι] (crc : Bytes → UInt16) (timeout : ι → ℚ)

/-- The thread `k` has come to `v`. -/
def set (s : ScanThreads ι) (k : ι) (v : NodeScan) : ScanThreads ι :=
  ⟨v.bus, v.clock, v.signalling, Function.update s.threads k ⟨v.ids, v.found, v.phase⟩⟩

def step (s : ScanThreads ι) : Event ι → Option (ScanThreads ι)
  | .receive now msg =>
    if s.clock ≤ now ∧ s.signalling = false then
      some { s with
        bus := { onMessage crc s.bus now msg with pongEvent := s.bus.pongEvent }
        clock := now
        signalling := (pongForHost msg).isSome }
    else none
  | .signal =>
    if s.signalling = true then
      some { s with bus := { s.bus with pongEvent := true }, signalling := false }
    else none
  | .thread k e =>
    if e.ofCaller then (NodeScan.step crc (timeout k) (s.view k) e).map (s.set k) else none

/-- What the thread `k` has to do with an event. -/
def Event.seenBy (k : ι) : Event ι → Option NodeScan.Event
  | .receive now msg => some (.receive now msg)
  | .signal => some .signal
  | .thread j e => if j = k then some e else none

variable {crc timeout} {s t : ScanThreads ι}

theorem view_set_self (k : ι) (v : NodeScan) : (s.set k v).view k = v := by
  have hthread : (s.set k v).threads k = ⟨v.ids, v.found, v.phase⟩ := Function.update_self _ _ _
  rw [view, hthread]
  rfl

theorem view_set_of_ne {j k : ι} (h : j ≠ k) (v : NodeScan) :
    (s.set j v).view k =
      { s.view k with bus := v.bus, clock := v.clock, signalling := v.signalling } := by
  have hthread : (s.set j v).threads k = s.threads k := Function.update_of_ne h.symm _ _
  rw [view, hthread]
  rfl

/-- An event is a step of the scan of `k`, or one of another thread that changes what they share. -/
theorem view_of_step {e : Event ι} (h : step crc timeout s e = some t) (k : ι) :
    (∃ e', e.seenBy k = some e' ∧
      NodeScan.step crc (timeout k) (s.view k) e' = some (t.view k)) ∨
    ∃ j e' v, j ≠ k ∧ e.seenBy k = none ∧ NodeScan.Event.ofCaller e' = true ∧
      NodeScan.step crc (timeout j) (s.view j) e' = some v ∧
      t.view k = { s.view k with bus := v.bus, clock := v.clock, signalling := v.signalling } := by
  cases e with
  | receive now msg =>
    obtain ⟨hready, ht⟩ := Option.ite_none_right_eq_some.mp h
    cases ht
    exact Or.inl ⟨_, rfl, if_pos hready⟩
  | signal =>
    obtain ⟨hready, ht⟩ := Option.ite_none_right_eq_some.mp h
    cases ht
    exact Or.inl ⟨_, rfl, if_pos hready⟩
  | thread j e' =>
    obtain ⟨hcaller, ht⟩ := Option.ite_none_right_eq_some.mp h
    obtain ⟨v, hv, rfl⟩ := Option.map_eq_some_iff.mp ht
    by_cases hjk : j = k
    · subst hjk
      refine Or.inl ⟨e', if_pos rfl, ?_⟩
      rw [view_set_self]
      exact hv
    · exact Or.inr ⟨j, e', v, hjk, if_neg hjk, hcaller, hv, view_set_of_ne hjk v⟩

/-! ### What the threads do to the table -/

end ScanThreads

namespace NodeScan

variable {crc : Bytes → UInt16} {timeout : ℚ} {s t : NodeScan}

theorem hwTypeOf_popPong_of_ne (bus : BusState) {c c' : ℤ} (h : c' ≠ c) :
    (bus.popPong c).hwTypeOf c' = bus.hwTypeOf c' := by
  cases c with
  | negSucc n => rfl
  | ofNat n =>
    cases c' with
    | negSucc n' => rfl
    | ofNat n' =>
      apply (Dict.lookup_pop bus.pongs n n').trans
      exact if_neg fun heq => h (congrArg Int.ofNat heq)

theorem bus_of_advance {now : ℚ} (h : advance timeout s now = some t) :
    (∀ c, t.bus.hwTypeOf c = s.bus.hwTypeOf c) ∨
      ∃ c ids, s.ids = c :: ids ∧ t.bus = s.bus.popPong c := by
  obtain ⟨bus, clock, signalling, ids, found, phase⟩ := s
  cases phase with
  | idle =>
    cases ids with
    | nil =>
      cases h
      exact Or.inl fun _ => rfl
    | cons c ids =>
      cases h
      exact Or.inr ⟨c, ids, rfl, rfl⟩
  | popped c =>
    cases h
    exact Or.inl fun _ => rfl
  | sending c deadline =>
    rw [advance] at h
    dsimp only at h
    split at h <;> cases h <;> exact Or.inl fun _ => rfl
  | checking c deadline =>
    rw [advance] at h
    dsimp only at h
    split_ifs at h <;> cases h <;> exact Or.inl fun _ => rfl
  | clearing c deadline remaining =>
    cases h
    exact Or.inl (hwTypeOf_pongEvent bus false)
  | looking c deadline remaining =>
    rw [advance] at h
    dsimp only at h
    split at h <;> cases h <;> exact Or.inl fun _ => rfl
  | waiting c deadline ending =>
    rw [advance] at h
    dsimp only at h
    split_ifs at h
    cases h
    exact Or.inl fun _ => rfl
  | woken c deadline =>
    rw [advance] at h
    dsimp only at h
    split at h <;> cases h <;> exact Or.inl fun _ => rfl
  | sleeping c ending =>
    rw [advance] at h
    dsimp only at h
    split_ifs at h
    cases h
    exact Or.inl fun _ => rfl
  | returned => cases h
  | raised e => cases h

theorem bus_of_sendFails {now : ℚ} (h : sendFails timeout s now = some t) : t.bus = s.bus := by
  rw [sendFails] at h
  split at h
  · split at h
    · split_ifs at h <;> cases h <;> rfl
    · cases h
  · cases h

/-- A caller takes away the entry of an id that it begins to ping, and no other. -/
theorem hwTypeOf_of_caller {e : Event} (hcaller : e.ofCaller = true)
    (h : step crc timeout s e = some t) {c : ℤ} (hc : c ∉ s.ids) :
    t.bus.hwTypeOf c = s.bus.hwTypeOf c := by
  cases e with
  | receive | signal => cases hcaller
  | advance now =>
    obtain ⟨_, ht⟩ := Option.ite_none_right_eq_some.mp h
    obtain hsame | ⟨c', ids, hids, hpop⟩ := bus_of_advance ht
    · exact hsame c
    · have hne : c ≠ c' := by
        rintro rfl
        apply hc
        change s.ids = c :: ids at hids
        rw [hids]
        exact List.mem_cons_self
      rw [hpop]
      exact hwTypeOf_popPong_of_ne s.bus hne
  | sendFails now =>
    obtain ⟨_, ht⟩ := Option.ite_none_right_eq_some.mp h
    rw [bus_of_sendFails ht]
  | sendRaises now e =>
    rw [step] at h
    split at h
    · obtain ⟨_, ht⟩ := Option.ite_none_right_eq_some.mp h
      cases ht
      rfl
    · cases h

/-- The running pings of a scan are not touched by what else happens to the table. -/
theorem Inv.interfere {ids : List ℤ} {pings : List Ping} (h : Inv ids (s, pings))
    (hids : t.ids = s.ids) (hfound : t.found = s.found) (hphase : t.phase = s.phase)
    (hbus : ∀ c, s.phase.pinging = some c → t.bus.hwTypeOf c = s.bus.hwTypeOf c) :
    Inv ids (t, pings) := by
  constructor
  · exact hids ▸ h.order
  · exact hfound ▸ h.sound
  · exact hfound ▸ h.complete
  · intro c hc
    change t.phase.pinging = some c at hc
    rw [hphase] at hc
    obtain ⟨p, rest, hpings, hp⟩ := h.current c hc
    refine ⟨p, rest, hpings, hp.id, ?_, ?_, hp.unseen⟩
    · rw [hbus c hc]
      exact hp.heard
    · rw [hbus c hc]
      exact hp.stored

/-- What a scan is pinging is one of its ids, and not to be pinged again. -/
theorem Inv.mem_of_pinging {ids : List ℤ} {pings : List Ping} (h : Inv ids (s, pings)) {c : ℤ}
    (hc : s.phase.pinging = some c) : c ∈ ids := by
  obtain ⟨p, rest, hpings, hp⟩ := h.current c hc
  dsimp only at hpings
  rw [h.order, hpings, List.map_cons, List.reverse_cons, hp.id]
  exact List.mem_append_left _ (List.mem_append_right _ List.mem_cons_self)

theorem Inv.ids_subset {ids : List ℤ} {pings : List Ping} (h : Inv ids (s, pings)) :
    s.ids ⊆ ids := by
  rw [h.order]
  exact List.subset_append_right _ _

end NodeScan

/-! ### Runs -/

namespace ScanThreads

open NodeScan (Ping Heard Inv)

variable {ι : Type} [DecidableEq ι]

/-- The pings of every thread after a step. -/
def note (s : ScanThreads ι) (e : Event ι) (t : ScanThreads ι) (pings : ι → List Ping) :
    ι → List Ping := fun k =>
  match e.seenBy k with
  | some e' => NodeScan.note (s.view k) e' (t.view k) (pings k)
  | none => pings k

/-- The system with the pings of its threads noted beside it. -/
def observed (crc : Bytes → UInt16) (timeout : ι → ℚ) (o : ScanThreads ι × (ι → List Ping))
    (e : Event ι) : Option (ScanThreads ι × (ι → List Ping)) :=
  (step crc timeout o.1 e).map fun t => (t, note o.1 e t o.2)

/-- Each thread is as a scan without the others. -/
structure Separate (ids : ι → List ℤ) (o : ScanThreads ι × (ι → List Ping)) : Prop where
  inv : ∀ k, Inv (ids k) (o.1.view k, o.2 k)
  returned : ∀ k, (o.1.threads k).phase = .returned → (o.1.threads k).ids = []

variable {crc : Bytes → UInt16} {timeout : ι → ℚ} {ids : ι → List ℤ}

theorem Separate.step {s t : ScanThreads ι} {pings : ι → List Ping} {e : Event ι}
    (hdisjoint : ∀ j k c, c ∈ ids j → c ∈ ids k → j = k) (h : Separate ids (s, pings))
    (hstep : step crc timeout s e = some t) : Separate ids (t, note s e t pings) := by
  have hview (k : ι) : Inv (ids k) (t.view k, note s e t pings k) ∧
      ((t.view k).phase = .returned → (t.view k).ids = []) := by
    rw [note]
    obtain ⟨e', hsees, hown⟩ | ⟨j, e', v, hjk, hsees, hcaller, hother, hview⟩ :=
      view_of_step hstep k
    · rw [hsees]
      have hdoes := NodeScan.step_does hown
      exact ⟨(h.inv k).step hdoes, NodeScan.ids_of_returned (h.returned k) hdoes⟩
    · rw [hsees, hview]
      refine ⟨(h.inv k).interfere rfl rfl rfl fun c hc => ?_, h.returned k⟩
      apply NodeScan.hwTypeOf_of_caller hcaller hother
      intro hmem
      exact hjk (hdisjoint j k c ((h.inv j).ids_subset hmem) ((h.inv k).mem_of_pinging hc))
  exact ⟨fun k => (hview k).1, fun k => (hview k).2⟩

/-- Scans of disjoint sets of nodes in any number of threads. A thread that returns has pinged its
ids in order; it reports a node just with a hardware type that was heard while this thread pinged
it, and every node heard before the last look of its ping. -/
theorem concurrent_scans_report (crc : Bytes → UInt16) (timeout : ι → ℚ) (bus : BusState)
    (start : ℚ) (ids : ι → List ℤ) (hdisjoint : ∀ j k c, c ∈ ids j → c ∈ ids k → j = k)
    (events : List (Event ι)) (t : ScanThreads ι) (pings : ι → List Ping)
    (hrun : Transition.run (observed crc timeout) (initial bus start ids, fun _ => []) events =
      some (t, pings)) (k : ι) (hreturned : (t.threads k).phase = .returned) :
    (∀ c hw, (t.threads k).found.lookup c = some hw →
      ∃ p ∈ pings k, p.id = c ∧ Heard p.events c hw) ∧
    (∀ p ∈ pings k, ∀ hw, Heard p.beforeLook p.id hw →
      ∃ hw', (t.threads k).found.lookup p.id = some hw') ∧
    ((pings k).map Ping.id).reverse = ids k := by
  have hstart : Separate ids ((initial bus start ids, fun _ => []) :
      ScanThreads ι × (ι → List Ping)) :=
    ⟨fun k => NodeScan.inv_initial bus start (ids k), fun k hk => by cases hk⟩
  have hend : Separate ids (t, pings) := by
    apply Transition.run_preserves _ events _ (t, pings) hstart hrun
    rintro ⟨s, noted⟩ e o' hs ho
    obtain ⟨u, hu, rfl⟩ := Option.map_eq_some_iff.mp ho
    exact hs.step hdisjoint hu
  refine ⟨(hend.inv k).sound, (hend.inv k).complete, ?_⟩
  have horder := (hend.inv k).order
  have hids : (t.view k).ids = [] := hend.returned k hreturned
  dsimp only at horder
  rw [hids, List.append_nil] at horder
  exact horder.symm

/-- One thread scans node 7 and another one node 8. The second clears the event that the first has
been woken by. -/
def twoScans : List (Event Bool) :=
  List.replicate 6 (.thread true (.advance 0)) ++ List.replicate 4 (.thread false (.advance 0)) ++
    [.receive (1 / 10) ⟨true, 0x12fe, [7, 0]⟩, .signal, .thread false (.advance (1 / 10))] ++
      List.replicate 3 (.thread true (.advance (1 / 2)))

theorem concurrent_scans_report_two : ∃ t pings,
    Transition.run (observed Crc16.xmodem fun _ => 1 / 2)
      (initial .initial 0 fun k => if k then [7] else [8], fun _ => []) twoScans =
        some (t, pings) ∧ (t.threads true).phase = .returned ∧
      (t.threads true).found = [(7, 0)] ∧
      ∃ p ∈ pings true, p.id = 7 ∧ Heard p.events 7 0 := by
  have hrun : (Transition.run (observed Crc16.xmodem fun _ => 1 / 2)
      (initial .initial 0 fun k => if k then [7] else [8], fun _ => []) twoScans).map
        (fun o => ((o.1.threads true).phase, (o.1.threads true).found)) =
      some (.returned, [(7, 0)]) := by
    decide +kernel
  obtain ⟨⟨t, pings⟩, ht, hview⟩ := Option.map_eq_some_iff.mp hrun
  simp only [Prod.mk.injEq] at hview
  obtain ⟨hreturned, hfound⟩ := hview
  have hlookup : (t.threads true).found.lookup 7 = some 0 := by
    rw [hfound]
    rfl
  have hdisjoint : ∀ j k c, c ∈ (fun b : Bool => if b then [(7 : ℤ)] else [8]) j →
      c ∈ (fun b : Bool => if b then [(7 : ℤ)] else [8]) k → j = k := by
    intro j k c hj hk
    cases j <;> cases k <;> simp_all
  exact ⟨t, pings, ht, hreturned, hfound, (concurrent_scans_report Crc16.xmodem (fun _ => 1 / 2)
    .initial 0 _ hdisjoint twoScans t pings ht true hreturned).1 7 0 hlookup⟩

end ScanThreads

end PyVesc
