import PyVesc.ObjectHeap
import PyVesc.Telemetry

/-!
# The snapshots that the bus hands out

A snapshot is a frozen record, but its stamps are a dictionary that it refers to. Here the stamps
are objects on a heap, and a run is any order of messages and of calls of `telemetry`.
-/

namespace PyVesc

/-- A `NodeTelemetry` as an object: its stamps are a reference. -/
structure SnapshotObject where
  controllerId : ℕ
  slots : Dict StatusSlot DecodedStatus
  stamps : ℕ
  deriving DecidableEq, Repr

/-- What a reader of the snapshot sees. -/
def SnapshotObject.view (o : SnapshotObject) (heap : ObjectHeap (Dict StatusSlot ℚ)) :
    Option NodeTelemetry := (heap.read o.stamps).map fun stamps => ⟨o.controllerId, o.slots, stamps⟩

structure TelemetryStore where
  heap : ObjectHeap (Dict StatusSlot ℚ)
  telemetry : Dict ℕ SnapshotObject
  deriving DecidableEq, Repr

namespace TelemetryStore

def empty : TelemetryStore := ⟨ObjectHeap.empty, []⟩

/-- `self._telemetry.get(controller_id) or NodeTelemetry(controller_id=controller_id)`. -/
def telemetryOf (t : TelemetryStore) (controllerId : ℕ) : TelemetryStore × SnapshotObject :=
  match t.telemetry.lookup controllerId with
  | some telem => (t, telem)
  | none =>
    let (heap, stamps) := t.heap.create []
    ({ t with heap := heap }, ⟨controllerId, [], stamps⟩)

def recordStatus (t : TelemetryStore) (controllerId : ℕ) (slot : StatusSlot) (obj : DecodedStatus)
    (now : ℚ) : TelemetryStore :=
  let (t, telem) := t.telemetryOf controllerId
  let (heap, stamps) := t.heap.create ((t.heap.read telem.stamps).getD [])
  let heap := heap.write stamps (Dict.set ((heap.read stamps).getD []) slot now)
  let telem := { telem with slots := Dict.set telem.slots slot obj, stamps := stamps }
  ⟨heap, Dict.set t.telemetry controllerId telem⟩

def onMessage (t : TelemetryStore) (now : ℚ) (msg : CanMessage) : TelemetryStore :=
  if msg.isExtendedId = false then t
  else
    let (packetId, addressee) := splitArbitrationId msg.arbitrationId
    if addressee = HOST_ID ∧ packetId ∈ tunnelIds then t
    else
      match decodeFrame msg.arbitrationId msg.data with
      | none => t
      | some (controllerId, obj) =>
        match obj.slot with
        | some slot => t.recordStatus controllerId slot obj now
        | none => t

end TelemetryStore

inductive TelemetryCall where
  | onMessage (now : ℚ) (msg : CanMessage)
  | telemetry (controllerId : ℕ)
  deriving DecidableEq, Repr

def TelemetryStore.call (t : TelemetryStore) : TelemetryCall → TelemetryStore
  | .onMessage now msg => t.onMessage now msg
  | .telemetry controllerId => (t.telemetryOf controllerId).1

def TelemetryStore.run (t : TelemetryStore) (calls : List TelemetryCall) : TelemetryStore :=
  calls.foldl TelemetryStore.call t

/-- The messages of a run. -/
def TelemetryCall.message : TelemetryCall → Option (ℚ × CanMessage)
  | .onMessage now msg => some (now, msg)
  | .telemetry _ => none

theorem TelemetryStore.onMessage_eq (t : TelemetryStore) (now : ℚ) (msg : CanMessage) :
    t.onMessage now msg =
      match statusOf msg with
      | none => t
      | some (c, slot, obj) => t.recordStatus c slot obj now := by
  rw [TelemetryStore.onMessage, statusOf]
  by_cases hext : msg.isExtendedId = false
  · rw [if_pos hext, if_pos hext]
  · rw [if_neg hext, if_neg hext]
    dsimp only
    by_cases htunnel : (splitArbitrationId msg.arbitrationId).2 = HOST_ID ∧
        (splitArbitrationId msg.arbitrationId).1 ∈ tunnelIds
    · rw [if_pos htunnel, if_pos htunnel]
    · rw [if_neg htunnel, if_neg htunnel]
      cases decodeFrame msg.arbitrationId msg.data with
      | none => rfl
      | some decoded =>
          dsimp only
          cases decoded.2.slot <;> rfl

/-! ### The store on the heap and the store of the bus -/

theorem SnapshotObject.view_of_extends {o : SnapshotObject}
    {heap heap' : ObjectHeap (Dict StatusSlot ℚ)} (h : heap.Extends heap') {telem : NodeTelemetry}
    (ho : o.view heap = some telem) : o.view heap' = some telem := by
  obtain ⟨stamps, hstamps, rfl⟩ := Option.map_eq_some_iff.mp ho
  rw [SnapshotObject.view, h _ _ hstamps]
  rfl

/-- Every node has in `t` what it has in `s`. -/
def TelemetryStore.Represents (t : TelemetryStore) (s : BusState) : Prop :=
  ∀ c, (t.telemetry.lookup c).map (fun o => o.view t.heap) = (s.telemetry.lookup c).map some

theorem represents_empty : TelemetryStore.empty.Represents BusState.initial := fun _ => rfl

section Step
variable {t : TelemetryStore} {s : BusState}

theorem TelemetryStore.Represents.of_extends (h : t.Represents s)
    {heap : ObjectHeap (Dict StatusSlot ℚ)} (hheap : t.heap.Extends heap) :
    (⟨heap, t.telemetry⟩ : TelemetryStore).Represents s := by
  intro c
  have hc := h c
  dsimp only
  cases ho : t.telemetry.lookup c with
  | none => rwa [ho] at hc
  | some o =>
      rw [ho] at hc
      cases htelem : s.telemetry.lookup c with
      | none =>
          rw [htelem] at hc
          cases hc
      | some telem =>
          rw [htelem] at hc
          exact congrArg some (SnapshotObject.view_of_extends hheap (Option.some.inj hc))

theorem telemetryOf_represents (h : t.Represents s) (c : ℕ) :
    (t.telemetryOf c).1.Represents s ∧ t.heap.Extends (t.telemetryOf c).1.heap ∧
      (t.telemetryOf c).1.telemetry = t.telemetry ∧
      (t.telemetryOf c).2.view (t.telemetryOf c).1.heap = some (s.telemetryOf c) := by
  have hc := h c
  rw [TelemetryStore.telemetryOf, BusState.telemetryOf]
  cases ho : t.telemetry.lookup c with
  | none =>
      rw [ho] at hc
      rw [Option.map_eq_none_iff.mp hc.symm]
      dsimp only
      refine ⟨h.of_extends (t.heap.extends_create []), t.heap.extends_create [], rfl, ?_⟩
      rw [SnapshotObject.view, t.heap.read_create]
      rfl
  | some o =>
      rw [ho] at hc
      obtain ⟨telem, htelem, heq⟩ := Option.map_eq_some_iff.mp hc.symm
      rw [htelem]
      exact ⟨h, ObjectHeap.Extends.refl _, rfl, heq.symm⟩

theorem recordStatus_represents (h : t.Represents s) (c : ℕ) (slot : StatusSlot)
    (obj : DecodedStatus) (now : ℚ) :
    (t.recordStatus c slot obj now).Represents (s.recordStatus c slot obj now) ∧
      t.heap.Extends (t.recordStatus c slot obj now).heap := by
  obtain ⟨hrep, hext, hsame, hview⟩ := telemetryOf_represents h c
  obtain ⟨stamps, hstamps, hdata⟩ := Option.map_eq_some_iff.mp hview
  set t' := (t.telemetryOf c).1 with ht'
  set telem := (t.telemetryOf c).2 with htelem
  have hrecord : t.recordStatus c slot obj now =
      ⟨(t'.heap.create (Dict.set stamps slot now)).1,
        Dict.set t'.telemetry c ⟨telem.controllerId, Dict.set telem.slots slot obj,
          (t'.heap.create (Dict.set stamps slot now)).2⟩⟩ := by
    rw [TelemetryStore.recordStatus]
    dsimp only
    rw [← ht', ← htelem, hstamps, Option.getD_some, ObjectHeap.read_create, Option.getD_some,
      ObjectHeap.write_create]
    rfl
  have hnew := t'.heap.extends_create (Dict.set stamps slot now)
  rw [hrecord]
  refine ⟨fun c' => ?_, hext.trans hnew⟩
  change (Option.map _ (List.lookup c' (Dict.set t'.telemetry c _))) =
    Option.map some (List.lookup c' (Dict.set s.telemetry c _))
  rw [Dict.lookup_set, Dict.lookup_set]
  by_cases hc : c' = c
  · rw [if_pos hc, if_pos hc, Option.map_some, Option.map_some, SnapshotObject.view,
      ObjectHeap.read_create, lookup_telemetryOf, ← hdata]
    rfl
  · rw [if_neg hc, if_neg hc]
    exact hrep.of_extends hnew c'

theorem onMessage_represents (crc : Bytes → UInt16) (h : t.Represents s) (now : ℚ)
    (msg : CanMessage) :
    (t.onMessage now msg).Represents (onMessage crc s now msg) ∧
      t.heap.Extends (t.onMessage now msg).heap := by
  rw [TelemetryStore.onMessage_eq]
  unfold TelemetryStore.Represents
  rw [telemetry_onMessage]
  cases statusOf msg with
  | none => exact ⟨h, ObjectHeap.Extends.refl _⟩
  | some status => exact recordStatus_represents h _ _ _ _

end Step

section Run
variable (crc : Bytes → UInt16)

/-- A run leaves what older snapshots show, and its messages alone decide what it represents. -/
theorem run_represents (calls : List TelemetryCall) {t : TelemetryStore} {s : BusState}
    (h : t.Represents s) :
    (t.run calls).Represents (receiveAll crc s (calls.filterMap TelemetryCall.message)) ∧
      t.heap.Extends (t.run calls).heap := by
  induction calls generalizing t s with
  | nil => exact ⟨h, ObjectHeap.Extends.refl _⟩
  | cons call calls ih =>
      cases call with
      | onMessage now msg =>
          obtain ⟨hrep, hext⟩ := onMessage_represents crc h now msg
          obtain ⟨hrun, hrunext⟩ := ih hrep
          exact ⟨hrun, hext.trans hrunext⟩
      | telemetry c =>
          obtain ⟨hrep, hext, _⟩ := telemetryOf_represents h c
          obtain ⟨hrun, hrunext⟩ := ih hrep
          exact ⟨hrun, hext.trans hrunext⟩

/-- A snapshot shows the store of the moment at which it was taken, also after any later calls. -/
theorem view_after (before later : List TelemetryCall) (c : ℕ) :
    let taken := (TelemetryStore.empty.run before).telemetryOf c
    taken.2.view (taken.1.run later).heap =
      some ((receiveAll crc BusState.initial
        (before.filterMap TelemetryCall.message)).telemetryOf c) := by
  intro taken
  obtain ⟨hbefore, _⟩ := run_represents crc before represents_empty
  obtain ⟨hrep, _, _, hview⟩ := telemetryOf_represents hbefore c
  exact SnapshotObject.view_of_extends (run_represents crc later hrep).2 hview

/-- After any messages the store has the last word of every node, and no snapshot that was handed
out changes. -/
theorem telemetry_last_word (events : List (ℚ × CanMessage)) :
    let s := receiveAll crc BusState.initial events
    (∀ (c : ℕ) (slot : StatusSlot),
      (s.telemetryOf c).controllerId = c ∧
      (s.telemetryOf c).slots.lookup slot =
        (lastStatus slot c events).map (fun e => slot.decode e.2.data) ∧
      (s.telemetryOf c).stamps.lookup slot = (lastStatus slot c events).map (fun e => e.1) ∧
      ((s.telemetryOf c).stamps.lookup slot ≠ none ↔ (s.telemetryOf c).slots.lookup slot ≠ none)) ∧
    s.knownNodes.Pairwise (· < ·) ∧
    (∀ c, c ∈ s.knownNodes ↔ ∃ e ∈ events, ∃ slot : StatusSlot, slot.Frame c e.2) ∧
    (∀ (c : ℕ) (now : ℚ) (msg : CanMessage), (∀ slot : StatusSlot, ¬ slot.Frame c msg) →
      (onMessage crc s now msg).telemetryOf c = s.telemetryOf c) ∧
    ∀ (before later : List TelemetryCall) (c : ℕ),
      before.filterMap TelemetryCall.message = events →
      let taken := (TelemetryStore.empty.run before).telemetryOf c
      taken.2.view taken.1.heap = some (s.telemetryOf c) ∧
      taken.2.view (taken.1.run later).heap = some (s.telemetryOf c) := by
  intro s
  have h : LastWord events s := lastWord_receiveAll crc events
  refine ⟨fun c slot => ⟨h.controllerId c, h.status c slot, h.stamp c slot, ?_⟩,
    pairwise_lt_knownNodes h, mem_knownNodes h,
    fun c now msg hframe => telemetryOf_onMessage_of_not_frame crc hframe s now, ?_⟩
  · rw [h.status c slot, h.stamp c slot, ne_eq, ne_eq, Option.map_eq_none_iff,
      Option.map_eq_none_iff]
  · rintro before later c rfl
    exact ⟨view_after crc before [] c, view_after crc before later c⟩

end Run

end PyVesc
