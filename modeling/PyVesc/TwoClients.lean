import PyVesc.OwnReplies

/-!
# Two callers on one serial link

Two threads call `VESC.write` on one object, again and again, each time with a response expected. A
call drops the bytes that wait in the transport, sends its request, and reads. The lock `read_lock`
is held while the waiting bytes are dropped and during the whole read, but not in between: while one
caller is between its request and its read, the other may drop or read the bytes that come in.

A call is numbered when its request is sent, even numbers for the first caller and odd ones for the
second.
-/

namespace PyVesc

variable (crc : Bytes → UInt16) (registry : Registry)

inductive Client where
  | first
  | second
  deriving DecidableEq, Repr

namespace Client

def other : Client → Client
  | first => second
  | second => first

theorem other_ne (x : Client) : x.other ≠ x := by cases x <;> decide

theorem other_other (x : Client) : x.other.other = x := by cases x <;> rfl

theorem eq_or_eq_other (x y : Client) : y = x ∨ y = x.other := by
  cases x <;> cases y <;> decide

/-- The number of the call that a caller makes after `k` calls. -/
def number (x : Client) (k : ℕ) : ℕ :=
  match x with
  | first => 2 * k
  | second => 2 * k + 1

theorem number_inj {x y : Client} {j k : ℕ} (h : x.number j = y.number k) : x = y ∧ j = k := by
  cases x <;> cases y <;> simp only [number] at h
  · exact ⟨rfl, by omega⟩
  · omega
  · omega
  · exact ⟨rfl, by omega⟩

end Client

/-- Where a caller is: between two calls, before its request is sent, before its read, or in it. -/
inductive ClientStage where
  | idle
  | drained
  | written (n : ℕ)
  | reading (n : ℕ) (deadline : ℚ) (s : ReadState)
  deriving DecidableEq, Repr

/-- The request to which the caller waits for a reply. -/
def ClientStage.outstanding : ClientStage → Option ℕ
  | idle => none
  | drained => none
  | written n => some n
  | reading n _ _ => some n

def ClientStage.isReading : ClientStage → Bool
  | reading _ _ _ => true
  | _ => false

structure TwoClients where
  stage : Client → ClientStage
  calls : Client → ℕ
  readLock : Option Client
  /-- The requests that the device may still answer. -/
  owed : List ℕ
  /-- Bytes of the device that are on their way. -/
  transit : List LineByte
  /-- Bytes that wait in the transport. -/
  waiting : List LineByte
  /-- Bytes that a caller has taken out of the transport. -/
  taken : Client → List LineByte
  returned : List (ℕ × Py (Option Response))

namespace TwoClients

def initial : TwoClients := ⟨fun _ => .idle, fun _ => 0, none, [], [], [], fun _ => [], []⟩

inductive Event where
  | drain (x : Client)
  | send (x : Client)
  | beginRead (x : Client) (start : ℚ)
  | poll (x : Client) (check now : ℚ)
  | expire (x : Client) (check : ℚ)
  | answer (n : ℕ)
  | arrive (k : ℕ)
  deriving DecidableEq, Repr

/-- A caller takes the waiting bytes out of the transport. -/
def take (s : TwoClients) (x : Client) : TwoClients :=
  { s with
    waiting := discardStale s.waiting
    taken := Function.update s.taken x (s.taken x ++ s.waiting) }

def enter (s : TwoClients) (x : Client) (stage : ClientStage) (lock : Option Client) : TwoClients :=
  { s with stage := Function.update s.stage x stage, readLock := lock }

def request (s : TwoClients) (x : Client) : TwoClients :=
  { s with
    stage := Function.update s.stage x (.written (x.number (s.calls x)))
    calls := Function.update s.calls x (s.calls x + 1)
    owed := x.number (s.calls x) :: s.owed }

def leave (s : TwoClients) (x : Client) (n : ℕ) (result : Py (Option Response)) : TwoClients :=
  { s.enter x .idle none with returned := s.returned ++ [(n, result)] }

def sendReply (s : TwoClients) (n : ℕ) (bytes : Bytes) : TwoClients :=
  { s with owed := s.owed.erase n, transit := s.transit ++ lineBytes n bytes }

def arrive (s : TwoClients) (k : ℕ) : TwoClients :=
  { s with waiting := s.waiting ++ s.transit.take k, transit := s.transit.drop k }

variable (S : Session)

/-- What a round of a read makes of the link. -/
def settle (s : TwoClients) (x : Client) (n : ℕ) (deadline : ℚ) :
    Turn ReadState (Py ReadExit) → TwoClients
  | .next r => s.enter x (.reading n deadline r) s.readLock
  | .done loopExit => s.leave x n (loopExit >>= ReadExit.result crc registry (S.args n))

def round (s : TwoClients) (x : Client) (n : ℕ) (deadline : ℚ) (r : ReadState) (check now : ℚ) :
    TwoClients :=
  settle crc registry S (s.take x) x n deadline
    (pollRound crc registry (S.args n) r ⟨check, s.waiting.map LineByte.value, now⟩)

def step (s : TwoClients) : Event → Option TwoClients
  | .drain x =>
    if s.stage x = .idle ∧ s.readLock = none then some ((s.take x).enter x .drained none) else none
  | .send x => if s.stage x = .drained then some (s.request x) else none
  | .beginRead x start =>
    match s.stage x with
    | .written n =>
      if s.readLock = none then
        some (s.enter x (.reading n (start + (S.args n).maxWait) ⟨[], none, none⟩) (some x))
      else none
    | _ => none
  | .poll x check now =>
    match s.stage x with
    | .reading n deadline r =>
      if check < deadline then some (s.round crc registry S x n deadline r check now) else none
    | _ => none
  | .expire x check =>
    match s.stage x with
    | .reading n deadline r =>
      if check < deadline then none else some (s.leave x n (afterLoop crc registry (S.args n) r))
    | _ => none
  | .answer n =>
    if n ∈ s.owed then
      match frame crc (S.reply n) with
      | .error _ => none
      | .ok bytes => some (s.sendReply n bytes)
    else none
  | .arrive k => some (s.arrive k)

/-- What each event does where it can happen. -/
inductive Move (s : TwoClients) : Event → TwoClients → Prop
  | drain {x} (hidle : s.stage x = .idle) (hlock : s.readLock = none) :
      Move s (.drain x) ((s.take x).enter x .drained none)
  | send {x} (hstage : s.stage x = .drained) : Move s (.send x) (s.request x)
  | beginRead {x start n} (hstage : s.stage x = .written n) (hlock : s.readLock = none) :
      Move s (.beginRead x start)
        (s.enter x (.reading n (start + (S.args n).maxWait) ⟨[], none, none⟩) (some x))
  | poll {x check now n deadline r} (hstage : s.stage x = .reading n deadline r) :
      Move s (.poll x check now) (s.round crc registry S x n deadline r check now)
  | expire {x check n deadline r} (hstage : s.stage x = .reading n deadline r) :
      Move s (.expire x check) (s.leave x n (afterLoop crc registry (S.args n) r))
  | answer {n bytes} (howed : n ∈ s.owed) (hframe : frame crc (S.reply n) = .ok bytes) :
      Move s (.answer n) (s.sendReply n bytes)
  | arrive {k} : Move s (.arrive k) (s.arrive k)

theorem move_of_step {s t : TwoClients} {e : Event} (h : step crc registry S s e = some t) :
    Move crc registry S s e t := by
  cases e with
  | drain x =>
    obtain ⟨⟨hidle, hlock⟩, ht⟩ := Option.ite_none_right_eq_some.mp h
    cases ht
    exact .drain hidle hlock
  | send x =>
    obtain ⟨hstage, ht⟩ := Option.ite_none_right_eq_some.mp h
    cases ht
    exact .send hstage
  | beginRead x start =>
    rw [step] at h
    split at h
    · next n hstage =>
      obtain ⟨hlock, ht⟩ := Option.ite_none_right_eq_some.mp h
      cases ht
      exact .beginRead hstage hlock
    · cases h
  | poll x check now =>
    rw [step] at h
    split at h
    · next n deadline r hstage =>
      obtain ⟨_, ht⟩ := Option.ite_none_right_eq_some.mp h
      cases ht
      exact .poll hstage
    · cases h
  | expire x check =>
    rw [step] at h
    split at h
    · next n deadline r hstage =>
      obtain ⟨_, ht⟩ := Option.ite_none_left_eq_some.mp h
      cases ht
      exact .expire hstage
    · cases h
  | answer n =>
    obtain ⟨howed, ht⟩ := Option.ite_none_right_eq_some.mp h
    split at ht
    · cases ht
    · next bytes hframe =>
      cases ht
      exact .answer howed hframe
  | arrive k =>
    cases h
    exact .arrive

/-- No caller drops or reads the end of a reply to the other while the other is between its request
and its read. -/
def Untouched (s : TwoClients) : Event → Prop
  | .drain x => ∀ m, s.stage x.other = .written m → ∀ b ∈ s.waiting, b.ends ≠ some m
  | .poll x _ _ => ∀ m, s.stage x.other = .written m → ∀ b ∈ s.waiting, b.ends ≠ some m
  | _ => True

/-- The frame of the reply to an outstanding request is not among the bytes that the other caller
took. -/
def KeepsReplies (s : TwoClients) : Prop :=
  ∀ x m bytes, (s.stage x).outstanding = some m → frame crc (S.reply m) = .ok bytes →
    ¬ lineBytes m bytes <:+: s.taken x.other

/-! ### The invariant -/

/-- A byte that the device has sent. -/
def Seen (s : TwoClients) (b : LineByte) : Prop :=
  b ∈ s.transit ∨ b ∈ s.waiting ∨ ∃ x, b ∈ s.taken x

structure Inv (s : TwoClients) : Prop where
  owed : ∀ x k, x.number k ∈ s.owed → k < s.calls x
  seen : ∀ b, s.Seen b → ∀ x k, b.ends = some (x.number k) → k < s.calls x
  lock : ∀ x, (s.stage x).isReading = true → s.readLock = some x
  kept : ∀ x m, (s.stage x).outstanding = some m → ∀ b ∈ s.taken x.other, b.ends ≠ some m

variable {crc registry S} {s : TwoClients}

theorem inv_initial : Inv initial := by
  constructor
  · intro x k h
    cases h
  · intro b h
    rcases h with h | h | ⟨x, h⟩ <;> cases h
  · intro x h
    cases h
  · intro x m h
    cases h

theorem waiting_take (s : TwoClients) (x : Client) : (s.take x).waiting = [] :=
  discardStale_eq_nil _

theorem taken_take (s : TwoClients) (x : Client) :
    (s.take x).taken x = s.taken x ++ s.waiting := Function.update_self x _ s.taken

theorem taken_take_other (s : TwoClients) (x : Client) :
    (s.take x).taken x.other = s.taken x.other :=
  Function.update_of_ne x.other_ne _ s.taken

theorem stage_enter (s : TwoClients) (x : Client) (stage : ClientStage) (lock : Option Client) :
    (s.enter x stage lock).stage x = stage := Function.update_self x _ s.stage

theorem stage_enter_other (s : TwoClients) (x : Client) (stage : ClientStage)
    (lock : Option Client) : (s.enter x stage lock).stage x.other = s.stage x.other :=
  Function.update_of_ne x.other_ne _ s.stage

theorem Seen.of_take {x : Client} {b : LineByte} (h : (s.take x).Seen b) : s.Seen b := by
  rcases h with h | h | ⟨y, h⟩
  · exact Or.inl h
  · rw [waiting_take] at h
    cases h
  · rcases x.eq_or_eq_other y with rfl | rfl
    · rw [taken_take] at h
      rcases List.mem_append.mp h with h | h
      · exact Or.inr (Or.inr ⟨_, h⟩)
      · exact Or.inr (Or.inl h)
    · rw [taken_take_other] at h
      exact Or.inr (Or.inr ⟨_, h⟩)

/-- What a caller takes must not end the reply to the other. -/
theorem Inv.take (h : Inv s) {x : Client} (hother : ∀ m, (s.stage x.other).outstanding = some m →
    ∀ b ∈ s.waiting, b.ends ≠ some m) : Inv (s.take x) := by
  constructor
  · exact h.owed
  · exact fun b hb => h.seen b hb.of_take
  · exact h.lock
  · intro y m hm
    rcases x.eq_or_eq_other y with rfl | rfl
    · rw [taken_take_other]
      exact h.kept _ m hm
    · rw [x.other_other, taken_take]
      intro b hb
      rcases List.mem_append.mp hb with hb | hb
      · have hkept := h.kept _ m hm
        rw [x.other_other] at hkept
        exact hkept b hb
      · exact hother m hm b hb

/-- A caller may enter a stage in which it waits for nothing new. -/
theorem Inv.enter (h : Inv s) {x : Client} {stage : ClientStage} {lock : Option Client}
    (hstage : ∀ m, stage.outstanding = some m → (s.stage x).outstanding = some m)
    (hlock : stage.isReading = true → lock = some x)
    (hother : (s.stage x.other).isReading = true → lock = some x.other) :
    Inv (s.enter x stage lock) := by
  constructor
  · exact h.owed
  · exact h.seen
  · intro y hy
    rcases x.eq_or_eq_other y with rfl | rfl
    · rw [stage_enter] at hy
      exact hlock hy
    · rw [stage_enter_other] at hy
      exact hother hy
  · intro y m hm
    rcases x.eq_or_eq_other y with rfl | rfl
    · rw [stage_enter] at hm
      exact h.kept _ m (hstage m hm)
    · rw [stage_enter_other] at hm
      exact h.kept _ m hm

theorem Inv.not_reading (h : Inv s) {x : Client} (hlock : s.readLock ≠ some x) :
    ¬ (s.stage x).isReading = true := fun hreading => hlock (h.lock x hreading)

theorem other_unlocked {x : Client} (hlock : s.readLock = none ∨ s.readLock = some x) :
    s.readLock ≠ some x.other := by
  intro hother
  obtain hfree | hheld := hlock
  · cases hfree.symm.trans hother
  · exact x.other_ne (Option.some.inj (hheld.symm.trans hother)).symm

theorem Inv.request (h : Inv s) {x : Client} (hstage : s.stage x = .drained) :
    Inv (s.request x) := by
  have hcalls : ∀ y k, k < s.calls y → k < (s.request x).calls y := by
    intro y k hk
    unfold TwoClients.request
    dsimp only
    rcases x.eq_or_eq_other y with rfl | rfl
    · rw [Function.update_self]
      exact Nat.lt_succ_of_lt hk
    · rwa [Function.update_of_ne x.other_ne]
  constructor
  · intro y k hk
    rcases List.mem_cons.mp hk with hnew | hold
    · obtain ⟨rfl, rfl⟩ := Client.number_inj hnew
      unfold TwoClients.request
      dsimp only
      rw [Function.update_self]
      exact Nat.lt_succ_self _
    · exact hcalls y k (h.owed y k hold)
  · exact fun b hb y k hk => hcalls y k (h.seen b hb y k hk)
  · intro y hy
    unfold TwoClients.request at hy
    dsimp only at hy
    rcases x.eq_or_eq_other y with rfl | rfl
    · rw [Function.update_self] at hy
      cases hy
    · rw [Function.update_of_ne x.other_ne] at hy
      exact h.lock _ hy
  · intro y m hm
    unfold TwoClients.request at hm
    dsimp only at hm
    rcases x.eq_or_eq_other y with rfl | rfl
    · rw [Function.update_self] at hm
      cases hm
      intro b hb hends
      -- a request that is only now sent has no reply yet
      exact lt_irrefl _ (h.seen b (Or.inr (Or.inr ⟨_, hb⟩)) _ _ hends)
    · rw [Function.update_of_ne x.other_ne] at hm
      exact h.kept _ m hm

theorem Inv.sendReply (h : Inv s) {n : ℕ} (howed : n ∈ s.owed) (bytes : Bytes) :
    Inv (s.sendReply n bytes) := by
  constructor
  · exact fun x k hk => h.owed x k (List.mem_of_mem_erase hk)
  · intro b hb x k hk
    rcases hb with hb | hb
    · rcases List.mem_append.mp hb with hb | hb
      · exact h.seen b (Or.inl hb) x k hk
      · rw [← ends_mem_lineBytes hb hk] at howed
        exact h.owed x k howed
    · exact h.seen b (Or.inr hb) x k hk
  · exact h.lock
  · exact h.kept

theorem Inv.arrive (h : Inv s) (k : ℕ) : Inv (s.arrive k) := by
  constructor
  · exact h.owed
  · intro b hb
    apply h.seen b
    rcases hb with hb | hb | hb
    · exact Or.inl (List.mem_of_mem_drop hb)
    · rcases List.mem_append.mp hb with hb | hb
      · exact Or.inr (Or.inl hb)
      · exact Or.inl (List.mem_of_mem_take hb)
    · exact Or.inr (Or.inr hb)
  · exact h.lock
  · exact h.kept

theorem Inv.leave (h : Inv s) {x : Client} (hlock : s.readLock = some x) (n : ℕ)
    (result : Py (Option Response)) : Inv (s.leave x n result) := by
  have henter : Inv (s.enter x .idle none) := by
    apply h.enter
    · intro m hm
      cases hm
    · intro hreading
      cases hreading
    · exact fun hreading => absurd hreading (h.not_reading (other_unlocked (Or.inr hlock)))
  exact ⟨henter.owed, henter.seen, henter.lock, henter.kept⟩

/-- Where the lock is free or held by the caller itself, the other is not in its read. -/
theorem Inv.other_written (h : Inv s) {x : Client} (hlock : s.readLock ≠ some x.other) {m : ℕ}
    (hm : (s.stage x.other).outstanding = some m) : s.stage x.other = .written m := by
  cases hstage : s.stage x.other with
  | idle =>
    rw [hstage] at hm
    cases hm
  | drained =>
    rw [hstage] at hm
    cases hm
  | written n =>
    rw [hstage] at hm
    cases hm
    rfl
  | reading n deadline r =>
    exact absurd (h.lock x.other (by rw [hstage]; rfl)) hlock

theorem inv_step (s : TwoClients) (e : Event) (t : TwoClients) (h : Inv s) (hcond : Untouched s e)
    (hstep : step crc registry S s e = some t) : Inv t := by
  cases move_of_step _ _ _ hstep with
  | drain hidle hlock =>
    next x =>
    have hfree : s.readLock ≠ some x.other := other_unlocked (Or.inl hlock)
    have htake := h.take fun m hm => hcond m (h.other_written hfree hm)
    apply htake.enter
    · intro m hm
      cases hm
    · intro hreading
      cases hreading
    · exact fun hreading => absurd hreading (h.not_reading hfree)
  | send hstage => exact h.request hstage
  | beginRead hstage hlock =>
    next x start n =>
    apply h.enter
    · intro m hm
      rw [hstage]
      exact hm
    · exact fun _ => rfl
    · exact fun hreading => absurd hreading (h.not_reading (other_unlocked (Or.inl hlock)))
  | poll hstage =>
    next x check now n deadline r =>
    have hlock := h.lock x (by rw [hstage]; rfl)
    have hfree := other_unlocked (Or.inr hlock)
    have htake := h.take fun m hm => hcond m (h.other_written hfree hm)
    rw [round]
    cases pollRound crc registry (S.args n) r ⟨check, s.waiting.map LineByte.value, now⟩ with
    | next r' =>
      apply htake.enter
      · intro m hm
        change (s.stage x).outstanding = some m
        rw [hstage]
        exact hm
      · exact fun _ => hlock
      · exact h.lock _
    | done loopExit => exact htake.leave hlock n _
  | expire hstage =>
    next x check n deadline r => exact h.leave (h.lock x (by rw [hstage]; rfl)) n _
  | answer howed hframe => exact h.sendReply howed _
  | arrive => exact h.arrive _

theorem Inv.keepsReplies (h : Inv s) : KeepsReplies crc S s := by
  intro x m bytes hm hframe hinside
  obtain ⟨_, rfl⟩ := (frame_ok_iff crc).mp hframe
  obtain ⟨b, hlast, hends⟩ := getLast?_lineBytes m (SerialLink.frameBytes_ne_nil crc (S.reply m))
  exact h.kept x m hm b (hinside.subset (List.mem_of_getLast? hlast)) hends

/-- In every run in which no caller takes the end of a reply to the other between its request and
its read, no caller has a reply to an outstanding request of the other. -/
theorem keeps_replies (crc : Bytes → UInt16) (registry : Registry) (S : Session)
    (events : List Event) (t : TwoClients)
    (hmeets : Transition.Meets (step crc registry S) Untouched initial events)
    (hrun : Transition.run (step crc registry S) initial events = some t) :
    KeepsReplies crc S t :=
  (Transition.run_invariant inv_step events initial t inv_initial hmeets hrun).keepsReplies

/-- No caller drops or reads anything while the other is between its request and its read. -/
def Separate (s : TwoClients) : Event → Prop
  | .drain x => ∀ m, s.stage x.other ≠ .written m
  | .poll x _ _ => ∀ m, s.stage x.other ≠ .written m
  | _ => True

theorem untouched_of_separate (events : List Event)
    (hmeets : Transition.Meets (step crc registry S) Separate initial events) :
    Transition.Meets (step crc registry S) Untouched initial events := by
  apply Transition.meets_of_invariant (fun _ => True) (fun _ _ _ _ _ _ => trivial) _ events _
    trivial hmeets
  intro s e _ hcond
  cases e with
  | drain x => exact fun m hm => absurd hm (hcond m)
  | poll x check now => exact fun m hm => absurd hm (hcond m)
  | _ => trivial

/-! ### Two runs -/

/-- The first caller asks for the version, the second for the values. -/
def versionAndValues : Session where
  msgId n := if n % 2 = 0 then 0 else 4
  maxWait _ := 1 / 2
  reply n := if n % 2 = 0 then [0, 5, 3] else [4]

/-- The second caller starts when nothing has come in for the first. -/
def overlapping : List Event := [.drain .first, .send .first, .drain .second, .answer 0, .arrive 8]

theorem keeps_replies_overlapping : ∃ t,
    Transition.run (step Crc16.xmodem Messages.registry versionAndValues) initial overlapping =
      some t ∧ t.stage .first = .written 0 ∧ t.waiting.length = 8 ∧
      KeepsReplies Crc16.xmodem versionAndValues t := by
  have hrun : (Transition.run (step Crc16.xmodem Messages.registry versionAndValues) initial
      overlapping).map (fun t => (t.stage .first, t.waiting.length)) = some (.written 0, 8) := by
    decide +kernel
  obtain ⟨t, ht, hview⟩ := Option.map_eq_some_iff.mp hrun
  simp only [Prod.mk.injEq] at hview
  have hmeets : Transition.Meets (step Crc16.xmodem Messages.registry versionAndValues) Untouched
      initial overlapping := by
    apply Transition.meets_cons _ rfl
    · apply Transition.meets_cons trivial rfl
      apply Transition.meets_cons _ rfl
      · exact ⟨trivial, fun _ _ => ⟨trivial, fun _ _ => trivial⟩⟩
      · intro m _ b hb
        cases hb
    · intro m hm
      cases hm
  exact ⟨t, ht, hview.1, hview.2, keeps_replies Crc16.xmodem Messages.registry versionAndValues
    overlapping t hmeets ht⟩

/-- The second caller starts when the reply to the first has come in. -/
def crossing : List Event := [.drain .first, .send .first, .answer 0, .arrive 8, .drain .second]

/-- The second caller drops the reply to the first, whose read then finds nothing. -/
theorem reply_taken : ∃ t u,
    Transition.run (step Crc16.xmodem Messages.registry versionAndValues) initial crossing =
      some t ∧ ¬ KeepsReplies Crc16.xmodem versionAndValues t ∧
    Transition.run (step Crc16.xmodem Messages.registry versionAndValues) t
      [.beginRead .first 0, .poll .first 0 0, .expire .first 1] = some u ∧
      u.returned.map (fun r => (r.1, r.2.map Option.isNone)) = [(0, .ok true)] := by
  have hframe : frame Crc16.xmodem (versionAndValues.reply 0) =
      .ok [2, 3, 0, 5, 3, 0xcf, 0x96, 3] := by decide +kernel
  have hrun : (Transition.run (step Crc16.xmodem Messages.registry versionAndValues) initial
      crossing).map (fun t => (t.stage .first, t.taken .second)) =
        some (.written 0, lineBytes 0 [2, 3, 0, 5, 3, 0xcf, 0x96, 3]) := by decide +kernel
  have hend : ((Transition.run (step Crc16.xmodem Messages.registry versionAndValues) initial
      crossing).bind fun t => Transition.run
        (step Crc16.xmodem Messages.registry versionAndValues) t
          [.beginRead .first 0, .poll .first 0 0, .expire .first 1]).map
        (fun u => u.returned.map (fun r => (r.1, r.2.map Option.isNone))) =
      some [(0, .ok true)] := by decide +kernel
  obtain ⟨t, ht, hview⟩ := Option.map_eq_some_iff.mp hrun
  simp only [Prod.mk.injEq] at hview
  rw [ht, Option.bind_some] at hend
  obtain ⟨u, hu, hreturned⟩ := Option.map_eq_some_iff.mp hend
  refine ⟨t, u, ht, fun hkeeps => ?_, hu, hreturned⟩
  apply hkeeps .first 0 _ _ hframe
  · change _ <:+: t.taken .second
    rw [hview.2]
  · rw [hview.1]
    rfl

end TwoClients

end PyVesc
