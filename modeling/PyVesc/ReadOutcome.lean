import PyVesc.SerialRead

/-!
# What a read of a message returns

A read that does not expect a string makes some of the rounds before its deadline. What it returns
is settled by the payloads that the unframer finds in the chunks of these rounds: nothing else the
line does matters (`read_eq`).
-/

namespace PyVesc

variable (crc : Bytes → UInt16) (registry : Registry) (args : ReadArgs)

/-! ### From the clock to a list of rounds -/

section Clock
variable (U : Unframer) (line : Line)

/-- The rounds of the loop on a list of polls at whose end the deadline has passed. -/
def rounds : ReadState → List Poll → Py ReadExit
  | s, [] => .ok (.left s)
  | s, poll :: polls =>
    match pollRoundWith registry U args s poll with
    | .next s' => rounds s' polls
    | .done r => r

theorem Line.check_add (k : ℕ) : (line.polls 0).check + k / 100 ≤ (line.polls k).check := by
  induction k with
  | zero => simp
  | succ k ih =>
    have hsleep := line.sleeps k
    push_cast
    linarith

theorem Line.deadline_passes (deadline : ℚ) : ∃ k, deadline ≤ (line.polls k).check := by
  obtain ⟨k, hk⟩ := exists_nat_ge ((deadline - (line.polls 0).check) * 100)
  have hadd := line.check_add k
  exact ⟨k, by linarith⟩

/-- The rounds that begin before the deadline. -/
def Line.pollsBefore (deadline : ℚ) : List Poll :=
  (List.range (Nat.find (line.deadline_passes deadline))).map line.polls

theorem Line.pollsBefore_eq {deadline : ℚ} (h : (line.polls 0).check < deadline) :
    line.pollsBefore deadline = line.polls 0 :: (line.pollsBefore deadline).tail ∧
      ∀ poll ∈ (line.pollsBefore deadline).tail, ∃ k, poll = line.polls (k + 1) := by
  have hpos : 0 < Nat.find (line.deadline_passes deadline) := by
    rw [Nat.find_pos]
    exact not_le.mpr h
  obtain ⟨m, hm⟩ := Nat.exists_eq_succ_of_ne_zero hpos.ne'
  rw [pollsBefore, hm, Nat.succ_eq_add_one, List.range_succ_eq_map, List.map_cons, List.map_map]
  refine ⟨rfl, ?_⟩
  intro poll hpoll
  obtain ⟨k, _, rfl⟩ := List.mem_map.mp hpoll
  exact ⟨k, rfl⟩

theorem exec_readLoop_from (m k : ℕ) (s : ReadState)
    (hk : k + m = Nat.find (line.deadline_passes (line.start + args.maxWait))) :
    (readLoopWith registry U line args).exec (k, s) =
      rounds registry args U s ((List.range' k m).map line.polls) := by
  induction m generalizing k s with
  | zero =>
    have hpass : ¬ (line.polls k).check < line.start + args.maxWait := by
      rw [Nat.add_zero] at hk
      rw [hk, not_lt]
      exact Nat.find_spec (line.deadline_passes (line.start + args.maxWait))
    exact FiniteLoop.exec_done _ (if_neg hpass)
  | succ m ih =>
    have hbefore : (line.polls k).check < line.start + args.maxWait := by
      rw [← not_le]
      exact Nat.find_min (line.deadline_passes (line.start + args.maxWait)) (by omega)
    have hturn : (readLoopWith registry U line args).turn (k, s) =
        match pollRoundWith registry U args s (line.polls k) with
        | .next s' => .next (k + 1, s')
        | .done r => .done r := if_pos hbefore
    rw [List.range'_succ, List.map_cons, rounds]
    cases hp : pollRoundWith registry U args s (line.polls k) with
    | next s' =>
      rw [hp] at hturn
      rw [FiniteLoop.exec_next _ hturn]
      exact ih (k + 1) s' (by omega)
    | done r =>
      rw [hp] at hturn
      exact FiniteLoop.exec_done _ hturn

theorem exec_readLoop (s : ReadState) :
    (readLoopWith registry U line args).exec (0, s) =
      rounds registry args U s (line.pollsBefore (line.start + args.maxWait)) := by
  rw [Line.pollsBefore, List.range_eq_range']
  exact exec_readLoop_from registry args U line _ 0 s (Nat.zero_add _)

/-- A read that ends in its first round. -/
theorem read_first (h : (line.polls 0).check < line.start + args.maxWait) {r : Py ReadExit}
    (hr : pollRoundWith registry U args ⟨[], none, none⟩ (line.polls 0) = .done r) :
    readWith registry U line args = (do
      let loopExit ← r
      loopExit.resultWith registry U args) := by
  have hturn : (readLoopWith registry U line args).turn (0, ⟨[], none, none⟩) = .done r := by
    change readTurnWith registry U line args (0, ⟨[], none, none⟩) = .done r
    rw [readTurnWith, if_pos h]
    simp only [hr]
  rw [readWith, FiniteLoop.exec_done _ hturn]

end Clock

/-! ### From the rounds to the payloads -/

/-- The payloads found in the chunks of some rounds, and the bytes that are left over. -/
def unframed (polls : List Poll) : List Bytes × Bytes :=
  (unframeScanner crc).receive (polls.map Poll.chunk)

def carries (expectedMsgId : Option ℕ) (framePayload : Bytes) : Bool :=
  match expectedMsgId with
  | none => true
  | some msgId => framePayload.head?.any (fun b => b.toNat = msgId)

/-- The newest payload with the expected id. -/
def newest (expectedMsgId : Option ℕ) (payloads : List Bytes) : Option Bytes :=
  (payloads.filter (carries expectedMsgId)).getLast?

/-- When bytes were last found. -/
def lastArrival (polls : List Poll) : Option ℚ :=
  ((polls.filter (fun poll => poll.chunk ≠ [])).getLast?).map Poll.now

/-- The last of some rounds ends the read: a match has been found and nothing is left over, or the
line is idle and was not to be waited for, or it has been quiet for too long. -/
def EndsRead (polls : List Poll) (poll : Poll) : Prop :=
  if poll.chunk ≠ [] then
    newest args.expectedMsgId (unframed crc (polls ++ [poll])).1 ≠ none ∧
      (unframed crc (polls ++ [poll])).2 = []
  else
    (unframed crc polls).2 = [] ∧ args.expectAnything = false ∧
        newest args.expectedMsgId (unframed crc polls).1 = none ∨
      (lastArrival polls).any (fun tQuiet => args.timeout < poll.now - tQuiet)

instance (polls : List Poll) (poll : Poll) : Decidable (EndsRead crc args polls poll) := by
  unfold EndsRead
  infer_instance

/-- The rounds that a read makes on a line that has these polls to offer. -/
def heard (earlier : List Poll) : List Poll → List Poll
  | [] => earlier
  | poll :: polls =>
    if EndsRead crc args earlier poll then earlier ++ [poll] else heard (earlier ++ [poll]) polls

/-- The match after some payloads; a payload without an id byte raises when an id is expected. -/
def kept (payloads : List Bytes) : Py (Option Bytes) :=
  payloads.foldlM (keepMatch args.expectedMsgId) none

def unpackKept : Option Bytes → Py (Option Response)
  | none => .ok none
  | some framePayload => unpackMatch registry framePayload

theorem isPrefix_heard (polls earlier : List Poll) : earlier <+: heard crc args earlier polls := by
  induction polls generalizing earlier with
  | nil => exact List.prefix_rfl
  | cons poll polls ih =>
    rw [heard]
    split_ifs with hends
    · exact List.prefix_append _ _
    · exact (List.prefix_append _ _).trans (ih (earlier ++ [poll]))

theorem unframed_append_nil {poll : Poll} (h : poll.chunk = []) (polls : List Poll) :
    unframed crc (polls ++ [poll]) = unframed crc polls := by
  rw [unframed, List.map_append, List.map_singleton, h]
  exact Scanner.receive_append_nil _ _

theorem unframed_append (polls : List Poll) (poll : Poll) : unframed crc (polls ++ [poll]) =
    ((unframed crc polls).1 ++
        ((unframeScanner crc).drain ((unframed crc polls).2 ++ poll.chunk)).1,
      ((unframeScanner crc).drain ((unframed crc polls).2 ++ poll.chunk)).2) := by
  rw [unframed, List.map_append, List.map_singleton]
  exact Scanner.receive_append_singleton _ _ _

theorem unframed_isPrefix {polls more : List Poll} (h : polls <+: more) :
    (unframed crc polls).1 <+: (unframed crc more).1 := by
  obtain ⟨rest, rfl⟩ := h
  rw [unframed, unframed, List.map_append]
  exact Scanner.receive_append_fst _ _ _

theorem kept_append (payloads more : List Bytes) : kept args (payloads ++ more) = (do
    let matched ← kept args payloads
    more.foldlM (keepMatch args.expectedMsgId) matched) := List.foldlM_append

theorem kept_error {payloads more : List Bytes} {e : PyError} (h : kept args payloads = .error e)
    (hpre : payloads <+: more) : kept args more = .error e := by
  obtain ⟨rest, rfl⟩ := hpre
  rw [kept_append, h]
  rfl

theorem keepMatch_ok {expectedMsgId : Option ℕ} {matched t : Option Bytes} {p : Bytes}
    (h : keepMatch expectedMsgId matched p = .ok t) :
    t = if carries expectedMsgId p then some p else matched := by
  cases expectedMsgId with
  | none => cases h; rfl
  | some msgId =>
    cases p with
    | nil => cases h
    | cons b p =>
      cases h
      simp [carries]

theorem kept_newest {payloads : List Bytes} {t : Option Bytes} (h : kept args payloads = .ok t) :
    t = newest args.expectedMsgId payloads := by
  induction payloads using List.reverseRecOn generalizing t with
  | nil => cases h; rfl
  | append_singleton payloads p ih =>
    rw [kept_append] at h
    obtain ⟨matched, hm, h⟩ := bind_eq_ok h
    rw [List.foldlM_cons] at h
    obtain ⟨u, hu, h⟩ := bind_eq_ok h
    cases h
    rw [keepMatch_ok hu, ih hm]
    cases hc : carries args.expectedMsgId p <;> simp [newest, List.filter_append, hc]

theorem keepMatch_nonempty (matched : Option Bytes) {p : Bytes} (hp : p ≠ []) :
    ∃ t, keepMatch args.expectedMsgId matched p = .ok t := by
  obtain ⟨b, rest, rfl⟩ := List.exists_cons_of_ne_nil hp
  cases args.expectedMsgId <;> exact ⟨_, rfl⟩

theorem kept_nonempty {payloads : List Bytes} (h : ∀ p ∈ payloads, p ≠ []) :
    kept args payloads = .ok (newest args.expectedMsgId payloads) := by
  have hok : ∃ t, kept args payloads = .ok t := by
    induction payloads using List.reverseRecOn with
    | nil => exact ⟨none, rfl⟩
    | append_singleton payloads p ih =>
      obtain ⟨matched, hm⟩ := ih (fun q hq => h q (List.mem_append_left _ hq))
      obtain ⟨t, ht⟩ := keepMatch_nonempty args matched (h p (by simp))
      refine ⟨t, ?_⟩
      rw [kept_append, hm, ok_bind, List.foldlM_cons, ht]
      rfl
  obtain ⟨t, ht⟩ := hok
  rw [ht, kept_newest args ht]

theorem lastArrival_append_nil {poll : Poll} (h : poll.chunk = []) (polls : List Poll) :
    lastArrival (polls ++ [poll]) = lastArrival polls := by
  simp [lastArrival, List.filter_append, h]

theorem lastArrival_append {poll : Poll} (h : poll.chunk ≠ []) (polls : List Poll) :
    lastArrival (polls ++ [poll]) = some poll.now := by
  simp [lastArrival, List.filter_append, h]

/-- The state of the loop after some rounds that did not end it. -/
structure StandsAfter (polls : List Poll) (s : ReadState) : Prop where
  matched : kept args (unframed crc polls).1 = .ok s.matched
  payload : s.payload = (unframed crc polls).2
  tQuiet : s.tQuiet = lastArrival polls

theorem StandsAfter.newest {polls : List Poll} {s : ReadState}
    (h : StandsAfter crc args polls s) :
    s.matched = newest args.expectedMsgId (unframed crc polls).1 := kept_newest args h.matched

theorem afterLoop_eq (hs : args.expectString = false) (s : ReadState) :
    afterLoop crc registry args s = unpackKept registry s.matched := by
  rw [afterLoop, afterLoopWith, if_neg (by rw [hs]; decide)]
  cases s.matched <;> rfl

/-- A round that finds no bytes. -/
theorem pollRound_idle {polls : List Poll} {s : ReadState} (h : StandsAfter crc args polls s)
    {poll : Poll} (hidle : poll.chunk = []) (hs : args.expectString = false) :
    (EndsRead crc args polls poll ∧ ∃ e, pollRound crc registry args s poll = .done (.ok e) ∧
      e.result crc registry args = unpackKept registry s.matched) ∨
    (¬ EndsRead crc args polls poll ∧ pollRound crc registry args s poll = .next s ∧
      StandsAfter crc args (polls ++ [poll]) s) := by
  have hchunk : ¬ poll.chunk ≠ [] := not_not.mpr hidle
  rw [EndsRead, if_neg hchunk, ← h.payload, ← h.newest, ← h.tQuiet, pollRound_eq,
    if_neg hchunk]
  by_cases hprobe : s.payload = [] ∧ args.expectAnything = false ∧ s.matched = none
  · rw [if_pos hprobe]
    refine Or.inl ⟨Or.inl hprobe, _, rfl, ?_⟩
    rw [hprobe.2.2]
    rfl
  · rw [if_neg hprobe]
    by_cases hquiet : s.tQuiet.any (fun tQuiet => decide (args.timeout < poll.now - tQuiet))
    · rw [if_pos hquiet]
      exact Or.inl ⟨Or.inr hquiet, _, rfl, afterLoop_eq crc registry args hs s⟩
    · rw [if_neg hquiet]
      refine Or.inr ⟨not_or.mpr ⟨hprobe, hquiet⟩, rfl, ?_, ?_, ?_⟩
      · rw [unframed_append_nil crc hidle]
        exact h.matched
      · rw [unframed_append_nil crc hidle]
        exact h.payload
      · rw [lastArrival_append_nil hidle]
        exact h.tQuiet

/-- A round that found bytes raises, or drains them, and then returns its match or goes on. -/
theorem takeChunk_cases (hs : args.expectString = false) (s : ReadState) (chunk : Bytes) (now : ℚ) :
    (∃ e, ((unframeScanner crc).drain (s.payload ++ chunk)).1.foldlM
        (keepMatch args.expectedMsgId) s.matched = .error e ∧
      takeChunk crc registry args s chunk now = .done (.error e)) ∨
    ∃ matched, ((unframeScanner crc).drain (s.payload ++ chunk)).1.foldlM
        (keepMatch args.expectedMsgId) s.matched = .ok matched ∧
      ((∃ framePayload, matched = some framePayload ∧
          ((unframeScanner crc).drain (s.payload ++ chunk)).2 = [] ∧
          takeChunk crc registry args s chunk now =
            .done (.returned <$> unpackMatch registry framePayload)) ∨
        ¬ (matched ≠ none ∧ ((unframeScanner crc).drain (s.payload ++ chunk)).2 = []) ∧
        takeChunk crc registry args s chunk now =
          .next ⟨((unframeScanner crc).drain (s.payload ++ chunk)).2, matched, some now⟩) := by
  have hdrain := drain_eq crc (keepMatch args.expectedMsgId) s.matched (s.payload ++ chunk)
  rw [takeChunk_eq, if_neg (by rw [hs]; decide), hdrain]
  cases hfold : ((unframeScanner crc).drain (s.payload ++ chunk)).1.foldlM
      (keepMatch args.expectedMsgId) s.matched with
  | error e => exact Or.inl ⟨e, rfl, rfl⟩
  | ok matched =>
    refine Or.inr ⟨matched, rfl, ?_⟩
    cases matched with
    | none => exact Or.inr ⟨fun h => h.1 rfl, rfl⟩
    | some framePayload =>
      cases hrest : ((unframeScanner crc).drain (s.payload ++ chunk)).2 with
      | nil => exact Or.inl ⟨framePayload, rfl, rfl, rfl⟩
      | cons b rest => exact Or.inr ⟨fun h => List.cons_ne_nil _ _ h.2, rfl⟩

/-- A round that finds bytes. -/
theorem pollRound_chunk {polls : List Poll} {s : ReadState} (h : StandsAfter crc args polls s)
    {poll : Poll} (hchunk : poll.chunk ≠ []) (hs : args.expectString = false) :
    (∃ e, kept args (unframed crc (polls ++ [poll])).1 = .error e ∧
      pollRound crc registry args s poll = .done (.error e)) ∨
    (EndsRead crc args polls poll ∧ ∃ framePayload,
      kept args (unframed crc (polls ++ [poll])).1 = .ok (some framePayload) ∧
      pollRound crc registry args s poll =
        .done (.returned <$> unpackMatch registry framePayload)) ∨
    (¬ EndsRead crc args polls poll ∧ ∃ s', pollRound crc registry args s poll = .next s' ∧
      StandsAfter crc args (polls ++ [poll]) s') := by
  have hround : pollRound crc registry args s poll =
      takeChunk crc registry args s poll.chunk poll.now := if_pos hchunk
  have hkept : kept args (unframed crc (polls ++ [poll])).1 =
      ((unframeScanner crc).drain (s.payload ++ poll.chunk)).1.foldlM
        (keepMatch args.expectedMsgId) s.matched := by
    rw [unframed_append, kept_append, h.matched, h.payload]
    rfl
  have hrest : ((unframeScanner crc).drain (s.payload ++ poll.chunk)).2 =
      (unframed crc (polls ++ [poll])).2 := by
    rw [unframed_append, h.payload]
  have hcases := takeChunk_cases crc registry args hs s poll.chunk poll.now
  rw [← hkept, hrest, ← hround] at hcases
  obtain ⟨e, hk, hdone⟩ | ⟨matched, hk, hcases⟩ := hcases
  · exact Or.inl ⟨e, hk, hdone⟩
  · have hends : EndsRead crc args polls poll ↔
        matched ≠ none ∧ (unframed crc (polls ++ [poll])).2 = [] := by
      rw [EndsRead, if_pos hchunk, ← kept_newest args hk]
    rw [hends]
    obtain ⟨framePayload, rfl, hnil, hdone⟩ | ⟨hgo, hnext⟩ := hcases
    · exact Or.inr (Or.inl ⟨⟨Option.some_ne_none _, hnil⟩, framePayload, hk, hdone⟩)
    · exact Or.inr (Or.inr ⟨hgo, _, hnext, hk, rfl, (lastArrival_append hchunk polls).symm⟩)

theorem rounds_eq (hs : args.expectString = false) (polls earlier : List Poll) (s : ReadState)
    (h : StandsAfter crc args earlier s) :
    (do
      let loopExit ← rounds registry args (.unlimited crc) s polls
      loopExit.result crc registry args) = (do
      let matched ← kept args (unframed crc (heard crc args earlier polls)).1
      unpackKept registry matched) := by
  induction polls generalizing earlier s with
  | nil =>
    rw [rounds, heard, h.matched]
    exact afterLoop_eq crc registry args hs s
  | cons poll polls ih =>
    have hunlimited : pollRoundWith registry (.unlimited crc) args s poll =
        pollRound crc registry args s poll := rfl
    rw [rounds, heard, hunlimited]
    by_cases hchunk : poll.chunk = []
    · obtain ⟨hends, e, hround, hresult⟩ | ⟨hends, hround, hnext⟩ :=
        pollRound_idle crc registry args h hchunk hs
      · rw [hround, if_pos hends, unframed_append_nil crc hchunk, h.matched]
        exact hresult
      · rw [hround, if_neg hends]
        exact ih _ s hnext
    · obtain ⟨e, hkept, hround⟩ | ⟨hends, p, hkept, hround⟩ | ⟨hends, s', hround, hnext⟩ :=
        pollRound_chunk crc registry args h hchunk hs
      · have hheard : earlier ++ [poll] <+: if EndsRead crc args earlier poll then earlier ++ [poll]
            else heard crc args (earlier ++ [poll]) polls := by
          split_ifs
          · exact List.prefix_rfl
          · exact isPrefix_heard crc args polls _
        rw [hround, kept_error args hkept (unframed_isPrefix crc hheard)]
        rfl
      · rw [hround, if_pos hends, hkept]
        change Except.bind (ReadExit.returned <$> unpackMatch registry p) _ = unpackMatch registry p
        cases unpackMatch registry p <;> rfl
      · rw [hround, if_neg hends]
        exact ih _ s' hnext

/-- A read of a message returns the newest match among the payloads that the unframer finds in the
chunks it hears, unpacked, and raises if one of these payloads cannot be compared. -/
theorem read_eq (line : Line) (hs : args.expectString = false) :
    read crc registry line args = (do
      let matched ← kept args
        (unframed crc (heard crc args [] (line.pollsBefore (line.start + args.maxWait)))).1
      unpackKept registry matched) := by
  rw [read, readWith, exec_readLoop]
  exact rounds_eq crc registry args hs _ [] _ ⟨rfl, rfl, rfl⟩

end PyVesc
