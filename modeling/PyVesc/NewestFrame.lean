import PyVesc.CleanStream
import PyVesc.Messages
import PyVesc.ReadOutcome

/-!
# The newest frame of a clean stream

A read of a message on a line that carries frames. However the frames are cut into arrivals, the
read returns the last of the matching ones that are complete when it ends, and it ends early only
between two frames.
-/

namespace PyVesc

variable (crc : Bytes → UInt16)

/-- The payloads whose frames lie within the first `n` bytes of the stream. -/
def complete : List Bytes → ℕ → List Bytes
  | [], _ => []
  | p :: ps, n =>
    if (frameBytes crc p).length ≤ n then p :: complete ps (n - (frameBytes crc p).length) else []

theorem complete_received {ps : List Bytes} {v : Bytes} {s : List Bytes × Bytes}
    (h : Scanner.Received (framed crc ps) v s) :
    s.1 = complete crc ps v.length ∧
      v = ((complete crc ps v.length).map (frameBytes crc)).flatten ++ s.2 := by
  obtain ⟨done, rest, hsplit, hv, hgot, hpart⟩ := h
  induction done generalizing ps v s with
  | nil =>
      rw [Scanner.stream_nil, List.nil_append] at hv
      have hnone : complete crc ps v.length = [] := by
        cases ps with
        | nil => rfl
        | cons p ps =>
            rw [complete, if_neg]
            obtain hnil | ⟨w, rest', hrest, hpre, hne⟩ := hpart
            · rw [hv, hnil, length_frameBytes, List.length_nil]
              omega
            · rw [hrest] at hsplit
              cases hsplit
              intro hle
              rw [hv] at hle
              exact hne (hpre.eq_of_length_le hle)
      rw [hnone]
      exact ⟨hgot, hv⟩
  | cons w done ih =>
      cases ps with
      | nil => cases hsplit
      | cons p ps =>
          rw [framed, List.map_cons, List.cons_append] at hsplit
          obtain ⟨rfl, htail⟩ := List.cons.inj hsplit
          rw [Scanner.stream_cons, List.append_assoc] at hv
          have hlen : v.length =
              (frameBytes crc p).length + (Scanner.stream done ++ s.2).length := by
            rw [hv, List.length_append]
          have hcomplete : complete crc (p :: ps) v.length =
              p :: complete crc ps (Scanner.stream done ++ s.2).length := by
            rw [complete, if_pos (by omega), hlen, Nat.add_sub_cancel_left]
          obtain ⟨hvalues, hstream⟩ :=
            ih (v := Scanner.stream done ++ s.2) (s := (Scanner.values done, s.2)) htail rfl rfl
              hpart
          rw [hcomplete, hgot, List.map_cons, List.flatten_cons, List.append_assoc, ← hstream]
          exact ⟨congrArg (p :: ·) hvalues, hv⟩

theorem isPrefix_complete (ps : List Bytes) (n : ℕ) : complete crc ps n <+: ps := by
  induction ps generalizing n with
  | nil => exact List.prefix_rfl
  | cons p ps ih =>
      rw [complete]
      split_ifs
      · exact List.cons_prefix_cons.mpr ⟨rfl, ih _⟩
      · exact List.nil_prefix

variable (registry : Registry) (args : ReadArgs) (line : Line)

/-- The bytes that arrive in the first rounds. -/
def Line.arrived (k : ℕ) : Bytes := (((List.range k).map line.polls).map Poll.chunk).flatten

/-- The number of rounds that look at the transport if the loop leaves in round `k`. -/
def Line.looks (deadline : ℚ) (k : ℕ) : ℕ :=
  if (line.polls k).check < deadline then k + 1 else k

/-- The read leaves its loop because a match has been found and nothing is left over, and not
because the line is idle or quiet or the deadline has passed. -/
def EarlyExit (loopExit : Py ReadExit) : Prop :=
  loopExit ≠ .ok (.returned none) ∧ ∀ s, loopExit ≠ .ok (.left s)

theorem standsAfter_next {polls : List Poll} {s s' : ReadState} (hs : args.expectString = false)
    (h : StandsAfter crc args polls s) {poll : Poll}
    (hround : pollRound crc registry args s poll = .next s') :
    StandsAfter crc args (polls ++ [poll]) s' := by
  by_cases hchunk : poll.chunk = []
  · obtain ⟨_, e, hdone, _⟩ | ⟨_, hnext, hafter⟩ := pollRound_idle crc registry args h hchunk hs
    · rw [hdone] at hround
      cases hround
    · rw [hnext] at hround
      cases hround
      exact hafter
  · obtain ⟨e, _, hdone⟩ | ⟨_, p, _, hdone⟩ | ⟨_, t, hnext, hafter⟩ :=
      pollRound_chunk crc registry args h hchunk hs
    · rw [hdone] at hround
      cases hround
    · rw [hdone] at hround
      cases hround
    · rw [hnext] at hround
      cases hround
      exact hafter

theorem standsAfter_stateAfter (hs : args.expectString = false) {k j : ℕ} {s : ReadState}
    (h : FiniteLoop.stateAfter (readTurn crc registry line args) (0, ⟨[], none, none⟩) k =
      some (j, s)) :
    j = k ∧ StandsAfter crc args ((List.range k).map line.polls) s := by
  induction k generalizing j s with
  | zero =>
      cases h
      exact ⟨rfl, rfl, rfl, rfl⟩
  | succ k ih =>
      obtain ⟨⟨i, t⟩, hk, hturn⟩ := FiniteLoop.stateAfter_succ h
      obtain ⟨rfl, hstands⟩ := ih hk
      rw [readTurn_eq] at hturn
      split_ifs at hturn with hcheck
      cases hround : pollRound crc registry args t (line.polls i) with
      | done r =>
          simp only [hround] at hturn
          cases hturn
      | next t' =>
          simp only [hround] at hturn
          cases hturn
          rw [List.range_succ, List.map_append, List.map_singleton]
          exact ⟨rfl, standsAfter_next crc registry args hs hstands hround⟩

theorem not_earlyExit_idle {s : ReadState} {poll : Poll} (hidle : poll.chunk = [])
    {r : Py ReadExit} (hround : pollRound crc registry args s poll = .done r) : ¬ EarlyExit r := by
  rintro ⟨hprobe, hquiet⟩
  rw [pollRound_eq, if_neg (not_not.mpr hidle)] at hround
  split_ifs at hround with h1 h2
  · cases hround
    exact hprobe rfl
  · cases hround
    exact hquiet s rfl

theorem exists_of_newest {expectedMsgId : Option ℕ} {payloads : List Bytes}
    (h : newest expectedMsgId payloads ≠ none) :
    ∃ p ∈ payloads, carries expectedMsgId p = true := by
  obtain ⟨p, hp⟩ := Option.ne_none_iff_exists'.mp h
  exact ⟨p, List.mem_filter.mp (List.mem_of_getLast? hp)⟩

/-- A round that ends the read settles its result by the chunks so far. -/
theorem pollRound_done {polls : List Poll} {s : ReadState} (hs : args.expectString = false)
    (h : StandsAfter crc args polls s) {poll : Poll} {r : Py ReadExit}
    (hround : pollRound crc registry args s poll = .done r) :
    (do
      let loopExit ← r
      loopExit.result crc registry args) = (do
      let matched ← kept args (unframed crc (polls ++ [poll])).1
      unpackKept registry matched) ∧
    (EarlyExit r → (∃ e, kept args (unframed crc (polls ++ [poll])).1 = .error e) ∨
      newest args.expectedMsgId (unframed crc (polls ++ [poll])).1 ≠ none ∧
        (unframed crc (polls ++ [poll])).2 = []) := by
  by_cases hchunk : poll.chunk = []
  · have hnot := not_earlyExit_idle crc registry args hchunk hround
    obtain ⟨hends, e, hdone, hresult⟩ | ⟨_, hnext, _⟩ :=
      pollRound_idle crc registry args h hchunk hs
    · rw [hdone] at hround
      cases hround
      rw [unframed_append_nil crc hchunk, h.matched]
      exact ⟨hresult, fun hearly => absurd hearly hnot⟩
    · rw [hnext] at hround
      cases hround
  · obtain ⟨e, hkept, hdone⟩ | ⟨hends, p, hkept, hdone⟩ | ⟨_, t, hnext, _⟩ :=
      pollRound_chunk crc registry args h hchunk hs
    · rw [hdone] at hround
      cases hround
      rw [hkept]
      exact ⟨rfl, fun _ => Or.inl ⟨e, rfl⟩⟩
    · rw [hdone] at hround
      cases hround
      rw [EndsRead, if_pos hchunk] at hends
      rw [hkept]
      refine ⟨?_, fun _ => Or.inr hends⟩
      change Except.bind (ReadExit.returned <$> unpackMatch registry p) _ = unpackMatch registry p
      cases unpackMatch registry p <;> rfl
    · rw [hnext] at hround
      cases hround

/-- A read is settled by the chunks of the rounds that look at the transport. -/
theorem read_endsAfter (hs : args.expectString = false) {k : ℕ} {r : Py ReadExit}
    (h : FiniteLoop.EndsAfter (readTurn crc registry line args) (0, ⟨[], none, none⟩) k r)
    {polls : List Poll} (hpolls : polls =
      (List.range (line.looks (line.start + args.maxWait) k)).map line.polls) :
    (do
      let loopExit ← r
      loopExit.result crc registry args) = (do
      let matched ← kept args (unframed crc polls).1
      unpackKept registry matched) ∧
    (EarlyExit r → (∃ e, kept args (unframed crc polls).1 = .error e) ∨
      newest args.expectedMsgId (unframed crc polls).1 ≠ none ∧ (unframed crc polls).2 = []) := by
  obtain ⟨⟨j, s⟩, hstate, hturn⟩ := h
  obtain ⟨rfl, hstands⟩ := standsAfter_stateAfter crc registry args line hs hstate
  rw [Line.looks] at hpolls
  rw [readTurn_eq] at hturn
  by_cases hcheck : (line.polls j).check < line.start + args.maxWait
  · rw [if_pos hcheck] at hturn hpolls
    rw [List.range_succ, List.map_append, List.map_singleton] at hpolls
    cases hround : pollRound crc registry args s (line.polls j) with
    | next t =>
        simp only [hround] at hturn
        cases hturn
    | done r' =>
        simp only [hround] at hturn
        cases hturn
        rw [hpolls]
        exact pollRound_done crc registry args hs hstands hround
  · rw [if_neg hcheck] at hturn hpolls
    cases hturn
    rw [hpolls, hstands.matched]
    exact ⟨afterLoop_eq crc registry args hs s, fun hearly => absurd rfl (hearly.2 s)⟩

variable {crc registry args line}

/-- The read ends. Its value is the newest matching payload, unpacked, among those whose frames are
complete in what has arrived by then, and an early exit is between two frames behind a match. -/
theorem newest_frame_wins (hs : args.expectString = false) {ps : List Bytes}
    (hps : ∀ p ∈ ps, Framable p)
    (hline : ∀ k, line.arrived k <+: (ps.map (frameBytes crc)).flatten) :
    (∃ k r, FiniteLoop.EndsAfter (readTurn crc registry line args) (0, ⟨[], none, none⟩) k r) ∧
    ∀ k r, FiniteLoop.EndsAfter (readTurn crc registry line args) (0, ⟨[], none, none⟩) k r →
      ∀ v, v = line.arrived (line.looks (line.start + args.maxWait) k) →
        read crc registry line args =
            unpackKept registry (newest args.expectedMsgId (complete crc ps v.length)) ∧
          (EarlyExit r → v = ((complete crc ps v.length).map (frameBytes crc)).flatten ∧
            ∃ p ∈ complete crc ps v.length, carries args.expectedMsgId p = true) := by
  refine ⟨?_, ?_⟩
  · obtain ⟨k, hk⟩ := (readLoop crc registry line args).exists_endsAfter (0, ⟨[], none, none⟩)
    exact ⟨k, _, hk⟩
  · rintro k r hends v rfl
    have hread : (readLoop crc registry line args).exec (0, ⟨[], none, none⟩) = r :=
      FiniteLoop.exec_endsAfter _ hends
    obtain ⟨hvalue, hearly⟩ := read_endsAfter crc registry args line hs hends rfl
    have harrived := hline (line.looks (line.start + args.maxWait) k)
    rw [← stream_framed] at harrived
    have hreceived := Scanner.received_receive (reads_isPacket crc) (isPacket_framed crc hps) _
      harrived
    obtain ⟨hpayloads, hstream⟩ := complete_received crc hreceived
    change (unframed crc _).1 = _ at hpayloads
    have hnonempty : ∀ p ∈ (unframed crc
        ((List.range (line.looks (line.start + args.maxWait) k)).map line.polls)).1, p ≠ [] := by
      intro p hp
      rw [hpayloads] at hp
      exact (hps p ((isPrefix_complete crc ps _).subset hp)).1
    rw [kept_nonempty args hnonempty] at hvalue hearly
    rw [hpayloads] at hvalue hearly
    refine ⟨?_, ?_⟩
    · rw [read_exec, hread]
      exact hvalue
    · intro hexit
      obtain ⟨e, he⟩ | ⟨hmatch, hrest⟩ := hearly hexit
      · cases he
      · change (Scanner.receive _ _).2 = [] at hrest
        rw [hrest, List.append_nil] at hstream
        exact ⟨hstream, exists_of_newest hmatch⟩

theorem arrived_burst_succ (chunk : Bytes) (k : ℕ) :
    (Line.burst chunk).arrived (k + 1) = chunk := by
  induction k with
  | zero => simp [Line.arrived, Line.burst]
  | succ k ih =>
    rw [Line.arrived, List.range_succ, List.map_append, List.map_append, List.flatten_append]
    change (Line.burst chunk).arrived (k + 1) ++ _ = chunk
    rw [ih]
    simp [Line.burst]

theorem arrived_burst (chunk : Bytes) (k : ℕ) : (Line.burst chunk).arrived k <+: chunk := by
  cases k with
  | zero => exact List.nil_prefix
  | succ k => rw [arrived_burst_succ]

/-- The frames of the versions 5.3 and 6.2. -/
def twoVersions : Bytes := ([[0, 5, 3], [0, 6, 2]].map (frameBytes Crc16.xmodem)).flatten

/-- Two versions in one arrival. -/
theorem newest_frame_wins_burst :
    read Crc16.xmodem Messages.registry (.burst twoVersions) (.expecting 0) =
      .ok (some (.message ⟨Messages.getVersion, none,
        [("fw_version_minor", .int 2), ("fw_version_major", .int 6)]⟩)) := by
  obtain ⟨⟨k, r, hends⟩, hread⟩ := @newest_frame_wins Crc16.xmodem Messages.registry
    (.expecting 0) (.burst twoVersions) rfl [[0, 5, 3], [0, 6, 2]] (by decide) (arrived_burst _)
  obtain ⟨hvalue, _⟩ := hread k r hends _ rfl
  have hlooks : ∃ n, (Line.burst twoVersions).looks ((0 : ℚ) + 1 / 2) k = n + 1 := by
    rw [Line.looks]
    by_cases hcheck : ((Line.burst twoVersions).polls k).check < (0 : ℚ) + 1 / 2
    · exact ⟨k, if_pos hcheck⟩
    · rw [if_neg hcheck]
      cases k with
      | zero => norm_num [Line.burst] at hcheck
      | succ k => exact ⟨k, rfl⟩
  obtain ⟨n, hn⟩ := hlooks
  change read Crc16.xmodem Messages.registry (.burst twoVersions) (.expecting 0) =
    unpackKept Messages.registry (newest (some 0) (complete Crc16.xmodem [[0, 5, 3], [0, 6, 2]]
      ((Line.burst twoVersions).arrived ((Line.burst twoVersions).looks
        ((0 : ℚ) + 1 / 2) k)).length)) at hvalue
  have hnewest : newest (some 0) (complete Crc16.xmodem [[0, 5, 3], [0, 6, 2]]
      twoVersions.length) = some [0, 6, 2] := by decide +kernel
  rw [hn, arrived_burst_succ, hnewest] at hvalue
  exact hvalue

end PyVesc
