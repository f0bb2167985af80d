import PyVesc.ReadOutcome
import PyVesc.RecoveryDepth

/-!
# Reading under a limit of the nested calls

The interpreter allows so many nested calls to each call of `unframe`. A read under the limit ends
like one without, as long as every buffer that it unframes gets by with them, and raises otherwise.
-/

namespace PyVesc

variable (crc : Bytes → UInt16) (calls : ℕ)

/-- Every buffer that is unframed in some rounds gets by with the calls: what was left over
together with what has arrived, and then what the unframer leaves of it. -/
def CallsSuffice (polls : List Poll) : Prop :=
  ∀ earlier poll, earlier ++ [poll] <+: polls → poll.chunk ≠ [] →
    ∀ b ∈ (unframeScanner crc).scanned ((unframed crc earlier).2 ++ poll.chunk),
      callsNeeded crc b ≤ calls

/-- The rounds that a read makes. -/
def Line.heard (args : ReadArgs) (line : Line) : List Poll :=
  PyVesc.heard crc args [] (line.pollsBefore (line.start + args.maxWait))

variable {crc calls}

theorem within_unframe (b : Bytes) : (Unframer.within crc calls).unframe b =
    if callsNeeded crc b ≤ calls then .ok (scan crc b) else .error .recursionError :=
  unpack_calls crc calls b

section Drain
variable {σ : Type*} {visit : σ → Bytes → Py σ}

/-- A round on a buffer that gets by with the calls is one without a limit. -/
theorem drainTurn_within {s : σ × Bytes} (h : callsNeeded crc s.2 ≤ calls) :
    drainTurnWith (.within crc calls) visit s = drainTurn crc visit s := by
  have hunlimited : (Unframer.unlimited crc).unframe s.2 = .ok (scan crc s.2) :=
    unframe_eq_scan crc s.2
  rw [drainTurn, drainTurnWith, drainTurnWith, within_unframe, if_pos h, hunlimited]

theorem drainWithin_exhausted {s : σ × Bytes} (h : ¬ callsNeeded crc s.2 ≤ calls) :
    drainWith (.within crc calls) visit s = .error .recursionError := by
  apply (drainLoopWith (.within crc calls) visit).exec_done
  change drainTurnWith (.within crc calls) visit s = _
  rw [drainTurnWith, within_unframe, if_neg h]

theorem drainWithin_done {s : σ × Bytes} {r : Py (σ × Bytes)} (h : callsNeeded crc s.2 ≤ calls)
    (hturn : drainTurn crc visit s = .done r) :
    drainWith (.within crc calls) visit s = r ∧ drain crc visit s = r := by
  constructor
  · apply (drainLoopWith (.within crc calls) visit).exec_done
    exact (drainTurn_within h).trans hturn
  · exact (drainLoop crc visit).exec_done hturn

theorem drainWithin_next {s s' : σ × Bytes} (h : callsNeeded crc s.2 ≤ calls)
    (hturn : drainTurn crc visit s = .next s') :
    drainWith (.within crc calls) visit s = drainWith (.within crc calls) visit s' ∧
      drain crc visit s = drain crc visit s' := by
  constructor
  · apply (drainLoopWith (.within crc calls) visit).exec_next
    exact (drainTurn_within h).trans hturn
  · exact (drainLoop crc visit).exec_next hturn

theorem drainTurn_cases (s : σ) (b : Bytes) :
    (scan crc b).2 = 0 ∧ drainTurn crc visit (s, b) = .done (.ok (s, b)) ∨
    (scan crc b).2 ≠ 0 ∧ ((∃ e, drainTurn crc visit (s, b) = .done (.error e)) ∨
      ∃ t, drainTurn crc visit (s, b) = .next (t, b.drop (scan crc b).2)) := by
  have hunlimited : (Unframer.unlimited crc).unframe b = .ok (scan crc b) :=
    unframe_eq_scan crc b
  rw [drainTurn, drainTurnWith, hunlimited]
  by_cases hc : (scan crc b).2 = 0
  · exact Or.inl ⟨hc, if_pos hc⟩
  · refine Or.inr ⟨hc, ?_⟩
    dsimp only
    rw [if_neg hc]
    cases (scan crc b).1 with
    | none => exact Or.inr ⟨s, rfl⟩
    | some p =>
      dsimp only
      cases visit s p with
      | error e => exact Or.inl ⟨e, rfl⟩
      | ok t => exact Or.inr ⟨t, rfl⟩

/-- Draining under the limit gives what it gives without, or an exception. -/
theorem drainWithin_cases (s : σ) (b : Bytes) :
    ((∀ v ∈ (unframeScanner crc).scanned b, callsNeeded crc v ≤ calls) ∧
      drainWith (.within crc calls) visit (s, b) = drain crc visit (s, b)) ∨
    (¬ ∀ v ∈ (unframeScanner crc).scanned b, callsNeeded crc v ≤ calls) ∧
      ∃ e, drainWith (.within crc calls) visit (s, b) = .error e := by
  induction hn : b.length using Nat.strong_induction_on generalizing s b with
  | _ n ih =>
    subst hn
    obtain ⟨hc, hturn⟩ | ⟨hc, hturn⟩ := @drainTurn_cases crc σ visit s b
    · rw [(unframeScanner crc).scanned_stop hc, List.forall_mem_singleton]
      by_cases hneeded : callsNeeded crc b ≤ calls
      · obtain ⟨hwithin, hunlimited⟩ := drainWithin_done hneeded hturn
        exact Or.inl ⟨hneeded, hwithin.trans hunlimited.symm⟩
      · exact Or.inr ⟨hneeded, _, drainWithin_exhausted hneeded⟩
    · rw [(unframeScanner crc).scanned_step hc, List.forall_mem_cons]
      by_cases hneeded : callsNeeded crc b ≤ calls
      · obtain ⟨e, hturn⟩ | ⟨t, hturn⟩ := hturn
        · obtain ⟨hwithin, hunlimited⟩ := drainWithin_done hneeded hturn
          by_cases hrest : ∀ v ∈ (unframeScanner crc).scanned (b.drop (scan crc b).2),
              callsNeeded crc v ≤ calls
          · exact Or.inl ⟨⟨hneeded, hrest⟩, hwithin.trans hunlimited.symm⟩
          · exact Or.inr ⟨fun h => hrest h.2, e, hwithin⟩
        · obtain ⟨hwithin, hunlimited⟩ := drainWithin_next hneeded hturn
          rw [hwithin, hunlimited]
          obtain ⟨hrest, hsame⟩ | ⟨hrest, hraised⟩ := ih _ (length_drop_scan crc hc) t _ rfl
          · exact Or.inl ⟨⟨hneeded, hrest⟩, hsame⟩
          · exact Or.inr ⟨fun h => hrest h.2, hraised⟩
      · exact Or.inr ⟨fun h => hneeded h.1, _, drainWithin_exhausted hneeded⟩

end Drain

/-! ### Rounds under the limit -/

section Rounds
variable (registry : Registry) {args : ReadArgs}

/-- A round gives what it gives without a limit, or an exception. -/
theorem pollRoundWithin_cases (hs : args.expectString = false) (s : ReadState) (poll : Poll) :
    ((poll.chunk ≠ [] → ∀ v ∈ (unframeScanner crc).scanned (s.payload ++ poll.chunk),
        callsNeeded crc v ≤ calls) ∧
      pollRoundWith registry (.within crc calls) args s poll =
        pollRound crc registry args s poll) ∨
    (poll.chunk ≠ [] ∧ ¬ ∀ v ∈ (unframeScanner crc).scanned (s.payload ++ poll.chunk),
        callsNeeded crc v ≤ calls) ∧
      ∃ e, pollRoundWith registry (.within crc calls) args s poll = .done (.error e) := by
  by_cases hchunk : poll.chunk = []
  · refine Or.inl ⟨fun h => absurd hchunk h, ?_⟩
    rw [pollRound_eq, pollRoundWith, if_neg (not_not.mpr hchunk), if_neg (not_not.mpr hchunk)]
  · rw [pollRound_eq, pollRoundWith, if_pos hchunk, if_pos hchunk, takeChunk_eq, takeChunkWith,
      if_neg (by rw [hs]; decide), if_neg (by rw [hs]; decide)]
    obtain ⟨hsuffice, hsame⟩ | ⟨hexceed, e, hraised⟩ := @drainWithin_cases crc calls _
      (keepMatch args.expectedMsgId) s.matched (s.payload ++ poll.chunk)
    · refine Or.inl ⟨fun _ => hsuffice, ?_⟩
      rw [hsame]
    · refine Or.inr ⟨⟨hchunk, hexceed⟩, e, ?_⟩
      rw [hraised]

theorem pollRoundWithin_exhausted (hs : args.expectString = false) {s : ReadState} {poll : Poll}
    (hchunk : poll.chunk ≠ []) (h : ¬ callsNeeded crc (s.payload ++ poll.chunk) ≤ calls) :
    pollRoundWith registry (.within crc calls) args s poll = .done (.error .recursionError) := by
  rw [pollRoundWith, if_pos hchunk, takeChunkWith, if_neg (by rw [hs]; decide)]
  rw [drainWithin_exhausted h]

theorem CallsSuffice.append {polls : List Poll} (h : CallsSuffice crc calls polls) {poll : Poll}
    (hpoll : poll.chunk ≠ [] →
      ∀ b ∈ (unframeScanner crc).scanned ((unframed crc polls).2 ++ poll.chunk),
        callsNeeded crc b ≤ calls) : CallsSuffice crc calls (polls ++ [poll]) := by
  intro earlier next hbegins
  obtain heq | hbegins := List.prefix_concat_iff.mp hbegins
  · obtain ⟨rfl, hlast⟩ := List.append_inj' heq rfl
    cases hlast
    exact hpoll
  · exact h earlier next hbegins

theorem CallsSuffice.mono {polls more : List Poll} (h : CallsSuffice crc calls more)
    (hbegins : polls <+: more) : CallsSuffice crc calls polls :=
  fun earlier poll hpoll => h earlier poll (hpoll.trans hbegins)

/-- A round raises, or is the last that is heard, or leads to the next one. -/
theorem pollRound_heard (hs : args.expectString = false) {earlier : List Poll} {s : ReadState}
    (h : StandsAfter crc args earlier s) (poll : Poll) (polls : List Poll) :
    (∃ e, pollRound crc registry args s poll = .done (.error e)) ∨
    (∃ r, pollRound crc registry args s poll = .done r ∧
      heard crc args earlier (poll :: polls) = earlier ++ [poll]) ∨
    ∃ s', pollRound crc registry args s poll = .next s' ∧
      StandsAfter crc args (earlier ++ [poll]) s' ∧
      heard crc args earlier (poll :: polls) = heard crc args (earlier ++ [poll]) polls := by
  rw [heard]
  by_cases hchunk : poll.chunk = []
  · obtain ⟨hends, e, hround, _⟩ | ⟨hends, hround, hnext⟩ :=
      pollRound_idle crc registry args h hchunk hs
    · exact Or.inr (Or.inl ⟨_, hround, if_pos hends⟩)
    · exact Or.inr (Or.inr ⟨s, hround, hnext, if_neg hends⟩)
  · obtain ⟨e, _, hround⟩ | ⟨hends, p, _, hround⟩ | ⟨hends, s', hround, hnext⟩ :=
      pollRound_chunk crc registry args h hchunk hs
    · exact Or.inl ⟨e, hround⟩
    · exact Or.inr (Or.inl ⟨_, hround, if_pos hends⟩)
    · exact Or.inr (Or.inr ⟨s', hround, hnext, if_neg hends⟩)

theorem prefix_heard_cons (earlier : List Poll) (poll : Poll) (polls : List Poll) :
    earlier ++ [poll] <+: heard crc args earlier (poll :: polls) := by
  rw [heard]
  split_ifs
  · exact List.prefix_rfl
  · exact isPrefix_heard crc args polls _

theorem roundsWithin_cases (hs : args.expectString = false) (polls earlier : List Poll)
    (s : ReadState) (h : StandsAfter crc args earlier s)
    (hearlier : CallsSuffice crc calls earlier) :
    (CallsSuffice crc calls (heard crc args earlier polls) ∧
      rounds registry args (.within crc calls) s polls =
        rounds registry args (.unlimited crc) s polls) ∨
    ¬ CallsSuffice crc calls (heard crc args earlier polls) ∧
      ∃ e, rounds registry args (.within crc calls) s polls = .error e := by
  induction polls generalizing earlier s with
  | nil => exact Or.inl ⟨hearlier, rfl⟩
  | cons poll polls ih =>
    have hunlimited : pollRoundWith registry (.unlimited crc) args s poll =
        pollRound crc registry args s poll := rfl
    rw [rounds, rounds, hunlimited]
    obtain ⟨hpoll, hsame⟩ | ⟨⟨hchunk, hexceed⟩, e, hraised⟩ :=
      @pollRoundWithin_cases crc calls registry args hs s poll
    · rw [h.payload] at hpoll
      have hmore := hearlier.append hpoll
      rw [hsame]
      obtain ⟨e, hround⟩ | ⟨r, hround, hheard⟩ | ⟨s', hround, hnext, hheard⟩ :=
        pollRound_heard registry hs h poll polls
      · rw [hround]
        by_cases hall : CallsSuffice crc calls (heard crc args earlier (poll :: polls))
        · exact Or.inl ⟨hall, rfl⟩
        · exact Or.inr ⟨hall, e, rfl⟩
      · rw [hround, hheard]
        exact Or.inl ⟨hmore, rfl⟩
      · rw [hround, hheard]
        exact ih _ s' hnext hmore
    · rw [hraised]
      refine Or.inr ⟨fun hall => hexceed ?_, e, rfl⟩
      rw [h.payload]
      exact hall earlier poll (prefix_heard_cons earlier poll polls) hchunk

end Rounds

/-- Only a string is unframed behind the loop. -/
theorem resultWith_eq (registry : Registry) {args : ReadArgs} (hs : args.expectString = false)
    (U V : Unframer) (loopExit : ReadExit) :
    loopExit.resultWith registry U args = loopExit.resultWith registry V args := by
  cases loopExit with
  | returned response => rfl
  | left s =>
    rw [ReadExit.resultWith, ReadExit.resultWith, afterLoopWith, afterLoopWith,
      if_neg (by rw [hs]; decide), if_neg (by rw [hs]; decide)]

/-- A read under the limit returns what it returns without, if the calls suffice in the rounds that
it hears, and raises otherwise. -/
theorem readWithin_cases (registry : Registry) {args : ReadArgs} (line : Line)
    (hs : args.expectString = false) :
    (CallsSuffice crc calls (line.heard crc args) ∧
      readWithin crc registry line calls args = read crc registry line args) ∨
    ¬ CallsSuffice crc calls (line.heard crc args) ∧
      ∃ e, readWithin crc registry line calls args = .error e := by
  have hnone : CallsSuffice crc calls [] := by
    intro earlier poll hbegins
    exact absurd (List.prefix_nil.mp hbegins) (by simp)
  rw [readWithin, readWith, read, readWith, exec_readLoop, exec_readLoop]
  obtain ⟨hall, hsame⟩ | ⟨hexceed, e, hraised⟩ := roundsWithin_cases registry hs
    (line.pollsBefore (line.start + args.maxWait)) [] ⟨[], none, none⟩ ⟨rfl, rfl, rfl⟩ hnone
  · refine Or.inl ⟨hall, ?_⟩
    rw [hsame]
    exact bind_congr fun loopExit => resultWith_eq registry hs _ _ loopExit
  · refine Or.inr ⟨hexceed, e, ?_⟩
    rw [hraised]
    rfl

/-! ### Arrivals that do no harm -/

/-- Short arrivals need few calls. -/
theorem callsSuffice_of_length {polls : List Poll}
    (h : 2 * ((polls.map Poll.chunk).flatten.length - 1) + 2 ≤ calls) :
    CallsSuffice crc calls polls := by
  rintro earlier poll ⟨later, rfl⟩ _ b hb
  have hlen := (unframeScanner crc).mem_scanned_length hb
  have hheld := ((unframeScanner crc).receive_snd_isSuffix (earlier.map Poll.chunk)).length_le
  have hcalls := @callsNeeded_le_length crc b
  simp only [List.map_append, List.flatten_append, List.map_singleton, List.flatten_singleton,
    List.length_append] at h
  rw [List.length_append] at hlen
  change ((unframed crc earlier).2).length ≤ _ at hheld
  omega

theorem callsNeeded_packet {w v p : Bytes} (hw : IsPacket crc w p) (hbegins : w <+: v) :
    callsNeeded crc v = 1 := by
  obtain ⟨t, rfl⟩ := hbegins
  obtain ⟨h, n, hp, _⟩ := hw
  exact if_pos (Or.inr (hasPacket_iff.mpr ⟨h, n, hp.append crc t⟩))

theorem callsNeeded_incomplete {ws : List (Bytes × Bytes)} (hws : ∀ w ∈ ws, IsPacket crc w.1 w.2)
    {u : Bytes} (hu : Scanner.Partial ws u) : callsNeeded crc u = 1 := by
  refine if_pos (Or.inl ?_)
  obtain hnil | ⟨w, rest, rfl, hpre, hne⟩ := hu
  · exact Or.inl hnil
  · by_cases hnil : u = []
    · exact Or.inl hnil
    · obtain ⟨h, n, hp, hlen, _⟩ := hws w List.mem_cons_self
      exact Or.inr (headIncomplete_of_beginning hp.header hlen hpre hne hnil)

/-- In a stream of whole packets every buffer that is unframed starts with a packet or with a
beginning of one, and one call is enough. -/
theorem callsSuffice_packets {ws : List (Bytes × Bytes)} (hws : ∀ w ∈ ws, IsPacket crc w.1 w.2)
    {polls : List Poll} (hpolls : (polls.map Poll.chunk).flatten <+: Scanner.stream ws)
    (hcalls : 1 ≤ calls) : CallsSuffice crc calls polls := by
  rintro earlier poll ⟨later, rfl⟩ _ b hb
  have hmore : (earlier.map Poll.chunk).flatten ++ poll.chunk <+: Scanner.stream ws := by
    rw [List.map_append, List.map_append, List.flatten_append, List.flatten_append,
      List.map_singleton, List.flatten_singleton] at hpolls
    exact (List.prefix_append _ _).trans hpolls
  obtain ⟨done, rest, rfl, hv, _, _⟩ := Scanner.received_receive (reads_isPacket crc) hws
    (earlier.map Poll.chunk) ((List.prefix_append _ _).trans hmore)
  rw [hv, Scanner.stream_append, List.append_assoc, List.prefix_append_right_inj] at hmore
  obtain ⟨new, last, u, rfl, hnew, hu⟩ := Scanner.prefix_stream_split rest hmore
  change b ∈ (unframeScanner crc).scanned
    (((unframeScanner crc).receive (earlier.map Poll.chunk)).2 ++ poll.chunk) at hb
  rw [hnew] at hb
  have hnews : ∀ w ∈ new, IsPacket crc w.1 w.2 := fun w hw => hws w (by simp [hw])
  have hlast : ∀ w ∈ last, IsPacket crc w.1 w.2 := fun w hw => hws w (by simp [hw])
  obtain ⟨w, hw, hpre⟩ | rfl := Scanner.scanned_stream (reads_isPacket crc) hnews hlast hu hb
  · rw [callsNeeded_packet (hnews w hw) hpre]
    exact hcalls
  · rw [callsNeeded_incomplete hlast hu]
    exact hcalls

end PyVesc
