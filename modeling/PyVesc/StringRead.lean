import PyVesc.NewestFrame
import PyVesc.ReplyStrings

/-!
# Reads of strings

A read of a string collects what arrives until the line has been quiet for a while or the deadline
has passed, and then it decodes what it has. Of an answer that spans several frames it returns the
parts whose frames are complete by then, joined. Nothing in the result tells whether there were to
be more.
-/

namespace PyVesc

/-! ### What is decoded -/

section Decode
variable {crc : Bytes → UInt16} {registry : Registry}

theorem decodeTurn_eq (s : DecodeState) : decodeTurn crc s =
    if (scan crc s.buffer).2 = 0 then .done (.ok s)
    else .next ⟨s.buffer.drop (scan crc s.buffer).2, s.messages ++ (scan crc s.buffer).1.toList,
      s.consumedTotal + (scan crc s.buffer).2,
      s.msgPayloadTotal ++ (scan crc s.buffer).1.getD []⟩ := by
  have hunframe : (Unframer.unlimited crc).unframe s.buffer = .ok (scan crc s.buffer) :=
    unframe_eq_scan crc s.buffer
  rw [decodeTurn, decodeTurnWith, hunframe]
  by_cases hpos : s.buffer.length > 0
  · rw [if_pos hpos]
  · have hnil : s.buffer = [] := List.eq_nil_of_length_eq_zero (by omega)
    have hstop : (scan crc []).2 = 0 := (unframeScanner crc).scan_nil
    rw [if_neg hpos, hnil, if_pos hstop]

/-- The loop of `decode` collects the payloads that the scanner drains from the buffer. -/
theorem decodeLoop_drain (s : DecodeState) : ∃ n, (decodeLoop crc).exec s =
    .ok ⟨((unframeScanner crc).drain s.buffer).2,
      s.messages ++ ((unframeScanner crc).drain s.buffer).1, n,
      s.msgPayloadTotal ++ ((unframeScanner crc).drain s.buffer).1.flatten⟩ := by
  refine (decodeLoop crc).exec_induction (P := fun s r => ∃ n, r =
    .ok ⟨((unframeScanner crc).drain s.buffer).2,
      s.messages ++ ((unframeScanner crc).drain s.buffer).1, n,
      s.msgPayloadTotal ++ ((unframeScanner crc).drain s.buffer).1.flatten⟩) ?_ ?_ s
  · intro s r hturn
    change decodeTurn crc s = _ at hturn
    rw [decodeTurn_eq] at hturn
    split_ifs at hturn with hstop
    cases hturn
    refine ⟨s.consumedTotal, ?_⟩
    rw [(unframeScanner crc).drain_stop hstop, List.append_nil, List.flatten_nil, List.append_nil]
  · intro s s' hturn ih
    change decodeTurn crc s = _ at hturn
    rw [decodeTurn_eq] at hturn
    split_ifs at hturn with hstop
    cases hturn
    obtain ⟨n, hn⟩ := ih
    refine ⟨n, ?_⟩
    rw [hn, (unframeScanner crc).drain_step hstop, unframeScanner_scan]
    cases (scan crc s.buffer).1 with
    | none => simp
    | some p => simp

/-- A part of a string for each of the drained frames, and their messages. -/
theorem decode_drained {cls : MessageClass} {f : Field} (h : LoneString registry cls f)
    (hscalar : f.scalar = some (-1)) {buffer : Bytes} {parts : List Bytes}
    (hdrain : ((unframeScanner crc).drain buffer).1 = parts.map (partPayload cls)) :
    ∃ n total, decode crc registry buffer true =
      .ok (if parts = [] then none else some (.byteString parts.flatten), n, total) := by
  obtain ⟨n, hloop⟩ := @decodeLoop_drain crc ⟨buffer, [], 0, []⟩
  rw [List.nil_append, List.nil_append, hdrain] at hloop
  have hpart : ∀ s ∈ parts, ∃ v, f.Sends v (.bytes s) ∧
      ∀ got, f.Gets (.bytes s) got → got = .bytes s := by
    intro s hs
    refine ⟨.bytes s, .byteString h.format hscalar, ?_⟩
    intro got hgot
    cases hgot with
    | byteString => rfl
    | text _ hminus _ => exact absurd hscalar hminus
  obtain ⟨msgs, hunpack, hget⟩ := h.messages hpart
  have hmsgs : (parts.map (partPayload cls)).mapM
      (fun p => VESCMessage.unpack registry p (!true)) = .ok msgs := by
    rw [List.mapM_map]
    exact mapM_eq_ok_of_forall₂ (hunpack.imp fun s msg hmsg => hmsg.1)
  have hcombine := combine_byteStrings h.format hscalar hget
  refine ⟨n, (parts.map (partPayload cls)).flatten, ?_⟩
  simp only [decode_eq, hloop, ok_bind, hmsgs]
  cases hunpack with
  | nil => rfl
  | @cons s msg _ _ hfirst _ =>
    have hfields : msg.cls.recvFields.getD [] = [f] := by rw [hfirst.2, h.fields]; rfl
    simp only [if_pos, hfields, hcombine, ok_bind]
    rfl

end Decode

/-! ### What is collected -/

section Read
variable (crc : Bytes → UInt16) (registry : Registry) (args : ReadArgs) (line : Line)

/-- The state of the loop after some rounds of a read of a string. -/
structure Collected (k : ℕ) (s : ReadState) : Prop where
  payload : s.payload = line.arrived k
  matched : s.matched = none
  tQuiet : s.tQuiet = lastArrival ((List.range k).map line.polls)

variable {crc registry args line}

theorem Line.arrived_succ (k : ℕ) :
    line.arrived (k + 1) = line.arrived k ++ (line.polls k).chunk := by
  rw [Line.arrived, List.range_succ, List.map_append, List.map_append, List.flatten_append]
  simp [Line.arrived]

theorem Collected.round (hs : args.expectString = true) (ha : args.expectAnything = true) {k : ℕ}
    {s : ReadState} (h : Collected line k s) :
    (∃ s', pollRound crc registry args s (line.polls k) = .next s' ∧ Collected line (k + 1) s') ∨
    ∃ tQuiet, lastArrival ((List.range k).map line.polls) = some tQuiet ∧
      args.timeout < (line.polls k).now - tQuiet ∧
      pollRound crc registry args s (line.polls k) = .done (.ok (.left s)) := by
  have hpolls : (List.range (k + 1)).map line.polls =
      (List.range k).map line.polls ++ [line.polls k] := by
    rw [List.range_succ, List.map_append, List.map_singleton]
  by_cases hchunk : (line.polls k).chunk = []
  · have hsame : Collected line (k + 1) s := by
      refine ⟨?_, h.matched, ?_⟩
      · rw [line.arrived_succ, hchunk, List.append_nil]
        exact h.payload
      · rw [hpolls, lastArrival_append_nil hchunk]
        exact h.tQuiet
    rw [pollRound_eq, if_neg (not_not.mpr hchunk), if_neg (by rw [ha]; simp), h.tQuiet]
    cases hlast : lastArrival ((List.range k).map line.polls) with
    | none => exact Or.inl ⟨s, rfl, hsame⟩
    | some tQuiet =>
      by_cases hquiet : args.timeout < (line.polls k).now - tQuiet
      · exact Or.inr ⟨tQuiet, rfl, hquiet, if_pos (decide_eq_true hquiet)⟩
      · exact Or.inl ⟨s, if_neg (by rw [Option.any_some]; simpa using hquiet), hsame⟩
  · refine Or.inl ⟨⟨s.payload ++ (line.polls k).chunk, s.matched, some (line.polls k).now⟩, ?_, ?_⟩
    · rw [pollRound_eq, if_pos hchunk, takeChunk_eq, if_pos hs]
    · refine ⟨?_, h.matched, ?_⟩
      · rw [line.arrived_succ, h.payload]
      · rw [hpolls, lastArrival_append hchunk]

theorem collected_stateAfter (hs : args.expectString = true) (ha : args.expectAnything = true)
    {k j : ℕ} {s : ReadState}
    (h : FiniteLoop.stateAfter (readTurn crc registry line args) (0, ⟨[], none, none⟩) k =
      some (j, s)) : j = k ∧ Collected line k s := by
  induction k generalizing j s with
  | zero =>
    cases h
    exact ⟨rfl, rfl, rfl, rfl⟩
  | succ k ih =>
    obtain ⟨⟨i, t⟩, hk, hturn⟩ := FiniteLoop.stateAfter_succ h
    obtain ⟨rfl, hcollected⟩ := ih hk
    rw [readTurn_eq] at hturn
    split_ifs at hturn with hcheck
    obtain ⟨s', hround, hnext⟩ | ⟨_, _, _, hround⟩ :=
      @Collected.round crc registry args line hs ha i t hcollected
    · simp only [hround] at hturn
      cases hturn
      exact ⟨rfl, hnext⟩
    · simp only [hround] at hturn
      cases hturn

/-- A read of a string decodes what has arrived when it ends, and it ends at its deadline or when
the line has been quiet for too long behind some bytes. -/
theorem read_string (hs : args.expectString = true) (ha : args.expectAnything = true) {k : ℕ}
    {r : Py ReadExit}
    (h : FiniteLoop.EndsAfter (readTurn crc registry line args) (0, ⟨[], none, none⟩) k r) :
    read crc registry line args = (do
      let (response, _) ← decode crc registry (line.arrived k) true
      return response) ∧
    ((line.polls k).check < line.start + args.maxWait →
      ∃ tQuiet, lastArrival ((List.range k).map line.polls) = some tQuiet ∧
        args.timeout < (line.polls k).now - tQuiet) := by
  obtain ⟨⟨j, s⟩, hstate, hturn⟩ := id h
  obtain ⟨rfl, hcollected⟩ := collected_stateAfter hs ha hstate
  have hread : (readLoop crc registry line args).exec (0, ⟨[], none, none⟩) = r :=
    FiniteLoop.exec_endsAfter _ h
  have hresult : (do
      let (response, _) ← decode crc registry s.payload true
      return response) = afterLoop crc registry args s := (if_pos hs).symm
  rw [hcollected.payload] at hresult
  rw [hresult, read_exec, hread]
  rw [readTurn_eq] at hturn
  by_cases hcheck : (line.polls j).check < line.start + args.maxWait
  · rw [if_pos hcheck] at hturn
    obtain ⟨s', hround, _⟩ | ⟨tQuiet, hlast, hquiet, hround⟩ :=
      @Collected.round crc registry args line hs ha j s hcollected
    · simp only [hround] at hturn
      cases hturn
    · simp only [hround] at hturn
      cases hturn
      exact ⟨rfl, fun _ => ⟨tQuiet, hlast, hquiet⟩⟩
  · rw [if_neg hcheck] at hturn
    cases hturn
    exact ⟨rfl, fun hbefore => absurd hbefore hcheck⟩

end Read

end PyVesc
