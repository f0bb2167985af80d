import PyVesc.Unframe

/-!
# The drain loops

Two loops call `unframe` until it consumes nothing: the one of `decode` in `interface.py`, which
collects the payloads, and the inner loop of `VESC.read`, which hands each payload to the code that
follows (`visit`). Both end, since a call that consumes anything shortens the buffer, and both hand
over the payloads that the scanner library drains from the buffer, in order.
-/

namespace PyVesc

variable (crc : Bytes → UInt16)

theorem length_drop_scan {b : Bytes} (hc : (scan crc b).2 ≠ 0) :
    (b.drop (scan crc b).2).length < b.length :=
  Scanner.length_drop_lt ((unframeScanner crc).ne_nil_of_consumed hc) hc

/-- A way to unframe a buffer, which takes nothing from an empty one. -/
structure Unframer where
  unframe : Bytes → Py (Option Bytes × ℕ)
  ne_nil : ∀ {b p consumed}, unframe b = .ok (p, consumed) → consumed ≠ 0 → b ≠ []

namespace Unframer

/-- The interpreter allows as many nested calls as a buffer needs. -/
def unlimited : Unframer where
  unframe b := PyVesc.unframe crc b .ignore
  ne_nil {b p consumed} h hc := by
    have hout : scan crc b = (p, consumed) := Except.ok.inj ((unframe_eq_scan crc b).symm.trans h)
    apply (unframeScanner crc).ne_nil_of_consumed
    rwa [unframeScanner_scan, hout]

/-- The interpreter allows this many nested calls. -/
def within (calls : ℕ) : Unframer where
  unframe b := unpack crc calls b none .ignore false
  ne_nil {b p consumed} h hc := by
    rintro rfl
    cases calls with
    | zero => cases h
    | succ calls =>
      rw [unpack, attempt_pending crc (Or.inl rfl)] at h
      cases h
      exact hc rfl

end Unframer

/-! ### The loop of `VESC.read` -/

section Read
variable {σ : Type*} (U : Unframer) (visit : σ → Bytes → Py σ)

/-- One round: the buffer is the second component, what the visitor keeps is the first. -/
def drainTurnWith (s : σ × Bytes) : Turn (σ × Bytes) (Py (σ × Bytes)) :=
  match U.unframe s.2 with
  | .error e => .done (.error e)
  | .ok (framePayload, consumed) =>
    if consumed = 0 then .done (.ok s)
    else
      match framePayload with
      | none => .next (s.1, s.2.drop consumed)
      | some framePayload =>
        match visit s.1 framePayload with
        | .error e => .done (.error e)
        | .ok s' => .next (s', s.2.drop consumed)

def drainLoopWith : FiniteLoop (σ × Bytes) (Py (σ × Bytes)) where
  turn := drainTurnWith U visit
  measure s := s.2.length
  decreases s s' h := by
    unfold drainTurnWith at h
    cases hu : U.unframe s.2 with
    | error e => simp only [hu] at h; cases h
    | ok out =>
      obtain ⟨p, consumed⟩ := out
      simp only [hu] at h
      split_ifs at h with hc
      have hlt := Scanner.length_drop_lt (U.ne_nil hu hc) hc
      cases p with
      | none => cases h; exact hlt
      | some p =>
        cases hv : visit s.1 p with
        | error e => simp only [hv] at h; cases h
        | ok t => simp only [hv] at h; cases h; exact hlt

def drainWith (s : σ × Bytes) : Py (σ × Bytes) := (drainLoopWith U visit).exec s

def drainTurn (s : σ × Bytes) : Turn (σ × Bytes) (Py (σ × Bytes)) :=
  drainTurnWith (.unlimited crc) visit s

def drainLoop : FiniteLoop (σ × Bytes) (Py (σ × Bytes)) := drainLoopWith (.unlimited crc) visit

def drain (s : σ × Bytes) : Py (σ × Bytes) := drainWith (.unlimited crc) visit s

theorem drain_stop {s : σ × Bytes} (h : (scan crc s.2).2 = 0) : drain crc visit s = .ok s := by
  apply (drainLoop crc visit).exec_done
  change drainTurnWith (.unlimited crc) visit s = _
  simp only [drainTurnWith, Unframer.unlimited, unframe_eq_scan, h, if_true]

theorem drain_skip {s : σ × Bytes} (h : (scan crc s.2).2 ≠ 0) (hp : (scan crc s.2).1 = none) :
    drain crc visit s = drain crc visit (s.1, s.2.drop (scan crc s.2).2) := by
  apply (drainLoop crc visit).exec_next
  change drainTurnWith (.unlimited crc) visit s = _
  simp only [drainTurnWith, Unframer.unlimited, unframe_eq_scan, if_neg h, hp]

theorem drain_visit {s : σ × Bytes} {p : Bytes} (h : (scan crc s.2).2 ≠ 0)
    (hp : (scan crc s.2).1 = some p) : drain crc visit s = (do
      let t ← visit s.1 p
      drain crc visit (t, s.2.drop (scan crc s.2).2)) := by
  cases hv : visit s.1 p with
  | error e =>
    apply (drainLoop crc visit).exec_done
    change drainTurnWith (.unlimited crc) visit s = _
    simp only [drainTurnWith, Unframer.unlimited, unframe_eq_scan, if_neg h, hp, hv, bind,
      Except.bind]
  | ok t =>
    apply (drainLoop crc visit).exec_next
    change drainTurnWith (.unlimited crc) visit s = _
    simp only [drainTurnWith, Unframer.unlimited, unframe_eq_scan, if_neg h, hp, hv]

/-- The payloads that the loop visits, in order, are those the scanner drains from the buffer. -/
theorem drain_eq (s : σ) (b : Bytes) : drain crc visit (s, b) =
    (fun t => (t, ((unframeScanner crc).drain b).2)) <$>
      ((unframeScanner crc).drain b).1.foldlM visit s := by
  induction hn : b.length using Nat.strong_induction_on generalizing s b with
  | _ n ih =>
    subst hn
    by_cases hc : (scan crc b).2 = 0
    · rw [drain_stop crc visit hc, (unframeScanner crc).drain_stop hc]
      rfl
    · have hrest (t : σ) := ih _ (length_drop_scan crc hc) t _ rfl
      rw [(unframeScanner crc).drain_step (b := b) hc, unframeScanner_scan]
      cases hp : (scan crc b).1 with
      | none =>
        rw [drain_skip crc visit hc hp, hrest]
        rfl
      | some p =>
        rw [drain_visit crc visit hc hp]
        simp only [Option.toList_some, List.singleton_append, List.foldlM_cons, map_bind]
        congr 1
        funext t
        exact hrest t

end Read

/-! ### The loop of `decode` -/

structure DecodeState where
  buffer : Bytes
  messages : List Bytes
  consumedTotal : ℕ
  msgPayloadTotal : Bytes
  deriving DecidableEq, Repr

section Decode
variable (U : Unframer)

def decodeTurnWith (s : DecodeState) : Turn DecodeState (Py DecodeState) :=
  if s.buffer.length > 0 then
    match U.unframe s.buffer with
    | .error e => .done (.error e)
    | .ok (msgPayload, consumed) =>
      if consumed = 0 then .done (.ok s)
      else .next {
        buffer := s.buffer.drop consumed
        messages := s.messages ++ msgPayload.toList
        consumedTotal := s.consumedTotal + consumed
        msgPayloadTotal := s.msgPayloadTotal ++ msgPayload.getD [] }
  else .done (.ok s)

def decodeLoopWith : FiniteLoop DecodeState (Py DecodeState) where
  turn := decodeTurnWith U
  measure s := s.buffer.length
  decreases s s' h := by
    unfold decodeTurnWith at h
    split_ifs at h with hpos
    cases hu : U.unframe s.buffer with
    | error e => simp only [hu] at h; cases h
    | ok out =>
      obtain ⟨p, consumed⟩ := out
      simp only [hu] at h
      split_ifs at h with hc
      cases h
      exact Scanner.length_drop_lt (U.ne_nil hu hc) hc

end Decode

def decodeTurn (s : DecodeState) : Turn DecodeState (Py DecodeState) :=
  decodeTurnWith (.unlimited crc) s

def decodeLoop : FiniteLoop DecodeState (Py DecodeState) := decodeLoopWith (.unlimited crc)

/-- The loop collects the payloads of a buffer that is made of frames. -/
theorem decodeLoop_frames {ps : List Bytes} (hps : ∀ p ∈ ps, Framable p) (messages : List Bytes)
    (n : ℕ) (total : Bytes) :
    (decodeLoop crc).exec ⟨(ps.map (frameBytes crc)).flatten, messages, n, total⟩ =
      .ok ⟨[], messages ++ ps, n + (ps.map (frameBytes crc)).flatten.length,
        total ++ ps.flatten⟩ := by
  induction ps generalizing messages n total with
  | nil =>
    rw [List.map_nil, List.flatten_nil, List.append_nil, List.append_nil]
    exact (decodeLoop crc).exec_done rfl
  | cons p ps ih =>
    obtain ⟨hp, hrest⟩ := List.forall_mem_cons.mp hps
    have hscan : scan crc (frameBytes crc p ++ (ps.map (frameBytes crc)).flatten) = _ :=
      (reads_isPacket crc).whole _ _ _ (isPacket_frameBytes crc hp.2)
    have hlen := length_frameBytes crc p
    have hturn : (decodeLoop crc).turn
        ⟨((p :: ps).map (frameBytes crc)).flatten, messages, n, total⟩ =
        .next ⟨(ps.map (frameBytes crc)).flatten, messages ++ [p], n + (frameBytes crc p).length,
          total ++ p⟩ := by
      have hpos : (frameBytes crc p ++ (ps.map (frameBytes crc)).flatten).length > 0 := by
        rw [List.length_append]
        omega
      have hne : ¬ (frameBytes crc p).length = 0 := by omega
      change decodeTurnWith (.unlimited crc) _ = _
      rw [List.map_cons, List.flatten_cons]
      simp only [decodeTurnWith, Unframer.unlimited, if_pos hpos, unframe_eq_scan, hscan,
        if_neg hne, Option.toList_some, Option.getD_some, List.drop_left]
    rw [(decodeLoop crc).exec_next hturn, ih hrest, List.map_cons, List.flatten_cons,
      List.flatten_cons, List.length_append, List.append_assoc, List.append_assoc, Nat.add_assoc]
    rfl

/-! ### The law of the unframer -/

/-- A buffer whose head is pending gives `(None, 0)`; otherwise the payload of the packet at the
least offset that holds one is returned with the bytes up to its end, and without such an offset at
least one byte and at most the whole buffer is consumed. Loops on `unframe` therefore end. -/
theorem unframe_leftmost_scan (b : Bytes) :
    (∃ out, unframe crc b .ignore = .ok out ∧
      (∀ depth, 2 * b.length + 2 ≤ depth → unpack crc depth b none .ignore false = .ok out) ∧
      (HeadPending b ∧ out = (none, 0) ∨
        ¬ HeadPending b ∧ (∃ i h n, FirstPacket crc b 0 i h n ∧
          out = (some (slice b (i + h) (i + h + n)), i + h + n + 3)) ∨
        ¬ HeadPending b ∧ (∀ i h n, ¬ PacketAt crc b i h n) ∧
          out.1 = none ∧ 1 ≤ out.2 ∧ out.2 ≤ b.length)) ∧
    (∀ s : DecodeState, ∃ r, ∀ k, s.buffer.length < k →
      FiniteLoop.run (decodeTurn crc) k s = some r) ∧
    ∀ {σ : Type} (visit : σ → Bytes → Py σ) (s : σ × Bytes), ∃ r, ∀ k, s.2.length < k →
      FiniteLoop.run (drainTurn crc visit) k s = some r := by
  refine ⟨⟨scan crc b, unframe_eq_scan crc b, ?_, ?_⟩, ?_, ?_⟩
  · intro depth hdepth
    rw [unpack_eq_unframe crc b depth hdepth, unframe_eq_scan]
  · obtain ⟨hp, hout⟩ | ⟨hp, ⟨i, h, n, hf, hout⟩ | ⟨hnone, hout⟩⟩ := scan_unframes crc b
    · exact Or.inl ⟨hp, hout⟩
    · exact Or.inr (Or.inl ⟨hp, i, h, n, hf, hout⟩)
    · have hb : b ≠ [] := fun h => hp (Or.inl h)
      have hpos := span_pos hb
      have hle := span_add_corruptSegments_le crc hb
      rw [hout]
      exact Or.inr (Or.inr ⟨hp, fun i h n => hnone i h n (Nat.zero_le _), rfl, by omega, hle⟩)
  · exact fun s => ⟨(decodeLoop crc).exec s, fun k hk => (decodeLoop crc).run_eq_exec k s hk⟩
  · exact fun visit s => ⟨(drainLoop crc visit).exec s,
      fun k hk => (drainLoop crc visit).run_eq_exec k s hk⟩

end PyVesc
