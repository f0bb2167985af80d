import PyVesc.Crc16
import PyVesc.Unframe

/-!
# The call depth of the recovery

A start byte behind the head of a buffer costs the recovery two nested calls, one that looks for it
and one that tries it, and the next start byte is tried inside these. The interpreter allows a
thousand nested calls and raises `RecursionError` beyond. `unframe` returns under this limit just if
the start bytes up to the first packet are few enough (`unpack_ok_iff`), and then it returns what it
returns without a limit.
-/

namespace PyVesc

variable (crc : Bytes → UInt16)

/-- `sys.getrecursionlimit()` of an interpreter that nobody has set it for. -/
def callLimit : ℕ := 1000

def HasPacket (w : Bytes) : Prop :=
  ∃ p ∈ announced w, p.1 + p.2 + 3 ≤ w.length ∧ Intact crc w p.1 p.2

instance (w : Bytes) : Decidable (HasPacket crc w) :=
  inferInstanceAs (Decidable (∃ p ∈ announced w, _))

/-- The number of start bytes from the head of a buffer up to that of the first packet, or to the
end. -/
def candidates : Bytes → ℕ
  | [] => 0
  | x :: t =>
    if StartByte x then if HasPacket crc (x :: t) then 1 else candidates t + 1
    else candidates t

/-- The nested calls of a recovery: its own, and two for each start byte up to that of the first
packet, which needs no recovery again. -/
def recoveryCalls : Bytes → ℕ
  | [] => 1
  | x :: t =>
    if StartByte x then if HasPacket crc (x :: t) then 2 else recoveryCalls t + 2
    else recoveryCalls t

/-- The nested calls of `unframe`. -/
def callsNeeded (b : Bytes) : ℕ :=
  if HeadPending b ∨ HasPacket crc b then 1 else recoveryCalls crc b.tail + 1

variable {crc}

theorem hasPacket_iff {w : Bytes} : HasPacket crc w ↔ ∃ h n, HeadPacket crc w h n := by
  constructor
  · rintro ⟨⟨h, n⟩, hheader, hfits, hintact⟩
    exact ⟨h, n, hheader, hfits, hintact⟩
  · rintro ⟨h, n, hp⟩
    exact ⟨(h, n), hp.header, hp.fits, hp.intact⟩

theorem HeadCorrupt.not_hasPacket {w : Bytes} (hc : HeadCorrupt crc w) : ¬ HasPacket crc w := by
  intro hpacket
  obtain ⟨h, n, hp⟩ := hasPacket_iff.mp hpacket
  exact hp.not_corrupt crc hc

theorem HeadPending.not_hasPacket {w : Bytes} (hpending : HeadPending w) : ¬ HasPacket crc w := by
  intro hpacket
  obtain ⟨h, n, hp⟩ := hasPacket_iff.mp hpacket
  exact hp.not_pending crc hpending

theorem HasPacket.startsPacket {w : Bytes} (hpacket : HasPacket crc w) : StartsPacket w := by
  obtain ⟨h, n, hp⟩ := hasPacket_iff.mp hpacket
  exact hp.startsPacket crc

/-- Bytes that start no packet are skipped. -/
theorem skip_tail {α : Type*} {f : Bytes → α}
    (hskip : ∀ x t, ¬ StartByte x → f (x :: t) = f t) (w : Bytes) :
    f w.tail = f (w.drop (span w)) := by
  cases w with
  | nil => rfl
  | cons x t =>
    rw [List.tail_cons, span, List.drop_succ_cons]
    induction t with
    | nil => rfl
    | cons y t ih =>
      by_cases hy : StartByte y
      · rw [List.findIdx_cons, decide_eq_true hy]
        rfl
      · rw [List.findIdx_cons, decide_eq_false hy, hskip y t hy, ih]
        rfl

theorem recoveryCalls_skip (x : UInt8) (t : Bytes) (hx : ¬ StartByte x) :
    recoveryCalls crc (x :: t) = recoveryCalls crc t := if_neg hx

theorem recoveryCalls_end {w : Bytes} (hs : ¬ span w < w.length) :
    recoveryCalls crc w.tail = 1 := by
  rw [skip_tail recoveryCalls_skip, List.drop_of_length_le (Nat.le_of_not_lt hs)]
  rfl

theorem recoveryCalls_next {w : Bytes} (hs : span w < w.length) :
    recoveryCalls crc w.tail = if HasPacket crc (w.drop (span w)) then 2
      else recoveryCalls crc (w.drop (span w)).tail + 2 := by
  obtain ⟨x, hx, hstart⟩ := startsPacket_drop hs (startByte_at_span hs)
  rw [skip_tail recoveryCalls_skip]
  cases hdrop : w.drop (span w) with
  | nil =>
    rw [hdrop] at hx
    cases hx
  | cons y t =>
    rw [hdrop] at hx
    cases hx
    rw [recoveryCalls, if_pos hstart]
    rfl

theorem recoveryCalls_le_iff (k : ℕ) (t : Bytes) :
    recoveryCalls crc t ≤ 2 * k + 1 ↔ candidates crc t ≤ k := by
  induction t generalizing k with
  | nil =>
    rw [recoveryCalls, candidates]
    omega
  | cons x t ih =>
    rw [recoveryCalls, candidates]
    split_ifs with hx hp
    · omega
    · cases k with
      | zero => omega
      | succ k =>
        have hk := ih k
        omega
    · exact ih k

/-! ### What a candidate costs -/

theorem unpack_recovery_ok_iff {v : Bytes} (hstart : StartsPacket v) {depth : ℕ} {P : Prop}
    (hrecover : ∀ consume,
      (∃ out, recoveryRecurse crc depth v none .ignore consume = .ok out) ↔ P) :
    (∃ out, unpack crc (depth + 1) v none .ignore true = .ok out) ↔ HasPacket crc v ∨ P := by
  obtain ⟨h, n, hp⟩ | hc | hi := head_cases crc hstart
  · have hpacket := hasPacket_iff.mpr ⟨h, n, hp⟩
    simp only [unpack, attempt_packet crc hp, hpacket, true_or, iff_true]
    exact ⟨_, rfl⟩
  · obtain ⟨message, hatt⟩ := attempt_corrupt crc hc
    rw [or_iff_right hc.not_hasPacket]
    simp only [unpack, hatt, hrecover]
  · rw [or_iff_right (HeadPending.not_hasPacket (Or.inr hi))]
    simp only [unpack, attempt_pending crc (Or.inr hi), if_true, hrecover]

theorem recoveryRecurse_end {w : Bytes} (hs : ¬ span w < w.length) (depth : ℕ)
    (header : Option Header) (consume : Bool) :
    ∃ out, recoveryRecurse crc (depth + 1) w header .ignore consume = .ok out := by
  simp only [recoveryRecurse, nextPossiblePacketIndex_eq, if_neg hs]
  cases consume
  · exact ⟨_, rfl⟩
  · exact ⟨_, rfl⟩

theorem recoveryRecurse_next {w : Bytes} (hs : span w < w.length) (depth : ℕ)
    (header : Option Header) (consume : Bool) :
    (∃ out, recoveryRecurse crc (depth + 1) w header .ignore consume = .ok out) ↔
      ∃ out, unpack crc depth (w.drop (span w)) none .ignore true = .ok out := by
  simp only [recoveryRecurse, nextPossiblePacketIndex_eq, if_pos hs]
  constructor
  · rintro ⟨out, hout⟩
    obtain ⟨candidate, hcandidate, _⟩ := bind_eq_ok hout
    exact ⟨candidate, hcandidate⟩
  · rintro ⟨⟨payload, consumed⟩, hcandidate⟩
    rw [hcandidate, ok_bind]
    cases payload with
    | none =>
      cases consume
      · exact ⟨_, rfl⟩
      · exact ⟨_, rfl⟩
    | some payload => exact ⟨_, rfl⟩

theorem recoveryRecurse_returns_iff (calls : ℕ) (w : Bytes) (header : Option Header)
    (consume : Bool) :
    (∃ out, recoveryRecurse crc calls w header .ignore consume = .ok out) ↔
      recoveryCalls crc w.tail ≤ calls := by
  induction calls using Nat.strong_induction_on generalizing w header consume with
  | _ calls ih =>
    by_cases hs : span w < w.length
    · have hstart := startsPacket_drop hs (startByte_at_span hs)
      rw [recoveryCalls_next hs]
      obtain _ | _ | calls := calls
      · refine iff_of_false (fun ⟨out, hout⟩ => by cases hout) ?_
        split_ifs <;> omega
      · rw [recoveryRecurse_next hs]
        refine iff_of_false (fun ⟨out, hout⟩ => by cases hout) ?_
        split_ifs <;> omega
      · rw [recoveryRecurse_next hs,
          unpack_recovery_ok_iff hstart (ih calls (by omega) (w.drop (span w)) none)]
        by_cases hp : HasPacket crc (w.drop (span w))
        · rw [if_pos hp]
          exact iff_of_true (Or.inl hp) (by omega)
        · rw [if_neg hp, Nat.add_le_add_iff_right]
          exact or_iff_right hp
    · rw [recoveryCalls_end hs]
      cases calls with
      | zero => exact iff_of_false (fun ⟨out, hout⟩ => by cases hout) (by omega)
      | succ calls => exact iff_of_true (recoveryRecurse_end hs _ _ _) (by omega)

/-- Where `unframe` returns under a limit of the calls. -/
theorem unpack_returns_iff (calls : ℕ) (b : Bytes) :
    (∃ out, unpack crc calls b none .ignore false = .ok out) ↔ callsNeeded crc b ≤ calls := by
  rw [callsNeeded]
  cases calls with
  | zero =>
    refine iff_of_false (fun ⟨out, hout⟩ => by cases hout) ?_
    split_ifs <;> omega
  | succ calls =>
    have hrecover := @recoveryRecurse_returns_iff crc calls b none true
    by_cases hpending : HeadPending b
    · rw [if_pos (Or.inl hpending)]
      simp only [unpack, attempt_pending crc hpending, Bool.false_eq_true, if_false]
      exact iff_of_true ⟨_, rfl⟩ (by omega)
    · by_cases hs : StartsPacket b
      · obtain ⟨h, n, hp⟩ | hc | hi := head_cases crc hs
        · rw [if_pos (Or.inr (hasPacket_iff.mpr ⟨h, n, hp⟩))]
          simp only [unpack, attempt_packet crc hp]
          exact iff_of_true ⟨_, rfl⟩ (by omega)
        · obtain ⟨message, hatt⟩ := attempt_corrupt crc hc
          rw [if_neg (not_or.mpr ⟨hpending, hc.not_hasPacket⟩), Nat.add_le_add_iff_right]
          simp only [unpack, hatt, hrecover]
        · exact absurd (Or.inr hi) hpending
      · rw [if_neg (not_or.mpr ⟨hpending, fun hpacket => hs hpacket.startsPacket⟩),
          Nat.add_le_add_iff_right]
        cases b with
        | nil => exact absurd (Or.inl rfl) hpending
        | cons x t =>
          have hx : ¬ StartByte x := fun h => hs ⟨x, rfl, h⟩
          simp only [unpack, attempt_not_startByte crc hx, hrecover]

/-- `unframe` under a limit of `2 * k + 2` calls. -/
theorem unpack_ok_iff (k : ℕ) (b : Bytes) :
    (∃ out, unpack crc (2 * k + 2) b none .ignore false = .ok out) ↔
      HeadPending b ∨ HasPacket crc b ∨ candidates crc b.tail ≤ k := by
  rw [unpack_returns_iff, callsNeeded, ← or_assoc]
  by_cases hhead : HeadPending b ∨ HasPacket crc b
  · rw [if_pos hhead]
    exact iff_of_true (by omega) (Or.inl hhead)
  · rw [if_neg hhead, or_iff_right hhead, ← recoveryCalls_le_iff]
    omega

/-! ### More calls change nothing -/

theorem bind_stable {α β : Type} {x x' : Py α} {f : α → Py β}
    (hx : x ≠ .error .recursionError → x' = x) (h : x >>= f ≠ .error .recursionError) :
    x' >>= f = x >>= f := by
  rw [hx]
  rintro rfl
  exact h rfl

variable (crc) in
/-- A result that is no `RecursionError` is also the result with one more call. -/
theorem stable_succ (depth : ℕ) (b : Bytes) (header : Option Header) (errors : Errors)
    (flag : Bool) :
    (unpack crc depth b header errors flag ≠ .error .recursionError →
      unpack crc (depth + 1) b header errors flag = unpack crc depth b header errors flag) ∧
    (recoveryRecurse crc depth b header errors flag ≠ .error .recursionError →
      recoveryRecurse crc (depth + 1) b header errors flag =
        recoveryRecurse crc depth b header errors flag) := by
  induction depth generalizing b header errors flag with
  | zero => exact ⟨fun h => absurd rfl h, fun h => absurd rfl h⟩
  | succ depth ih =>
    constructor
    · intro h
      rw [unpack] at h ⊢
      rw [unpack]
      cases hatt : attempt crc b header with
      | ok tried =>
        rw [hatt] at h
        cases tried with
        | tooShort =>
          cases flag with
          | true => exact (ih _ _ _ _).2 h
          | false => rfl
        | packet payload consumed => rfl
      | error e =>
        rw [hatt] at h
        cases e with
        | corruptPacket message =>
          cases errors with
          | ignore => exact (ih _ _ _ _).2 h
          | strict => rfl
        | _ => rfl
    · intro h
      rw [recoveryRecurse] at h ⊢
      rw [recoveryRecurse]
      cases hnext : nextPossiblePacketIndex b with
      | none => rfl
      | some nextSb =>
        rw [hnext] at h
        exact bind_stable (ih _ _ _ _).1 h

theorem unpack_stable {depth depth' : ℕ} (hle : depth ≤ depth') {b : Bytes}
    {header : Option Header} {errors : Errors} {flag : Bool}
    (h : unpack crc depth b header errors flag ≠ .error .recursionError) :
    unpack crc depth' b header errors flag = unpack crc depth b header errors flag := by
  induction hle with
  | refl => rfl
  | step _ ih =>
    rw [← ih] at h ⊢
    exact (stable_succ crc _ b header errors flag).1 h

/-! ### The limit of the interpreter -/

variable (crc) in
/-- The buffer starts with a packet or with what may become one, or at most 499 start bytes follow
its first byte up to the first packet. -/
def WithinCallLimit (b : Bytes) : Prop :=
  HeadPending b ∨ HasPacket crc b ∨ candidates crc b.tail ≤ 499

instance (b : Bytes) : Decidable (WithinCallLimit crc b) :=
  inferInstanceAs (Decidable (_ ∨ _ ∨ _))

variable (crc) in
/-- `unframe` returns under the limit just for these buffers. -/
theorem unframe_returns_iff (b : Bytes) :
    (∃ out, unpack crc callLimit b none .ignore false = .ok out) ↔ WithinCallLimit crc b :=
  unpack_ok_iff 499 b

theorem withinCallLimit_iff (b : Bytes) :
    WithinCallLimit crc b ↔ callsNeeded crc b ≤ callLimit :=
  (unpack_ok_iff 499 b).symm.trans (unpack_returns_iff callLimit b)

variable (crc) in
/-- It returns what it returns without a limit, or raises `RecursionError`. -/
theorem unpack_calls (calls : ℕ) (b : Bytes) : unpack crc calls b none .ignore false =
    if callsNeeded crc b ≤ calls then .ok (scan crc b) else .error .recursionError := by
  have hreturns := @unpack_returns_iff crc calls b
  have hunlimited := unpack_eq_unframe crc b (max calls (2 * b.length + 2)) (le_max_right _ _)
  rw [unframe_eq_scan] at hunlimited
  by_cases hexhausted : unpack crc calls b none .ignore false = .error .recursionError
  · rw [hexhausted, if_neg]
    intro hwithin
    obtain ⟨out, hout⟩ := hreturns.mpr hwithin
    rw [hexhausted] at hout
    cases hout
  · have hstable := unpack_stable (le_max_left calls (2 * b.length + 2)) hexhausted
    rw [← hstable, hunlimited, if_pos]
    exact hreturns.mp ⟨_, hstable.symm.trans hunlimited⟩

theorem candidates_le_length (w : Bytes) : candidates crc w ≤ w.length := by
  induction w with
  | nil => exact Nat.le_refl 0
  | cons x t ih =>
    rw [candidates, List.length_cons]
    split_ifs
    · omega
    · omega
    · omega

theorem recoveryCalls_le_length (t : Bytes) : recoveryCalls crc t ≤ 2 * t.length + 1 :=
  (recoveryCalls_le_iff _ _).mpr (candidates_le_length t)

/-- A short buffer needs few calls. -/
theorem callsNeeded_le_length (b : Bytes) : callsNeeded crc b ≤ 2 * (b.length - 1) + 2 := by
  have htail := @recoveryCalls_le_length crc b.tail
  rw [List.length_tail] at htail
  rw [callsNeeded]
  split_ifs
  · omega
  · omega

/-- The recovery in a buffer of at most 500 bytes stays within the limit. -/
theorem unpack_callLimit_of_length {b : Bytes} (hlen : b.length ≤ 500) :
    unpack crc callLimit b none .ignore false = unframe crc b .ignore := by
  have hcalls := @callsNeeded_le_length crc b
  rw [unpack_calls, unframe_eq_scan, if_pos]
  rw [callLimit]
  omega

/-! ### Noise of start bytes -/

theorem not_hasPacket_replicate (n : ℕ) : ¬ HasPacket crc (List.replicate n 2) := by
  rintro ⟨⟨h, m⟩, _, _, _, hterminator⟩
  have htwo := List.eq_of_mem_replicate (List.mem_of_getElem? hterminator)
  cases htwo

theorem candidates_replicate (n : ℕ) : candidates crc (List.replicate n 2) = n := by
  induction n with
  | zero => rfl
  | succ n ih =>
    have hstart : StartByte 2 := Or.inl rfl
    have hnone : ¬ HasPacket crc (2 :: List.replicate n 2) := not_hasPacket_replicate (n + 1)
    rw [List.replicate_succ, candidates, if_pos hstart, if_neg hnone, ih]

theorem recoveryCalls_replicate (n : ℕ) : recoveryCalls crc (List.replicate n 2) = 2 * n + 1 := by
  induction n with
  | zero => rfl
  | succ n ih =>
    have hstart : StartByte 2 := Or.inl rfl
    have hnone : ¬ HasPacket crc (2 :: List.replicate n 2) := not_hasPacket_replicate (n + 1)
    rw [List.replicate_succ, recoveryCalls, if_pos hstart, if_neg hnone, ih]
    omega

theorem not_headPending_replicate (n : ℕ) : ¬ HeadPending (List.replicate (n + 7) 2) := by
  rintro (hnil | ⟨_, hshort⟩)
  · cases hnil
  · have hlt := hshort (2, 2) rfl
    rw [List.length_replicate] at hlt
    omega

theorem callsNeeded_replicate (n : ℕ) :
    callsNeeded crc (List.replicate (n + 7) 2) = 2 * (n + 7) := by
  have hhead : ¬ (HeadPending (List.replicate (n + 7) 2) ∨
      HasPacket crc (List.replicate (n + 7) 2)) :=
    not_or.mpr ⟨not_headPending_replicate n, not_hasPacket_replicate _⟩
  rw [callsNeeded, if_neg hhead, List.tail_replicate, recoveryCalls_replicate]
  omega

/-- Noise of 501 start bytes takes more calls than there are. -/
theorem noise_exceeds_callLimit : ¬ ∀ b : Bytes,
    ∃ out, unpack Crc16.xmodem callLimit b none .ignore false = .ok out := by
  intro h
  obtain hpending | hpacket | hfew := (unpack_ok_iff 499 _).mp (h (List.replicate (494 + 7) 2))
  · exact not_headPending_replicate 494 hpending
  · exact not_hasPacket_replicate _ hpacket
  · rw [List.tail_replicate, candidates_replicate] at hfew
    omega

end PyVesc
