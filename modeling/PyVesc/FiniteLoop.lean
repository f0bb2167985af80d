import Mathlib.Tactic

/-!
# Loops that carry their termination measure

`FiniteLoop` is a `while` loop whose body either goes round again or leaves with a result, together
with a natural-number measure that every further round decreases. `run` executes the body with a
bound on the number of rounds, `exec` executes it to the end; the two agree as soon as the bound
exceeds the measure, so a loop written this way is total without a fuel argument in its result.

The body is the only thing a program supplies. `exec_next` and `exec_done` are its unfolding
equations, `exec_induction` and `exec_invariant` the induction and the invariant rule. `EndsAfter`
counts the rounds.
-/

/-- What one round of a loop body does. -/
inductive Turn (σ ρ : Type*) where
  | next (s : σ)
  | done (r : ρ)

structure FiniteLoop (σ ρ : Type*) where
  turn : σ → Turn σ ρ
  measure : σ → ℕ
  decreases : ∀ s s', turn s = .next s' → measure s' < measure s

namespace FiniteLoop

variable {σ ρ : Type*}

/-- At most `k` rounds of the body; `none` when the loop is still running after them. -/
def run (turn : σ → Turn σ ρ) : ℕ → σ → Option ρ
  | 0, _ => none
  | k + 1, s =>
    match turn s with
    | .next s' => run turn k s'
    | .done r => some r

theorem run_next {turn : σ → Turn σ ρ} {s s' : σ} (h : turn s = .next s') (k : ℕ) :
    run turn (k + 1) s = run turn k s' := by
  simp only [run, h]

theorem run_done {turn : σ → Turn σ ρ} {s : σ} {r : ρ} (h : turn s = .done r) (k : ℕ) :
    run turn (k + 1) s = some r := by
  simp only [run, h]

variable (L : FiniteLoop σ ρ)

theorem isSome_run (k : ℕ) (s : σ) (hk : L.measure s < k) : (run L.turn k s).isSome := by
  induction k generalizing s with
  | zero => omega
  | succ k ih =>
    cases ht : L.turn s with
    | next s' =>
      have hm := L.decreases s s' ht
      rw [run_next ht]
      exact ih s' (by omega)
    | done r => rw [run_done ht]; rfl

def exec (s : σ) : ρ :=
  (run L.turn (L.measure s + 1) s).get (L.isSome_run _ s (Nat.lt_succ_self _))

/-- Enough rounds give the loop's result, and more rounds give the same one. -/
theorem run_eq_exec (k : ℕ) (s : σ) (hk : L.measure s < k) :
    run L.turn k s = some (L.exec s) := by
  have hmono : ∀ (m j : ℕ) (t : σ), L.measure t < m → m ≤ j →
      run L.turn j t = run L.turn m t := by
    intro m
    induction m with
    | zero => intro j t ht; omega
    | succ m ih =>
      intro j t ht hj
      obtain ⟨i, rfl⟩ : ∃ i, j = i + 1 := ⟨j - 1, by omega⟩
      cases hturn : L.turn t with
      | next t' =>
        have hm := L.decreases t t' hturn
        rw [run_next hturn, run_next hturn]
        exact ih i t' (by omega) (by omega)
      | done r => rw [run_done hturn, run_done hturn]
  rw [hmono (L.measure s + 1) k s (Nat.lt_succ_self _) hk]
  exact (Option.some_get _).symm

theorem exec_next {s s' : σ} (h : L.turn s = .next s') : L.exec s = L.exec s' := by
  have hm := L.decreases s s' h
  apply Option.some.inj
  rw [← L.run_eq_exec (L.measure s + 1) s (by omega), run_next h]
  exact L.run_eq_exec _ s' hm

theorem exec_done {s : σ} {r : ρ} (h : L.turn s = .done r) : L.exec s = r := by
  apply Option.some.inj
  rw [← L.run_eq_exec (L.measure s + 1) s (by omega), run_done h]

/-- To relate every state to the result the loop gives from it, relate the states that leave and go
back over one round. -/
theorem exec_induction {P : σ → ρ → Prop} (hdone : ∀ s r, L.turn s = .done r → P s r)
    (hnext : ∀ s s', L.turn s = .next s' → P s' (L.exec s') → P s (L.exec s')) (s : σ) :
    P s (L.exec s) := by
  induction hn : L.measure s using Nat.strong_induction_on generalizing s with
  | _ n ih =>
    cases ht : L.turn s with
    | next s' =>
      have hm := L.decreases s s' ht
      rw [L.exec_next ht]
      exact hnext s s' ht (ih (L.measure s') (by omega) s' rfl)
    | done r =>
      rw [L.exec_done ht]
      exact hdone s r ht

theorem exec_invariant (Inv : σ → Prop) (hstep : ∀ s s', Inv s → L.turn s = .next s' → Inv s')
    (s : σ) (hs : Inv s) : ∃ t, Inv t ∧ L.turn t = .done (L.exec s) := by
  revert hs
  refine L.exec_induction (P := fun s r => Inv s → ∃ t, Inv t ∧ L.turn t = .done r) ?_ ?_ s
  · intro s r ht hs
    exact ⟨s, hs, ht⟩
  · intro s s' ht ih hs
    exact ih (hstep s s' hs ht)

/-! ### Counting the rounds -/

/-- The state after `k` rounds that all went on. -/
def stateAfter (turn : σ → Turn σ ρ) (s : σ) : ℕ → Option σ
  | 0 => some s
  | k + 1 =>
    match stateAfter turn s k with
    | none => none
    | some t =>
      match turn t with
      | .next t' => some t'
      | .done _ => none

/-- The loop goes on for `k` rounds and leaves in the next one. -/
def EndsAfter (turn : σ → Turn σ ρ) (s : σ) (k : ℕ) (r : ρ) : Prop :=
  ∃ t, stateAfter turn s k = some t ∧ turn t = .done r

theorem stateAfter_succ {turn : σ → Turn σ ρ} {s t : σ} {k : ℕ}
    (h : stateAfter turn s (k + 1) = some t) :
    ∃ t₀, stateAfter turn s k = some t₀ ∧ turn t₀ = .next t := by
  rw [stateAfter] at h
  cases hk : stateAfter turn s k with
  | none =>
    rw [hk] at h
    cases h
  | some t₀ =>
    rw [hk] at h
    dsimp only at h
    cases hturn : turn t₀ with
    | next t' =>
      rw [hturn] at h
      cases h
      exact ⟨t₀, rfl, hturn⟩
    | done r =>
      rw [hturn] at h
      cases h

theorem stateAfter_next {turn : σ → Turn σ ρ} {s s' : σ} (h : turn s = .next s') (k : ℕ) :
    stateAfter turn s (k + 1) = stateAfter turn s' k := by
  induction k with
  | zero => simp only [stateAfter, h]
  | succ k ih => rw [stateAfter, ih, stateAfter]

theorem exec_stateAfter {s t : σ} {k : ℕ} (h : stateAfter L.turn s k = some t) :
    L.exec s = L.exec t := by
  induction k generalizing t with
  | zero =>
    cases h
    rfl
  | succ k ih =>
    obtain ⟨t₀, hk, hturn⟩ := stateAfter_succ h
    rw [ih hk, L.exec_next hturn]

theorem exec_endsAfter {s : σ} {k : ℕ} {r : ρ} (h : EndsAfter L.turn s k r) : L.exec s = r := by
  obtain ⟨t, hk, hturn⟩ := h
  rw [L.exec_stateAfter hk, L.exec_done hturn]

theorem exists_endsAfter (s : σ) : ∃ k, EndsAfter L.turn s k (L.exec s) := by
  refine L.exec_induction (P := fun s r => ∃ k, EndsAfter L.turn s k r) ?_ ?_ s
  · intro s r hturn
    exact ⟨0, s, rfl, hturn⟩
  · rintro s s' hturn ⟨k, t, hk, hdone⟩
    exact ⟨k + 1, t, (stateAfter_next hturn k).trans hk, hdone⟩

end FiniteLoop
