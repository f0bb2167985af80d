import Mathlib.Tactic

/-!
# Runs of a transition system

A system is given by a step function: the state after an event, or `none` where the event cannot
happen. `run` performs events one after another; `Meets` says that each of them, in the state before
it, satisfies a condition. A property of states that the steps under the condition preserve holds at
the end of every run that meets it (`run_invariant`).
-/

namespace Transition

variable {σ α : Type*} (step : σ → α → Option σ)

def run : σ → List α → Option σ
  | s, [] => some s
  | s, a :: as => (step s a).bind fun t => run t as

def Meets (cond : σ → α → Prop) : σ → List α → Prop
  | _, [] => True
  | s, a :: as => cond s a ∧ ∀ t, step s a = some t → Meets cond t as

variable {step}

theorem run_append (as bs : List α) (s : σ) :
    run step s (as ++ bs) = (run step s as).bind fun t => run step t bs := by
  induction as generalizing s with
  | nil => rfl
  | cons a as ih =>
    rw [List.cons_append, run, run, Option.bind_assoc]
    exact Option.bind_congr fun t _ => ih t

theorem meets_cons {cond : σ → α → Prop} {s t : σ} {a : α} {as : List α} (hcond : cond s a)
    (hstep : step s a = some t) (h : Meets step cond t as) : Meets step cond s (a :: as) := by
  refine ⟨hcond, fun u hu => ?_⟩
  rw [hstep] at hu
  cases hu
  exact h

theorem run_invariant {cond : σ → α → Prop} {Inv : σ → Prop}
    (hstep : ∀ s a t, Inv s → cond s a → step s a = some t → Inv t) (as : List α) (s t : σ)
    (hs : Inv s) (hmeets : Meets step cond s as) (hrun : run step s as = some t) : Inv t := by
  induction as generalizing s with
  | nil =>
    cases hrun
    exact hs
  | cons a as ih =>
    obtain ⟨u, hu, hrest⟩ := Option.bind_eq_some_iff.mp hrun
    exact ih u (hstep s a u hs hmeets.1 hu) (hmeets.2 u hu) hrest

theorem meets_true (as : List α) (s : σ) : Meets step (fun _ _ => True) s as := by
  induction as generalizing s with
  | nil => trivial
  | cons a as ih => exact ⟨trivial, fun t _ => ih t⟩

theorem meets_of_forall {cond : σ → α → Prop} {as : List α} (h : ∀ a ∈ as, ∀ s, cond s a) (s : σ) :
    Meets step cond s as := by
  induction as generalizing s with
  | nil => trivial
  | cons a as ih =>
    obtain ⟨ha, has⟩ := List.forall_mem_cons.mp h
    exact ⟨ha s, fun t _ => ih has t⟩

theorem meets_congr {cond cond' : σ → α → Prop} (h : ∀ s a, cond s a ↔ cond' s a) (s : σ)
    (as : List α) : Meets step cond s as ↔ Meets step cond' s as := by
  induction as generalizing s with
  | nil => rfl
  | cons a as ih => exact and_congr (h s a) (forall₂_congr fun t _ => ih t)

/-- A run whose steps are tested against a condition meets it. -/
theorem meets_of_guarded {cond : σ → α → Prop} {test : σ → α → Bool}
    (htest : ∀ s a, test s a = true → cond s a) (as : List α) (s t : σ)
    (hrun : run (fun s a => if test s a then step s a else none) s as = some t) :
    Meets step cond s as ∧ run step s as = some t := by
  induction as generalizing s with
  | nil => exact ⟨trivial, hrun⟩
  | cons a as ih =>
    obtain ⟨u, hu, hrest⟩ := Option.bind_eq_some_iff.mp hrun
    obtain ⟨ha, hstep⟩ := Option.ite_none_right_eq_some.mp hu
    obtain ⟨hmeets, hend⟩ := ih u hrest
    refine ⟨meets_cons (htest s a ha) hstep hmeets, ?_⟩
    rw [run, hstep]
    exact hend

/-- What every step preserves holds at the end of every run. -/
theorem run_preserves {Inv : σ → Prop} (hstep : ∀ s a t, Inv s → step s a = some t → Inv t)
    (as : List α) (s t : σ) (hs : Inv s) (hrun : run step s as = some t) : Inv t :=
  run_invariant (fun s a t hs _ => hstep s a t hs) as s t hs (meets_true as s) hrun

/-- What no step lowers is no lower at the end of a run. -/
theorem run_monotone {β : Type*} [Preorder β] {f : σ → β}
    (hstep : ∀ s a t, step s a = some t → f s ≤ f t) (as : List α) (s t : σ)
    (hrun : run step s as = some t) : f s ≤ f t := by
  apply @run_preserves _ _ step (fun u => f s ≤ f u) _ as s t le_rfl hrun
  exact fun u a v hu huv => hu.trans (hstep u a v huv)

/-- What holds at every step of the runs that meet `cond` may be assumed of them as well. -/
theorem meets_of_invariant {cond cond' : σ → α → Prop} (Inv : σ → Prop)
    (hstep : ∀ s a t, Inv s → cond s a → step s a = some t → Inv t)
    (hcond : ∀ s a, Inv s → cond s a → cond' s a) (as : List α) (s : σ) (hs : Inv s)
    (hmeets : Meets step cond s as) : Meets step cond' s as := by
  induction as generalizing s with
  | nil => trivial
  | cons a as ih =>
    exact ⟨hcond s a hs hmeets.1, fun t ht => ih t (hstep s a t hs hmeets.1 ht) (hmeets.2 t ht)⟩

theorem meets_append {cond : σ → α → Prop} {as bs : List α} {s t : σ} (has : Meets step cond s as)
    (hrun : run step s as = some t) (hbs : Meets step cond t bs) :
    Meets step cond s (as ++ bs) := by
  induction as generalizing s with
  | nil =>
    cases hrun
    exact hbs
  | cons a as ih =>
    obtain ⟨u, hu, hrest⟩ := Option.bind_eq_some_iff.mp hrun
    exact meets_cons has.1 hu (ih (has.2 u hu) hrest)

/-- Where every step adds its label to a trace, a run adds the labels of its events. -/
theorem run_trace {γ : Type*} {trace : σ → List γ} {labels : α → List γ}
    (hstep : ∀ s a t, step s a = some t → trace t = trace s ++ labels a) (as : List α) (s t : σ)
    (hrun : run step s as = some t) : trace t = trace s ++ as.flatMap labels := by
  induction as generalizing s with
  | nil =>
    cases hrun
    exact (List.append_nil _).symm
  | cons a as ih =>
    obtain ⟨u, hu, hrest⟩ := Option.bind_eq_some_iff.mp hrun
    rw [ih u hrest, hstep s a u hu, List.append_assoc]
    rfl

/-- Another system that matches every step under `cond` by a run that meets `cond'` and has the same
labels matches the runs under `cond` so. -/
theorem run_simulated {τ β γ : Type*} {step' : τ → β → Option τ} {cond : σ → α → Prop}
    {cond' : τ → β → Prop} {R : σ → τ → Prop} {trace : σ → List γ} {labels : β → List γ}
    (hstep : ∀ s a t u, R s u → cond s a → step s a = some t → ∃ bs v, run step' u bs = some v ∧
      Meets step' cond' u bs ∧ trace t = trace s ++ bs.flatMap labels ∧ R t v)
    (as : List α) (s t : σ) (u : τ) (hR : R s u) (hmeets : Meets step cond s as)
    (hrun : run step s as = some t) : ∃ bs v, run step' u bs = some v ∧
      Meets step' cond' u bs ∧ trace t = trace s ++ bs.flatMap labels ∧ R t v := by
  induction as generalizing s u with
  | nil =>
    cases hrun
    exact ⟨[], u, rfl, trivial, (List.append_nil _).symm, hR⟩
  | cons a as ih =>
    obtain ⟨s', hs', hrest⟩ := Option.bind_eq_some_iff.mp hrun
    obtain ⟨bs, u', hu', hbs, htrace, hR'⟩ := hstep s a s' u hR hmeets.1 hs'
    obtain ⟨bs', v, hv, hbs', htrace', hRv⟩ := ih s' u' hR' (hmeets.2 s' hs') hrest
    refine ⟨bs ++ bs', v, ?_, meets_append hbs hu' hbs', ?_, hRv⟩
    · rw [run_append, hu']
      exact hv
    · rw [htrace', htrace, List.flatMap_append, List.append_assoc]

/-- Another system that matches every step under `cond` by a run that meets `cond'` matches the runs
under `cond`. -/
theorem run_matched {τ β : Type*} {step' : τ → β → Option τ} {cond : σ → α → Prop}
    {cond' : τ → β → Prop} {R : σ → τ → Prop}
    (hstep : ∀ s a t u, R s u → cond s a → step s a = some t → ∃ bs v, run step' u bs = some v ∧
      Meets step' cond' u bs ∧ R t v)
    (as : List α) (s t : σ) (u : τ) (hR : R s u) (hmeets : Meets step cond s as)
    (hrun : run step s as = some t) :
    ∃ bs v, run step' u bs = some v ∧ Meets step' cond' u bs ∧ R t v := by
  obtain ⟨bs, v, hv, hbs, _, hRv⟩ := @run_simulated σ α step τ β Unit step' cond cond' R
    (fun _ => []) (fun _ => []) (fun s a t u hR hcond hstep' => by
      obtain ⟨bs, v, hv, hbs, hRv⟩ := hstep s a t u hR hcond hstep'
      exact ⟨bs, v, hv, hbs, by simp, hRv⟩) as s t u hR hmeets hrun
  exact ⟨bs, v, hv, hbs, hRv⟩

/-- Where the events of a hidden kind do not concern another system, and it takes the others along,
a run without the hidden events takes it along. -/
theorem run_filtered {τ : Type*} {step' : τ → α → Option τ} {R : σ → τ → Prop} {hidden : α → Bool}
    {cond : α → Prop}
    (hhidden : ∀ s a t u, R s u → cond a → hidden a = true → step s a = some t → R t u)
    (hshown : ∀ s a t u, R s u → cond a → hidden a = false → step s a = some t →
      ∃ v, step' u a = some v ∧ R t v)
    (as : List α) (s t : σ) (u : τ) (hR : R s u) (hcond : ∀ a ∈ as, cond a)
    (hrun : run step s as = some t) :
    ∃ v, run step' u (as.filter fun a => !hidden a) = some v ∧ R t v := by
  induction as generalizing s u with
  | nil =>
    cases hrun
    exact ⟨u, rfl, hR⟩
  | cons a as ih =>
    obtain ⟨s', hs', hrest⟩ := Option.bind_eq_some_iff.mp hrun
    obtain ⟨ha, has⟩ := List.forall_mem_cons.mp hcond
    by_cases hkind : hidden a = true
    · rw [List.filter_cons, if_neg (by rw [hkind]; decide)]
      exact ih s' u (hhidden s a s' u hR ha hkind hs') has hrest
    · rw [Bool.not_eq_true] at hkind
      obtain ⟨u', hu', hR'⟩ := hshown s a s' u hR ha hkind hs'
      obtain ⟨v, hv, hRv⟩ := ih s' u' hR' has hrest
      rw [List.filter_cons, if_pos (by rw [hkind]; decide), run, hu']
      exact ⟨v, hv, hRv⟩

/-- Where every step of some kind lowers a potential and the other steps do not raise it, a run has
no more steps of the kind than the potential falls. -/
theorem run_countP_le {f : σ → ℤ} {kind cond : α → Bool}
    (hstep : ∀ s a t, cond a = true → step s a = some t → f t + (if kind a then 1 else 0) ≤ f s)
    (as : List α) (s t : σ) (hcond : ∀ a ∈ as, cond a = true) (hrun : run step s as = some t) :
    f t + as.countP kind ≤ f s := by
  induction as generalizing s with
  | nil =>
    cases hrun
    rw [List.countP_nil, Nat.cast_zero, add_zero]
  | cons a as ih =>
    obtain ⟨u, hu, hrest⟩ := Option.bind_eq_some_iff.mp hrun
    obtain ⟨ha, has⟩ := List.forall_mem_cons.mp hcond
    have hhead := hstep s a u ha hu
    have htail := ih u has hrest
    rw [List.countP_cons]
    push_cast
    omega

/-- Where a step of some kind brings every state of `Inv` to its end or to a lower rank, a run of
such steps brings it to its end. -/
theorem run_reaches {Inv Done : σ → Prop} {kind : α → Prop} (rank : σ → ℕ)
    (hstep : ∀ s, Inv s → ∃ a t, kind a ∧ step s a = some t ∧ (Done t ∨ Inv t ∧ rank t < rank s))
    (s : σ) (hs : Inv s) : ∃ as t, (∀ a ∈ as, kind a) ∧ run step s as = some t ∧ Done t := by
  induction hn : rank s using Nat.strong_induction_on generalizing s with
  | _ n ih =>
    obtain ⟨a, t, ha, ht, hdone | ⟨hinv, hlt⟩⟩ := hstep s hs
    · refine ⟨[a], t, List.forall_mem_singleton.mpr ha, ?_, hdone⟩
      rw [run, ht]
      rfl
    · obtain ⟨as, u, has, hu, hdone⟩ := ih (rank t) (hn ▸ hlt) t hinv rfl
      refine ⟨a :: as, u, List.forall_mem_cons.mpr ⟨ha, has⟩, ?_, hdone⟩
      rw [run, ht]
      exact hu

end Transition
