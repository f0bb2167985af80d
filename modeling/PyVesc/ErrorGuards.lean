import PyVesc.PacketCodec

/-!
# Functions that refuse their arguments

A function that checks its arguments raises a `ValueError` exactly where a condition on them fails.
`Guards` says so together with what the result is like where the condition holds; it goes through
the steps of a function.
-/

namespace PyVesc

/-- A result with `Q` where `P` holds, and a `ValueError` elsewhere. -/
structure Guards {α : Type} (r : Py α) (P : Prop) (Q : α → Prop) : Prop where
  result : P → ∃ a, r = .ok a ∧ Q a
  refusal : ¬P → ∃ text, r = .error (.valueError text)

namespace Guards

variable {α β : Type} {r : Py α} {P P' : Prop} {Q Q' : α → Prop}

theorem pure (a : α) : Guards (.ok a) True (fun b => b = a) := by
  constructor
  · intro _
    exact ⟨a, rfl, rfl⟩
  · intro h
    exact absurd trivial h

theorem bind (h : Guards r P Q) {f : α → Py β} {R : β → Prop}
    (hf : ∀ a, Q a → Guards (f a) P' R) : Guards (r >>= f) (P ∧ P') R := by
  constructor
  · rintro ⟨hP, hP'⟩
    obtain ⟨a, hr, ha⟩ := h.result hP
    rw [hr, ok_bind]
    exact (hf a ha).result hP'
  · intro hnot
    by_cases hP : P
    · obtain ⟨a, hr, ha⟩ := h.result hP
      rw [hr, ok_bind]
      exact (hf a ha).refusal (fun hP' => hnot ⟨hP, hP'⟩)
    · obtain ⟨text, hr⟩ := h.refusal hP
      rw [hr]
      exact ⟨text, rfl⟩

theorem map (h : Guards r P Q) {f : α → β} {R : β → Prop} (hf : ∀ a, Q a → R (f a)) :
    Guards (r >>= fun a => .ok (f a)) P R := by
  constructor
  · intro hP
    obtain ⟨a, hr, ha⟩ := h.result hP
    rw [hr, ok_bind]
    exact ⟨f a, rfl, hf a ha⟩
  · intro hP
    obtain ⟨text, hr⟩ := h.refusal hP
    rw [hr]
    exact ⟨text, rfl⟩

theorem congr (h : Guards r P Q) (hP : P ↔ P') (hQ : ∀ a, Q a → Q' a) : Guards r P' Q' := by
  constructor
  · intro hP'
    obtain ⟨a, hr, ha⟩ := h.result (hP.mpr hP')
    exact ⟨a, hr, hQ a ha⟩
  · intro hP'
    exact h.refusal (fun hp => hP' (hP.mp hp))

theorem valueError_iff (h : Guards r P Q) : (∃ text, r = .error (.valueError text)) ↔ ¬P := by
  constructor
  · rintro ⟨text, hr⟩ hP
    obtain ⟨a, hok, _⟩ := h.result hP
    rw [hr] at hok
    cases hok
  · exact h.refusal

end Guards

end PyVesc
