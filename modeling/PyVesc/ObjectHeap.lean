import Mathlib.Data.List.Basic

/-!
# Objects shared by reference

A heap of mutable objects, each named by the number of objects that were there before it. A program
that writes only to an object which it has just created leaves what every older reference reads as
it is.
-/

structure ObjectHeap (α : Type*) where
  objects : List α
  deriving DecidableEq, Repr

namespace ObjectHeap

variable {α : Type*} {h h' h'' : ObjectHeap α}

def empty : ObjectHeap α := ⟨[]⟩

def read (h : ObjectHeap α) (ref : ℕ) : Option α := h.objects[ref]?

def create (h : ObjectHeap α) (x : α) : ObjectHeap α × ℕ := (⟨h.objects ++ [x]⟩, h.objects.length)

def write (h : ObjectHeap α) (ref : ℕ) (x : α) : ObjectHeap α := ⟨h.objects.set ref x⟩

/-- What could be read from `h` can still be read from `h'`. -/
def Extends (h h' : ObjectHeap α) : Prop := ∀ ref x, h.read ref = some x → h'.read ref = some x

theorem Extends.refl (h : ObjectHeap α) : h.Extends h := fun _ _ hx => hx

theorem Extends.trans (hab : h.Extends h') (hbc : h'.Extends h'') : h.Extends h'' :=
  fun ref x hx => hbc ref x (hab ref x hx)

theorem extends_append (h : ObjectHeap α) (xs : List α) : h.Extends ⟨h.objects ++ xs⟩ := by
  intro ref x hx
  have hlt := (List.getElem?_eq_some_iff.mp hx).1
  exact (List.getElem?_append_left hlt).trans hx

theorem read_append (h : ObjectHeap α) (x : α) :
    (⟨h.objects ++ [x]⟩ : ObjectHeap α).read h.objects.length = some x :=
  List.getElem?_concat_length

theorem extends_create (h : ObjectHeap α) (x : α) : h.Extends (h.create x).1 :=
  h.extends_append [x]

theorem read_create (h : ObjectHeap α) (x : α) : (h.create x).1.read (h.create x).2 = some x :=
  h.read_append x

theorem write_create (h : ObjectHeap α) (x y : α) :
    (h.create x).1.write (h.create x).2 y = (h.create y).1 := by
  change (⟨(h.objects ++ [x]).set h.objects.length y⟩ : ObjectHeap α) = ⟨h.objects ++ [y]⟩
  rw [List.set_append_right _ _ (Nat.le_refl _), Nat.sub_self]
  rfl

end ObjectHeap
