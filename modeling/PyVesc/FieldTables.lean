import PyVesc.MessageBase

/-!
# The tables of a class

What the metaclass collects from a list of fields: their names, their formats, and a string field
exactly if one of them is a variable-length string.
-/

namespace PyVesc

namespace FieldTable

theorem stringField_addField (t : FieldTable) (field : Field × ℕ) :
    (t.addField field).stringField = none ↔
      field.1.format.isS = false ∧ t.stringField = none := by
  cases h : field.1.format.isS <;> simp [addField, h]

theorem stringField_foldl (fields : List (Field × ℕ)) (t : FieldTable) :
    (fields.foldl addField t).stringField = none ↔
      (∀ field ∈ fields, field.1.format.isS = false) ∧ t.stringField = none := by
  induction fields generalizing t with
  | nil => simp
  | cons field fields ih =>
    rw [List.foldl_cons, ih, stringField_addField, List.forall_mem_cons]
    tauto

theorem stringField_ofFields (fields : List Field) :
    (ofFields fields).stringField = none ↔ ∀ field ∈ fields, field.format.isS = false := by
  rw [ofFields, stringField_foldl]
  constructor
  · rintro ⟨h, _⟩ field hmem
    obtain ⟨i, hi⟩ := List.mem_iff_getElem?.mp hmem
    exact h (field, i) (List.mem_zipIdx_iff_getElem?.mpr hi)
  · intro h
    exact ⟨fun field hmem => h _ (List.fst_mem_of_mem_zipIdx hmem), rfl⟩

theorem names_foldl (fields : List (Field × ℕ)) (t : FieldTable) :
    (fields.foldl addField t).names = t.names ++ fields.map (fun f => f.1.name) := by
  induction fields generalizing t with
  | nil => simp
  | cons field fields ih => rw [List.foldl_cons, ih]; simp [addField]

theorem formats_foldl (fields : List (Field × ℕ)) (t : FieldTable) :
    (fields.foldl addField t).formats = t.formats ++ fields.map (fun f => f.1.format) := by
  induction fields generalizing t with
  | nil => simp
  | cons field fields ih => rw [List.foldl_cons, ih]; simp [addField]

theorem map_fst_zipIdx {β : Type*} (fields : List Field) (f : Field → β) :
    fields.zipIdx.map (fun x => f x.1) = fields.map f := by
  rw [← Function.comp_def f Prod.fst, ← List.map_map, List.zipIdx_map_fst]

theorem names_ofFields (fields : List Field) :
    (ofFields fields).names = fields.map Field.name := by
  rw [ofFields, names_foldl, map_fst_zipIdx]
  rfl

theorem formats_ofFields (fields : List Field) :
    (ofFields fields).formats = fields.map Field.format := by
  rw [ofFields, formats_foldl, map_fst_zipIdx]
  rfl

theorem scalars_foldl (fields : List (Field × ℕ)) (t : FieldTable) :
    (fields.foldl addField t).scalars =
      t.scalars ++ fields.flatMap (fun f => f.1.scalar.toList) := by
  induction fields generalizing t with
  | nil => simp
  | cons field fields ih => rw [List.foldl_cons, ih]; simp [addField]

theorem scalars_ofFields (fields : List Field) :
    (ofFields fields).scalars = fields.flatMap (fun f => f.scalar.toList) := by
  rw [ofFields, scalars_foldl, List.flatMap, map_fst_zipIdx fields fun f => f.scalar.toList]
  rfl

theorem stringField_foldl_of_forall {fields : List (Field × ℕ)}
    (hnone : ∀ field ∈ fields, field.1.format.isS = false) (t : FieldTable) :
    (fields.foldl addField t).stringField = t.stringField := by
  induction fields generalizing t with
  | nil => rfl
  | cons field fields ih =>
      obtain ⟨hfield, hnone⟩ := List.forall_mem_cons.mp hnone
      rw [List.foldl_cons, ih hnone, addField, hfield]
      rfl

theorem stringField_append (before after : List Field) {field : Field}
    (hs : field.format.isS = true) (hnone : ∀ f ∈ after, f.format.isS = false) :
    (ofFields (before ++ field :: after)).stringField = some before.length := by
  have hafter : ∀ f ∈ after.zipIdx (0 + before.length + 1), f.1.format.isS = false :=
    fun f hf => hnone _ (List.fst_mem_of_mem_zipIdx hf)
  rw [ofFields, List.zipIdx_append, List.zipIdx_cons, List.foldl_append, List.foldl_cons,
    stringField_foldl_of_forall hafter, addField, hs, if_pos rfl, Nat.zero_add]

end FieldTable

end PyVesc
