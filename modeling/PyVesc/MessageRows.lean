import PyVesc.FieldScalars

/-!
# The rows of a message

A row is a field with its value and the item that is sent for it. Here are the tables, the formats
and the attributes of a message made of rows. A text, if there is one, splits the rows in those
before it and those after it (`TextSplit`).
-/

namespace PyVesc

open StructFormat VESCMessage

namespace Message

theorem getattr_setattr_self (m : Message) (name : String) (v : PyVal) :
    (m.setattr name v).getattr name = .ok v := by
  simp [getattr, setattr]

theorem getattr_setattr_of_ne (m : Message) {name other : String} (hne : name ≠ other) (v : PyVal) :
    (m.setattr other v).getattr name = m.getattr name := by
  have hbeq : (name == other) = false := beq_false_of_ne hne
  simp [getattr, setattr, List.lookup_cons, hbeq]

theorem getattr_setattrs_of_notMem (m : Message) {name : String} {values : List (String × PyVal)}
    (hname : name ∉ values.map Prod.fst) : (m.setattrs values).getattr name = m.getattr name := by
  induction values generalizing m with
  | nil => rfl
  | cons nv values ih =>
      rw [List.map_cons, List.mem_cons, not_or] at hname
      change ((m.setattr nv.1 nv.2).setattrs values).getattr name = _
      rw [ih _ hname.2, getattr_setattr_of_ne m hname.1]

theorem getattr_setattrs (m : Message) {values : List (String × PyVal)}
    (hnodup : (values.map Prod.fst).Nodup) :
    ∀ nv ∈ values, (m.setattrs values).getattr nv.1 = .ok nv.2 := by
  induction values generalizing m with
  | nil =>
      intro nv hnv
      cases hnv
  | cons nv values ih =>
      rw [List.map_cons, List.nodup_cons] at hnodup
      intro nv' hnv'
      change ((m.setattr nv.1 nv.2).setattrs values).getattr nv'.1 = _
      rcases List.mem_cons.mp hnv' with rfl | hmem
      · rw [getattr_setattrs_of_notMem _ hnodup.1, getattr_setattr_self]
      · exact ih _ hnodup.2 nv' hmem

end Message

section Rows

variable {cls : MessageClass} {send : Bool} {rows : List Row}

theorem MessageClass.fieldsToUnpack_declared {fields : List Field}
    (hfields : cls.declared send = some fields) :
    cls.fieldsToUnpack send = .ok (fields, fields.map Field.name) := by
  cases send with
  | true =>
      change cls.sendFields = _ at hfields
      cases hrecv : cls.recvFields <;>
        simp [fieldsToUnpack, hfields, hrecv, sendTable, FieldTable.names_ofFields]
  | false =>
      change cls.recvFields = _ at hfields
      cases hsend : cls.sendFields <;>
        simp [fieldsToUnpack, hfields, hsend, recvTable, FieldTable.names_ofFields]

theorem packTable_declared {fields : List Field} (hfields : cls.declared send = some fields) :
    packTable cls send = FieldTable.ofFields fields := by
  cases send with
  | true =>
      change cls.sendFields = _ at hfields
      simp [packTable, MessageClass.sendTable, hfields]
  | false =>
      change cls.recvFields = _ at hfields
      simp [packTable, MessageClass.recvTable, hfields]

theorem unpackTable_declared {fields : List Field} (hfields : cls.declared send = some fields) :
    unpackTable cls send = .ok (FieldTable.ofFields fields) := by
  cases send with
  | true =>
      change cls.sendFields = _ at hfields
      simp [unpackTable, MessageClass.sendTable, hfields]
  | false =>
      change cls.recvFields = _ at hfields
      simp [unpackTable, MessageClass.recvTable, hfields]

/-- A new message has the values it was called with. -/
theorem MessageClass.call_rows (hfields : cls.declared send = some (rows.map Row.field))
    (hnodup : ((rows.map Row.field).map Field.name).Nodup) (value : Row → PyVal) :
    ∃ msg, cls.call (rows.map value) none send = .ok msg ∧ msg.cls = cls ∧
      ∀ r ∈ rows, msg.getattr r.name = .ok (value r) := by
  have hnames : (rows.map Row.field).map Field.name = rows.map Row.name := List.map_map
  rw [hnames] at hnodup
  have hunpack := fieldsToUnpack_declared hfields
  rw [hnames] at hunpack
  by_cases hrows : rows.map value = []
  · refine ⟨⟨cls, none, []⟩, ?_, rfl, ?_⟩
    · simp only [call, hunpack, bind, Except.bind, if_pos hrows]
      rfl
    · intro r hr
      rw [List.map_eq_nil_iff.mp hrows] at hr
      cases hr
  · have hzip : (rows.map Row.name).zip (rows.map value) = rows.map fun r => (r.name, value r) :=
      List.zip_map'
    refine ⟨Message.setattrs ⟨cls, none, []⟩ (rows.map fun r => (r.name, value r)), ?_,
      Message.cls_setattrs _ _, ?_⟩
    · simp only [call, hunpack, bind, Except.bind, if_neg hrows, List.length_map, ne_eq,
        not_true, if_false, hzip]
      rfl
    · intro r hr
      have hfst : (rows.map fun r => (r.name, value r)).map Prod.fst = rows.map Row.name :=
        List.map_map
      exact Message.getattr_setattrs _ (hfst ▸ hnodup) _ (List.mem_map_of_mem hr)

theorem scalars_eq_nil {fields : List Field} (hnone : ∀ f ∈ fields, f.scalar = none) :
    (FieldTable.ofFields fields).scalars = [] := by
  rw [FieldTable.scalars_ofFields, List.flatMap_eq_nil_iff]
  intro f hf
  rw [hnone f hf]
  rfl

theorem scalars_eq_map {fields : List Field} (hall : ∀ f ∈ fields, f.scalar ≠ none) :
    (FieldTable.ofFields fields).scalars = fields.map fun f => f.scalar.getD 0 := by
  rw [FieldTable.scalars_ofFields]
  induction fields with
  | nil => rfl
  | cons f fields ih =>
      obtain ⟨hf, hfields⟩ := List.forall_mem_cons.mp hall
      obtain ⟨s, hs⟩ := Option.ne_none_iff_exists'.mp hf
      rw [List.flatMap_cons, ih hfields, List.map_cons, hs]
      rfl

theorem getItem_eq_ok {α : Type*} {l : List α} {i : ℕ} {x : α} (h : getItem l i = .ok x) :
    l[i]? = some x := by
  unfold getItem at h
  cases hx : l[i]? with
  | none =>
      rw [hx] at h
      cases h
  | some y =>
      rw [hx] at h
      cases h
      rfl

/-- The fields have a scalar all, or none of them has one. -/
def AllOrNone (fields : List Field) : Prop :=
  (∀ f ∈ fields, f.scalar = none) ∨ ∀ f ∈ fields, f.scalar ≠ none

theorem scalars_getElem? (huniform : AllOrNone (rows.map Row.field)) {i : ℕ} {r : Row}
    (hr : rows[i]? = some r) :
    (FieldTable.ofFields (rows.map Row.field)).scalars[i]? = r.field.scalar := by
  have hmem : r.field ∈ rows.map Row.field := List.mem_map_of_mem (List.mem_of_getElem? hr)
  rcases huniform with hnone | hall
  · rw [scalars_eq_nil hnone, hnone _ hmem]
    rfl
  · obtain ⟨s, hs⟩ := Option.ne_none_iff_exists'.mp (hall _ hmem)
    rw [scalars_eq_map hall, List.getElem?_map, List.getElem?_map, hr, hs]
    exact congrArg some (congrArg (fun o => Option.getD o 0) hs)

theorem FieldFormat.fill_eq {f : FieldFormat} (hf : f.isS = false) (a b : ℕ) :
    f.fill a = f.fill b := by
  cases f with
  | s => cases hf
  | item f => rfl

theorem calcsize_fill (fs : List FieldFormat) (n : ℕ) :
    calcsize (fs.map (FieldFormat.fill n)) =
      calcsize (fs.map (FieldFormat.fill 0)) + fs.countP FieldFormat.isS * n := by
  induction fs with
  | nil => simp [calcsize]
  | cons f fs ih =>
      simp only [calcsize, List.map_cons, List.sum_cons] at ih ⊢
      rw [ih]
      cases f with
      | s =>
          rw [List.countP_cons_of_pos rfl, Nat.add_one_mul]
          simp only [FieldFormat.fill, Format.size]
          omega
      | item f =>
          rw [List.countP_cons_of_neg Bool.false_ne_true]
          simp only [FieldFormat.fill]
          omega

theorem sizeWithoutString_eq {fs : List FieldFormat}
    (hfs : ∀ f ∈ fs, f = .s ∨ ∃ k, f = .item (.int k)) :
    sizeWithoutString none fs = .ok (calcsize (fs.map (FieldFormat.fill 0))) := by
  induction fs with
  | nil => rfl
  | cons f fs ih =>
      obtain ⟨hf, htail⟩ := List.forall_mem_cons.mp hfs
      rcases hf with rfl | ⟨k, rfl⟩
      · rw [sizeWithoutString, ih htail]
        simp only [calcsize, List.map_cons, List.sum_cons, FieldFormat.fill, Format.size, zero_add]
      · simp only [sizeWithoutString, ih htail, bind, Except.bind, pure, Except.pure,
          Option.getD_none, one_mul, calcsize, List.map_cons, List.sum_cons, FieldFormat.fill]

theorem map_format_fill {n : ℕ}
    (hn : ∀ r ∈ rows, r.field.format.isS = true → byteLength r.item = n) :
    rows.map Row.format = ((FieldTable.ofFields (rows.map Row.field)).formats).map
      (FieldFormat.fill n) := by
  rw [FieldTable.formats_ofFields, List.map_map, List.map_map]
  apply List.map_congr_left
  intro r hr
  by_cases hs : r.field.format.isS = true
  · change r.field.format.fill (byteLength r.item) = _
    rw [hn r hr hs]
    rfl
  · exact FieldFormat.fill_eq (Bool.eq_false_of_not_eq_true hs) _ _

theorem plainFormats_rows (hnumbers : ∀ f ∈ rows.map Row.field, f.format.isS = false) :
    plainFormats (FieldTable.ofFields (rows.map Row.field)).formats =
      .ok (rows.map Row.format) := by
  have hany : (FieldTable.ofFields (rows.map Row.field)).formats.any FieldFormat.isS = false := by
    rw [FieldTable.formats_ofFields, List.any_map]
    simpa using hnumbers
  rw [plainFormats, hany, if_neg Bool.false_ne_true, map_format_fill]
  intro r hr hs
  rw [hnumbers _ (List.mem_map_of_mem hr)] at hs
  cases hs

/-- The bytes of a message whose rows are all sent. -/
theorem payload_exists (hid : cls.id ≤ 255) (hsends : ∀ r ∈ rows, r.Sends) :
    ∃ body, StructFormat.pack (rows.map Row.format) (rows.map Row.item) = some body ∧
      StructFormat.pack (.int .B :: rows.map Row.format) (.int cls.id :: rows.map Row.item) =
        some (UInt8.ofNat cls.id :: body) := by
  have hitems : ∀ r ∈ rows, ∃ bs, r.format.pack r.item = some bs := by
    intro r hr
    obtain ⟨bs, hbs, _⟩ := (hsends r hr).pack_item
    exact ⟨bs, hbs⟩
  obtain ⟨body, hbody⟩ := pack_map_isSome hitems
  refine ⟨body, hbody, ?_⟩
  have hhead : (Format.int .B).pack (.int cls.id) = some [UInt8.ofNat cls.id] :=
    IntFormat.pack_B hid
  rw [StructFormat.pack, hhead, hbody]
  rfl

end Rows

/-! ### The text among the rows -/

/-- The row `r` is the only text. -/
structure TextSplit (rows before : List Row) (r : Row) (after : List Row) : Prop where
  eq : rows = before ++ r :: after
  text : r.field.format.isS = true
  numbers_before : ∀ r ∈ before, r.field.format.isS = false
  numbers_after : ∀ r ∈ after, r.field.format.isS = false

theorem exists_textSplit {rows : List Row}
    (hone : (rows.map Row.field).countP (fun f => f.format.isS) ≤ 1)
    (htext : ¬ ∀ f ∈ rows.map Row.field, f.format.isS = false) :
    ∃ before r after, TextSplit rows before r after := by
  obtain ⟨f, hf, hs⟩ : ∃ f ∈ rows.map Row.field, f.format.isS = true := by
    by_contra hnone
    apply htext
    intro f hf
    by_contra hs
    exact hnone ⟨f, hf, Bool.eq_true_of_not_eq_false hs⟩
  obtain ⟨r, hr, rfl⟩ := List.mem_map.mp hf
  obtain ⟨before, after, rfl⟩ := List.append_of_mem hr
  rw [List.countP_map, List.countP_append, List.countP_cons_of_pos (by exact hs)] at hone
  have hbefore : before.countP ((fun f => f.format.isS) ∘ Row.field) = 0 := by omega
  have hafter : after.countP ((fun f => f.format.isS) ∘ Row.field) = 0 := by omega
  refine ⟨before, r, after, rfl, hs, ?_, ?_⟩
  · intro r hr
    exact Bool.eq_false_of_not_eq_true (List.countP_eq_zero.mp hbefore r hr)
  · intro r hr
    exact Bool.eq_false_of_not_eq_true (List.countP_eq_zero.mp hafter r hr)

namespace TextSplit

variable {rows before after : List Row} {r : Row}

theorem getElem? (h : TextSplit rows before r after) : rows[before.length]? = some r := by
  rw [h.eq, List.getElem?_append_right (Nat.le_refl _), Nat.sub_self]
  rfl

theorem mem (h : TextSplit rows before r after) : r ∈ rows := List.mem_of_getElem? h.getElem?

theorem unique (h : TextSplit rows before r after) {r' : Row} (hr' : r' ∈ rows)
    (hs' : r'.field.format.isS = true) : r' = r := by
  rw [h.eq, List.mem_append, List.mem_cons] at hr'
  rcases hr' with hmem | rfl | hmem
  · rw [h.numbers_before r' hmem] at hs'
    cases hs'
  · rfl
  · rw [h.numbers_after r' hmem] at hs'
    cases hs'

theorem byteLength_eq (h : TextSplit rows before r after) :
    ∀ r' ∈ rows, r'.field.format.isS = true → byteLength r'.item = byteLength r.item := by
  intro r' hr' hs'
  rw [h.unique hr' hs']

theorem getItem_names (h : TextSplit rows before r after) :
    getItem (FieldTable.ofFields (rows.map Row.field)).names before.length = .ok r.name := by
  rw [getItem, FieldTable.names_ofFields, List.getElem?_map, List.getElem?_map, h.getElem?]
  rfl

theorem stringField (h : TextSplit rows before r after) :
    (FieldTable.ofFields (rows.map Row.field)).stringField = some before.length := by
  rw [h.eq, List.map_append, List.map_cons, FieldTable.stringField_append _ _ h.text,
    List.length_map]
  intro f hf
  obtain ⟨r, hr, rfl⟩ := List.mem_map.mp hf
  exact h.numbers_after r hr

theorem countP_isS (h : TextSplit rows before r after) :
    (FieldTable.ofFields (rows.map Row.field)).formats.countP FieldFormat.isS = 1 := by
  have hzero : ∀ l : List Row, (∀ r ∈ l, r.field.format.isS = false) →
      (l.map fun r => r.field.format).countP FieldFormat.isS = 0 := by
    intro l hl
    rw [List.countP_eq_zero]
    intro f hf
    obtain ⟨r, hr, rfl⟩ := List.mem_map.mp hf
    rw [hl r hr]
    exact Bool.false_ne_true
  rw [FieldTable.formats_ofFields, List.map_map, h.eq, List.map_append, List.map_cons,
    List.countP_append, List.countP_cons_of_pos (by exact h.text)]
  have hb := hzero before h.numbers_before
  have ha := hzero after h.numbers_after
  change List.countP _ (before.map fun r => r.field.format) +
    (List.countP _ (after.map fun r => r.field.format) + 1) = 1
  omega

theorem fillString_eq (h : TextSplit rows before r after) :
    fillString (FieldTable.ofFields (rows.map Row.field)).formats (byteLength r.item) =
      .ok (rows.map Row.format) := by
  rw [fillString, if_pos h.countP_isS, map_format_fill h.byteLength_eq]

/-- Setting the text leaves the other attributes as they are. -/
theorem getattr_setattr (h : TextSplit rows before r after)
    (hnames : ((rows.map Row.field).map Field.name).Nodup) (msg : Message) (w : PyVal) {r' : Row}
    (hr' : r' ∈ rows) (hnumber : r'.field.format.isS = false) :
    (msg.setattr r.name w).getattr r'.name = msg.getattr r'.name := by
  apply msg.getattr_setattr_of_ne
  intro hsame
  rw [List.map_map] at hnames
  rw [List.inj_on_of_nodup_map hnames hr' h.mem hsame, h.text] at hnumber
  cases hnumber

end TextSplit

end PyVesc
