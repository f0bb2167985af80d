import PyVesc.FieldTables

/-!
# Messages of fixed size

A class none of whose receive fields is a variable-length string unpacks every payload that is at
least as long as its layout, whatever the bytes are, and refuses the shorter ones. The message has a
value for every field.
-/

namespace PyVesc

open StructFormat VESCMessage

namespace Message

/-- The attribute has a value. -/
def Has (m : Message) (name : String) : Prop := ∃ v, m.getattr name = .ok v

theorem has_setattr_self (m : Message) (name : String) (v : PyVal) : (m.setattr name v).Has name :=
  ⟨v, by simp [getattr, setattr]⟩

theorem Has.setattr {m : Message} {name : String} (h : m.Has name) (other : String) (v : PyVal) :
    (m.setattr other v).Has name := by
  by_cases heq : name = other
  · rw [heq]
    exact m.has_setattr_self other v
  · obtain ⟨w, hw⟩ := h
    refine ⟨w, ?_⟩
    have hne : (name == other) = false := by simpa using heq
    simpa [getattr, Message.setattr, List.lookup_cons, hne] using hw

def setattrs (m : Message) (values : List (String × PyVal)) : Message :=
  values.foldl (fun m nv => m.setattr nv.1 nv.2) m

theorem cls_setattrs (m : Message) (values : List (String × PyVal)) :
    (m.setattrs values).cls = m.cls := by
  induction values generalizing m with
  | nil => rfl
  | cons nv values ih => exact ih (m.setattr nv.1 nv.2)

theorem has_setattrs {m : Message} {name : String} {values : List (String × PyVal)}
    (h : m.Has name ∨ name ∈ values.map Prod.fst) : (m.setattrs values).Has name := by
  induction values generalizing m with
  | nil =>
    change m.Has name
    simpa using h
  | cons nv values ih =>
    apply ih
    obtain h | h := h
    · exact Or.inl (h.setattr nv.1 nv.2)
    · obtain rfl | h := List.mem_cons.mp h
      · exact Or.inl (m.has_setattr_self nv.1 nv.2)
      · exact Or.inr h

end Message

/-- The bytes that fields of fixed size take on the wire. -/
def fixedSize (fields : List Field) : ℕ :=
  calcsize (fields.map fun field => field.format.fill 0)

theorem MessageClass.call_recv {cls : MessageClass} {fields : List Field}
    (hf : cls.recvFields = some fields) {args : List PyVal} (hlen : args.length = fields.length) :
    ∃ msg, cls.call args none false = .ok msg ∧ msg.cls = cls ∧
      ∀ field ∈ fields, msg.Has field.name := by
  have hnames : cls.recvTable.names = fields.map Field.name := by
    simp [recvTable, hf, FieldTable.names_ofFields]
  have hunpack : cls.fieldsToUnpack false = .ok (fields, cls.recvTable.names) := by
    cases hs : cls.sendFields <;> simp [fieldsToUnpack, hs, hf]
  by_cases hargs : args = []
  · refine ⟨⟨cls, none, []⟩, ?_, rfl, ?_⟩
    · simp only [call, hunpack, bind, Except.bind, if_pos hargs]
      rfl
    · intro field hmem
      rw [hargs] at hlen
      rw [List.eq_nil_of_length_eq_zero hlen.symm] at hmem
      cases hmem
  · refine ⟨Message.setattrs ⟨cls, none, []⟩ (cls.recvTable.names.zip args), ?_,
      Message.cls_setattrs _ _, ?_⟩
    · simp only [call, hunpack, bind, Except.bind, if_neg hargs, hlen, ne_eq, not_true, if_false]
      rfl
    · intro field hmem
      apply Message.has_setattrs
      have hle : cls.recvTable.names.length ≤ args.length := by
        rw [hnames, List.length_map, hlen]
      rw [List.map_fst_zip hle, hnames]
      exact Or.inr (List.mem_map_of_mem hmem)

theorem structUnpackFrom_eq (formats : List Format) (buffer : Bytes) (offset : ℕ) :
    structUnpackFrom formats buffer offset =
      if offset + calcsize formats ≤ buffer.length then
        .ok (unpackItems formats (buffer.drop offset))
      else .error .structError := by
  unfold structUnpackFrom StructFormat.unpackFrom
  split_ifs <;> rfl

theorem plainFormats_ofFields {fields : List Field}
    (hfix : ∀ field ∈ fields, field.format.isS = false) :
    plainFormats (FieldTable.ofFields fields).formats =
      .ok (fields.map fun field => field.format.fill 0) := by
  have hany : (fields.map Field.format).any FieldFormat.isS = false := by
    simpa using hfix
  rw [FieldTable.formats_ofFields, plainFormats, hany, if_neg (by decide), List.map_map]
  rfl

theorem unpackAs_fixed {cls : MessageClass} {fields : List Field}
    (hf : cls.recvFields = some fields) (hfix : ∀ field ∈ fields, field.format.isS = false)
    (msgBytes : Bytes) :
    if 1 + fixedSize fields ≤ msgBytes.length then
      ∃ msg, unpackAs cls msgBytes false = .ok msg ∧ msg.cls = cls ∧
        ∀ field ∈ fields, msg.Has field.name
    else unpackAs cls msgBytes false = .error .structError := by
  have htable : unpackTable cls false = .ok (FieldTable.ofFields fields) := by
    simp [unpackTable, hf, MessageClass.recvTable]
  have hstring := (FieldTable.stringField_ofFields fields).mpr hfix
  have hplain := plainFormats_ofFields hfix
  simp only [unpackAs, htable, bind, Except.bind, hstring, hplain, structUnpackFrom_eq, fixedSize]
  split_ifs with hle
  · exact MessageClass.call_recv hf (by simp)
  · rfl

/-- The ids in front of the fields, with their formats. -/
def Message.idItems (m : Message) : List Format × List PyVal :=
  match m.canId with
  | some canId => (canIdFmt ++ idFmt, [.int commForwardCan, .int canId, .int m.cls.id])
  | none => (idFmt, [.int m.cls.id])

/-- Packing without a string. -/
theorem pack_of_no_string [PyNumber.FloatArithmetic] {m : Message} {packSendFields : Bool}
    (hs : (packTable m.cls packSendFields).stringField = none) :
    VESCMessage.pack m false packSendFields = (do
      let values ← fieldValues m (packTable m.cls packSendFields)
      let formats ← plainFormats (packTable m.cls packSendFields).formats
      structPack (m.idItems.1 ++ formats) (m.idItems.2 ++ values)) := by
  rw [VESCMessage.pack, if_neg Bool.false_ne_true, Message.idItems]
  simp only [hs]
  cases m.canId <;> rfl

/-- Packing without a CAN id and without a string. -/
theorem pack_fixed {m : Message} {packSendFields : Bool} (formats : List Format)
    (values : List PyVal) (hcan : m.canId = none)
    (hs : (packTable m.cls packSendFields).stringField = none)
    (hvalues : fieldValues m (packTable m.cls packSendFields) = .ok values)
    (hformats : plainFormats (packTable m.cls packSendFields).formats = .ok formats) :
    VESCMessage.pack m false packSendFields =
      structPack (idFmt ++ formats) (.int m.cls.id :: values) := by
  rw [pack_of_no_string hs, hvalues, ok_bind, hformats, ok_bind, Message.idItems, hcan]
  rfl

end PyVesc
