import PyVesc.PackRows

/-!
# Classes with uniform scalars

What was packed from a message of a class with uniform scalars is unpacked with every item scaled by
the scalar of its own field, so that the scalars are kept.
-/

namespace PyVesc

open StructFormat PyNumber VESCMessage

section Rows

variable {cls : MessageClass} {send : Bool} {rows : List Row}

theorem structUnpackFrom_rows (hsends : ∀ r ∈ rows, r.Sends) {body : Bytes}
    (hbody : StructFormat.pack (rows.map Row.format) (rows.map Row.item) = some body) (b : UInt8) :
    structUnpackFrom (rows.map Row.format) (b :: body) 1 = .ok (rows.map Row.item) := by
  have hback : List.Forall₂ (fun f v => ∀ bs, f.pack v = some bs → f.unpack bs = v)
      (rows.map Row.format) (rows.map Row.item) := by
    rw [List.forall₂_map_left_iff, List.forall₂_map_right_iff, List.forall₂_same]
    intro r hr bs hbs
    obtain ⟨bs', hbs', hitem⟩ := (hsends r hr).pack_item
    rw [show r.format.pack r.item = some bs' from hbs', Option.some.injEq] at hbs
    rw [← hbs]
    exact hitem
  have hlen := (length_eq_of_pack hbody).2
  rw [structUnpackFrom_eq, List.length_cons, hlen, Nat.add_comm 1, if_pos (Nat.le_refl _),
    List.drop_one, List.tail_cons, unpackItems_pack hback hbody]

/-- What an item becomes when its own scalar is applied. -/
def Row.got (r : Row) : PyVal := scaleDown r.field.scalar.toList 0 r.item

theorem Field.Sends.gets_scaleDown {f : Field} {v item : PyVal} (h : f.Sends v item)
    (hs : f.format.isS = false) : f.Gets item (scaleDown f.scalar.toList 0 item) := by
  cases h with
  | unscaled hformat hscalar =>
      rcases hscalar with hscalar | hscalar
      · rw [hscalar]
        exact Gets.unscaled hformat (Or.inl hscalar)
      · rw [hscalar]
        exact Gets.unscaled hformat (Or.inr hscalar)
  | scaled hformat hscalar hne =>
      apply Gets.scaled hformat hscalar hne
      rw [hscalar]
      simp only [scaleDown, Option.toList_some, List.getElem?_cons_zero, if_pos hne]
      exact Or.inr rfl
  | byteString hformat =>
      rw [hformat] at hs
      cases hs
  | text hformat =>
      rw [hformat] at hs
      cases hs

theorem mapIdx_scaleDown (huniform : AllOrNone (rows.map Row.field)) :
    (rows.map Row.item).mapIdx
      (scaleDown (FieldTable.ofFields (rows.map Row.field)).scalars) = rows.map Row.got := by
  apply List.ext_getElem?
  intro i
  rw [List.getElem?_mapIdx, List.getElem?_map, List.getElem?_map]
  cases hr : rows[i]? with
  | none => rfl
  | some r =>
      have hscalar := scalars_getElem? huniform hr
      have hzero : r.field.scalar.toList[0]? = r.field.scalar := by
        cases r.field.scalar <;> rfl
      simp only [Option.map_some, Row.got, scaleDown, hscalar, hzero]

theorem unpack_numbers (hdecl : cls.declared send = some (rows.map Row.field))
    (hnodup : ((rows.map Row.field).map Field.name).Nodup)
    (huniform : AllOrNone (rows.map Row.field))
    (hnumbers : ∀ f ∈ rows.map Row.field, f.format.isS = false)
    (hsends : ∀ r ∈ rows, r.Sends) {body : Bytes}
    (hbody : StructFormat.pack (rows.map Row.format) (rows.map Row.item) = some body) (b : UInt8) :
    ∃ msg, unpackAs cls (b :: body) send = .ok msg ∧ msg.cls = cls ∧
      ∀ r ∈ rows, msg.getattr r.name = .ok r.got := by
  obtain ⟨msg, hcall, hcls, hattr⟩ := MessageClass.call_rows hdecl hnodup Row.got
  have hstring := (FieldTable.stringField_ofFields _).mpr hnumbers
  have hplain := plainFormats_rows hnumbers
  refine ⟨msg, ?_, hcls, hattr⟩
  simp only [unpackAs, unpackTable_declared hdecl, hstring, hplain,
    structUnpackFrom_rows hsends hbody, mapIdx_scaleDown huniform, hcall, bind, Except.bind]

theorem isByteString_bind (huniform : AllOrNone (rows.map Row.field)) {i : ℕ} {r : Row}
    (hr : rows[i]? = some r) (k : Bool → Py Message) :
    (if (FieldTable.ofFields (rows.map Row.field)).scalars = [] then pure false >>= k
      else do
        let scalar ← getItem (FieldTable.ofFields (rows.map Row.field)).scalars i
        pure (decide (scalar = -1)) >>= k) = k (decide (r.field.scalar = some (-1))) := by
  have hscalar := scalars_getElem? huniform hr
  by_cases hnil : (FieldTable.ofFields (rows.map Row.field)).scalars = []
  · rw [hnil] at hscalar
    rw [if_pos hnil, ← hscalar]
    rfl
  · have hmem : r.field ∈ rows.map Row.field := List.mem_map_of_mem (List.mem_of_getElem? hr)
    rw [if_neg hnil, getItem, hscalar]
    cases hs : r.field.scalar with
    | none =>
        rcases huniform with hnone | hall
        · exact absurd (scalars_eq_nil hnone) hnil
        · exact absurd hs (hall _ hmem)
    | some s =>
        simp only [bind, Except.bind, pure, Except.pure, Option.some.injEq]

/-- Beside a text a number arrives as it was sent. -/
theorem Field.Sends.gets_item {f : Field} {v item : PyVal} (h : f.Sends v item)
    (hs : f.format.isS = false)
    (hscalar : f.scalar = none ∨ f.scalar = some 0 ∨ f.scalar = some 1) : f.Gets item item := by
  cases h with
  | unscaled hformat hnone => exact Gets.unscaled hformat hnone
  | scaled hformat hsome hne =>
      apply Gets.scaled hformat hsome hne
      rcases hscalar with hscalar | hscalar | hscalar
      · rw [hsome] at hscalar
        cases hscalar
      · rw [hsome] at hscalar
        cases hscalar
        exact absurd rfl hne
      · rw [hsome] at hscalar
        cases hscalar
        rw [div_one]
        exact Or.inl rfl
  | byteString hformat hminus => exact Gets.byteString hformat hminus
  | text hformat =>
      rw [hformat] at hs
      cases hs

/-- A text arrives as the field says, by either branch of `unpack`. -/
theorem Field.Sends.gets_text {f : Field} {v item : PyVal} (h : f.Sends v item)
    (hs : f.format.isS = true) (msg : PyVal → Message) :
    ∃ w, f.Gets item w ∧
      (if decide (f.scalar = some (-1)) = true then pure (msg item)
        else do
          let v ← decodeAscii item
          pure (msg v) : Py Message) = .ok (msg w) := by
  cases h with
  | unscaled hformat =>
      rw [hformat] at hs
      cases hs
  | scaled hformat =>
      rw [hformat] at hs
      cases hs
  | byteString hformat hminus =>
      refine ⟨_, Gets.byteString hformat hminus, ?_⟩
      rw [decide_eq_true hminus, if_pos rfl]
      rfl
  | text hformat hminus hencode =>
      have hdecode := (encodeAscii_eq_ok hencode).2
      refine ⟨_, Gets.text hformat hminus hdecode, ?_⟩
      rw [decide_eq_false hminus, if_neg Bool.false_ne_true, hdecode]
      rfl

theorem TextSplit.length_payload (hint : IntegerFields (rows.map Row.field))
    {before after : List Row} {r : Row} (h : TextSplit rows before r after) {body : Bytes}
    (hbody : StructFormat.pack (rows.map Row.format) (rows.map Row.item) = some body) :
    ∃ size, sizeWithoutString none (FieldTable.ofFields (rows.map Row.field)).formats = .ok size ∧
      body.length = size + byteLength r.item := by
  have hformats : ∀ f ∈ (FieldTable.ofFields (rows.map Row.field)).formats,
      f = .s ∨ ∃ k, f = .item (.int k) := by
    rw [FieldTable.formats_ofFields]
    intro f hf
    obtain ⟨field, hfield, rfl⟩ := List.mem_map.mp hf
    exact hint.formats field hfield
  refine ⟨_, sizeWithoutString_eq hformats, ?_⟩
  rw [(length_eq_of_pack hbody).2, map_format_fill h.byteLength_eq, calcsize_fill, h.countP_isS,
    Nat.one_mul]

/-- Beside a text the numbers arrive as they were sent. -/
theorem unpack_text (hdecl : cls.declared send = some (rows.map Row.field))
    (hint : IntegerFields (rows.map Row.field)) (huniform : AllOrNone (rows.map Row.field))
    {before after : List Row} {r : Row} (hsplit : TextSplit rows before r after)
    (hsends : ∀ r ∈ rows, r.Sends) {body : Bytes}
    (hbody : StructFormat.pack (rows.map Row.format) (rows.map Row.item) = some body) (b : UInt8) :
    ∃ msg, unpackAs cls (b :: body) send = .ok msg ∧ msg.cls = cls ∧
      (∃ w, msg.getattr r.name = .ok w ∧ r.Gets w) ∧
      ∀ r ∈ rows, r.field.format.isS = false → msg.getattr r.name = .ok r.item := by
  obtain ⟨msg, hcall, hcls, hattr⟩ := MessageClass.call_rows hdecl hint.names Row.item
  obtain ⟨size, hsize, hlen⟩ := hsplit.length_payload hint hbody
  have hlength : (b :: body).length - size - 1 = byteLength r.item := by
    rw [List.length_cons]
    omega
  have hlong : ¬ (b :: body).length < size + 1 := by
    rw [List.length_cons]
    omega
  obtain ⟨w, hw, htext⟩ := (hsends r hsplit.mem).gets_text hsplit.text (msg.setattr r.name)
  have hflag := isByteString_bind huniform hsplit.getElem? fun isByteString =>
    if isByteString = true then pure (msg.setattr r.name r.item)
    else do
      let v ← decodeAscii r.item
      pure (msg.setattr r.name v)
  refine ⟨msg.setattr r.name w, ?_, hcls, ⟨w, msg.getattr_setattr_self _ _, hw⟩, ?_⟩
  · simp only [unpackAs, unpackTable_declared hdecl, hsplit.stringField, hsize, hlength,
      hsplit.fillString_eq, if_neg hlong, structUnpackFrom_rows hsends hbody, hcall,
      hsplit.getItem_names, hattr r hsplit.mem, ok_bind]
    rw [hflag]
    exact htext
  · intro r' hr' hnumber
    rw [hsplit.getattr_setattr hint.names msg w hr' hnumber]
    exact hattr r' hr'

theorem unpack_registered {registry : Registry} (hreg : registry.lookup cls.id = some cls)
    (hid : cls.id ≤ 255) (body : Bytes) :
    VESCMessage.unpack registry (UInt8.ofNat cls.id :: body) send =
      unpackAs cls (UInt8.ofNat cls.id :: body) send := by
  have hnat : (UInt8.ofNat cls.id).toNat = cls.id := UInt8.toNat_ofNat_of_lt' (by
    change cls.id < 256
    omega)
  simp only [VESCMessage.unpack, msgType, hnat, hreg, ok_bind]

/-- What was packed item by item is unpacked with every item scaled by its own field. -/
theorem unpack_rows {registry : Registry} (hreg : registry.lookup cls.id = some cls)
    (hdecl : cls.declared send = some (rows.map Row.field))
    (hint : IntegerFields (rows.map Row.field)) (huniform : UniformScalars cls (rows.map Row.field))
    (hsends : ∀ r ∈ rows, r.Sends) {body : Bytes}
    (hbody : StructFormat.pack (rows.map Row.format) (rows.map Row.item) = some body) :
    ∃ msg, VESCMessage.unpack registry (UInt8.ofNat cls.id :: body) send = .ok msg ∧
      msg.cls = cls ∧ ∀ r ∈ rows, ∃ w, msg.getattr r.name = .ok w ∧ r.Gets w := by
  rw [unpack_registered hreg huniform.id_le]
  have hscalars : AllOrNone (rows.map Row.field) := huniform.uniform.imp_right AllScaled.scalars
  by_cases hnumbers : ∀ f ∈ rows.map Row.field, f.format.isS = false
  · obtain ⟨msg, hunpack, hmsg, hgot⟩ :=
      unpack_numbers hdecl hint.names hscalars hnumbers hsends hbody _
    refine ⟨msg, hunpack, hmsg, fun r hr => ⟨_, hgot r hr, ?_⟩⟩
    exact (hsends r hr).gets_scaleDown (hnumbers _ (List.mem_map_of_mem hr))
  · obtain ⟨before, r, after, hsplit⟩ := exists_textSplit hint.oneString hnumbers
    obtain ⟨msg, hunpack, hmsg, htext, hnumber⟩ :=
      unpack_text hdecl hint hscalars hsplit hsends hbody _
    refine ⟨msg, hunpack, hmsg, ?_⟩
    intro r' hr'
    by_cases hs' : r'.field.format.isS = true
    · rw [hsplit.unique hr' hs']
      exact htext
    · have hs' := Bool.eq_false_of_not_eq_true hs'
      refine ⟨r'.item, hnumber r' hr' hs', (hsends r' hr').gets_item hs' ?_⟩
      rcases huniform.uniform with hnone | hall
      · exact Or.inl (hnone _ (List.mem_map_of_mem hr'))
      · exact Or.inr (hall.string ⟨_, List.mem_map_of_mem hsplit.mem, hsplit.text⟩ _
          (List.mem_map_of_mem hr') hs')

end Rows

theorem keepsScalars_of_uniform {cls : MessageClass} {send : Bool} {fields : List Field}
    (hdecl : cls.declared send = some fields) (hint : IntegerFields fields)
    (huniform : UniformScalars cls fields) : KeepsScalars cls send := by
  intro registry m rows hreg hcls hcan hrows hsent
  have hfields : fields = rows.map Row.field := Option.some.inj (hdecl.symm.trans hrows)
  subst hfields
  have hsends : ∀ r ∈ rows, r.Sends := fun r hr => (hsent r hr).2
  obtain ⟨body, hbody, hpayload⟩ := payload_exists huniform.id_le hsends
  obtain ⟨msg, hunpack, hmsg, hgets⟩ := unpack_rows hreg hdecl hint huniform hsends hbody
  refine ⟨_, msg, pack_rows hcls hcan hdecl hint huniform hsent hpayload, hpayload, hunpack, hmsg,
    ?_⟩
  intro r hr
  obtain ⟨w, hw, hget⟩ := hgets r hr
  exact ⟨w, hw, hget, (hsends r hr).restores hget⟩

end PyVesc
