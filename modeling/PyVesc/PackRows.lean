import PyVesc.MessageRows

/-!
# Packing a message of a class with uniform scalars

Such a message is packed item by item, each scaled by the scalar of its own field.
-/

namespace PyVesc

open StructFormat VESCMessage

theorem mapM_map_ok {α β γ : Type} {f : β → Py γ} {key : α → β} {out : α → γ} {l : List α}
    (h : ∀ a ∈ l, f (key a) = .ok (out a)) : (l.map key).mapM f = .ok (l.map out) := by
  induction l with
  | nil => rfl
  | cons a l ih =>
      obtain ⟨ha, hl⟩ := List.forall_mem_cons.mp h
      rw [List.map_cons, List.mapM_cons, ha, ih hl, List.map_cons]
      rfl

section Rows

variable {cls : MessageClass} {send : Bool} {rows : List Row}

/-- What `pack` takes for the values before it encodes the text. -/
def Row.raw (r : Row) : PyVal := if r.field.Unscaled then r.value else r.item

theorem Row.raw_scaled {r : Row} (hr : r.Sends) {s : ℚ} (hs : r.field.scalar = some s)
    (hscaled : ¬ r.field.Unscaled) : scaleToInt r.value s = .ok r.item := by
  obtain ⟨field, value, item⟩ := r
  change field.scalar = some s at hs
  change scaleToInt value s = .ok item
  change ¬ field.Unscaled at hscaled
  cases hr with
  | unscaled _ hscalar => exact absurd (Or.inr hscalar) hscaled
  | scaled _ hscalar _ hv =>
      rw [hs] at hscalar
      cases hscalar
      exact scaleToInt_product hv
  | byteString hformat => exact absurd (Or.inl (by rw [hformat]; rfl)) hscaled
  | text hformat => exact absurd (Or.inl (by rw [hformat]; rfl)) hscaled

theorem fieldValues_rows {m : Message} (hcls : m.cls = cls)
    (hrows : ∀ r ∈ rows, m.getattr r.name = .ok r.value ∧ r.Sends)
    (huniform : (∀ f ∈ rows.map Row.field, f.scalar = none) ∨
      AllScaled cls (rows.map Row.field)) :
    fieldValues m (FieldTable.ofFields (rows.map Row.field)) = .ok (rows.map Row.raw) := by
  have hnames : (FieldTable.ofFields (rows.map Row.field)).names = rows.map Row.name := by
    rw [FieldTable.names_ofFields]
    exact List.map_map
  rcases huniform with hnone | hall
  · rw [fieldValues, if_pos (scalars_eq_nil hnone), hnames]
    apply mapM_map_ok
    intro r hr
    have hunscaled : r.field.Unscaled := Or.inr (Or.inl (hnone _ (List.mem_map_of_mem hr)))
    rw [(hrows r hr).1, Row.raw, if_pos hunscaled]
  · obtain ⟨sendFields, hsend, hplace⟩ := hall.sends
    have hscalars : (FieldTable.ofFields (rows.map Row.field)).scalars =
        rows.map fun r => r.field.scalar.getD 0 := (scalars_eq_map hall.scalars).trans List.map_map
    by_cases hnil : rows = []
    · subst hnil
      rfl
    · have hne : ¬ (FieldTable.ofFields (rows.map Row.field)).scalars = [] := by
        rw [hscalars]
        exact fun h => hnil (List.map_eq_nil_iff.mp h)
      have hzip : (rows.map Row.name).zip (rows.map fun r => r.field.scalar.getD 0) =
          rows.map fun r => (r.name, r.field.scalar.getD 0) := List.zip_map'
      have hout : rows.map Row.raw = rows.zipIdx.map fun x => x.1.raw := by
        rw [← Function.comp_def Row.raw Prod.fst, ← List.map_map, List.zipIdx_map_fst]
      rw [fieldValues, if_neg hne, hnames, hscalars, hzip, List.zipIdx_map, hout]
      apply mapM_map_ok
      rintro ⟨r, i⟩ hr
      have hget : rows[i]? = some r := List.mem_zipIdx_iff_getElem?.mp hr
      have hmem : r ∈ rows := List.mem_of_getElem? hget
      obtain ⟨hattr, hsends⟩ := hrows r hmem
      obtain ⟨g, hg, hiff⟩ := hplace i r.field (by rw [List.getElem?_map, hget]; rfl)
      obtain ⟨s, hs⟩ := Option.ne_none_iff_exists'.mp (hall.scalars _ (List.mem_map_of_mem hmem))
      simp only [Prod.map, hcls, hsend, getItem, hg, hattr, hs, Option.getD_some, bind, Except.bind,
        pure, Except.pure, id]
      by_cases hunscaled : r.field.Unscaled
      · rw [if_pos (hiff.mpr hunscaled), Row.raw, if_pos hunscaled]
      · rw [if_neg fun h => hunscaled (hiff.mp h), Row.raw, if_neg hunscaled]
        exact Row.raw_scaled hsends hs hunscaled

theorem Row.pack_raw {r : Row} (hr : r.Sends) (hs : r.field.format.isS = false) :
    r.format.pack r.raw = r.format.pack r.item := by
  obtain ⟨field, value, item⟩ := r
  change field.format.isS = false at hs
  change (field.format.fill (byteLength item)).pack (if field.Unscaled then value else item) =
    (field.format.fill (byteLength item)).pack item
  by_cases hunscaled : field.Unscaled
  · rw [if_pos hunscaled]
    cases hr with
    | unscaled hformat _ hv =>
        rw [hformat]
        exact pack_integer hv _
    | scaled _ hscalar hne =>
        rcases hunscaled with h | h | h
        · rw [hs] at h
          cases h
        · rw [hscalar] at h
          cases h
        · rw [hscalar] at h
          cases h
          exact absurd rfl hne
    | byteString => rfl
    | text hformat =>
        rw [hformat] at hs
        cases hs
  · rw [if_neg hunscaled]

theorem structPack_rows {values : List PyVal} {payload : Bytes}
    (hpack : StructFormat.pack (.int .B :: rows.map Row.format) (.int cls.id :: values) =
      some payload) :
    structPack (idFmt ++ rows.map Row.format) (.int cls.id :: values) = .ok payload := by
  change structPack (.int .B :: rows.map Row.format) (.int cls.id :: values) = _
  rw [structPack, hpack]

theorem pack_numbers {m : Message} (hcls : m.cls = cls) (hcan : m.canId = none)
    (hdecl : cls.declared send = some (rows.map Row.field))
    (hvalues : fieldValues m (FieldTable.ofFields (rows.map Row.field)) = .ok (rows.map Row.raw))
    (hnumbers : ∀ f ∈ rows.map Row.field, f.format.isS = false)
    (hsends : ∀ r ∈ rows, r.Sends) {payload : Bytes}
    (hpack : StructFormat.pack (.int .B :: rows.map Row.format) (.int cls.id :: rows.map Row.item) =
      some payload) :
    VESCMessage.pack m false send = .ok payload := by
  subst hcls
  have htable := packTable_declared hdecl
  have hraw : StructFormat.pack (rows.map Row.format) (rows.map Row.raw) =
      StructFormat.pack (rows.map Row.format) (rows.map Row.item) := by
    apply pack_map_congr
    intro r hr
    exact Row.pack_raw (hsends r hr) (hnumbers _ (List.mem_map_of_mem hr))
  have hplain := plainFormats_rows hnumbers
  have hstring := (FieldTable.stringField_ofFields _).mpr hnumbers
  rw [pack_fixed (rows.map Row.format) (rows.map Row.raw) hcan (by rw [htable]; exact hstring)
    (by rw [htable]; exact hvalues) (by rw [htable]; exact hplain)]
  apply structPack_rows
  rw [StructFormat.pack, hraw, ← StructFormat.pack]
  exact hpack

/-- What `pack` hands to `struct.pack`. -/
def Row.sent (r : Row) : PyVal := if r.field.format.isS then r.item else r.raw

theorem Row.pack_sent {r : Row} (hr : r.Sends) : r.format.pack r.sent = r.format.pack r.item := by
  by_cases hs : r.field.format.isS = true
  · rw [sent, if_pos hs]
  · rw [sent, if_neg hs, pack_raw hr (Bool.eq_false_of_not_eq_true hs)]

namespace TextSplit

variable {before after : List Row} {r : Row}

theorem raw_text (h : TextSplit rows before r after) : r.raw = r.value := if_pos (Or.inl h.text)

theorem sent_text (h : TextSplit rows before r after) : r.sent = r.item := if_pos h.text

theorem set_raw (h : TextSplit rows before r after) :
    (rows.map Row.raw).set before.length r.item = rows.map Row.sent := by
  have hnumbers : ∀ l : List Row, (∀ r ∈ l, r.field.format.isS = false) →
      l.map Row.raw = l.map Row.sent := by
    intro l hl
    apply List.map_congr_left
    intro r hr
    rw [Row.sent, hl r hr, if_neg Bool.false_ne_true]
  rw [h.eq, List.map_append, List.map_append, List.map_cons, List.map_cons,
    List.set_append_right _ _ (by rw [List.length_map]), List.length_map, Nat.sub_self,
    List.set_cons_zero, hnumbers before h.numbers_before, hnumbers after h.numbers_after,
    h.sent_text]

theorem raw_eq_sent (h : TextSplit rows before r after) (heq : r.value = r.item) :
    rows.map Row.raw = rows.map Row.sent := by
  apply List.map_congr_left
  intro r' hr'
  by_cases hs' : r'.field.format.isS = true
  · rw [h.unique hr' hs', h.raw_text, h.sent_text, heq]
  · rw [Row.sent, if_neg hs']

theorem stringValues_eq (h : TextSplit rows before r after) {m : Message}
    (hattr : m.getattr r.name = .ok r.value) (hsends : r.Sends)
    (huniform : AllOrNone (rows.map Row.field)) :
    stringValues m (FieldTable.ofFields (rows.map Row.field)) before.length (rows.map Row.raw) =
      .ok (byteLength r.item, rows.map Row.sent) := by
  have hname := h.getItem_names
  have hitem : getItem (rows.map Row.raw) before.length = .ok r.value := by
    rw [getItem, List.getElem?_map, h.getElem?, ← h.raw_text]
    rfl
  have hset := h.set_raw
  have hself := h.raw_eq_sent
  have hscalar := scalars_getElem? huniform h.getElem?
  have hs := h.text
  obtain ⟨field, value, item⟩ := r
  change field.Sends value item at hsends
  change _ = field.scalar at hscalar
  cases hsends with
  | unscaled hformat =>
      rw [hformat] at hs
      cases hs
  | scaled hformat =>
      rw [hformat] at hs
      cases hs
  | byteString hformat hminus =>
      rw [hminus] at hscalar
      simp only [stringValues, hname, hattr, len, hscalar, if_true, ok_bind, hself]
      rfl
  | text hformat hminus hencode =>
      have hne : ¬ (FieldTable.ofFields (rows.map Row.field)).scalars[before.length]? =
          some (-1) := by
        rw [hscalar]
        exact hminus
      simp only [stringValues, hname, hattr, len, if_neg hne, hitem, hencode, hset, bind,
        Except.bind, pure, Except.pure, byteLength, (encodeAscii_eq_ok hencode).1]

end TextSplit

theorem pack_text {m : Message} (hcls : m.cls = cls) (hcan : m.canId = none)
    (hdecl : cls.declared send = some (rows.map Row.field))
    (hvalues : fieldValues m (FieldTable.ofFields (rows.map Row.field)) = .ok (rows.map Row.raw))
    {before after : List Row} {r : Row} (hsplit : TextSplit rows before r after)
    (hstring : stringValues m (FieldTable.ofFields (rows.map Row.field)) before.length
      (rows.map Row.raw) = .ok (byteLength r.item, rows.map Row.sent))
    (hsends : ∀ r ∈ rows, r.Sends) {payload : Bytes}
    (hpack : StructFormat.pack (.int .B :: rows.map Row.format) (.int cls.id :: rows.map Row.item) =
      some payload) :
    VESCMessage.pack m false send = .ok payload := by
  subst hcls
  have hsent : StructFormat.pack (rows.map Row.format) (rows.map Row.sent) =
      StructFormat.pack (rows.map Row.format) (rows.map Row.item) :=
    pack_map_congr fun r hr => Row.pack_sent (hsends r hr)
  have hstruct : structPack (idFmt ++ rows.map Row.format) (.int m.cls.id :: rows.map Row.sent) =
      .ok payload := by
    apply structPack_rows
    rw [StructFormat.pack, hsent, ← StructFormat.pack]
    exact hpack
  simp only [VESCMessage.pack, Bool.false_eq_true, if_false, packTable_declared hdecl, hvalues,
    hsplit.stringField, hstring, hcan, hsplit.fillString_eq, hstruct, bind, Except.bind]

/-- A message of a class with uniform scalars is packed item by item. -/
theorem pack_rows {m : Message} (hcls : m.cls = cls) (hcan : m.canId = none)
    (hdecl : cls.declared send = some (rows.map Row.field))
    (hint : IntegerFields (rows.map Row.field)) (huniform : UniformScalars cls (rows.map Row.field))
    (hrows : ∀ r ∈ rows, m.getattr r.name = .ok r.value ∧ r.Sends) {payload : Bytes}
    (hpack : StructFormat.pack (.int .B :: rows.map Row.format) (.int cls.id :: rows.map Row.item) =
      some payload) :
    VESCMessage.pack m false send = .ok payload := by
  have hsends : ∀ r ∈ rows, r.Sends := fun r hr => (hrows r hr).2
  have hvalues := fieldValues_rows hcls hrows huniform.uniform
  by_cases hnumbers : ∀ f ∈ rows.map Row.field, f.format.isS = false
  · exact pack_numbers hcls hcan hdecl hvalues hnumbers hsends hpack
  · obtain ⟨before, r, after, hsplit⟩ := exists_textSplit hint.oneString hnumbers
    have hstring := hsplit.stringValues_eq (hrows r hsplit.mem).1 (hsends r hsplit.mem)
      (huniform.uniform.imp_right AllScaled.scalars)
    exact pack_text hcls hcan hdecl hvalues hsplit hstring hsends hpack

theorem id_le_of_pack {id : ℕ} {formats : List Format} {values : List PyVal} {payload : Bytes}
    (h : StructFormat.pack (.int .B :: formats) (.int id :: values) = some payload) :
    id ≤ 255 := by
  by_contra hid
  obtain ⟨_, _, hhead, _⟩ := pack_cons_eq_some h
  have hnone := IntFormat.pack_B_none (Nat.lt_of_not_le hid)
  rw [show (Format.int .B).pack (.int id) = IntFormat.pack .B id from rfl, hnone] at hhead
  cases hhead

/-- Only a class whose id is one byte has payloads. -/
theorem id_le_of_packed {m : Message} (hcan : m.canId = none) {payload : Bytes}
    (h : VESCMessage.pack m false send = .ok payload) : m.cls.id ≤ 255 := by
  rw [VESCMessage.pack, if_neg Bool.false_ne_true] at h
  obtain ⟨values, _, h⟩ := bind_eq_ok h
  cases hs : (packTable m.cls send).stringField with
  | none =>
      simp only [hs, hcan] at h
      obtain ⟨formats, _, h⟩ := bind_eq_ok h
      exact id_le_of_pack (structPack_eq_ok h)
  | some i =>
      simp only [hs, hcan] at h
      obtain ⟨sent, _, h⟩ := bind_eq_ok h
      obtain ⟨formats, _, h⟩ := bind_eq_ok h
      exact id_le_of_pack (structPack_eq_ok h)

end Rows

end PyVesc
