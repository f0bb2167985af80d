import PyVesc.NumericMessages

/-!
# Classes with other scalars

On a class whose scalars are not uniform there is a message that `pack` refuses, or sends with
another number than the one of its scalar, or that `unpack` does not scale back. One message shows
it for every such class: all its numbers are sent as 1, or 2 where the scalar is rounded up, and its
text is empty.
-/

namespace PyVesc

open StructFormat PyNumber VESCMessage

/-- A value that the field should send as 1, or 2, or as no text. -/
def Field.probe (f : Field) : Row :=
  if f.format.isS then
    if f.scalar = some (-1) then ⟨f, .bytes [], .bytes []⟩ else ⟨f, .str "", .bytes []⟩
  else if f.Unscaled then ⟨f, .int 1, .int 1⟩
  else
    let value := PyVal.float (unitFor (f.scalar.getD 1))
    ⟨f, value, .int (truncate ((product value (f.scalar.getD 1)).getD 0))⟩

theorem Field.probe_field (f : Field) : f.probe.field = f := by
  unfold probe
  split_ifs <;> rfl

theorem map_probe_field (fields : List Field) :
    (fields.map Field.probe).map Row.field = fields := by
  rw [List.map_map]
  nth_rewrite 2 [← List.map_id fields]
  apply List.map_congr_left
  intro f _
  exact f.probe_field

/-- A number is sent as 1 or 2. -/
theorem Field.probe_item {f : Field} (hs : f.format.isS = false) (hf : f.Moderate) :
    ∃ z : ℤ, (z = 1 ∨ z = 2) ∧ f.probe.item = .int z ∧
      (¬ f.Unscaled → ∀ s, f.scalar = some s →
        ∃ p, product f.probe.value s = some p ∧ truncate p = z) := by
  rw [probe, hs, if_neg Bool.false_ne_true]
  by_cases hunscaled : f.Unscaled
  · rw [if_pos hunscaled]
    exact ⟨1, Or.inl rfl, rfl, fun h => absurd hunscaled h⟩
  · rw [if_neg hunscaled]
    obtain ⟨s, hscalar, hmoderate⟩ := hf.resolve_left hunscaled
    obtain ⟨p, hp, hlow, hhigh⟩ := hmoderate.product_unitFor
    have hz : truncate p = 1 ∨ truncate p = 2 := by
      have hfloor : 1 ≤ ⌊p⌋ ∧ ⌊p⌋ < 3 := by
        rw [Int.le_floor, Int.floor_lt]
        push_cast
        exact ⟨hlow, by linarith⟩
      rw [truncate_of_nonneg (by linarith)]
      omega
    refine ⟨truncate p, hz, ?_, ?_⟩
    · simp only [hscalar, Option.getD_some, hp]
    · intro _ s' hs'
      rw [hscalar] at hs'
      cases hs'
      simp only [hscalar, Option.getD_some]
      exact ⟨p, hp, rfl⟩

theorem Field.probe_sends {f : Field} (hf : f.format = .s ∨ ∃ k, f.format = .item (.int k))
    (hmoderate : f.Moderate) : f.probe.Sends := by
  have hsmall : ∀ (k : IntFormat) (z : ℤ), z = 1 ∨ z = 2 → k.inRange z := by
    rintro k z (rfl | rfl) <;> cases k <;> decide
  rcases hf with hs | ⟨k, hk⟩
  · have hisS : f.format.isS = true := by rw [hs]; rfl
    rw [probe, if_pos hisS]
    by_cases hminus : f.scalar = some (-1)
    · rw [if_pos hminus]
      exact Field.Sends.byteString hs hminus
    · rw [if_neg hminus]
      exact Field.Sends.text hs hminus (by decide)
  · have hisS : f.format.isS = false := by rw [hk]; rfl
    by_cases hunscaled : f.Unscaled
    · rw [probe, hisS, if_neg Bool.false_ne_true, if_pos hunscaled]
      have hscalar := hunscaled.resolve_left (by rw [hisS]; exact Bool.false_ne_true)
      exact Field.Sends.unscaled hk hscalar rfl (hsmall k 1 (Or.inl rfl))
    · obtain ⟨z, hz, hitem, hproduct⟩ := Field.probe_item hisS hmoderate
      obtain ⟨s, hscalar, _⟩ := hmoderate.resolve_left hunscaled
      obtain ⟨p, hp, rfl⟩ := hproduct hunscaled s hscalar
      have hne : s ≠ 0 := by
        rintro rfl
        exact hunscaled (Or.inr (Or.inr hscalar))
      rw [Row.Sends, f.probe_field, hitem]
      exact Field.Sends.scaled hk hscalar hne hp (hsmall k _ hz)

theorem Field.probe_byteLength {f : Field} (hs : f.format.isS = true) :
    byteLength f.probe.item = 0 ∧ len f.probe.value = .ok 0 := by
  rw [probe, if_pos hs]
  split_ifs <;> exact ⟨rfl, rfl⟩

theorem stringValues_eq_ok {m : Message} {t : FieldTable} {i n : ℕ} {values sent : List PyVal}
    (h : stringValues m t i values = .ok (n, sent)) :
    ∃ name v, getItem t.names i = .ok name ∧ m.getattr name = .ok v ∧ len v = .ok n ∧
      (sent = values ∨ ∃ encoded, sent = values.set i encoded) := by
  obtain ⟨name, hname, h⟩ := bind_eq_ok h
  obtain ⟨v, hv, h⟩ := bind_eq_ok h
  obtain ⟨n', hn', h⟩ := bind_eq_ok h
  refine ⟨name, v, hname, hv, ?_⟩
  split_ifs at h
  · cases h
    exact ⟨hn', Or.inl rfl⟩
  · obtain ⟨value, _, h⟩ := bind_eq_ok h
    obtain ⟨encoded, _, h⟩ := bind_eq_ok h
    cases h
    exact ⟨hn', Or.inr ⟨encoded, rfl⟩⟩

section Probe

variable {cls : MessageClass} {send : Bool} {fields : List Field} {m : Message}

/-- The text of the message of probes. -/
theorem TextSplit.getElem?_probe {before after : List Row} {r : Row}
    (h : TextSplit (fields.map Field.probe) before r after) :
    fields[before.length]? = some r.field ∧ r = r.field.probe := by
  have hget := h.getElem?
  rw [List.getElem?_map] at hget
  obtain ⟨f, hf, rfl⟩ := Option.map_eq_some_iff.mp hget
  rw [f.probe_field]
  exact ⟨hf, rfl⟩

/-- What `pack` does with that text: it has no bytes, and the numbers stay. -/
theorem stringValues_probe {before after : List Row} {r : Row}
    (hsplit : TextSplit (fields.map Field.probe) before r after)
    (hattr : ∀ f ∈ fields, m.getattr f.name = .ok f.probe.value) {n : ℕ} {values sent : List PyVal}
    (h : stringValues m (FieldTable.ofFields fields) before.length values = .ok (n, sent)) :
    n = byteLength r.item ∧ sent.length = values.length ∧
      ∀ (i : ℕ) (f : Field), fields[i]? = some f → f.format.isS = false →
        sent[i]? = values[i]? := by
  obtain ⟨hget, hr⟩ := hsplit.getElem?_probe
  obtain ⟨name, v, hname, hv, hlen, hcases⟩ := stringValues_eq_ok h
  refine ⟨?_, ?_, ?_⟩
  · obtain ⟨hitem, hvalue⟩ := Field.probe_byteLength hsplit.text
    rw [getItem, FieldTable.names_ofFields, List.getElem?_map, hget] at hname
    cases hname
    rw [hattr _ (List.mem_of_getElem? hget)] at hv
    cases hv
    rw [hvalue] at hlen
    cases hlen
    rw [hr, hitem]
  · rcases hcases with rfl | ⟨encoded, rfl⟩
    · rfl
    · exact List.length_set
  · intro i f hf hnumber
    have hne : i ≠ before.length := by
      rintro rfl
      rw [hget] at hf
      cases hf
      rw [hsplit.text] at hnumber
      cases hnumber
    rcases hcases with rfl | ⟨encoded, rfl⟩
    · rfl
    · exact List.getElem?_set_ne hne.symm

/-- What `pack` took for the values, when it packed the message of probes. -/
theorem pack_probe (hcls : m.cls = cls) (hcan : m.canId = none)
    (hdecl : cls.declared send = some fields) (hint : IntegerFields fields)
    (hattr : ∀ f ∈ fields, m.getattr f.name = .ok f.probe.value) {payload : Bytes}
    (h : VESCMessage.pack m false send = .ok payload) :
    ∃ values sent, fieldValues m (FieldTable.ofFields fields) = .ok values ∧
      sent.length = values.length ∧
      (∀ (i : ℕ) (f : Field), fields[i]? = some f → f.format.isS = false →
        sent[i]? = values[i]?) ∧
      StructFormat.pack (.int .B :: (fields.map Field.probe).map Row.format)
        (.int cls.id :: sent) = some payload := by
  subst hcls
  have hrows := map_probe_field fields
  rw [VESCMessage.pack, if_neg Bool.false_ne_true, packTable_declared hdecl] at h
  obtain ⟨values, hvalues, h⟩ := bind_eq_ok h
  by_cases hnumbers : ∀ f ∈ (fields.map Field.probe).map Row.field, f.format.isS = false
  · have hstring := (FieldTable.stringField_ofFields _).mpr hnumbers
    have hplain := plainFormats_rows hnumbers
    rw [hrows] at hstring hplain
    simp only [hstring, hplain, hcan, ok_bind] at h
    exact ⟨values, values, hvalues, rfl, fun _ _ _ _ => rfl, structPack_eq_ok h⟩
  · obtain ⟨before, r, after, hsplit⟩ :=
      exists_textSplit (by rw [hrows]; exact hint.oneString) hnumbers
    have hstring := hsplit.stringField
    have hfill := hsplit.fillString_eq
    rw [hrows] at hstring hfill
    rw [hstring] at h
    obtain ⟨⟨n, sent⟩, hsent, h⟩ := bind_eq_ok h
    simp only [hcan] at h
    obtain ⟨formats, hformats, h⟩ := bind_eq_ok h
    obtain ⟨hn, hlen, hsame⟩ := stringValues_probe hsplit hattr hsent
    rw [hn, hfill] at hformats
    cases hformats
    exact ⟨values, sent, hvalues, hlen, hsame, structPack_eq_ok h⟩

theorem length_scalars_lt {f : Field} (hf : f ∈ fields) (hnone : f.scalar = none) :
    (FieldTable.ofFields fields).scalars.length < fields.length := by
  have hle : ∀ l : List Field, (l.flatMap fun f => f.scalar.toList).length ≤ l.length := by
    intro l
    induction l with
    | nil => exact Nat.le_refl _
    | cons g l ih =>
        rw [List.flatMap_cons, List.length_append, List.length_cons]
        cases g.scalar <;> simp only [Option.toList_none, Option.toList_some, List.length_nil,
          List.length_singleton] <;> omega
  obtain ⟨before, after, rfl⟩ := List.append_of_mem hf
  have hb := hle before
  have ha := hle after
  rw [FieldTable.scalars_ofFields, List.flatMap_append, List.flatMap_cons, hnone,
    Option.toList_none, List.nil_append, List.length_append, List.length_append, List.length_cons]
  omega

theorem mapM_eq_ok {α β : Type} {f : α → Py β} {l : List α} {out : List β}
    (h : l.mapM f = .ok out) : out.length = l.length ∧
      ∀ (i : ℕ) (a : α), l[i]? = some a → ∃ b, out[i]? = some b ∧ f a = .ok b := by
  induction l generalizing out with
  | nil =>
      cases h
      exact ⟨rfl, fun i a ha => by cases ha⟩
  | cons a l ih =>
      rw [List.mapM_cons] at h
      obtain ⟨b, hb, h⟩ := bind_eq_ok h
      obtain ⟨bs, hbs, h⟩ := bind_eq_ok h
      cases h
      obtain ⟨hlen, hget⟩ := ih hbs
      refine ⟨congrArg Nat.succ hlen, ?_⟩
      intro i x hx
      cases i with
      | zero =>
          cases hx
          exact ⟨b, rfl, hb⟩
      | succ i => exact hget i x hx

/-- With scalars, as many values are taken as there are scalars. -/
theorem length_fieldValues {values : List PyVal}
    (hscalars : (FieldTable.ofFields fields).scalars ≠ [])
    (h : fieldValues m (FieldTable.ofFields fields) = .ok values) :
    values.length ≤ (FieldTable.ofFields fields).scalars.length := by
  rw [fieldValues, if_neg hscalars] at h
  rw [(mapM_eq_ok h).1, List.length_zipIdx, List.length_zip]
  exact Nat.min_le_right _ _

/-- The name, the scalar and the place of a field, as `pack` runs through them. -/
theorem zipIdx_getElem? (hall : ∀ f ∈ fields, f.scalar ≠ none) {i : ℕ} {f : Field}
    (hf : fields[i]? = some f) :
    (((FieldTable.ofFields fields).names.zip (FieldTable.ofFields fields).scalars).zipIdx)[i]? =
      some ((f.name, f.scalar.getD 0), i) := by
  have hzip : (fields.map Field.name).zip (fields.map fun f => f.scalar.getD 0) =
      fields.map fun f => (f.name, f.scalar.getD 0) := List.zip_map'
  rw [scalars_eq_map hall, FieldTable.names_ofFields, hzip, List.getElem?_zipIdx,
    List.getElem?_map, hf, Nat.zero_add]
  rfl

theorem fieldValues_scaled (hcls : m.cls = cls) (hall : ∀ f ∈ fields, f.scalar ≠ none)
    (hne : fields ≠ []) {values : List PyVal}
    (h : fieldValues m (FieldTable.ofFields fields) = .ok values) :
    ∃ sendFields, cls.sendFields = some sendFields ∧
      ∀ (i : ℕ) (f : Field), fields[i]? = some f → ∃ (g : Field) (v x : PyVal),
        sendFields[i]? = some g ∧ m.getattr f.name = .ok v ∧ values[i]? = some x ∧
        (if g.format.isS = true then .ok v else scaleToInt v (f.scalar.getD 0) : Py PyVal) =
          .ok x := by
  subst hcls
  have hnil : ¬ (FieldTable.ofFields fields).scalars = [] := by
    rw [scalars_eq_map hall]
    exact fun h => hne (List.map_eq_nil_iff.mp h)
  rw [fieldValues, if_neg hnil] at h
  have hget := (mapM_eq_ok h).2
  cases hsend : m.cls.sendFields with
  | none =>
      obtain ⟨f, rest, rfl⟩ := List.exists_cons_of_ne_nil hne
      obtain ⟨x, _, hx⟩ := hget 0 _ (zipIdx_getElem? (f := f) hall rfl)
      simp only [hsend] at hx
      cases hx
  | some sendFields =>
      refine ⟨sendFields, rfl, ?_⟩
      intro i f hf
      obtain ⟨x, hvalue, hx⟩ := hget i _ (zipIdx_getElem? hall hf)
      simp only [hsend] at hx
      obtain ⟨g, hg, hx⟩ := bind_eq_ok hx
      obtain ⟨v, hv, hx⟩ := bind_eq_ok hx
      exact ⟨g, v, x, getItem_eq_ok hg, hv, hvalue, hx⟩

/-- The scalars of the fields decide which send fields must be texts. -/
theorem unscaled_iff_of_probe (hint : IntegerFields fields)
    (hattr : ∀ f ∈ fields, m.getattr f.name = .ok f.probe.value)
    (hall : ∀ f ∈ fields, f.scalar ≠ none) {i : ℕ} {f g : Field} {v x : PyVal}
    (hf : fields[i]? = some f) (hv : m.getattr f.name = .ok v)
    (hx : (if g.format.isS = true then .ok v else scaleToInt v (f.scalar.getD 0) : Py PyVal) =
      .ok x)
    (hpack : f.format.isS = false → ∃ bs, f.probe.format.pack x = some bs ∧
      f.probe.format.pack f.probe.item = some bs) :
    g.format.isS = true ↔ f.Unscaled := by
  have hmem : f ∈ fields := List.mem_of_getElem? hf
  rw [hattr f hmem] at hv
  cases hv
  have hformat : f.probe.format = f.format.fill (byteLength f.probe.item) := by
    rw [Row.format, f.probe_field]
  constructor
  · intro hg
    rw [if_pos hg] at hx
    cases hx
    by_contra hscaled
    have hs : ¬ f.format.isS = true := fun h => hscaled (Or.inl h)
    obtain ⟨bs, hbs, _⟩ := hpack (Bool.eq_false_of_not_eq_true hs)
    obtain hformat' | ⟨k, hk⟩ := hint.formats f hmem
    · rw [hformat'] at hs
      exact hs rfl
    · rw [hformat, hk, Field.probe, if_neg hs, if_neg hscaled] at hbs
      cases hbs
  · intro hunscaled
    by_contra hg
    rw [if_neg hg] at hx
    by_cases hs : f.format.isS = true
    · rw [Field.probe, if_pos hs] at hx
      split_ifs at hx <;> cases hx
    · obtain ⟨bs, hbs, hbs'⟩ := hpack (Bool.eq_false_of_not_eq_true hs)
      have hzero : f.scalar = some 0 :=
        (hunscaled.resolve_left hs).resolve_left (hall f hmem)
      obtain hformat' | ⟨k, hk⟩ := hint.formats f hmem
      · rw [hformat'] at hs
        exact hs rfl
      · rw [hzero, Field.probe, if_neg hs, if_pos hunscaled] at hx
        have hx0 : x = .int 0 := by
          have hscale : scaleToInt (.int 1) 0 = .ok (.int 0) := by decide +kernel
          exact (Except.ok.inj (hscale.symm.trans hx)).symm
        rw [hformat, hk, Field.probe, if_neg hs, if_pos hunscaled] at hbs hbs'
        rw [hx0] at hbs
        have h0 := IntFormat.unpack_pack (f := k) (z := 0) hbs
        have h1 := IntFormat.unpack_pack (f := k) (z := 1) hbs'
        rw [h0] at h1
        cases h1

/-- A 1 or 2 that should arrive as it was sent is not scaled, or by 1. -/
theorem Field.Gets.scalar_of_same {f : Field} {z : ℤ} (h : f.Gets (.int z) (.int z))
    (hz : z = 1 ∨ z = 2) (hf : f.Moderate) (hs : f.format.isS = false) :
    f.scalar = none ∨ f.scalar = some 0 ∨ f.scalar = some 1 := by
  cases h with
  | unscaled _ hscalar => exact hscalar.imp_right Or.inl
  | @scaled _ s _ _ _ hscalar hne hw =>
      by_cases hone : f.scalar = some 1
      · exact Or.inr (Or.inr hone)
      obtain hunscaled | ⟨t, ht, hmoderate⟩ := hf
      · have hnone := hunscaled.resolve_left (by rw [hs]; exact Bool.false_ne_true)
        exact hnone.imp_right Or.inl
      rw [hscalar] at ht hone
      cases ht
      have hone' : s ≠ 1 := fun h => hone (congrArg some h)
      have hz0 : (z : ℚ) ≠ 0 := by obtain rfl | rfl := hz <;> norm_num
      rcases hw with hw | hw
      · have heq : (z : ℚ) = z / s := Option.some.inj hw
        rw [eq_div_iff hne, mul_eq_left₀ hz0] at heq
        exact absurd heq hone'
      · exact absurd hw.symm (quotient_ne hz hne hone' hmoderate.kind)

/-- The message of probes. -/
def probeMessage (cls : MessageClass) (fields : List Field) : Message :=
  Message.setattrs ⟨cls, none, []⟩ (fields.map fun f => (f.name, f.probe.value))

theorem canId_setattrs (m : Message) (values : List (String × PyVal)) :
    (m.setattrs values).canId = m.canId := by
  induction values generalizing m with
  | nil => rfl
  | cons nv values ih => exact ih (m.setattr nv.1 nv.2)

theorem getattr_probeMessage (hint : IntegerFields fields) :
    ∀ f ∈ fields, (probeMessage cls fields).getattr f.name = .ok f.probe.value := by
  intro f hf
  have hfst : (fields.map fun f => (f.name, f.probe.value)).map Prod.fst =
      fields.map Field.name := List.map_map
  exact Message.getattr_setattrs _ (hfst ▸ hint.names) _ (List.mem_map_of_mem hf)

theorem scalars_of_probe (hdecl : cls.declared send = some fields) (hint : IntegerFields fields)
    {payload : Bytes} (hpack : VESCMessage.pack (probeMessage cls fields) false send = .ok payload)
    (hspec : StructFormat.pack (.int .B :: (fields.map Field.probe).map Row.format)
      (.int cls.id :: (fields.map Field.probe).map Row.item) = some payload)
    (hsome : ¬ ∀ f ∈ fields, f.scalar = none) :
    (∀ f ∈ fields, f.scalar ≠ none) ∧ ∃ sendFields, cls.sendFields = some sendFields ∧
      ∀ (i : ℕ) (f : Field), fields[i]? = some f →
        ∃ g : Field, sendFields[i]? = some g ∧ (g.format.isS = true ↔ f.Unscaled) := by
  have hattr : ∀ f ∈ fields, (probeMessage cls fields).getattr f.name = .ok f.probe.value :=
    getattr_probeMessage hint
  obtain ⟨values, sent, hvalues, hlen, hsame, hpayload⟩ :=
    pack_probe (Message.cls_setattrs _ _) (canId_setattrs _ _) hdecl hint hattr hpack
  have hsent : sent.length = fields.length := by
    have hboth := (length_eq_of_pack hpayload).1
    simpa using hboth
  have hall : ∀ f ∈ fields, f.scalar ≠ none := by
    intro f hf hnone
    have hne : (FieldTable.ofFields fields).scalars ≠ [] := by
      intro hnil
      rw [FieldTable.scalars_ofFields, List.flatMap_eq_nil_iff] at hnil
      exact hsome fun g hg => Option.toList_eq_nil_iff.mp (hnil g hg)
    have hle := length_fieldValues hne hvalues
    have hlt := length_scalars_lt hf hnone
    omega
  have hnil : fields ≠ [] := by
    rintro rfl
    exact hsome fun f hf => by cases hf
  obtain ⟨sendFields, hsend, hplace⟩ :=
    fieldValues_scaled (Message.cls_setattrs _ _) hall hnil hvalues
  refine ⟨hall, sendFields, hsend, ?_⟩
  intro i f hf
  obtain ⟨g, v, x, hg, hv, hvalue, hx⟩ := hplace i f hf
  refine ⟨g, hg, unscaled_iff_of_probe hint hattr hall hf hv hx ?_⟩
  intro hnumber
  have hrow : (fields.map Field.probe)[i]? = some f.probe := by
    rw [List.getElem?_map, hf]
    rfl
  have hformat : (.int .B :: (fields.map Field.probe).map Row.format)[i + 1]? =
      some f.probe.format := by
    rw [List.getElem?_cons_succ, List.getElem?_map, hrow]
    rfl
  have hitem : (.int cls.id :: (fields.map Field.probe).map Row.item)[i + 1]? =
      some f.probe.item := by
    rw [List.getElem?_cons_succ, List.getElem?_map, hrow]
    rfl
  have hx' : (.int cls.id :: sent)[i + 1]? = some x := by
    rw [List.getElem?_cons_succ, hsame i f hf hnumber, hvalue]
  exact ⟨_, pack_item hpayload hformat hx', pack_item hspec hformat hitem⟩

theorem uniform_of_keepsScalars (hdecl : cls.declared send = some fields)
    (hint : IntegerFields fields) (hmoderate : ∀ f ∈ fields, f.Moderate)
    (hkeeps : KeepsScalars cls send) : UniformScalars cls fields := by
  have hrows := map_probe_field fields
  have hprobe : ∀ r ∈ fields.map Field.probe,
      (probeMessage cls fields).getattr r.name = .ok r.value ∧ r.Sends := by
    intro r hr
    obtain ⟨f, hf, rfl⟩ := List.mem_map.mp hr
    rw [Row.name, f.probe_field]
    exact ⟨getattr_probeMessage hint f hf,
      Field.probe_sends (hint.formats f hf) (hmoderate f hf)⟩
  have hsends : ∀ r ∈ fields.map Field.probe, r.Sends := fun r hr => (hprobe r hr).2
  have hreg : List.lookup cls.id [(cls.id, cls)] = some cls := by
    rw [List.lookup_cons, beq_self_eq_true]
  obtain ⟨payload, msg, hpack, hspec, hunpack, _, hgets⟩ := hkeeps [(cls.id, cls)]
    (probeMessage cls fields) (fields.map Field.probe) hreg (Message.cls_setattrs _ _)
    (canId_setattrs _ _) (by rw [hrows]; exact hdecl) hprobe
  have hid := id_le_of_pack hspec
  refine ⟨hid, ?_⟩
  by_cases hnone : ∀ f ∈ fields, f.scalar = none
  · exact Or.inl hnone
  · obtain ⟨hall, hplace⟩ := scalars_of_probe hdecl hint hpack hspec hnone
    refine Or.inr ⟨hall, hplace, ?_⟩
    rintro ⟨text, htext, hs⟩ f hf hnumber
    have hint' : IntegerFields ((fields.map Field.probe).map Row.field) := by
      rw [hrows]
      exact hint
    have hdecl' : cls.declared send = some ((fields.map Field.probe).map Row.field) := by
      rw [hrows]
      exact hdecl
    obtain ⟨before, r, after, hsplit⟩ := exists_textSplit hint'.oneString fun h => by
      rw [hrows] at h
      rw [h text htext] at hs
      cases hs
    obtain ⟨body, hbody, hpayload⟩ := payload_exists hid hsends
    rw [hspec] at hpayload
    cases hpayload
    obtain ⟨msg', hunpack', _, _, hnumbers⟩ := unpack_text hdecl' hint'
      (Or.inr (by rw [hrows]; exact hall)) hsplit hsends hbody (UInt8.ofNat cls.id)
    rw [unpack_registered hreg hid, hunpack'] at hunpack
    cases hunpack
    have hmem : f.probe ∈ fields.map Field.probe := List.mem_map_of_mem hf
    obtain ⟨w, hw, hget, _⟩ := hgets _ hmem
    have hitem := hnumbers _ hmem (by rw [f.probe_field]; exact hnumber)
    obtain ⟨z, hz, hprobeItem, _⟩ := Field.probe_item hnumber (hmoderate f hf)
    rw [hw, hprobeItem] at hitem
    cases hitem
    rw [Row.Gets, f.probe_field, hprobeItem] at hget
    exact (hget.scalar_of_same hz (hmoderate f hf) hnumber).resolve_left (hall f hf)

end Probe

/-- Packing and unpacking give every field its own scalar on the classes with uniform scalars, and,
as far as scalars keep floats within their range, on no others. -/
theorem keepsScalars_iff (cls : MessageClass) (send : Bool) (fields : List Field)
    (hdecl : cls.declared send = some fields) (hint : IntegerFields fields) :
    (UniformScalars cls fields → KeepsScalars cls send) ∧
    ((∀ f ∈ fields, f.Moderate) → (KeepsScalars cls send ↔ UniformScalars cls fields)) := by
  have huniform := keepsScalars_of_uniform hdecl hint
  exact ⟨huniform, fun hmoderate => ⟨uniform_of_keepsScalars hdecl hint hmoderate, huniform⟩⟩

theorem IntegerFields.of_single {name : String} {k : IntFormat} {scalar : Option ℚ} :
    IntegerFields [⟨name, .item (.int k), scalar⟩] := by
  constructor
  · exact List.nodup_singleton _
  · intro f hf
    rw [List.mem_singleton.mp hf]
    exact Or.inr ⟨k, rfl⟩
  · exact Nat.zero_le _

theorem keepsScalars_iff_setCurrent : KeepsScalars Messages.setCurrent true := by
  have hmoderate : Moderate 1000 := moderate_of_isInt rfl (by norm_num) (by norm_num)
  apply ((keepsScalars_iff Messages.setCurrent true _ rfl IntegerFields.of_single).2
    (List.forall_mem_singleton.mpr (Or.inr ⟨1000, rfl, hmoderate⟩))).mpr
  constructor
  · decide
  · refine Or.inr ⟨?_, ⟨_, rfl, ?_⟩, ?_⟩
    · intro f hf
      rw [List.mem_singleton.mp hf]
      exact Option.some_ne_none _
    · intro i f hf
      refine ⟨f, hf, ?_⟩
      rw [List.mem_singleton.mp (List.mem_of_getElem? hf)]
      decide +kernel
    · rintro ⟨f, hf, hs⟩
      rw [List.mem_singleton.mp hf] at hs
      cases hs

def mixedScalars : MessageClass where
  id := 200
  sendFields := some [⟨"pos", .item (.int .i), some 1000⟩, ⟨"speed", .item (.int .i), none⟩]
  recvFields := none

def scaledBesideText : MessageClass where
  id := 201
  sendFields := some [⟨"gain", .item (.int .B), some 10⟩, ⟨"name", .s, some (-1)⟩]
  recvFields := none

/-- A field without a scalar behind one with a scalar is not packed. The reply to an erase request
goes out as 0. A class without send fields cannot pack what it receives. Beside a text a number is
not scaled back. An integer that no double holds is rounded when it is scaled back. -/
theorem scalars_misapplied :
    VESCMessage.pack ⟨mixedScalars, none, [("pos", .int 2), ("speed", .int 7)]⟩ false true =
        .error .structError ∧
      VESCMessage.pack ⟨Messages.eraseNewApp, none, [("erase_new_app_result", .int 1)]⟩ false
        false = .ok [2, 0] ∧
      VESCMessage.pack ⟨Messages.getRotorPosition, none, [("rotor_pos", .int 1)]⟩ false false =
        .error (.attributeError "send_fields") ∧
      VESCMessage.pack ⟨scaledBesideText, none, [("gain", .int 3), ("name", .bytes [65])]⟩ false
        true = .ok [201, 30, 65] ∧
      (VESCMessage.unpack [(201, scaledBesideText)] [201, 30, 65] true).map Message.attrs =
        .ok [("name", .bytes [65]), ("name", .bytes [65]), ("gain", .int 30)] ∧
      VESCMessage.pack ⟨wide 1, none, [("count", .int 9007199254740993)]⟩ false true =
        .ok [211, 0, 32, 0, 0, 0, 0, 0, 1] ∧
      (VESCMessage.unpack [(211, wide 1)] [211, 0, 32, 0, 0, 0, 0, 0, 1] true).map Message.attrs =
        .ok [("count", .float 9007199254740992)] ∧
      ¬ KeepsScalars mixedScalars true ∧ ¬ KeepsScalars Messages.eraseNewApp false := by
  have hmixed : VESCMessage.pack ⟨mixedScalars, none, [("pos", .int 2), ("speed", .int 7)]⟩ false
      true = .error .structError := by decide +kernel
  have herase : VESCMessage.pack ⟨Messages.eraseNewApp, none,
      [("erase_new_app_result", .int 1)]⟩ false false = .ok [2, 0] := by decide +kernel
  refine ⟨hmixed, herase, by decide +kernel, by decide +kernel, by decide +kernel,
    by decide +kernel, by decide +kernel, ?_, ?_⟩
  · intro hkeeps
    have hpos : Field.Sends ⟨"pos", .item (.int .i), some 1000⟩ (.int 2)
        (.int (PyNumber.truncate (2 * 1000))) :=
      Field.Sends.scaled rfl rfl (by norm_num) rfl (by decide +kernel)
    have hspeed : Field.Sends ⟨"speed", .item (.int .i), none⟩ (.int 7) (.int 7) :=
      Field.Sends.unscaled rfl (Or.inl rfl) rfl (by decide)
    obtain ⟨payload, _, hpack, _⟩ := hkeeps [(200, mixedScalars)]
      ⟨mixedScalars, none, [("pos", .int 2), ("speed", .int 7)]⟩ [⟨_, _, _⟩, ⟨_, _, _⟩] rfl rfl
      rfl rfl (List.forall_mem_cons.mpr ⟨⟨rfl, hpos⟩, List.forall_mem_singleton.mpr ⟨rfl, hspeed⟩⟩)
    rw [hmixed] at hpack
    cases hpack
  · intro hkeeps
    have hresult :
        Field.Sends ⟨"erase_new_app_result", .item (.int .b), some 0⟩ (.int 1) (.int 1) :=
      Field.Sends.unscaled rfl (Or.inr rfl) rfl (by decide)
    obtain ⟨payload, _, hpack, hspec, _⟩ := hkeeps [(2, Messages.eraseNewApp)]
      ⟨Messages.eraseNewApp, none, [("erase_new_app_result", .int 1)]⟩ [⟨_, _, _⟩] rfl rfl rfl rfl
      (List.forall_mem_singleton.mpr ⟨rfl, hresult⟩)
    rw [herase] at hpack
    cases hpack
    revert hspec
    decide

end PyVesc
