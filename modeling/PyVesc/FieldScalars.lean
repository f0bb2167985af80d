import PyVesc.FixedMessages

/-!
# The scalar of a field

What the scalar of a field means: a number is multiplied by it to be sent and divided by it when it
arrives, both in the arithmetic of the interpreter, a field without one, or with the scalar 0, goes
as it is, and the scalar of a text says whether it is ASCII. `pack` and `unpack` keep the scalars in
a list of their own. They give every field its own scalar on the classes with uniform scalars.
-/

namespace PyVesc

open StructFormat PyNumber VESCMessage

def byteLength : PyVal → ℕ
  | .bytes bs => bs.length
  | _ => 0

namespace Field

def Unscaled (f : Field) : Prop := f.format.isS = true ∨ f.scalar = none ∨ f.scalar = some 0

instance (f : Field) : Decidable f.Unscaled := inferInstanceAs (Decidable (_ ∨ _))

/-- What the field is scaled with keeps floats within their range. -/
def Moderate (f : Field) : Prop :=
  f.Unscaled ∨ ∃ s, f.scalar = some s ∧ PyNumber.Moderate s

/-- The item that should be sent for a value of the field. -/
inductive Sends (f : Field) : PyVal → PyVal → Prop
  | unscaled {k : IntFormat} {v : PyVal} {z : ℤ} (hformat : f.format = .item (.int k))
      (hscalar : f.scalar = none ∨ f.scalar = some 0) (hv : v.integer = some z)
      (hrange : k.inRange z) : Sends f v (.int z)
  | scaled {k : IntFormat} {v : PyVal} {s p : ℚ} (hformat : f.format = .item (.int k))
      (hscalar : f.scalar = some s) (hs : s ≠ 0) (hv : product v s = some p)
      (hrange : k.inRange (truncate p)) : Sends f v (.int (truncate p))
  | byteString {bs : Bytes} (hformat : f.format = .s) (hscalar : f.scalar = some (-1)) :
      Sends f (.bytes bs) (.bytes bs)
  | text {s : String} {bs : Bytes} (hformat : f.format = .s) (hscalar : f.scalar ≠ some (-1))
      (hs : encodeAscii (.str s) = .ok (.bytes bs)) : Sends f (.str s) (.bytes bs)

/-- The value that the field should get from an item. A quotient may be exact, or rounded as the
interpreter rounds it. -/
inductive Gets (f : Field) : PyVal → PyVal → Prop
  | unscaled {k : IntFormat} {z : ℤ} (hformat : f.format = .item (.int k))
      (hscalar : f.scalar = none ∨ f.scalar = some 0) : Gets f (.int z) (.int z)
  | scaled {k : IntFormat} {s : ℚ} {z : ℤ} {w : PyVal} (hformat : f.format = .item (.int k))
      (hscalar : f.scalar = some s) (hs : s ≠ 0)
      (hw : w.number = some (z / s) ∨ w.number = quotient (.int z) s) : Gets f (.int z) w
  | byteString {bs : Bytes} (hformat : f.format = .s) (hscalar : f.scalar = some (-1)) :
      Gets f (.bytes bs) (.bytes bs)
  | text {bs : Bytes} {s : String} (hformat : f.format = .s) (hscalar : f.scalar ≠ some (-1))
      (hs : decodeAscii (.bytes bs) = .ok (.str s)) : Gets f (.bytes bs) (.str s)

end Field

/-- A field with the value that a message has for it and the item that should be sent for it. -/
structure Row where
  field : Field
  value : PyVal
  item : PyVal

namespace Row

def name (r : Row) : String := r.field.name

def Sends (r : Row) : Prop := r.field.Sends r.value r.item

def Gets (r : Row) (w : PyVal) : Prop := r.field.Gets r.item w

def format (r : Row) : Format := r.field.format.fill (byteLength r.item)

/-- The value times the scalar is an integer. -/
def Exact (r : Row) : Prop :=
  ∀ q s, r.value.number = some q → r.field.scalar = some s → ∃ z : ℤ, q * s = z

/-- Where the value is scaled, doubles hold what the arithmetic is about. -/
def Held (r : Row) : Prop :=
  ∀ s, r.field.scalar = some s → s ≠ 0 → PyNumber.Held r.value s

/-- An equal number, or the same text. -/
def Restores (r : Row) (w : PyVal) : Prop :=
  match r.value.number with
  | some q => w.number = some q
  | none => w = r.value

end Row

namespace MessageClass

def declared (cls : MessageClass) (send : Bool) : Option (List Field) :=
  if send then cls.sendFields else cls.recvFields

end MessageClass

/-- Packing and unpacking a message of the class give every field its own scalar. -/
def KeepsScalars (cls : MessageClass) (send : Bool) : Prop :=
  ∀ (registry : Registry) (m : Message) (rows : List Row),
    registry.lookup cls.id = some cls → m.cls = cls → m.canId = none →
    cls.declared send = some (rows.map Row.field) →
    (∀ r ∈ rows, m.getattr r.name = .ok r.value ∧ r.Sends) →
    ∃ payload msg, VESCMessage.pack m false send = .ok payload ∧
      StructFormat.pack (.int .B :: rows.map Row.format) (.int cls.id :: rows.map Row.item) =
        some payload ∧
      VESCMessage.unpack registry payload send = .ok msg ∧ msg.cls = cls ∧
      ∀ r ∈ rows, ∃ w, msg.getattr r.name = .ok w ∧ r.Gets w ∧ (r.Exact → r.Held → r.Restores w)

/-- Integer fields and at most one text, with different names. -/
structure IntegerFields (fields : List Field) : Prop where
  names : (fields.map Field.name).Nodup
  formats : ∀ f ∈ fields, f.format = .s ∨ ∃ k, f.format = .item (.int k)
  oneString : fields.countP (fun f => f.format.isS) ≤ 1

/-- Every field has a scalar, the field to send at the same place is a text exactly for the fields
that are not scaled, and beside a text nothing is. -/
structure AllScaled (cls : MessageClass) (fields : List Field) : Prop where
  scalars : ∀ f ∈ fields, f.scalar ≠ none
  sends : ∃ sendFields, cls.sendFields = some sendFields ∧
    ∀ (i : ℕ) (f : Field), fields[i]? = some f →
      ∃ g : Field, sendFields[i]? = some g ∧ (g.format.isS = true ↔ f.Unscaled)
  string : (∃ f ∈ fields, f.format.isS = true) → ∀ f ∈ fields,
    f.format.isS = false → f.scalar = some 0 ∨ f.scalar = some 1

structure UniformScalars (cls : MessageClass) (fields : List Field) : Prop where
  id_le : cls.id ≤ 255
  uniform : (∀ f ∈ fields, f.scalar = none) ∨ AllScaled cls fields

theorem exists_rows {P : Row → Prop} {fields : List Field}
    (h : ∀ f ∈ fields, ∃ r : Row, r.field = f ∧ P r) :
    ∃ rows : List Row, rows.map Row.field = fields ∧ ∀ r ∈ rows, P r := by
  induction fields with
  | nil => exact ⟨[], rfl, fun r hr => by cases hr⟩
  | cons f fields ih =>
      obtain ⟨⟨r, hr, hP⟩, hrest⟩ := List.forall_mem_cons.mp h
      obtain ⟨rows, hrows, hall⟩ := ih hrest
      refine ⟨r :: rows, ?_, List.forall_mem_cons.mpr ⟨hP, hall⟩⟩
      rw [List.map_cons, hr, hrows]

/-! ### Values and items -/

theorem encodeAscii_eq_ok {s : String} {bs : Bytes} (h : encodeAscii (.str s) = .ok (.bytes bs)) :
    bs.length = s.length ∧ decodeAscii (.bytes bs) = .ok (.str s) := by
  simp only [encodeAscii] at h
  split_ifs at h with hascii
  cases h
  have hchars : ∀ c ∈ s.toList, c.toNat < 128 := by simpa using hascii
  have hbyte : ∀ c ∈ s.toList, (UInt8.ofNat c.toNat).toNat = c.toNat := by
    intro c hc
    exact UInt8.toNat_ofNat_of_lt' ((hchars c hc).trans (by decide))
  have hall : (s.toList.map fun c => UInt8.ofNat c.toNat).all (fun b => b < 128) := by
    rw [List.all_map, List.all_eq_true]
    intro c hc
    rw [Function.comp_apply, decide_eq_true_eq, UInt8.lt_iff_toNat_lt, hbyte c hc]
    exact hchars c hc
  have hback : (s.toList.map fun c => UInt8.ofNat c.toNat).map (fun b => Char.ofNat b.toNat) =
      s.toList := by
    rw [List.map_map]
    nth_rewrite 2 [← List.map_id s.toList]
    apply List.map_congr_left
    intro c hc
    rw [Function.comp_apply, hbyte c hc, Char.ofNat_toNat, id]
  constructor
  · rw [List.length_map, String.length_toList]
  · rw [decodeAscii, if_pos hall, hback, String.ofList_toList]

theorem toNat_charOfNat {n : ℕ} (h : n < 128) : (Char.ofNat n).toNat = n := by
  have hvalid : n.isValidChar := Or.inl (by omega)
  rw [Char.ofNat, dif_pos hvalid]
  rfl

/-- Bytes below 128 are the text that they are decoded to. -/
theorem decodeAscii_ascii {bs : Bytes} (h : ∀ b ∈ bs, b < 128) :
    ∃ s, decodeAscii (.bytes bs) = .ok (.str s) ∧ encodeAscii (.str s) = .ok (.bytes bs) := by
  have hall : bs.all (fun b => b < 128) = true := by simpa using h
  have hlt : ∀ b ∈ bs, b.toNat < 128 := fun b hb => UInt8.lt_iff_toNat_lt.mp (h b hb)
  refine ⟨_, if_pos hall, ?_⟩
  have hascii : (bs.map fun b => Char.ofNat b.toNat).all (fun c => c.toNat < 128) = true := by
    rw [List.all_map, List.all_eq_true]
    intro b hb
    rw [Function.comp_apply, toNat_charOfNat (hlt b hb), decide_eq_true_eq]
    exact hlt b hb
  have hback : (bs.map fun b => Char.ofNat b.toNat).map (fun c => UInt8.ofNat c.toNat) = bs := by
    rw [List.map_map]
    nth_rewrite 2 [← List.map_id bs]
    apply List.map_congr_left
    intro b hb
    rw [Function.comp_apply, toNat_charOfNat (hlt b hb), UInt8.ofNat_toNat, id]
  rw [encodeAscii, String.toList_ofList, if_pos hascii, hback]

theorem scaleToInt_product {v : PyVal} {s p : ℚ} (hv : product v s = some p) :
    scaleToInt v s = .ok (.int (truncate p)) := by
  rw [scaleToInt]
  cases hn : v.number with
  | none =>
      rw [product_of_number_none hn] at hv
      cases hv
  | some q => rw [hv]

theorem pack_integer {v : PyVal} {z : ℤ} (hv : v.integer = some z) (k : IntFormat) :
    (Format.int k).pack v = k.pack z := by
  cases v with
  | int _ => cases hv; rfl
  | bool _ => cases hv; rfl
  | float _ => cases hv
  | bytes _ => cases hv
  | str _ => cases hv

/-- A byte string fills a format of its length. -/
theorem pack_bytes (bs : Bytes) : (Format.bytes bs.length).pack (.bytes bs) = some bs := by
  rw [Format.pack, Nat.sub_self, List.replicate_zero, List.append_nil, List.take_length]

namespace Field

theorem Sends.pack_item {f : Field} {v item : PyVal} (h : f.Sends v item) :
    ∃ bs, (f.format.fill (byteLength item)).pack item = some bs ∧
      (f.format.fill (byteLength item)).unpack bs = item := by
  have hint : ∀ {k : IntFormat} {z : ℤ}, k.inRange z →
      ∃ bs, (Format.int k).pack (.int z) = some bs ∧ (Format.int k).unpack bs = .int z := by
    intro k z hrange
    have hpack : k.pack z = some _ := if_pos hrange
    exact ⟨_, hpack, congrArg PyVal.int (IntFormat.unpack_pack hpack)⟩
  have hbytes : ∀ bs : Bytes, ∃ packed, (Format.bytes bs.length).pack (.bytes bs) = some packed ∧
      (Format.bytes bs.length).unpack packed = .bytes bs := by
    exact fun bs => ⟨bs, pack_bytes bs, rfl⟩
  cases h with
  | unscaled hformat _ _ hrange =>
      rw [hformat]
      exact hint hrange
  | scaled hformat _ _ _ hrange =>
      rw [hformat]
      exact hint hrange
  | byteString hformat =>
      rw [hformat]
      exact hbytes _
  | text hformat =>
      rw [hformat]
      exact hbytes _

/-- An item sent for a value and got back restores it. -/
theorem Sends.restores {f : Field} {v item w : PyVal} (h : f.Sends v item) (hw : f.Gets item w)
    (hexact : ∀ q s, v.number = some q → f.scalar = some s → ∃ z : ℤ, q * s = z)
    (hheld : ∀ s, f.scalar = some s → s ≠ 0 → Held v s) :
    match v.number with
    | some q => w.number = some q
    | none => w = v := by
  cases h with
  | unscaled hformat hscalar hv hrange =>
      rw [PyVal.number_integer hv]
      cases hw with
      | unscaled => rfl
      | scaled _ hs hne =>
          rcases hscalar with hscalar | hscalar
          · rw [hscalar] at hs
            cases hs
          · rw [hscalar] at hs
            cases hs
            exact absurd rfl hne
  | scaled hformat hscalar hs hv hrange =>
      have hv' := hheld _ hscalar hs
      obtain ⟨q, hq⟩ := hv'.imp fun q h => h.1
      obtain ⟨z, hz⟩ := hexact _ _ hq hscalar
      have hp := product_held hv' hq
      rw [hv] at hp
      cases hp
      rw [hq]
      cases hw with
      | unscaled _ hscalar' =>
          rcases hscalar' with hnone | hzero
          · rw [hscalar] at hnone
            cases hnone
          · rw [hscalar] at hzero
            cases hzero
            exact absurd rfl hs
      | scaled _ hscalar' _ hw =>
          rw [hscalar] at hscalar'
          cases hscalar'
          change _ = some _
          rw [hz, truncate_intCast, ← hz, mul_div_cancel_right₀ _ hs] at hw
          rcases hw with hw | hw
          · exact hw
          · rw [hw]
            exact quotient_held hv' hq hs hz
  | byteString hformat hscalar =>
      cases hw with
      | byteString => rfl
      | text _ hscalar' => exact absurd hscalar hscalar'
  | text hformat hscalar hs =>
      cases hw with
      | byteString _ hscalar' => exact absurd hscalar' hscalar
      | text _ _ hback =>
          rw [(encodeAscii_eq_ok hs).2] at hback
          cases hback
          rfl

end Field

end PyVesc
