import PyVesc.UniformScalars
import Mathlib.Data.List.SplitLengths

/-!
# The split of a payload into fields

What a payload says about fields without scalars: every integer has the bytes of its format, one
after another, and a text has whatever the integers leave of the payload. With at most one text
there is one such split of every payload that is as long as the integers.
-/

namespace PyVesc

open StructFormat VESCMessage

/-- Integers and texts without scalars. -/
def PlainFields (fields : List Field) : Prop :=
  ∀ f ∈ fields, f.scalar = none ∧ (f.format = .s ∨ ∃ k, f.format = .item (.int k))

/-- A piece of the payload for every field. Without a text, bytes may be left over at the end. -/
structure FieldSplit (fields : List Field) (body : Bytes) (pieces : List Bytes) : Prop where
  sizes : List.Forall₂ (fun f piece => ∀ k, f.format = .item (.int k) → piece.length = k.size)
    fields pieces
  fits : pieces.flatten <+: body
  whole : (∃ f ∈ fields, f.format.isS = true) → pieces.flatten = body

/-- The value that a field should get from its piece. -/
def Field.Reads (f : Field) (piece : Bytes) (v : PyVal) : Prop :=
  match f.format with
  | .s => decodeAscii (.bytes piece) = .ok v
  | .item fmt => v = fmt.unpack piece

/-- The sizes of the fields when a text has `n` bytes. -/
def fieldSizes (fields : List Field) (n : ℕ) : List ℕ :=
  fields.map fun f => (f.format.fill n).size

theorem sum_fieldSizes (fields : List Field) (n : ℕ) :
    (fieldSizes fields n).sum = fixedSize fields + fields.countP (fun f => f.format.isS) * n := by
  have h := calcsize_fill (fields.map Field.format) n
  rw [List.countP_map, calcsize, calcsize, List.map_map, List.map_map, List.map_map,
    List.map_map] at h
  rw [fixedSize, calcsize, List.map_map]
  exact h

theorem splitLengths_flatten (pieces : List Bytes) (t : Bytes) :
    (pieces.map List.length).splitLengths (pieces.flatten ++ t) = pieces := by
  induction pieces with
  | nil => rfl
  | cons piece pieces ih =>
      rw [List.map_cons, List.splitLengths_cons, List.flatten_cons, List.append_assoc,
        List.take_left, List.drop_left, ih]

theorem flatten_splitLengths_take (sizes : List ℕ) (b : Bytes) :
    (sizes.splitLengths b).flatten = b.take sizes.sum := by
  induction sizes generalizing b with
  | nil => rfl
  | cons n sizes ih =>
      rw [List.splitLengths_cons, List.flatten_cons, ih, List.sum_cons, List.take_add]

section Unique
variable {fields : List Field} {body : Bytes} {pieces : List Bytes}

/-- Fields without a text have the same sizes whatever `n` is. -/
theorem fieldSizes_of_numbers (h : ∀ f ∈ fields, f.format.isS = false) (m n : ℕ) :
    fieldSizes fields m = fieldSizes fields n := by
  apply List.map_congr_left
  intro f hf
  rw [FieldFormat.fill_eq (h f hf) m n]

theorem numbers_of_countP (h : fields.countP (fun f => f.format.isS) = 0) :
    ∀ f ∈ fields, f.format.isS = false :=
  fun f hf => Bool.eq_false_of_not_eq_true (List.countP_eq_zero.mp h f hf)

/-- The pieces have the sizes of the fields for some length of the text. -/
theorem exists_fieldSizes (hplain : PlainFields fields)
    (hone : fields.countP (fun f => f.format.isS) ≤ 1)
    (hsizes : List.Forall₂ (fun (f : Field) (piece : Bytes) =>
      ∀ k, f.format = .item (.int k) → piece.length = k.size) fields pieces) :
    ∃ n, pieces.map List.length = fieldSizes fields n := by
  induction hsizes with
  | nil => exact ⟨0, rfl⟩
  | @cons f piece fields pieces hf _ ih =>
      obtain ⟨⟨_, hformat⟩, hrest⟩ := List.forall_mem_cons.mp hplain
      rw [List.countP_cons] at hone
      obtain ⟨n, hn⟩ := ih hrest (by omega)
      obtain hs | ⟨k, hk⟩ := hformat
      · rw [hs, FieldFormat.isS, if_pos rfl] at hone
        refine ⟨piece.length, ?_⟩
        rw [List.map_cons, hn, fieldSizes_of_numbers (numbers_of_countP (by omega)) n piece.length,
          fieldSizes, fieldSizes, List.map_cons, hs]
        rfl
      · refine ⟨n, ?_⟩
        rw [List.map_cons, hn, hf k hk, fieldSizes, fieldSizes, List.map_cons, hk]
        rfl

/-- The pieces of a split are those of the sizes that the length of the payload leaves. -/
theorem FieldSplit.eq_splitLengths (h : FieldSplit fields body pieces) (hplain : PlainFields fields)
    (hone : fields.countP (fun f => f.format.isS) ≤ 1) :
    pieces = (fieldSizes fields (body.length - fixedSize fields)).splitLengths body := by
  obtain ⟨n, hn⟩ := exists_fieldSizes hplain hone h.sizes
  obtain ⟨t, rfl⟩ := h.fits
  have hsum := sum_fieldSizes fields n
  have hsame : fieldSizes fields n =
      fieldSizes fields ((pieces.flatten ++ t).length - fixedSize fields) := by
    by_cases htext : ∃ f ∈ fields, f.format.isS = true
    · have hcount : fields.countP (fun f => f.format.isS) = 1 := by
        have hpos := List.countP_pos_iff.mpr htext
        omega
      rw [← h.whole htext, List.length_flatten, hn, hsum, hcount, Nat.one_mul,
        Nat.add_sub_cancel_left]
    · apply fieldSizes_of_numbers
      intro f hf
      exact Bool.eq_false_of_not_eq_true (fun hs => htext ⟨f, hf, hs⟩)
  rw [← hsame, ← hn, splitLengths_flatten]

theorem sizes_splitLengths (fields : List Field) (n : ℕ)
    (hlong : (fieldSizes fields n).sum ≤ body.length) :
    List.Forall₂ (fun f piece => ∀ k, f.format = .item (.int k) → piece.length = k.size) fields
      ((fieldSizes fields n).splitLengths body) := by
  induction fields generalizing body with
  | nil => exact .nil
  | cons f fields ih =>
      rw [fieldSizes, List.map_cons, List.sum_cons] at hlong
      rw [fieldSizes, List.map_cons, List.splitLengths_cons]
      refine .cons ?_ (ih ?_)
      · intro k hk
        rw [List.length_take, hk, FieldFormat.fill, Format.size, Nat.min_eq_left]
        rw [hk, FieldFormat.fill, Format.size] at hlong
        omega
      · rw [List.length_drop, fieldSizes]
        omega

theorem fieldSplit_splitLengths (hone : fields.countP (fun f => f.format.isS) ≤ 1)
    (hlong : fixedSize fields ≤ body.length) :
    FieldSplit fields body
      ((fieldSizes fields (body.length - fixedSize fields)).splitLengths body) := by
  have hsum := sum_fieldSizes fields (body.length - fixedSize fields)
  have hcount : fields.countP (fun f => f.format.isS) * (body.length - fixedSize fields) ≤
      1 * (body.length - fixedSize fields) := Nat.mul_le_mul_right _ hone
  refine ⟨sizes_splitLengths fields _ (by omega), ?_, ?_⟩
  · rw [flatten_splitLengths_take]
    exact List.take_prefix _ _
  · intro htext
    have hpos := List.countP_pos_iff.mpr htext
    have hcount : fields.countP (fun f => f.format.isS) = 1 := by omega
    apply List.flatten_splitLengths
    rw [hsum, hcount]
    omega

/-- There is one split of every payload that is long enough. -/
theorem existsUnique_fieldSplit (hplain : PlainFields fields)
    (hone : fields.countP (fun f => f.format.isS) ≤ 1) (hlong : fixedSize fields ≤ body.length) :
    ∃ pieces, FieldSplit fields body pieces ∧
      ∀ pieces', FieldSplit fields body pieces' → pieces' = pieces :=
  ⟨_, fieldSplit_splitLengths hone hlong, fun _ h => h.eq_splitLengths hplain hone⟩

end Unique

/-! ### Unpacking along a split -/

/-- The piece of a field as the row of a message. -/
theorem exists_row {f : Field} (hscalar : f.scalar = none)
    (hformat : f.format = .s ∨ ∃ k, f.format = .item (.int k)) {piece : Bytes}
    (hsize : ∀ k, f.format = .item (.int k) → piece.length = k.size)
    (hascii : f.format.isS = true → ∀ b ∈ piece, b < 128) :
    ∃ r : Row, r.field = f ∧ r.Sends ∧ r.format.pack r.item = some piece ∧
      ∀ w, r.Gets w → f.Reads piece w := by
  obtain hs | ⟨k, hk⟩ := hformat
  · obtain ⟨s, hdecode, hencode⟩ := decodeAscii_ascii (hascii (by rw [hs]; rfl))
    have hminus : f.scalar ≠ some (-1) := by
      rw [hscalar]
      exact (Option.some_ne_none _).symm
    refine ⟨⟨f, .str s, .bytes piece⟩, rfl, Field.Sends.text hs hminus hencode, ?_, ?_⟩
    · change (f.format.fill piece.length).pack (.bytes piece) = some piece
      rw [hs, FieldFormat.fill, Format.pack, Nat.sub_self, List.replicate_zero, List.append_nil,
        List.take_length]
    · intro w hw
      cases hw with
      | byteString _ hsome => exact absurd hsome hminus
      | text _ _ hback =>
          rw [Field.Reads, hs]
          exact hback
  · have hpack := IntFormat.pack_unpack (hsize k hk)
    have hrange : k.inRange (k.unpack piece) := (Option.ite_none_right_eq_some.mp hpack).1
    refine ⟨⟨f, .int (k.unpack piece), .int (k.unpack piece)⟩, rfl,
      Field.Sends.unscaled hk (Or.inl hscalar) rfl hrange, ?_, ?_⟩
    · change (f.format.fill 0).pack (.int (k.unpack piece)) = some piece
      rw [hk]
      exact hpack
    · intro w hw
      cases hw with
      | unscaled _ _ =>
          rw [Field.Reads, hk]
          rfl
      | scaled _ hsome =>
          rw [hscalar] at hsome
          cases hsome

theorem exists_splitRows {fields : List Field} (hplain : PlainFields fields) {pieces : List Bytes}
    (hsizes : List.Forall₂ (fun (f : Field) (piece : Bytes) =>
      ∀ k, f.format = .item (.int k) → piece.length = k.size) fields pieces)
    (hascii : ∀ x ∈ fields.zip pieces, x.1.format.isS = true → ∀ b ∈ x.2, b < 128) :
    ∃ rows : List Row, rows.map Row.field = fields ∧ (∀ r ∈ rows, r.Sends) ∧
      StructFormat.pack (rows.map Row.format) (rows.map Row.item) = some pieces.flatten ∧
      ∀ x ∈ fields.zip pieces, ∃ r ∈ rows, r.field = x.1 ∧ ∀ w, r.Gets w → x.1.Reads x.2 w := by
  induction hsizes with
  | nil =>
      refine ⟨[], rfl, ?_, rfl, ?_⟩
      · intro r hr
        cases hr
      · intro x hx
        cases hx
  | @cons f piece fields pieces hf _ ih =>
      obtain ⟨⟨hscalar, hformat⟩, hrest⟩ := List.forall_mem_cons.mp hplain
      rw [List.zip_cons_cons] at hascii
      obtain ⟨hfirst, hlater⟩ := List.forall_mem_cons.mp hascii
      obtain ⟨r, hr, hsends, hpack, hreads⟩ := exists_row hscalar hformat hf hfirst
      obtain ⟨rows, hrows, hall, hbody, hreadsAll⟩ := ih hrest hlater
      refine ⟨r :: rows, ?_, List.forall_mem_cons.mpr ⟨hsends, hall⟩, ?_, ?_⟩
      · rw [List.map_cons, hr, hrows]
      · rw [List.map_cons, List.map_cons, StructFormat.pack, hpack, hbody]
        rfl
      · intro x hx
        rw [List.zip_cons_cons] at hx
        obtain rfl | hx := List.mem_cons.mp hx
        · exact ⟨r, List.mem_cons_self, hr, hreads⟩
        · obtain ⟨r', hr', hmatch⟩ := hreadsAll x hx
          exact ⟨r', List.mem_cons_of_mem r hr', hmatch⟩

section Unpack
variable {cls : MessageClass} {send : Bool} {fields : List Field}

/-- Without a text the bytes behind the fields are not looked at. -/
theorem unpackAs_append (hdecl : cls.declared send = some fields)
    (hnumbers : ∀ f ∈ fields, f.format.isS = false) (b : UInt8) {body : Bytes}
    (hlen : fixedSize fields ≤ body.length) (t : Bytes) :
    unpackAs cls (b :: (body ++ t)) send = unpackAs cls (b :: body) send := by
  have hstring := (FieldTable.stringField_ofFields _).mpr hnumbers
  have hplain := plainFormats_ofFields hnumbers
  have hsame : structUnpackFrom (fields.map fun field => field.format.fill 0)
      (b :: (body ++ t)) 1 =
      structUnpackFrom (fields.map fun field => field.format.fill 0) (b :: body) 1 := by
    rw [fixedSize] at hlen
    rw [structUnpackFrom_eq, structUnpackFrom_eq, List.length_cons, List.length_cons,
      List.length_append, if_pos (by omega), if_pos (by omega), List.drop_one, List.drop_one,
      List.tail_cons, List.tail_cons, unpackItems_append hlen]
  simp only [unpackAs, unpackTable_declared hdecl, hstring, hplain, hsame, ok_bind]

/-- A payload is unpacked along its split. -/
theorem unpack_split {registry : Registry} (hreg : registry.lookup cls.id = some cls)
    (hdecl : cls.declared send = some fields) (hplain : PlainFields fields)
    (hone : fields.countP (fun f => f.format.isS) ≤ 1) (hnames : (fields.map Field.name).Nodup)
    {b : UInt8} (hb : b.toNat = cls.id) {body : Bytes} {pieces : List Bytes}
    (hsplit : FieldSplit fields body pieces)
    (hascii : ∀ x ∈ fields.zip pieces, x.1.format.isS = true → ∀ c ∈ x.2, c < 128) :
    ∃ msg, VESCMessage.unpack registry (b :: body) send = .ok msg ∧
      ∀ x ∈ fields.zip pieces, ∃ v, msg.getattr x.1.name = .ok v ∧ x.1.Reads x.2 v := by
  obtain ⟨rows, rfl, hsends, hbody, hreads⟩ := exists_splitRows hplain hsplit.sizes hascii
  have hid : cls.id ≤ 255 := by
    rw [← hb]
    exact Nat.le_of_lt_succ b.toNat_lt
  have hbyte : UInt8.ofNat cls.id = b := by rw [← hb, UInt8.ofNat_toNat]
  have hint : IntegerFields (rows.map Row.field) := ⟨hnames, fun f hf => (hplain f hf).2, hone⟩
  have huniform : UniformScalars cls (rows.map Row.field) :=
    ⟨hid, Or.inl fun f hf => (hplain f hf).1⟩
  obtain ⟨msg, hunpack, _, hgets⟩ := unpack_rows hreg hdecl hint huniform hsends hbody
  have hwhole : VESCMessage.unpack registry (b :: body) send =
      VESCMessage.unpack registry (b :: pieces.flatten) send := by
    by_cases htext : ∃ f ∈ rows.map Row.field, f.format.isS = true
    · rw [hsplit.whole htext]
    · have hnumbers : ∀ f ∈ rows.map Row.field, f.format.isS = false :=
        fun f hf => Bool.eq_false_of_not_eq_true fun hs => htext ⟨f, hf, hs⟩
      obtain ⟨t, rfl⟩ := hsplit.fits
      have hlen : fixedSize (rows.map Row.field) ≤ pieces.flatten.length := by
        rw [(length_eq_of_pack hbody).2, map_format_fill (n := 0), FieldTable.formats_ofFields,
          List.map_map]
        · exact le_rfl
        · intro r hr hs
          rw [hnumbers _ (List.mem_map_of_mem hr)] at hs
          cases hs
      rw [← hbyte, unpack_registered hreg hid, unpack_registered hreg hid,
        unpackAs_append hdecl hnumbers _ hlen]
  rw [hwhole, ← hbyte]
  refine ⟨msg, hunpack, fun x hx => ?_⟩
  obtain ⟨r, hr, hfield, hread⟩ := hreads x hx
  obtain ⟨v, hattr, hget⟩ := hgets r hr
  rw [← hfield]
  rw [← hfield] at hread
  exact ⟨v, hattr, hread v hget⟩

end Unpack

end PyVesc
