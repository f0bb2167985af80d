import PyVesc.FieldSplits
import PyVesc.MessageRegistry

/-!
# Parsing the messages of an accepted class

A class statement over integers and texts without scalars, and what `VESCMessage.unpack` makes of
the payloads with its id. The metaclass counts the texts to send. Among the fields to receive it
looks for `s` where `%us` has taken its place, so any number of texts is accepted there.
-/

namespace PyVesc

open StructFormat VESCMessage

def FieldFormat.declared : FieldFormat → DeclaredFormat
  | s => .s
  | item f => .item f

def Field.declared (f : Field) : DeclaredField := ⟨f.name, f.format.declared, f.scalar⟩

theorem countP_isPercentUs_declared (fields : List Field) :
    (fieldFormats (fields.map Field.declared)).countP TableFormat.isPercentUs =
      fields.countP fun f => f.format.isS := by
  rw [fieldFormats, List.map_map, List.countP_map]
  apply List.countP_congr
  intro f _
  cases hf : f.format <;>
    simp [hf, Field.declared, FieldFormat.declared, DeclaredFormat.inTable, FieldFormat.isS,
      TableFormat.isPercentUs]

namespace MessageClass

/-- The class statement of the class. -/
def declaration (cls : MessageClass) : Declaration where
  id := some cls.id
  inherits := false
  sendFields := cls.sendFields.map fun fields => fields.map Field.declared
  recvFields := cls.recvFields.map fun fields => fields.map Field.declared

/-- The fields that a payload is unpacked into. -/
def unpacked (cls : MessageClass) (unpackSendFields : Bool) : Option (List Field) :=
  cls.declared (unpackSendFields || cls.recvFields.isNone)

/-- One text at most in each direction, and every payload with the id of the class that is as long
as the integers has one split, along which it is unpacked if its text is ASCII. -/
structure Parses (cls : MessageClass) : Prop where
  sendString : ∀ fields ∈ cls.sendFields, fields.countP (fun f => f.format.isS) ≤ 1
  recvString : ∀ fields ∈ cls.recvFields, fields.countP (fun f => f.format.isS) ≤ 1
  splits : ∀ (registry : Registry) (unpackSendFields : Bool) (fields : List Field) (msgId : UInt8)
    (body : Bytes), registry.lookup cls.id = some cls →
    cls.unpacked unpackSendFields = some fields → msgId.toNat = cls.id →
    fixedSize fields ≤ body.length →
    ∃ pieces, FieldSplit fields body pieces ∧
      (∀ pieces', FieldSplit fields body pieces' → pieces' = pieces) ∧
      ((∀ x ∈ fields.zip pieces, x.1.format.isS = true → ∀ c ∈ x.2, c < 128) →
        ∃ msg, VESCMessage.unpack registry (msgId :: body) unpackSendFields = .ok msg ∧
          ∀ x ∈ fields.zip pieces, ∃ v, msg.getattr x.1.name = .ok v ∧ x.1.Reads x.2 v)

variable {cls : MessageClass}

theorem mem_fields_of_declared {send : Bool} {fields : List Field}
    (h : cls.declared send = some fields) : fields ∈ cls.sendFields ∨ fields ∈ cls.recvFields := by
  cases send with
  | true => exact Or.inl h
  | false => exact Or.inr h

/-- What was accepted has one text to send at most. -/
theorem countP_sendFields_of_accepted {s : Classes}
    (haccepted : (s.declare cls.declaration).2 = .ok ()) :
    ∀ fields ∈ cls.sendFields, fields.countP (fun f => f.format.isS) ≤ 1 := by
  intro fields hfields
  obtain ⟨_, e, hdeclare⟩ | ⟨i, _, _, _, hdeclare⟩ := s.declare_cases cls.declaration
  · rw [hdeclare] at haccepted
    cases haccepted
  · rw [hdeclare] at haccepted
    have hmem : fields.map Field.declared ∈ cls.declaration.sendFields :=
      Option.mem_map_of_mem _ hfields
    have hcount := ((Declaration.checkFields_ok_iff _).mp haccepted).sendStrings _ hmem
    rw [countP_isPercentUs_declared] at hcount
    exact hcount

/-- Without fields to receive, unpacking does not depend on the flag. -/
theorem unpackAs_of_no_recv (hrecv : cls.recvFields = none) (msgBytes : Bytes)
    (unpackSendFields : Bool) :
    unpackAs cls msgBytes unpackSendFields = unpackAs cls msgBytes true := by
  have htable : unpackTable cls unpackSendFields = unpackTable cls true := by
    simp only [unpackTable, hrecv, Option.isNone_none, Bool.or_true]
  have hfields : cls.fieldsToUnpack unpackSendFields = cls.fieldsToUnpack true := by
    cases hsend : cls.sendFields <;> simp only [fieldsToUnpack, hsend, hrecv]
  simp only [unpackAs, htable, call, hfields]

theorem unpack_unpacked {registry : Registry} (hreg : registry.lookup cls.id = some cls)
    {msgId : UInt8} (hid : msgId.toNat = cls.id) (body : Bytes) (unpackSendFields : Bool) :
    VESCMessage.unpack registry (msgId :: body) unpackSendFields =
      VESCMessage.unpack registry (msgId :: body)
        (unpackSendFields || cls.recvFields.isNone) := by
  cases hrecv : cls.recvFields with
  | some fields => rw [Option.isNone_some, Bool.or_false]
  | none =>
      simp only [VESCMessage.unpack, msgType, hid, hreg, ok_bind, Option.isNone_none, Bool.or_true]
      exact unpackAs_of_no_recv hrecv _ _

end MessageClass

/-! ### Repeated names -/

/-- A piece that is `byte` over and over in an integer, and an empty text. -/
def Field.fillPiece (f : Field) (byte : UInt8) : Bytes :=
  match f.format with
  | .item (.int k) => List.replicate k.size byte
  | _ => []

theorem unpack_replicate_zero (k : IntFormat) : k.unpack (List.replicate k.size 0) = 0 := by
  cases k <;> decide

theorem unpack_replicate_one (k : IntFormat) : k.unpack (List.replicate k.size 1) ≠ 0 := by
  cases k <;> decide

/-- An integer of zeros, an integer of ones and a text have no value in common. -/
theorem not_reads_fillPiece {f g : Field} {v : PyVal}
    (hf : f.format = .s ∨ ∃ k, f.format = .item (.int k))
    (hg : g.format = .s ∨ ∃ k, g.format = .item (.int k))
    (hone : f.format.isS = true → g.format.isS = false)
    (hzero : f.Reads (f.fillPiece 0) v) : ¬ g.Reads (g.fillPiece 1) v := by
  intro hread
  obtain hs | ⟨k, hk⟩ := hf
  · obtain hs' | ⟨k', hk'⟩ := hg
    · rw [hs, hs'] at hone
      exact absurd (hone rfl) (by decide)
    · simp only [Field.Reads, Field.fillPiece, hs, hk'] at hzero hread
      rw [hread] at hzero
      cases hzero
  · simp only [Field.Reads, Field.fillPiece, hk] at hzero
    obtain hs' | ⟨k', hk'⟩ := hg
    · simp only [Field.Reads, Field.fillPiece, hs', hzero] at hread
      cases hread
    · simp only [Field.Reads, Field.fillPiece, hk', hzero] at hread
      have hvalue : k.unpack (List.replicate k.size 0) = k'.unpack (List.replicate k'.size 1) :=
        PyVal.int.inj hread
      rw [unpack_replicate_zero] at hvalue
      exact unpack_replicate_one k' hvalue.symm

/-- The pieces of a payload that has ones in the field at `j` only. -/
def markedPieces (fields : List Field) (j : ℕ) : List Bytes :=
  fields.mapIdx fun i f => f.fillPiece (if i = j then 1 else 0)

section Names
variable {fields : List Field}

theorem fieldSplit_markedPieces (fields : List Field) (j : ℕ) :
    FieldSplit fields (markedPieces fields j).flatten (markedPieces fields j) := by
  refine ⟨?_, List.prefix_rfl, fun _ => rfl⟩
  apply List.forall₂_iff_get.mpr
  refine ⟨by rw [markedPieces, List.length_mapIdx], ?_⟩
  intro i hi hi' k hk
  rw [List.get_eq_getElem] at hk
  simp only [markedPieces, List.get_eq_getElem, List.getElem_mapIdx, Field.fillPiece, hk,
    List.length_replicate]

theorem fixedSize_le_markedPieces (hplain : PlainFields fields)
    (hone : fields.countP (fun f => f.format.isS) ≤ 1) (j : ℕ) :
    fixedSize fields ≤ (markedPieces fields j).flatten.length := by
  obtain ⟨n, hn⟩ := exists_fieldSizes hplain hone (fieldSplit_markedPieces fields j).sizes
  rw [List.length_flatten, hn, sum_fieldSizes]
  exact Nat.le_add_right _ _

theorem getElem_markedPieces {i j : ℕ} (hi : i < fields.length) {byte : UInt8}
    (hbyte : (if i = j then 1 else 0) = byte) :
    (fields[i], fields[i].fillPiece byte) ∈ fields.zip (markedPieces fields j) := by
  have hlen : i < (fields.zip (markedPieces fields j)).length := by
    rw [List.length_zip, markedPieces, List.length_mapIdx, Nat.min_self]
    exact hi
  have hget := List.getElem_mem hlen
  simp only [List.getElem_zip, markedPieces, List.getElem_mapIdx, hbyte] at hget
  exact hget

theorem ascii_markedPieces (j : ℕ) :
    ∀ x ∈ fields.zip (markedPieces fields j), x.1.format.isS = true → ∀ c ∈ x.2, c < 128 := by
  intro x hx hs c hc
  obtain ⟨i, hi, rfl⟩ := List.getElem_of_mem hx
  simp only [List.getElem_zip, markedPieces, List.getElem_mapIdx, Field.fillPiece] at hs hc
  split at hc
  · simp only [*, FieldFormat.isS, Bool.false_eq_true] at hs
  · cases hc

theorem pairwise_texts (hone : fields.countP (fun f => f.format.isS) ≤ 1) :
    fields.Pairwise fun f g => f.format.isS = true → g.format.isS = false := by
  induction fields with
  | nil => exact .nil
  | cons f fields ih =>
      rw [List.countP_cons] at hone
      apply List.Pairwise.cons
      · intro g hg hs
        rw [if_pos hs] at hone
        exact numbers_of_countP (by omega) g hg
      · exact ih (by omega)

end Names

namespace MessageClass
variable {cls : MessageClass}

/-- If two fields share a name, one of the two values is lost. -/
theorem Parses.names (h : cls.Parses) (hid : cls.id ≤ 255) {unpackSendFields : Bool}
    {fields : List Field} (hfields : cls.unpacked unpackSendFields = some fields)
    (hplain : PlainFields fields) : (fields.map Field.name).Nodup := by
  have hone : fields.countP (fun f => f.format.isS) ≤ 1 :=
    (mem_fields_of_declared hfields).elim (h.sendString fields) (h.recvString fields)
  apply List.pairwise_iff_getElem.mpr
  intro i j hi hj hij heq
  rw [List.length_map] at hi hj
  rw [List.getElem_map, List.getElem_map] at heq
  have hreg : List.lookup cls.id [(cls.id, cls)] = some cls := List.lookup_cons_self
  have hbyte : (UInt8.ofNat cls.id).toNat = cls.id :=
    UInt8.toNat_ofNat_of_lt' (Nat.lt_succ_of_le hid)
  obtain ⟨pieces, _, hunique, hunpack⟩ := h.splits _ unpackSendFields fields _ _ hreg hfields hbyte
    (fixedSize_le_markedPieces hplain hone j)
  rw [← hunique _ (fieldSplit_markedPieces fields j)] at hunpack
  obtain ⟨msg, _, hattr⟩ := hunpack (ascii_markedPieces j)
  obtain ⟨v, hv, hzero⟩ := hattr _ (getElem_markedPieces hi (if_neg hij.ne))
  obtain ⟨w, hw, hones⟩ := hattr _ (getElem_markedPieces hj (if_pos rfl))
  rw [heq, hw] at hv
  cases hv
  have htexts := List.pairwise_iff_getElem.mp (pairwise_texts hone) i j hi hj hij
  exact not_reads_fillPiece (hplain _ (List.getElem_mem hi)).2 (hplain _ (List.getElem_mem hj)).2
    htexts hzero hones

/-- An accepted class can be parsed just if it has one text to receive at most and no name stands
twice among the fields of a direction. -/
theorem parses_iff (hsend : ∀ fields ∈ cls.sendFields, PlainFields fields)
    (hrecv : ∀ fields ∈ cls.recvFields, PlainFields fields) {s : Classes}
    (haccepted : (s.declare cls.declaration).2 = .ok ()) :
    cls.Parses ↔ (∀ fields ∈ cls.recvFields, fields.countP (fun f => f.format.isS) ≤ 1) ∧
      (cls.id ≤ 255 → ∀ unpackSendFields fields, cls.unpacked unpackSendFields = some fields →
        (fields.map Field.name).Nodup) := by
  have hplain : ∀ unpackSendFields fields, cls.unpacked unpackSendFields = some fields →
      PlainFields fields := by
    intro unpackSendFields fields hfields
    exact (mem_fields_of_declared hfields).elim (hsend fields) (hrecv fields)
  constructor
  · intro h
    exact ⟨h.recvString, fun hid _ fields hfields => h.names hid hfields (hplain _ _ hfields)⟩
  · rintro ⟨hrecvString, hnames⟩
    have hsendString := countP_sendFields_of_accepted haccepted
    refine ⟨hsendString, hrecvString, ?_⟩
    intro registry unpackSendFields fields msgId body hreg hfields hid hlong
    have hone : fields.countP (fun f => f.format.isS) ≤ 1 :=
      (mem_fields_of_declared hfields).elim (hsendString fields) (hrecvString fields)
    have hbyte : cls.id ≤ 255 := by
      rw [← hid]
      exact Nat.le_of_lt_succ msgId.toNat_lt
    obtain ⟨pieces, hsplit, hunique⟩ :=
      existsUnique_fieldSplit (hplain _ _ hfields) hone hlong
    refine ⟨pieces, hsplit, hunique, fun hascii => ?_⟩
    rw [unpack_unpacked hreg hid]
    exact unpack_split hreg hfields (hplain _ _ hfields) hone (hnames hbyte _ _ hfields) hid hsplit
      hascii

/-- A number, and a text with a number behind it. -/
def noted : MessageClass where
  id := 0xE8
  sendFields := some [⟨"number", .item (.int .H), none⟩]
  recvFields := some [⟨"text", .s, none⟩, ⟨"number", .item (.int .i), none⟩]

theorem parses_iff_noted :
    (Classes.initial.declare noted.declaration).2 = .ok () ∧
      (noted.Parses ↔ (∀ fields ∈ noted.recvFields, fields.countP (fun f => f.format.isS) ≤ 1) ∧
        (noted.id ≤ 255 → ∀ unpackSendFields fields,
          noted.unpacked unpackSendFields = some fields → (fields.map Field.name).Nodup)) := by
  refine ⟨rfl, parses_iff ?_ ?_ (s := Classes.initial) rfl⟩
  · rintro fields ⟨⟩
    simp [PlainFields]
  · rintro fields ⟨⟩
    simp [PlainFields]

/-- With two texts to receive no payload of the class is unpacked. -/
theorem unpack_two_texts {fields : List Field} (hrecv : cls.recvFields = some fields)
    (hplain : PlainFields fields) (htwo : 1 < fields.countP (fun f => f.format.isS))
    {registry : Registry} (hreg : registry.lookup cls.id = some cls) {msgId : UInt8}
    (hid : msgId.toNat = cls.id) (body : Bytes) :
    VESCMessage.unpack registry (msgId :: body) false = .error (.typeError "") := by
  have hdecl : cls.declared false = some fields := hrecv
  have hcount : (fields.map Field.format).countP FieldFormat.isS ≠ 1 := by
    rw [List.countP_map]
    exact htwo.ne'
  have hformats : ∀ f ∈ fields.map Field.format, f = .s ∨ ∃ k, f = .item (.int k) := by
    intro f hf
    obtain ⟨field, hfield, rfl⟩ := List.mem_map.mp hf
    exact (hplain field hfield).2
  have hstring : (FieldTable.ofFields fields).stringField ≠ none := by
    intro hnone
    have hnumbers := (FieldTable.stringField_ofFields fields).mp hnone
    have hzero : fields.countP (fun f => f.format.isS) = 0 :=
      List.countP_eq_zero.mpr fun f hf => Bool.eq_false_iff.mp (hnumbers f hf)
    omega
  obtain ⟨i, hi⟩ := Option.ne_none_iff_exists'.mp hstring
  simp only [VESCMessage.unpack, msgType, hid, hreg, ok_bind, unpackAs,
    unpackTable_declared hdecl, hi, FieldTable.formats_ofFields, sizeWithoutString_eq hformats,
    fillString, if_neg hcount]
  rfl

/-- Two texts and nothing else. -/
def twoTexts : MessageClass where
  id := 0xE9
  sendFields := none
  recvFields := some [⟨"a", .s, none⟩, ⟨"b", .s, none⟩]

theorem parses_fails :
    (Classes.initial.declare twoTexts.declaration).2 = .ok () ∧
      (∀ fields ∈ twoTexts.recvFields, PlainFields fields) ∧
      (∀ body, VESCMessage.unpack [(0xE9, twoTexts)] (0xE9 :: body) false =
        .error (.typeError "")) ∧
      ¬ twoTexts.Parses := by
  have hplain : PlainFields [⟨"a", .s, none⟩, ⟨"b", .s, none⟩] := by simp [PlainFields]
  refine ⟨rfl, ?_, ?_, ?_⟩
  · rintro fields ⟨⟩
    exact hplain
  · intro body
    exact @unpack_two_texts twoTexts _ rfl hplain (by decide) _ rfl _ rfl body
  · intro h
    exact absurd (h.recvString _ rfl) (by decide)

end MessageClass

end PyVesc
