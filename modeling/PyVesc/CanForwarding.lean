import PyVesc.FieldTables
import PyVesc.Messages

/-!
# Forwarding over CAN

A message packed with a CAN id should be the message packed without one behind the two bytes of the
forward command. Header-only messages and messages without a variable-length string are; a message
with one is never packed, since that branch of `pack` reads a variable it has not assigned.
-/

namespace PyVesc

open StructFormat

/-- The fields that the chosen direction of a class declares. -/
def MessageClass.packedFields (cls : MessageClass) (packSendFields : Bool) : List Field :=
  ((if packSendFields then cls.sendFields else cls.recvFields).getD [])

def Message.withCanId (m : Message) (canId : Option ℕ) : Message := { m with canId := canId }

theorem MessageClass.stringField_eq_none (cls : MessageClass) (packSendFields : Bool) :
    (VESCMessage.packTable cls packSendFields).stringField = none ↔
      ∀ field ∈ cls.packedFields packSendFields, field.format.isS = false := by
  cases packSendFields
  · cases h : cls.recvFields
    · simp [VESCMessage.packTable, recvTable, packedFields, h, FieldTable.empty]
    · simp [VESCMessage.packTable, recvTable, packedFields, h, FieldTable.stringField_ofFields]
  · cases h : cls.sendFields
    · simp [VESCMessage.packTable, sendTable, packedFields, h, FieldTable.empty]
    · simp [VESCMessage.packTable, sendTable, packedFields, h, FieldTable.stringField_ofFields]

namespace VESCMessage

theorem structPack_forwarded {n : ℕ} (hn : n ≤ 255) (formats : List Format)
    (values : List PyVal) {bs : Bytes} (h : structPack formats values = .ok bs) :
    structPack (canIdFmt ++ formats) ([.int commForwardCan, .int n] ++ values) =
      .ok (34 :: UInt8.ofNat n :: bs) := by
  have hhead : StructFormat.pack canIdFmt [.int commForwardCan, .int n] =
      some [34, UInt8.ofNat n] := by
    have hcmd : IntFormat.pack .B commForwardCan = some [34] := by decide
    simp only [canIdFmt, StructFormat.pack, Format.pack, hcmd, IntFormat.pack_B hn]
    rfl
  unfold structPack at h ⊢
  rw [StructFormat.pack_append canIdFmt formats _ values rfl, hhead]
  cases hp : StructFormat.pack formats values with
  | none => rw [hp] at h; cases h
  | some rest => rw [hp] at h; cases h; rfl

theorem pack_headerOnly (m : Message) (packSendFields : Bool) {n : ℕ} (hn : n ≤ 255) {bs : Bytes}
    (h : pack (m.withCanId none) true packSendFields = .ok bs) :
    pack (m.withCanId (some n)) true packSendFields = .ok (34 :: UInt8.ofNat n :: bs) := by
  simp only [pack, Message.withCanId, if_true] at h ⊢
  exact structPack_forwarded hn idFmt [.int m.cls.id] h

/-- Without a variable-length string the fields are packed the same way behind the two bytes. -/
theorem pack_forwarded (m : Message) (packSendFields : Bool) {n : ℕ} (hn : n ≤ 255) {bs : Bytes}
    (hs : (packTable m.cls packSendFields).stringField = none)
    (h : pack (m.withCanId none) false packSendFields = .ok bs) :
    pack (m.withCanId (some n)) false packSendFields = .ok (34 :: UInt8.ofNat n :: bs) := by
  simp only [pack, Message.withCanId, Bool.false_eq_true, if_false, hs] at h ⊢
  obtain ⟨fieldValues, hfields, h⟩ := bind_eq_ok h
  obtain ⟨formats, hformats, h⟩ := bind_eq_ok h
  have hsame : VESCMessage.fieldValues { m with canId := some n } _ = .ok fieldValues := hfields
  simp only [hsame, hformats, bind, Except.bind]
  exact structPack_forwarded hn (idFmt ++ formats) (.int m.cls.id :: fieldValues) h

/-- With one, packing for a CAN id always fails. -/
theorem pack_string_forwarded (m : Message) (packSendFields : Bool) (n : ℕ) {bs : Bytes}
    (hs : (packTable m.cls packSendFields).stringField ≠ none)
    (h : pack (m.withCanId none) false packSendFields = .ok bs) :
    pack (m.withCanId (some n)) false packSendFields = .error .unboundLocalError := by
  obtain ⟨stringField, hs⟩ := Option.ne_none_iff_exists'.mp hs
  simp only [pack, Message.withCanId, Bool.false_eq_true, if_false, hs] at h ⊢
  obtain ⟨fieldValues, hfields, h⟩ := bind_eq_ok h
  obtain ⟨⟨stringLength, values⟩, hvalues, _⟩ := bind_eq_ok h
  have hsame : VESCMessage.fieldValues { m with canId := some n } _ = .ok fieldValues := hfields
  have hstring : stringValues { m with canId := some n } _ _ _ = .ok (stringLength, values) :=
    hvalues
  simp only [hsame, hstring, bind, Except.bind]

/-- A message that can be packed without a CAN id is packed with one as the same bytes behind the
forward command and the id, exactly if only the header is packed or no variable-length string is
declared for the direction that is packed. -/
theorem pack_forwarded_iff (m : Message) (headerOnly packSendFields : Bool) (n : ℕ) (hn : n ≤ 255)
    (bs : Bytes) (h : pack (m.withCanId none) headerOnly packSendFields = .ok bs) :
    pack (m.withCanId (some n)) headerOnly packSendFields = .ok ([34, UInt8.ofNat n] ++ bs) ↔
      headerOnly = true ∨
        ∀ field ∈ m.cls.packedFields packSendFields, field.format.isS = false := by
  cases headerOnly with
  | true => exact iff_of_true (pack_headerOnly m packSendFields hn h) (Or.inl rfl)
  | false =>
    rw [← m.cls.stringField_eq_none packSendFields]
    by_cases hs : (packTable m.cls packSendFields).stringField = none
    · exact iff_of_true (pack_forwarded m packSendFields hn hs h) (Or.inr hs)
    · refine iff_of_false ?_ (by simpa using hs)
      rw [pack_string_forwarded m packSendFields n hs h]
      exact fun heq => by cases heq

theorem pack_forwarded_iff_setRPM :
    (pack (Message.withCanId ⟨Messages.setRPM, none, [("rpm", .int 1000)]⟩ (some 5)) false true =
      .ok ([34, UInt8.ofNat 5] ++ [8, 0, 0, 3, 232]) ↔ false = true ∨
        ∀ field ∈ Messages.setRPM.packedFields true, field.format.isS = false) :=
  pack_forwarded_iff ⟨Messages.setRPM, none, [("rpm", .int 1000)]⟩ false true 5 (by decide)
    [8, 0, 0, 3, 232] (by decide +kernel)

def pingCmd : Message := ⟨Messages.terminalCmd, none, [("cmd", .str "ping")]⟩

/-- A terminal command is packed, and is not packed for a controller behind the CAN bus. -/
theorem pack_terminalCmd_not_forwarded :
    Messages.terminalCmd.call [.str "ping"] none true = .ok pingCmd ∧
    pack (pingCmd.withCanId none) false true = .ok [20, 112, 105, 110, 103] ∧
    ¬ pack (pingCmd.withCanId (some 5)) false true =
      .ok ([34, UInt8.ofNat 5] ++ [20, 112, 105, 110, 103]) := by
  refine ⟨rfl, by decide +kernel, by decide +kernel⟩

end VESCMessage

end PyVesc
