import PyVesc.PacketCodec
import PyVesc.PyFloat

/-!
# Message classes, packing and unpacking

`protocol/base.py`: the tables that the metaclass derives from the declared fields, the construction
of an instance, and `VESCMessage.pack` and `VESCMessage.unpack`. A field is declared with a name, a
format and an optional scalar. The format is one struct item, or `s` for text of any length. Text is
ASCII on the wire unless its scalar is -1.

The names of fields are taken not to clash with other attributes of the class, so that an instance
keeps its field values apart from its `id` and its `can_id`. Only numbers are scaled: text in a
field that has a scalar and another format than `s` is refused. A scalar that is a whole number is
an `int`, and any other a float. Numbers are scaled as the interpreter does it, with doubles; the
arithmetic is left open, so that a message can also be followed on exact numbers.
-/

namespace PyVesc

open StructFormat PyNumber

/-- In the tables `s` stands for `%us`. The metaclass refuses the format `p`. -/
inductive FieldFormat where
  | s
  | item (f : Format)

namespace FieldFormat

def isS : FieldFormat → Bool
  | .s => true
  | .item _ => false

/-- What `%` makes of the format once the string length is known. -/
def fill (stringLength : ℕ) : FieldFormat → Format
  | .s => .bytes stringLength
  | .item f => f

end FieldFormat

structure Field where
  name : String
  format : FieldFormat
  scalar : Option ℚ

structure MessageClass where
  id : ℕ
  sendFields : Option (List Field)
  recvFields : Option (List Field)

/-- The static variables that the metaclass fills for one direction. -/
structure FieldTable where
  stringField : Option ℕ
  names : List String
  formats : List FieldFormat
  scalars : List ℚ

namespace FieldTable

def empty : FieldTable := ⟨none, [], [], []⟩

def addField (t : FieldTable) (field : Field × ℕ) : FieldTable where
  names := t.names ++ [field.1.name]
  scalars := t.scalars ++ field.1.scalar.toList
  formats := t.formats ++ [field.1.format]
  stringField := if field.1.format.isS then some field.2 else t.stringField

def ofFields (fields : List Field) : FieldTable := fields.zipIdx.foldl addField empty

end FieldTable

namespace MessageClass

def sendTable (cls : MessageClass) : FieldTable :=
  (cls.sendFields.map FieldTable.ofFields).getD .empty

def recvTable (cls : MessageClass) : FieldTable :=
  (cls.recvFields.map FieldTable.ofFields).getD .empty

end MessageClass

structure Message where
  cls : MessageClass
  canId : Option ℕ
  attrs : List (String × PyVal)

namespace Message

def getattr (m : Message) (name : String) : Py PyVal :=
  match m.attrs.lookup name with
  | some v => .ok v
  | none => .error (.attributeError name)

def setattr (m : Message) (name : String) (v : PyVal) : Message :=
  { m with attrs := (name, v) :: m.attrs }

end Message

/-- The fields that the constructor sets, and their names. -/
def MessageClass.fieldsToUnpack (cls : MessageClass) (unpackSendFields : Bool) :
    Py (List Field × List String) :=
  match cls.sendFields, cls.recvFields with
  | some fields, none => .ok (fields, cls.sendTable.names)
  | some fields, some recv =>
    if unpackSendFields then .ok (fields, cls.sendTable.names) else .ok (recv, cls.recvTable.names)
  | none, some recv => .ok (recv, cls.recvTable.names)
  | none, none => .error (.attributeError "recv_fields")

/-- `VESCMessage.__call__`. -/
def MessageClass.call (cls : MessageClass) (args : List PyVal) (canId : Option ℕ)
    (unpackSendFields : Bool) : Py Message := do
  let instance_ : Message := ⟨cls, canId, []⟩
  let (fields, fieldNames) ← cls.fieldsToUnpack unpackSendFields
  if args = [] then return instance_
  else if args.length ≠ fields.length then
    .error (.attributeError s!"Expected {fields.length} arguments, received {args.length}")
  else return (fieldNames.zip args).foldl (fun m nv => m.setattr nv.1 nv.2) instance_

abbrev Registry := List (ℕ × MessageClass)

def structPack (formats : List Format) (values : List PyVal) : Py Bytes :=
  match StructFormat.pack formats values with
  | some bs => .ok bs
  | none => .error .structError

theorem structPack_eq_ok {formats : List Format} {values : List PyVal} {payload : Bytes}
    (h : structPack formats values = .ok payload) :
    StructFormat.pack formats values = some payload := by
  unfold structPack at h
  cases hp : StructFormat.pack formats values with
  | none =>
      rw [hp] at h
      cases h
  | some bs =>
      rw [hp] at h
      cases h
      rfl

def structUnpackFrom (formats : List Format) (buffer : Bytes) (offset : ℕ) : Py (List PyVal) :=
  match StructFormat.unpackFrom formats buffer offset with
  | some vs => .ok vs
  | none => .error .structError

namespace VESCMessage

def msgType (registry : Registry) (id : ℕ) : Py MessageClass :=
  match registry.lookup id with
  | some cls => .ok cls
  | none => .error .keyError

def idFmt : List Format := [.int .B]

def canIdFmt : List Format := [.int .B, .int .B]

def commForwardCan : ℕ := 34

/-- `int(value * scalar)`. -/
def scaleToInt [FloatArithmetic] (v : PyVal) (scalar : ℚ) : Py PyVal :=
  match v.number with
  | none => .error (.typeError "")
  | some _ =>
    match product v scalar with
    | some q => .ok (.int (truncate q))
    | none => .error .overflowError

def encodeAscii : PyVal → Py PyVal
  | .str s =>
    if s.toList.all (fun c => c.toNat < 128) then
      .ok (.bytes (s.toList.map (fun c => UInt8.ofNat c.toNat)))
    else .error .unicodeError
  | _ => .error (.attributeError "encode")

def decodeAscii : PyVal → Py PyVal
  | .bytes bs =>
    if bs.all (fun b => b < 128) then
      .ok (.str (String.ofList (bs.map (fun b => Char.ofNat b.toNat))))
    else .error .unicodeError
  | _ => .error (.attributeError "decode")

def len : PyVal → Py ℕ
  | .bytes bs => .ok bs.length
  | .str s => .ok s.length
  | _ => .error (.typeError "")

def getItem {α : Type*} (l : List α) (i : ℕ) : Py α :=
  match l[i]? with
  | some x => .ok x
  | none => .error .indexError

/-- The values to pack, scaled where the class declares scalars. -/
def fieldValues [FloatArithmetic] (m : Message) (t : FieldTable) : Py (List PyVal) :=
  if t.scalars = [] then t.names.mapM m.getattr
  else (t.names.zip t.scalars).zipIdx.mapM fun ((fieldName, fieldScalar), index) =>
    match m.cls.sendFields with
    | none => .error (.attributeError "send_fields")
    | some sendFields => do
      let field ← getItem sendFields index
      let v ← m.getattr fieldName
      -- the scalar of a string field represents its format, not the data
      if field.format.isS then return v else scaleToInt v fieldScalar

/-- `field_formats % (string_length)`: there must be one place to put the length. -/
def fillString (formats : List FieldFormat) (stringLength : ℕ) : Py (List Format) :=
  if formats.countP FieldFormat.isS = 1 then .ok (formats.map (FieldFormat.fill stringLength))
  else .error (.typeError "")

/-- The formats used as they stand, where `%us` is no format character. -/
def plainFormats (formats : List FieldFormat) : Py (List Format) :=
  if formats.any FieldFormat.isS then .error .structError
  else .ok (formats.map (FieldFormat.fill 0))

def packTable (cls : MessageClass) (packSendFields : Bool) : FieldTable :=
  if packSendFields then cls.sendTable else cls.recvTable

/-- The length of the string and the values with the string encoded. -/
def stringValues (m : Message) (t : FieldTable) (stringField : ℕ) (fieldValues : List PyVal) :
    Py (ℕ × List PyVal) := do
  let stringFieldName ← getItem t.names stringField
  let string ← m.getattr stringFieldName
  let stringLength ← len string
  if t.scalars[stringField]? = some (-1) then return (stringLength, fieldValues)
  let encoded ← encodeAscii (← getItem fieldValues stringField)
  return (stringLength, fieldValues.set stringField encoded)

/-- `VESCMessage.pack`. -/
def pack [FloatArithmetic] (m : Message) (headerOnly : Bool) (packSendFields : Bool) : Py Bytes :=
  if headerOnly then
    match m.canId with
    | some canId => structPack (canIdFmt ++ idFmt) [.int commForwardCan, .int canId, .int m.cls.id]
    | none => structPack idFmt [.int m.cls.id]
  else do
    let t := packTable m.cls packSendFields
    let fieldValues ← fieldValues m t
    match t.stringField with
    | some stringField => do
      let (stringLength, fieldValues) ← stringValues m t stringField fieldValues
      match m.canId with
      | some _ => .error .unboundLocalError -- `fmt` is read before it is assigned
      | none => do
        let formats ← fillString t.formats stringLength
        structPack (idFmt ++ formats) (.int m.cls.id :: fieldValues)
    | none => do
      let formats ← plainFormats t.formats
      match m.canId with
      | some canId =>
        structPack (canIdFmt ++ (idFmt ++ formats))
          ([.int commForwardCan, .int canId] ++ .int m.cls.id :: fieldValues)
      | none => structPack (idFmt ++ formats) (.int m.cls.id :: fieldValues)

/-- The size of the format string with every `%u` and every `s` removed. The repeat count of a
removed `s` stays behind and becomes part of the count of the item that follows. -/
def sizeWithoutString : Option ℕ → List FieldFormat → Py ℕ
  | none, [] => .ok 0
  | some _, [] => .error .structError
  | count, .s :: formats => sizeWithoutString count formats
  | count, .item (.bytes n) :: formats =>
    sizeWithoutString (some (count.getD 0 * 10 ^ (Nat.toDigits 10 n).length + n)) formats
  | count, .item f :: formats => do
    let size ← sizeWithoutString none formats
    return count.getD 1 * f.size + size

/-- `data[k] / field_scalars[k]`, where a missing scalar, the scalar 0 and a value that cannot be
divided leave the value as it is. -/
def scaleDown [FloatArithmetic] (scalars : List ℚ) (k : ℕ) (v : PyVal) : PyVal :=
  match scalars[k]? with
  | none => v
  | some scalar => if scalar ≠ 0 then ((quotient v scalar).map PyVal.float).getD v else v

def unpackTable (cls : MessageClass) (unpackSendFields : Bool) : Py FieldTable :=
  if unpackSendFields || cls.recvFields.isNone then
    if cls.sendFields.isSome then .ok cls.sendTable else .error (.attributeError "send_fields")
  else .ok cls.recvTable

/-- The part of `VESCMessage.unpack` that follows the choice of the class. -/
def unpackAs [FloatArithmetic] (cls : MessageClass) (msgBytes : Bytes) (unpackSendFields : Bool) :
    Py Message := do
  let t ← unpackTable cls unpackSendFields
  match t.stringField with
  | some stringField => do
    let size ← sizeWithoutString none t.formats
    let formats ← fillString t.formats (msgBytes.length - size - 1)
    if msgBytes.length < size + 1 then .error .structError
    let data ← structUnpackFrom formats msgBytes 1
    let msg ← cls.call data none unpackSendFields
    let stringFieldName ← getItem t.names stringField
    let isByteString ←
      if t.scalars = [] then pure false
      else do
        let scalar ← getItem t.scalars stringField
        pure (decide (scalar = -1))
    let v ← msg.getattr stringFieldName
    if isByteString then return msg.setattr stringFieldName v
    else return msg.setattr stringFieldName (← decodeAscii v)
  | none => do
    let formats ← plainFormats t.formats
    let data ← structUnpackFrom formats msgBytes 1
    cls.call (data.mapIdx (scaleDown t.scalars)) none unpackSendFields

/-- `VESCMessage.unpack`. -/
def unpack [FloatArithmetic] (registry : Registry) (msgBytes : Bytes) (unpackSendFields : Bool) :
    Py Message :=
  match msgBytes with
  | [] => .error .structError
  | msgId :: _ => do
    let cls ← msgType registry msgId.toNat
    unpackAs cls msgBytes unpackSendFields

end VESCMessage

end PyVesc
