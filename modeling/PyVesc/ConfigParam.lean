import PyVesc.PacketCodec
import PyVesc.PyNumber

/-!
# The parameters of a configuration

`params/config_param.py`: the subclasses of `ConfigParam`, each with the number of bytes that the
readers of `confgenerator.py` pop for it. A parameter is here its class and its value; its name, and
the value `None` of one that has not been read, come with the generated readers and writers. The
reader and the writer below go through any list of parameters in order.
-/

namespace PyVesc

open PyNumber

def bufferPop (buffer : Bytes) (length : ℕ) : Bytes × Bytes :=
  (buffer.take length, buffer.drop length)

/-- `self.value` where a number is needed. -/
def numberOf (value : PyVal) : Py ℚ :=
  match value.number with
  | some q => .ok q
  | none => .error (.typeError "")

/-- `value.to_bytes(width, byteorder='big', signed=signed)`. -/
def intToBytes (width : ℕ) (signed : Bool) (value : PyVal) : Py Bytes :=
  let convert (z : ℤ) : Py Bytes :=
    let bound : ℤ := if signed then (256 ^ width : ℕ) / 2 else (256 ^ width : ℕ)
    if (if signed then -bound else 0) ≤ z ∧ z < bound then .ok (BigEndian.ofInt width z)
    else .error .overflowError
  match value with
  | .int z => convert z
  | .bool b => convert (if b then 1 else 0)
  | _ => .error (.attributeError "to_bytes")

def deserialiseInt (width : ℕ) (signed : Bool) (message : String) (buffer : Bytes) : Py PyVal :=
  if buffer.length ≠ width then .error (.valueError message)
  else .ok (.int (BigEndian.toInt signed buffer))

def serialiseInt (width : ℕ) (signed : Bool) (low high : ℤ) (message : String) (value : PyVal) :
    Py Bytes := do
  let q ← numberOf value
  if q < low ∨ high < q then .error (.valueError message) else intToBytes width signed value

/-- `round(value)`. -/
def pyRound (value : PyVal) : Py ℤ := do
  let q ← numberOf value
  return roundHalfEven q

def serialiseRounded (width : ℕ) (low high : ℤ) (message : String) (value : PyVal) : Py Bytes := do
  let rounded ← pyRound value
  if rounded < low ∨ high < rounded then .error (.valueError message)
  else intToBytes width true (.int rounded)

def ParamBool.deserialise (buffer : Bytes) : Py PyVal :=
  if buffer.length ≠ 1 then .error (.valueError "Buffer must be exactly 1 byte long.")
  else .ok (StructFormat.Format.unpack .bool buffer)

def ParamBool.serialise (value : PyVal) : Py Bytes :=
  match StructFormat.Format.pack .bool value with
  | some bs => .ok bs
  | none => .error .structError

def ParamUInt8.deserialise : Bytes → Py PyVal :=
  deserialiseInt 1 false "Buffer must be exactly 1 byte long."

def ParamUInt8.serialise : PyVal → Py Bytes :=
  serialiseInt 1 false 0 255 "Value must be between 0 and 255 for uint8."

def ParamInt8.deserialise : Bytes → Py PyVal :=
  deserialiseInt 1 true "Buffer must be exactly 1 byte long."

def ParamInt8.serialise : PyVal → Py Bytes :=
  serialiseInt 1 true (-128) 127 "Value must be between -128 and 127 for int8."

def ParamUInt16.deserialise : Bytes → Py PyVal :=
  deserialiseInt 2 false "Buffer must be exactly 2 bytes long."

def ParamUInt16.serialise : PyVal → Py Bytes :=
  serialiseInt 2 false 0 65535 "Value must be between 0 and 65535 for uint16."

def ParamInt16.deserialise : Bytes → Py PyVal :=
  deserialiseInt 2 true "Buffer must be exactly 2 bytes long."

def ParamInt16.serialise : PyVal → Py Bytes :=
  serialiseInt 2 true (-32768) 32767 "Value must be between -32768 and 32767 for int16."

def ParamUInt32.deserialise : Bytes → Py PyVal :=
  deserialiseInt 4 false "Buffer must be exactly 4 bytes long."

def ParamUInt32.serialise : PyVal → Py Bytes :=
  serialiseInt 4 false 0 4294967295 "Value must be between 0 and 4294967295 for uint32."

def ParamInt32.deserialise : Bytes → Py PyVal :=
  deserialiseInt 4 true "Buffer must be exactly 4 bytes long."

def ParamInt32.serialise : PyVal → Py Bytes :=
  serialiseInt 4 true (-2147483648) 2147483647
    "Value must be between -2147483648 and 2147483647 for int32."

/-- `float(value)`, also where a function of `math` takes one. -/
def floatOf (value : PyVal) : Py ℚ :=
  match value with
  | .int z => (floatOfInt z).elim (.error .overflowError) .ok
  | value => numberOf value

def toFloat (value : PyVal) : Py PyVal := do
  let q ← floatOf value
  return .float q

def ParamDouble16.deserialise (buffer : Bytes) : Py PyVal := do
  let value ← ParamInt16.deserialise buffer
  toFloat value

def ParamDouble16.serialise : PyVal → Py Bytes :=
  serialiseRounded 2 (-32768) 32767 "Value must be between -32768 and 32767 for int16."

def ParamDouble32.deserialise (buffer : Bytes) : Py PyVal := do
  let value ← ParamInt32.deserialise buffer
  toFloat value

def ParamDouble32.serialise : PyVal → Py Bytes :=
  serialiseRounded 4 (-2147483648) 2147483647
    "Value must be between -2147483648 and 2147483647 for int32."

namespace ParamDouble32Auto

/-- The number with an exponent field, a fraction field and a sign bit. -/
def decodeFields (e : ℤ) (m negative : ℕ) : ℚ :=
  let (f, e) : ℚ × ℤ :=
    if e ≠ 0 ∨ m ≠ 0 then ((m : ℚ) / (8388608 * 2) + 1 / 2, e - 126) else (0, e)
  let f := if negative ≠ 0 then -f else f
  ldexp f e

def decode (word : ℕ) : ℚ :=
  decodeFields ((word >>> 23) &&& 0xFF : ℕ) (word &&& 0x7FFFFF) (word &&& (1 <<< 31))

/-- The float `1.5e-38`. -/
def smallest : ℚ := 5746858278247083 / 2 ^ 178

/-- The word for a mantissa and an exponent. -/
def encodeFields (fr : ℚ) (e : ℤ) : ℕ :=
  let (frS, e) : ℤ × ℤ :=
    if 1 / 2 ≤ |fr| then (truncate ((|fr| - 1 / 2) * 2 * 8388608), e + 126) else (0, e)
  -- the masks `& 0xFF` and `& 0x7FFFFF` on integers of either sign
  let res := ((e % 256).toNat <<< 23) ||| (frS % 8388608).toNat
  if fr < 0 then res ||| (1 <<< 31) else res

def encode (number : ℚ) : ℕ :=
  let number := if |number| < smallest then 0 else number
  let (fr, e) := frexp number
  encodeFields fr e

def deserialise (buffer : Bytes) : Py PyVal := .ok (.float (decode (BigEndian.toNat buffer)))

def serialise (value : PyVal) : Py Bytes := do
  let number ← floatOf value
  intToBytes 4 false (.int (encode number))

end ParamDouble32Auto

inductive ConfigParam where
  | bool | uInt8 | int8 | uInt16 | int16 | uInt32 | int32 | double16 | double32 | double32Auto
  deriving DecidableEq, Repr

namespace ConfigParam

/-- The bytes that a reader pops for a parameter. -/
def width : ConfigParam → ℕ
  | .bool | .uInt8 | .int8 => 1
  | .uInt16 | .int16 | .double16 => 2
  | .uInt32 | .int32 | .double32 | .double32Auto => 4

def deserialise : ConfigParam → Bytes → Py PyVal
  | .bool => ParamBool.deserialise
  | .uInt8 => ParamUInt8.deserialise
  | .int8 => ParamInt8.deserialise
  | .uInt16 => ParamUInt16.deserialise
  | .int16 => ParamInt16.deserialise
  | .uInt32 => ParamUInt32.deserialise
  | .int32 => ParamInt32.deserialise
  | .double16 => ParamDouble16.deserialise
  | .double32 => ParamDouble32.deserialise
  | .double32Auto => ParamDouble32Auto.deserialise

def serialise : ConfigParam → PyVal → Py Bytes
  | .bool => ParamBool.serialise
  | .uInt8 => ParamUInt8.serialise
  | .int8 => ParamInt8.serialise
  | .uInt16 => ParamUInt16.serialise
  | .int16 => ParamInt16.serialise
  | .uInt32 => ParamUInt32.serialise
  | .int32 => ParamInt32.serialise
  | .double16 => ParamDouble16.serialise
  | .double32 => ParamDouble32.serialise
  | .double32Auto => ParamDouble32Auto.serialise

end ConfigParam

/-- A reader: every parameter takes its bytes from the front of the buffer. What is left comes with
the parameters. -/
def readParams : List ConfigParam → Bytes → Py (List (ConfigParam × PyVal) × Bytes)
  | [], buffer => .ok ([], buffer)
  | param :: kinds, buffer => do
    let (popped, buffer) := bufferPop buffer param.width
    let value ← param.deserialise popped
    let (params, buffer) ← readParams kinds buffer
    return ((param, value) :: params, buffer)

/-- A writer. -/
def writeParams : List (ConfigParam × PyVal) → Py Bytes
  | [] => .ok []
  | (param, value) :: params => do
    let bs ← param.serialise value
    let rest ← writeParams params
    return bs ++ rest

end PyVesc
