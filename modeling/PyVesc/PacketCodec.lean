import PyVesc.BigEndian

/-!
# The packet codec

`Header` and `Footer` of `packet/structure.py` and the functions of `packet/codec.py`. The checksum
of the `crccheck` package is the parameter `crc`.

`unpack` and `recoveryRecurse` call each other on ever shorter buffers. Their first argument is the
number of nested calls the interpreter still allows; `unframe` allows as many as the buffer can
need, see `unpack_eq_unframe`. The error handling schemes are the two that `_unpack` handles.
-/

namespace PyVesc

abbrev Bytes := List UInt8

/-- The exceptions of the modelled functions. Those with a message are raised by a statement of the
repository, the others by the interpreter or the standard library. -/
inductive PyError where
  | corruptPacket (message : String)
  | invalidPayload (message : String)
  | attributeError (message : String)
  | typeError (message : String)
  | valueError (message : String)
  | structError
  | indexError
  | keyError
  | unboundLocalError
  | unicodeError
  | recursionError
  | overflowError
  | zeroDivisionError
  deriving DecidableEq, Repr

abbrev Py := Except PyError

theorem ok_bind {α β : Type} (a : α) (f : α → Py β) : (Except.ok a >>= f : Py β) = f a := rfl

theorem bind_eq_ok {α β : Type} {x : Py α} {f : α → Py β} {r : β} (h : x >>= f = .ok r) :
    ∃ a, x = .ok a ∧ f a = .ok r := by
  cases x with
  | error e => cases h
  | ok a => exact ⟨a, rfl, h⟩

section Lists
variable {α β : Type} {f g : α → Py β}

theorem mapM_eq_ok_of_forall₂ {xs : List α} {ys : List β}
    (h : List.Forall₂ (fun x y => f x = .ok y) xs ys) : xs.mapM f = .ok ys := by
  induction h with
  | nil => rfl
  | cons hx _ ih =>
    rw [List.mapM_cons, hx, ok_bind, ih]
    rfl

theorem forall₂_of_mapM_eq_ok {xs : List α} {ys : List β} (h : xs.mapM f = .ok ys) :
    List.Forall₂ (fun x y => f x = .ok y) xs ys := by
  induction xs generalizing ys with
  | nil =>
    cases h
    exact .nil
  | cons x xs ih =>
    rw [List.mapM_cons] at h
    obtain ⟨y, hy, h⟩ := bind_eq_ok h
    obtain ⟨ys', hys, h⟩ := bind_eq_ok h
    cases h
    exact .cons hy (ih hys)

theorem mapM_congr {l : List α} (h : ∀ a ∈ l, f a = g a) : l.mapM f = l.mapM g := by
  induction l with
  | nil => rfl
  | cons a l ih =>
    obtain ⟨ha, hl⟩ := List.forall_mem_cons.mp h
    rw [List.mapM_cons, List.mapM_cons, ha, ih hl]

end Lists

/-- `buffer[i:j]` for non-negative bounds. -/
def slice {α : Type*} (buffer : List α) (i j : ℕ) : List α := (buffer.drop i).take (j - i)

theorem length_slice {α : Type*} (b : List α) (i j : ℕ) :
    (slice b i j).length = min (j - i) (b.length - i) := by
  rw [slice, List.length_take, List.length_drop]

/-- The two struct formats of a header, `>BB` and `>BH`. -/
inductive HeaderFmt where
  | BB
  | BH
  deriving DecidableEq, Repr

def HeaderFmt.calcsize : HeaderFmt → ℕ
  | .BB => 2
  | .BH => 3

structure Header where
  payloadIndex : ℕ
  payloadLength : ℕ
  deriving DecidableEq, Repr

namespace Header

def fmt (startByte : ℕ) : Py HeaderFmt :=
  if startByte = 2 then .ok .BB
  else if startByte = 3 then .ok .BH
  else .error (.corruptPacket s!"Invalid start byte: {startByte}")

def generate (payload : Bytes) : Py Header :=
  if payload.length < 256 then .ok ⟨2, payload.length⟩
  else if payload.length < 65536 then .ok ⟨3, payload.length⟩
  else .error (.invalidPayload "Invalid payload size. Payload must be less than 65536 bytes.")

def parse (buffer : Bytes) : Py Header :=
  match buffer with
  | [] => .error .indexError
  | startByte :: rest => do
    let f ← fmt startByte.toNat
    if buffer.length < f.calcsize then .error .structError
    else .ok ⟨startByte.toNat, BigEndian.toNat (rest.take (f.calcsize - 1))⟩

/-- `struct.pack` of a header, which refuses a length that its format cannot hold. -/
def pack (f : HeaderFmt) (h : Header) : Py Bytes :=
  if h.payloadIndex < 256 ∧ h.payloadLength < 256 ^ (f.calcsize - 1) then
    .ok (UInt8.ofNat h.payloadIndex :: BigEndian.ofNat (f.calcsize - 1) h.payloadLength)
  else .error .structError

end Header

structure Footer where
  crc : ℕ
  terminator : ℕ
  deriving DecidableEq, Repr

namespace Footer

def TERMINATOR : ℕ := 3

/-- Size of the format `>HB`. -/
def calcsize : ℕ := 3

def parse (buffer : Bytes) (h : Header) : Py Footer :=
  match buffer.drop (h.payloadIndex + h.payloadLength) with
  | crcHigh :: crcLow :: terminator :: _ =>
    .ok ⟨BigEndian.toNat [crcHigh, crcLow], terminator.toNat⟩
  | _ => .error .structError

def generate (crc : Bytes → UInt16) (payload : Bytes) : Footer :=
  ⟨(crc payload).toNat, TERMINATOR⟩

def pack (f : Footer) : Py Bytes :=
  if f.crc < 65536 ∧ f.terminator < 256 then
    .ok (BigEndian.ofNat 2 f.crc ++ [UInt8.ofNat f.terminator])
  else .error .structError

end Footer

/-- The value of the `errors` argument. -/
inductive Errors where
  | ignore
  | strict
  deriving DecidableEq, Repr

/-- A `struct.error` turned into a `CorruptPacket`. -/
def structErrorAsCorrupt {α : Type*} (message : String) (x : Py α) : Py α :=
  match x with
  | .error .structError => .error (.corruptPacket message)
  | r => r

def unpackHeader (buffer : Bytes) : Py (Option Header) :=
  match buffer with
  | [] => .ok none
  | startByte :: _ => do
    let f ← Header.fmt startByte.toNat
    if f.calcsize ≤ buffer.length then
      let h ← structErrorAsCorrupt "Unable to parse header" (Header.parse buffer)
      return some h
    else return none

def unpackFooter (buffer : Bytes) (h : Header) : Py Footer :=
  structErrorAsCorrupt "Unable to parse footer" (Footer.parse buffer h)

/-- `none` stands for the index -1. -/
def nextPossiblePacketIndex (buffer : Bytes) : Option ℕ :=
  if buffer.length < 2 then none
  else
    let nextShortSb := (buffer.drop 1).idxOf? 2
    let nextLongSb := (buffer.drop 1).idxOf? 3
    let possibleIndex := (nextShortSb.map (· + 1)).toList ++ (nextLongSb.map (· + 1)).toList
    possibleIndex.min?

def packetSize (h : Header) : Py ℕ := do
  let f ← Header.fmt h.payloadIndex
  return f.calcsize + h.payloadLength + Footer.calcsize

def packetParsable (buffer : Bytes) (h : Header) : Py Bool := do
  let frameSize ← packetSize h
  return frameSize ≤ buffer.length

def unpackPayload (buffer : Bytes) (h : Header) : Bytes :=
  slice buffer h.payloadIndex (h.payloadIndex + h.payloadLength)

variable (crc : Bytes → UInt16)

def validatePayload (payload : Bytes) (footer : Footer) : Py Unit :=
  if (crc payload).toNat ≠ footer.crc then .error (.corruptPacket "Invalid checksum value.")
  else if footer.terminator ≠ Footer.TERMINATOR then
    .error (.corruptPacket s!"Invalid terminator: {footer.terminator}")
  else .ok ()

/-- What the body of the `try` statement in `_unpack` comes to when nothing is raised. -/
inductive Attempt where
  | tooShort
  | packet (payload : Bytes) (consumed : ℕ)
  deriving DecidableEq, Repr

def attempt (buffer : Bytes) (header : Option Header) : Py Attempt := do
  let header ← match header with
    | none => unpackHeader buffer
    | some h => pure (some h)
  match header with
  | none => return .tooShort
  | some h =>
    if (← packetParsable buffer h) = false then return .tooShort
    else
      let payload := unpackPayload buffer h
      let footer ← unpackFooter buffer h
      validatePayload crc payload footer
      let consumed ← packetSize h
      return .packet payload consumed

mutual

def unpack : ℕ → Bytes → Option Header → Errors → Bool → Py (Option Bytes × ℕ)
  | 0, _, _, _, _ => .error .recursionError
  | depth + 1, buffer, header, errors, recoveryMode =>
    match attempt crc buffer header with
    | .ok .tooShort =>
      if recoveryMode then recoveryRecurse depth buffer header errors false else .ok (none, 0)
    | .ok (.packet payload consumed) => .ok (some payload, consumed)
    | .error (.corruptPacket message) =>
      match errors with
      | .ignore => recoveryRecurse depth buffer header errors true
      | .strict => .error (.corruptPacket message)
    | .error e => .error e

def recoveryRecurse : ℕ → Bytes → Option Header → Errors → Bool → Py (Option Bytes × ℕ)
  | 0, _, _, _, _ => .error .recursionError
  | depth + 1, buffer, _, errors, consumeOnNotRecovered =>
    match nextPossiblePacketIndex buffer with
    | none => if consumeOnNotRecovered then .ok (none, buffer.length) else .ok (none, 0)
    | some nextSb => do
      let (payload, consumed) ← unpack depth (buffer.drop nextSb) none errors true
      match payload with
      | none =>
        -- an incomplete candidate is passed over without adding its own offset
        if consumeOnNotRecovered then return (none, consumed + nextSb) else return (none, consumed)
      | some payload => return (some payload, consumed + nextSb)

end

/-- As many nested calls as a buffer can need. -/
def unframe (buffer : Bytes) (errors : Errors) : Py (Option Bytes × ℕ) :=
  unpack crc (2 * buffer.length + 2) buffer none errors false

def frame (payload : Bytes) : Py Bytes :=
  if payload = [] then .error (.invalidPayload "Empty payload")
  else do
    let header ← Header.generate payload
    let footer := Footer.generate crc payload
    let f ← Header.fmt header.payloadIndex
    let header ← Header.pack f header
    let footer ← footer.pack
    return header ++ payload ++ footer

end PyVesc
