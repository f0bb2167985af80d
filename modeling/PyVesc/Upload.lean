import PyVesc.Firmware
import PyVesc.FiniteLoop
import PyVesc.Interface
import PyVesc.Messages

/-!
# Uploading a firmware image

`VESC.update_firmware` and the requests it makes. `exchange n` is what `VESC.write` gives for its
request number `n`. The callback, if there is one, does not raise; the two readings of the clock in
one round are taken as one, `now offset`. What is logged or printed is left out.
-/

namespace PyVesc

/-- What the progress callback is called with. -/
inductive Report where
  | failed (text : String)
  | progress (percent : ℤ)
  deriving DecidableEq, Repr

/-- What an upload has done in the end: the requests it made, in order, its reports, whether it has
got to the jump to the bootloader, and what it returned. -/
structure Upload where
  sent : List Message
  reports : List Report
  jumped : Bool
  result : Py Bool

structure UploadState where
  firmware : Firmware
  offset : ℕ
  lastUpdate : ℚ
  sent : List Message
  reports : List Report

variable (crc : Bytes → UInt16) (canId : Option ℕ) (progressCallback : Bool)
  (exchange : ℕ → Py (Option Response)) (now : ℕ → ℚ)

/-- A request that is encoded, written and answered; the others are not made. -/
def fwRequest (msg : Py Message) (sent : List Message) : List Message × Py (Option Response) :=
  match (do
    let msg ← msg
    let _ ← encode crc msg
    return msg : Py Message) with
  | .error e => (sent, .error e)
  | .ok msg => (sent ++ [msg], exchange sent.length)

def fwEraseNewApp (fwSize : ℕ) (sent : List Message) : List Message × Py (Option Response) :=
  fwRequest crc exchange (Messages.eraseNewApp.call [.int fwSize] canId true) sent

def fwWriteNewAppData (offset : ℕ) (data : Bytes) (sent : List Message) :
    List Message × Py (Option Response) :=
  fwRequest crc exchange (Messages.writeNewAppData.call [.int offset, .bytes data] canId true) sent

/-- An attribute of a response, which `None` does not have. -/
def Response.getattr (response : Option Response) (name : String) : Py PyVal :=
  match response with
  | some (.message msg) => msg.getattr name
  | _ => .error (.attributeError name)

/-- `v == 1`. -/
def isOne : PyVal → Bool
  | .int z => decide (z = 1)
  | .float q => decide (q = 1)
  | .bool b => b
  | .bytes _ => false
  | .str _ => false

/-- Whether the named result of a response is 1. -/
def succeeded (response : Py (Option Response)) (name : String) : Py Bool := do
  let v ← Response.getattr (← response) name
  return isOne v

def hasData (chunk : Bytes) : Bool := chunk.any (· ≠ 0xff)

/-- `progress_callback(text)` and `return False`. -/
def failUpload (text : String) (sent : List Message) (reports : List Report) : Upload :=
  if progressCallback then ⟨sent, reports ++ [.failed text], false, .ok false⟩
  else ⟨sent, reports, false, .error (.typeError "'NoneType' object is not callable")⟩

/-- The end of a round, behind the chunk. -/
def nextChunk (s : UploadState) : Turn UploadState Upload :=
  let offset := s.offset + Firmware.chunkSize
  match s.firmware.getProgress offset with
  | .error e => .done ⟨s.sent, s.reports, false, .error e⟩
  | .ok percent =>
    let due := decide (10 < now offset - s.lastUpdate)
    .next {
      firmware := s.firmware.clearChunk
      offset := offset
      lastUpdate := if due then now offset else s.lastUpdate
      sent := s.sent
      reports := if due && progressCallback then s.reports ++ [.progress ⌊percent⌋] else s.reports }

def uploadTurn (s : UploadState) : Turn UploadState Upload :=
  if 0 < s.firmware.size then
    let (fwChunk, firmware) := s.firmware.getNextChunk
    if hasData fwChunk then
      let (sent, fwResult) := fwWriteNewAppData crc canId exchange s.offset fwChunk s.sent
      match succeeded fwResult "write_new_app_result" with
      | .error e => .done ⟨sent, s.reports, false, .error e⟩
      | .ok false => .done (failUpload progressCallback "Flashing Failed" sent s.reports)
      | .ok true => nextChunk progressCallback now { s with firmware := firmware, sent := sent }
    else nextChunk progressCallback now { s with firmware := firmware }
  else .done ⟨s.sent, s.reports, true, .ok true⟩

theorem nextChunk_next {s t : UploadState} (h : nextChunk progressCallback now s = .next t) :
    t.firmware = s.firmware.clearChunk ∧ t.offset = s.offset + Firmware.chunkSize ∧
      t.sent = s.sent := by
  unfold nextChunk at h
  dsimp only at h
  split at h
  · cases h
  · cases h
    exact ⟨rfl, rfl, rfl⟩

/-- What a round does that does not end the loop: it gets a success for its chunk or finds no data
in it. -/
theorem uploadTurn_next {s t : UploadState}
    (h : uploadTurn crc canId progressCallback exchange now s = .next t) :
    0 < s.firmware.size ∧ t.offset = s.offset + Firmware.chunkSize ∧
      t.firmware.fwBytes = s.firmware.fwBytes.drop Firmware.chunkSize ∧
      t.firmware.size = t.firmware.fwBytes.length ∧
      t.firmware.originalSize = s.firmware.originalSize ∧
      (hasData (s.firmware.fwBytes.take Firmware.chunkSize) = false ∧ t.sent = s.sent ∨
        hasData (s.firmware.fwBytes.take Firmware.chunkSize) = true ∧
        ∃ fwResult, fwWriteNewAppData crc canId exchange s.offset
            (s.firmware.fwBytes.take Firmware.chunkSize) s.sent = (t.sent, fwResult) ∧
          succeeded fwResult "write_new_app_result" = .ok true) := by
  unfold uploadTurn at h
  split_ifs at h with hsize
  · dsimp only [Firmware.getNextChunk] at h
    split_ifs at h with hdata
    · split at h
      · cases h
      · cases h
      · next hsuccess =>
        obtain ⟨hfirmware, hoffset, hsent⟩ := nextChunk_next _ _ h
        rw [hfirmware, hsent]
        exact ⟨hsize, hoffset, rfl, rfl, rfl, Or.inr ⟨hdata, _, rfl, hsuccess⟩⟩
    · obtain ⟨hfirmware, hoffset, hsent⟩ := nextChunk_next _ _ h
      rw [hfirmware, hsent]
      exact ⟨hsize, hoffset, rfl, rfl, rfl, Or.inl ⟨Bool.eq_false_iff.mpr hdata, rfl⟩⟩

/-- The rounds that are left at most. -/
def UploadState.remaining (s : UploadState) : ℕ :=
  if s.firmware.size = 0 then 0 else s.firmware.fwBytes.length + 1

def uploadLoop : FiniteLoop UploadState Upload where
  turn := uploadTurn crc canId progressCallback exchange now
  measure := UploadState.remaining
  decreases s t h := by
    obtain ⟨hpos, _, hbytes, hsize, _⟩ := uploadTurn_next _ _ _ _ _ h
    have hlen := congrArg List.length hbytes
    rw [List.length_drop] at hlen
    unfold UploadState.remaining
    rw [if_neg hpos.ne', hsize]
    split_ifs with hempty
    · omega
    · have hchunk : 0 < Firmware.chunkSize := by decide
      omega

/-- `VESC.update_firmware`. -/
def updateFirmware (firmware : Firmware) : Upload :=
  let (sent, eraseRes) := fwEraseNewApp crc canId exchange firmware.size []
  match succeeded eraseRes "erase_new_app_result" with
  | .error e => ⟨sent, [], false, .error e⟩
  | .ok false => failUpload progressCallback "Erase Failed" sent []
  | .ok true =>
    (uploadLoop crc canId progressCallback exchange now).exec ⟨firmware, 0, now 0, sent, []⟩

end PyVesc
