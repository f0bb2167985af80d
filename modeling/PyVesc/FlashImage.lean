import PyVesc.BlockMemory
import PyVesc.UploadSafety

/-!
# The flash after an upload

A device that confirms the erase and every write has the image in its flash in the end, the header
first. The offset and the data of a write can be read in the request (`Message.writePair`) or in its
payload, where the data is filled up with zeros to the width of the field (`Message.packedPair`).
-/

namespace PyVesc

variable {crc : Bytes → UInt16} {canId : Option ℕ} {progressCallback : Bool}
  {exchange : ℕ → Py (Option Response)} {now : ℕ → ℚ}

def Message.writePair (m : Message) : Option (ℕ × Bytes) :=
  if m.cls.id = Messages.writeNewAppData.id then
    match m.attrs.lookup "offset", m.attrs.lookup "data" with
    | some (.int offset), some (.bytes data) => some (offset.toNat, data)
    | _, _ => none
  else none

/-- Behind the id, four bytes of offset, then the data. -/
def Message.packedPair (m : Message) : Option (ℕ × Bytes) :=
  match VESCMessage.pack (m.withCanId none) false true with
  | .ok (id :: fields) =>
    if id.toNat = Messages.writeNewAppData.id then
      some (BigEndian.toNat (fields.take 4), fields.drop 4)
    else none
  | _ => none

/-- The flash after all writes, if it was erased before. -/
def flashed (pair : Message → Option (ℕ × Bytes)) (sent : List Message) : ℕ → UInt8 :=
  BlockMemory.writeAll (fun _ => 0xff) (sent.filterMap pair)

theorem writePair_writeRequest (canId : Option ℕ) (offset : ℕ) (data : Bytes) :
    (writeRequest canId offset data).writePair = some (offset, data) := rfl

theorem packedPair_writeRequest (canId : Option ℕ) {offset : ℕ} (hoffset : offset < 2 ^ 32)
    (data : Bytes) : (writeRequest canId offset data).packedPair =
      some (offset, data.take 384 ++ List.replicate (384 - data.length) 0) := by
  have hpack : VESCMessage.pack ((writeRequest canId offset data).withCanId none) false true = _ :=
    pack_writeRequest hoffset data
  have hfour := BigEndian.length_ofNat 4 offset
  rw [Message.packedPair, hpack]
  simp only
  rw [if_pos (by decide), List.take_left' hfour, List.drop_left' hfour, BigEndian.toNat_ofNat]
  omega

theorem packedPair_eraseRequest (canId : Option ℕ) {size : ℕ} (hsize : size < 2 ^ 32) :
    (eraseRequest canId size).packedPair = none := by
  have hpack : VESCMessage.pack ((eraseRequest canId size).withCanId none) false true = _ :=
    pack_eraseRequest hsize
  rw [Message.packedPair, hpack]
  exact if_neg (by decide)

theorem length_chunkAt_le (image : Bytes) (i : ℕ) :
    (chunkAt image i).length ≤ Firmware.chunkSize := by
  rw [chunkAt, slice, List.length_take, Nat.add_sub_cancel_left]
  exact Nat.min_le_left _ _

theorem blank_of_hasData {chunk : Bytes} (h : hasData chunk = false) : ∀ x ∈ chunk, x = 0xff := by
  intro x hx
  by_contra hne
  rw [hasData, List.any_eq_false] at h
  exact h x hx (decide_eq_true hne)

/-- The writes of the first `k` chunks write the image up to the end of the last of them. -/
theorem tiled_writes (pair : Message → Option (ℕ × Bytes)) (data : ℕ → Bytes) {image : Bytes}
    (hpair : ∀ i, hasData (chunkAt image i) = true →
      pair (writeRequest canId (Firmware.chunkSize * i) (chunkAt image i)) =
        some (Firmware.chunkSize * i, data i))
    (hdata : ∀ i, chunkAt image i <+: data i) (hlen : ∀ i, (data i).length ≤ Firmware.chunkSize)
    (k : ℕ) : BlockMemory.Tiled 0xff image (Firmware.chunkSize * k)
      (flashed pair (writes canId image k)) := by
  induction k with
  | zero => exact BlockMemory.Tiled.zero 0xff image
  | succ k ih =>
    have hchunk : chunkAt image k =
        (image.drop (Firmware.chunkSize * k)).take Firmware.chunkSize := by
      rw [chunkAt, slice, Nat.add_sub_cancel_left]
    rw [flashed, writes_succ, List.filterMap_append, BlockMemory.writeAll_append, Nat.mul_succ]
    by_cases hhas : hasData (chunkAt image k) = true
    · rw [if_pos hhas, List.filterMap_cons_some (hpair k hhas), List.filterMap_nil,
        BlockMemory.writeAll_singleton]
      apply BlockMemory.Tiled.write ih
      · rw [← hchunk]
        exact hdata k
      · exact hlen k
    · rw [if_neg hhas]
      apply BlockMemory.Tiled.skip ih
      rw [← hchunk]
      exact blank_of_hasData (Bool.eq_false_iff.mpr hhas)

theorem flashed_writes_eq_image (pair : Message → Option (ℕ × Bytes)) (data : ℕ → Bytes)
    {image : Bytes} {k : ℕ} (hpair : ∀ i, hasData (chunkAt image i) = true →
      pair (writeRequest canId (Firmware.chunkSize * i) (chunkAt image i)) =
        some (Firmware.chunkSize * i, data i))
    (hdata : ∀ i, chunkAt image i <+: data i) (hlen : ∀ i, (data i).length ≤ Firmware.chunkSize)
    (hk : image.length ≤ Firmware.chunkSize * k) {erase : Message} (herase : pair erase = none) :
    (List.range image.length).map (flashed pair (erase :: writes canId image k)) = image := by
  have hskip : flashed pair (erase :: writes canId image k) =
      flashed pair (writes canId image k) := by
    rw [flashed, flashed, List.filterMap_cons_none herase]
  rw [hskip]
  exact (tiled_writes pair data hpair hdata hlen k).eq_image hk

/-- What an upload of a file to a device that confirms everything has done in the end. -/
theorem updateFirmware_confirmed (hcan : ∀ id, canId = some id → id ≤ 255) {file : Bytes}
    (hfile : file ≠ []) {lzss : Bool} {firmware : Firmware}
    (hinit : Firmware.init file lzss = .ok firmware)
    (herase : succeeded (exchange 0) "erase_new_app_result" = .ok true)
    (hwrite : ∀ n, succeeded (exchange (n + 1)) "write_new_app_result" = .ok true) :
    (updateFirmware crc canId progressCallback exchange now firmware).result = .ok true ∧
      ∃ k, firmware.fwBytes.length ≤ Firmware.chunkSize * k ∧
        (updateFirmware crc canId progressCallback exchange now firmware).sent =
          eraseRequest canId file.length :: writes canId firmware.fwBytes k := by
  obtain ⟨hlen, rfl⟩ := Firmware.eq_of_init hinit
  have hpos : 0 < file.length := List.length_pos_iff.mpr hfile
  have hlength := Firmware.length_image file lzss
  have hjump : (updateFirmware crc canId progressCallback exchange now
      ⟨Firmware.header file lzss ++ file, file.length, file.length, none, lzss⟩).jumped = true := by
    apply updateFirmware_jumps hcan _ _ hpos.ne' herase fun n _ => hwrite n
    · change file.length < 2 ^ 32
      omega
    · change (Firmware.header file lzss ++ file).length ≤ _
      omega
  obtain ⟨_, k, t, hk, hzero, hsent, hresult⟩ := updateFirmware_jumped hjump
  refine ⟨hresult, k, ?_, hsent.trans hk.sent⟩
  by_contra hlt
  exact lt_irrefl k (hk.lt_of_done hzero hpos (Nat.lt_of_not_le hlt))

/-- The flash that an upload leaves holds the header and the file, whether the data of the writes is
taken as it was given or as it was packed. -/
theorem flash_holds_image (crc : Bytes → UInt16) (canId : Option ℕ)
    (hcan : ∀ id, canId = some id → id ≤ 255) (progressCallback : Bool)
    (exchange : ℕ → Py (Option Response)) (now : ℕ → ℚ) (file : Bytes) (hfile : file ≠ [])
    (lzss : Bool) (firmware : Firmware) (hinit : Firmware.init file lzss = .ok firmware)
    (herase : succeeded (exchange 0) "erase_new_app_result" = .ok true)
    (hwrite : ∀ n, succeeded (exchange (n + 1)) "write_new_app_result" = .ok true) :
    (updateFirmware crc canId progressCallback exchange now firmware).result = .ok true ∧
    (∃ k, file.length + 6 ≤ Firmware.chunkSize * k ∧
      (updateFirmware crc canId progressCallback exchange now firmware).sent =
        eraseRequest canId file.length ::
          writes canId (Firmware.header file lzss ++ file) k) ∧
    ∀ pair ∈ [Message.writePair, Message.packedPair],
      (List.range (file.length + 6)).map (flashed pair
        (updateFirmware crc canId progressCallback exchange now firmware).sent) =
          Firmware.header file lzss ++ file := by
  obtain ⟨hresult, k, hk, hsent⟩ := updateFirmware_confirmed hcan hfile hinit herase
    hwrite
  obtain ⟨hlen, rfl⟩ := Firmware.eq_of_init hinit
  have hlength := Firmware.length_image file lzss
  dsimp only at hk hsent
  rw [← hlength, hsent]
  refine ⟨hresult, ⟨k, hk, rfl⟩, fun pair hpair => ?_⟩
  simp only [List.mem_cons, List.not_mem_nil, or_false] at hpair
  rcases hpair with rfl | rfl
  · apply flashed_writes_eq_image Message.writePair _ _ (fun _ => List.prefix_refl _)
      (length_chunkAt_le _) hk rfl
    intro i _
    exact writePair_writeRequest canId _ _
  · apply flashed_writes_eq_image Message.packedPair
      (fun i => (chunkAt _ i).take 384 ++ List.replicate (384 - (chunkAt _ i).length) 0)
    · intro i hi
      exact packedPair_writeRequest canId (offset_lt_of_hasData (hlength.le.trans (by omega)) hi) _
    · intro i
      have hfull : (chunkAt (Firmware.header file lzss ++ file) i).take 384 = _ :=
        List.take_of_length_le (length_chunkAt_le _ i)
      rw [hfull]
      exact List.prefix_append _ _
    · intro i
      rw [List.length_append, List.length_take, List.length_replicate, Firmware.chunkSize]
      omega
    · exact hk
    · exact packedPair_eraseRequest canId (by omega)

/-- A device that confirms everything. -/
def confirmingAll (n : ℕ) : Py (Option Response) :=
  .ok (some (.message (if n = 0 then
    ⟨Messages.eraseNewApp, none, [("erase_new_app_result", .int 1)]⟩
  else ⟨Messages.writeNewAppData, none,
    [("new_app_offset", .int (Firmware.chunkSize * (n - 1))),
      ("write_new_app_result", .bool true)]⟩)))

theorem flash_holds_image_twoChunks :
    (List.range 406).map (flashed Message.packedPair
      (updateFirmware Crc16.xmodem (some 7) false confirmingAll (fun _ => 0) twoChunks).sent) =
        Firmware.header (List.replicate 400 1) false ++ List.replicate 400 1 := by
  have hcan : ∀ id, some 7 = some id → id ≤ 255 := by
    intro id hid
    cases hid
    decide
  have himage := (flash_holds_image Crc16.xmodem (some 7) hcan false confirmingAll (fun _ => 0)
    (List.replicate 400 1) (List.cons_ne_nil 1 (List.replicate 399 1)) false twoChunks
    init_twoChunks rfl (fun _ => rfl)).2.2
  rw [List.length_replicate] at himage
  exact himage _ (by simp)

end PyVesc
