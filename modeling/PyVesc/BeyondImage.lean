import PyVesc.FlashImage

/-!
# The flash behind the image

The last chunk of an image is as long as the image leaves it: in `get_next_chunk` the padding with
`0xff` stands behind the `return`. The field of the request fills it up with zeros, which the device
writes behind the image. The flash there is left alone just if no bytes are missing in the last
chunk, or if it is blank and not sent.
-/

namespace PyVesc

variable {canId : Option ℕ} {image : Bytes}

/-- The data of a chunk as it is packed. -/
def packedChunk (image : Bytes) (i : ℕ) : Bytes :=
  (chunkAt image i).take 384 ++ List.replicate (384 - (chunkAt image i).length) 0

theorem length_packedChunk (image : Bytes) (i : ℕ) :
    (packedChunk image i).length = Firmware.chunkSize := by
  have hlen := length_chunkAt_le image i
  rw [Firmware.chunkSize] at hlen
  rw [packedChunk, List.length_append, List.length_take, List.length_replicate, Firmware.chunkSize]
  omega

theorem getElem?_packedChunk {i j : ℕ} (hshort : (chunkAt image i).length ≤ j) (hj : j < 384) :
    (packedChunk image i)[j]? = some 0 := by
  have hfull : (chunkAt image i).take 384 = chunkAt image i :=
    List.take_of_length_le (length_chunkAt_le image i)
  rw [packedChunk, hfull, List.getElem?_append_right hshort, List.getElem?_replicate,
    if_pos (by omega)]

/-- What the first `k` chunks leave in the flash at an address. -/
theorem flashed_writes (hlen : image.length ≤ 2 ^ 32 + 128) (k a : ℕ) :
    flashed Message.packedPair (writes canId image k) a =
      if a / Firmware.chunkSize < k ∧ hasData (chunkAt image (a / Firmware.chunkSize)) = true then
        ((packedChunk image (a / Firmware.chunkSize))[a % Firmware.chunkSize]?).getD 0xff
      else 0xff := by
  have hpos : 0 < Firmware.chunkSize := by decide
  induction k with
  | zero =>
      rw [if_neg (fun h => Nat.not_lt_zero _ h.1)]
      rfl
  | succ k ih =>
      rw [flashed, writes_succ, List.filterMap_append, BlockMemory.writeAll_append]
      change BlockMemory.writeAll (flashed Message.packedPair (writes canId image k)) _ a = _
      by_cases hdata : hasData (chunkAt image k) = true
      · have hoffset := offset_lt_of_hasData hlen hdata
        rw [if_pos hdata, List.filterMap_cons_some (packedPair_writeRequest canId hoffset _),
          List.filterMap_nil, BlockMemory.writeAll_singleton]
        change BlockMemory.write _ _ (packedChunk image k) a = _
        rw [BlockMemory.write_block _ hpos k (length_packedChunk image k).le, ih]
        by_cases hk : a / Firmware.chunkSize = k
        · rw [if_pos hk, if_neg (fun h => (hk ▸ h.1).ne rfl), hk,
            if_pos ⟨Nat.lt_succ_self k, hdata⟩]
        · rw [if_neg hk]
          apply if_congr _ rfl rfl
          rw [Nat.lt_succ_iff_lt_or_eq, or_iff_left hk]
      · rw [if_neg hdata, List.filterMap_nil]
        change flashed _ _ a = _
        rw [ih]
        apply if_congr _ rfl rfl
        apply and_congr_left
        intro hdata'
        have hk : a / Firmware.chunkSize ≠ k := fun hk => hdata (hk ▸ hdata')
        rw [Nat.lt_succ_iff_lt_or_eq, or_iff_left hk]

/-- The chunk in which the image ends is what is left of it behind the whole chunks. -/
theorem chunkAt_last (image : Bytes) :
    chunkAt image (image.length / Firmware.chunkSize) =
      image.drop (Firmware.chunkSize * (image.length / Firmware.chunkSize)) := by
  have hsplit := Nat.div_add_mod image.length Firmware.chunkSize
  have hmod := Nat.mod_lt image.length (show 0 < Firmware.chunkSize by decide)
  rw [chunkAt, slice, Nat.add_sub_cancel_left, List.take_of_length_le]
  rw [List.length_drop]
  omega

/-- A chunk with data that misses bytes puts a zero behind the image. -/
theorem flashed_writes_end (hlen : image.length ≤ 2 ^ 32 + 128) {k : ℕ}
    (hk : image.length ≤ Firmware.chunkSize * k) (hcut : ¬ Firmware.chunkSize ∣ image.length)
    (hdata : hasData (chunkAt image (image.length / Firmware.chunkSize)) = true) :
    flashed Message.packedPair (writes canId image k) image.length = 0 := by
  have hsplit := Nat.div_add_mod image.length Firmware.chunkSize
  have hmod : image.length % Firmware.chunkSize ≠ 0 :=
    fun hzero => hcut (Nat.dvd_of_mod_eq_zero hzero)
  have hlt : image.length / Firmware.chunkSize < k := by
    apply Nat.lt_of_mul_lt_mul_left (a := Firmware.chunkSize)
    omega
  have hshort : (chunkAt image (image.length / Firmware.chunkSize)).length ≤
      image.length % Firmware.chunkSize := by
    rw [chunkAt_last, List.length_drop]
    omega
  rw [flashed_writes hlen, if_pos ⟨hlt, hdata⟩,
    getElem?_packedChunk hshort (Nat.mod_lt _ (by decide))]
  rfl

/-- Only the chunk in which the image ends can reach behind it. -/
theorem flashed_writes_blank (hlen : image.length ≤ 2 ^ 32 + 128) (k : ℕ) {a : ℕ}
    (ha : image.length ≤ a)
    (hlast : Firmware.chunkSize ∣ image.length ∨
      hasData (chunkAt image (image.length / Firmware.chunkSize)) = false) :
    flashed Message.packedPair (writes canId image k) a = 0xff := by
  have hpos : 0 < Firmware.chunkSize := by decide
  rw [flashed_writes hlen]
  apply if_neg
  rintro ⟨_, hdata⟩
  have hstart := lt_length_of_hasData hdata
  have hsplit := Nat.div_add_mod a Firmware.chunkSize
  have hmod := Nat.mod_lt a hpos
  have hsame : a / Firmware.chunkSize = image.length / Firmware.chunkSize := by
    apply le_antisymm
    · rw [Nat.le_div_iff_mul_le hpos, Nat.mul_comm]
      exact hstart.le
    · exact Nat.div_le_div_right ha
  rw [hsame] at hstart hdata
  obtain hdvd | hblank := hlast
  · rw [Nat.mul_div_cancel' hdvd] at hstart
    exact lt_irrefl _ hstart
  · rw [hblank] at hdata
    cases hdata

/-- The bytes behind the image stay as they were if the last chunk is whole or blank. -/
theorem flashed_writes_beyond (hlen : image.length ≤ 2 ^ 32 + 128) {k : ℕ}
    (hk : image.length ≤ Firmware.chunkSize * k) :
    (∀ a, image.length ≤ a → flashed Message.packedPair (writes canId image k) a = 0xff) ↔
      Firmware.chunkSize ∣ image.length ∨
        ∀ x ∈ image.drop (Firmware.chunkSize * (image.length / Firmware.chunkSize)), x = 0xff := by
  rw [← chunkAt_last]
  constructor
  · intro h
    by_cases hwhole : Firmware.chunkSize ∣ image.length
    · exact Or.inl hwhole
    · refine Or.inr (blank_of_hasData ?_)
      by_contra hdata
      have hat := h image.length le_rfl
      rw [flashed_writes_end hlen hk hwhole (Bool.eq_true_of_not_eq_false hdata)] at hat
      cases hat
  · intro h a ha
    apply flashed_writes_blank hlen k ha
    apply h.imp_right
    intro hblank
    by_contra hdata
    obtain ⟨x, hx, hne⟩ := List.any_eq_true.mp (Bool.eq_true_of_not_eq_false hdata)
    exact of_decide_eq_true hne (hblank x hx)

/-- An upload to a device that confirms everything leaves what is behind the image as it was just if
the header and the file fill their last chunk, or if nothing in the last chunk has to be sent. -/
theorem untouched_beyond_iff (crc : Bytes → UInt16) (canId : Option ℕ)
    (hcan : ∀ id, canId = some id → id ≤ 255) (progressCallback : Bool)
    (exchange : ℕ → Py (Option Response)) (now : ℕ → ℚ) (file : Bytes) (hfile : file ≠ [])
    (lzss : Bool) (firmware : Firmware) (hinit : Firmware.init file lzss = .ok firmware)
    (herase : succeeded (exchange 0) "erase_new_app_result" = .ok true)
    (hwrite : ∀ n, succeeded (exchange (n + 1)) "write_new_app_result" = .ok true) :
    (∀ a, file.length + 6 ≤ a → flashed Message.packedPair
        (updateFirmware crc canId progressCallback exchange now firmware).sent a = 0xff) ↔
      Firmware.chunkSize ∣ file.length + 6 ∨
        ∀ x ∈ (Firmware.header file lzss ++ file).drop
          (Firmware.chunkSize * ((file.length + 6) / Firmware.chunkSize)), x = 0xff := by
  obtain ⟨_, k, hk, hsent⟩ := @updateFirmware_confirmed crc canId progressCallback exchange now hcan
    file hfile lzss firmware hinit herase hwrite
  obtain ⟨hlen, rfl⟩ := Firmware.eq_of_init hinit
  have hlength := Firmware.length_image file lzss
  dsimp only at hk hsent
  have hskip : flashed Message.packedPair (eraseRequest canId file.length ::
      writes canId (Firmware.header file lzss ++ file) k) =
      flashed Message.packedPair (writes canId (Firmware.header file lzss ++ file) k) := by
    rw [flashed, flashed, List.filterMap_cons_none (packedPair_eraseRequest canId (by omega))]
  rw [hsent, hskip, ← hlength]
  exact flashed_writes_beyond (by omega) hk

/-- A file that fills one chunk with its header. -/
theorem untouched_beyond_wholeChunk : ∃ firmware,
    Firmware.init (List.replicate 378 1) false = .ok firmware ∧
      ∀ a, 384 ≤ a → flashed Message.packedPair
        (updateFirmware Crc16.xmodem none false confirmingAll (fun _ => 0) firmware).sent a =
          0xff := by
  have hlen : (List.replicate 378 (1 : UInt8)).length = 378 := List.length_replicate
  have hsize : (List.replicate 378 (1 : UInt8)).length < 256 ^ 4 := by
    rw [hlen]
    decide
  have hwhole : Firmware.chunkSize ∣ (List.replicate 378 (1 : UInt8)).length + 6 := by
    rw [hlen]
    exact dvd_refl 384
  have hinit := (Firmware.init_eq (List.replicate 378 1) false).trans (if_pos hsize)
  refine ⟨_, hinit, fun a ha => ?_⟩
  apply (untouched_beyond_iff Crc16.xmodem none (fun id hid => by cases hid) false confirmingAll
    (fun _ => 0) (List.replicate 378 1) (List.cons_ne_nil 1 (List.replicate 377 1)) false _ hinit
    rfl (fun _ => rfl)).mpr (Or.inl hwhole)
  rw [hlen]
  exact ha

/-- A file of two bytes: the byte behind it is zero afterwards. -/
theorem untouched_beyond_fails :
    Firmware.init [7, 7] false = .ok oneChunk ∧
      flashed Message.packedPair
        (updateFirmware Crc16.xmodem none false confirmingAll (fun _ => 0) oneChunk).sent 8 = 0 ∧
      ¬ ∀ a, [7, 7].length + 6 ≤ a → flashed Message.packedPair
        (updateFirmware Crc16.xmodem none false confirmingAll (fun _ => 0) oneChunk).sent a =
          0xff := by
  have hinit : Firmware.init [7, 7] false = .ok oneChunk := by decide +kernel
  obtain ⟨_, k, hk, hsent⟩ := @updateFirmware_confirmed Crc16.xmodem none false confirmingAll
    (fun _ => 0) (fun id hid => by cases hid) [7, 7] (List.cons_ne_nil 7 [7]) false oneChunk hinit
    rfl (fun _ => rfl)
  have hpos : 8 / Firmware.chunkSize < k := by
    change 8 ≤ 384 * k at hk
    change 0 < k
    omega
  have hzero : flashed Message.packedPair
      (updateFirmware Crc16.xmodem none false confirmingAll (fun _ => 0) oneChunk).sent 8 = 0 := by
    rw [hsent, flashed, List.filterMap_cons_none (packedPair_eraseRequest none (by decide))]
    change flashed Message.packedPair (writes none oneChunk.fwBytes k) 8 = 0
    rw [flashed_writes (by decide), if_pos ⟨hpos, by decide⟩,
      getElem?_packedChunk (by decide) (by decide)]
    rfl
  refine ⟨hinit, hzero, fun h => ?_⟩
  have h := h 8 (by decide)
  rw [hzero] at h
  exact absurd h (by decide)

end PyVesc
