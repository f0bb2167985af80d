import PyVesc.CanForwarding
import PyVesc.FixedMessages
import PyVesc.Upload

/-!
# The requests of an upload

A request can be encoded as long as the size or the offset in it has four bytes. Then it is made,
and a round goes on when its chunk is confirmed or has no data.
-/

namespace PyVesc

open StructFormat VESCMessage

def eraseRequest (canId : Option ℕ) (size : ℕ) : Message :=
  ⟨Messages.eraseNewApp, canId, [("data", .int size)]⟩

def writeRequest (canId : Option ℕ) (offset : ℕ) (data : Bytes) : Message :=
  ⟨Messages.writeNewAppData, canId, [("data", .bytes data), ("offset", .int offset)]⟩

theorem eraseRequest_ne_writeRequest (canId : Option ℕ) (size offset : ℕ) (data : Bytes) :
    eraseRequest canId size ≠ writeRequest canId offset data := by
  intro heq
  have hattrs := congrArg Message.attrs heq
  cases hattrs

theorem offset_of_writeRequest {canId : Option ℕ} {offset offset' : ℕ} {data data' : Bytes}
    (heq : writeRequest canId offset data = writeRequest canId offset' data') :
    offset = offset' := by
  have hattrs := congrArg Message.attrs heq
  simp only [writeRequest, List.cons.injEq, Prod.mk.injEq, PyVal.int.injEq] at hattrs
  omega

theorem pack_I {n : ℕ} (hn : n < 2 ^ 32) : IntFormat.pack .I n = some (BigEndian.ofNat 4 n) := by
  have hlt : n < 256 ^ IntFormat.size .I := by
    norm_num [IntFormat.size]
    omega
  exact IntFormat.pack_unsigned rfl hlt

theorem pack_eraseRequest {size : ℕ} (hsize : size < 2 ^ 32) :
    VESCMessage.pack (eraseRequest none size) false true = .ok (2 :: BigEndian.ofNat 4 size) := by
  have hid : Format.pack (.int .B) (.int (eraseRequest none size).cls.id) = some [2] :=
    IntFormat.pack_B (n := 2) (by decide)
  have hI : Format.pack (.int .I) (.int size) = _ := pack_I hsize
  rw [pack_fixed [.int .I] [.int size] rfl rfl rfl rfl, structPack, idFmt,
    List.singleton_append, StructFormat.pack, StructFormat.pack, hid, hI]
  simp [StructFormat.pack]

theorem pack_writeRequest {offset : ℕ} (hoffset : offset < 2 ^ 32) (data : Bytes) :
    VESCMessage.pack (writeRequest none offset data) false true =
      .ok (3 :: (BigEndian.ofNat 4 offset ++
        (data.take 384 ++ List.replicate (384 - data.length) 0))) := by
  have hid : Format.pack (.int .B) (.int (writeRequest none offset data).cls.id) = some [3] :=
    IntFormat.pack_B (n := 3) (by decide)
  have hI : Format.pack (.int .I) (.int offset) = _ := pack_I hoffset
  have hdata : ∀ n, Format.pack (.bytes n) (.bytes data) =
      some (data.take n ++ List.replicate (n - data.length) 0) := fun n => rfl
  rw [pack_fixed [.int .I, .bytes 384] [.int offset, .bytes data] rfl rfl rfl rfl,
    structPack, idFmt, List.singleton_append, StructFormat.pack, StructFormat.pack,
    StructFormat.pack, hid, hI, hdata]
  simp [StructFormat.pack]

theorem encode_ok (crc : Bytes → UInt16) {m : Message} (hcan : ∀ id, m.canId = some id → id ≤ 255)
    (hs : (packTable m.cls true).stringField = none) {b : UInt8} {bs : Bytes}
    (hpack : VESCMessage.pack (m.withCanId none) false true = .ok (b :: bs))
    (hlen : bs.length < 65533) : ∃ bytes, encode crc m = .ok bytes := by
  have hpacked : ∃ p, VESCMessage.pack m false true = .ok p ∧ Framable p := by
    cases hc : m.canId with
    | none =>
      have hsame : m.withCanId none = m := by rw [Message.withCanId, ← hc]
      rw [hsame] at hpack
      refine ⟨_, hpack, List.cons_ne_nil _ _, ?_⟩
      rw [List.length_cons]
      omega
    | some id =>
      have hsame : m.withCanId (some id) = m := by rw [Message.withCanId, ← hc]
      have hforward := pack_forwarded m true (hcan id hc) hs hpack
      rw [hsame] at hforward
      refine ⟨_, hforward, List.cons_ne_nil _ _, ?_⟩
      simp only [List.length_cons]
      omega
  obtain ⟨p, hp, hframable⟩ := hpacked
  refine ⟨frameBytes crc p, ?_⟩
  rw [encode, hp]
  exact frame_eq crc hframable

variable {crc : Bytes → UInt16} {canId : Option ℕ} {progressCallback : Bool}
  {exchange : ℕ → Py (Option Response)} {now : ℕ → ℚ}

theorem fwRequest_ok {msg : Py Message} {sent sent' : List Message} {result : Py (Option Response)}
    (h : fwRequest crc exchange msg sent = (sent', result)) {name : String}
    (hok : succeeded result name = .ok true) :
    ∃ request, msg = .ok request ∧ sent' = sent ++ [request] ∧ result = exchange sent.length := by
  unfold fwRequest at h
  split at h
  · cases h
    cases hok
  · next request hencode =>
    cases h
    obtain ⟨m, rfl, hm⟩ := bind_eq_ok hencode
    obtain ⟨bytes, _, hreturn⟩ := bind_eq_ok hm
    cases hreturn
    exact ⟨request, rfl, rfl, rfl⟩

theorem fwEraseNewApp_ok {size : ℕ} {sent sent' : List Message} {result : Py (Option Response)}
    (h : fwEraseNewApp crc canId exchange size sent = (sent', result)) {name : String}
    (hok : succeeded result name = .ok true) :
    sent' = sent ++ [eraseRequest canId size] ∧ result = exchange sent.length := by
  obtain ⟨request, hrequest, hsent, hresult⟩ := fwRequest_ok h hok
  cases hrequest
  exact ⟨hsent, hresult⟩

theorem fwWriteNewAppData_ok {offset : ℕ} {data : Bytes} {sent sent' : List Message}
    {result : Py (Option Response)}
    (h : fwWriteNewAppData crc canId exchange offset data sent = (sent', result)) {name : String}
    (hok : succeeded result name = .ok true) :
    sent' = sent ++ [writeRequest canId offset data] ∧ result = exchange sent.length := by
  obtain ⟨request, hrequest, hsent, hresult⟩ := fwRequest_ok h hok
  cases hrequest
  exact ⟨hsent, hresult⟩

theorem fwRequest_encoded {m : Message} {bytes : Bytes} (h : encode crc m = .ok bytes)
    (sent : List Message) : fwRequest crc exchange (.ok m) sent =
      (sent ++ [m], exchange sent.length) := by
  simp only [fwRequest, h, bind, Except.bind]
  rfl

theorem fwEraseNewApp_eq (hcan : ∀ id, canId = some id → id ≤ 255) {size : ℕ}
    (hsize : size < 2 ^ 32) (sent : List Message) :
    fwEraseNewApp crc canId exchange size sent =
      (sent ++ [eraseRequest canId size], exchange sent.length) := by
  obtain ⟨bytes, hbytes⟩ := encode_ok crc (m := eraseRequest canId size) hcan rfl
    (pack_eraseRequest hsize) (by rw [BigEndian.length_ofNat]; decide)
  exact fwRequest_encoded hbytes sent

theorem fwWriteNewAppData_eq (hcan : ∀ id, canId = some id → id ≤ 255) {offset : ℕ}
    (hoffset : offset < 2 ^ 32) (data : Bytes) (sent : List Message) :
    fwWriteNewAppData crc canId exchange offset data sent =
      (sent ++ [writeRequest canId offset data], exchange sent.length) := by
  obtain ⟨bytes, hbytes⟩ := encode_ok crc (m := writeRequest canId offset data) hcan rfl
    (pack_writeRequest hoffset data) (by
      simp only [List.length_append, BigEndian.length_ofNat, List.length_take,
        List.length_replicate]
      omega)
  exact fwRequest_encoded hbytes sent

variable (crc progressCallback now) in
theorem exists_uploadTurn_next (hcan : ∀ id, canId = some id → id ≤ 255) {s : UploadState}
    (hsize : 0 < s.firmware.size) (horiginal : s.firmware.originalSize ≠ 0)
    (hchunk : hasData (s.firmware.fwBytes.take Firmware.chunkSize) = true →
      s.offset < 2 ^ 32 ∧ succeeded (exchange s.sent.length) "write_new_app_result" = .ok true) :
    ∃ t, uploadTurn crc canId progressCallback exchange now s = .next t := by
  have hnext : ∀ v : UploadState, v.firmware.originalSize ≠ 0 →
      ∃ t, nextChunk progressCallback now v = .next t := by
    intro v hv
    have hprogress : v.firmware.getProgress (v.offset + Firmware.chunkSize) =
        .ok (100 * (((v.offset + Firmware.chunkSize : ℕ) : ℚ) / v.firmware.originalSize)) :=
      if_neg hv
    simp only [nextChunk, hprogress]
    exact ⟨_, rfl⟩
  rw [uploadTurn, if_pos hsize]
  dsimp only [Firmware.getNextChunk]
  by_cases hdata : hasData (s.firmware.fwBytes.take Firmware.chunkSize) = true
  · obtain ⟨hoffset, hsuccess⟩ := hchunk hdata
    rw [if_pos hdata, fwWriteNewAppData_eq hcan hoffset]
    simp only [hsuccess]
    exact hnext _ horiginal
  · rw [if_neg hdata]
    exact hnext _ horiginal

end PyVesc
