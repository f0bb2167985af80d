import PyVesc.OwnReplies
import PyVesc.UploadRequests

/-!
# What an upload has confirmed when it jumps to the bootloader

An upload that gets to the jump has had its erase and every chunk with data answered with success.
The offset in these answers is not looked at: they are the answers to the writes they stand for if
the link meets `SerialLink.Fresh`, and if the device confirms a write with the offset of that write.
-/

namespace PyVesc

variable {crc : Bytes → UInt16} {canId : Option ℕ} {progressCallback : Bool}
  {exchange : ℕ → Py (Option Response)} {now : ℕ → ℚ}

def chunkAt (image : Bytes) (i : ℕ) : Bytes :=
  slice image (Firmware.chunkSize * i) (Firmware.chunkSize * i + Firmware.chunkSize)

theorem lt_length_of_hasData {image : Bytes} {i : ℕ} (h : hasData (chunkAt image i) = true) :
    Firmware.chunkSize * i < image.length := by
  by_contra hle
  rw [chunkAt, slice, List.drop_eq_nil_of_le (Nat.le_of_not_lt hle), List.take_nil] at h
  cases h

/-- The offsets of an image with its header have four bytes. -/
theorem offset_lt_of_hasData {image : Bytes} (hlen : image.length ≤ 2 ^ 32 + 128) {i : ℕ}
    (h : hasData (chunkAt image i) = true) : Firmware.chunkSize * i < 2 ^ 32 := by
  have hlt := lt_length_of_hasData h
  rw [Firmware.chunkSize] at hlt ⊢
  omega

/-- Request number `n` was the write of a chunk, and a success was accepted as the answer to it. -/
structure Accepted (canId : Option ℕ) (exchange : ℕ → Py (Option Response)) (sent : List Message)
    (offset : ℕ) (chunk : Bytes) (n : ℕ) : Prop where
  sent : sent[n]? = some (writeRequest canId offset chunk)
  success : succeeded (exchange n) "write_new_app_result" = .ok true

theorem Accepted.append {sent : List Message} {offset : ℕ} {chunk : Bytes} {n : ℕ}
    (h : Accepted canId exchange sent offset chunk n) (more : List Message) :
    Accepted canId exchange (sent ++ more) offset chunk n := by
  refine ⟨?_, h.success⟩
  have hlt : n < sent.length := (List.getElem?_eq_some_iff.mp h.sent).1
  rw [List.getElem?_append_left hlt]
  exact h.sent

/-- The writes of the first `k` chunks of an image, as far as they have data. -/
def writes (canId : Option ℕ) (image : Bytes) (k : ℕ) : List Message :=
  ((List.range k).filter fun i => hasData (chunkAt image i)).map fun i =>
    writeRequest canId (Firmware.chunkSize * i) (chunkAt image i)

theorem writes_succ (canId : Option ℕ) (image : Bytes) (k : ℕ) :
    writes canId image (k + 1) = writes canId image k ++
      if hasData (chunkAt image k) then
        [writeRequest canId (Firmware.chunkSize * k) (chunkAt image k)]
      else [] := by
  rw [writes, List.range_succ, List.filter_append, List.map_append, List.filter_singleton]
  cases hasData (chunkAt image k) <;> rfl

theorem length_writes (canId : Option ℕ) (image : Bytes) (k : ℕ) :
    (writes canId image k).length ≤ k := by
  rw [writes, List.length_map]
  exact (List.length_filter_le _ _).trans_eq List.length_range

/-! ### The loop -/

variable (canId exchange) in
/-- The upload of a firmware stands before its chunk number `k`. -/
structure Reached (firmware : Firmware) (k : ℕ) (s : UploadState) : Prop where
  offset : s.offset = Firmware.chunkSize * k
  fwBytes : s.firmware.fwBytes = firmware.fwBytes.drop (Firmware.chunkSize * k)
  size : k = 0 ∧ s.firmware.size = firmware.size ∨ s.firmware.size = s.firmware.fwBytes.length
  originalSize : s.firmware.originalSize = firmware.originalSize
  sent : s.sent = eraseRequest canId firmware.size :: writes canId firmware.fwBytes k
  accepted : ∀ i < k, hasData (chunkAt firmware.fwBytes i) = true → ∃ n,
    Accepted canId exchange s.sent (Firmware.chunkSize * i) (chunkAt firmware.fwBytes i) n

theorem Reached.chunk {firmware : Firmware} {k : ℕ} {s : UploadState}
    (h : Reached canId exchange firmware k s) :
    s.firmware.fwBytes.take Firmware.chunkSize = chunkAt firmware.fwBytes k := by
  rw [h.fwBytes, chunkAt, slice, Nat.add_sub_cancel_left]

theorem Reached.next {firmware : Firmware} {k : ℕ} {s t : UploadState}
    (h : Reached canId exchange firmware k s)
    (hturn : uploadTurn crc canId progressCallback exchange now s = .next t) :
    Reached canId exchange firmware (k + 1) t := by
  obtain ⟨_, hoffset, hbytes, hsize, horiginal, hsent⟩ := uploadTurn_next _ _ _ _ _ hturn
  rw [h.offset, h.chunk] at hsent
  have hbytes' : t.firmware.fwBytes = firmware.fwBytes.drop (Firmware.chunkSize * (k + 1)) := by
    rw [hbytes, h.fwBytes, List.drop_drop, Nat.mul_succ]
  have hoffset' : t.offset = Firmware.chunkSize * (k + 1) := by
    rw [hoffset, h.offset, Nat.mul_succ]
  obtain ⟨hblank, hsame⟩ | ⟨hdata, fwResult, hwrite, hsuccess⟩ := hsent
  · refine ⟨hoffset', hbytes', Or.inr hsize, horiginal.trans h.originalSize, ?_, ?_⟩
    · rw [hsame, h.sent, writes_succ, hblank, if_neg Bool.false_ne_true, List.append_nil]
    · intro i hi hdata
      rw [hsame]
      obtain hi | rfl := Nat.lt_succ_iff_lt_or_eq.mp hi
      · exact h.accepted i hi hdata
      · rw [hblank] at hdata
        cases hdata
  · obtain ⟨hsent, rfl⟩ := fwWriteNewAppData_ok hwrite hsuccess
    refine ⟨hoffset', hbytes', Or.inr hsize, horiginal.trans h.originalSize, ?_, ?_⟩
    · rw [hsent, h.sent, writes_succ, if_pos hdata, List.cons_append]
    · intro i hi hdata
      rw [hsent]
      obtain hi | rfl := Nat.lt_succ_iff_lt_or_eq.mp hi
      · obtain ⟨n, haccepted⟩ := h.accepted i hi hdata
        exact ⟨n, haccepted.append _⟩
      · exact ⟨s.sent.length, List.getElem?_concat_length, hsuccess⟩

variable (crc canId progressCallback exchange now) in
/-- The state in which the upload of a firmware leaves the loop. -/
theorem exists_reached (firmware : Firmware) : ∃ k t,
    Reached canId exchange firmware k t ∧
      uploadTurn crc canId progressCallback exchange now t =
        .done ((uploadLoop crc canId progressCallback exchange now).exec
          ⟨firmware, 0, now 0, [eraseRequest canId firmware.size], []⟩) := by
  obtain ⟨t, ⟨k, hk⟩, hdone⟩ :=
    (uploadLoop crc canId progressCallback exchange now).exec_invariant
      (fun s => ∃ k, Reached canId exchange firmware k s)
      (fun s s' ⟨k, hk⟩ hturn => ⟨k + 1, hk.next hturn⟩)
      ⟨firmware, 0, now 0, [eraseRequest canId firmware.size], []⟩
      ⟨0, rfl, rfl, Or.inl ⟨rfl, rfl⟩, rfl, rfl, fun i hi => absurd hi (Nat.not_lt_zero i)⟩
  exact ⟨k, t, hk, hdone⟩

theorem uploadTurn_jumped {s : UploadState} {u : Upload}
    (h : uploadTurn crc canId progressCallback exchange now s = .done u) (hj : u.jumped = true) :
    s.firmware.size = 0 ∧ u.sent = s.sent ∧ u.result = .ok true := by
  have hfail : ∀ (text : String) (sent : List Message) (reports : List Report),
      (failUpload progressCallback text sent reports).jumped = false := by
    intro text sent reports
    unfold failUpload
    split_ifs <;> rfl
  have hnext : ∀ v : UploadState, nextChunk progressCallback now v ≠ .done u := by
    intro v hv
    unfold nextChunk at hv
    dsimp only at hv
    split at hv
    · cases hv
      cases hj
    · cases hv
  unfold uploadTurn at h
  split_ifs at h with hsize
  · dsimp only at h
    split_ifs at h
    · split at h
      · cases h
        cases hj
      · cases h
        rw [hfail] at hj
        cases hj
      · exact absurd h (hnext _)
    · exact absurd h (hnext _)
  · cases h
    exact ⟨Nat.eq_zero_of_not_pos hsize, rfl, rfl⟩

/-- An upload that gets to the jump leaves the loop in a state in which nothing is left. -/
theorem updateFirmware_jumped {firmware : Firmware}
    (hj : (updateFirmware crc canId progressCallback exchange now firmware).jumped = true) :
    succeeded (exchange 0) "erase_new_app_result" = .ok true ∧ ∃ k t,
      Reached canId exchange firmware k t ∧ t.firmware.size = 0 ∧
        (updateFirmware crc canId progressCallback exchange now firmware).sent = t.sent ∧
        (updateFirmware crc canId progressCallback exchange now firmware).result = .ok true := by
  cases herase : fwEraseNewApp crc canId exchange firmware.size [] with
  | mk sent eraseRes =>
    unfold updateFirmware at hj ⊢
    simp only [herase] at hj ⊢
    cases hres : succeeded eraseRes "erase_new_app_result" with
    | error e =>
      simp only [hres] at hj
      cases hj
    | ok erased =>
      cases erased with
      | false =>
        simp only [hres, failUpload] at hj
        split_ifs at hj
      | true =>
        simp only [hres] at hj ⊢
        obtain ⟨rfl, rfl⟩ := fwEraseNewApp_ok herase hres
        obtain ⟨k, t, hk, hdone⟩ :=
          exists_reached crc canId progressCallback exchange now firmware
        obtain ⟨hzero, hsent, hresult⟩ := uploadTurn_jumped hdone hj
        exact ⟨hres, k, t, hk, hzero, hsent, hresult⟩

/-- When nothing is left of a firmware that is not empty, all its chunks have been passed. -/
theorem Reached.lt_of_done {firmware : Firmware} {k : ℕ} {t : UploadState}
    (h : Reached canId exchange firmware k t) (hzero : t.firmware.size = 0)
    (hsize : 0 < firmware.size) {i : ℕ}
    (hi : Firmware.chunkSize * i < firmware.fwBytes.length) : i < k := by
  obtain ⟨_, hfirst⟩ | hlen := h.size
  · omega
  · rw [hzero, h.fwBytes, List.length_drop] at hlen
    have hlt : Firmware.chunkSize * i < Firmware.chunkSize * k := by omega
    exact Nat.lt_of_mul_lt_mul_left hlt

/-- An upload to a device that confirms everything gets to the jump. -/
theorem updateFirmware_jumps (hcan : ∀ id, canId = some id → id ≤ 255) {firmware : Firmware}
    (hsize : firmware.size < 2 ^ 32) (hlen : firmware.fwBytes.length ≤ 2 ^ 32 + 128)
    (horiginal : firmware.originalSize ≠ 0)
    (herase : succeeded (exchange 0) "erase_new_app_result" = .ok true)
    (hwrite : ∀ n, Firmware.chunkSize * n < firmware.fwBytes.length →
      succeeded (exchange (n + 1)) "write_new_app_result" = .ok true) :
    (updateFirmware crc canId progressCallback exchange now firmware).jumped = true := by
  unfold updateFirmware
  rw [fwEraseNewApp_eq hcan hsize, List.nil_append]
  simp only [List.length_nil, herase]
  obtain ⟨k, t, hk, hdone⟩ := exists_reached crc canId progressCallback exchange now firmware
  by_cases hzero : 0 < t.firmware.size
  · have hchunk : hasData (t.firmware.fwBytes.take Firmware.chunkSize) = true →
        t.offset < 2 ^ 32 ∧
          succeeded (exchange t.sent.length) "write_new_app_result" = .ok true := by
      intro hdata
      rw [hk.chunk] at hdata
      have hlt := lt_length_of_hasData hdata
      have hcount := length_writes canId firmware.fwBytes k
      rw [hk.offset, hk.sent, List.length_cons]
      exact ⟨offset_lt_of_hasData hlen hdata,
        hwrite _ (lt_of_le_of_lt (Nat.mul_le_mul_left _ hcount) hlt)⟩
    obtain ⟨t', hnext⟩ := exists_uploadTurn_next crc progressCallback now hcan hzero
      (by rwa [hk.originalSize]) hchunk
    rw [hnext] at hdone
    cases hdone
  · rw [uploadTurn, if_neg hzero] at hdone
    rw [← Turn.done.inj hdone]

/-- The header of an empty file is not sent, and the upload gets to the jump. -/
theorem updateFirmware_empty (hcan : ∀ id, canId = some id → id ≤ 255) {lzss : Bool}
    {firmware : Firmware} (hinit : Firmware.init [] lzss = .ok firmware)
    (herase : succeeded (exchange 0) "erase_new_app_result" = .ok true) :
    updateFirmware crc canId progressCallback exchange now firmware =
      ⟨[eraseRequest canId 0], [], true, .ok true⟩ := by
  obtain ⟨_, _, _, hsize, _⟩ := Firmware.init_ok hinit
  rw [List.length_nil] at hsize
  have hturn : (uploadLoop crc canId progressCallback exchange now).turn
      ⟨firmware, 0, now 0, [eraseRequest canId firmware.size], []⟩ =
      .done ⟨[eraseRequest canId firmware.size], [], true, .ok true⟩ := by
    change uploadTurn _ _ _ _ _ _ = _
    rw [uploadTurn, if_neg (by rw [hsize]; exact Nat.lt_irrefl 0)]
  unfold updateFirmware
  rw [fwEraseNewApp_eq hcan (by rw [hsize]; decide), List.nil_append]
  simp only [List.length_nil, herase]
  rw [FiniteLoop.exec_done _ hturn, hsize]

/-! ### On the link -/

/-- The requests of an upload: the erase, then the writes. -/
def uploadSession (reply : ℕ → Bytes) : Session where
  msgId n := if n = 0 then Messages.eraseNewApp.id else Messages.writeNewAppData.id
  maxWait n := if n = 0 then 30 else 5
  reply := reply

/-- What call `n` returned; a call that has not returned gives nothing. -/
def SerialLink.response (s : SerialLink) (n : ℕ) : Py (Option Response) :=
  (s.returned.lookup n).getD (.ok none)

theorem SerialLink.mem_returned {s : SerialLink} {n : ℕ} {response : Response}
    (h : s.response n = .ok (some response)) : (n, .ok (some response)) ∈ s.returned := by
  unfold SerialLink.response at h
  cases hlookup : s.returned.lookup n with
  | none =>
    rw [hlookup] at h
    cases h
  | some result =>
    rw [hlookup] at h
    obtain ⟨earlier, later, heq, _⟩ := List.lookup_eq_some_iff.mp hlookup
    rw [heq, ← h]
    exact List.mem_append_right _ List.mem_cons_self

/-- A reply reports success only for a write at the given offset. -/
def HonestReply (registry : Registry) (offset : ℕ) (reply : Bytes) : Prop :=
  ∀ msg, VESCMessage.unpack registry reply false = .ok msg →
    succeeded (.ok (some (.message msg))) "write_new_app_result" = .ok true →
    msg.getattr "new_app_offset" = .ok (.int offset)

/-- The erase was acknowledged, and for every chunk with data the write of the chunk was sent and
the answer accepted for it reports success at the offset of the chunk. -/
structure Confirmed (canId : Option ℕ) (image : Bytes) (exchange : ℕ → Py (Option Response))
    (sent : List Message) : Prop where
  erased : succeeded (exchange 0) "erase_new_app_result" = .ok true
  written : ∀ i, Firmware.chunkSize * i < image.length → hasData (chunkAt image i) = true →
    ∃ n response, Accepted canId exchange sent (Firmware.chunkSize * i) (chunkAt image i) n ∧
      exchange n = .ok response ∧
      Response.getattr response "new_app_offset" = .ok (.int (Firmware.chunkSize * i : ℕ))

theorem succeeded_message {result : Py (Option Response)} {name : String}
    (h : succeeded result name = .ok true) : ∃ msg, result = .ok (some (.message msg)) := by
  obtain ⟨response, rfl, hresponse⟩ := bind_eq_ok h
  obtain ⟨v, hattr, _⟩ := bind_eq_ok hresponse
  unfold Response.getattr at hattr
  split at hattr
  · exact ⟨_, rfl⟩
  · cases hattr

theorem unpack_of_unpackMatch {registry : Registry} {p : Bytes} {msg : Message}
    (h : unpackMatch registry p = .ok (some (.message msg))) :
    VESCMessage.unpack registry p false = .ok msg := by
  obtain ⟨found, hfound, heq⟩ := bind_eq_ok h
  cases heq
  exact hfound

/-- An upload on a link whose every step is fresh, to a device whose replies are honest, gets to the
jump to the bootloader only when the whole image is confirmed. -/
theorem jump_confirmed (crc : Bytes → UInt16) (registry : Registry) (canId : Option ℕ)
    (progressCallback : Bool) (now : ℕ → ℚ) (reply : ℕ → Bytes) (events : List SerialLink.Event)
    (t : SerialLink)
    (hmeets : Transition.Meets (SerialLink.step crc registry (uploadSession reply))
      (SerialLink.Fresh crc (uploadSession reply)) .initial events)
    (hrun : Transition.run (SerialLink.step crc registry (uploadSession reply)) .initial events =
      some t)
    (file : Bytes) (hfile : file ≠ []) (lzss : Bool) (firmware : Firmware)
    (hinit : Firmware.init file lzss = .ok firmware)
    (hhonest : ∀ n offset data,
      (updateFirmware crc canId progressCallback t.response now firmware).sent[n]? =
        some (writeRequest canId offset data) → HonestReply registry offset (reply n))
    (hjump : (updateFirmware crc canId progressCallback t.response now firmware).jumped = true) :
    Confirmed canId firmware.fwBytes t.response
      (updateFirmware crc canId progressCallback t.response now firmware).sent := by
  have hinv := Transition.run_invariant SerialLink.inv_step events .initial t
    SerialLink.inv_initial hmeets hrun
  obtain ⟨_, _, _, hsize, _⟩ := Firmware.init_ok hinit
  have hpos : 0 < firmware.size := by
    rw [hsize]
    exact List.length_pos_iff.mpr hfile
  obtain ⟨herased, k, u, hk, hzero, hsent, _⟩ := updateFirmware_jumped hjump
  rw [hsent] at hhonest ⊢
  refine ⟨herased, fun i hi hdata => ?_⟩
  obtain ⟨n, haccepted⟩ := hk.accepted i (hk.lt_of_done hzero hpos hi) hdata
  have hsuccess := haccepted.success
  obtain ⟨msg, hmsg⟩ := succeeded_message hsuccess
  obtain ⟨_, hunpack⟩ := hinv.returned n _ (SerialLink.mem_returned hmsg)
  rw [hmsg] at hsuccess
  exact ⟨n, _, haccepted, hmsg,
    hhonest n _ _ haccepted.sent msg (unpack_of_unpackMatch hunpack) hsuccess⟩

/-! ### Two uploads -/

open SerialLink

/-- The image of a file of two bytes. -/
def oneChunk : Firmware := ⟨[0, 0, 0, 2, 233, 112, 7, 7], 2, 2, none, false⟩

/-- An image of two chunks. -/
def twoChunks : Firmware := ⟨[0, 0, 1, 144, 52, 62] ++ List.replicate 400 1, 400, 400, none, false⟩

theorem init_twoChunks : Firmware.init (List.replicate 400 1) false = .ok twoChunks := by
  decide +kernel

theorem length_twoChunks : twoChunks.fwBytes.length = 406 := by
  rw [twoChunks, List.length_append, List.length_replicate]
  rfl

/-- The upload of the two chunks ends with the jump when all three requests are answered so. -/
theorem jumped_twoChunks {crc : Bytes → UInt16} {progressCallback : Bool}
    {exchange : ℕ → Py (Option Response)} {now : ℕ → ℚ}
    (herase : succeeded (exchange 0) "erase_new_app_result" = .ok true)
    (hfirst : succeeded (exchange 1) "write_new_app_result" = .ok true)
    (hsecond : succeeded (exchange 2) "write_new_app_result" = .ok true) :
    (updateFirmware crc none progressCallback exchange now twoChunks).jumped = true := by
  refine updateFirmware_jumps (fun id hid => by cases hid) (by decide)
    (by rw [length_twoChunks]; decide) (by decide) herase fun n hn => ?_
  rw [length_twoChunks, Firmware.chunkSize] at hn
  obtain rfl | rfl : n = 0 ∨ n = 1 := by omega
  · exact hfirst
  · exact hsecond

theorem hasData_twoChunks (i : ℕ) : hasData (chunkAt twoChunks.fwBytes i) = decide (i < 2) := by
  have hfirst : hasData (chunkAt twoChunks.fwBytes 0) = true := by decide +kernel
  have hsecond : hasData (chunkAt twoChunks.fwBytes 1) = true := by decide +kernel
  by_cases hi : i < 2
  · rw [decide_eq_true hi]
    obtain rfl | rfl : i = 0 ∨ i = 1 := by omega
    · exact hfirst
    · exact hsecond
  · rw [decide_eq_false hi]
    by_contra hdata
    have hlt := lt_length_of_hasData (Bool.eq_true_of_not_eq_false hdata)
    rw [length_twoChunks, Firmware.chunkSize] at hlt
    omega

theorem filter_twoChunks (k : ℕ) :
    (List.range k).filter (fun i => hasData (chunkAt twoChunks.fwBytes i)) =
      List.range (min k 2) := by
  induction k with
  | zero => rfl
  | succ k ih =>
    rw [List.range_succ, List.filter_append, ih, List.filter_singleton, hasData_twoChunks]
    by_cases hk : k < 2
    · rw [decide_eq_true hk, cond_true, min_eq_left hk.le, min_eq_left (by omega), List.range_succ]
    · rw [decide_eq_false hk, cond_false, List.append_nil]
      congr 1
      omega

/-- A device that erases, and confirms every write with its offset. -/
def confirming (n : ℕ) : Bytes :=
  if n = 0 then [2, 1] else [3, 1, 0, 0] ++ BigEndian.ofNat 2 (Firmware.chunkSize * (n - 1))

theorem honest_of_attrs {registry : Registry} {offset : ℕ} {reply : Bytes}
    {attrs : List (String × PyVal)}
    (h : (VESCMessage.unpack registry reply false).map Message.attrs = .ok attrs)
    (hoffset : attrs.lookup "new_app_offset" = some (.int offset)) :
    HonestReply registry offset reply := by
  intro msg hunpack _
  rw [hunpack] at h
  have hattrs : msg.attrs = attrs := Except.ok.inj h
  rw [Message.getattr, hattrs, hoffset]

theorem honest_of_sent {n offset : ℕ} {data : Bytes}
    (h : (updateFirmware crc none progressCallback exchange now twoChunks).sent[n]? =
      some (writeRequest none offset data))
    (hjump : (updateFirmware crc none progressCallback exchange now twoChunks).jumped = true) :
    HonestReply Messages.registry offset (confirming n) := by
  have hfirst : (VESCMessage.unpack Messages.registry (confirming 1) false).map Message.attrs =
      .ok [("new_app_offset", .int 0), ("write_new_app_result", .bool true)] := by
    decide +kernel
  have hsecond : (VESCMessage.unpack Messages.registry (confirming 2) false).map Message.attrs =
      .ok [("new_app_offset", .int 384), ("write_new_app_result", .bool true)] := by
    decide +kernel
  obtain ⟨_, k, u, hk, _, heq, _⟩ := updateFirmware_jumped hjump
  rw [heq, hk.sent] at h
  cases n with
  | zero =>
    rw [List.getElem?_cons_zero, Option.some.injEq] at h
    exact absurd h (eraseRequest_ne_writeRequest _ _ _ _)
  | succ i =>
    rw [List.getElem?_cons_succ, writes, filter_twoChunks, List.getElem?_map] at h
    obtain ⟨j, hj, heq⟩ := Option.map_eq_some_iff.mp h
    obtain ⟨hi, rfl⟩ := List.getElem?_eq_some_iff.mp hj
    rw [List.length_range] at hi
    rw [List.getElem_range] at heq
    rw [← offset_of_writeRequest heq]
    obtain rfl | rfl : i = 0 ∨ i = 1 := by omega
    · exact honest_of_attrs hfirst rfl
    · exact honest_of_attrs hsecond rfl

/-- The acknowledgement of the first write is repeated and comes in with that of the second. -/
def lateAck : List SerialLink.Event :=
  [.drain, .send 0, .answer 0, .arrive 7, .poll 0 0, .drain, .send 0, .answer 1, .arrive 11,
    .poll 0 0, .drain, .send 0, .duplicate 1, .answer 2, .arrive 22, .poll 0 0]

/-- Nothing is on its way when a call starts, and the newest reply that it reads in is its own. -/
def freshTest (S : Session) (s : SerialLink) : Event → Bool
  | .drain => s.transit.isEmpty
  | .poll _ _ =>
    match s.stage with
    | .reading n _ _ => decide (NewestOwn S n (s.taken ++ s.waiting))
    | _ => true
  | .expire _ => false
  | _ => true

theorem fresh_of_test (crc : Bytes → UInt16) (S : Session) (s : SerialLink) (e : Event)
    (h : freshTest S s e = true) : Fresh crc S s e := by
  cases e with
  | drain => exact ⟨[], List.isEmpty_iff.mp h⟩
  | poll check now =>
    intro n deadline r hstage _
    rw [freshTest, hstage] at h
    exact of_decide_eq_true h
  | expire check => cases h
  | _ => trivial

theorem jump_confirmed_twoChunks : ∃ t,
    Transition.run (step Crc16.xmodem Messages.registry (uploadSession confirming)) .initial
      lateAck = some t ∧
    (updateFirmware Crc16.xmodem none true t.response (fun _ => 0) twoChunks).jumped = true ∧
    Confirmed none twoChunks.fwBytes t.response
      (updateFirmware Crc16.xmodem none true t.response (fun _ => 0) twoChunks).sent := by
  have hlog : (Transition.run (fun s e => if freshTest (uploadSession confirming) s e then
      step Crc16.xmodem Messages.registry (uploadSession confirming) s e else none) .initial
      lateAck).map (fun t => (succeeded (t.response 0) "erase_new_app_result",
        succeeded (t.response 1) "write_new_app_result",
        succeeded (t.response 2) "write_new_app_result")) =
          some (.ok true, .ok true, .ok true) := by
    decide +kernel
  obtain ⟨t, hguarded, ht⟩ := Option.map_eq_some_iff.mp hlog
  simp only [Prod.mk.injEq] at ht
  obtain ⟨herase, hfirst, hsecond⟩ := ht
  obtain ⟨hmeets, hrun⟩ := Transition.meets_of_guarded
    (fresh_of_test Crc16.xmodem (uploadSession confirming)) lateAck .initial t hguarded
  have hjump : (updateFirmware Crc16.xmodem none true t.response (fun _ => 0) twoChunks).jumped =
      true := jumped_twoChunks herase hfirst hsecond
  exact ⟨t, hrun, hjump, jump_confirmed Crc16.xmodem Messages.registry none true (fun _ => 0)
    confirming lateAck t hmeets hrun (List.replicate 400 1)
    (List.cons_ne_nil 1 (List.replicate 399 1)) false twoChunks init_twoChunks
    (fun n offset data hsent => honest_of_sent hsent hjump) hjump⟩

/-- The acknowledgement of the first write is repeated; the second write is lost. -/
def duplicatedAck : List SerialLink.Event :=
  [.drain, .send 0, .answer 0, .arrive 7, .poll 0 0, .drain, .send 0, .answer 1, .arrive 11,
    .poll 0 0, .duplicate 1, .drain, .send 0, .lose 2, .arrive 11, .poll 0 0]

theorem getattr_eq_ok {msg : Message} {name : String} {v : PyVal} (h : msg.getattr name = .ok v) :
    msg.attrs.lookup name = some v := by
  unfold Message.getattr at h
  split at h
  · next w hw =>
    cases h
    exact hw
  · cases h

/-- Offsets in the responses that a run has returned. -/
def offsets (s : SerialLink) : List (ℕ × Option PyVal) :=
  s.returned.map fun p => (p.1, (fieldsOf p.2).lookup "new_app_offset")

theorem offset_mem_offsets {s : SerialLink} {n : ℕ} {response : Option Response} {v : PyVal}
    (h : s.response n = .ok response) (hv : Response.getattr response "new_app_offset" = .ok v) :
    (n, some v) ∈ offsets s := by
  unfold Response.getattr at hv
  split at hv
  · next msg =>
    refine List.mem_map.mpr ⟨_, SerialLink.mem_returned h, ?_⟩
    rw [← getattr_eq_ok hv]
    rfl
  · cases hv

theorem jump_unconfirmed : ∃ t,
    Transition.run (step Crc16.xmodem Messages.registry (uploadSession confirming)) .initial
      duplicatedAck = some t ∧
    Firmware.init (List.replicate 400 1) false = .ok twoChunks ∧
    (updateFirmware Crc16.xmodem none true t.response (fun _ => 0) twoChunks).jumped = true ∧
    ¬ Confirmed none twoChunks.fwBytes t.response
      (updateFirmware Crc16.xmodem none true t.response (fun _ => 0) twoChunks).sent := by
  have hlog : (Transition.run (step Crc16.xmodem Messages.registry (uploadSession confirming))
      .initial duplicatedAck).map (fun t => (offsets t,
        succeeded (t.response 0) "erase_new_app_result",
        succeeded (t.response 1) "write_new_app_result",
        succeeded (t.response 2) "write_new_app_result")) =
      some ([(0, none), (1, some (.int 0)), (2, some (.int 0))], .ok true, .ok true, .ok true) := by
    decide +kernel
  obtain ⟨t, hrun, ht⟩ := Option.map_eq_some_iff.mp hlog
  simp only [Prod.mk.injEq] at ht
  obtain ⟨hoffsets, herase, hfirst, hsecond⟩ := ht
  refine ⟨t, hrun, init_twoChunks, jumped_twoChunks herase hfirst hsecond, fun hconfirmed => ?_⟩
  obtain ⟨n, response, _, hresponse, hoffset⟩ := hconfirmed.written 1
    (by rw [length_twoChunks]; decide) (by decide +kernel)
  have hmem := offset_mem_offsets hresponse hoffset
  rw [hoffsets] at hmem
  simp [Firmware.chunkSize] at hmem

end PyVesc
