import PyVesc.UploadSafety

/-!
# How an upload reports a failure

What `update_firmware` does with the first request that is not answered with success. A reply is
reported through the progress callback, if there is one to call; without a reply there is no result
to read. The header of an empty file is not sent at all.
-/

namespace PyVesc

/-- The result that is read in the reply to request number `n`, the erase or a write. -/
def resultName (n : ℕ) : String :=
  if n = 0 then "erase_new_app_result" else "write_new_app_result"

/-- What a request may come to: no reply, or a reply with a result in it. -/
def Outcome (exchange : ℕ → Py (Option Response)) (n : ℕ) : Prop :=
  exchange n = .ok none ∨
    ∃ msg v, exchange n = .ok (some (.message msg)) ∧ msg.getattr (resultName n) = .ok v

def Succeeds (exchange : ℕ → Py (Option Response)) (n : ℕ) : Prop :=
  succeeded (exchange n) (resultName n) = .ok true

/-- The erase and the writes of all chunks with data were answered with success. -/
structure Answered (canId : Option ℕ) (image : Bytes) (exchange : ℕ → Py (Option Response))
    (sent : List Message) : Prop where
  erased : Succeeds exchange 0
  written : ∀ i, hasData (chunkAt image i) = true →
    ∃ n, Accepted canId exchange sent (Firmware.chunkSize * i) (chunkAt image i) n

/-- The upload returns true if everything was answered with success. Otherwise it returns false and
does not get to the jump. -/
structure Reported (canId : Option ℕ) (image : Bytes) (exchange : ℕ → Py (Option Response))
    (u : Upload) : Prop where
  success : u.result = .ok true ↔ Answered canId image exchange u.sent
  failure : ¬ Answered canId image exchange u.sent → u.result = .ok false ∧ u.jumped = false

/-- The number of writes that an image takes. -/
def writeCount (image : Bytes) : ℕ :=
  (List.range image.length).countP fun i => hasData (chunkAt image i)

/-- The first request that is not answered with success, and what has become of the upload. -/
structure FailedAt (canId : Option ℕ) (progressCallback : Bool) (image : Bytes)
    (exchange : ℕ → Py (Option Response)) (n : ℕ) (u : Upload) : Prop where
  before : ∀ j < n, Succeeds exchange j
  fails : ¬ Succeeds exchange n
  unanswered : ¬ Answered canId image exchange u.sent
  not_jumped : u.jumped = false
  not_true : u.result ≠ .ok true
  reported_iff : u.result = .ok false ↔ exchange n ≠ .ok none ∧ progressCallback = true

variable {crc : Bytes → UInt16} {canId : Option ℕ} {progressCallback : Bool}
  {exchange : ℕ → Py (Option Response)} {now : ℕ → ℚ}

theorem length_writes_eq (canId : Option ℕ) (image : Bytes) (k : ℕ) :
    (writes canId image k).length =
      (List.range k).countP fun i => hasData (chunkAt image i) := by
  rw [writes, List.length_map, List.countP_eq_length_filter]

theorem countP_range_le {p : ℕ → Bool} {m n : ℕ} (h : m ≤ n) :
    (List.range m).countP p ≤ (List.range n).countP p :=
  List.Sublist.countP_le (List.range_sublist.mpr h)

/-- Chunks behind the end have nothing to write. -/
theorem countP_range_of_past {image : Bytes} {k : ℕ} (hk : image.length ≤ Firmware.chunkSize * k)
    (n : ℕ) : (List.range n).countP (fun i => hasData (chunkAt image i)) ≤
      (List.range k).countP fun i => hasData (chunkAt image i) := by
  induction n with
  | zero => exact Nat.zero_le _
  | succ n ih =>
      by_cases hn : n < k
      · exact countP_range_le hn
      · have hblank : ¬ hasData (chunkAt image n) = true := by
          intro hdata
          have hlt := lt_length_of_hasData hdata
          have hle := Nat.mul_le_mul_left Firmware.chunkSize (Nat.le_of_not_lt hn)
          omega
        rw [List.range_succ, List.countP_append, List.countP_singleton, if_neg hblank]
        exact ih

/-! ### The requests before the first failure -/

/-- Only the first `k` chunks are written, each at its own offset. -/
theorem lt_of_mem_writes {image data : Bytes} {k i : ℕ}
    (h : writeRequest canId (Firmware.chunkSize * i) data ∈ writes canId image k) : i < k := by
  obtain ⟨j, hj, heq⟩ := List.mem_map.mp h
  have hlt := List.mem_range.mp (List.mem_filter.mp hj).1
  rw [← Nat.eq_of_mul_eq_mul_left (by decide) (offset_of_writeRequest heq)]
  exact hlt

/-- A round that goes on has had its write answered with success. -/
theorem succeeds_of_next {s t : UploadState} (hs : 0 < s.sent.length)
    (h : ∀ n < s.sent.length, Succeeds exchange n)
    (hturn : uploadTurn crc canId progressCallback exchange now s = .next t) :
    ∀ n < t.sent.length, Succeeds exchange n := by
  obtain ⟨_, _, _, _, _, hsent⟩ := uploadTurn_next _ _ _ _ _ hturn
  intro n hn
  obtain ⟨_, hsame⟩ | ⟨_, fwResult, hwrite, hsuccess⟩ := hsent
  · rw [hsame] at hn
    exact h n hn
  · obtain ⟨hsent, rfl⟩ := fwWriteNewAppData_ok hwrite hsuccess
    rw [hsent, List.length_append, List.length_singleton] at hn
    obtain hn | rfl := Nat.lt_succ_iff_lt_or_eq.mp hn
    · exact h n hn
    · rw [Succeeds, resultName, if_neg hs.ne']
      exact hsuccess

variable (crc canId progressCallback now) in
/-- The state in which the upload leaves the loop: all requests so far have succeeded. -/
theorem exists_succeeded (firmware : Firmware) (herase : Succeeds exchange 0) : ∃ k t,
    Reached canId exchange firmware k t ∧ (∀ n < t.sent.length, Succeeds exchange n) ∧
      uploadTurn crc canId progressCallback exchange now t =
        .done ((uploadLoop crc canId progressCallback exchange now).exec
          ⟨firmware, 0, now 0, [eraseRequest canId firmware.size], []⟩) := by
  obtain ⟨t, ⟨⟨k, hk⟩, hall⟩, hdone⟩ :=
    (uploadLoop crc canId progressCallback exchange now).exec_invariant
      (fun s => (∃ k, Reached canId exchange firmware k s) ∧
        ∀ n < s.sent.length, Succeeds exchange n)
      (fun s s' ⟨⟨k, hk⟩, hall⟩ hturn => ⟨⟨k + 1, hk.next hturn⟩,
        succeeds_of_next (by rw [hk.sent]; exact Nat.succ_pos _) hall hturn⟩)
      ⟨firmware, 0, now 0, [eraseRequest canId firmware.size], []⟩
      ⟨⟨0, rfl, rfl, Or.inl ⟨rfl, rfl⟩, rfl, rfl, fun i hi => absurd hi (Nat.not_lt_zero i)⟩,
        fun n hn => Nat.lt_one_iff.mp hn ▸ herase⟩
  exact ⟨k, t, hk, hall, hdone⟩

/-! ### What becomes of a failure -/

/-- Without a reply the result cannot be read; a reply can be one of a failure. -/
theorem outcome_fails {n : ℕ} (h : Outcome exchange n) (hfails : ¬ Succeeds exchange n) :
    exchange n = .ok none ∧ (∃ e, succeeded (exchange n) (resultName n) = .error e) ∨
      exchange n ≠ .ok none ∧ succeeded (exchange n) (resultName n) = .ok false := by
  obtain hnone | ⟨msg, v, hmsg, hattr⟩ := h
  · refine Or.inl ⟨hnone, .attributeError (resultName n), ?_⟩
    rw [hnone]
    rfl
  · have hreply : exchange n ≠ .ok none := by
      intro hnone
      rw [hmsg] at hnone
      cases hnone
    have hvalue : succeeded (exchange n) (resultName n) = .ok (isOne v) := by
      rw [hmsg]
      change (msg.getattr (resultName n) >>= fun v => pure (isOne v)) = _
      rw [hattr]
      rfl
    rw [Succeeds, hvalue] at hfails
    refine Or.inr ⟨hreply, ?_⟩
    rw [hvalue, Bool.eq_false_iff.mpr fun h => hfails (h ▸ rfl)]

theorem failUpload_reported (text : String) (sent : List Message) (reports : List Report) :
    (failUpload progressCallback text sent reports).sent = sent ∧
      (failUpload progressCallback text sent reports).jumped = false ∧
      (failUpload progressCallback text sent reports).result ≠ .ok true ∧
      ((failUpload progressCallback text sent reports).result = .ok false ↔
        progressCallback = true) := by
  cases progressCallback <;> simp [failUpload]

/-- Both branches in which a request fails end the upload in the same way. -/
theorem failedAt_of_outcome {image : Bytes} {n : ℕ} {u : Upload} {text : String}
    {sent : List Message} {reports : List Report} (before : ∀ j < n, Succeeds exchange j)
    (houtcome : Outcome exchange n) (hfails : ¬ Succeeds exchange n)
    (hunanswered : ¬ Answered canId image exchange sent)
    (herror : ∀ e, succeeded (exchange n) (resultName n) = .error e →
      u = ⟨sent, reports, false, .error e⟩)
    (hfalse : succeeded (exchange n) (resultName n) = .ok false →
      u = failUpload progressCallback text sent reports) :
    FailedAt canId progressCallback image exchange n u := by
  obtain ⟨hnone, e, he⟩ | ⟨hreply, hf⟩ := outcome_fails houtcome hfails
  · rw [herror e he]
    refine ⟨before, hfails, hunanswered, rfl, ?_, ?_⟩
    · intro h
      cases h
    · exact iff_of_false (fun h => by cases h) fun h => h.1 hnone
  · obtain ⟨hsent, hjumped, htrue, hiff⟩ :=
      @failUpload_reported progressCallback text sent reports
    rw [hfalse hf]
    refine ⟨before, hfails, ?_, hjumped, htrue, ?_⟩
    · rw [hsent]
      exact hunanswered
    · rw [hiff]
      exact (and_iff_right hreply).symm

/-- The write of the chunk at which the upload stands is the only one at its offset. -/
theorem Reached.unanswered {firmware : Firmware} {k : ℕ} {t : UploadState}
    (h : Reached canId exchange firmware k t)
    (hdata : hasData (chunkAt firmware.fwBytes k) = true)
    (hfails : ¬ Succeeds exchange t.sent.length) :
    ¬ Answered canId firmware.fwBytes exchange (t.sent ++
      [writeRequest canId (Firmware.chunkSize * k) (chunkAt firmware.fwBytes k)]) := by
  intro hall
  obtain ⟨n, hsent, hsuccess⟩ := hall.written k hdata
  have hlast : n = t.sent.length := by
    by_contra hne
    have hlt := (List.getElem?_eq_some_iff.mp hsent).1
    rw [List.length_append, List.length_singleton] at hlt
    rw [List.getElem?_append_left (by omega)] at hsent
    have hmem := List.mem_of_getElem? hsent
    rw [h.sent] at hmem
    obtain heq | hmem := List.mem_cons.mp hmem
    · exact eraseRequest_ne_writeRequest canId _ _ _ heq.symm
    · exact lt_irrefl k (lt_of_mem_writes hmem)
  have hpos : n ≠ 0 := by
    rw [hlast, h.sent]
    exact Nat.succ_ne_zero _
  rw [Succeeds, ← hlast, resultName, if_neg hpos] at hfails
  exact hfails hsuccess

section Ends
variable {firmware : Firmware} {k : ℕ} {t : UploadState} {u : Upload}

theorem Reached.length_sent (h : Reached canId exchange firmware k t) :
    t.sent.length = 1 + (List.range k).countP fun i => hasData (chunkAt firmware.fwBytes i) := by
  rw [h.sent, List.length_cons, length_writes_eq, Nat.add_comm]

theorem Reached.length_sent_le (h : Reached canId exchange firmware k t)
    (hdata : hasData (chunkAt firmware.fwBytes k) = true) :
    t.sent.length ≤ writeCount firmware.fwBytes := by
  have hlt := lt_length_of_hasData hdata
  have hk : k + 1 ≤ firmware.fwBytes.length := by
    rw [Firmware.chunkSize] at hlt
    omega
  have hlater := countP_range_le (p := fun i => hasData (chunkAt firmware.fwBytes i)) hk
  rw [List.range_succ, List.countP_append, List.countP_singleton, if_pos hdata] at hlater
  rw [h.length_sent, writeCount]
  omega

/-- A round that ends the loop while there is something left has data to write and fails at it. -/
theorem Reached.fails (hcan : ∀ id, canId = some id → id ≤ 255)
    (h : Reached canId exchange firmware k t) (hleft : 0 < t.firmware.size)
    (hlen : firmware.fwBytes.length ≤ 2 ^ 32 + 128) (horiginal : firmware.originalSize ≠ 0)
    (hturn : uploadTurn crc canId progressCallback exchange now t = .done u) :
    hasData (chunkAt firmware.fwBytes k) = true ∧ ¬ Succeeds exchange t.sent.length := by
  have hname : resultName t.sent.length = "write_new_app_result" := by
    rw [h.length_sent]
    exact if_neg (by omega)
  by_contra hnot
  obtain ⟨t', hnext⟩ := exists_uploadTurn_next crc progressCallback now hcan hleft
    (by rwa [h.originalSize]) (by
      intro hdata
      rw [h.chunk] at hdata
      rw [h.offset, ← hname]
      exact ⟨offset_lt_of_hasData hlen hdata, not_not.mp fun hfails => hnot ⟨hdata, hfails⟩⟩)
  rw [hnext] at hturn
  cases hturn

theorem Reached.failedAt (hcan : ∀ id, canId = some id → id ≤ 255)
    (h : Reached canId exchange firmware k t) (hleft : 0 < t.firmware.size)
    (hlen : firmware.fwBytes.length ≤ 2 ^ 32 + 128) (houtcome : ∀ n, Outcome exchange n)
    (hall : ∀ n < t.sent.length, Succeeds exchange n)
    (hdata : hasData (chunkAt firmware.fwBytes k) = true)
    (hfails : ¬ Succeeds exchange t.sent.length)
    (hturn : uploadTurn crc canId progressCallback exchange now t = .done u) :
    FailedAt canId progressCallback firmware.fwBytes exchange t.sent.length u := by
  have hname : resultName t.sent.length = "write_new_app_result" := by
    rw [h.length_sent]
    exact if_neg (by omega)
  rw [uploadTurn, if_pos hleft] at hturn
  dsimp only [Firmware.getNextChunk] at hturn
  rw [h.chunk, if_pos hdata, h.offset,
    fwWriteNewAppData_eq hcan (offset_lt_of_hasData hlen hdata)] at hturn
  apply failedAt_of_outcome hall (houtcome _) hfails (h.unanswered hdata hfails)
  · intro e herror
    rw [hname] at herror
    simp only [herror] at hturn
    exact (Turn.done.inj hturn).symm
  · intro hfalse
    rw [hname] at hfalse
    simp only [hfalse] at hturn
    exact (Turn.done.inj hturn).symm

/-- When nothing is left of an image, everything was answered with success. -/
theorem Reached.answered (h : Reached canId exchange firmware k t) (hzero : t.firmware.size = 0)
    (hsize : 0 < firmware.size) (hall : ∀ n < t.sent.length, Succeeds exchange n) :
    (∀ n ≤ writeCount firmware.fwBytes, Succeeds exchange n) ∧
      Answered canId firmware.fwBytes exchange t.sent := by
  have hpast : firmware.fwBytes.length ≤ Firmware.chunkSize * k := by
    by_contra hlt
    exact lt_irrefl k (h.lt_of_done hzero hsize (Nat.lt_of_not_le hlt))
  have hwrites := countP_range_of_past hpast firmware.fwBytes.length
  have hcount := h.length_sent
  refine ⟨fun n hn => hall n ?_, hall 0 (by omega), ?_⟩
  · rw [writeCount] at hn
    omega
  · intro i hdata
    exact h.accepted i (h.lt_of_done hzero hsize (lt_length_of_hasData hdata)) hdata

/-- What the upload returns from the round in which the loop ends. -/
theorem Reached.ends (hcan : ∀ id, canId = some id → id ≤ 255)
    (h : Reached canId exchange firmware k t) (hsize : 0 < firmware.size)
    (hlen : firmware.fwBytes.length ≤ 2 ^ 32 + 128) (horiginal : firmware.originalSize ≠ 0)
    (houtcome : ∀ n, Outcome exchange n) (hall : ∀ n < t.sent.length, Succeeds exchange n)
    (hturn : uploadTurn crc canId progressCallback exchange now t = .done u) :
    ((∀ n ≤ writeCount firmware.fwBytes, Succeeds exchange n) ∧
        Answered canId firmware.fwBytes exchange u.sent ∧ u.result = .ok true) ∨
      ∃ n ≤ writeCount firmware.fwBytes,
        FailedAt canId progressCallback firmware.fwBytes exchange n u := by
  by_cases hleft : 0 < t.firmware.size
  · obtain ⟨hdata, hfails⟩ := h.fails hcan hleft hlen horiginal hturn
    exact Or.inr ⟨t.sent.length, h.length_sent_le hdata,
      h.failedAt hcan hleft hlen houtcome hall hdata hfails hturn⟩
  · obtain ⟨hdone, hanswered⟩ := h.answered (Nat.eq_zero_of_not_pos hleft) hsize hall
    rw [uploadTurn, if_neg hleft] at hturn
    cases hturn
    exact Or.inl ⟨hdone, hanswered, rfl⟩

end Ends

/-- An upload has every request answered with success, or fails at the first one that is not. -/
theorem updateFirmware_cases (hcan : ∀ id, canId = some id → id ≤ 255) {file : Bytes} {lzss : Bool}
    {firmware : Firmware} (hinit : Firmware.init file lzss = .ok firmware)
    (houtcome : ∀ n, Outcome exchange n) (hfile : file ≠ [] ∨ ¬ Succeeds exchange 0) :
    ((∀ n ≤ writeCount firmware.fwBytes, Succeeds exchange n) ∧
        Answered canId firmware.fwBytes exchange
          (updateFirmware crc canId progressCallback exchange now firmware).sent ∧
        (updateFirmware crc canId progressCallback exchange now firmware).result = .ok true) ∨
      ∃ n ≤ writeCount firmware.fwBytes,
        FailedAt canId progressCallback firmware.fwBytes exchange n
          (updateFirmware crc canId progressCallback exchange now firmware) := by
  obtain ⟨hlen, rfl⟩ := Firmware.eq_of_init hinit
  have hlength := Firmware.length_image file lzss
  unfold updateFirmware
  rw [fwEraseNewApp_eq hcan (by dsimp only; omega), List.nil_append]
  simp only [List.length_nil]
  by_cases herase : Succeeds exchange 0
  · have hpos : 0 < file.length :=
      List.length_pos_iff.mpr (hfile.resolve_right (not_not.mpr herase))
    have hok : succeeded (exchange 0) "erase_new_app_result" = .ok true := herase
    simp only [hok]
    obtain ⟨k, t, hk, hall, hdone⟩ := exists_succeeded crc canId progressCallback now
      ⟨Firmware.header file lzss ++ file, file.length, file.length, none, lzss⟩ herase
    exact hk.ends hcan hpos (hlength.le.trans (by omega)) hpos.ne' houtcome hall hdone
  · refine Or.inr ⟨0, Nat.zero_le _, ?_⟩
    apply failedAt_of_outcome (fun j hj => absurd hj (Nat.not_lt_zero j)) (houtcome 0) herase
      fun h => herase h.erased
    · intro e herror
      change succeeded (exchange 0) "erase_new_app_result" = .error e at herror
      simp only [herror]
      rfl
    · intro hfalse
      change succeeded (exchange 0) "erase_new_app_result" = .ok false at hfalse
      simp only [hfalse]
      rfl

/-- The header of an empty file has data and is not sent. -/
theorem unanswered_empty (hcan : ∀ id, canId = some id → id ≤ 255) {lzss : Bool}
    {firmware : Firmware} (hinit : Firmware.init [] lzss = .ok firmware)
    (herase : Succeeds exchange 0) :
    (updateFirmware crc canId progressCallback exchange now firmware).result = .ok true ∧
      ¬ Answered canId firmware.fwBytes exchange
        (updateFirmware crc canId progressCallback exchange now firmware).sent := by
  rw [updateFirmware_empty hcan hinit herase]
  refine ⟨rfl, fun h => ?_⟩
  obtain ⟨_, rfl⟩ := Firmware.eq_of_init hinit
  have hdata : hasData (chunkAt (Firmware.header [] lzss ++ []) 0) = true := by
    cases lzss <;> decide +kernel
  obtain ⟨n, hsent, _⟩ := h.written 0 hdata
  have heq := List.mem_singleton.mp (List.mem_of_getElem? hsent)
  exact eraseRequest_ne_writeRequest canId _ _ _ heq.symm

/-- A failed upload is reported just if the image is not empty, or its erase fails, and the first
request that is not answered with success has a reply and there is a progress callback. -/
theorem reported_iff (crc : Bytes → UInt16) (canId : Option ℕ)
    (hcan : ∀ id, canId = some id → id ≤ 255) (progressCallback : Bool)
    (exchange : ℕ → Py (Option Response)) (houtcome : ∀ n, Outcome exchange n) (now : ℕ → ℚ)
    (file : Bytes) (lzss : Bool) (firmware : Firmware)
    (hinit : Firmware.init file lzss = .ok firmware) :
    Reported canId firmware.fwBytes exchange
        (updateFirmware crc canId progressCallback exchange now firmware) ↔
      (file ≠ [] ∨ ¬ Succeeds exchange 0) ∧
        ∀ n ≤ writeCount firmware.fwBytes, (∀ j < n, Succeeds exchange j) →
          ¬ Succeeds exchange n → exchange n ≠ .ok none ∧ progressCallback = true := by
  by_cases hfile : file ≠ [] ∨ ¬ Succeeds exchange 0
  · rw [and_iff_right hfile]
    obtain ⟨hall, hanswered, htrue⟩ | ⟨m, hm, hfailed⟩ :=
      @updateFirmware_cases crc canId progressCallback exchange now hcan file lzss firmware hinit
        houtcome hfile
    · refine iff_of_true ⟨iff_of_true htrue hanswered, fun h => absurd hanswered h⟩ ?_
      intro n hn _ hfails
      exact absurd (hall n hn) hfails
    · constructor
      · intro h n hn hbefore hfails
        have hsame : n = m := by
          apply le_antisymm
          · by_contra hlt
            exact hfailed.fails (hbefore m (Nat.lt_of_not_le hlt))
          · by_contra hlt
            exact hfails (hfailed.before n (Nat.lt_of_not_le hlt))
        rw [hsame]
        exact hfailed.reported_iff.mp (h.failure hfailed.unanswered).1
      · intro h
        have hfalse := hfailed.reported_iff.mpr (h m hm hfailed.before hfailed.fails)
        exact ⟨iff_of_false hfailed.not_true hfailed.unanswered,
          fun _ => ⟨hfalse, hfailed.not_jumped⟩⟩
  · refine iff_of_false (fun h => ?_) (fun h => hfile h.1)
    rw [not_or, not_not, not_not] at hfile
    obtain ⟨rfl, herase⟩ := hfile
    obtain ⟨htrue, hnot⟩ :=
      @unanswered_empty crc canId progressCallback exchange now hcan lzss firmware hinit herase
    exact hnot (h.success.mp htrue)

/-- A device that confirms the given number of requests and refuses the others. -/
def refusing (accepted n : ℕ) : Py (Option Response) :=
  .ok (some (.message (if n = 0 then
    ⟨Messages.eraseNewApp, none, [("erase_new_app_result", .int (if n < accepted then 1 else 0))]⟩
  else ⟨Messages.writeNewAppData, none,
    [("new_app_offset", .int 0), ("write_new_app_result", .bool (decide (n < accepted)))]⟩)))

theorem outcome_refusing (accepted n : ℕ) : Outcome (refusing accepted) n := by
  right
  by_cases hn : n = 0
  · rw [refusing, resultName, if_pos hn, if_pos hn]
    exact ⟨_, _, rfl, rfl⟩
  · rw [refusing, resultName, if_neg hn, if_neg hn]
    exact ⟨_, _, rfl, rfl⟩

theorem reported_iff_refusing :
    Firmware.init [7, 7] false = .ok oneChunk ∧ Reported none oneChunk.fwBytes (refusing 1)
      (updateFirmware Crc16.xmodem none true (refusing 1) (fun _ => 0) oneChunk) := by
  have hinit : Firmware.init [7, 7] false = .ok oneChunk := by decide +kernel
  have hreply : ∀ n, refusing 1 n ≠ .ok none := by
    intro n h
    cases h
  have hiff := reported_iff Crc16.xmodem none (fun id hid => by cases hid) true (refusing 1)
    (outcome_refusing 1) (fun _ => 0) [7, 7] false oneChunk hinit
  exact ⟨hinit, hiff.mpr ⟨Or.inl (by decide), fun n _ _ _ => ⟨hreply n, rfl⟩⟩⟩

/-- A device from which no reply comes in time. -/
def silent (_ : ℕ) : Py (Option Response) := .ok none

/-- Without a reply to the erase, and without a callback for a refused one, the upload raises. -/
theorem reported_fails :
    (∀ n, Outcome silent n) ∧ Firmware.init [7, 7] false = .ok oneChunk ∧
      (updateFirmware Crc16.xmodem none true silent (fun _ => 0) oneChunk).result =
        .error (.attributeError "erase_new_app_result") ∧
      (updateFirmware Crc16.xmodem none false (refusing 0) (fun _ => 0) oneChunk).result =
        .error (.typeError "'NoneType' object is not callable") ∧
      ¬ Reported none oneChunk.fwBytes silent
        (updateFirmware Crc16.xmodem none true silent (fun _ => 0) oneChunk) := by
  have hraised : (updateFirmware Crc16.xmodem none true silent (fun _ => 0) oneChunk).result =
      .error (.attributeError "erase_new_app_result") := by decide +kernel
  refine ⟨fun n => Or.inl rfl, by decide +kernel, hraised, by decide +kernel, fun h => ?_⟩
  have herase : ¬ Succeeds silent 0 := by
    intro hsuccess
    cases hsuccess
  have hfalse := (h.failure fun hanswered => herase hanswered.erased).1
  rw [hraised] at hfalse
  cases hfalse

end PyVesc
