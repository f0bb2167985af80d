import PyVesc.CanBus
import PyVesc.Crc16

/-!
# Reassembly of tunnelled packets

The frames that `encodeCommFrames` makes of a packet for the host tile the packet: every fill frame
carries the bytes from its offset on and ends where the next one starts. When the bus has processed
a tiling up to some offset, its buffer holds the packet up to there, whatever it held before, and
the last frame publishes the packet.
-/

namespace PyVesc

variable (crc : Bytes → UInt16) (payload : Bytes)

/-! ### Frames that tile a packet -/

/-- A fill frame for the host with the bytes of the packet from `i` up to `j`. -/
inductive FillFrame (i : ℕ) : VescFrame → ℕ → Prop
  | short (hi : i ≤ 255) (hlt : i < payload.length) :
    FillFrame i ⟨CanPacketId.fillRxBuffer.value <<< 8 ||| HOST_ID,
      [UInt8.ofNat i] ++ slice payload i (i + 7)⟩ (i + (slice payload i (i + 7)).length)
  | long (hi : i ≤ 65535) (hlt : i < payload.length) :
    FillFrame i ⟨CanPacketId.fillRxBufferLong.value <<< 8 ||| HOST_ID,
      BigEndian.ofNat 2 i ++ slice payload i (i + 6)⟩ (i + (slice payload i (i + 6)).length)

inductive Tiles : ℕ → List VescFrame → ℕ → Prop
  | nil (i : ℕ) : Tiles i [] i
  | cons {i j k : ℕ} {f : VescFrame} {fs : List VescFrame} (hf : FillFrame payload i f j)
      (hfs : Tiles j fs k) : Tiles i (f :: fs) k

variable {payload}

theorem Tiles.append {i j k : ℕ} {fs gs : List VescFrame} (hf : Tiles payload i fs j)
    (hg : Tiles payload j gs k) : Tiles payload i (fs ++ gs) k := by
  induction hf with
  | nil i => exact hg
  | cons hf _ ih => exact Tiles.cons hf (ih hg)

theorem FillFrame.length_data {i j : ℕ} {f : VescFrame} (hf : FillFrame payload i f j) :
    f.data.length ≤ 8 := by
  cases hf <;> simp only [List.length_append, length_slice, BigEndian.length_ofNat,
    List.length_singleton] <;> omega

theorem Tiles.fillFrame {i k : ℕ} {fs : List VescFrame} (ht : Tiles payload i fs k) :
    ∀ f ∈ fs, ∃ i j, FillFrame payload i f j := by
  induction ht with
  | nil i =>
    intro f hf
    cases hf
  | cons hf _ ih => exact List.forall_mem_cons.mpr ⟨⟨_, _, hf⟩, ih⟩

theorem Tiles.length_data {i j : ℕ} {fs : List VescFrame} (ht : Tiles payload i fs j) :
    ∀ f ∈ fs, f.data.length ≤ 8 := by
  intro f hf
  obtain ⟨_, _, hfill⟩ := ht.fillFrame f hf
  exact hfill.length_data

/-- A chunk loop whose frames are fill frames produces a tiling. -/
theorem chunkLoop_tiles (more : ℕ → Bool) (width : ℕ) (hwidth : 0 < width)
    (frame : ℕ → Bytes → Py VescFrame)
    (hframe : ∀ i, more i → i < payload.length → ∃ f,
      frame i (slice payload i (i + width)) = .ok f ∧
      FillFrame payload i f (i + (slice payload i (i + width)).length))
    (s : ℕ × List VescFrame) (hs : s.1 ≤ payload.length) :
    ∃ j fs, (chunkLoop payload more width hwidth frame).exec s = .ok (j, s.2 ++ fs) ∧
      Tiles payload s.1 fs j ∧ j ≤ payload.length ∧ ¬ (more j ∧ j < payload.length) := by
  revert hs
  refine (chunkLoop payload more width hwidth frame).exec_induction
    (P := fun s r => s.1 ≤ payload.length → ∃ j fs, r = .ok (j, s.2 ++ fs) ∧
      Tiles payload s.1 fs j ∧ j ≤ payload.length ∧ ¬ (more j ∧ j < payload.length)) ?_ ?_ s
  · intro s r hturn hs
    change chunkTurn payload more width frame s = .done r at hturn
    unfold chunkTurn at hturn
    split_ifs at hturn with hmore
    · obtain ⟨f, hf, _⟩ := hframe s.1 hmore.1 hmore.2
      simp only [hf] at hturn
      cases hturn
    · cases hturn
      exact ⟨s.1, [], by rw [List.append_nil], Tiles.nil _, hs, hmore⟩
  · intro s s' hturn ih _
    change chunkTurn payload more width frame s = .next s' at hturn
    unfold chunkTurn at hturn
    split_ifs at hturn with hmore
    obtain ⟨f, hf, hfill⟩ := hframe s.1 hmore.1 hmore.2
    simp only [hf] at hturn
    cases hturn
    obtain ⟨j, fs, hexec, htiles, hj, hstop⟩ := ih (by
      simp only [length_slice]
      omega)
    refine ⟨j, f :: fs, ?_, Tiles.cons hfill htiles, hj, hstop⟩
    rw [hexec, List.append_assoc]
    rfl

theorem fillFrame_ok {i : ℕ} (hi : i ≤ 255) (hlt : i < payload.length) : ∃ f,
    fillFrame HOST_ID i (slice payload i (i + 7)) = .ok f ∧
    FillFrame payload i f (i + (slice payload i (i + 7)).length) := by
  refine ⟨_, ?_, FillFrame.short hi hlt⟩
  have hbytes : bytesOf [i] = .ok [UInt8.ofNat i] := bytesOf_ok (by simp [hi])
  rw [fillFrame, hbytes]
  rfl

theorem fillLongFrame_ok {i : ℕ} (hi : i ≤ 65535) (hlt : i < payload.length) : ∃ f,
    fillLongFrame HOST_ID i (slice payload i (i + 6)) = .ok f ∧
    FillFrame payload i f (i + (slice payload i (i + 6)).length) := by
  refine ⟨_, ?_, FillFrame.long hi hlt⟩
  rw [fillLongFrame, structPack_offset hi]
  rfl

/-- The frame that ends a packet. -/
def lastFrame (payload : Bytes) (senderId sendFlag : ℕ) : VescFrame :=
  ⟨CanPacketId.processRxBuffer.value <<< 8 ||| HOST_ID,
    [UInt8.ofNat senderId] ++ ([UInt8.ofNat sendFlag] ++ (BigEndian.ofNat 2 payload.length ++
      BigEndian.ofNat 2 (crc payload).toNat))⟩

/-- The frame of a packet that needs no other. -/
def onlyFrame (payload : Bytes) (senderId sendFlag : ℕ) : VescFrame :=
  ⟨CanPacketId.processShortBuffer.value <<< 8 ||| HOST_ID,
    [UInt8.ofNat senderId, UInt8.ofNat sendFlag] ++ payload⟩

variable {senderId sendFlag : ℕ}

theorem encodeCommFrames_short (hne : payload ≠ []) (hshort : payload.length ≤ 6)
    (hsender : senderId ≤ 255) (hflag : sendFlag ≤ 255) :
    encodeCommFrames crc HOST_ID senderId payload sendFlag =
      .ok [onlyFrame payload senderId sendFlag] := by
  have hbytes : bytesOf [senderId, sendFlag] =
      .ok [UInt8.ofNat senderId, UInt8.ofNat sendFlag] := bytesOf_ok (by simp [hsender, hflag])
  rw [encodeCommFrames, if_neg hne, if_pos hshort, shortFrame, hbytes]
  rfl

/-- A packet that needs several frames is tiled by all but the last. -/
theorem encodeCommFrames_tiles (hlong : 6 < payload.length) (hlen : payload.length ≤ 65535)
    (hsender : senderId ≤ 255) (hflag : sendFlag ≤ 255) : ∃ fs,
    encodeCommFrames crc HOST_ID senderId payload sendFlag =
      .ok (fs ++ [lastFrame crc payload senderId sendFlag]) ∧
    Tiles payload 0 fs payload.length := by
  have hne : payload ≠ [] := by
    rintro rfl
    exact absurd hlong (by decide)
  obtain ⟨i, fs, hfill, hfs, hi, _⟩ := chunkLoop_tiles (fun i => i ≤ 255) 7 (by decide)
    (fillFrame HOST_ID) (fun i hmore hlt => fillFrame_ok (by simpa using hmore) hlt) (0, [])
    (Nat.zero_le payload.length)
  obtain ⟨j, gs, hfillLong, hgs, hj, hstop⟩ := chunkLoop_tiles (fun _ => true) 6 (by decide)
    (fillLongFrame HOST_ID) (fun i _ hlt => fillLongFrame_ok (by omega) hlt) (i, fs) hi
  have hend : j = payload.length := by
    by_contra hj'
    exact hstop ⟨rfl, by omega⟩
  have hcrc : (crc payload).toNat ≤ 65535 := by
    have hlt := (crc payload).toNat_lt
    omega
  have hprocess : processFrame crc HOST_ID senderId payload sendFlag =
      .ok (lastFrame crc payload senderId sendFlag) := by
    simp only [processFrame, structPack, StructFormat.pack, StructFormat.Format.pack,
      StructFormat.IntFormat.pack_B hsender, StructFormat.IntFormat.pack_B hflag,
      StructFormat.IntFormat.pack_H hlen, StructFormat.IntFormat.pack_H hcrc]
    rfl
  rw [List.nil_append] at hfill
  refine ⟨fs ++ gs, ?_, hend ▸ hfs.append hgs⟩
  rw [encodeCommFrames, if_neg hne, if_neg (by omega), fillLoop, fillLongLoop, hfill]
  simp only [bind, Except.bind, hfillLong, hprocess]
  rfl

theorem encodeCommFrames_error_of_process (hlong : 6 < payload.length)
    (hprocess : processFrame crc HOST_ID senderId payload sendFlag = .error .structError) :
    ∃ e, encodeCommFrames crc HOST_ID senderId payload sendFlag = .error e := by
  have hne : payload ≠ [] := by
    rintro rfl
    exact absurd hlong (by decide)
  rw [encodeCommFrames, if_neg hne, if_neg (by omega)]
  cases (fillLoop HOST_ID payload).exec (0, []) with
  | error e => exact ⟨e, rfl⟩
  | ok s =>
    simp only [bind, Except.bind]
    cases (fillLongLoop HOST_ID payload).exec (s.1, s.2) with
    | error e => exact ⟨e, rfl⟩
    | ok t =>
      rw [hprocess]
      exact ⟨_, rfl⟩

/-- A packet that is too long is refused. -/
theorem encodeCommFrames_error (hlen : 65535 < payload.length) :
    ∃ e, encodeCommFrames crc HOST_ID senderId payload sendFlag = .error e := by
  have hprocess : processFrame crc HOST_ID senderId payload sendFlag = .error .structError := by
    simp only [processFrame, structPack, StructFormat.pack, StructFormat.Format.pack,
      StructFormat.IntFormat.pack_H_none hlen]
    cases StructFormat.IntFormat.pack .B senderId <;>
      cases StructFormat.IntFormat.pack .B sendFlag <;> rfl
  exact encodeCommFrames_error_of_process crc (by omega) hprocess

/-- So is a sender id that is no byte. -/
theorem encodeCommFrames_sender_error (hne : payload ≠ []) (hsender : 255 < senderId) :
    ∃ e, encodeCommFrames crc HOST_ID senderId payload sendFlag = .error e := by
  by_cases hshort : payload.length ≤ 6
  · have hbytes : ∃ e, bytesOf [senderId, sendFlag] = .error e := by
      have hbig : ¬ senderId < 256 := by omega
      simp [bytesOf, hbig]
    obtain ⟨e, he⟩ := hbytes
    refine ⟨e, ?_⟩
    rw [encodeCommFrames, if_neg hne, if_pos hshort, shortFrame, he]
    rfl
  · have hprocess : processFrame crc HOST_ID senderId payload sendFlag = .error .structError := by
      simp only [processFrame, structPack, StructFormat.pack, StructFormat.Format.pack,
        StructFormat.IntFormat.pack_B_none hsender]
      rfl
    exact encodeCommFrames_error_of_process crc (by omega) hprocess

/-! ### What the bus makes of them -/

/-- The buffer holds the packet up to offset `i`. -/
structure Assembled (payload : Bytes) (i : ℕ) (buf : Bytes) : Prop where
  le_length : i ≤ buf.length
  take_eq : buf.take i = payload.take i

theorem take_append_slice (b : Bytes) (i w : ℕ) :
    b.take i ++ slice b i (i + w) = b.take (i + (slice b i (i + w)).length) := by
  have hslice : (b.drop i).take (slice b i (i + w)).length = slice b i (i + w) := by
    rw [length_slice, slice, Nat.add_sub_cancel_left, ← List.length_drop, ← List.take_take,
      List.take_length]
  rw [List.take_add, hslice]

/-- Writing the next chunk at its offset. -/
theorem Assembled.assign {i w j : ℕ} {buf : Bytes} (h : Assembled payload i buf) :
    Assembled payload (i + (slice payload i (i + w)).length)
      (SliceAssign.assign buf i j (slice payload i (i + w))) := by
  refine ⟨?_, ?_⟩
  · have hle := h.le_length
    rw [SliceAssign.length_assign]
    omega
  · rw [SliceAssign.take_assign h.le_length, h.take_eq, take_append_slice]

theorem splitArbitrationId_host (pid : CanPacketId) :
    splitArbitrationId (pid.value <<< 8 ||| HOST_ID) = (pid.value, HOST_ID) := by
  cases pid <;> decide

theorem onMessage_host {pid : CanPacketId} (hpid : pid.value ∈ tunnelIds) (data : Bytes)
    (s : BusState) (now : ℚ) :
    onMessage crc s now (VescFrame.message ⟨pid.value <<< 8 ||| HOST_ID, data⟩) =
      onTunnelFrame crc s pid.value data := by
  have hsplit := splitArbitrationId_host pid
  rw [onMessage_tunnel, VescFrame.message, hsplit]
  simp [tunnelForHost, VescFrame.message, hsplit, hpid]

theorem slice_ne_nil {b : Bytes} {i : ℕ} (w : ℕ) (hi : i < b.length) :
    slice b i (i + (w + 1)) ≠ [] := by
  rw [← List.length_pos_iff, length_slice]
  omega

theorem toNat_ofNat_byte {n : ℕ} (hn : n ≤ 255) : (UInt8.ofNat n).toNat = n :=
  UInt8.toNat_ofNat_of_lt' (Nat.lt_succ_of_le hn)

theorem toNat_ofNat_pair {n : ℕ} (hn : n ≤ 65535) :
    BigEndian.toNat [UInt8.ofNat (n / 256 % 256), UInt8.ofNat (n % 256)] = n :=
  BigEndian.toNat_ofNat (w := 2) (by omega)

/-- A fill frame writes its chunk at its offset. -/
theorem onMessage_fill_assign {i j : ℕ} {f : VescFrame} (hf : FillFrame payload i f j)
    (s : BusState) (now : ℚ) : ∃ w, j = i + (slice payload i (i + w)).length ∧
      onMessage crc s now f.message =
        s.withBuf (SliceAssign.assign s.commBuf i j (slice payload i (i + w))) := by
  cases hf with
  | short hi hlt =>
    have hfill := onTunnelFrame_fill crc s (UInt8.ofNat i) (slice_ne_nil 6 hlt)
    rw [toNat_ofNat_byte hi] at hfill
    exact ⟨7, rfl, (onMessage_host crc (by decide) _ s now).trans hfill⟩
  | long hi hlt =>
    have hfill := onTunnelFrame_fillLong crc s (UInt8.ofNat (i / 256 % 256)) (UInt8.ofNat (i % 256))
      (slice_ne_nil 5 hlt)
    rw [toNat_ofNat_pair hi] at hfill
    exact ⟨6, rfl, (onMessage_host crc (by decide) _ s now).trans hfill⟩

theorem onMessage_fill {i j : ℕ} {f : VescFrame} (hf : FillFrame payload i f j) (s : BusState)
    (now : ℚ) : ∃ buf, onMessage crc s now f.message = s.withBuf buf ∧
      (Assembled payload i s.commBuf → Assembled payload j buf) := by
  obtain ⟨w, rfl, hstep⟩ := onMessage_fill_assign crc hf s now
  exact ⟨_, hstep, Assembled.assign⟩

/-- Processing a tiling, with other messages in between, assembles the packet and publishes
nothing. -/
theorem receiveAll_tiles (events : List (ℚ × CanMessage)) {i j : ℕ} {fs : List VescFrame}
    (ht : Tiles payload i fs j) (s : BusState) (h : Assembled payload i s.commBuf)
    (hevents : (events.map Prod.snd).filter tunnelForHost = fs.map VescFrame.message) :
    Assembled payload j (receiveAll crc s events).commBuf ∧
      (receiveAll crc s events).commReply = s.commReply ∧
      (receiveAll crc s events).commEvent = s.commEvent := by
  induction events generalizing i fs s with
  | nil =>
    rw [List.map_nil, List.filter_nil] at hevents
    rw [List.map_eq_nil_iff.mp hevents.symm] at ht
    cases ht
    exact ⟨h, rfl, rfl⟩
  | cons e events ih =>
    rw [List.map_cons, List.filter_cons] at hevents
    split_ifs at hevents with htunnel
    · cases ht with
      | nil i => cases hevents
      | cons hf hfs =>
        rw [List.map_cons] at hevents
        obtain ⟨hmsg, hrest⟩ := List.cons_eq_cons.mp hevents
        obtain ⟨buf, hstep, hbuf⟩ := onMessage_fill crc hf s e.1
        rw [← hmsg] at hstep
        rw [receiveAll, List.foldl_cons, hstep]
        exact ih hfs (s.withBuf buf) (hbuf h) hrest
    · have hcomm := comm_onMessage crc (Bool.eq_false_iff.mpr htunnel) s e.1
      simp only [BusState.comm, Prod.mk.injEq] at hcomm
      obtain ⟨hbuf, hreply, hevent⟩ := hcomm
      rw [← hbuf] at h
      rw [← hreply, ← hevent]
      exact ih ht (onMessage crc s e.1 e.2) h hevents

/-- The last frame publishes what the buffer holds if the checksum accepts it. -/
theorem onMessage_lastFrame (hlen : payload.length ≤ 65535) {senderId sendFlag : ℕ}
    (hsender : senderId ≤ 255) (s : BusState) (now : ℚ) :
    onMessage crc s now (lastFrame crc payload senderId sendFlag).message =
      if crc (s.commBuf.take payload.length) = crc payload then
        s.publish senderId (s.commBuf.take payload.length)
      else s := by
  have hcrc : (crc payload).toNat ≤ 65535 := Nat.le_of_lt_succ (crc payload).toNat_lt
  have hprocess := onTunnelFrame_process crc s (UInt8.ofNat senderId) (UInt8.ofNat sendFlag)
    (UInt8.ofNat (payload.length / 256 % 256)) (UInt8.ofNat (payload.length % 256))
    (UInt8.ofNat ((crc payload).toNat / 256 % 256)) (UInt8.ofNat ((crc payload).toNat % 256)) []
  rw [toNat_ofNat_byte hsender, toNat_ofNat_pair hlen, toNat_ofNat_pair hcrc] at hprocess
  simp only [UInt16.toNat_inj] at hprocess
  exact (onMessage_host crc (by decide) _ s now).trans hprocess

theorem Assembled.take_length {buf : Bytes} (h : Assembled payload payload.length buf) :
    buf.take payload.length = payload := by
  rw [h.take_eq, List.take_length]

theorem onMessage_onlyFrame (hne : payload ≠ []) {senderId sendFlag : ℕ} (hsender : senderId ≤ 255)
    (s : BusState) (now : ℚ) :
    onMessage crc s now (onlyFrame payload senderId sendFlag).message =
      s.publish senderId payload := by
  have hpublish := onTunnelFrame_short crc s (UInt8.ofNat senderId) (UInt8.ofNat sendFlag) hne
  rw [toNat_ofNat_byte hsender] at hpublish
  exact (onMessage_host crc (by decide) _ s now).trans hpublish

theorem Tiles.split {i k : ℕ} {fs gs : List VescFrame} (h : Tiles payload i (fs ++ gs) k) :
    ∃ j, Tiles payload i fs j := by
  induction fs generalizing i with
  | nil => exact ⟨i, Tiles.nil i⟩
  | cons f fs ih =>
    cases h with
    | cons hf hfs =>
      obtain ⟨j, hj⟩ := ih hfs
      exact ⟨j, Tiles.cons hf hj⟩

/-- The stored reply is the packet of the sender when all messages have been processed, and it has
not been touched while frames of the packet were missing. -/
def Reassembles (frames : List VescFrame) (senderId : ℕ) (payload : Bytes) : Prop :=
  ∀ (s : BusState) (events : List (ℚ × CanMessage)),
    (events.map Prod.snd).filter tunnelForHost = frames.map VescFrame.message →
    (receiveAll crc s events).commReply = some (senderId, payload) ∧
    ∀ earlier, earlier <+: events →
      ((earlier.map Prod.snd).filter tunnelForHost).length < frames.length →
      (receiveAll crc s earlier).commReply = s.commReply ∧
        (receiveAll crc s earlier).commEvent = s.commEvent

theorem reassembles_tiles {fs : List VescFrame} {j senderId : ℕ} {last : VescFrame}
    (ht : Tiles payload 0 fs j) (hlast : ∀ s now, Assembled payload j s.commBuf →
      onMessage crc s now last.message = s.publish senderId payload) :
    Reassembles crc (fs ++ [last]) senderId payload := by
  intro s events hevents
  have hstart : Assembled payload 0 s.commBuf := ⟨Nat.zero_le _, rfl⟩
  constructor
  · rw [List.map_append, List.filter_eq_append_iff] at hevents
    obtain ⟨msgs, more, hsplit, hmsgs, hmore⟩ := hevents
    obtain ⟨before, rest, rfl, rfl, rfl⟩ := List.map_eq_append_iff.mp hsplit
    rw [List.map_singleton, List.filter_eq_cons_iff] at hmore
    obtain ⟨quiet, after, hrest, hquiet, _, hafter⟩ := hmore
    obtain ⟨between, rest', rfl, rfl, hrest'⟩ := List.map_eq_append_iff.mp hrest
    obtain ⟨e, later, rfl, he, rfl⟩ := List.map_eq_cons_iff.mp hrest'
    obtain ⟨hfilled, _, _⟩ := receiveAll_tiles crc before ht s hstart hmsgs
    have hnone : (between.map Prod.snd).filter tunnelForHost = [] := by
      rw [List.filter_eq_nil_iff]
      exact hquiet
    obtain ⟨hready, _, _⟩ := receiveAll_tiles crc between
      (Tiles.nil j : Tiles payload j [] j) (receiveAll crc s before) hfilled hnone
    have hstep := hlast (receiveAll crc (receiveAll crc s before) between) e.1 hready
    rw [← he] at hstep
    obtain ⟨_, hreply, _⟩ := receiveAll_tiles crc later
      (Tiles.nil 0 : Tiles payload 0 [] 0)
      ((receiveAll crc (receiveAll crc s before) between).publish senderId payload)
      ⟨Nat.zero_le _, rfl⟩ hafter
    have hrun : receiveAll crc s (before ++ (between ++ e :: later)) =
        receiveAll crc (onMessage crc (receiveAll crc (receiveAll crc s before) between) e.1 e.2)
          later := by
      simp only [receiveAll, List.foldl_append, List.foldl_cons]
    rw [hrun, hstep, hreply]
    rfl
  · intro earlier hpre hcount
    obtain ⟨rest, rfl⟩ := hpre
    rw [List.map_append, List.filter_append] at hevents
    have hprefix : (earlier.map Prod.snd).filter tunnelForHost <+:
        fs.map VescFrame.message := by
      refine List.prefix_of_prefix_length_le ⟨_, hevents⟩ ?_ ?_
      · rw [List.map_append]
        exact List.prefix_append _ _
      · rw [List.length_append, List.length_singleton] at hcount
        rw [List.length_map]
        exact Nat.le_of_lt_succ hcount
    obtain ⟨gs, hgs⟩ := hprefix
    obtain ⟨fs, gs, rfl, hfs, rfl⟩ := List.map_eq_append_iff.mp hgs.symm
    obtain ⟨k, hk⟩ := ht.split
    exact (receiveAll_tiles crc earlier hk s hstart hfs.symm).2

/-- The frames of a packet: fill frames that tile it up to `j`, and one that publishes it. -/
structure Transmits (payload : Bytes) (senderId : ℕ) (fs : List VescFrame) (j : ℕ)
    (last : VescFrame) : Prop where
  tiles : Tiles payload 0 fs j
  publishes : ∀ s now, Assembled payload j s.commBuf →
    onMessage crc s now last.message = s.publish senderId payload
  short : payload.length ≤ 6 → fs = [] ∧ j = 0
  long : 6 < payload.length → j = payload.length ∧ ∀ s now,
    onMessage crc s now last.message =
      if crc (s.commBuf.take payload.length) = crc payload then
        s.publish senderId (s.commBuf.take payload.length)
      else s
  length : last.data.length ≤ 8

theorem Tiles.tunnelForHost {i j : ℕ} {fs : List VescFrame} (ht : Tiles payload i fs j) :
    ∀ f ∈ fs, PyVesc.tunnelForHost f.message = true := by
  intro f hf
  obtain ⟨_, _, hfill⟩ := ht.fillFrame f hf
  cases hfill <;> simp [PyVesc.tunnelForHost, VescFrame.message, splitArbitrationId_host, tunnelIds]

/-- The frames of a packet, one after another, publish it. -/
theorem receiveAll_transmits {senderId j : ℕ} {fs : List VescFrame} {last : VescFrame}
    (ht : Transmits crc payload senderId fs j last) (s : BusState) (now : ℚ) : ∃ t : BusState,
    receiveAll crc s ((fs ++ [last]).map fun f => (now, f.message)) =
      t.publish senderId payload := by
  have hfills : ((fs.map fun f => (now, f.message)).map Prod.snd).filter tunnelForHost =
      fs.map VescFrame.message := by
    rw [List.map_map, List.filter_eq_self.mpr]
    · rfl
    · intro msg hmsg
      obtain ⟨f, hf, rfl⟩ := List.mem_map.mp hmsg
      exact ht.tiles.tunnelForHost f hf
  obtain ⟨hfilled, _⟩ := receiveAll_tiles crc _ ht.tiles s ⟨Nat.zero_le _, rfl⟩ hfills
  rw [List.map_append, receiveAll, List.foldl_append]
  exact ⟨_, ht.publishes _ now hfilled⟩

theorem encodeCommFrames_transmits (hsender : senderId ≤ 255) (hflag : sendFlag ≤ 255)
    (hne : payload ≠ []) (hlen : payload.length ≤ 65535) : ∃ fs j last,
    encodeCommFrames crc HOST_ID senderId payload sendFlag = .ok (fs ++ [last]) ∧
      Transmits crc payload senderId fs j last := by
  by_cases hshort : payload.length ≤ 6
  · refine ⟨[], 0, onlyFrame payload senderId sendFlag,
      encodeCommFrames_short crc hne hshort hsender hflag, Tiles.nil 0,
      fun s now _ => onMessage_onlyFrame crc hne hsender s now, fun _ => ⟨rfl, rfl⟩,
      fun h => absurd h (by omega), ?_⟩
    rw [onlyFrame, List.length_append, List.length_cons, List.length_singleton]
    omega
  · obtain ⟨fs, hencode, htiles⟩ := encodeCommFrames_tiles crc (by omega) hlen hsender hflag
    refine ⟨fs, payload.length, _, hencode, htiles, ?_, fun h => absurd h hshort,
      fun _ => ⟨rfl, onMessage_lastFrame crc hlen hsender⟩, ?_⟩
    · intro s now h
      rw [onMessage_lastFrame crc hlen hsender, h.take_length, if_pos rfl]
    · simp [lastFrame]

/-- Only the payloads and ids of the previous theorem can be encoded. -/
theorem transmits_of_encode {frames : List VescFrame} (hflag : sendFlag ≤ 255)
    (h : encodeCommFrames crc HOST_ID senderId payload sendFlag = .ok frames) :
    ∃ fs j last, frames = fs ++ [last] ∧ Transmits crc payload senderId fs j last := by
  have hne : payload ≠ [] := by
    rintro rfl
    cases h
  have hlen : payload.length ≤ 65535 := by
    by_contra hlong
    obtain ⟨e, he⟩ : ∃ e, encodeCommFrames crc HOST_ID senderId payload sendFlag = .error e :=
      encodeCommFrames_error crc (by omega)
    rw [he] at h
    cases h
  have hsender : senderId ≤ 255 := by
    by_contra hbig
    obtain ⟨e, he⟩ : ∃ e, encodeCommFrames crc HOST_ID senderId payload sendFlag = .error e :=
      encodeCommFrames_sender_error crc hne (Nat.lt_of_not_le hbig)
    rw [he] at h
    cases h
  obtain ⟨fs, j, last, hencode, ht⟩ := encodeCommFrames_transmits crc hsender hflag hne hlen
  rw [hencode] at h
  cases h
  exact ⟨fs, j, last, rfl, ht⟩

/-- Chunking and reassembly of a tunnelled packet: the frames have at most eight bytes, the host
stores exactly the packet whatever its buffer held before and whatever other messages come in
between, and a packet that is too long is refused. -/
theorem encodeCommFrames_reassembled (senderId sendFlag : ℕ) (hsender : senderId ≤ 255)
    (hflag : sendFlag ≤ 255) (payload : Bytes) (hne : payload ≠ []) :
    (payload.length ≤ 65535 → ∃ frames,
      encodeCommFrames crc HOST_ID senderId payload sendFlag = .ok frames ∧
      (∀ f ∈ frames, f.data.length ≤ 8) ∧ Reassembles crc frames senderId payload) ∧
    (65535 < payload.length →
      ∃ e, encodeCommFrames crc HOST_ID senderId payload sendFlag = .error e) := by
  refine ⟨fun hlen => ?_, fun hlen => encodeCommFrames_error crc hlen⟩
  obtain ⟨fs, j, last, hencode, ht⟩ := encodeCommFrames_transmits crc hsender hflag hne hlen
  refine ⟨_, hencode, ?_, reassembles_tiles crc ht.tiles ht.publishes⟩
  intro f hf
  obtain hf | hf := List.mem_append.mp hf
  · exact ht.tiles.length_data f hf
  · rw [List.mem_singleton.mp hf]
    exact ht.length

theorem encodeCommFrames_reassembled_seven :
    ([1, 2, 3, 4, 5, 6, 7].length ≤ 65535 → ∃ frames,
      encodeCommFrames Crc16.xmodem HOST_ID 10 [1, 2, 3, 4, 5, 6, 7] 0 = .ok frames ∧
      (∀ f ∈ frames, f.data.length ≤ 8) ∧
      Reassembles Crc16.xmodem frames 10 [1, 2, 3, 4, 5, 6, 7]) ∧
    (65535 < [1, 2, 3, 4, 5, 6, 7].length →
      ∃ e, encodeCommFrames Crc16.xmodem HOST_ID 10 [1, 2, 3, 4, 5, 6, 7] 0 = .error e) :=
  encodeCommFrames_reassembled Crc16.xmodem 10 0 (by decide) (by decide) [1, 2, 3, 4, 5, 6, 7]
    (by decide)

end PyVesc
