import PyVesc.DrainLoops
import PyVesc.Crc16

/-!
# Streams made of frames

The receiver appends each arriving chunk to its buffer and calls `unframe` until nothing more is
consumed. On a concatenation of frames its buffer always begins at a frame, so it finds every
payload once and in order, wherever the stream is cut.
-/

namespace PyVesc

variable (crc : Bytes → UInt16)

/-- The frames of some payloads, each with the payload it carries. -/
def framed (ps : List Bytes) : List (Bytes × Bytes) := ps.map (fun p => (frameBytes crc p, p))

@[simp] theorem values_framed (ps : List Bytes) : Scanner.values (framed crc ps) = ps := by
  simp [Scanner.values, framed, List.map_map, Function.comp_def]

theorem isPacket_framed {ps : List Bytes} (hps : ∀ p ∈ ps, Framable p) :
    ∀ w ∈ framed crc ps, IsPacket crc w.1 w.2 := by
  intro w hw
  obtain ⟨p, hp, rfl⟩ := List.mem_map.mp hw
  exact isPacket_frameBytes crc (hps p hp).2

theorem mapM_frame {ps : List Bytes} (hps : ∀ p ∈ ps, Framable p) :
    ps.mapM (frame crc) = .ok (ps.map (frameBytes crc)) := by
  induction ps with
  | nil => rfl
  | cons p ps ih =>
    have hp := frame_eq crc (hps p List.mem_cons_self)
    rw [List.mapM_cons, hp, ih (fun q hq => hps q (List.mem_cons_of_mem p hq))]
    rfl

theorem stream_framed (ps : List Bytes) :
    Scanner.stream (framed crc ps) = (ps.map (frameBytes crc)).flatten := by
  simp [Scanner.stream, framed, List.map_map, Function.comp_def]

/-- The visitor that keeps every payload. -/
def record (got : List Bytes) (p : Bytes) : Py (List Bytes) := .ok (got ++ [p])

theorem foldlM_record (got ps : List Bytes) : ps.foldlM record got = .ok (got ++ ps) := by
  induction ps generalizing got with
  | nil => rw [List.append_nil]; rfl
  | cons p ps ih =>
    have h := ih (got ++ [p])
    rw [List.append_assoc] at h
    exact h

/-- One arrival at the receiver, which has extracted `s.1` and still holds `s.2`. -/
def arrive (s : List Bytes × Bytes) (chunk : Bytes) : Py (List Bytes × Bytes) :=
  drain crc record (s.1, s.2 ++ chunk)

def receiver (chunks : List Bytes) : Py (List Bytes × Bytes) :=
  chunks.foldlM (arrive crc) ([], [])

theorem arrive_eq_feed (s : List Bytes × Bytes) (chunk : Bytes) :
    arrive crc s chunk = .ok ((unframeScanner crc).feed s chunk) := by
  rw [arrive, drain_eq, foldlM_record]
  rfl

theorem receiver_eq_receive (chunks : List Bytes) :
    receiver crc chunks = .ok ((unframeScanner crc).receive chunks) := by
  have h : ∀ s : List Bytes × Bytes, chunks.foldlM (arrive crc) s =
      .ok (chunks.foldl (unframeScanner crc).feed s) := by
    induction chunks with
    | nil => exact fun s => rfl
    | cons chunk chunks ih =>
      intro s
      rw [List.foldlM_cons, arrive_eq_feed]
      exact ih _
  exact h ([], [])

/-- Whatever the cuts, the receiver extracts the payloads of a clean stream once and in order and is
left with nothing, as if the whole stream had been unframed at once. -/
theorem receiver_clean_stream (ps : List Bytes) (hps : ∀ p ∈ ps, Framable p) :
    ∃ frames, ps.mapM (frame crc) = .ok frames ∧
      drain crc record ([], frames.flatten) = .ok (ps, []) ∧
      ∀ chunks : List Bytes, chunks.flatten = frames.flatten →
        receiver crc chunks = .ok (ps, []) := by
  have hpackets := isPacket_framed crc hps
  refine ⟨_, mapM_frame crc hps, ?_, ?_⟩
  · have hdrain := Scanner.drain_stream (reads_isPacket crc) (framed crc ps) [] hpackets
      (by simp) (Or.inl rfl)
    rw [List.append_nil, values_framed, stream_framed] at hdrain
    rw [drain_eq, hdrain, foldlM_record]
    rfl
  · intro chunks hchunks
    rw [← stream_framed] at hchunks
    rw [receiver_eq_receive, Scanner.receive_packets (reads_isPacket crc) hpackets chunks hchunks,
      values_framed]

theorem receiver_clean_stream_two_frames :
    ∃ frames, [[1], [2, 3]].mapM (frame Crc16.xmodem) = .ok frames ∧
      drain Crc16.xmodem record ([], frames.flatten) = .ok ([[1], [2, 3]], []) ∧
      ∀ chunks : List Bytes, chunks.flatten = frames.flatten →
        receiver Crc16.xmodem chunks = .ok ([[1], [2, 3]], []) :=
  receiver_clean_stream Crc16.xmodem [[1], [2, 3]] (by decide)

end PyVesc
