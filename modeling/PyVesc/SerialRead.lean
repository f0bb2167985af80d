import PyVesc.Interface

/-!
# Reading a response from the transport

`VESC.read` and the part of `VESC.write` that belongs to it. Each round of the loop looks at the
clock, takes the bytes that wait in the transport, if any, and sleeps. A `Line` says what the rounds
find: the readings of the clock and the bytes that have arrived since the round before.
-/

namespace PyVesc

variable (crc : Bytes → UInt16) (registry : Registry)

/-- One round: the clock when the loop condition is evaluated, the bytes then waiting, and the clock
when it is read for the second time. -/
structure Poll where
  check : ℚ
  chunk : Bytes
  now : ℚ
  deriving DecidableEq, Repr

/-- `time.sleep(0.01)` separates the rounds. -/
@[ext]
structure Line where
  start : ℚ
  polls : ℕ → Poll
  sleeps : ∀ k, (polls k).check + 1 / 100 ≤ (polls (k + 1)).check

/-- The line on which some bytes wait from the start and nothing else arrives. -/
def Line.burst (chunk : Bytes) : Line where
  start := 0
  polls k := ⟨k / 100, if k = 0 then chunk else [], k / 100⟩
  sleeps k := by
    push_cast
    linarith

/-- The arguments of `read`. -/
structure ReadArgs where
  timeout : ℚ
  expectString : Bool
  expectAnything : Bool
  maxWait : ℚ
  expectedMsgId : Option ℕ
  deriving DecidableEq, Repr

/-- The request of a message with a command id and otherwise the defaults of `write`. -/
def ReadArgs.expecting (id : ℕ) : ReadArgs := ⟨1 / 10, false, true, 1 / 2, some id⟩

structure ReadState where
  payload : Bytes
  matched : Option Bytes
  tQuiet : Option ℚ
  deriving DecidableEq, Repr

/-- How the loop ends: with a `return` inside it, or so that the code behind it follows. -/
inductive ReadExit where
  | returned (response : Option Response)
  | left (s : ReadState)

/-- What becomes of `match` when a frame has been extracted. -/
def keepMatch (expectedMsgId : Option ℕ) (matched : Option Bytes) (framePayload : Bytes) :
    Py (Option Bytes) :=
  match expectedMsgId with
  | none => .ok (some framePayload)
  | some expectedMsgId =>
    match framePayload with
    | [] => .error .indexError
    | msgId :: _ => .ok (if msgId.toNat = expectedMsgId then some framePayload else matched)

def unpackMatch (framePayload : Bytes) : Py (Option Response) := do
  let msg ← VESCMessage.unpack registry framePayload false
  return some (.message msg)

section Loop
variable (U : Unframer)

/-- One round that found bytes. -/
def takeChunkWith (args : ReadArgs) (s : ReadState) (chunk : Bytes) (now : ℚ) :
    Turn ReadState (Py ReadExit) :=
  let payload := s.payload ++ chunk
  if args.expectString then .next ⟨payload, s.matched, some now⟩
  else
    match drainWith U (keepMatch args.expectedMsgId) (s.matched, payload) with
    | .error e => .done (.error e)
    | .ok (matched, payload) =>
      match matched, payload with
      | some framePayload, [] => .done (.returned <$> unpackMatch registry framePayload)
      | matched, payload => .next ⟨payload, matched, some now⟩

/-- One round of the loop behind its condition. -/
def pollRoundWith (args : ReadArgs) (s : ReadState) (poll : Poll) :
    Turn ReadState (Py ReadExit) :=
  if poll.chunk ≠ [] then takeChunkWith registry U args s poll.chunk poll.now
  else if s.payload = [] ∧ args.expectAnything = false ∧ s.matched = none then
    .done (.ok (.returned none))
  else if s.tQuiet.any (fun tQuiet => decide (args.timeout < poll.now - tQuiet)) then
    .done (.ok (.left s))
  else .next s

variable (line : Line)

def readTurnWith (args : ReadArgs) (s : ℕ × ReadState) : Turn (ℕ × ReadState) (Py ReadExit) :=
  if (line.polls s.1).check < line.start + args.maxWait then
    match pollRoundWith registry U args s.2 (line.polls s.1) with
    | .next s' => .next (s.1 + 1, s')
    | .done r => .done r
  else .done (.ok (.left s.2))

/-- The hundredths of a second that are left. -/
def Line.remaining (deadline : ℚ) (k : ℕ) : ℕ := ⌈(deadline - (line.polls k).check) * 100⌉.toNat

theorem Line.remaining_succ {deadline : ℚ} {k : ℕ} (h : (line.polls k).check < deadline) :
    line.remaining deadline (k + 1) < line.remaining deadline k := by
  have hsleep := line.sleeps k
  have hpos : 0 < ⌈(deadline - (line.polls k).check) * 100⌉ := by
    apply Int.ceil_pos.mpr
    linarith
  have hle : ⌈(deadline - (line.polls (k + 1)).check) * 100⌉ ≤
      ⌈(deadline - (line.polls k).check) * 100⌉ - 1 := by
    rw [Int.ceil_le]
    push_cast
    have hceil := Int.le_ceil ((deadline - (line.polls k).check) * 100)
    linarith
  unfold remaining
  omega

def readLoopWith (args : ReadArgs) : FiniteLoop (ℕ × ReadState) (Py ReadExit) where
  turn := readTurnWith registry U line args
  measure s := line.remaining (line.start + args.maxWait) s.1
  decreases s s' h := by
    unfold readTurnWith at h
    split_ifs at h with hlt
    cases hp : pollRoundWith registry U args s.2 (line.polls s.1) with
    | next t =>
      simp only [hp] at h
      cases h
      exact line.remaining_succ hlt
    | done r => simp only [hp] at h; cases h

/-- The code behind the loop. -/
def afterLoopWith (args : ReadArgs) (s : ReadState) : Py (Option Response) :=
  if args.expectString then do
    let (response, _) ← decodeWith registry U s.payload true
    return response
  else
    match s.matched with
    | some framePayload => unpackMatch registry framePayload
    | none => .ok none

def ReadExit.resultWith (args : ReadArgs) : ReadExit → Py (Option Response)
  | .returned response => .ok response
  | .left s => afterLoopWith registry U args s

def readWith (args : ReadArgs) : Py (Option Response) := do
  let loopExit ← (readLoopWith registry U line args).exec (0, ⟨[], none, none⟩)
  loopExit.resultWith registry U args

end Loop

/-! ### Without a limit to the nested calls -/

variable (line : Line)

def takeChunk (args : ReadArgs) (s : ReadState) (chunk : Bytes) (now : ℚ) :
    Turn ReadState (Py ReadExit) :=
  takeChunkWith registry (.unlimited crc) args s chunk now

def pollRound (args : ReadArgs) (s : ReadState) (poll : Poll) : Turn ReadState (Py ReadExit) :=
  pollRoundWith registry (.unlimited crc) args s poll

def readTurn (args : ReadArgs) (s : ℕ × ReadState) : Turn (ℕ × ReadState) (Py ReadExit) :=
  readTurnWith registry (.unlimited crc) line args s

def readLoop (args : ReadArgs) : FiniteLoop (ℕ × ReadState) (Py ReadExit) :=
  readLoopWith registry (.unlimited crc) line args

def afterLoop (args : ReadArgs) (s : ReadState) : Py (Option Response) :=
  afterLoopWith registry (.unlimited crc) args s

def ReadExit.result (args : ReadArgs) (loopExit : ReadExit) : Py (Option Response) :=
  loopExit.resultWith registry (.unlimited crc) args

/-- `VESC.read` where the interpreter allows as many nested calls as a buffer needs. -/
def read (args : ReadArgs) : Py (Option Response) :=
  readWith registry (.unlimited crc) line args

/-- `VESC.read` where it allows this many to a call of `unframe`. -/
def readWithin (calls : ℕ) (args : ReadArgs) : Py (Option Response) :=
  readWith registry (.within crc calls) line args

theorem takeChunk_eq (args : ReadArgs) (s : ReadState) (chunk : Bytes) (now : ℚ) :
    takeChunk crc registry args s chunk now =
      if args.expectString then .next ⟨s.payload ++ chunk, s.matched, some now⟩
      else
        match drain crc (keepMatch args.expectedMsgId) (s.matched, s.payload ++ chunk) with
        | .error e => .done (.error e)
        | .ok (matched, payload) =>
          match matched, payload with
          | some framePayload, [] => .done (.returned <$> unpackMatch registry framePayload)
          | matched, payload => .next ⟨payload, matched, some now⟩ := rfl

theorem pollRound_eq (args : ReadArgs) (s : ReadState) (poll : Poll) :
    pollRound crc registry args s poll =
      if poll.chunk ≠ [] then takeChunk crc registry args s poll.chunk poll.now
      else if s.payload = [] ∧ args.expectAnything = false ∧ s.matched = none then
        .done (.ok (.returned none))
      else if s.tQuiet.any (fun tQuiet => decide (args.timeout < poll.now - tQuiet)) then
        .done (.ok (.left s))
      else .next s := rfl

theorem readTurn_eq (args : ReadArgs) (s : ℕ × ReadState) :
    readTurn crc registry line args s =
      if (line.polls s.1).check < line.start + args.maxWait then
        match pollRound crc registry args s.2 (line.polls s.1) with
        | .next s' => .next (s.1 + 1, s')
        | .done r => .done r
      else .done (.ok (.left s.2)) := rfl

theorem read_exec (args : ReadArgs) : read crc registry line args = (do
    let loopExit ← (readLoop crc registry line args).exec (0, ⟨[], none, none⟩)
    loopExit.result crc registry args) := rfl

/-! ### Behind a request -/

/-- What is left in the transport when `write` has read the stale bytes. -/
def discardStale {α : Type*} (waiting : List α) : List α :=
  if waiting.length ≠ 0 then waiting.drop waiting.length else waiting

/-- The line that has some bytes waiting already. -/
def Line.behind (waiting : Bytes) : Line where
  start := line.start
  polls k :=
    if k = 0 then { line.polls 0 with chunk := waiting ++ (line.polls 0).chunk } else line.polls k
  sleeps k := by
    have hsleep := line.sleeps k
    by_cases hk : k = 0
    · rw [if_pos hk, if_neg (Nat.succ_ne_zero k)]
      rwa [hk] at hsleep ⊢
    · rwa [if_neg hk, if_neg (Nat.succ_ne_zero k)]

/-- The response of `VESC.write`: `response` holds the arguments of `read` if one is expected. -/
def writeWith (U : Unframer) (line : Line) (response : Option ReadArgs) (waiting : Bytes) :
    Py (Option Response) :=
  match response with
  | some args => readWith registry U (line.behind (discardStale waiting)) args
  | none => .ok none

def write (response : Option ReadArgs) (waiting : Bytes) : Py (Option Response) :=
  writeWith registry (.unlimited crc) line response waiting

def writeWithin (calls : ℕ) (response : Option ReadArgs) (waiting : Bytes) :
    Py (Option Response) :=
  writeWith registry (.within crc calls) line response waiting

theorem discardStale_eq_nil {α : Type*} (waiting : List α) : discardStale waiting = [] := by
  unfold discardStale
  split_ifs with h
  · exact List.drop_length
  · exact List.eq_nil_of_length_eq_zero (not_not.mp h)

theorem Line.behind_nil : line.behind [] = line := by
  refine Line.ext ?_ ?_
  · rfl
  · funext k
    by_cases hk : k = 0
    · rw [hk]
      rfl
    · exact if_neg hk

/-- The bytes that waited before the request do not reach the read. -/
theorem writeWith_eq_readWith (U : Unframer) (args : ReadArgs) (waiting : Bytes) :
    writeWith registry U line (some args) waiting = readWith registry U line args := by
  rw [writeWith, discardStale_eq_nil, Line.behind_nil]

theorem write_eq_read (args : ReadArgs) (waiting : Bytes) :
    write crc registry line (some args) waiting = read crc registry line args :=
  writeWith_eq_readWith registry line (.unlimited crc) args waiting

theorem writeWithin_eq_readWithin (calls : ℕ) (args : ReadArgs) (waiting : Bytes) :
    writeWithin crc registry line calls (some args) waiting =
      readWithin crc registry line calls args :=
  writeWith_eq_readWith registry line (.within crc calls) args waiting

end PyVesc
