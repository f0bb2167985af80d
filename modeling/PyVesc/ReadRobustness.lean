import PyVesc.CallLimitedRead
import PyVesc.FixedMessages
import PyVesc.Messages

/-!
# Reading from a line that carries any bytes

A read for a class whose receive fields have fixed sizes should give a message of the class or
`None`, whatever bytes arrive. It does so unless the unframer accepts a packet without payload, or
the newest packet of the expected id that it accepts is shorter than the fields, or a buffer takes
more nested calls than the interpreter allows.
-/

namespace PyVesc

open VESCMessage

section Kept
variable (args : ReadArgs)

/-- A payload without an id byte raises when an id is expected. -/
theorem kept_empty {payloads : List Bytes} {msgId : ℕ} (hid : args.expectedMsgId = some msgId)
    (h : [] ∈ payloads) : kept args payloads = .error .indexError := by
  induction payloads using List.reverseRecOn with
  | nil => cases h
  | append_singleton payloads p ih =>
    rw [kept_append]
    by_cases hmem : [] ∈ payloads
    · rw [ih hmem]
      rfl
    · obtain h | h := List.mem_append.mp h
      · exact absurd h hmem
      · have hne : ∀ q ∈ payloads, q ≠ [] := fun q hq hnil => hmem (hnil ▸ hq)
        rw [kept_nonempty args hne, ← List.mem_singleton.mp h, hid]
        rfl

end Kept

theorem carries_cons {msgId : ℕ} {p : Bytes} (h : carries (some msgId) p = true) :
    ∃ b rest, p = b :: rest ∧ b.toNat = msgId := by
  cases p with
  | nil => cases h
  | cons b rest => exact ⟨b, rest, rfl, by simpa [carries] using h⟩

theorem carries_of_newest {expectedMsgId : Option ℕ} {payloads : List Bytes} {p : Bytes}
    (h : newest expectedMsgId payloads = some p) : carries expectedMsgId p = true :=
  (List.mem_filter.mp (List.mem_of_getLast? h)).2

variable (crc : Bytes → UInt16) (registry : Registry) (args : ReadArgs) (line : Line)

/-- The payloads that the unframer accepts while the read lasts. -/
def accepted : List Bytes :=
  (unframed crc (line.heard crc args)).1

/-- The outcome of a read that the class promises: nothing, or a message with all its fields. -/
def MessageOrNone (cls : MessageClass) (r : Py (Option Response)) : Prop :=
  r = .ok none ∨ ∃ msg, r = .ok (some (.message msg)) ∧ msg.cls = cls ∧
    ∀ field ∈ cls.recvFields.getD [], msg.Has field.name

theorem not_messageOrNone_error (cls : MessageClass) (e : PyError) :
    ¬ MessageOrNone cls (.error e) := by
  rintro (h | ⟨msg, h, _⟩) <;> cases h

/-- Without a limit to the nested calls. -/
theorem read_unlimited_iff (hs : args.expectString = false) (msgId : ℕ)
    (hid : args.expectedMsgId = some msgId) (cls : MessageClass) (fields : List Field)
    (hreg : registry.lookup msgId = some cls) (hf : cls.recvFields = some fields)
    (hfix : ∀ field ∈ fields, field.format.isS = false) :
    MessageOrNone cls (read crc registry line args) ↔
      (∀ p ∈ accepted crc args line, p ≠ []) ∧
      ∀ p, newest (some msgId) (accepted crc args line) = some p →
        1 + fixedSize fields ≤ p.length := by
  have hread := read_eq crc registry args line hs
  change _ = (do
    let matched ← kept args (accepted crc args line)
    unpackKept registry matched) at hread
  rw [hread]
  by_cases hempty : [] ∈ accepted crc args line
  · rw [kept_empty args hid hempty]
    exact iff_of_false (not_messageOrNone_error _ _) (fun h => h.1 [] hempty rfl)
  · have hall : ∀ p ∈ accepted crc args line, p ≠ [] := fun p hp h => hempty (h ▸ hp)
    rw [kept_nonempty args hall, hid]
    cases hn : newest (some msgId) (accepted crc args line) with
    | none => exact iff_of_true (Or.inl rfl) ⟨hall, fun p hp => by cases hp⟩
    | some p =>
      obtain ⟨b, rest, rfl, hb⟩ := carries_cons (carries_of_newest hn)
      have htype : msgType registry b.toNat = .ok cls := by rw [msgType, hb, hreg]
      have hunpack : VESCMessage.unpack registry (b :: rest) false =
          unpackAs cls (b :: rest) false := by
        rw [VESCMessage.unpack, htype]
        rfl
      have hfixed := unpackAs_fixed hf hfix (b :: rest)
      change MessageOrNone cls (unpackMatch registry (b :: rest)) ↔ _
      rw [unpackMatch, hunpack]
      split_ifs at hfixed with hle
      · obtain ⟨msg, hmsg, hcls, hhas⟩ := hfixed
        rw [hmsg]
        refine iff_of_true (Or.inr ⟨msg, rfl, hcls, by rwa [hf]⟩) ⟨hall, ?_⟩
        exact fun p hp => Option.some.inj hp ▸ hle
      · rw [hfixed]
        exact iff_of_false (not_messageOrNone_error _ _) (fun h => hle (h.2 _ rfl))

/-- A read for a class of fixed size gives a message of the class or `None`, exactly if the nested
calls suffice, every packet it accepts has a payload and the newest one with the expected id is as
long as the fields. -/
theorem read_messageOrNone_iff (calls : ℕ) (hs : args.expectString = false) (msgId : ℕ)
    (hid : args.expectedMsgId = some msgId) (cls : MessageClass) (fields : List Field)
    (hreg : registry.lookup msgId = some cls) (hf : cls.recvFields = some fields)
    (hfix : ∀ field ∈ fields, field.format.isS = false) :
    MessageOrNone cls (readWithin crc registry line calls args) ↔
      CallsSuffice crc calls (line.heard crc args) ∧
      (∀ p ∈ accepted crc args line, p ≠ []) ∧
      ∀ p, newest (some msgId) (accepted crc args line) = some p →
        1 + fixedSize fields ≤ p.length := by
  obtain ⟨hsuffice, hsame⟩ | ⟨hexceed, e, hraised⟩ :=
    @readWithin_cases crc calls registry args line hs
  · rw [hsame, read_unlimited_iff crc registry args line hs msgId hid cls fields hreg hf hfix]
    exact (and_iff_right hsuffice).symm
  · rw [hraised]
    exact iff_of_false (not_messageOrNone_error cls e) fun h => hexceed h.1

theorem read_messageOrNone_iff_getVersion :
    MessageOrNone Messages.getVersion (readWithin Crc16.xmodem Messages.registry
        (.burst [2, 1, 0, 0, 0, 3]) callLimit (.expecting 0)) ↔
      CallsSuffice Crc16.xmodem callLimit
        (Line.heard Crc16.xmodem (.expecting 0) (.burst [2, 1, 0, 0, 0, 3])) ∧
      (∀ p ∈ accepted Crc16.xmodem (.expecting 0) (.burst [2, 1, 0, 0, 0, 3]), p ≠ []) ∧
      ∀ p, newest (some 0)
          (accepted Crc16.xmodem (.expecting 0) (.burst [2, 1, 0, 0, 0, 3])) = some p →
        1 + fixedSize (Messages.getVersion.recvFields.getD []) ≤ p.length :=
  read_messageOrNone_iff Crc16.xmodem Messages.registry (.expecting 0) _ callLimit rfl 0 rfl
    Messages.getVersion _ rfl rfl (by decide)

theorem burst_first (chunk : Bytes) (msgId : ℕ) :
    ((Line.burst chunk).polls 0).check <
      (Line.burst chunk).start + (ReadArgs.expecting msgId).maxWait := by
  change ((0 : ℕ) / 100 : ℚ) < 0 + 1 / 2
  norm_num

/-- A packet without payload raises an `IndexError`, a packet of the expected id that is too short
raises a `struct.error`, and noise of 501 start bytes raises a `RecursionError`. -/
theorem read_raises :
    readWithin Crc16.xmodem Messages.registry (.burst [2, 0, 0, 0, 3]) callLimit (.expecting 0) =
      .error .indexError ∧
    readWithin Crc16.xmodem Messages.registry (.burst [2, 1, 0, 0, 0, 3]) callLimit
      (.expecting 0) = .error .structError ∧
    readWithin Crc16.xmodem Messages.registry (.burst (List.replicate 501 2)) callLimit
      (.expecting 0) = .error .recursionError ∧
    ¬ MessageOrNone Messages.getVersion (readWithin Crc16.xmodem Messages.registry
      (.burst [2, 0, 0, 0, 3]) callLimit (.expecting 0)) := by
  have hempty : readWithin Crc16.xmodem Messages.registry (.burst [2, 0, 0, 0, 3]) callLimit
      (.expecting 0) = .error .indexError :=
    read_first _ _ _ _ (burst_first _ 0) (r := .error .indexError) rfl
  have hshort : readWithin Crc16.xmodem Messages.registry (.burst [2, 1, 0, 0, 0, 3]) callLimit
      (.expecting 0) = .error .structError :=
    read_first _ _ _ _ (burst_first _ 0) (r := .error .structError) rfl
  refine ⟨hempty, hshort, ?_, ?_⟩
  · have hneeded : ¬ callsNeeded Crc16.xmodem (List.replicate (494 + 7) 2) ≤ callLimit := by
      rw [callsNeeded_replicate, callLimit]
      omega
    exact read_first _ _ _ _ (burst_first _ 0) (r := .error .recursionError)
      (pollRoundWithin_exhausted _ rfl (List.cons_ne_nil _ _) hneeded)
  · rw [hempty]
    exact not_messageOrNone_error _ _

end PyVesc
