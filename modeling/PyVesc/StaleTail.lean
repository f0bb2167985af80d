import PyVesc.PacketPlaces
import PyVesc.ReadRobustness

/-!
# A reply behind the rest of a stale frame

`write` drops the bytes that wait before a request, which may end inside a frame. The rest of that
frame then arrives in front of the reply. The read returns the reply if the unframer gets past the
rest within the nested calls that it has, and otherwise does not, unless another packet in these
bytes has the same message. The terminator 3 of a cut frame is itself a start byte, which can hold
up the read until its deadline.
-/

namespace PyVesc

variable (crc : Bytes → UInt16) (registry : Registry) (args : ReadArgs)

/-- The read goes on through the rounds before the last arrival, every packet it has accepted by
then has a payload, and the unframer reaches the reply that ends the bytes it then holds. -/
structure ReplyReached (r : Bytes) (before : List Poll) (last : Poll) : Prop where
  goesOn : ∀ earlier poll, earlier ++ [poll] <+: before → ¬ EndsRead crc args earlier poll
  payloads : ∀ p ∈ (unframed crc (before ++ [last])).1, p ≠ []
  unblocked : Unblocked crc r ((unframed crc before).2 ++ last.chunk)

/-- A read goes on through some of its rounds or ends in one of them. -/
theorem heard_append (earlier more polls : List Poll) :
    ((∀ between poll, between ++ [poll] <+: more →
        ¬ EndsRead crc args (earlier ++ between) poll) ∧
      heard crc args earlier (more ++ polls) = heard crc args (earlier ++ more) polls) ∨
    ∃ between poll, between ++ [poll] <+: more ∧ EndsRead crc args (earlier ++ between) poll ∧
      heard crc args earlier (more ++ polls) = earlier ++ (between ++ [poll]) := by
  induction more generalizing earlier with
  | nil =>
    refine Or.inl ⟨fun between poll h => ?_, by rw [List.nil_append, List.append_nil]⟩
    exact absurd (List.prefix_nil.mp h) (List.append_ne_nil_of_right_ne_nil _ (by simp))
  | cons poll more ih =>
    rw [List.cons_append, heard]
    by_cases hends : EndsRead crc args earlier poll
    · rw [if_pos hends]
      exact Or.inr ⟨[], poll, List.prefix_append [poll] more, by rwa [List.append_nil], rfl⟩
    · rw [if_neg hends]
      obtain ⟨hgo, hheard⟩ | ⟨between, next, hpre, hnext, hheard⟩ := ih (earlier ++ [poll])
      · refine Or.inl ⟨?_, by rw [hheard, List.append_assoc]; rfl⟩
        intro between next hpre
        cases between with
        | nil =>
          have heq : next = poll := (List.cons_prefix_cons.mp hpre).1
          rwa [List.append_nil, heq]
        | cons q between =>
          obtain ⟨rfl, htail⟩ := List.cons_prefix_cons.mp hpre
          have hlater := hgo between next htail
          rwa [List.append_assoc] at hlater
      · rw [List.append_assoc] at hnext hheard
        exact Or.inr ⟨poll :: between, next, List.cons_prefix_cons.mpr ⟨rfl, hpre⟩, hnext, hheard⟩

/-- Rounds that find nothing add nothing, whether they are made or not. -/
theorem unframed_heard_idle (polls idle : List Poll) (h : ∀ poll ∈ idle, poll.chunk = []) :
    unframed crc (heard crc args polls idle) = unframed crc polls := by
  induction idle generalizing polls with
  | nil => rfl
  | cons poll idle ih =>
    have hpoll := unframed_append_nil crc (h poll List.mem_cons_self) polls
    rw [heard]
    split_ifs
    · exact hpoll
    · rw [ih _ (fun q hq => h q (List.mem_cons_of_mem poll hq)), hpoll]

/-- Rounds that find nothing take no calls. -/
theorem callsSuffice_heard_idle {calls : ℕ} {polls idle : List Poll}
    (hpolls : CallsSuffice crc calls polls) (h : ∀ poll ∈ idle, poll.chunk = []) :
    CallsSuffice crc calls (heard crc args polls idle) := by
  induction idle generalizing polls with
  | nil => exact hpolls
  | cons poll idle ih =>
    have hmore : CallsSuffice crc calls (polls ++ [poll]) :=
      hpolls.append fun hchunk => absurd (h poll List.mem_cons_self) hchunk
    rw [heard]
    split_ifs
    · exact hmore
    · exact ih hmore (fun q hq => h q (List.mem_cons_of_mem poll hq))

variable (line : Line)

/-- What a read accepts if nothing comes after the round `last`. -/
theorem accepted_cases {before idle : List Poll} {last : Poll}
    (hpolls : line.pollsBefore (line.start + args.maxWait) = before ++ last :: idle)
    (hidle : ∀ poll ∈ idle, poll.chunk = []) :
    ((∀ earlier poll, earlier ++ [poll] <+: before → ¬ EndsRead crc args earlier poll) ∧
      accepted crc args line = (unframed crc (before ++ [last])).1) ∨
    ((∃ earlier poll, earlier ++ [poll] <+: before ∧ EndsRead crc args earlier poll) ∧
      accepted crc args line <+: (unframed crc before).1) := by
  rw [accepted, Line.heard, hpolls]
  obtain ⟨hgo, hheard⟩ | ⟨earlier, poll, hpre, hends, hheard⟩ :=
    heard_append crc args [] before (last :: idle)
  · refine Or.inl ⟨hgo, ?_⟩
    rw [hheard, List.nil_append, heard]
    split_ifs
    · rfl
    · rw [unframed_heard_idle crc args _ _ hidle]
  · refine Or.inr ⟨⟨earlier, poll, hpre, hends⟩, ?_⟩
    rw [hheard, List.nil_append]
    exact unframed_isPrefix crc hpre

theorem read_eq_accepted (hs : args.expectString = false) :
    read crc registry line args = (do
      let matched ← kept args (accepted crc args line)
      unpackKept registry matched) := read_eq crc registry args line hs

/-- A payload accepted before the last arrival lies elsewhere than the reply. -/
theorem elsewhere_of_before {r p : Bytes} (hr : IsPacket crc r p) {tail b t q : Bytes}
    (hb : b ++ t = tail ++ r) (ht : t ≠ []) {i : ℕ} (hl : Located crc b q i) :
    i ≠ tail.length := by
  rintro rfl
  obtain ⟨h, n, hp, _⟩ := hl
  obtain ⟨hr', nr, hpr, hend⟩ := hr.packetAt crc tail
  have hp' := hp.append crc t
  rw [hb] at hp'
  obtain ⟨rfl, rfl⟩ := HeadPacket.unique crc hpr hp'
  have hle := hp.le_length
  have hpos := List.length_pos_iff.mpr ht
  rw [← hb, List.length_append] at hend
  omega

/-- A payload accepted from the bytes of the last arrival lies elsewhere than the reply, unless the
reply is reached. -/
theorem unblocked_or_elsewhere_last {r p : Bytes} (hr : IsPacket crc r p) {tail t x : Bytes}
    (hx : t ++ x = tail ++ r) : Unblocked crc r x ∨
      ∀ q ∈ ((unframeScanner crc).drain x).1, ∃ i, i ≠ tail.length ∧
        Located crc (tail ++ r) q i := by
  have hshift {q : Bytes} {i : ℕ} (hl : Located crc x q i) :
      Located crc (tail ++ r) q (t.length + i) := by
    apply Located.of_drop
    rwa [← hx, List.drop_left]
  by_cases hle : t.length ≤ tail.length
  · have htail : tail = t ++ tail.drop t.length := by
      have hpre : t <+: tail := List.prefix_of_prefix_length_le ⟨x, hx⟩ ⟨r, rfl⟩ hle
      obtain ⟨u, rfl⟩ := hpre
      rw [List.drop_left]
    have hxr : x = tail.drop t.length ++ r := by
      rw [htail, List.append_assoc] at hx
      exact List.append_cancel_left hx
    have hlen : (tail.drop t.length).length = tail.length - t.length := List.length_drop
    obtain hu | helse := unblocked_or_elsewhere crc hr (tail.drop t.length)
    · exact Or.inl (hxr ▸ hu)
    · rw [← hxr] at helse
      refine Or.inr ?_
      intro q hq
      obtain ⟨i, hi, hl⟩ := helse q hq
      exact ⟨_, by omega, hshift hl⟩
  · refine Or.inr ?_
    intro q hq
    obtain ⟨i, hl⟩ := located_drain crc x q hq
    exact ⟨_, by omega, hshift hl⟩

variable {before idle : List Poll} {last : Poll}

theorem reply_of_reached (hs : args.expectString = false) {msgId : ℕ}
    (hid : args.expectedMsgId = some msgId) {r reply : Bytes} (hr : IsPacket crc r reply)
    (hcarries : carries (some msgId) reply = true)
    (hpolls : line.pollsBefore (line.start + args.maxWait) = before ++ last :: idle)
    (hidle : ∀ poll ∈ idle, poll.chunk = []) (hreach : ReplyReached crc args r before last) :
    read crc registry line args = unpackMatch registry reply := by
  obtain ⟨ps, hps⟩ := drain_unblocked crc hr hreach.unblocked
  obtain ⟨_, haccepted⟩ | ⟨⟨earlier, poll, hpre, hends⟩, _⟩ :=
    accepted_cases crc args line hpolls hidle
  · have hnonempty : ∀ p ∈ accepted crc args line, p ≠ [] := by
      rw [haccepted]
      exact hreach.payloads
    have hnewest : newest (some msgId) (accepted crc args line) = some reply := by
      rw [haccepted, unframed_append, hps, ← List.append_assoc, newest, List.filter_append]
      simp [hcarries]
    rw [read_eq_accepted crc registry args line hs, kept_nonempty args hnonempty, hid,
      hnewest]
    rfl
  · exact absurd hends (hreach.goesOn earlier poll hpre)

theorem reached_of_reply (hs : args.expectString = false) {msgId : ℕ}
    (hid : args.expectedMsgId = some msgId) {tail r reply : Bytes} (hr : IsPacket crc r reply)
    (hpolls : line.pollsBefore (line.start + args.maxWait) = before ++ last :: idle)
    (hlast : last.chunk ≠ []) (hidle : ∀ poll ∈ idle, poll.chunk = [])
    (hbytes : ((before ++ [last]).map Poll.chunk).flatten = tail ++ r) {msg : Message}
    (hread : read crc registry line args = .ok (some (.message msg))) :
    ReplyReached crc args r before last ∨ ∃ i q, i ≠ tail.length ∧
      Located crc (tail ++ r) q i ∧ VESCMessage.unpack registry q false = .ok msg := by
  rw [read_eq_accepted crc registry args line hs] at hread
  obtain ⟨matched, hkept, hunpack⟩ := bind_eq_ok hread
  have hnonempty : ∀ p ∈ accepted crc args line, p ≠ [] := by
    rintro p hp rfl
    rw [kept_empty args hid hp] at hkept
    cases hkept
  obtain ⟨q, hq, hmsg⟩ : ∃ q ∈ accepted crc args line,
      VESCMessage.unpack registry q false = .ok msg := by
    rw [kept_nonempty args hnonempty, hid] at hkept
    cases hn : newest (some msgId) (accepted crc args line) with
    | none =>
      rw [hn] at hkept
      cases hkept
      cases hunpack
    | some q =>
      rw [hn] at hkept
      cases hkept
      obtain ⟨found, hfound, hsame⟩ := bind_eq_ok hunpack
      cases hsame
      exact ⟨q, (List.mem_filter.mp (List.mem_of_getLast? hn)).1, hfound⟩
  rw [List.map_append, List.flatten_append, List.map_singleton, List.flatten_singleton] at hbytes
  have hbefore (hmem : q ∈ (unframed crc before).1) : ∃ i q, i ≠ tail.length ∧
      Located crc (tail ++ r) q i ∧ VESCMessage.unpack registry q false = .ok msg := by
    obtain ⟨i, hl⟩ := located_receive crc _ q hmem
    refine ⟨i, q, elsewhere_of_before crc hr hbytes hlast hl, ?_, hmsg⟩
    rw [← hbytes]
    exact hl.append crc last.chunk
  obtain ⟨hgo, haccepted⟩ | ⟨_, hpre⟩ := accepted_cases crc args line hpolls hidle
  · rw [haccepted, unframed_append] at hq
    obtain hq | hq := List.mem_append.mp hq
    · exact Or.inr (hbefore hq)
    · obtain ⟨t, ht⟩ := (unframeScanner crc).receive_snd_isSuffix (before.map Poll.chunk)
      rw [← ht, List.append_assoc] at hbytes
      obtain hu | helse := unblocked_or_elsewhere_last crc hr hbytes
      · refine Or.inl ⟨hgo, ?_, hu⟩
        rw [← haccepted]
        exact hnonempty
      · obtain ⟨i, hi, hl⟩ := helse q hq
        exact Or.inr ⟨i, q, hi, hl, hmsg⟩
  · exact Or.inr (hbefore (hpre.subset hq))

/-- A read that goes on up to the last arrival needs the calls of the rounds up to it. -/
theorem callsSuffice_heard_iff (calls : ℕ)
    (hpolls : line.pollsBefore (line.start + args.maxWait) = before ++ last :: idle)
    (hidle : ∀ poll ∈ idle, poll.chunk = [])
    (hgo : ∀ earlier poll, earlier ++ [poll] <+: before → ¬ EndsRead crc args earlier poll) :
    CallsSuffice crc calls (line.heard crc args) ↔ CallsSuffice crc calls (before ++ [last]) := by
  obtain ⟨_, hheard⟩ | ⟨earlier, poll, hpre, hends, _⟩ :=
    heard_append crc args [] before (last :: idle)
  · rw [Line.heard, hpolls, hheard, List.nil_append]
    constructor
    · exact fun h => h.mono (prefix_heard_cons before last idle)
    · intro h
      rw [heard]
      split_ifs
      · exact h
      · exact callsSuffice_heard_idle crc args h hidle
  · exact absurd hends (hgo earlier poll hpre)

/-- The rest of some bytes `s` and then the reply arrive, in whatever pieces, and nothing after
them. The request returns the message of the reply if the reply is reached and the nested calls
suffice, and only if so or if another packet in these bytes has the same message. -/
theorem write_returns_reply (calls : ℕ) (hs : args.expectString = false) (msgId : ℕ)
    (hid : args.expectedMsgId = some msgId) (s : Bytes) (k : ℕ) (reply r : Bytes)
    (hr : frame crc reply = .ok r) (hcarries : carries (some msgId) reply = true) (msg : Message)
    (hmsg : VESCMessage.unpack registry reply false = .ok msg) (before idle : List Poll)
    (last : Poll)
    (hpolls : line.pollsBefore (line.start + args.maxWait) = before ++ last :: idle)
    (hlast : last.chunk ≠ []) (hidle : ∀ poll ∈ idle, poll.chunk = [])
    (hbytes : ((before ++ [last]).map Poll.chunk).flatten = s.drop k ++ r) :
    (ReplyReached crc args r before last ∧ CallsSuffice crc calls (before ++ [last]) →
      writeWithin crc registry line calls (some args) (s.take k) =
        .ok (some (.message msg))) ∧
    (writeWithin crc registry line calls (some args) (s.take k) = .ok (some (.message msg)) →
      ReplyReached crc args r before last ∧ CallsSuffice crc calls (before ++ [last]) ∨
        ∃ i q, i ≠ (s.drop k).length ∧ Located crc (s.drop k ++ r) q i ∧
          VESCMessage.unpack registry q false = .ok msg) := by
  obtain ⟨hframable, rfl⟩ := (frame_ok_iff crc).mp hr
  have hpacket := isPacket_frameBytes crc hframable.2
  have hcalls := callsSuffice_heard_iff crc args line calls hpolls hidle
  rw [writeWithin_eq_readWithin]
  obtain ⟨hsuffice, hsame⟩ | ⟨hexceed, e, hraised⟩ :=
    @readWithin_cases crc calls registry args line hs
  · rw [hsame]
    constructor
    · rintro ⟨hreach, _⟩
      rw [reply_of_reached crc registry args line hs hid hpacket hcarries hpolls hidle hreach,
        unpackMatch, hmsg]
      rfl
    · intro hread
      obtain hreach | hother :=
        reached_of_reply crc registry args line hs hid hpacket hpolls hlast hidle hbytes hread
      · exact Or.inl ⟨hreach, (hcalls hreach.goesOn).mp hsuffice⟩
      · exact Or.inr hother
  · rw [hraised]
    constructor
    · rintro ⟨hreach, hsuffice⟩
      exact absurd ((hcalls hreach.goesOn).mpr hsuffice) hexceed
    · intro hread
      cases hread

theorem stream_append_singleton (foreign : List (Bytes × Bytes)) (r reply : Bytes) :
    Scanner.stream (foreign ++ [(r, reply)]) = Scanner.stream foreign ++ r := by
  rw [Scanner.stream_append, Scanner.stream_cons, Scanner.stream_nil, List.append_nil]

/-- What has been found before the last arrival, when whole packets come in front of another. -/
theorem unframed_behind_packets {r reply : Bytes} {foreign : List (Bytes × Bytes)}
    (hws : ∀ w ∈ foreign ++ [(r, reply)], IsPacket crc w.1 w.2) {polls : List Poll} {t : Bytes}
    (ht : t ≠ []) (hbytes : (polls.map Poll.chunk).flatten ++ t = Scanner.stream foreign ++ r) :
    ∃ found rest, foreign = found ++ rest ∧ (unframed crc polls).1 = Scanner.values found ∧
      (unframed crc polls).2 ++ t = Scanner.stream rest ++ r := by
  have hstream := stream_append_singleton foreign r reply
  obtain ⟨found, rest, hsplit, hbuf, hfound, hpart⟩ := Scanner.received_receive
    (reads_isPacket crc) hws (polls.map Poll.chunk) (by rw [hstream, ← hbytes]; exact ⟨t, rfl⟩)
  cases rest using List.reverseRecOn with
  | nil =>
    rw [List.append_nil] at hsplit
    have hlen := congrArg List.length hbytes
    have hpos := List.length_pos_iff.mpr ht
    rw [hbuf, ← hsplit, hstream] at hlen
    simp only [List.length_append] at hlen
    omega
  | append_singleton rest w =>
    rw [← List.append_assoc] at hsplit
    obtain ⟨rfl, _⟩ := List.append_inj' hsplit rfl
    refine ⟨found, rest, rfl, hfound, ?_⟩
    rw [hbuf, Scanner.stream_append, List.append_assoc, List.append_assoc] at hbytes
    exact List.append_cancel_left hbytes

theorem newest_eq_none {msgId : Option ℕ} {payloads : List Bytes}
    (h : ∀ p ∈ payloads, carries msgId p = false) : newest msgId payloads = none := by
  have hnil : payloads.filter (carries msgId) = [] := by
    rw [List.filter_eq_nil_iff]
    intro p hp
    rw [h p hp]
    decide
  rw [newest, hnil]
  rfl

/-- Where the cut is at the end of a frame, the reply is reached however the bytes are split: whole
frames of other messages in front of it do no harm while the line is not quiet for too long. No
call of `unframe` needs a nested one then. -/
theorem reached_behind_packets {r reply : Bytes} (hr : IsPacket crc r reply) (hne : reply ≠ [])
    {foreign : List (Bytes × Bytes)} (hforeign : ∀ w ∈ foreign, IsPacket crc w.1 w.2 ∧ w.2 ≠ [] ∧
      carries args.expectedMsgId w.2 = false)
    (hany : args.expectAnything = true) (hlast : last.chunk ≠ [])
    (hbytes : ((before ++ [last]).map Poll.chunk).flatten = Scanner.stream foreign ++ r)
    (hquiet : ∀ earlier poll, earlier ++ [poll] <+: before → poll.chunk = [] →
      ¬ (lastArrival earlier).any (fun tQuiet => args.timeout < poll.now - tQuiet)) :
    ReplyReached crc args r before last ∧ CallsSuffice crc 1 (before ++ [last]) := by
  have hall : ∀ w ∈ foreign ++ [(r, reply)], IsPacket crc w.1 w.2 ∧ w.2 ≠ [] := by
    intro w hw
    obtain hw | hw := List.mem_append.mp hw
    · exact ⟨(hforeign w hw).1, (hforeign w hw).2.1⟩
    · rw [List.mem_singleton.mp hw]
      exact ⟨hr, hne⟩
  have hpackets : ∀ w ∈ foreign ++ [(r, reply)], IsPacket crc w.1 w.2 := fun w hw => (hall w hw).1
  have hwhole := Scanner.receive_packets (reads_isPacket crc) hpackets
    ((before ++ [last]).map Poll.chunk) (by rw [hbytes, stream_append_singleton])
  have hcalls : CallsSuffice crc 1 (before ++ [last]) :=
    callsSuffice_packets hpackets (by rw [hbytes, stream_append_singleton]) (Nat.le_refl 1)
  rw [List.map_append, List.flatten_append, List.map_singleton, List.flatten_singleton] at hbytes
  have hnone {polls : List Poll} {t : Bytes} (ht : t ≠ [])
      (h : (polls.map Poll.chunk).flatten ++ t = Scanner.stream foreign ++ r) :
      newest args.expectedMsgId (unframed crc polls).1 = none := by
    obtain ⟨found, rest, rfl, hfound, _⟩ := unframed_behind_packets crc hpackets ht h
    apply newest_eq_none
    intro p hp
    rw [hfound] at hp
    obtain ⟨w, hw, rfl⟩ := List.mem_map.mp hp
    exact (hforeign w (List.mem_append_left rest hw)).2.2
  refine ⟨⟨?_, ?_, ?_⟩, hcalls⟩
  · intro earlier poll hpre hends
    obtain ⟨later, rfl⟩ := hpre
    rw [EndsRead] at hends
    split_ifs at hends with hchunk
    · refine hends.1 (hnone (t := (later.map Poll.chunk).flatten ++ last.chunk) ?_ ?_)
      · exact List.append_ne_nil_of_right_ne_nil _ hlast
      · rw [← List.append_assoc, ← List.flatten_append, ← List.map_append]
        exact hbytes
    · obtain ⟨_, hprobe, _⟩ | hend := hends
      · rw [hany] at hprobe
        cases hprobe
      · exact hquiet earlier poll (List.prefix_append _ _) (not_not.mp hchunk) hend
  · intro p hp
    rw [unframed, hwhole] at hp
    obtain ⟨w, hw, rfl⟩ := List.mem_map.mp hp
    exact (hall w hw).2
  · obtain ⟨found, rest, rfl, _, hrest⟩ := unframed_behind_packets crc hpackets hlast hbytes
    rw [hrest]
    exact unblocked_stream crc hr rest (fun w hw => (hforeign w (List.mem_append_right found hw)).1)

/-- The rounds of a read on a line with one burst, behind the first. -/
def burstIdle (chunk : Bytes) (msgId : ℕ) : List Poll :=
  ((Line.burst chunk).pollsBefore
    ((Line.burst chunk).start + (ReadArgs.expecting msgId).maxWait)).tail

theorem burst_polls (chunk : Bytes) (msgId : ℕ) :
    (Line.burst chunk).pollsBefore
        ((Line.burst chunk).start + (ReadArgs.expecting msgId).maxWait) =
      [] ++ (Line.burst chunk).polls 0 :: burstIdle chunk msgId :=
  ((Line.burst chunk).pollsBefore_eq (burst_first chunk msgId)).1

theorem burst_idle (chunk : Bytes) (msgId : ℕ) :
    ∀ poll ∈ burstIdle chunk msgId, poll.chunk = [] := by
  intro poll hpoll
  obtain ⟨k, rfl⟩ := ((Line.burst chunk).pollsBefore_eq (burst_first chunk msgId)).2 poll hpoll
  rfl

/-- The frame of a version reply 5.3, and that of a version reply 6.2. -/
def version53Frame : Bytes := [2, 3, 0, 5, 3, 207, 150, 3]

def version62Frame : Bytes := [2, 3, 0, 6, 2, 138, 228, 3]

def version62 : Message :=
  ⟨Messages.getVersion, none, [("fw_version_minor", .int 2), ("fw_version_major", .int 6)]⟩

/-- The rest of the stale frame in front of the reply, in one burst. -/
def tailAndReply (k : ℕ) : Bytes := version53Frame.drop k ++ version62Frame

theorem callsSuffice_tailAndReply (k : ℕ) :
    CallsSuffice Crc16.xmodem callLimit ([] ++ [(Line.burst (tailAndReply k)).polls 0]) := by
  apply callsSuffice_of_length
  have hlen : (tailAndReply k).length = 8 - k + 8 := by
    rw [tailAndReply, List.length_append, List.length_drop]
    rfl
  change 2 * ((tailAndReply k ++ []).length - 1) + 2 ≤ callLimit
  rw [List.append_nil, hlen, callLimit]
  omega

/-- The last three bytes of the stale frame, its terminator among them, do no harm: the unframer
searches behind the first of them and finds the reply. -/
theorem replyReached_tail :
    ReplyReached Crc16.xmodem (.expecting 0) version62Frame []
      ((Line.burst (tailAndReply 5)).polls 0) := by
  refine ⟨?_, ?_, ?_⟩
  · intro earlier poll hpre
    exact absurd (List.prefix_nil.mp hpre) (by simp)
  · decide +kernel
  · refine Unblocked.reply [207, 150, 3] (by decide +kernel) ?_
    have hnone : ∀ i < 3, ¬ HasPacket Crc16.xmodem (([207, 150, 3] ++ version62Frame).drop i) := by
      decide +kernel
    intro i h n hi hp
    exact hnone i hi (hasPacket_iff.mpr ⟨h, n, hp⟩)

theorem write_returns_reply_version :
    ReplyReached Crc16.xmodem (.expecting 0) version62Frame []
      ((Line.burst (tailAndReply 5)).polls 0) ∧
    (version53Frame.drop 5).length = 3 ∧
    writeWithin Crc16.xmodem Messages.registry (.burst (tailAndReply 5)) callLimit
      (some (.expecting 0)) (version53Frame.take 5) = .ok (some (.message version62)) :=
  ⟨replyReached_tail, rfl,
    (write_returns_reply Crc16.xmodem Messages.registry (.expecting 0) (.burst (tailAndReply 5))
      callLimit rfl 0 rfl version53Frame 5 [0, 6, 2] version62Frame (by decide +kernel) rfl
      version62 rfl [] (burstIdle (tailAndReply 5) 0) _ (burst_polls _ 0) (by decide)
      (burst_idle _ 0) rfl).1 ⟨replyReached_tail, callsSuffice_tailAndReply 5⟩⟩

/-- All but the terminator of a stale frame is dropped. The terminator in front of the reply is
taken for the header of a long packet, and the request gives `None`. -/
theorem write_loses_reply :
    frame Crc16.xmodem [0, 5, 3] = .ok version53Frame ∧
    frame Crc16.xmodem [0, 6, 2] = .ok version62Frame ∧
    VESCMessage.unpack Messages.registry [0, 6, 2] false = .ok version62 ∧
    ((Line.burst (tailAndReply 7)).polls 0).chunk = version53Frame.drop 7 ++ version62Frame ∧
    writeWithin Crc16.xmodem Messages.registry (.burst (tailAndReply 7)) callLimit
      (some (.expecting 0)) (version53Frame.take 7) = .ok none := by
  refine ⟨by decide +kernel, by decide +kernel, rfl, rfl, ?_⟩
  have hnone : accepted Crc16.xmodem (.expecting 0) (.burst (tailAndReply 7)) = [] := by
    obtain ⟨_, haccepted⟩ | ⟨⟨earlier, poll, hpre, _⟩, _⟩ :=
      accepted_cases Crc16.xmodem (.expecting 0) (.burst (tailAndReply 7)) (burst_polls _ 0)
        (burst_idle _ 0)
    · rw [haccepted]
      rfl
    · exact absurd (List.prefix_nil.mp hpre) (by simp)
  have hgo : ∀ earlier poll, earlier ++ [poll] <+: [] →
      ¬ EndsRead Crc16.xmodem (.expecting 0) earlier poll := by
    intro earlier poll hpre
    exact absurd (List.prefix_nil.mp hpre) (by simp)
  rw [writeWithin_eq_readWithin]
  obtain ⟨_, hsame⟩ | ⟨hexceed, _⟩ := @readWithin_cases Crc16.xmodem callLimit Messages.registry
    (.expecting 0) (.burst (tailAndReply 7)) rfl
  · rw [hsame, read_eq_accepted _ _ _ _ rfl, hnone]
    rfl
  · exact absurd ((callsSuffice_heard_iff _ _ _ callLimit (burst_polls _ 0) (burst_idle _ 0)
      hgo).mpr (callsSuffice_tailAndReply 7)) hexceed

end PyVesc
