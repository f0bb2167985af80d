import PyVesc.SerialLink
import PyVesc.Messages

/-!
# Requests that are answered by their own replies

The reader tells frames apart by their command id alone. While a call lasts, the bytes it holds,
those that wait and those on their way are together a stream of whole frames, and its match is the
newest reply with the expected id among the frames it has taken in; if that is its own reply when
the read ends, a message that it returns is such a reply.
-/

namespace PyVesc

variable {crc : Bytes → UInt16} {registry : Registry}

/-! ### Bytes on the line -/

theorem value_lineBytes (n : ℕ) (bs : Bytes) : (lineBytes n bs).map LineByte.value = bs := by
  induction bs with
  | nil => rfl
  | cons b bs ih => rw [lineBytes, List.map_cons, ih]

theorem ends_lineBytes (n : ℕ) {bs : Bytes} (h : bs ≠ []) :
    (lineBytes n bs).filterMap LineByte.ends = [n] := by
  induction bs with
  | nil => exact absurd rfl h
  | cons b bs ih =>
    by_cases hbs : bs = []
    · subst hbs
      rfl
    · rw [lineBytes, if_neg hbs, List.filterMap_cons_none rfl]
      exact ih hbs

theorem ends_mem_lineBytes {n m : ℕ} {bs : Bytes} {b : LineByte} (hb : b ∈ lineBytes n bs)
    (hm : b.ends = some m) : m = n := by
  have hmem := List.mem_filterMap.mpr ⟨b, hb, hm⟩
  rw [ends_lineBytes n (by rintro rfl; cases hb)] at hmem
  exact List.mem_singleton.mp hmem

theorem getLast?_lineBytes (n : ℕ) {bs : Bytes} (h : bs ≠ []) :
    ∃ b, (lineBytes n bs).getLast? = some b ∧ b.ends = some n := by
  induction bs with
  | nil => exact absurd rfl h
  | cons b bs ih =>
    by_cases hbs : bs = []
    · subst hbs
      exact ⟨_, rfl, rfl⟩
    · obtain ⟨c, hc, hends⟩ := ih hbs
      refine ⟨c, ?_, hends⟩
      rw [lineBytes, List.getLast?_cons, hc]
      rfl

/-- The beginning of a frame, short of its end, ends no reply. -/
theorem ends_short {n : ℕ} {bs : Bytes} {u : List LineByte} (hu : u <+: lineBytes n bs)
    (hne : u ≠ lineBytes n bs) : ∀ b ∈ u, b.ends = none := by
  induction bs generalizing u with
  | nil => exact absurd (List.prefix_nil.mp hu) hne
  | cons b bs ih =>
    cases u with
    | nil => exact fun c hc => absurd hc List.not_mem_nil
    | cons x u =>
      rw [lineBytes, List.cons_prefix_cons] at hu
      obtain ⟨rfl, hu⟩ := hu
      have hshort : u ≠ lineBytes n bs := by
        rintro rfl
        exact hne rfl
      have hbs : bs ≠ [] := by
        rintro rfl
        exact hshort (List.prefix_nil.mp hu)
      intro c hc
      obtain rfl | hc := List.mem_cons.mp hc
      · exact if_neg hbs
      · exact ih hu hshort c hc

namespace SerialLink

variable {S : Session} {s : SerialLink}

theorem onLine_append (ms more : List ℕ) :
    onLine crc S (ms ++ more) = onLine crc S ms ++ onLine crc S more := List.map_append

theorem frameBytes_ne_nil (crc : Bytes → UInt16) (p : Bytes) : frameBytes crc p ≠ [] := by
  simp [frameBytes]

theorem value_onLine (ms : List ℕ) : (Scanner.stream (onLine crc S ms)).map LineByte.value =
    Scanner.stream (framed crc (ms.map S.reply)) := by
  induction ms with
  | nil => rfl
  | cons m ms ih =>
    rw [onLine, List.map_cons, Scanner.stream_cons, List.map_append, value_lineBytes]
    exact congrArg _ ih

theorem ends_onLine (ms : List ℕ) :
    (Scanner.stream (onLine crc S ms)).filterMap LineByte.ends = ms := by
  induction ms with
  | nil => rfl
  | cons m ms ih =>
    rw [onLine, List.map_cons, Scanner.stream_cons, List.filterMap_append,
      ends_lineBytes m (frameBytes_ne_nil crc _)]
    exact congrArg _ ih

variable (crc S) in
theorem exists_ends_of_mem {ms : List ℕ} {m : ℕ} (hm : m ∈ ms) :
    ∃ b ∈ Scanner.stream (onLine crc S ms), b.ends = some m := by
  rw [← @ends_onLine crc S ms] at hm
  exact List.mem_filterMap.mp hm

/-- The last byte of whole replies ends one. -/
theorem getLast?_onLine {ms : List ℕ} {b : LineByte}
    (h : (Scanner.stream (onLine crc S ms)).getLast? = some b) : b.ends ≠ none := by
  induction ms using List.reverseRecOn with
  | nil => cases h
  | append_singleton ms m =>
    obtain ⟨c, hc, hends⟩ := getLast?_lineBytes m (frameBytes_ne_nil crc (S.reply m))
    have hstream : Scanner.stream (onLine crc S [m]) = lineBytes m (frameBytes crc (S.reply m)) :=
      List.append_nil _
    rw [onLine_append, Scanner.stream_append, hstream, List.getLast?_append, hc, Option.some_or]
      at h
    cases h
    rw [hends]
    exact Option.some_ne_none m

/-- A beginning of the line is some whole replies and a beginning of the next. -/
theorem onLine_split {ms : List ℕ} {bytes : List LineByte}
    (h : bytes <+: Scanner.stream (onLine crc S ms)) :
    ∃ done rest u, ms = done ++ rest ∧ bytes = Scanner.stream (onLine crc S done) ++ u ∧
      (∀ b ∈ u, b.ends = none) ∧
      Scanner.Partial (framed crc (rest.map S.reply)) (u.map LineByte.value) := by
  obtain ⟨done', rest', u, heq, hbytes, hpart⟩ := Scanner.prefix_stream_split _ h
  obtain ⟨done, rest, rfl, rfl, rfl⟩ := List.map_eq_append_iff.mp heq
  refine ⟨done, rest, u, rfl, hbytes, ?_⟩
  obtain rfl | ⟨w, more, hrest, hu, hne⟩ := hpart
  · exact ⟨fun b hb => absurd hb List.not_mem_nil, Or.inl rfl⟩
  · obtain ⟨m, ms, rfl, rfl, rfl⟩ := List.map_eq_cons_iff.mp hrest
    have hvalue := value_lineBytes m (frameBytes crc (S.reply m))
    have hpre := hu.map LineByte.value
    rw [hvalue] at hpre
    refine ⟨ends_short hu hne, Or.inr ⟨_, _, rfl, hpre, fun hsame => hne ?_⟩⟩
    apply hu.eq_of_length
    rw [← List.length_map LineByte.value, hsame, ← List.length_map LineByte.value, hvalue]

/-! ### A call -/

variable (crc S) in
/-- The call `n` is under way: it has taken in the replies `done` and the beginning `held` of the
next one, and the replies `rest` are still to come or under way. -/
structure Current (s : SerialLink) (n : ℕ) (buf : Bytes) (matched : Option Bytes)
    (done rest : List ℕ) (held : List LineByte) : Prop where
  taken : s.taken = Scanner.stream (onLine crc S done) ++ held
  short : ∀ b ∈ held, b.ends = none
  holds : held.map LineByte.value = buf
  stream : held ++ (s.waiting ++ s.transit) = Scanner.stream (onLine crc S rest)
  matched : kept (S.args n) (done.map S.reply) = .ok matched

variable (S) in
/-- A reply on the line has been sent by the device. -/
def Sent (s : SerialLink) : Prop :=
  ∀ b ∈ s.taken ++ (s.waiting ++ s.transit), ∀ m, b.ends = some m →
    Framable (S.reply m) ∧ m ∈ s.answered

variable (crc registry S) in
structure Inv (s : SerialLink) : Prop where
  sent : Sent S s
  returned : ∀ n response, (n, .ok (some response)) ∈ s.returned →
    n ∈ s.answered ∧ unpackMatch registry (S.reply n) = .ok (some response)
  current : ∀ n buf matched, s.stage.view = some (n, buf, matched) →
    ∃ done rest held, Current crc S s n buf matched done rest held

theorem inv_initial : Inv crc registry S initial :=
  ⟨fun b h => absurd h List.not_mem_nil, fun n response h => absurd h List.not_mem_nil,
    fun n buf matched h => by cases h⟩

theorem Sent.framable (crc : Bytes → UInt16) (h : Sent S s) {ms : List ℕ}
    (hms : ∀ b ∈ Scanner.stream (onLine crc S ms), b ∈ s.taken ++ (s.waiting ++ s.transit)) :
    ∀ p ∈ ms.map S.reply, Framable p := by
  intro p hp
  obtain ⟨m, hm, rfl⟩ := List.mem_map.mp hp
  obtain ⟨b, hb, hends⟩ := exists_ends_of_mem crc S hm
  exact (h b (hms b hb) m hends).1

theorem newest_replies (n : ℕ) (ms : List ℕ) : newest (some (S.msgId n)) (ms.map S.reply) =
    ((ms.filter (Answers S n ·)).getLast?).map S.reply := by
  have hfilter : ms.filter (carries (some (S.msgId n)) ∘ S.reply) = ms.filter (Answers S n ·) :=
    List.filter_congr fun m _ => Bool.decide_eq_true.symm
  rw [newest, List.filter_map, List.getLast?_map, hfilter]

variable {n : ℕ} {buf : Bytes} {matched : Option Bytes} {done rest : List ℕ} {held : List LineByte}

theorem Current.of_eq {t : SerialLink} (h : Current crc S s n buf matched done rest held)
    (htaken : t.taken = s.taken) (hline : t.waiting ++ t.transit = s.waiting ++ s.transit) :
    Current crc S t n buf matched done rest held := by
  refine ⟨?_, h.short, h.holds, ?_, h.matched⟩
  · rw [htaken, h.taken]
  · rw [hline, h.stream]

theorem Current.ends_taken (h : Current crc S s n buf matched done rest held) :
    s.taken.filterMap LineByte.ends = done := by
  rw [h.taken, List.filterMap_append, ends_onLine, List.filterMap_eq_nil_iff.mpr h.short,
    List.append_nil]

/-- What a read makes of its match when it ends. -/
theorem Current.result (h : Current crc S s n buf matched done rest held) (hsent : Sent S s)
    (hown : NewestOwn S n s.taken) {response : Response}
    (hr : unpackKept registry matched = .ok (some response)) :
    n ∈ s.answered ∧ unpackMatch registry (S.reply n) = .ok (some response) := by
  have hmatched := kept_newest _ h.matched
  rw [NewestOwn, h.ends_taken] at hown
  change matched = newest (some (S.msgId n)) _ at hmatched
  rw [newest_replies] at hmatched
  cases hlast : (done.filter (Answers S n ·)).getLast? with
  | none =>
    rw [hmatched, hlast] at hr
    cases hr
  | some m =>
    obtain rfl := hown m hlast
    have hmem : m ∈ done := (List.mem_filter.mp (List.mem_of_getLast? hlast)).1
    obtain ⟨b, hb, hends⟩ := exists_ends_of_mem crc S hmem
    have htaken : b ∈ s.taken := by
      rw [h.taken]
      exact List.mem_append_left _ hb
    rw [hmatched, hlast] at hr
    exact ⟨(hsent b (List.mem_append_left _ htaken) m hends).2, hr⟩

/-- Draining what has arrived leaves the call in order. -/
theorem Current.drain (h : Current crc S s n buf matched done rest held) (hsent : Sent S s)
    {t : Option Bytes}
    (hfold : ((unframeScanner crc).drain (buf ++ s.waiting.map LineByte.value)).1.foldlM
      (keepMatch (some (S.msgId n))) matched = .ok t) :
    ∃ done' rest' held', Current crc S s.takeWaiting n
      ((unframeScanner crc).drain (buf ++ s.waiting.map LineByte.value)).2 t done' rest' held' := by
  have hpre : held ++ s.waiting <+: Scanner.stream (onLine crc S rest) := by
    refine ⟨s.transit, ?_⟩
    rw [List.append_assoc]
    exact h.stream
  have hframable : ∀ p ∈ rest.map S.reply, Framable p := by
    refine hsent.framable crc fun b hb => ?_
    rw [← h.stream] at hb
    rw [h.taken, List.append_assoc]
    exact List.mem_append_right _ hb
  obtain ⟨more, rest', u, rfl, hbytes, hshort, hpart⟩ := onLine_split hpre
  rw [List.map_append] at hframable
  have hdrain := Scanner.drain_stream (reads_isPacket crc) (framed crc (more.map S.reply))
    (framed crc (rest'.map S.reply))
    (isPacket_framed crc fun p hp => hframable p (List.mem_append_left _ hp))
    (isPacket_framed crc fun p hp => hframable p (List.mem_append_right _ hp)) hpart
  have hvalue : buf ++ s.waiting.map LineByte.value =
      Scanner.stream (framed crc (more.map S.reply)) ++ u.map LineByte.value := by
    rw [← h.holds, ← List.map_append, hbytes, List.map_append, value_onLine]
  rw [hvalue, hdrain, values_framed] at hfold
  rw [hvalue, hdrain]
  refine ⟨done ++ more, rest', u, ?_, hshort, rfl, ?_, ?_⟩
  · change s.taken ++ s.waiting = _
    rw [h.taken, List.append_assoc, hbytes, onLine_append, Scanner.stream_append,
      List.append_assoc]
  · have hstream := h.stream
    rw [← List.append_assoc, hbytes, onLine_append, Scanner.stream_append, List.append_assoc]
      at hstream
    exact List.append_cancel_left hstream
  · rw [List.map_append, kept_append, h.matched]
    exact hfold

/-- A round that leaves nothing over has taken the bytes up to the end of a reply. -/
theorem Current.endsRound (h : Current crc S s.takeWaiting n [] matched done rest held)
    (hwaiting : s.waiting ≠ []) (r : ReadState) (now : ℚ) : EndsRound S s n r now := by
  have hb := List.getLast?_eq_some_getLast hwaiting
  have htaken : s.taken ++ s.waiting = Scanner.stream (onLine crc S done) := by
    have hheld : held = [] := List.map_eq_nil_iff.mp h.holds
    rw [← List.append_nil (Scanner.stream _), ← hheld]
    exact h.taken
  have hlast : (Scanner.stream (onLine crc S done)).getLast? =
      some (s.waiting.getLast hwaiting) := by
    rw [← htaken, List.getLast?_append, hb, Option.some_or]
  rw [EndsRound, if_neg hwaiting]
  exact ⟨_, hb, getLast?_onLine hlast⟩

/-- A round goes on with the call, or it ends the call with the reply or without one. -/
theorem Current.pollRound (registry : Registry) {r : ReadState}
    (h : Current crc S s n r.payload r.matched done rest held) (hsent : Sent S s) (check now : ℚ)
    (hown : EndsRound S s n r now → NewestOwn S n (s.taken ++ s.waiting)) :
    (∃ t, pollRound crc registry (S.args n) r ⟨check, s.waiting.map LineByte.value, now⟩ = .next t ∧
      ∃ done' rest' held', Current crc S s.takeWaiting n t.payload t.matched done' rest' held') ∨
    ∃ loopExit, pollRound crc registry (S.args n) r ⟨check, s.waiting.map LineByte.value, now⟩ =
        .done loopExit ∧
      ∀ response, loopExit >>= ReadExit.result crc registry (S.args n) = .ok (some response) →
        n ∈ s.answered ∧ unpackMatch registry (S.reply n) = .ok (some response) := by
  rw [pollRound_eq]
  by_cases hwaiting : s.waiting = []
  · have hidle : s.taken ++ s.waiting = s.taken := by rw [hwaiting, List.append_nil]
    have hsame : s.takeWaiting = s := by rw [takeWaiting, hidle, ← hwaiting]
    rw [EndsRound, if_pos hwaiting, hidle] at hown
    rw [if_neg (by rw [hwaiting]; exact not_not.mpr rfl),
      if_neg (fun hprobe => by cases hprobe.2.1)]
    split_ifs with hquiet
    · right
      refine ⟨_, rfl, fun response hr => ?_⟩
      change afterLoop crc registry (S.args n) r = .ok (some response) at hr
      refine h.result hsent (hown hquiet) ?_
      rw [← hr, afterLoop, afterLoopWith]
      cases r.matched <;> rfl
    · left
      rw [hsame]
      exact ⟨r, rfl, done, rest, held, h⟩
  · rw [if_pos (by rwa [Ne, List.map_eq_nil_iff])]
    obtain ⟨e, _, hdone⟩ | ⟨matched, hfold, hcases⟩ :=
      takeChunk_cases crc registry (S.args n) rfl r (s.waiting.map LineByte.value) now
    · exact Or.inr ⟨_, hdone, fun response hr => by cases hr⟩
    · obtain ⟨done', rest', held', hcur⟩ := h.drain hsent hfold
      obtain ⟨framePayload, rfl, hnil, hdone⟩ | ⟨_, hnext⟩ := hcases
      · right
        refine ⟨_, hdone, fun response hr => ?_⟩
        rw [hnil] at hcur
        have hsent' : Sent S s.takeWaiting := by
          intro b hb
          apply hsent b
          rwa [← List.append_assoc]
        refine hcur.result hsent' (hown (hcur.endsRound hwaiting r now)) ?_
        rw [← hr, unpackKept]
        cases unpackMatch registry framePayload <;> rfl
      · exact Or.inl ⟨_, hnext, done', rest', held', hcur⟩

/-! ### The steps -/

theorem Inv.start (h : Inv crc registry S s) {ms : List ℕ}
    (htransit : s.transit = Scanner.stream (onLine crc S ms)) :
    Inv crc registry S s.startCall := by
  have hwaiting : s.startCall.waiting = [] := discardStale_eq_nil s.waiting
  refine ⟨fun b hb => ?_, h.returned, fun n buf matched hview => ?_⟩
  · rw [hwaiting] at hb
    exact h.sent b (List.mem_append_right _ (List.mem_append_right _ hb))
  · cases hview
    refine ⟨[], ms, [], rfl, fun b hb => absurd hb List.not_mem_nil, rfl, ?_, rfl⟩
    rw [hwaiting]
    exact htransit

/-- What the device still owes plays no part, and what it has answered may grow. -/
theorem Inv.mono (h : Inv crc registry S s) (owed answered : List ℕ)
    (hsub : s.answered ⊆ answered) :
    Inv crc registry S { s with owed := owed, answered := answered } := by
  refine ⟨fun b hb m hm => (h.sent b hb m hm).imp_right (hsub ·),
    fun n response hn => (h.returned n response hn).imp_left (hsub ·),
    fun n buf matched hview => ?_⟩
  obtain ⟨done, rest, held, hcur⟩ := h.current n buf matched hview
  exact ⟨done, rest, held, hcur.of_eq rfl rfl⟩

theorem Inv.sendReply (h : Inv crc registry S s) {m : ℕ} {bytes : Bytes}
    (hframe : frame crc (S.reply m) = .ok bytes) (hm : m ∈ s.answered) :
    Inv crc registry S (s.sendReply m bytes) := by
  obtain ⟨hframable, rfl⟩ := (frame_ok_iff crc).mp hframe
  refine ⟨fun b hb k hk => ?_, h.returned, fun n buf matched hview => ?_⟩
  · change b ∈ s.taken ++ (s.waiting ++ (s.transit ++ lineBytes m (frameBytes crc _))) at hb
    rw [← List.append_assoc, ← List.append_assoc, List.append_assoc s.taken] at hb
    obtain hb | hb := List.mem_append.mp hb
    · exact h.sent b hb k hk
    · obtain rfl := ends_mem_lineBytes hb hk
      exact ⟨hframable, hm⟩
  · obtain ⟨done, rest, held, hcur⟩ := h.current n buf matched hview
    refine ⟨done, rest ++ [m], held, hcur.taken, hcur.short, hcur.holds, ?_, hcur.matched⟩
    rw [onLine_append, Scanner.stream_append, ← hcur.stream]
    change held ++ (s.waiting ++ (s.transit ++ lineBytes m (frameBytes crc (S.reply m)))) = _
    simp [onLine, Scanner.stream]

theorem line_arrive (s : SerialLink) (k : ℕ) :
    (s.arrive k).waiting ++ (s.arrive k).transit = s.waiting ++ s.transit := by
  change (s.waiting ++ s.transit.take k) ++ s.transit.drop k = _
  rw [List.append_assoc, List.take_append_drop]

theorem Inv.arrive (h : Inv crc registry S s) (k : ℕ) : Inv crc registry S (s.arrive k) := by
  refine ⟨fun b hb => ?_, h.returned, fun n buf matched hview => ?_⟩
  · rw [line_arrive] at hb
    exact h.sent b hb
  · obtain ⟨done, rest, held, hcur⟩ := h.current n buf matched hview
    exact ⟨done, rest, held, hcur.of_eq rfl (line_arrive s k)⟩

theorem Inv.leave (h : Inv crc registry S s) {n : ℕ} {result : Py (Option Response)}
    (hresult : ∀ response, result = .ok (some response) →
      n ∈ s.answered ∧ unpackMatch registry (S.reply n) = .ok (some response)) :
    Inv crc registry S (s.leave n result) := by
  refine ⟨h.sent, fun m response hm => ?_, fun m buf matched hview => by cases hview⟩
  obtain hm | hm := List.mem_append.mp hm
  · exact h.returned m response hm
  · obtain ⟨rfl, hr⟩ := Prod.mk.inj (List.mem_singleton.mp hm)
    exact hresult response hr.symm

theorem Inv.round (h : Inv crc registry S s) {n : ℕ} {deadline : ℚ} {r : ReadState}
    (hstage : s.stage = .reading n deadline r) (check : ℚ) {now : ℚ}
    (hown : EndsRound S s n r now → NewestOwn S n (s.taken ++ s.waiting)) :
    Inv crc registry S (s.round crc registry S n deadline r check now) := by
  obtain ⟨done, rest, held, hcur⟩ := h.current n r.payload r.matched (by rw [hstage]; rfl)
  have hsent : Sent S s.takeWaiting := by
    intro b hb
    apply h.sent b
    rwa [← List.append_assoc]
  rw [SerialLink.round]
  obtain ⟨t, hround, hnext⟩ | ⟨loopExit, hround, hresult⟩ :=
    hcur.pollRound registry h.sent check now hown
  · rw [hround]
    refine ⟨hsent, h.returned, fun m buf matched hview => ?_⟩
    cases hview
    obtain ⟨done', rest', held', hcur'⟩ := hnext
    exact ⟨done', rest', held', hcur'.of_eq rfl rfl⟩
  · rw [hround]
    have hread : Inv crc registry S { s.takeWaiting with stage := .idle } :=
      ⟨hsent, h.returned, fun m buf matched hview => by cases hview⟩
    exact hread.leave hresult

theorem inv_step (s : SerialLink) (e : Event) (t : SerialLink) (h : Inv crc registry S s)
    (hfresh : Fresh crc S s e) (hstep : step crc registry S s e = some t) :
    Inv crc registry S t := by
  cases move_of_step crc registry S hstep with
  | drain _ =>
    obtain ⟨ms, htransit⟩ := hfresh
    exact h.start htransit
  | @send start n hstage =>
    refine ⟨h.sent, h.returned, fun m buf matched hview => ?_⟩
    cases hview
    obtain ⟨done, rest, held, hcur⟩ := h.current n [] none (by rw [hstage]; rfl)
    exact ⟨done, rest, held, hcur.of_eq rfl rfl⟩
  | @answer n bytes _ hframe =>
    exact (h.mono (s.owed.erase n) (n :: s.answered) (List.subset_cons_self _ _)).sendReply hframe
      List.mem_cons_self
  | @lose n => exact h.mono (s.owed.erase n) s.answered (List.Subset.refl _)
  | duplicate hanswered hframe => exact h.sendReply hframe hanswered
  | arrive => exact h.arrive _
  | poll hstage => exact h.round hstage _ (hfresh _ _ _ hstage)
  | @expire check n deadline r hstage =>
    obtain ⟨done, rest, held, hcur⟩ := h.current n r.payload r.matched (by rw [hstage]; rfl)
    refine h.leave fun response hr => hcur.result h.sent (hfresh _ _ _ hstage) ?_
    rw [← hr, afterLoop, afterLoopWith]
    cases r.matched <;> rfl

/-! ### Quiet starts -/

variable (S) in
/-- Of the replies that are owed or on the line only its own could be taken for an answer to call
`n`. -/
structure Calm (s : SerialLink) (n : ℕ) : Prop where
  owed : ∀ m ∈ s.owed, Answers S n m → m = n
  line : ∀ b ∈ s.taken ++ (s.waiting ++ s.transit), ∀ m, b.ends = some m → Answers S n m → m = n

theorem Calm.newestOwn {n : ℕ} (h : Calm S s n) {bytes : List LineByte}
    (hbytes : bytes ⊆ s.taken ++ (s.waiting ++ s.transit)) : NewestOwn S n bytes := by
  intro m hm
  obtain ⟨hends, hanswers⟩ := List.mem_filter.mp (List.mem_of_getLast? hm)
  obtain ⟨b, hb, hbm⟩ := List.mem_filterMap.mp hends
  exact h.line b (hbytes hb) m hbm (of_decide_eq_true hanswers)

theorem Calm.sendReply {n m : ℕ} (h : Calm S s n) (hm : Answers S n m → m = n) (bytes : Bytes) :
    Calm S (s.sendReply m bytes) n := by
  refine ⟨h.owed, fun b hb k hk => ?_⟩
  change b ∈ s.taken ++ (s.waiting ++ (s.transit ++ lineBytes m bytes)) at hb
  rw [← List.append_assoc, ← List.append_assoc, List.append_assoc s.taken] at hb
  obtain hb | hb := List.mem_append.mp hb
  · exact h.line b hb k hk
  · obtain rfl := ends_mem_lineBytes hb hk
    exact hm

theorem Calm.arrive {n : ℕ} (h : Calm S s n) (k : ℕ) : Calm S (s.arrive k) n := by
  refine ⟨h.owed, fun b hb => h.line b ?_⟩
  rwa [line_arrive] at hb

theorem Calm.start {ms : List ℕ} (htransit : s.transit = Scanner.stream (onLine crc S ms))
    (hms : ∀ m ∈ ms, ¬ Answers S s.calls m) (howed : ∀ m ∈ s.owed, ¬ Answers S s.calls m) :
    Calm S s.startCall s.calls := by
  refine ⟨fun m hm hanswers => absurd hanswers (howed m hm), fun b hb m hm hanswers => ?_⟩
  change b ∈ [] ++ (discardStale s.waiting ++ s.transit) at hb
  rw [discardStale_eq_nil, htransit] at hb
  have hmem := List.mem_filterMap.mpr ⟨b, hb, hm⟩
  rw [List.nil_append, List.nil_append, ends_onLine] at hmem
  exact absurd hanswers (hms m hmem)

theorem Calm.takeWaiting {n : ℕ} (h : Calm S s n) : Calm S s.takeWaiting n := by
  refine ⟨h.owed, fun b hb => h.line b ?_⟩
  rwa [← List.append_assoc]

theorem calm_step (crc : Bytes → UInt16) (registry : Registry) (s : SerialLink) (e : Event)
    (t : SerialLink) (h : ∀ n buf matched, s.stage.view = some (n, buf, matched) → Calm S s n)
    (hquiet : Quiet crc S s e) (hstep : step crc registry S s e = some t) :
    ∀ n buf matched, t.stage.view = some (n, buf, matched) → Calm S t n := by
  intro n buf matched hview
  cases move_of_step crc registry S hstep with
  | drain _ =>
    cases hview
    obtain ⟨⟨ms, htransit, hms⟩, howed⟩ := hquiet
    exact Calm.start htransit hms howed
  | @send start n hstage =>
    cases hview
    have hcalm := h n [] none (by rw [hstage]; rfl)
    refine ⟨fun m hm hanswers => ?_, hcalm.line⟩
    obtain rfl | hm := List.mem_cons.mp hm
    · rfl
    · exact hcalm.owed m hm hanswers
  | @answer m bytes howed hframe =>
    have hcalm := h n buf matched hview
    have hsent := hcalm.sendReply (hcalm.owed m howed) bytes
    exact ⟨fun k hk => hcalm.owed k (List.mem_of_mem_erase hk), hsent.line⟩
  | @lose m =>
    have hcalm := h n buf matched hview
    exact ⟨fun k hk => hcalm.owed k (List.mem_of_mem_erase hk), hcalm.line⟩
  | @duplicate m bytes _ _ =>
    exact (h n buf matched hview).sendReply (hquiet n buf matched hview) bytes
  | arrive => exact (h n buf matched hview).arrive _
  | @poll check now k deadline r hstage =>
    rw [SerialLink.round] at hview ⊢
    cases hturn : pollRound crc registry (S.args k) r
        ⟨check, s.waiting.map LineByte.value, now⟩ with
    | next r' =>
      rw [hturn] at hview
      cases hview
      have hcalm := (h n r.payload r.matched (by rw [hstage]; rfl)).takeWaiting
      exact ⟨hcalm.owed, hcalm.line⟩
    | done loopExit =>
      rw [hturn] at hview
      cases hview
  | expire _ => cases hview

/-- Calls that start quietly get no stale reply at all. -/
theorem fresh_of_quiet (crc : Bytes → UInt16) (registry : Registry) (S : Session)
    (events : List Event)
    (hmeets : Transition.Meets (step crc registry S) (Quiet crc S) initial events) :
    Transition.Meets (step crc registry S) (Fresh crc S) initial events := by
  refine Transition.meets_of_invariant
    (fun s => ∀ n buf matched, s.stage.view = some (n, buf, matched) → Calm S s n)
    (calm_step crc registry) ?_ events initial (fun n buf matched h => by cases h) hmeets
  intro s e hcalm hquiet
  cases e with
  | drain =>
    obtain ⟨⟨ms, htransit, _⟩, _⟩ := hquiet
    exact ⟨ms, htransit⟩
  | poll check now =>
    intro n deadline r hstage _
    refine (hcalm n r.payload r.matched (by rw [hstage]; rfl)).newestOwn fun b hb => ?_
    rw [← List.append_assoc]
    exact List.mem_append_left _ hb
  | expire check =>
    intro n deadline r hstage
    exact (hcalm n r.payload r.matched (by rw [hstage]; rfl)).newestOwn
      (List.subset_append_left _ _)
  | _ => trivial

/-! ### What a call returns -/

/-- A call that returns a message returns the device's reply to the request of that very call. -/
theorem returned_own_reply (crc : Bytes → UInt16) (registry : Registry) (S : Session)
    (events : List Event) (t : SerialLink)
    (hmeets : Transition.Meets (step crc registry S) (Fresh crc S) initial events)
    (hrun : Transition.run (step crc registry S) initial events = some t) (n : ℕ)
    (response : Response) (hreturned : (n, .ok (some response)) ∈ t.returned) :
    n ∈ t.answered ∧ unpackMatch registry (S.reply n) = .ok (some response) :=
  (Transition.run_invariant inv_step events initial t inv_initial hmeets hrun).returned n response
    hreturned

/-- The fields of the message that a call returned. -/
def fieldsOf : Py (Option Response) → List (String × PyVal)
  | .ok (some (.message msg)) => msg.attrs
  | _ => []

theorem exists_returned {run : Option SerialLink} {log : List (ℕ × List (String × PyVal))}
    (h : run.map (fun t => t.returned.map fun p => (p.1, fieldsOf p.2)) = some log) {n : ℕ}
    {fields : List (String × PyVal)} (hmem : (n, fields) ∈ log) (hne : fields ≠ []) :
    ∃ t response, run = some t ∧ (n, .ok (some response)) ∈ t.returned ∧
      fieldsOf (.ok (some response)) = fields := by
  obtain ⟨t, hrun, rfl⟩ := Option.map_eq_some_iff.mp h
  obtain ⟨⟨m, result⟩, hp, heq⟩ := List.mem_map.mp hmem
  obtain ⟨rfl, rfl⟩ := Prod.mk.inj heq
  cases result with
  | error e => exact absurd rfl hne
  | ok response =>
    cases response with
    | none => exact absurd rfl hne
    | some response => exact ⟨t, response, hrun, hp, rfl⟩

/-- Two requests for the firmware version, which changes in between. -/
def upgrade : Session :=
  ⟨fun _ => 0, fun _ => 1 / 2, fun n => if n = 0 then [0, 5, 3] else [0, 6, 2]⟩

/-- The first reply is sent when the first call has timed out, and arrives in one piece with the
second. -/
def burstOfVersions : List Event :=
  [.drain, .send 0, .expire 1, .answer 0, .drain, .send 1, .answer 1, .arrive 16, .poll 1 1]

theorem meets_burstOfVersions : Transition.Meets (step Crc16.xmodem Messages.registry upgrade)
    (Fresh Crc16.xmodem upgrade) initial burstOfVersions := by
  have hframe₀ : frame Crc16.xmodem (upgrade.reply 0) = .ok [2, 3, 0, 5, 3, 207, 150, 3] := by
    decide +kernel
  have hframe₁ : frame Crc16.xmodem (upgrade.reply 1) = .ok [2, 3, 0, 6, 2, 138, 228, 3] := by
    decide +kernel
  refine Transition.meets_cons ⟨[], rfl⟩ rfl ?_
  refine Transition.meets_cons trivial rfl ⟨fun n deadline r hstage => ?_, fun t ht => ?_⟩
  · exact fun m hm => by cases hm
  cases move_of_step _ _ _ ht with
  | expire hstage =>
    cases hstage
    refine ⟨trivial, fun t ht => ?_⟩
    cases move_of_step _ _ _ ht with
    | answer _ hframe =>
      rw [hframe₀] at hframe
      cases hframe
      refine Transition.meets_cons ⟨[0], by decide +kernel⟩ rfl ?_
      refine Transition.meets_cons trivial rfl ⟨trivial, fun t ht => ?_⟩
      cases move_of_step _ _ _ ht with
      | answer _ hframe =>
        rw [hframe₁] at hframe
        cases hframe
        refine Transition.meets_cons trivial rfl
          ⟨fun n deadline r hstage _ => ?_, fun _ _ => trivial⟩
        cases hstage
        decide +kernel

theorem returned_own_reply_version : ∃ t response,
    Transition.run (step Crc16.xmodem Messages.registry upgrade) initial burstOfVersions = some t ∧
    (1, .ok (some response)) ∈ t.returned ∧ 1 ∈ t.answered ∧
    unpackMatch Messages.registry (upgrade.reply 1) = .ok (some response) := by
  have hfields : (Transition.run (step Crc16.xmodem Messages.registry upgrade) initial
      burstOfVersions).map (fun t => t.returned.map fun p => (p.1, fieldsOf p.2)) =
      some [(0, []), (1, [("fw_version_minor", .int 2), ("fw_version_major", .int 6)])] := by
    decide +kernel
  obtain ⟨t, response, hrun, hmem, _⟩ :=
    exists_returned hfields (List.mem_cons_of_mem _ List.mem_cons_self) (List.cons_ne_nil _ _)
  exact ⟨t, response, hrun, hmem, returned_own_reply Crc16.xmodem Messages.registry upgrade
    burstOfVersions t meets_burstOfVersions hrun 1 response hmem⟩

/-- The first reply is sent when the first call has timed out and arrives when the second has
dropped the bytes that wait. -/
theorem returned_stale_reply : ∃ t response,
    Transition.run (step Crc16.xmodem Messages.registry upgrade) initial
      [.drain, .send 0, .expire 1, .answer 0, .drain, .send 1, .answer 1, .arrive 8, .poll 1 1] =
      some t ∧
    (1, .ok (some response)) ∈ t.returned ∧
    unpackMatch Messages.registry (upgrade.reply 1) ≠ .ok (some response) := by
  have hfields : (Transition.run (step Crc16.xmodem Messages.registry upgrade) initial
      [.drain, .send 0, .expire 1, .answer 0, .drain, .send 1, .answer 1, .arrive 8, .poll 1 1]).map
      (fun t => t.returned.map fun p => (p.1, fieldsOf p.2)) =
      some [(0, []), (1, [("fw_version_minor", .int 3), ("fw_version_major", .int 5)])] := by
    decide +kernel
  have hother : fieldsOf (unpackMatch Messages.registry (upgrade.reply 1)) =
      [("fw_version_minor", .int 2), ("fw_version_major", .int 6)] := by decide +kernel
  obtain ⟨t, response, hrun, hmem, hresponse⟩ :=
    exists_returned hfields (List.mem_cons_of_mem _ List.mem_cons_self) (List.cons_ne_nil _ _)
  refine ⟨t, response, hrun, hmem, fun hsame => ?_⟩
  rw [hsame, hresponse] at hother
  exact absurd hother (by decide +kernel)

end SerialLink

end PyVesc
