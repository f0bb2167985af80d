import PyVesc.FiniteLoop
import Mathlib.Data.List.Infix

/-!
# Scanning a stream that arrives in pieces

A scanner looks at a buffer and reports the value it found at its head, if any, and how many
symbols to drop. `drain` calls it until it drops nothing, collecting the values; `receive` appends
each arriving chunk to what was left over and drains again.

`Reads S Packet` states that `S` reads the packets of `Packet` off the head of any buffer and waits
on every proper prefix of one. A scanner that reads packets recovers exactly the packets of a
stream made of them, wherever the stream is cut into chunks (`receive_packets`).
-/

structure Scanner (α β : Type*) where
  scan : List α → Option β × ℕ
  scan_nil : (scan []).2 = 0

namespace Scanner

variable {α β σ ε : Type*}

theorem length_drop_lt {c : ℕ} {b : List α} (hb : b ≠ []) (hc : c ≠ 0) :
    (b.drop c).length < b.length := by
  have hpos := List.length_pos_iff.mpr hb
  rw [List.length_drop]
  omega

variable (S : Scanner α β)

theorem ne_nil_of_consumed {b : List α} (h : (S.scan b).2 ≠ 0) : b ≠ [] := by
  rintro rfl
  exact h S.scan_nil

def drainTurn (s : List β × List α) : Turn (List β × List α) (List β × List α) :=
  if (S.scan s.2).2 = 0 then .done s
  else .next (s.1 ++ (S.scan s.2).1.toList, s.2.drop (S.scan s.2).2)

def drainLoop : FiniteLoop (List β × List α) (List β × List α) where
  turn := S.drainTurn
  measure s := s.2.length
  decreases s s' h := by
    unfold drainTurn at h
    split_ifs at h with hc
    cases h
    exact length_drop_lt (S.ne_nil_of_consumed hc) hc

/-- The values found in a buffer until nothing more is dropped, and what stays in it. -/
def drain (b : List α) : List β × List α := S.drainLoop.exec ([], b)

theorem drainLoop_acc (got : List β) (b : List α) :
    S.drainLoop.exec (got, b) = (got ++ (S.drain b).1, (S.drain b).2) := by
  induction hn : b.length using Nat.strong_induction_on generalizing got b with
  | _ n ih =>
    by_cases hc : (S.scan b).2 = 0
    · have hd (g : List β) : S.drainLoop.exec (g, b) = (g, b) :=
        S.drainLoop.exec_done (if_pos hc)
      simp only [drain, hd, List.append_nil]
    · have hx (g : List β) : S.drainLoop.exec (g, b) =
          S.drainLoop.exec (g ++ (S.scan b).1.toList, b.drop (S.scan b).2) :=
        S.drainLoop.exec_next (if_neg hc)
      have hlt := length_drop_lt (S.ne_nil_of_consumed hc) hc
      have hg := fun g => ih _ (hn ▸ hlt) g (b.drop (S.scan b).2) rfl
      rw [drain, hx, hx, hg, hg ([] ++ _)]
      simp only [List.nil_append, List.append_assoc]

theorem drain_stop {b : List α} (h : (S.scan b).2 = 0) : S.drain b = ([], b) :=
  S.drainLoop.exec_done (if_pos h)

theorem drain_step {b : List α} (h : (S.scan b).2 ≠ 0) :
    S.drain b = ((S.scan b).1.toList ++ (S.drain (b.drop (S.scan b).2)).1,
      (S.drain (b.drop (S.scan b).2)).2) := by
  have hx : S.drainLoop.exec ([], b) =
      S.drainLoop.exec ((S.scan b).1.toList, b.drop (S.scan b).2) :=
    S.drainLoop.exec_next (if_neg h)
  rw [drain, hx, drainLoop_acc]

@[simp] theorem drain_nil : S.drain [] = ([], []) := S.drain_stop S.scan_nil

/-- The buffers that are scanned while a buffer is drained. -/
def scanned (b : List α) : List (List α) :=
  if _h : (S.scan b).2 = 0 then [b] else b :: scanned (b.drop (S.scan b).2)
termination_by b.length
decreasing_by exact length_drop_lt (S.ne_nil_of_consumed ‹_›) ‹_›

theorem scanned_stop {b : List α} (h : (S.scan b).2 = 0) : S.scanned b = [b] := by
  rw [scanned, dif_pos h]

theorem scanned_step {b : List α} (h : (S.scan b).2 ≠ 0) :
    S.scanned b = b :: S.scanned (b.drop (S.scan b).2) := by
  rw [scanned, dif_neg h]

theorem mem_scanned_length {b v : List α} (h : v ∈ S.scanned b) : v.length ≤ b.length := by
  induction hn : b.length using Nat.strong_induction_on generalizing b with
  | _ n ih =>
    subst hn
    by_cases hc : (S.scan b).2 = 0
    · rw [S.scanned_stop hc, List.mem_singleton] at h
      rw [h]
    · have hlt := length_drop_lt (S.ne_nil_of_consumed hc) hc
      rw [S.scanned_step hc, List.mem_cons] at h
      obtain rfl | h := h
      · exact Nat.le_refl _
      · exact (ih _ hlt h rfl).trans hlt.le

/-- One arrival: the chunk joins the buffer and the buffer is drained. -/
def feed (s : List β × List α) (chunk : List α) : List β × List α :=
  (s.1 ++ (S.drain (s.2 ++ chunk)).1, (S.drain (s.2 ++ chunk)).2)

def receive (chunks : List (List α)) : List β × List α := chunks.foldl S.feed ([], [])

/-- Nothing more is dropped from what a drain leaves. -/
theorem scan_drain (b : List α) : (S.scan (S.drain b).2).2 = 0 := by
  induction hn : b.length using Nat.strong_induction_on generalizing b with
  | _ n ih =>
    by_cases hc : (S.scan b).2 = 0
    · rw [S.drain_stop hc]
      exact hc
    · have hlt := length_drop_lt (S.ne_nil_of_consumed hc) hc
      rw [S.drain_step hc]
      exact ih _ (hn ▸ hlt) _ rfl

/-- What a drain leaves is the end of what it was given. -/
theorem drain_snd_isSuffix (b : List α) : (S.drain b).2 <:+ b := by
  induction hn : b.length using Nat.strong_induction_on generalizing b with
  | _ n ih =>
    by_cases hc : (S.scan b).2 = 0
    · rw [S.drain_stop hc]
    · have hlt := length_drop_lt (S.ne_nil_of_consumed hc) hc
      rw [S.drain_step hc]
      exact (ih _ (hn ▸ hlt) _ rfl).trans (List.drop_suffix _ b)

theorem receive_append_singleton (chunks : List (List α)) (chunk : List α) :
    S.receive (chunks ++ [chunk]) = S.feed (S.receive chunks) chunk := by
  rw [receive, List.foldl_append]
  rfl

theorem scan_receive (chunks : List (List α)) : (S.scan (S.receive chunks).2).2 = 0 := by
  induction chunks using List.reverseRecOn with
  | nil => exact S.scan_nil
  | append_singleton chunks chunk _ =>
    rw [receive_append_singleton]
    exact S.scan_drain _

theorem receive_snd_isSuffix (chunks : List (List α)) :
    (S.receive chunks).2 <:+ chunks.flatten := by
  induction chunks using List.reverseRecOn with
  | nil => exact List.suffix_rfl
  | append_singleton chunks chunk ih =>
    rw [receive_append_singleton, List.flatten_append, List.flatten_singleton]
    obtain ⟨t, ht⟩ := ih
    refine (S.drain_snd_isSuffix _).trans ⟨t, ?_⟩
    rw [← List.append_assoc, ht]

/-- An empty chunk changes nothing. -/
theorem receive_append_nil (chunks : List (List α)) :
    S.receive (chunks ++ [[]]) = S.receive chunks := by
  rw [receive_append_singleton, feed, List.append_nil, S.drain_stop (S.scan_receive chunks),
    List.append_nil]

/-- What has been found stays found. -/
theorem receive_append_fst (chunks more : List (List α)) :
    (S.receive chunks).1 <+: (S.receive (chunks ++ more)).1 := by
  induction more using List.reverseRecOn with
  | nil => rw [List.append_nil]
  | append_singleton more chunk ih =>
    rw [← List.append_assoc, receive_append_singleton]
    exact ih.trans (List.prefix_append _ _)

/-- The scanner reads whole packets off the head of a buffer and waits for the rest of a packet of
which only a beginning is there. -/
structure Reads (Packet : List α → β → Prop) : Prop where
  nonempty : ∀ w p, Packet w p → w ≠ []
  whole : ∀ w p t, Packet w p → S.scan (w ++ t) = (some p, w.length)
  part : ∀ w p u, Packet w p → u <+: w → u ≠ w → S.scan u = (none, 0)

/-- A stream made of packets, given as the packets with the values they carry. -/
def stream (ws : List (List α × β)) : List α := (ws.map Prod.fst).flatten

def values (ws : List (List α × β)) : List β := ws.map Prod.snd

@[simp] theorem stream_nil : stream ([] : List (List α × β)) = [] := rfl

@[simp] theorem stream_cons (w : List α × β) (ws : List (List α × β)) :
    stream (w :: ws) = w.1 ++ stream ws := rfl

theorem stream_append (ws vs : List (List α × β)) :
    stream (ws ++ vs) = stream ws ++ stream vs := by
  simp only [stream, List.map_append, List.flatten_append]

variable {S} {Packet : List α → β → Prop}

/-- A beginning of the next packet, short of its end, or nothing when no packet follows. -/
def Partial (ws : List (List α × β)) (u : List α) : Prop :=
  u = [] ∨ ∃ w rest, ws = w :: rest ∧ u <+: w.1 ∧ u ≠ w.1

theorem Partial.eq_nil {ws : List (List α × β)} {u : List α} (h : Partial ws u)
    (hu : u = stream ws) : u = [] := by
  obtain rfl | ⟨w, rest, rfl, hpre, hne⟩ := h
  · rfl
  · have hlen := hpre.length_le
    rw [stream_cons] at hu
    have hz : (stream rest).length = 0 := by
      have := congrArg List.length hu
      rw [List.length_append] at this
      omega
    rw [List.eq_nil_of_length_eq_zero hz, List.append_nil] at hu
    exact absurd hu hne

theorem drain_partial (hS : S.Reads Packet) {ws : List (List α × β)}
    (hws : ∀ w ∈ ws, Packet w.1 w.2) {u : List α} (hu : Partial ws u) : S.drain u = ([], u) := by
  obtain rfl | ⟨w, rest, rfl, hpre, hne⟩ := hu
  · exact S.drain_nil
  · apply S.drain_stop
    rw [hS.part w.1 w.2 u (hws w List.mem_cons_self) hpre hne]

theorem drain_packet (hS : S.Reads Packet) {w : List α} {p : β} (hw : Packet w p) (t : List α) :
    S.drain (w ++ t) = (p :: (S.drain t).1, (S.drain t).2) := by
  have hscan := hS.whole w p t hw
  have hpos := List.length_pos_iff.mpr (hS.nonempty w p hw)
  have hne : (S.scan (w ++ t)).2 ≠ 0 := by rw [hscan]; exact hpos.ne'
  rw [S.drain_step hne, hscan]
  simp only [Option.toList_some, List.drop_left, List.singleton_append]

/-- Draining whole packets followed by the beginning of another. -/
theorem drain_stream (hS : S.Reads Packet) (ws vs : List (List α × β))
    (hws : ∀ w ∈ ws, Packet w.1 w.2) (hvs : ∀ w ∈ vs, Packet w.1 w.2) {u : List α}
    (hu : Partial vs u) : S.drain (stream ws ++ u) = (values ws, u) := by
  induction ws with
  | nil => exact drain_partial hS hvs hu
  | cons w ws ih =>
    have hi := ih (fun v hv => hws v (List.mem_cons_of_mem w hv))
    rw [stream_cons, List.append_assoc, drain_packet hS (hws w List.mem_cons_self), hi]
    rfl

/-- Every buffer that is scanned on the way starts with one of the packets, or is the beginning. -/
theorem scanned_stream (hS : S.Reads Packet) {ws vs : List (List α × β)}
    (hws : ∀ w ∈ ws, Packet w.1 w.2) (hvs : ∀ w ∈ vs, Packet w.1 w.2) {u : List α}
    (hu : Partial vs u) {v : List α} (hv : v ∈ S.scanned (stream ws ++ u)) :
    (∃ w ∈ ws, w.1 <+: v) ∨ v = u := by
  induction ws with
  | nil =>
    have hstop : (S.scan u).2 = 0 := by
      obtain rfl | ⟨w, rest, rfl, hpre, hne⟩ := hu
      · exact S.scan_nil
      · rw [hS.part w.1 w.2 u (hvs w List.mem_cons_self) hpre hne]
    rw [stream_nil, List.nil_append, S.scanned_stop hstop, List.mem_singleton] at hv
    exact Or.inr hv
  | cons w ws ih =>
    have hscan := hS.whole w.1 w.2 (stream ws ++ u) (hws w List.mem_cons_self)
    have hpos := List.length_pos_iff.mpr (hS.nonempty w.1 w.2 (hws w List.mem_cons_self))
    have hne : (S.scan (w.1 ++ (stream ws ++ u))).2 ≠ 0 := by rw [hscan]; exact hpos.ne'
    rw [stream_cons, List.append_assoc, S.scanned_step hne, hscan, List.drop_left,
      List.mem_cons] at hv
    obtain rfl | hv := hv
    · exact Or.inl ⟨w, List.mem_cons_self, List.prefix_append _ _⟩
    · obtain ⟨w', hw', hpre⟩ | rfl := ih (fun v hv => hws v (List.mem_cons_of_mem w hv)) hv
      · exact Or.inl ⟨w', List.mem_cons_of_mem w hw', hpre⟩
      · exact Or.inr rfl

/-- A beginning of a stream of packets is some whole packets and a beginning of the next. -/
theorem prefix_stream_split (ws : List (List α × β)) {v : List α} (hv : v <+: stream ws) :
    ∃ done rest u, ws = done ++ rest ∧ v = stream done ++ u ∧ Partial rest u := by
  induction ws generalizing v with
  | nil =>
    have hnil : v = [] := List.prefix_nil.mp hv
    exact ⟨[], [], [], rfl, hnil, Or.inl rfl⟩
  | cons w ws ih =>
    rw [stream_cons] at hv
    by_cases hlt : v.length < w.1.length
    · have hpre : v <+: w.1 := List.prefix_of_prefix_length_le hv (List.prefix_append _ _) hlt.le
      have hne : v ≠ w.1 := by
        intro heq
        rw [heq] at hlt
        exact Nat.lt_irrefl _ hlt
      exact ⟨[], w :: ws, v, rfl, rfl, Or.inr ⟨w, ws, rfl, hpre, hne⟩⟩
    · obtain ⟨t, rfl⟩ := List.prefix_of_prefix_length_le (List.prefix_append w.1 (stream ws)) hv
        (Nat.le_of_not_lt hlt)
      obtain ⟨done, rest, u, rfl, rfl, hu⟩ := ih ((List.prefix_append_right_inj _).mp hv)
      exact ⟨w :: done, rest, u, rfl, (List.append_assoc _ _ _).symm, hu⟩

/-- What the receiver holds after the part `v` of the stream has arrived. -/
def Received (ws : List (List α × β)) (v : List α) (s : List β × List α) : Prop :=
  ∃ done rest, ws = done ++ rest ∧ v = stream done ++ s.2 ∧ s.1 = values done ∧ Partial rest s.2

theorem received_feed (hS : S.Reads Packet) {ws : List (List α × β)}
    (hws : ∀ w ∈ ws, Packet w.1 w.2) {v chunk : List α} {s : List β × List α}
    (hs : Received ws v s) (hv : v ++ chunk <+: stream ws) :
    Received ws (v ++ chunk) (S.feed s chunk) := by
  obtain ⟨done, rest, rfl, rfl, hgot, _⟩ := hs
  rw [stream_append, List.append_assoc] at hv
  obtain ⟨new, later, u, rfl, hnew, hu⟩ :=
    prefix_stream_split rest ((List.prefix_append_right_inj _).mp hv)
  have hdrain : S.drain (s.2 ++ chunk) = (values new, u) := by
    rw [hnew]
    refine drain_stream hS new later ?_ ?_ hu
    · exact fun w hw => hws w (by simp [hw])
    · exact fun w hw => hws w (by simp [hw])
  refine ⟨done ++ new, later, (List.append_assoc _ _ _).symm, ?_, ?_, ?_⟩
  · rw [feed, hdrain, stream_append, List.append_assoc, List.append_assoc, hnew]
  · rw [feed, hdrain, hgot, values, values, values, List.map_append]
  · rw [feed, hdrain]
    exact hu

theorem received_receive (hS : S.Reads Packet) {ws : List (List α × β)}
    (hws : ∀ w ∈ ws, Packet w.1 w.2) (chunks : List (List α))
    (hc : chunks.flatten <+: stream ws) : Received ws chunks.flatten (S.receive chunks) := by
  induction chunks using List.reverseRecOn with
  | nil => exact ⟨[], ws, rfl, rfl, rfl, Or.inl rfl⟩
  | append_singleton chunks chunk ih =>
    rw [List.flatten_append, List.flatten_singleton] at hc ⊢
    rw [receive, List.foldl_append]
    exact received_feed hS hws (ih ((List.prefix_append _ _).trans hc)) hc

/-- Chunking does not matter: every packet is found once and in order, and nothing is left. -/
theorem receive_packets (hS : S.Reads Packet) {ws : List (List α × β)}
    (hws : ∀ w ∈ ws, Packet w.1 w.2) (chunks : List (List α))
    (hc : chunks.flatten = stream ws) : S.receive chunks = (values ws, []) := by
  obtain ⟨done, rest, rfl, hv, hgot, hpart⟩ :=
    received_receive hS hws chunks (hc ▸ List.prefix_rfl)
  rw [hc, stream_append] at hv
  have hrest : stream rest = (S.receive chunks).2 := List.append_cancel_left hv
  have hnil := hpart.eq_nil hrest.symm
  have hempty : rest = [] := by
    cases rest with
    | nil => rfl
    | cons w rest =>
      have hw := hS.nonempty w.1 w.2 (hws w (by simp))
      rw [hnil, stream_cons] at hrest
      exact absurd (List.append_eq_nil_iff.mp hrest).1 hw
  rw [hempty, List.append_nil, ← hgot, ← hnil]

end Scanner
