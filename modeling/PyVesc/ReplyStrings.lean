import PyVesc.Crc16
import PyVesc.Interface
import PyVesc.Messages
import PyVesc.UniformScalars

/-!
# Strings that span several frames

Some answers come in as many frames as they need, each with a part of one string. `decode` unpacks
the frames one by one and joins the parts: lines of text where the scalar of the string is left out,
and bytes without a separator where it is -1. Which of them it is, is read from the first message,
and all the frames are of the same class.
-/

namespace PyVesc

open StructFormat VESCMessage

theorem exists_forall₂ {α β : Type} {P : α → β → Prop} {xs : List α} (h : ∀ x ∈ xs, ∃ y, P x y) :
    ∃ ys, List.Forall₂ P xs ys := by
  induction xs with
  | nil => exact ⟨[], .nil⟩
  | cons x xs ih =>
    obtain ⟨⟨y, hy⟩, hxs⟩ := List.forall_mem_cons.mp h
    obtain ⟨ys, hys⟩ := ih hxs
    exact ⟨y :: ys, .cons hy hys⟩

/-! ### One frame -/

/-- The only field of the answer is the string `f`. -/
structure LoneString (registry : Registry) (cls : MessageClass) (f : Field) : Prop where
  registered : registry.lookup cls.id = some cls
  id_le : cls.id ≤ 255
  fields : cls.recvFields = some [f]
  format : f.format = .s

variable {registry : Registry} {cls : MessageClass} {f : Field}

/-- The payload of a part of the string. -/
def partPayload (cls : MessageClass) (content : Bytes) : Bytes := UInt8.ofNat cls.id :: content

theorem LoneString.unpack (h : LoneString registry cls f) {content : Bytes} {v : PyVal}
    (hsends : f.Sends v (.bytes content)) :
    ∃ msg w, VESCMessage.unpack registry (partPayload cls content) false = .ok msg ∧
      msg.cls = cls ∧ msg.getattr f.name = .ok w ∧ f.Gets (.bytes content) w := by
  have hformat := h.format
  let row : Row := ⟨f, v, .bytes content⟩
  have hisS : row.field.format.isS = true := by rw [hformat]; rfl
  have hint : IntegerFields ([row].map Row.field) := by
    refine ⟨List.nodup_singleton _, ?_, List.countP_le_length⟩
    exact List.forall_mem_singleton.mpr (Or.inl hformat)
  have huniform : AllOrNone ([row].map Row.field) := by
    by_cases hscalar : f.scalar = none
    · exact Or.inl (List.forall_mem_singleton.mpr hscalar)
    · exact Or.inr (List.forall_mem_singleton.mpr hscalar)
  have hsplit : TextSplit [row] [] row [] := ⟨rfl, hisS, by simp, by simp⟩
  have hrows : ∀ r ∈ [row], r.Sends := List.forall_mem_singleton.mpr hsends
  have hbody : StructFormat.pack ([row].map Row.format) ([row].map Row.item) = some content := by
    have hitem : row.format.pack row.item = some content := by
      rw [Row.format, hformat]
      exact pack_bytes content
    rw [List.map_singleton, List.map_singleton, StructFormat.pack, hitem]
    change some (content ++ []) = _
    rw [List.append_nil]
  obtain ⟨msg, hunpack, hcls, ⟨w, hw, hgets⟩, _⟩ :=
    @unpack_text cls false [row] h.fields hint huniform _ _ _ hsplit hrows _ hbody
      (UInt8.ofNat cls.id)
  rw [← unpack_registered h.registered h.id_le] at hunpack
  exact ⟨msg, w, hunpack, hcls, hw, hgets⟩

/-! ### All the frames -/

theorem combine_texts (hformat : f.format = .s) (hscalar : f.scalar = none) {texts : List String}
    {msgs : List Message}
    (h : List.Forall₂ (fun msg text => msg.getattr f.name = .ok (.str text)) msgs texts) :
    combine msgs [f] = .ok (.text (String.join (texts.map (· ++ "\n")))) := by
  have hname : responseStringField [f] = (some f.name, none) := by
    simp [responseStringField, hformat, hscalar, FieldFormat.hasS]
  have htexts : (msgs.mapM fun msg => do asText (← msg.getattr f.name)) = .ok texts := by
    apply mapM_eq_ok_of_forall₂
    apply h.imp
    intro msg text hget
    rw [hget]
    rfl
  unfold combine
  rw [hname]
  dsimp only
  rw [htexts]
  rfl

theorem combine_byteStrings (hformat : f.format = .s) (hscalar : f.scalar = some (-1))
    {strings : List Bytes} {msgs : List Message}
    (h : List.Forall₂ (fun msg bs => msg.getattr f.name = .ok (.bytes bs)) msgs strings) :
    combine msgs [f] = .ok (.byteString strings.flatten) := by
  have hname : responseStringField [f] = (some f.name, some (-1)) := by
    simp [responseStringField, hformat, hscalar, FieldFormat.hasS]
  have hstrings : (msgs.mapM fun msg => do asByteString (← msg.getattr f.name)) = .ok strings := by
    apply mapM_eq_ok_of_forall₂
    apply h.imp
    intro msg bs hget
    rw [hget]
    rfl
  unfold combine
  rw [hname]
  dsimp only
  rw [if_pos rfl, hstrings]
  rfl

variable {crc : Bytes → UInt16} {contents : List Bytes}

/-- The frames of the parts are decoded to what `combine` makes of their messages. -/
theorem decode_parts (h : LoneString registry cls f) (hne : contents ≠ [])
    (hlen : ∀ s ∈ contents, (partPayload cls s).length < 65536) {msgs : List Message}
    (hunpack : List.Forall₂ (fun s msg => VESCMessage.unpack registry (partPayload cls s) false =
      .ok msg ∧ msg.cls = cls) contents msgs)
    {response : Response} (hcombine : combine msgs [f] = .ok response) :
    ∃ frames, contents.mapM (fun s => frame crc (partPayload cls s)) = .ok frames ∧
      decode crc registry frames.flatten true =
        .ok (some response, frames.flatten.length, (contents.map (partPayload cls)).flatten) := by
  have hframable : ∀ p ∈ contents.map (partPayload cls), Framable p := by
    intro p hp
    obtain ⟨s, hs, rfl⟩ := List.mem_map.mp hp
    exact ⟨List.cons_ne_nil _ _, hlen s hs⟩
  have hloop := decodeLoop_frames crc hframable [] 0 []
  rw [List.nil_append, List.nil_append, Nat.zero_add] at hloop
  have hmsgs : (contents.map (partPayload cls)).mapM
      (fun p => VESCMessage.unpack registry p (!true)) = .ok msgs := by
    rw [List.mapM_map]
    exact mapM_eq_ok_of_forall₂ (hunpack.imp fun s msg hmsg => hmsg.1)
  refine ⟨(contents.map (partPayload cls)).map (frameBytes crc), ?_, ?_⟩
  · apply mapM_eq_ok_of_forall₂
    rw [List.map_map, List.forall₂_map_right_iff, List.forall₂_same]
    intro s hs
    exact frame_eq crc (hframable _ (List.mem_map_of_mem hs))
  · simp only [decode_eq, hloop, ok_bind, hmsgs]
    cases hunpack with
    | nil => exact absurd rfl hne
    | @cons s msg _ _ hfirst _ =>
      have hfields : msg.cls.recvFields.getD [] = [f] := by rw [hfirst.2, h.fields]; rfl
      simp only [if_pos, hfields, hcombine, ok_bind]
      rfl

/-- The messages of the parts, each with the value that `w` gives its part. -/
theorem LoneString.messages (h : LoneString registry cls f) {w : Bytes → PyVal}
    (hpart : ∀ s ∈ contents, ∃ v, f.Sends v (.bytes s) ∧ ∀ got, f.Gets (.bytes s) got → got = w s) :
    ∃ msgs, List.Forall₂ (fun s msg =>
        VESCMessage.unpack registry (partPayload cls s) false = .ok msg ∧ msg.cls = cls) contents
          msgs ∧
      List.Forall₂ (fun msg s => msg.getattr f.name = .ok (w s)) msgs contents := by
  have hmessages : ∀ s ∈ contents, ∃ msg,
      (VESCMessage.unpack registry (partPayload cls s) false = .ok msg ∧ msg.cls = cls) ∧
        msg.getattr f.name = .ok (w s) := by
    intro s hs
    obtain ⟨v, hsends, hgot⟩ := hpart s hs
    obtain ⟨msg, got, hunpack, hcls, hget, hgets⟩ := h.unpack hsends
    rw [hgot got hgets] at hget
    exact ⟨msg, ⟨hunpack, hcls⟩, hget⟩
  obtain ⟨msgs, hmsgs⟩ := exists_forall₂ hmessages
  exact ⟨msgs, hmsgs.imp fun s msg hmsg => hmsg.1, (hmsgs.imp fun s msg hmsg => hmsg.2).flip⟩

/-- The text of ASCII bytes. -/
def asciiText (bs : Bytes) : String := String.ofList (bs.map fun b => Char.ofNat b.toNat)

theorem decodeAscii_asciiText {bs : Bytes} (h : ∀ b ∈ bs, b < 128) :
    decodeAscii (.bytes bs) = .ok (.str (asciiText bs)) := by
  apply if_pos
  rw [List.all_eq_true]
  exact fun b hb => decide_eq_true (h b hb)

theorem LoneString.decode_texts (h : LoneString registry cls f) (hscalar : f.scalar = none)
    (hne : contents ≠ []) (hlen : ∀ s ∈ contents, (partPayload cls s).length < 65536)
    (hascii : ∀ s ∈ contents, ∀ b ∈ s, b < 128) :
    ∃ frames, contents.mapM (fun s => frame crc (partPayload cls s)) = .ok frames ∧
      decode crc registry frames.flatten true =
        .ok (some (.text (String.join (contents.map fun s => asciiText s ++ "\n"))),
          frames.flatten.length, (contents.map (partPayload cls)).flatten) := by
  have hminus : f.scalar ≠ some (-1) := by
    rw [hscalar]
    exact Option.some_ne_none _ ∘ Eq.symm
  have hpart : ∀ s ∈ contents, ∃ v, f.Sends v (.bytes s) ∧
      ∀ got, f.Gets (.bytes s) got → got = .str (asciiText s) := by
    intro s hs
    have hdecode := decodeAscii_asciiText (hascii s hs)
    obtain ⟨text, htext, hencode⟩ := decodeAscii_ascii (hascii s hs)
    refine ⟨.str text, .text h.format hminus hencode, ?_⟩
    intro got hgot
    cases hgot with
    | byteString _ hscalar' => exact absurd hscalar' hminus
    | text _ _ hback =>
      rw [hdecode] at hback
      cases hback
      rfl
  obtain ⟨msgs, hunpack, hget⟩ := h.messages hpart
  have hcombine := combine_texts h.format hscalar (List.forall₂_map_right_iff.mpr hget)
  rw [List.map_map] at hcombine
  exact decode_parts h hne hlen hunpack hcombine

theorem LoneString.decode_byteStrings (h : LoneString registry cls f)
    (hscalar : f.scalar = some (-1)) (hne : contents ≠ [])
    (hlen : ∀ s ∈ contents, (partPayload cls s).length < 65536) :
    ∃ frames, contents.mapM (fun s => frame crc (partPayload cls s)) = .ok frames ∧
      decode crc registry frames.flatten true =
        .ok (some (.byteString contents.flatten), frames.flatten.length,
          (contents.map (partPayload cls)).flatten) := by
  have hpart : ∀ s ∈ contents, ∃ v, f.Sends v (.bytes s) ∧
      ∀ got, f.Gets (.bytes s) got → got = .bytes s := by
    intro s hs
    refine ⟨.bytes s, .byteString h.format hscalar, ?_⟩
    intro got hgot
    cases hgot with
    | byteString => rfl
    | text _ hminus _ => exact absurd hscalar hminus
  obtain ⟨msgs, hunpack, hget⟩ := h.messages hpart
  exact decode_parts h hne hlen hunpack (combine_byteStrings h.format hscalar hget)

namespace Messages

theorem loneString_terminalPrint :
    LoneString Messages.registry terminalPrint ⟨"msg", .s, none⟩ where
  registered := rfl
  id_le := by decide
  fields := rfl
  format := rfl

theorem loneString_getMotorConfig :
    LoneString Messages.registry getMotorConfig ⟨"mcconf", .s, some (-1)⟩ where
  registered := rfl
  id_le := by decide
  fields := rfl
  format := rfl

end Messages

/-- The prints of a terminal and the parts of a motor configuration are joined in order. -/
theorem decode_joins_parts (crc : Bytes → UInt16) (contents : List Bytes) (hne : contents ≠ [])
    (hlen : ∀ s ∈ contents, 1 + s.length < 65536) :
    ((∀ s ∈ contents, ∀ b ∈ s, b < 128) → ∃ frames,
      contents.mapM (fun s => frame crc (UInt8.ofNat (VedderCmd.value .commPrint) :: s)) =
        .ok frames ∧
      decode crc Messages.registry frames.flatten true =
        .ok (some (.text (String.join (contents.map fun s => asciiText s ++ "\n"))),
          frames.flatten.length,
          (contents.map fun s => UInt8.ofNat (VedderCmd.value .commPrint) :: s).flatten)) ∧
    ∃ frames,
      contents.mapM (fun s => frame crc (UInt8.ofNat (VedderCmd.value .commGetMcconf) :: s)) =
        .ok frames ∧
      decode crc Messages.registry frames.flatten true =
        .ok (some (.byteString contents.flatten), frames.flatten.length,
          (contents.map fun s => UInt8.ofNat (VedderCmd.value .commGetMcconf) :: s).flatten) := by
  have hlength (cls : MessageClass) : ∀ s ∈ contents, (partPayload cls s).length < 65536 := by
    intro s hs
    have hs := hlen s hs
    rw [partPayload, List.length_cons]
    omega
  constructor
  · intro hascii
    exact Messages.loneString_terminalPrint.decode_texts rfl hne (hlength _) hascii
  · exact Messages.loneString_getMotorConfig.decode_byteStrings rfl hne (hlength _)

/-- Two prints, the second of them empty, and the same bytes as parts of a configuration. -/
theorem decode_joins_hi :
    (∃ frames, [[72, 105], []].mapM (fun s => frame Crc16.xmodem (21 :: s)) = .ok frames ∧
      decode Crc16.xmodem Messages.registry frames.flatten true =
        .ok (some (.text "Hi\n\n"), frames.flatten.length, [21, 72, 105, 21])) ∧
    ∃ frames, [[72, 105], []].mapM (fun s => frame Crc16.xmodem (14 :: s)) = .ok frames ∧
      decode Crc16.xmodem Messages.registry frames.flatten true =
        .ok (some (.byteString [72, 105]), frames.flatten.length, [14, 72, 105, 14]) := by
  obtain ⟨htexts, hbytes⟩ :=
    decode_joins_parts Crc16.xmodem [[72, 105], []] (by decide) (by decide)
  have htext : String.join ([[72, 105], []].map fun s => asciiText s ++ "\n") = "Hi\n\n" := by
    decide +kernel
  have hascii := htexts (by decide +kernel)
  rw [htext] at hascii
  exact ⟨hascii, hbytes⟩

end PyVesc
