import PyVesc.Interface
import PyVesc.ReadRobustness

/-!
# The values of a node

`VescCanNode.get_values` of `can/node.py`, from the reply of the tunnel on. Of the reply only the
first byte is looked at. It is framed, decoded and unpacked, which needs every byte of the layout.
-/

namespace PyVesc

open VESCMessage

variable (crc : Bytes → UInt16)

/-- `get_values` once `comm_request` has given the reply. -/
def getValues (registry : Registry) (reply : Option Bytes) : Py (Option Response) :=
  match reply with
  | none => return none
  | some reply =>
    if reply.head? = some 4 then do
      let packet ← frame crc reply
      let (msg, _, _) ← decode crc registry packet true
      return msg
    else return none

/-- The 23 fields take 72 bytes. -/
theorem fixedSize_getValues : fixedSize (Messages.getValues.recvFields.getD []) = 72 := rfl

/-- A reply of values is framed, found again in the frame, and unpacked as values. -/
theorem getValues_reply {reply : Bytes} (hhead : reply.head? = some 4)
    (hlen : reply.length ≤ 65535) :
    getValues crc Messages.registry (some reply) = (do
      let msg ← unpackAs Messages.getValues reply false
      let response ← combine [msg] (msg.cls.recvFields.getD [])
      return some response) := by
  obtain ⟨rest, rfl⟩ := List.head?_eq_some_iff.mp hhead
  have hframable : Framable (4 :: rest) := ⟨List.cons_ne_nil 4 rest, Nat.lt_succ_of_le hlen⟩
  have hunpack : VESCMessage.unpack Messages.registry (4 :: rest) false =
      unpackAs Messages.getValues (4 :: rest) false := rfl
  simp only [getValues, if_pos hhead, frame_eq crc hframable, ok_bind, decode_framed hframable,
    Bool.not_true, hunpack, if_true]
  cases unpackAs Messages.getValues (4 :: rest) false with
  | error e => rfl
  | ok msg =>
      simp only [ok_bind]
      cases combine [msg] (msg.cls.recvFields.getD []) <;> rfl

/-- The call gives `None` or a message with every field just if the reply is not one of values or is
as long as the layout with its id. -/
theorem getValues_messageOrNone_iff (reply : Option Bytes)
    (hlen : ∀ bytes ∈ reply, bytes.length ≤ 65535) :
    MessageOrNone Messages.getValues (getValues crc Messages.registry reply) ↔
      ∀ bytes ∈ reply, bytes.head? = some 4 → 73 ≤ bytes.length := by
  cases reply with
  | none => exact iff_of_true (Or.inl rfl) (fun bytes h => by cases h)
  | some reply =>
      by_cases hhead : reply.head? = some 4
      · have hfixed :=
          @unpackAs_fixed Messages.getValues (Messages.getValues.recvFields.getD []) rfl (by decide)
            reply
        rw [fixedSize_getValues] at hfixed
        rw [getValues_reply crc hhead (hlen reply rfl)]
        split_ifs at hfixed with hle
        · obtain ⟨msg, hmsg, hcls, hhas⟩ := hfixed
          rw [hmsg, ok_bind, hcls]
          refine iff_of_true (Or.inr ⟨msg, rfl, hcls, hhas⟩) ?_
          rintro bytes ⟨⟩ _
          exact hle
        · rw [hfixed]
          exact iff_of_false (not_messageOrNone_error _ _) (fun h => hle (h reply rfl hhead))
      · have hnone : getValues crc Messages.registry (some reply) = .ok none := if_neg hhead
        rw [hnone]
        refine iff_of_true (Or.inl rfl) ?_
        rintro bytes ⟨⟩ h
        exact absurd h hhead

theorem getValues_messageOrNone_iff_whole :
    MessageOrNone Messages.getValues
      (getValues Crc16.xmodem Messages.registry (some (4 :: List.replicate 73 7))) := by
  have hlen : (4 :: List.replicate 73 (7 : UInt8)).length = 74 := rfl
  apply (getValues_messageOrNone_iff Crc16.xmodem (some (4 :: List.replicate 73 7)) ?_).mpr
  · rintro bytes ⟨⟩ _
    rw [hlen]
    decide
  · rintro bytes ⟨⟩
    rw [hlen]
    decide

/-- A reply of older firmware, without the last five fields. -/
theorem getValues_raises :
    getValues Crc16.xmodem Messages.registry (some (4 :: List.replicate 58 0)) =
        .error .structError ∧
      ¬ MessageOrNone Messages.getValues
        (getValues Crc16.xmodem Messages.registry (some (4 :: List.replicate 58 0))) := by
  have hraised : getValues Crc16.xmodem Messages.registry (some (4 :: List.replicate 58 0)) =
      .error .structError := by
    rw [getValues_reply Crc16.xmodem rfl (by decide)]
    rfl
  refine ⟨hraised, ?_⟩
  rw [hraised]
  exact not_messageOrNone_error _ _

end PyVesc
