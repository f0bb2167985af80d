import PyVesc.Crc16
import PyVesc.Firmware

/-!
# The firmware checksum

The table of `firmware.py` holds what eight shifts of the register take out of it, for every value
of the byte that leaves. Its checksum is therefore the one that the packets carry, and like that one
it is linear in the image and vanishes on an image followed by its checksum.
-/

namespace PyVesc

open Crc16

theorem crc16Tab_eq : crc16Tab =
    (List.range 256).map fun i => (shift^[8] (UInt16.ofNat i <<< 8)).toNat := by
  decide +kernel

theorem getD_crc16Tab {i : ℕ} (hi : i < 256) :
    crc16Tab.getD i 0 = (shift^[8] (UInt16.ofNat i <<< 8)).toNat := by
  rw [crc16Tab_eq, List.getD_eq_getElem?_getD, List.getElem?_map, List.getElem?_range hi]
  rfl

/-- One turn of the loop takes a byte into the register. -/
theorem crc16_turn (c : UInt16) (b : UInt8) :
    (crc16Tab.getD (((c.toNat >>> 8) ^^^ b.toNat) &&& 0xFF) 0 ^^^ (c.toNat <<< 8)) &&& 0xFFFF =
      (feed c b).toNat := by
  have hhigh : c.toNat >>> 8 < 2 ^ 8 := by
    have hc := c.toNat_lt
    rw [Nat.shiftRight_eq_div_pow]
    omega
  have hindex : ((c.toNat >>> 8) ^^^ b.toNat) &&& 0xFF = (c >>> 8 ^^^ b.toUInt16).toNat := by
    rw [Nat.and_two_pow_sub_one_eq_mod _ 8, Nat.mod_eq_of_lt (Nat.xor_lt_two_pow hhigh b.toNat_lt),
      UInt16.toNat_xor, UInt16.toNat_shiftRight, UInt8.toNat_toUInt16]
    rfl
  have hlt : (c >>> 8 ^^^ b.toUInt16).toNat < 256 := by
    rw [← hindex]
    exact lt_of_le_of_lt Nat.and_le_right (by decide)
  rw [hindex, getD_crc16Tab hlt, UInt16.ofNat_toNat, feed_high, UInt16.toNat_xor,
    Nat.and_two_pow_sub_one_eq_mod _ 16, Nat.xor_mod_two_pow, UInt16.toNat_shiftLeft]
  congr 1
  exact Nat.mod_eq_of_lt (UInt16.toNat_lt _)

theorem crc16_eq_xmodem (data : Bytes) : crc16 data = (xmodem data).toNat := by
  induction data using List.reverseRecOn with
  | nil => rfl
  | append_singleton data b ih =>
    rw [crc16] at ih
    rw [crc16, List.foldl_append, ih, List.foldl_cons, List.foldl_nil, xmodem_append_singleton]
    exact crc16_turn (xmodem data) b

/-- An image that is damaged within 16 consecutive bits has another checksum. -/
theorem crc16_ne_of_burst {x y : Bytes} (hlen : x.length = y.length)
    (hburst : CyclicCode.Burst 16 (List.zipWith xor (messageBits x) (messageBits y))) :
    crc16 x ≠ crc16 y := by
  rw [crc16_eq_xmodem, crc16_eq_xmodem]
  exact fun heq => xmodem_ne_of_burst hlen hburst (UInt16.toNat_inj.mp heq)

/-- The table-driven checksum is the one computed bit by bit. -/
theorem crc16_spec : (∀ data, crc16 data = (xmodem data).toNat) ∧
    (∀ x y : Bytes, x.length = y.length →
      crc16 (List.zipWith (· ^^^ ·) x y) = crc16 x ^^^ crc16 y) ∧
    ∀ data, crc16 (data ++ BigEndian.ofNat 2 (crc16 data)) = 0 := by
  refine ⟨crc16_eq_xmodem, ?_, ?_⟩
  · intro x y hlen
    rw [crc16_eq_xmodem, crc16_eq_xmodem, crc16_eq_xmodem, xmodem_xor hlen, UInt16.toNat_xor]
  · intro data
    have hcrc : (xmodem data).toNat = BigEndian.toNat (BigEndian.ofNat 2 (crc16 data)) := by
      rw [BigEndian.toNat_ofNat (crc16_lt data), crc16_eq_xmodem]
    rw [crc16_eq_xmodem, xmodem_append_eq_zero (BigEndian.length_ofNat 2 _) hcrc]
    rfl

end PyVesc
