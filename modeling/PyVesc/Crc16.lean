import PyVesc.BigEndian
import PyVesc.CyclicCode

/-!
# CRC-16/XMODEM, one bit at a time

Polynomial `0x1021`, initial value 0, no reflection and no final exclusive or. It is the remainder
of the message as a string of bits, each byte with its high bit first.
-/

namespace Crc16

open CyclicCode

def shift (c : UInt16) : UInt16 :=
  if c &&& 0x8000 = 0 then c <<< 1 else (c <<< 1) ^^^ 0x1021

def feed (c : UInt16) (b : UInt8) : UInt16 := shift^[8] (c ^^^ (b.toUInt16 <<< 8))

def xmodem (bs : List UInt8) : UInt16 := bs.foldl feed 0

example : xmodem [0x31, 0x32, 0x33, 0x34, 0x35, 0x36, 0x37, 0x38, 0x39] = 0x31C3 := by
  decide +kernel

def generator : BitVec 16 := 0x1021#16

theorem generator_low : generator.getLsbD 0 = true := by decide

theorem and_top_eq_zero_iff (c : UInt16) : c &&& 0x8000 = 0 ↔ c.toBitVec.msb = false := by
  rw [← UInt16.toBitVec_inj, UInt16.toBitVec_and]
  change c.toBitVec &&& BitVec.intMin 16 = 0#16 ↔ _
  constructor
  · intro hand
    have htop : (BitVec.intMin 16).msb = true := by decide
    have hmsb := congrArg BitVec.msb hand
    rwa [BitVec.msb_and, htop, Bool.and_true, BitVec.msb_zero] at hmsb
  · intro hmsb
    apply BitVec.eq_of_getMsbD_eq
    intro i _
    cases i with
    | zero => rw [BitVec.getMsbD_and, ← BitVec.msb_eq_getMsbD_zero, hmsb]; simp
    | succ i => simp [BitVec.getMsbD_intMin]

theorem toBitVec_shift (c : UInt16) : (shift c).toBitVec = step generator c.toBitVec := by
  rw [shift, step]
  by_cases htop : c &&& 0x8000 = 0
  · rw [if_pos htop, (and_top_eq_zero_iff c).mp htop]
    rfl
  · have hmsb : c.toBitVec.msb = true := by
      rw [and_top_eq_zero_iff] at htop
      exact Bool.eq_true_of_not_eq_false htop
    rw [if_neg htop, hmsb]
    rfl

theorem toBitVec_iterate_shift (n : ℕ) (c : UInt16) :
    (shift^[n] c).toBitVec = (step generator)^[n] c.toBitVec := by
  induction n generalizing c with
  | zero => rfl
  | succ n ih => rw [Function.iterate_succ_apply, Function.iterate_succ_apply, ih, toBitVec_shift]

/-- The bits of a message in the order in which the register takes them. -/
def messageBits (bs : List UInt8) : List Bool := bs.flatMap fun b => bits b.toBitVec

@[simp] theorem messageBits_cons (b : UInt8) (bs : List UInt8) :
    messageBits (b :: bs) = bits b.toBitVec ++ messageBits bs := List.flatMap_cons

theorem messageBits_append (as bs : List UInt8) :
    messageBits (as ++ bs) = messageBits as ++ messageBits bs := List.flatMap_append

theorem length_messageBits (bs : List UInt8) : (messageBits bs).length = 8 * bs.length := by
  induction bs with
  | nil => rfl
  | cons b bs ih =>
      rw [messageBits_cons, List.length_append, length_bits, ih, List.length_cons]
      omega

theorem toBitVec_feed (c : UInt16) (b : UInt8) :
    (feed c b).toBitVec = (bits b.toBitVec).foldl (push generator) c.toBitVec := by
  rw [feed, toBitVec_iterate_shift, foldl_push generator (by rw [length_bits]; decide), length_bits,
    place_bits_of_le (by decide)]
  rfl

theorem toBitVec_foldl_feed (bs : List UInt8) (c : UInt16) :
    (bs.foldl feed c).toBitVec = (messageBits bs).foldl (push generator) c.toBitVec := by
  induction bs generalizing c with
  | nil => rfl
  | cons b bs ih => rw [List.foldl_cons, ih, messageBits_cons, List.foldl_append, toBitVec_feed]

theorem xmodem_append_singleton (bs : List UInt8) (b : UInt8) :
    xmodem (bs ++ [b]) = feed (xmodem bs) b := by
  rw [xmodem, List.foldl_append, List.foldl_cons, List.foldl_nil, xmodem]

theorem toBitVec_xmodem (bs : List UInt8) :
    (xmodem bs).toBitVec = remainder generator (messageBits bs) := toBitVec_foldl_feed bs 0

/-- A byte may be taken into the register by a table over the eight bits that leave it. -/
theorem feed_high (c : UInt16) (b : UInt8) :
    feed c b = shift^[8] ((c >>> 8 ^^^ b.toUInt16) <<< 8) ^^^ c <<< 8 := by
  apply UInt16.toBitVec_inj.mp
  rw [toBitVec_feed, foldl_push_bits_high generator (by decide), UInt16.toBitVec_xor,
    toBitVec_iterate_shift]
  rfl

theorem messageBits_xor (as bs : List UInt8) :
    messageBits (List.zipWith (· ^^^ ·) as bs) =
      List.zipWith xor (messageBits as) (messageBits bs) := by
  induction as generalizing bs with
  | nil => rfl
  | cons a as ih =>
      cases bs with
      | nil => exact List.zipWith_nil_right.symm
      | cons b bs =>
          rw [List.zipWith_cons_cons, messageBits_cons, messageBits_cons, messageBits_cons,
            List.zipWith_append (by rw [length_bits, length_bits]), ← ih, UInt8.toBitVec_xor,
            bits_xor]

theorem xmodem_xor {as bs : List UInt8} (hlen : as.length = bs.length) :
    xmodem (List.zipWith (· ^^^ ·) as bs) = xmodem as ^^^ xmodem bs := by
  have hbits : (messageBits as).length = (messageBits bs).length := by
    rw [length_messageBits, length_messageBits, hlen]
  apply UInt16.toBitVec_inj.mp
  rw [toBitVec_xmodem, messageBits_xor, remainder_xor generator hbits, UInt16.toBitVec_xor,
    toBitVec_xmodem, toBitVec_xmodem]

/-- A message followed by its own checksum has the checksum 0. -/
theorem xmodem_append_checksum {bs : List UInt8} {high low : UInt8}
    (hcrc : (xmodem bs).toNat = high.toNat * 256 + low.toNat) : xmodem (bs ++ [high, low]) = 0 := by
  have hpair : (xmodem bs).toBitVec = high.toBitVec ++ low.toBitVec := by
    apply BitVec.eq_of_toNat_eq
    have hlow := low.toNat_lt
    rw [BitVec.toNat_append]
    change _ = high.toNat <<< 8 ||| low.toNat
    rw [← Nat.shiftLeft_add_eq_or_of_lt hlow, Nat.shiftLeft_eq]
    exact hcrc
  have hbits : messageBits [high, low] = bits (xmodem bs).toBitVec := by
    rw [hpair, bits_append, messageBits_cons, messageBits_cons]
    exact congrArg _ (List.append_nil _)
  apply UInt16.toBitVec_inj.mp
  rw [toBitVec_xmodem, messageBits_append, hbits, toBitVec_xmodem]
  exact remainder_append_remainder generator _

theorem xmodem_append_eq_zero {q s : List UInt8} (hs : s.length = 2)
    (hcrc : (xmodem q).toNat = BigEndian.toNat s) : xmodem (q ++ s) = 0 := by
  obtain ⟨high, low, rfl⟩ := List.length_eq_two.mp hs
  rw [BigEndian.toNat_pair] at hcrc
  exact xmodem_append_checksum hcrc

/-- Messages of one length that differ within 16 consecutive bits have different checksums. -/
theorem xmodem_ne_of_burst {as bs : List UInt8} (hlen : as.length = bs.length)
    (hburst : Burst 16 (List.zipWith xor (messageBits as) (messageBits bs))) :
    xmodem as ≠ xmodem bs := by
  intro heq
  have hbits : (messageBits as).length = (messageBits bs).length := by
    rw [length_messageBits, length_messageBits, hlen]
  apply remainder_ne_of_burst generator_low hbits hburst
  rw [← toBitVec_xmodem, ← toBitVec_xmodem, heq]

end Crc16
