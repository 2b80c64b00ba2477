import Mathlib.Data.List.Basic
import Mathlib.Tactic.Ring

/-!
# `Lib.LittleEndian` — numbers as bytes, least significant first

A natural number becomes exactly `w` bytes and back, with the round trips in both directions, and the
four-byte words a wire format is made of.
-/

namespace LittleEndian

/-- The `w` low bytes of `n`. -/
def encode : Nat → Nat → List UInt8
  | 0, _ => []
  | w + 1, n => UInt8.ofNat n :: encode w (n / 256)

/-- The number the bytes stand for. -/
def decode : List UInt8 → Nat
  | [] => 0
  | b :: bs => b.toNat + 256 * decode bs

@[simp] theorem length_encode (w n : Nat) : (encode w n).length = w := by
  induction w generalizing n with
  | zero => rfl
  | succ w ih => rw [encode, List.length_cons, ih]

theorem decode_lt (bs : List UInt8) : decode bs < 256 ^ bs.length := by
  induction bs with
  | nil => exact Nat.one_pos
  | cons b bs ih =>
    have hb : b.toNat < 256 := b.toNat_lt
    rw [decode, List.length_cons, pow_succ]
    omega

/-- Encoding drops what does not fit. -/
theorem decode_encode (w n : Nat) : decode (encode w n) = n % 256 ^ w := by
  induction w generalizing n with
  | zero => rw [encode, decode, pow_zero, Nat.mod_one]
  | succ w ih =>
    have hb : (UInt8.ofNat n).toNat = n % 256 := UInt8.toNat_ofNat'
    rw [encode, decode, ih, hb, pow_succ', Nat.mod_mul]

theorem decode_encode_of_lt {w n} (h : n < 256 ^ w) : decode (encode w n) = n := by
  rw [decode_encode, Nat.mod_eq_of_lt h]

theorem encode_decode (bs : List UInt8) : encode bs.length (decode bs) = bs := by
  induction bs with
  | nil => rfl
  | cons b bs ih =>
    have hb : b.toNat < 256 := b.toNat_lt
    have hlow : UInt8.ofNat (b.toNat + 256 * decode bs) = b := by
      apply UInt8.toNat_inj.1
      rw [UInt8.toNat_ofNat', Nat.add_mul_mod_self_left, Nat.mod_eq_of_lt hb]
    have hhigh : (b.toNat + 256 * decode bs) / 256 = decode bs := by omega
    rw [List.length_cons, decode, encode, hlow, hhigh, ih]

/-! ## Words of four bytes -/

/-- The word at the head of the bytes. -/
def uint32 (bs : List UInt8) : UInt32 := UInt32.ofNat (decode (bs.take 4))

/-- The bytes of a word. -/
def putUint32 (x : UInt32) : List UInt8 := encode 4 x.toNat

@[simp] theorem length_putUint32 (x : UInt32) : (putUint32 x).length = 4 := length_encode 4 _

@[simp] theorem take_putUint32_append (x : UInt32) (bs : List UInt8) :
    (putUint32 x ++ bs).take 4 = putUint32 x := List.take_left' (length_putUint32 x)

@[simp] theorem drop_putUint32_append (x : UInt32) (bs : List UInt8) :
    (putUint32 x ++ bs).drop 4 = bs := List.drop_left' (length_putUint32 x)

@[simp] theorem uint32_putUint32_append (x : UInt32) (bs : List UInt8) :
    uint32 (putUint32 x ++ bs) = x := by
  have hx : x.toNat < 256 ^ 4 := x.toNat_lt
  rw [uint32, take_putUint32_append, putUint32, decode_encode_of_lt hx, UInt32.ofNat_toNat]

end LittleEndian
