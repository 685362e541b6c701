import Mathlib.Algebra.Group.Nat.Defs
import Mathlib.Data.List.Basic
import Mathlib.Data.Nat.Basic

/-!
# Little-endian bytes

`LittleEndian.encode k` lays a number out in `k` bytes, lowest first, and
`LittleEndian.decode` reads bytes back as a number.  Encoding then decoding
keeps the number modulo `256 ^ k`; decoding then encoding keeps the bytes.
`BitVec.toBytes` and `BitVec.ofBytes` are the same codec on words of whole
bytes.
-/

namespace ChattingServer

namespace LittleEndian

/-- The `k` lowest bytes of `n`, lowest first. -/
def encode : Nat → Nat → List (BitVec 8)
  | 0, _ => []
  | k + 1, n => BitVec.ofNat 8 n :: encode k (n / 256)

/-- The number whose bytes, lowest first, are given. -/
def decode : List (BitVec 8) → Nat
  | [] => 0
  | b :: bs => b.toNat + 256 * decode bs

@[simp] theorem length_encode (k n : Nat) : (encode k n).length = k := by
  induction k generalizing n with
  | zero => rfl
  | succ k ih => simp [encode, ih]

theorem decode_encode (k n : Nat) : decode (encode k n) = n % 256 ^ k := by
  induction k generalizing n with
  | zero => simp [encode, decode, Nat.mod_one]
  | succ k ih =>
      rw [encode, decode, ih, Nat.pow_succ', Nat.mod_mul, BitVec.toNat_ofNat]

theorem encode_decode (bs : List (BitVec 8)) : encode bs.length (decode bs) = bs := by
  induction bs with
  | nil => rfl
  | cons b bs ih =>
      have low : b.toNat < 256 := b.isLt
      have head : BitVec.ofNat 8 (b.toNat + 256 * decode bs) = b := by
        apply BitVec.eq_of_toNat_eq
        rw [BitVec.toNat_ofNat]
        omega
      have tail : (b.toNat + 256 * decode bs) / 256 = decode bs := by omega
      rw [List.length_cons, decode, encode, head, tail, ih]

theorem decode_lt (bs : List (BitVec 8)) : decode bs < 256 ^ bs.length := by
  induction bs with
  | nil => simp [decode]
  | cons b bs ih =>
      have low : b.toNat < 256 := b.isLt
      rw [decode, List.length_cons, Nat.pow_succ']
      omega

end LittleEndian

/-- The bytes of a word, lowest first. -/
def bytesOf {w : Nat} (x : BitVec w) : List (BitVec 8) :=
  LittleEndian.encode (w / 8) x.toNat

/-- The word with the given bytes, lowest first. -/
def ofBytes (w : Nat) (bs : List (BitVec 8)) : BitVec w :=
  BitVec.ofNat w (LittleEndian.decode bs)

@[simp] theorem length_bytesOf {w : Nat} (x : BitVec w) : (bytesOf x).length = w / 8 :=
  LittleEndian.length_encode _ _

/-- A word of whole bytes is determined by its bytes. -/
theorem ofBytes_bytesOf {k : Nat} (x : BitVec (8 * k)) : ofBytes (8 * k) (bytesOf x) = x := by
  have size : (256 : Nat) ^ k = 2 ^ (8 * k) := (Nat.pow_mul 2 8 k).symm
  apply BitVec.eq_of_toNat_eq
  have whole : 8 * k / 8 = k := Nat.mul_div_cancel_left k (by decide)
  rw [ofBytes, bytesOf, whole, LittleEndian.decode_encode, size, BitVec.toNat_ofNat,
    Nat.mod_mod, Nat.mod_eq_of_lt x.isLt]

/-- Bytes that fill a word are the bytes of that word. -/
theorem bytesOf_ofBytes {k : Nat} {bs : List (BitVec 8)} (h : bs.length = k) :
    bytesOf (ofBytes (8 * k) bs) = bs := by
  have size : (256 : Nat) ^ k = 2 ^ (8 * k) := (Nat.pow_mul 2 8 k).symm
  have whole : 8 * k / 8 = k := Nat.mul_div_cancel_left k (by decide)
  have bound : LittleEndian.decode bs < 2 ^ (8 * k) := by
    rw [← size, ← h]
    exact LittleEndian.decode_lt bs
  rw [bytesOf, ofBytes, whole, BitVec.toNat_ofNat, Nat.mod_eq_of_lt bound, ← h,
    LittleEndian.encode_decode]

end ChattingServer
