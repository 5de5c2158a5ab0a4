import Mathlib.Tactic.Ring

/-!
# Little-endian words

A natural number as a fixed number of bytes, least significant byte first.
-/

namespace LittleEndian

/-- The lowest `width` bytes of a number. -/
def encode : Nat → Nat → List UInt8
  | 0, _ => []
  | width + 1, n => UInt8.ofNat n :: encode width (n / 256)

def decode : List UInt8 → Nat
  | [] => 0
  | b :: bs => b.toNat + 256 * decode bs

@[simp]
lemma length_encode (width n : Nat) : (encode width n).length = width := by
  induction width generalizing n with
  | zero => rfl
  | succ width ih => simp [encode, ih]

lemma decode_encode (width n : Nat) : decode (encode width n) = n % 256 ^ width := by
  induction width generalizing n with
  | zero => simp [encode, decode, Nat.mod_one]
  | succ width ih =>
    have hbyte : (UInt8.ofNat n).toNat = n % 256 := UInt8.toNat_ofNat'
    rw [encode, decode, ih, hbyte, pow_succ', Nat.mod_mul]

lemma decode_encode_of_lt {width n : Nat} (h : n < 256 ^ width) : decode (encode width n) = n := by
  rw [decode_encode, Nat.mod_eq_of_lt h]

lemma decode_lt (bs : List UInt8) : decode bs < 256 ^ bs.length := by
  induction bs with
  | nil => simp [decode]
  | cons b =>
    have hb : b.toNat < 256 := b.toNat_lt
    rw [decode, List.length_cons]
    omega

lemma encode_decode (bs : List UInt8) : encode bs.length (decode bs) = bs := by
  induction bs with
  | nil => rfl
  | cons b bs ih =>
    have hb : b.toNat < 256 := b.toNat_lt
    have hdiv : (b.toNat + 256 * decode bs) / 256 = decode bs := by omega
    have hmod : .ofNat (b.toNat + 256 * decode bs) = b := by
      apply UInt8.toNat.inj
      rw [UInt8.toNat_ofNat']
      omega
    rw [List.length_cons, decode, encode, hdiv, hmod, ih]

/-- Two words one after the other are one wide word. -/
lemma decode_append (as bs : List UInt8) :
    decode (as ++ bs) = decode as + 256 ^ as.length * decode bs := by
  induction as with
  | nil => simp [decode]
  | cons a as ih =>
    rw [List.cons_append, decode, decode, ih, List.length_cons]
    ring

lemma encode_add (k width n : Nat) :
    encode (k + width) n = encode k n ++ encode width (n / 256 ^ k) := by
  induction k generalizing n with
  | zero => simp [encode]
  | succ k ih =>
    rw [add_right_comm, encode, encode, ih, Nat.div_div_eq_div_mul, ← pow_succ', List.cons_append]

end LittleEndian
