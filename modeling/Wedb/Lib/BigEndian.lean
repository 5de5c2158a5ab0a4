import Wedb.Lib.LittleEndian

/-!
# Big-endian words

A natural number as a fixed number of bytes, most significant byte first.
-/

namespace BigEndian

/-- The lowest `width` bytes of a number. -/
def encode (width n : Nat) : List UInt8 := (LittleEndian.encode width n).reverse

def decode (bs : List UInt8) : Nat := LittleEndian.decode bs.reverse

@[simp]
lemma length_encode (width n : Nat) : (encode width n).length = width := by
  rw [encode, List.length_reverse, LittleEndian.length_encode]

variable {width : Nat}

lemma decode_encode_of_lt {n : Nat} (h : n < 256 ^ width) : decode (encode width n) = n := by
  rw [decode, encode, List.reverse_reverse, LittleEndian.decode_encode_of_lt h]

variable {bs : List UInt8}

lemma encode_decode (h : bs.length = width) : encode width (decode bs) = bs := by
  have hencode := LittleEndian.encode_decode bs.reverse
  rw [List.length_reverse, h] at hencode
  rw [encode, decode, hencode, List.reverse_reverse]

lemma decode_lt (bs : List UInt8) : decode bs < 256 ^ bs.length := by
  rw [← List.length_reverse]
  exact LittleEndian.decode_lt bs.reverse

lemma decode_cons (b : UInt8) (bs : List UInt8) :
    decode (b :: bs) = 256 ^ bs.length * b.toNat + decode bs := by
  rw [decode, List.reverse_cons, LittleEndian.decode_append, List.length_reverse, add_comm]
  rfl

/-- The most significant byte apart. -/
lemma encode_succ (width n : Nat) :
    encode (width + 1) n = UInt8.ofNat (n / 256 ^ width) :: encode width n := by
  rw [encode, LittleEndian.encode_add, List.reverse_append]
  rfl

/-! ### The order of byte strings -/

/-- The number of `width` digits that starts with the bytes. -/
def weigh : Nat → List UInt8 → Nat
  | width + 1, b :: bs => 256 ^ width * b.toNat + weigh width bs
  | _, _ => 0

lemma weigh_lt (width : Nat) (bs : List UInt8) : weigh width bs < 256 ^ width := by
  induction width, bs using weigh.induct with
  | case1 width b =>
    have hmul := Nat.mul_le_mul_left (256 ^ width) (Nat.le_of_lt_succ b.toNat_lt)
    rw [weigh, pow_succ]
    omega
  | case2 width bs h =>
    rw [weigh]
    · exact Nat.pow_pos (by decide)
    · exact h

/-- The first digit that differs decides. -/
lemma lt_of_weigh_lt {cs : List UInt8} (h : weigh width bs < weigh width cs) : bs < cs := by
  induction width generalizing bs cs with
  | zero => simp [weigh] at h
  | succ width ih =>
    cases cs with
    | nil => simp [weigh] at h
    | cons c cs =>
      cases bs with
      | nil => exact List.nil_lt_cons c cs
      | cons b =>
        rw [weigh, weigh] at h
        rcases Nat.lt_trichotomy b.toNat c.toNat with hlt | heq | hgt
        · exact .rel hlt
        · obtain rfl := UInt8.toNat_inj.1 heq
          exact List.cons_lt_cons_self.2 (ih (Nat.lt_of_add_lt_add_left h))
        · have hmul := Nat.mul_le_mul_left (256 ^ width) (Nat.succ_le_of_lt hgt)
          have hrest := weigh_lt width cs
          rw [Nat.mul_succ] at hmul
          omega

lemma weigh_eq (h : bs.length ≤ width) :
    weigh width bs = 256 ^ (width - bs.length) * decode bs := by
  induction width, bs using weigh.induct with
  | case1 width b bs ih =>
    have hle := Nat.le_of_succ_le_succ h
    rw [weigh, ih hle, decode_cons, List.length_cons, Nat.succ_sub_succ, mul_add, ← mul_assoc,
      ← pow_add, Nat.sub_add_cancel hle]
  | case2 width bs hcons =>
    cases bs with
    | nil => cases width <;> rfl
    | cons b bs =>
      cases width with
      | zero => cases h
      | succ width => exact absurd rfl (hcons width b bs rfl)

end BigEndian
