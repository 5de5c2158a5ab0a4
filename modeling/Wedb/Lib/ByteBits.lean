import Mathlib.Data.Nat.Bitwise

/-!
# Bits in a row of bytes

Bit `i` of a row is bit `i % 8`, counted from the lowest, of byte `i / 8`.
-/

namespace ByteBits

/-- The byte with one bit. -/
def mask (i : Nat) : UInt8 := 1 <<< UInt8.ofNat i

lemma toNat_mask : ∀ i < 8, (mask i).toNat = 2 ^ i := by decide

lemma and_mask_ne_zero {i : Nat} (h : i < 8) (b : UInt8) :
    b &&& mask i ≠ 0 ↔ b.toNat.testBit i = true := by
  rw [Ne, ← UInt8.toNat_inj, UInt8.toNat_and, toNat_mask i h, Nat.and_two_pow]
  cases b.toNat.testBit i <;> simp

lemma testBit_mask {i : Nat} (h : i < 8) (j : Nat) : (mask i).toNat.testBit j = decide (i = j) := by
  rw [toNat_mask i h, Nat.testBit_two_pow]

def isSet (bytes : List UInt8) (i : Nat) : Bool := bytes.getD (i / 8) 0 &&& mask (i % 8) ≠ 0

def set (bytes : List UInt8) (i : Nat) : List UInt8 := bytes.modify (i / 8) (· ||| mask (i % 8))

@[simp] lemma length_set (bytes : List UInt8) (i : Nat) : (set bytes i).length = bytes.length :=
  List.length_modify _ _ _

lemma isSet_iff (bytes : List UInt8) (i : Nat) :
    isSet bytes i = true ↔ (bytes.getD (i / 8) 0).toNat.testBit (i % 8) = true := by
  rw [isSet, decide_eq_true_iff, and_mask_ne_zero (Nat.mod_lt _ (by decide))]

@[simp] lemma isSet_replicate_zero (n i : Nat) : isSet (List.replicate n 0) i = false := by
  rw [← Bool.not_eq_true, isSet_iff, List.getD_eq_getElem?_getD, List.getElem?_replicate]
  split <;> simp

/-- Setting a bit of the row changes that bit. -/
lemma isSet_set_iff {bytes : List UInt8} {i : Nat} (h : i / 8 < bytes.length) (j : Nat) :
    isSet (set bytes i) j = true ↔ isSet bytes j = true ∨ i = j := by
  have hlt : i % 8 < 8 := Nat.mod_lt _ (by decide)
  have hbits : i = j ↔ i / 8 = j / 8 ∧ i % 8 = j % 8 := by omega
  rw [isSet_iff, isSet_iff, set, List.getD_eq_getElem?_getD, List.getD_eq_getElem?_getD,
    List.getElem?_modify, hbits]
  by_cases hbyte : i / 8 = j / 8
  · rw [hbyte] at h ⊢
    rw [List.getElem?_eq_getElem h]
    simp [testBit_mask hlt]
  · simp [hbyte]

end ByteBits
