import Wedb.Lib.ByteBits

/-!
# Sketch of a migration

A bitmap over the hashes of the keys that are under way, and the phase their transfer is in
(`migration::sketch`). Keys whose hashes agree on the low bits share a bit.
-/

namespace Wedb.Migration

inductive SketchStatus where
  | initializing
  | transmitting
  | deleting
  | migrated
deriving DecidableEq, Repr

structure Sketch where
  size : Nat
  bitmap : List UInt8
  status : SketchStatus
  powerOfTwo : ∃ n, size = 2 ^ (n + 3)
  covered : bitmap.length = size >>> 3

namespace Sketch

/-- `with_key_count` for `2 ^ (n + 3)` positions. -/
def withKeyCount (n : Nat) : Sketch where
  size := 2 ^ (n + 3)
  bitmap := List.replicate (2 ^ (n + 3) >>> 3) 0
  status := .initializing
  powerOfTwo := ⟨n, rfl⟩
  covered := List.length_replicate

def setStatus (sketch : Sketch) (status : SketchStatus) : Sketch := { sketch with status }

/-- The first half of `clear`. -/
def clearBitmap (sketch : Sketch) : Sketch :=
  { sketch with
    bitmap := List.replicate sketch.bitmap.length 0
    covered := by rw [List.length_replicate, sketch.covered] }

/-- The byte and the bit of a hash. -/
def slotOffsetFromHash (hash sizeMask : Nat) : Nat × Nat :=
  let slot := hash &&& sizeMask
  (slot >>> 3, slot &&& 7)

def slotOffset (sketch : Sketch) (hash : Nat) : Nat × Nat := slotOffsetFromHash hash (sketch.size - 1)

def bit (i : Nat) : UInt8 := 1 <<< UInt8.ofNat i

def hashAndStore (sketch : Sketch) (hash : Nat) : Sketch :=
  let (byteOffset, bitOffset) := sketch.slotOffset hash
  { sketch with
    bitmap := sketch.bitmap.modify byteOffset (· ||| bit bitOffset)
    covered := by rw [List.length_modify, sketch.covered] }

/-- The first half of `probe`. -/
def contains (sketch : Sketch) (hash : Nat) : Bool :=
  let (byteOffset, bitOffset) := sketch.slotOffset hash
  (sketch.bitmap.getD byteOffset 0) &&& bit bitOffset ≠ 0

lemma and_bit_ne_zero {i : Nat} (h : i < 8) (b : UInt8) :
    b &&& bit i ≠ 0 ↔ b.toNat.testBit i = true :=
  ByteBits.and_mask_ne_zero h b

lemma testBit_bit {i : Nat} (h : i < 8) (j : Nat) : (bit i).toNat.testBit j = decide (i = j) :=
  ByteBits.testBit_mask h j

section

variable (sketch : Sketch)
include sketch

lemma byteOffset_lt (hash : Nat) : (sketch.slotOffset hash).1 < sketch.bitmap.length := by
  obtain ⟨n, hn⟩ := sketch.powerOfTwo
  have hle : hash &&& (sketch.size - 1) ≤ sketch.size - 1 := Nat.and_le_right
  have hpos : 0 < 2 ^ n := Nat.two_pow_pos n
  have hoffset : (sketch.slotOffset hash).1 = (hash &&& (sketch.size - 1)) / 2 ^ 3 :=
    Nat.shiftRight_eq_div_pow _ 3
  rw [sketch.covered, hoffset]
  rw [hn, pow_add] at hle ⊢
  omega

lemma bitOffset_lt (hash : Nat) : (sketch.slotOffset hash).2 < 8 :=
  Nat.lt_of_le_of_lt Nat.and_le_right (by decide)

lemma contains_iff (hash : Nat) :
    sketch.contains hash = true ↔ ∃ b, sketch.bitmap[(sketch.slotOffset hash).1]? = some b ∧
      b.toNat.testBit (sketch.slotOffset hash).2 = true := by
  have hget := List.getElem?_eq_getElem (sketch.byteOffset_lt hash)
  have hbit := and_bit_ne_zero (sketch.bitOffset_lt hash)
  unfold contains
  dsimp only
  rw [List.getD_eq_getElem?_getD, hget, decide_eq_true_iff, hbit]
  simp

lemma contains_hashAndStore_iff (hash other : Nat) :
    (sketch.hashAndStore other).contains hash = true ↔
      sketch.contains hash = true ∨ sketch.slotOffset other = sketch.slotOffset hash := by
  have hbit := sketch.bitOffset_lt other
  have hlt := sketch.byteOffset_lt other
  have hoffset : (sketch.hashAndStore other).slotOffset hash = sketch.slotOffset hash := rfl
  have hbitmap : (sketch.hashAndStore other).bitmap =
      sketch.bitmap.modify (sketch.slotOffset other).1 (· ||| bit (sketch.slotOffset other).2) := rfl
  rw [contains_iff, contains_iff, hoffset, hbitmap, List.getElem?_modify, Prod.ext_iff]
  by_cases hbyte : (sketch.slotOffset other).1 = (sketch.slotOffset hash).1
  · rw [hbyte] at hlt ⊢
    rw [List.getElem?_eq_getElem hlt]
    simp [testBit_bit hbit]
  · simp [hbyte]

/-- A key that has been recorded is found. -/
@[simp] lemma contains_hashAndStore_self (hash : Nat) :
    (sketch.hashAndStore hash).contains hash = true :=
  (sketch.contains_hashAndStore_iff hash hash).2 (.inr rfl)

/-- Recording a key takes no other key away. -/
lemma contains_hashAndStore {hash : Nat} (h : sketch.contains hash = true)
    (other : Nat) : (sketch.hashAndStore other).contains hash = true :=
  (sketch.contains_hashAndStore_iff hash other).2 (.inl h)

end

end Sketch

end Wedb.Migration
