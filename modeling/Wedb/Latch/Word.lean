import Mathlib.Algebra.Group.Nat.Defs
import Mathlib.Tactic.Common

/-!
# The latch word of a hash bucket

`windex::bucket`: the last slot of a bucket holds the link to its overflow bucket in 48 bits, the
number of shared latches in 13 bits, and one bit each for a waiting thread (handoff), a released
latch (notify) and the exclusive latch.
-/

namespace Wedb.Latch

open BitVec

abbrev Word := BitVec 64

def addressMask : Word := 0x0000FFFFFFFFFFFF#64

def sharedLatchMask : Word := 0x1FFF000000000000#64

def sharedLatchInc : Word := 0x0001000000000000#64

def handoffMask : Word := 0x2000000000000000#64

def releaseNotifyMask : Word := 0x4000000000000000#64

def exclusiveLatchMask : Word := 0x8000000000000000#64

/-- `num_latched_shared`. -/
def numLatchedShared (w : Word) : Nat := ((w &&& sharedLatchMask) >>> 48).toNat

/-- `overflow_index`. -/
def overflowIndex (w : Word) : Word := w &&& addressMask

/-! ## Parts of a word -/

/-- The handoff bit, the notify bit and the exclusive bit. -/
def flags (w : Word) : BitVec 3 := w.extractLsb' 61 3

def shared (w : Word) : BitVec 13 := w.extractLsb' 48 13

def link (w : Word) : BitVec 48 := w.extractLsb' 0 48

/-- The exclusive bit. -/
def exclusive (w : Word) : Bool := (flags w).getLsbD 2

lemma toNat_eq_parts (w : Word) :
    w.toNat = (flags w).toNat * 2 ^ 61 + (shared w).toNat * 2 ^ 48 + (link w).toNat := by
  simp only [flags, shared, link, extractLsb'_toNat]
  omega

lemma word_ext {w w' : Word} (hf : flags w = flags w') (hs : shared w = shared w')
    (hl : link w = link w') : w = w' := by
  apply eq_of_toNat_eq
  rw [toNat_eq_parts w, toNat_eq_parts w', hf, hs, hl]

section Parts

variable (w v : Word)

@[simp]
lemma flags_and : flags (w &&& v) = flags w &&& flags v := extractLsb'_and

@[simp]
lemma shared_and : shared (w &&& v) = shared w &&& shared v := extractLsb'_and

@[simp]
lemma link_and : link (w &&& v) = link w &&& link v := extractLsb'_and

@[simp]
lemma flags_or : flags (w ||| v) = flags w ||| flags v := extractLsb'_or

@[simp]
lemma shared_or : shared (w ||| v) = shared w ||| shared v := extractLsb'_or

@[simp]
lemma link_or : link (w ||| v) = link w ||| link v := extractLsb'_or

lemma numLatchedShared_eq : numLatchedShared w = (shared w).toNat := by
  have hparts := toNat_eq_parts (w &&& sharedLatchMask)
  have hf : flags (w &&& sharedLatchMask) = 0#3 := by
    rw [flags_and, show flags sharedLatchMask = 0#3 from by decide, and_zero]
  have hl : link (w &&& sharedLatchMask) = 0#48 := by
    rw [link_and, show link sharedLatchMask = 0#48 from by decide, and_zero]
  have hs : shared (w &&& sharedLatchMask) = shared w := by
    rw [shared_and, show shared sharedLatchMask = allOnes 13 from by decide, and_allOnes]
  rw [hf, hs] at hparts
  rw [numLatchedShared, toNat_ushiftRight, hparts]
  simp only [toNat_ofNat]
  omega

lemma overflowIndex_eq_iff : overflowIndex w = overflowIndex v ↔ link w = link v := by
  have hl : link addressMask = allOnes 48 := by decide
  have hs : shared addressMask = 0#13 := by decide
  have hf : flags addressMask = 0#3 := by decide
  constructor
  · intro h
    have hand := congrArg link h
    rwa [overflowIndex, overflowIndex, link_and, link_and, hl, and_allOnes, and_allOnes] at hand
  · intro h
    apply word_ext
    · simp [overflowIndex, hf]
    · simp [overflowIndex, hs]
    · simp [overflowIndex, h]

/-- The words agree on everything but the counter. -/
lemma and_not_sharedLatchMask_eq (hf : flags w = flags v) (hl : link w = link v) :
    w &&& ~~~sharedLatchMask = v &&& ~~~sharedLatchMask := by
  have hs : shared (~~~sharedLatchMask) = 0#13 := by decide
  apply word_ext
  · simp [hf]
  · simp [hs]
  · simp [hl]

end Parts

/-! ## Tests and updates of the latch operations -/

section Updates

variable {w : Word}

lemma exclusive_eq_false (h : w &&& exclusiveLatchMask = 0#64) : exclusive w = false := by
  have hand := congrArg flags h
  rw [flags_and] at hand
  have hall : ∀ f : BitVec 3, f &&& 4#3 = 0#3 → f.getLsbD 2 = false := by decide
  exact hall _ hand

lemma shared_eq_zero (h : w &&& sharedLatchMask = 0#64) : shared w = 0#13 := by
  have hand := congrArg shared h
  rwa [shared_and, show shared sharedLatchMask = allOnes 13 from by decide, and_allOnes] at hand

lemma shared_ne_allOnes (h : w &&& sharedLatchMask ≠ sharedLatchMask) :
    (shared w).toNat ≠ 8191 := by
  intro hs
  have hfull : shared w = allOnes 13 := eq_of_toNat_eq hs
  refine h (word_ext ?_ ?_ ?_)
  · rw [flags_and, show flags sharedLatchMask = 0#3 from by decide, and_zero]
  · rw [shared_and, hfull, allOnes_and]
  · rw [link_and, show link sharedLatchMask = 0#48 from by decide, and_zero]

lemma link_eq_zero (h : w &&& addressMask = 0#64) : link w = 0#48 := by
  have hand := congrArg link h
  rwa [link_and, show link addressMask = allOnes 48 from by decide, and_allOnes] at hand

lemma flags_toNat : (flags w).toNat = w.toNat / 2 ^ 61 % 2 ^ 3 := by
  rw [flags, extractLsb'_toNat, Nat.shiftRight_eq_div_pow]

lemma shared_toNat : (shared w).toNat = w.toNat / 2 ^ 48 % 2 ^ 13 := by
  rw [shared, extractLsb'_toNat, Nat.shiftRight_eq_div_pow]

lemma link_toNat : (link w).toNat = w.toNat % 2 ^ 48 := by
  rw [link, extractLsb'_toNat, Nat.shiftRight_zero]

lemma sharedLatchInc_toNat : sharedLatchInc.toNat = 2 ^ 48 := by decide

/-- One shared latch more; the counter is not full, so nothing is carried. -/
lemma parts_add_inc (h : (shared w).toNat ≠ 8191) :
    flags (w + sharedLatchInc) = flags w ∧ link (w + sharedLatchInc) = link w ∧
      (shared (w + sharedLatchInc)).toNat = (shared w).toNat + 1 := by
  have hsum : (w + sharedLatchInc).toNat = (w.toNat + 2 ^ 48) % 2 ^ 64 := by
    rw [toNat_add, sharedLatchInc_toNat]
  rw [shared_toNat] at h
  refine ⟨eq_of_toNat_eq ?_, eq_of_toNat_eq ?_, ?_⟩
  · rw [flags_toNat, flags_toNat]
    omega
  · rw [link_toNat, link_toNat]
    omega
  · rw [shared_toNat, shared_toNat]
    omega

/-- One shared latch less; the counter is not empty, so nothing is borrowed. -/
lemma parts_sub_inc (h : (shared w).toNat ≠ 0) :
    flags (w - sharedLatchInc) = flags w ∧ link (w - sharedLatchInc) = link w ∧
      (shared (w - sharedLatchInc)).toNat + 1 = (shared w).toNat := by
  have hdiff : (w - sharedLatchInc).toNat = (2 ^ 64 - 2 ^ 48 + w.toNat) % 2 ^ 64 := by
    rw [toNat_sub, sharedLatchInc_toNat]
  rw [shared_toNat] at h
  refine ⟨eq_of_toNat_eq ?_, eq_of_toNat_eq ?_, ?_⟩
  · rw [flags_toNat, flags_toNat]
    omega
  · rw [link_toNat, link_toNat]
    omega
  · rw [shared_toNat, shared_toNat]
    omega

end Updates

/-! ## Bits that a latch operation sets and clears -/

section Bits

variable (w : Word) {v : Word}

/-- Setting flags leaves the counter and the link alone. -/
lemma shared_or_of_eq_zero (hv : shared v = 0#13) : shared (w ||| v) = shared w := by
  rw [shared_or, hv, or_zero]

lemma link_or_of_eq_zero (hv : link v = 0#48) : link (w ||| v) = link w := by
  rw [link_or, hv, or_zero]

/-- Clearing flags leaves the counter and the link alone. -/
lemma shared_and_of_eq_allOnes (hv : shared v = allOnes 13) : shared (w &&& v) = shared w := by
  rw [shared_and, hv, and_allOnes]

lemma link_and_of_eq_allOnes (hv : link v = allOnes 48) : link (w &&& v) = link w := by
  rw [link_and, hv, and_allOnes]

lemma exclusive_or : exclusive (w ||| v) = (exclusive w || exclusive v) := by
  rw [exclusive, flags_or, getLsbD_or]
  rfl

lemma exclusive_and : exclusive (w &&& v) = (exclusive w && exclusive v) := by
  rw [exclusive, flags_and, getLsbD_and]
  rfl

end Bits

end Wedb.Latch
