import Mathlib.Data.Nat.Bitwise

/-!
# Words of a hash bucket

A data slot of a bucket is one 64-bit word: a 48-bit log address, a 15-bit tag and a tentative
bit. Bit 47 of the address marks an address of the read cache. The word `0` is the empty slot.
Words are natural numbers; the masks and shifts of the source are remainders and quotients by
powers of two.
-/

namespace Wedb

/-- The size of the 48-bit address space (`ADDRESS_MASK + 1`). -/
abbrev addressSpace : Nat := 2 ^ 48

/-- The number of tags (`TAG_MASK + 1`). -/
abbrev tagSpace : Nat := 2 ^ 15

namespace HashBucketEntry

/-- Pack an address, a tag and the tentative bit into a word. -/
def new (address tag : Nat) (tentative : Bool) : Nat :=
  address % addressSpace + tag % tagSpace * addressSpace + if tentative then 2 ^ 63 else 0

def address (raw : Nat) : Nat := raw % addressSpace

def tag (raw : Nat) : Nat := raw / addressSpace % tagSpace

def isTentative (raw : Nat) : Bool := raw / 2 ^ 63 % 2 == 1

def isReadCache (raw : Nat) : Bool := raw / 2 ^ 47 % 2 == 1

def isValid (raw : Nat) : Bool := raw != 0 && !isTentative raw

/-- A committed entry of the given tag: the high 16 bits are the tag alone (so the tentative bit
is clear) and the address is not the invalid one. -/
def matchesTag (raw tag : Nat) : Bool :=
  raw / addressSpace == tag % tagSpace && raw % addressSpace != 0

/-- The tag of a key's hash: its top 15 bits. -/
def tagFromHash (hash : Nat) : Nat := hash / 2 ^ 49 % tagSpace

lemma tagFromHash_lt (hash : Nat) : tagFromHash hash < tagSpace := Nat.mod_lt _ (by decide)

lemma matchesTag_iff {raw tag : Nat} :
    matchesTag raw tag = true ↔ raw / addressSpace = tag % tagSpace ∧ address raw ≠ 0 := by
  simp [matchesTag, address]

@[simp] lemma not_matchesTag_zero (tag : Nat) : matchesTag 0 tag = false := by
  simp [matchesTag]

@[simp] lemma address_zero : address 0 = 0 := rfl

@[simp] lemma address_new (a t : Nat) (tent : Bool) : address (new a t tent) = a % addressSpace := by
  cases tent <;>
    simp only [address, new, addressSpace, Bool.false_eq_true, if_false, if_true] <;> omega

/-- A word packed for one tag matches exactly that tag, provided its address is a real one. -/
lemma matchesTag_new {a t u : Nat} (ha : a % addressSpace ≠ 0) :
    matchesTag (new a t false) u = true ↔ t % tagSpace = u % tagSpace := by
  rw [matchesTag_iff, address_new]
  simp only [new, addressSpace] at *
  constructor
  · rintro ⟨h, -⟩
    simp only [Bool.false_eq_true, if_false] at h
    omega
  · intro h
    refine ⟨?_, ha⟩
    simp only [Bool.false_eq_true, if_false]
    omega

/-- No word matches two different tags. -/
lemma tag_eq_of_matchesTag {raw t u : Nat} (ht : matchesTag raw t = true)
    (hu : matchesTag raw u = true) : t % tagSpace = u % tagSpace := by
  rw [matchesTag_iff] at ht hu
  exact ht.1.symm.trans hu.1

end HashBucketEntry

end Wedb
