import Mathlib.Data.List.Sort

/-!
# The locking plan of a transaction

The key entries of a transaction (`wtxn::txn_key_entry`) become one slot for each bucket they fall
in, in ascending order, with the stronger of the lock types.
-/

namespace Wedb.Txn

structure TxnKeyEntry where
  keyHash : Int64
  exclusive : Bool
deriving DecidableEq

structure LockPlanSlot where
  bucket : Nat
  exclusive : Bool
deriving DecidableEq

/-- `bucket_index_for_hash` of the index with the given mask. -/
def bucketIndexForHash (mask : UInt64) (hash : Int64) : Nat := (hash.toUInt64 &&& mask).toNat

def TxnKeyEntry.slot (mask : UInt64) (e : TxnKeyEntry) : LockPlanSlot :=
  ⟨bucketIndexForHash mask e.keyHash, e.exclusive⟩

/-- `TxnKeyEntryComparison::compare`: by bucket, then by hash, exclusive locks first. -/
def TxnKeyEntry.Le (mask : UInt64) (e e' : TxnKeyEntry) : Prop :=
  (e.slot mask).bucket < (e'.slot mask).bucket ∨ (e.slot mask).bucket = (e'.slot mask).bucket ∧
    (e.keyHash.toInt < e'.keyHash.toInt ∨ e.keyHash.toInt = e'.keyHash.toInt ∧
      (e'.exclusive → e.exclusive))
deriving Decidable

/-- The slots behind the last one pushed. -/
def mergeInto (last : LockPlanSlot) : List LockPlanSlot → List LockPlanSlot
  | [] => [last]
  | slot :: rest =>
    if last.bucket = slot.bucket then
      mergeInto ⟨last.bucket, last.exclusive || slot.exclusive⟩ rest
    else last :: mergeInto slot rest

def mergeSlots : List LockPlanSlot → List LockPlanSlot
  | [] => []
  | slot :: rest => mergeInto slot rest

def lockPlan (mask : UInt64) (keys : List TxnKeyEntry) : List LockPlanSlot :=
  mergeSlots ((keys.insertionSort (TxnKeyEntry.Le mask)).map (TxnKeyEntry.slot mask))

/-- A slot stands for another: it is of the same bucket and as strong. -/
def LockPlanSlot.Covers (slot other : LockPlanSlot) : Prop :=
  slot.bucket = other.bucket ∧ (other.exclusive = true → slot.exclusive = true)

lemma exists_covers_mergeInto (slots : List LockPlanSlot) :
    ∀ last, ∀ other ∈ last :: slots, ∃ slot ∈ mergeInto last slots, slot.Covers other := by
  induction slots with
  | nil => simp [mergeInto, LockPlanSlot.Covers]
  | cons next rest ih =>
    intro last other hother
    rw [mergeInto]
    split_ifs with heq
    · -- the slot that takes in both stands for either
      by_cases hrest : other ∈ rest
      · exact ih _ other (List.mem_cons_of_mem _ hrest)
      · obtain ⟨slot, hslot, hcovers⟩ := ih _ _ List.mem_cons_self
        exact ⟨slot, hslot, by grind [LockPlanSlot.Covers]⟩
    · rcases List.mem_cons.1 hother with rfl | hother
      · exact ⟨other, List.mem_cons_self, rfl, id⟩
      · obtain ⟨slot, hslot, hcovers⟩ := ih next other hother
        exact ⟨slot, List.mem_cons_of_mem _ hslot, hcovers⟩

lemma pairwise_mergeInto (slots : List LockPlanSlot) :
    ∀ last, (last :: slots).Pairwise (·.bucket ≤ ·.bucket) →
      (mergeInto last slots).Pairwise (·.bucket < ·.bucket) ∧
        ∀ slot ∈ mergeInto last slots, last.bucket ≤ slot.bucket := by
  induction slots with
  | nil => simp [mergeInto]
  | cons =>
    intro last h
    grind [mergeInto, List.pairwise_cons]

lemma exists_covers_lockPlan (mask : UInt64) {keys : List TxnKeyEntry} {e : TxnKeyEntry}
    (h : e ∈ keys) : ∃ slot ∈ lockPlan mask keys, slot.Covers (e.slot mask) := by
  have hmem := List.mem_map_of_mem (f := TxnKeyEntry.slot mask)
    ((List.mem_insertionSort (TxnKeyEntry.Le mask)).2 h)
  unfold lockPlan
  generalize (keys.insertionSort (TxnKeyEntry.Le mask)).map (TxnKeyEntry.slot mask) = slots at *
  cases slots with
  | nil => cases hmem
  | cons slot rest => exact exists_covers_mergeInto rest slot _ hmem

/-- The plan is strictly ascending. -/
lemma pairwise_lockPlan (mask : UInt64) (keys : List TxnKeyEntry) :
    (lockPlan mask keys).Pairwise (·.bucket < ·.bucket) := by
  have : Std.Total (TxnKeyEntry.Le mask) := ⟨by grind [TxnKeyEntry.Le]⟩
  have : IsTrans _ (TxnKeyEntry.Le mask) := ⟨by grind [TxnKeyEntry.Le]⟩
  have hsorted : ((keys.insertionSort (TxnKeyEntry.Le mask)).map (TxnKeyEntry.slot mask)).Pairwise
      (·.bucket ≤ ·.bucket) :=
    List.pairwise_map.2 ((List.pairwise_insertionSort (TxnKeyEntry.Le mask) keys).imp fun h => by
      grind [TxnKeyEntry.Le])
  unfold lockPlan
  generalize (keys.insertionSort (TxnKeyEntry.Le mask)).map (TxnKeyEntry.slot mask) = slots at *
  cases slots with
  | nil => exact .nil
  | cons slot rest => exact (pairwise_mergeInto rest slot hsorted).1

/-- What the plan asks for, one of the entries asks for. -/
lemma exists_covers_of_mem_mergeInto {slot : LockPlanSlot} (slots : List LockPlanSlot) :
    ∀ last, slot ∈ mergeInto last slots → ∃ other ∈ last :: slots, other.Covers slot := by
  induction slots with
  | nil => simp [mergeInto, LockPlanSlot.Covers]
  | cons next rest ih =>
    intro last hslot
    by_contra! h
    have hlast := h last (by simp)
    have hnext := h next (by simp)
    grind [mergeInto, LockPlanSlot.Covers]

/-- A transaction latches each bucket of its keys once, in the one ascending order, and no stronger than
one of its keys asks for. -/
theorem lockPlan_exact (mask : UInt64) (keys : List TxnKeyEntry) :
    (lockPlan mask keys).Pairwise (·.bucket < ·.bucket) ∧
      (∀ e ∈ keys, ∃ slot ∈ lockPlan mask keys, slot.Covers (e.slot mask)) ∧
      ∀ slot ∈ lockPlan mask keys, ∃ e ∈ keys, (e.slot mask).Covers slot := by
  refine ⟨pairwise_lockPlan mask keys, fun e => exists_covers_lockPlan mask, fun slot hslot => ?_⟩
  have hmem : ∀ other ∈ (keys.insertionSort (TxnKeyEntry.Le mask)).map (TxnKeyEntry.slot mask),
      ∃ e ∈ keys, e.slot mask = other := by simp
  unfold lockPlan at hslot
  generalize (keys.insertionSort (TxnKeyEntry.Le mask)).map (TxnKeyEntry.slot mask) = slots at *
  cases slots with
  | nil => cases hslot
  | cons first rest =>
    obtain ⟨other, hother, hcovers⟩ := exists_covers_of_mem_mergeInto rest first hslot
    obtain ⟨e, he, rfl⟩ := hmem other hother
    exact ⟨e, he, hcovers⟩

end Wedb.Txn
