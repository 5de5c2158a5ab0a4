import Mathlib.Data.List.Basic
import Mathlib.Order.MinMax

/-!
# Pending and completed flush ranges

`PendingFlushList` keeps two lists: ranges that a failed round has put back, and ranges that were
written ahead of the durable prefix.
-/

namespace Wedb.Log

structure PageFlushRange where
  fromAddress : Nat
  untilAddress : Nat
  deriving DecidableEq, Repr

namespace PageFlushRange

def isEmpty (r : PageFlushRange) : Bool := r.untilAddress ≤ r.fromAddress

/-- The overlap test of `coalesce`; adjacent ranges count. -/
def touches (r q : PageFlushRange) : Bool :=
  q.fromAddress ≤ r.untilAddress && r.fromAddress ≤ q.untilAddress

def hull (r q : PageFlushRange) : PageFlushRange :=
  ⟨min r.fromAddress q.fromAddress, max r.untilAddress q.untilAddress⟩

/-- `clamp_flush_range`. -/
def clamp (r : PageFlushRange) (flushed : Nat) : PageFlushRange :=
  if r.untilAddress ≤ flushed then ⟨0, 0⟩
  else if r.fromAddress < flushed then ⟨flushed, r.untilAddress⟩
  else r

/-- `defer_flush_tail`. -/
def deferTail (r : PageFlushRange) (sealedUntil tail : Nat) : Option PageFlushRange :=
  if sealedUntil < min r.untilAddress tail then some ⟨sealedUntil, min r.untilAddress tail⟩
  else none

variable {r : PageFlushRange} {flushed : Nat}

/-- A clamped range that is not empty begins at the durable prefix or above it, and at the prefix
if the range did not begin above it. -/
lemma clamp_fromAddress (hne : (r.clamp flushed).isEmpty = false)
    (h : r.fromAddress ≤ flushed) : (r.clamp flushed).fromAddress = flushed := by
  by_cases hu : r.untilAddress ≤ flushed
  · rw [clamp, if_pos hu] at hne
    cases hne
  · by_cases hf : r.fromAddress < flushed
    · rw [clamp, if_neg hu, if_pos hf]
    · rw [clamp, if_neg hu, if_neg hf]
      omega

lemma clamp_fromAddress_le (h : r.fromAddress ≤ flushed) :
    (r.clamp flushed).fromAddress ≤ flushed := by
  by_cases hu : r.untilAddress ≤ flushed
  · rw [clamp, if_pos hu]
    exact Nat.zero_le _
  · by_cases hf : r.fromAddress < flushed
    · rw [clamp, if_neg hu, if_pos hf]
    · rw [clamp, if_neg hu, if_neg hf]
      exact h

end PageFlushRange

/-- `Vec::swap_remove`. -/
def swapRemove {α : Type} (l : List α) (i : Nat) : List α :=
  match l.getLast? with
  | none => []
  | some last => (l.set i last).dropLast

/-- The loop of `coalesce`; every round takes one range out of the list. -/
def absorb : Nat → PageFlushRange → List PageFlushRange → PageFlushRange × List PageFlushRange
  | 0, r, l => (r, l)
  | k + 1, r, l =>
    match l.findIdx? r.touches with
    | none => (r, l)
    | some i =>
      match l[i]? with
      | none => (r, l)
      | some q => absorb k (r.hull q) (swapRemove l i)

/-- `coalesce`. -/
def coalesce (pending : List PageFlushRange) (r : PageFlushRange) (flushed : Nat) :
    PageFlushRange × List PageFlushRange :=
  let live := pending.filter fun q => flushed < q.untilAddress
  absorb live.length r live

lemma absorb_fromAddress_le (k : Nat) (r : PageFlushRange) (l : List PageFlushRange) :
    (absorb k r l).1.fromAddress ≤ r.fromAddress := by
  induction k generalizing r l with
  | zero => exact le_rfl
  | succ k ih =>
    rw [absorb]
    cases l.findIdx? r.touches with
    | none => exact le_rfl
    | some i =>
      cases hq : l[i]? with
      | none => simp only [hq, le_refl]
      | some =>
        simp only [hq]
        exact (ih _ _).trans (min_le_left _ _)

/-- One step of the cascade of `complete_flush_range`: a completed range that the prefix has
reached is absorbed, any other is kept. -/
def cascade (tailCap : Nat) (acc : Nat × List PageFlushRange) (r : PageFlushRange) :
    Nat × List PageFlushRange :=
  if r.fromAddress ≤ acc.1 then (max acc.1 (min r.untilAddress tailCap), acc.2)
  else (acc.1, acc.2 ++ [r])

/-- `complete_flush_range`: the new durable prefix and the new list of completed ranges. -/
def completeFlushRange (r : PageFlushRange) (tailCap flushed : Nat)
    (completed : List PageFlushRange) : Nat × List PageFlushRange :=
  if r.isEmpty then (flushed, completed)
  else if r.fromAddress ≤ flushed then
    let (newFlushed, kept) :=
      completed.foldl (cascade tailCap) (max (min r.untilAddress tailCap) flushed, [])
    (max flushed newFlushed, kept)
  else
    (flushed, completed.takeWhile (·.fromAddress < r.fromAddress) ++
      r :: completed.dropWhile (·.fromAddress < r.fromAddress))

section Complete

variable (tailCap : Nat) {flushed bound : Nat} {r : PageFlushRange} {completed : List PageFlushRange}

lemma cascade_bounded {acc : Nat × List PageFlushRange} (hr : r.untilAddress ≤ bound)
    (h : acc.1 ≤ bound ∧ ∀ q ∈ acc.2, q.untilAddress ≤ bound) :
    (cascade tailCap acc r).1 ≤ bound ∧ ∀ q ∈ (cascade tailCap acc r).2, q.untilAddress ≤ bound := by
  by_cases hf : r.fromAddress ≤ acc.1
  · rw [cascade, if_pos hf]
    exact ⟨Nat.max_le.mpr ⟨h.1, (min_le_left _ _).trans hr⟩, h.2⟩
  · rw [cascade, if_neg hf]
    refine ⟨h.1, fun q hq => ?_⟩
    rcases List.mem_append.mp hq with hq | hq
    · exact h.2 q hq
    · rw [List.mem_singleton.mp hq]
      exact hr

lemma foldl_cascade_bounded (acc : Nat × List PageFlushRange)
    (hc : ∀ q ∈ completed, q.untilAddress ≤ bound)
    (h : acc.1 ≤ bound ∧ ∀ q ∈ acc.2, q.untilAddress ≤ bound) :
    (completed.foldl (cascade tailCap) acc).1 ≤ bound ∧
      ∀ q ∈ (completed.foldl (cascade tailCap) acc).2, q.untilAddress ≤ bound := by
  induction completed generalizing acc with
  | nil => exact h
  | cons q qs ih =>
    apply ih
    · exact fun q' hq' => hc q' (List.mem_cons_of_mem q hq')
    · exact cascade_bounded tailCap (hc q List.mem_cons_self) h

lemma le_completeFlushRange (r : PageFlushRange) (flushed : Nat) (completed : List PageFlushRange) :
    flushed ≤ (completeFlushRange r tailCap flushed completed).1 := by
  by_cases he : r.isEmpty
  · rw [completeFlushRange, if_pos he]
  · by_cases hf : r.fromAddress ≤ flushed
    · rw [completeFlushRange, if_neg he, if_pos hf]
      exact le_max_left _ _
    · rw [completeFlushRange, if_neg he, if_neg hf]

/-- The prefix and the completed ranges stay below a bound that holds for the written range. -/
lemma completeFlushRange_bounded (hf : flushed ≤ bound) (hr : r.untilAddress ≤ bound)
    (hc : ∀ q ∈ completed, q.untilAddress ≤ bound) :
    (completeFlushRange r tailCap flushed completed).1 ≤ bound ∧
      ∀ q ∈ (completeFlushRange r tailCap flushed completed).2, q.untilAddress ≤ bound := by
  by_cases he : r.isEmpty
  · rw [completeFlushRange, if_pos he]
    exact ⟨hf, hc⟩
  · by_cases hfrom : r.fromAddress ≤ flushed
    · rw [completeFlushRange, if_neg he, if_pos hfrom]
      have hstart : max (min r.untilAddress tailCap) flushed ≤ bound :=
        Nat.max_le.mpr ⟨(min_le_left _ _).trans hr, hf⟩
      have hfold := foldl_cascade_bounded tailCap (_, []) hc ⟨hstart, List.forall_mem_nil _⟩
      exact ⟨Nat.max_le.mpr ⟨hf, hfold.1⟩, hfold.2⟩
    · rw [completeFlushRange, if_neg he, if_neg hfrom]
      refine ⟨hf, fun q hq => ?_⟩
      rcases List.mem_append.mp hq with hq | hq
      · exact hc q (List.takeWhile_subset _ hq)
      · rcases List.mem_cons.mp hq with rfl | hq
        · exact hr
        · exact hc q (List.dropWhile_subset _ hq)

/-- A range that begins at the prefix, with nothing completed ahead of it, becomes durable. -/
lemma completeFlushRange_of_prefix (hfrom : r.fromAddress = flushed)
    (hlt : flushed < r.untilAddress) (htail : r.untilAddress ≤ tailCap) :
    completeFlushRange r tailCap flushed [] = (r.untilAddress, []) := by
  have he : ¬ r.isEmpty = true := by
    simp only [PageFlushRange.isEmpty, decide_eq_true_eq]
    omega
  rw [completeFlushRange, if_neg he, if_pos hfrom.le]
  simp only [List.foldl_nil, Prod.mk.injEq, and_true]
  omega

end Complete

end Wedb.Log
