import Mathlib.Tactic.Common

/-!
# Lists as buffers

A list of fixed length that parts are copied into.
-/

namespace Slice

open List

variable {β : Type*} {buf src : List β} {off : Nat}

/-- `src` is copied over the places from `off` on. -/
def overwrite (buf : List β) (off : Nat) (src : List β) : List β :=
  buf.take off ++ src ++ buf.drop (off + src.length)

lemma length_overwrite (h : off + src.length ≤ buf.length) :
    (overwrite buf off src).length = buf.length := by
  rw [overwrite, length_append, length_append, length_take, length_drop]
  omega

/-- What is before the end of the copy. -/
lemma take_overwrite (h : off + src.length ≤ buf.length) :
    (overwrite buf off src).take (off + src.length) = buf.take off ++ src := by
  refine take_left' ?_
  rw [length_append, length_take]
  omega

/-- Parts are copied one after the other. -/
def copyParts (buf : List β) (off : Nat) : List (List β) → List β
  | [] => buf
  | part :: parts => copyParts (overwrite buf off part) (off + part.length) parts

variable {parts : List (List β)}

lemma take_copyParts (h : off + parts.flatten.length ≤ buf.length) :
    (copyParts buf off parts).take (off + parts.flatten.length) = buf.take off ++ parts.flatten := by
  induction parts generalizing buf off with
  | nil => simp [copyParts]
  | cons part parts ih =>
    rw [flatten_cons, length_append] at h ⊢
    have hpart : off + part.length ≤ buf.length := by omega
    rw [copyParts, ← Nat.add_assoc, ih (by rw [length_overwrite hpart]; omega), take_overwrite hpart,
      append_assoc]

/-- Parts that are copied into an empty buffer. -/
lemma take_copyParts_replicate {cap : Nat} (h : parts.flatten.length ≤ cap)
    (b : β) : (copyParts (replicate cap b) 0 parts).take parts.flatten.length = parts.flatten := by
  have hroom : 0 + parts.flatten.length ≤ (replicate cap b).length := by
    rwa [Nat.zero_add, length_replicate]
  have htake := take_copyParts hroom
  rwa [Nat.zero_add, take_zero] at htake

/-- A copy that stays inside the middle part. -/
lemma overwrite_inside (xs ys : List β) {mid : List β} (h : off + src.length ≤ mid.length) :
    overwrite (xs ++ (mid ++ ys)) (xs.length + off) src = xs ++ (overwrite mid off src ++ ys) := by
  have htake : (mid ++ ys).take off = mid.take off := take_append_of_le_length (by omega)
  have hdrop : (mid ++ ys).drop (off + src.length) = mid.drop (off + src.length) ++ ys :=
    drop_append_of_le_length h
  rw [overwrite, overwrite, Nat.add_assoc, take_length_add_append, drop_length_add_append,
    htake, hdrop]
  simp only [append_assoc]

lemma overwrite_self {mid mid' : List β} (h : mid'.length = mid.length) :
    overwrite mid 0 mid' = mid' := by
  rw [overwrite, Nat.zero_add, h, drop_length, take_zero, nil_append, append_nil]

/-- A part of the same length takes the place of the one in the middle. -/
lemma overwrite_middle (xs ys : List β) {mid mid' : List β} (h : mid'.length = mid.length) :
    overwrite (xs ++ (mid ++ ys)) xs.length mid' = xs ++ (mid' ++ ys) := by
  have hinside : 0 + mid'.length ≤ mid.length := by omega
  have hcopy := overwrite_inside xs ys hinside
  rwa [overwrite_self h] at hcopy

/-- The first places of a buffer that is long enough. -/
lemma exists_split {n : Nat} (h : n ≤ buf.length) : ∃ xs ys, buf = xs ++ ys ∧ xs.length = n :=
  ⟨buf.take n, buf.drop n, (take_append_drop n buf).symm, length_take_of_le h⟩

/-- Blocks of one size stand at the multiples of it. -/
lemma take_drop_flatten {k : Nat} {blocks : List (List β)} (hk : ∀ b ∈ blocks, b.length = k)
    {i : Nat} (hi : i < blocks.length) : (blocks.flatten.drop (k * i)).take k = blocks[i] := by
  induction blocks generalizing i with
  | nil => cases hi
  | cons b blocks ih =>
    have hb : b.length = k := hk b mem_cons_self
    cases i with
    | zero => exact take_left' hb
    | succ i =>
      have hdrop : (b ++ blocks.flatten).drop (k * (i + 1)) = blocks.flatten.drop (k * i) := by
        rw [Nat.mul_succ, Nat.add_comm, ← drop_drop, drop_left' hb]
      rw [flatten_cons, hdrop]
      exact ih (fun b hb => hk b (mem_cons_of_mem _ hb)) (Nat.lt_of_succ_lt_succ hi)

end Slice
