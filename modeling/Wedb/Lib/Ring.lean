import Mathlib.Tactic.Common

/-!
# Ring memory

A ring of `cap` cells stands for an unbounded range of addresses, each address at its remainder. What
is put at addresses of one window of `cap` addresses does not collide.
-/

namespace Ring

open Nat List

variable {β : Type*}

/-- Cells one after the other, without wrapping. -/
def copy (mem : Nat → β) : Nat → List β → Nat → β
  | _, [] => mem
  | i, b :: bs => copy (Function.update mem i b) (i + 1) bs

def load (mem : Nat → β) (i len : Nat) : List β :=
  (range len).map fun k => mem (i + k)

variable (cap : Nat)

/-- The cells of the addresses from `a` on. -/
def put (mem : Nat → β) : Nat → List β → Nat → β
  | _, [] => mem
  | a, b :: bs => put (Function.update mem (a % cap) b) (a + 1) bs

def get (mem : Nat → β) (a len : Nat) : List β :=
  (range len).map fun k => mem ((a + k) % cap)

variable {cap} {mem : Nat → β} {a b : Nat}

lemma put_append (mem : Nat → β) (a : Nat) (xs ys : List β) :
    put cap mem a (xs ++ ys) = put cap (put cap mem a xs) (a + xs.length) ys := by
  induction xs generalizing mem a with
  | nil => rfl
  | cons x xs ih =>
    rw [cons_append, put, put, ih, length_cons, Nat.add_assoc, Nat.add_comm 1]

variable {src : List β}

lemma copy_eq_put (h : a % cap + src.length ≤ cap) (mem : Nat → β) :
    copy mem (a % cap) src = put cap mem a src := by
  induction src generalizing mem a with
  | nil => rfl
  | cons b bs ih =>
    rw [length_cons] at h
    rw [copy]
    cases bs with
    | nil => rfl
    | cons =>
      rw [length_cons] at h
      have hnext : (a + 1) % cap = a % cap + 1 := by
        rw [add_mod, mod_eq_of_lt (show 1 < cap by omega), mod_eq_of_lt (by omega)]
      rw [← hnext]
      exact ih (by rw [length_cons]; omega) _

lemma add_sub_mod (hcap : 0 < cap) (a : Nat) : (a + (cap - a % cap)) % cap = 0 := by
  have hlt := mod_lt a hcap
  have hdiv := div_add_mod a cap
  have hsum : a + (cap - a % cap) = cap * (a / cap + 1) := by
    rw [Nat.mul_add]
    omega
  rw [hsum, mul_mod_right]

/-- Two stretches, up to the end of the ring and from its start. -/
lemma copy_copy_eq_put (hcap : 0 < cap) (h : cap < a % cap + src.length)
    (hlen : src.length ≤ cap) (mem : Nat → β) :
    copy (copy mem (a % cap) (src.take (cap - a % cap))) 0 (src.drop (cap - a % cap)) =
      put cap mem a src := by
  have hlt := mod_lt a hcap
  have hfirst : (src.take (cap - a % cap)).length = cap - a % cap := by
    rw [length_take]
    omega
  conv_rhs => rw [← take_append_drop (cap - a % cap) src]
  have hrest : (a + (cap - a % cap)) % cap + (src.drop (cap - a % cap)).length ≤ cap := by
    rw [add_sub_mod hcap, length_drop]
    omega
  rw [put_append, copy_eq_put (by omega), hfirst, ← copy_eq_put hrest, add_sub_mod hcap]

lemma get_append (mem : Nat → β) (a m n : Nat) :
    get cap mem a (m + n) = get cap mem a m ++ get cap mem (a + m) n := by
  simp [get, range_add, Nat.add_assoc]

lemma load_eq_get {len : Nat} (h : a % cap + len ≤ cap) (mem : Nat → β) :
    load mem (a % cap) len = get cap mem a len := by
  refine map_congr_left fun k hk => ?_
  have hk := mem_range.1 hk
  have hcell : (a + k) % cap = a % cap + k := by
    rw [add_mod, mod_eq_of_lt (show k < cap by omega), mod_eq_of_lt (by omega)]
  rw [hcell]

lemma load_append_eq_get (hcap : 0 < cap) {len : Nat} (h : cap < a % cap + len) (hlen : len ≤ cap)
    (mem : Nat → β) :
    load mem (a % cap) (cap - a % cap) ++ load mem 0 (len - (cap - a % cap)) =
      get cap mem a len := by
  have hlt := mod_lt a hcap
  have hsplit : len = (cap - a % cap) + (len - (cap - a % cap)) := by omega
  conv_rhs => rw [hsplit]
  have hrest : (a + (cap - a % cap)) % cap + (len - (cap - a % cap)) ≤ cap := by
    rw [add_sub_mod hcap]
    omega
  rw [get_append, load_eq_get (by omega), ← load_eq_get hrest, add_sub_mod hcap]

/-- Addresses of one window have cells of their own. -/
lemma mod_ne (base : Nat) (ha : base ≤ a) (ha' : a < base + cap) (hb : base ≤ b)
    (hb' : b < base + cap) (h : a ≠ b) : a % cap ≠ b % cap := by
  intro heq
  rcases Nat.lt_or_gt_of_ne h with hlt | hlt
  · have := sub_mod_eq_zero_of_mod_eq heq.symm
    rw [mod_eq_of_lt (by omega)] at this
    omega
  · have := sub_mod_eq_zero_of_mod_eq heq
    rw [mod_eq_of_lt (by omega)] at this
    omega

lemma put_of_ne {p : Nat} (h : ∀ k < src.length, (a + k) % cap ≠ p)
    (mem : Nat → β) : put cap mem a src p = mem p := by
  induction src generalizing mem a with
  | nil => rfl
  | cons b bs ih =>
    rw [put, ih (fun k hk => ?_)]
    · exact Function.update_of_ne (h 0 (zero_lt_succ _)).symm ..
    · rw [Nat.add_assoc, Nat.add_comm 1]
      exact h (k + 1) (succ_lt_succ hk)

lemma put_apply (hlen : src.length ≤ cap) {k : Nat} (hk : k < src.length)
    (mem : Nat → β) : put cap mem a src ((a + k) % cap) = src[k] := by
  induction src generalizing mem a k with
  | nil => cases hk
  | cons b bs ih =>
    rw [length_cons] at hlen
    rw [put]
    cases k with
    | zero =>
      rw [put_of_ne (fun j hj => ?_)]
      · exact Function.update_self ..
      · exact mod_ne a (by omega) (by omega) (by omega) (by omega) (by omega)
    | succ k =>
      rw [show a + (k + 1) = a + 1 + k by omega, ih (by omega) (lt_of_succ_lt_succ hk)]
      rfl

lemma length_get (mem : Nat → β) (a len : Nat) : (get cap mem a len).length = len := by
  simp [get]

lemma getElem_get (mem : Nat → β) (a len k : Nat) (h : k < (get cap mem a len).length) :
    (get cap mem a len)[k] = mem ((a + k) % cap) := by
  simp [get]

/-- Cells one after the other: what is copied and what is left alone. -/
lemma copy_of_not_mem {i p : Nat} (h : p < i ∨ i + src.length ≤ p) (mem : Nat → β) :
    copy mem i src p = mem p := by
  induction src generalizing mem i with
  | nil => rfl
  | cons b bs ih =>
    rw [length_cons] at h
    rw [copy, ih (by omega), Function.update_of_ne (by omega)]

lemma copy_apply {i k : Nat} (hk : k < src.length) (mem : Nat → β) :
    copy mem i src (i + k) = src[k] := by
  induction src generalizing mem i k with
  | nil => cases hk
  | cons b bs ih =>
    rw [copy]
    cases k with
    | zero => rw [copy_of_not_mem (by omega), Nat.add_zero, Function.update_self]; rfl
    | succ k =>
      rw [show i + (k + 1) = i + 1 + k by omega, ih (lt_of_succ_lt_succ hk)]
      rfl

end Ring
