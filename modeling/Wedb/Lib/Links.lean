import Mathlib.Order.Basic
import Mathlib.Tactic.Common

/-!
# Following links

A linked structure given by a partial successor function: which elements are met when the links are
followed from a start. Where every link leads to a smaller element, nothing met is larger than the
start. Where only finitely many elements have a successor, a walk that gives up after as many links meets
everything.
-/

namespace Links

variable {α : Type*} (next : α → Option α)

/-- `x` is met when the links are followed from `a`. -/
inductive Follows : α → α → Prop
  | refl (a : α) : Follows a a
  | step {a b x : α} : next a = some b → Follows b x → Follows a x

/-- Every link leads to a smaller element. -/
def Descending [LT α] : Prop := ∀ a b, next a = some b → b < a

variable {next} {x : α}

/-- An element met from `a` is `a` itself or met from its successor. -/
lemma follows_iff {a : α} : Follows next a x ↔ a = x ∨ ∃ b, next a = some b ∧ Follows next b x := by
  constructor
  · rintro (_ | ⟨hn, h⟩)
    · exact .inl rfl
    · exact .inr ⟨_, hn, h⟩
  · rintro (rfl | ⟨b, hn, h⟩)
    · exact .refl _
    · exact .step hn h

lemma Follows.le [Preorder α] (hd : Descending next) {a : α} (h : Follows next a x) : x ≤ a := by
  induction h with
  | refl => exact le_rfl
  | step hn _ ih => exact ih.trans (hd _ _ hn).le

/-- Behind the start the successor is known. -/
lemma Follows.next_of_ne {a b : α} (h : Follows next a x) (hne : a ≠ x)
    (hn : next a = some b) : Follows next b x := by
  rcases follows_iff.1 h with rfl | ⟨c, hc, h⟩
  · exact absurd rfl hne
  · rw [hn] at hc
    exact Option.some.inj hc ▸ h

/-- The links without the one of `a`. -/
def without [DecidableEq α] (next : α → Option α) (a x : α) : Option α :=
  if x = a then none else next x

lemma without_eq_some [DecidableEq α] {a y : α} :
    without next a x = some y ↔ x ≠ a ∧ next x = some y := Option.ite_none_left_eq_some

/-- A path to `x` need not come back to where it started. -/
lemma Follows.avoid [DecidableEq α] {a b : α} (hn : next a = some b) (h : Follows next b x) :
    Follows (without next a) b x := by
  suffices hany : ∀ y, Follows next y x →
      Follows (without next a) y x ∨ Follows (without next a) b x from (hany b h).elim id id
  intro y hy
  induction hy with
  | refl x => exact .inl (.refl x)
  | @step y z x hz _ ih =>
    rcases eq_or_ne y a with rfl | hne
    · cases hn.symm.trans hz
      exact .inr ((ih h).elim id id)
    · exact (ih h).imp_left (.step (without_eq_some.2 ⟨hne, hz⟩))

/-- Whether `target` is met by one link or more, for a walk that gives up after a number of them. -/
def meets [DecidableEq α] (next : α → Option α) (target : α) : Nat → α → Bool
  | 0, _ => false
  | n + 1, a => (next a).any fun b => b = target || meets next target n b

section Meets

variable [DecidableEq α] {target a : α} {n : Nat}

lemma meets_succ : meets next target (n + 1) a ↔
    ∃ b, next a = some b ∧ (b = target ∨ meets next target n b) := by
  simp [meets, Option.any_eq_true]

lemma follows_of_meets (h : meets next target n a) :
    ∃ b, next a = some b ∧ Follows next b target := by
  induction n generalizing a with
  | zero => cases h
  | succ n ih =>
    obtain ⟨b, hb, h⟩ := meets_succ.1 h
    exact ⟨b, hb, follows_iff.2 (h.imp_right ih)⟩

lemma meets_mono {next' : α → Option α} (hnext : ∀ a b, next' a = some b → next a = some b)
    (h : meets next' target n a) : meets next target n a := by
  induction n generalizing a with
  | zero => cases h
  | succ n ih =>
    obtain ⟨b, hb, h⟩ := meets_succ.1 h
    exact meets_succ.2 ⟨b, hnext a b hb, h.imp_right ih⟩

/-- As many links are enough as there are elements with a successor. -/
lemma Follows.meets {known : List α} (hknown : ∀ a b, next a = some b → a ∈ known)
    (hn : known.length ≤ n) {b : α} (hb : next a = some b) (h : Follows next b target) :
    meets next target n a := by
  induction n generalizing next known a b with
  | zero => simpa [List.eq_nil_of_length_eq_zero (Nat.le_zero.1 hn)] using hknown a b hb
  | succ n ih =>
    refine meets_succ.2 ⟨b, hb, (follows_iff.1 (h.avoid hb)).imp_right fun ⟨c, hc, hfollows⟩ => ?_⟩
    -- from the successor on, the element itself is not needed any more
    have hrest (x y : α) (h : without next a x = some y) : x ∈ known.erase a := by
      obtain ⟨hne, hxy⟩ := without_eq_some.1 h
      exact (List.mem_erase_of_ne hne).2 (hknown x y hxy)
    refine meets_mono (fun x y h => (without_eq_some.1 h).2) (ih hrest ?_ hc hfollows)
    rw [List.length_erase_of_mem (hknown a b hb)]
    exact Nat.sub_le_of_le_add hn

end Meets

end Links
