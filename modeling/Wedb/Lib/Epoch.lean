import Mathlib.Data.Fintype.Pi

/-!
# Epoch tables and grace periods

Participants of an epoch table announce the epoch in which they entered. An action registered
with the table bumps the epoch and may run once every participant that had announced an epoch up
to the one before the bump has left or moved on.

`Guarded` is the reason to use such a table: a border that only deferred actions move never
passes an address at which a participant is still working.
-/

namespace Epoch

open Function

/-- An epoch table with `n` participants whose deferred actions are values of `α`. -/
structure Table (n : Nat) (α : Type) where
  current : Nat
  announced : Fin n → Option Nat
  deferred : List (Nat × α)
  announced_le : ∀ t l, announced t = some l → l ≤ current

variable {n : Nat} {α : Type} {value : α → Nat} {e : Table n α} {safe : Nat}
  {pin : Fin n → Option Nat} {t : Fin n} {p : Nat × α} {a : α}

namespace Table

/-- The table with nobody inside. -/
def start (n : Nat) (α : Type) : Table n α where
  current := 1
  announced := fun _ => none
  deferred := []
  announced_le := nofun

/-- Participant `t` announces the current epoch. -/
def enter (e : Table n α) (t : Fin n) : Table n α where
  current := e.current
  announced := update e.announced t (some e.current)
  deferred := e.deferred
  announced_le := by
    intro t' l h
    by_cases ht : t' = t
    · subst ht
      rw [update_self] at h
      exact (Option.some.inj h).ge
    · rw [update_of_ne ht] at h
      exact e.announced_le t' l h

/-- Participant `t` leaves. -/
def exit (e : Table n α) (t : Fin n) : Table n α where
  current := e.current
  announced := update e.announced t none
  deferred := e.deferred
  announced_le := by
    intro t' l h
    by_cases ht : t' = t
    · subst ht
      rw [update_self] at h
      cases h
    · rw [update_of_ne ht] at h
      exact e.announced_le t' l h

/-- The epoch advances by one. -/
def bump (e : Table n α) : Table n α where
  current := e.current + 1
  announced := e.announced
  deferred := e.deferred
  announced_le := fun t l h => (e.announced_le t l h).trans (Nat.le_succ _)

/-- Participant `t` registers an action for the epoch before the bump. If `t` is inside it moves
on to the new epoch itself, so that it does not wait for its own action. -/
def register (e : Table n α) (t : Fin n) (a : α) : Table n α where
  current := e.current + 1
  announced := update e.announced t ((e.announced t).map fun _ => e.current + 1)
  deferred := e.deferred ++ [(e.current, a)]
  announced_le := by
    intro t' l h
    by_cases ht : t' = t
    · subst ht
      rw [update_self] at h
      obtain ⟨_, -, rfl⟩ := Option.map_eq_some_iff.mp h
      exact Nat.le_refl _
    · rw [update_of_ne ht] at h
      exact (e.announced_le t' l h).trans (Nat.le_succ _)

/-- An outsider takes a fence: it will wait until everybody who is inside now has left. -/
def fence (e : Table n α) (a : α) : Table n α where
  current := e.current + 1
  announced := e.announced
  deferred := e.deferred ++ [(e.current, a)]
  announced_le := fun t l h => (e.announced_le t l h).trans (Nat.le_succ _)

/-- Every participant that is inside announces an epoch above `k`. -/
def Ready (e : Table n α) (k : Nat) : Prop := ∀ t, ∀ l ∈ e.announced t, k < l

instance (e : Table n α) (k : Nat) : Decidable (e.Ready k) :=
  inferInstanceAs (Decidable (∀ t, ∀ l ∈ e.announced t, k < l))

/-- The table without its `i`-th deferred action. -/
def drop (e : Table n α) (i : Nat) : Table n α where
  current := e.current
  announced := e.announced
  deferred := e.deferred.eraseIdx i
  announced_le := e.announced_le

lemma mem_fence {e : Table n α} : (e.current, a) ∈ (e.fence a).deferred :=
  List.mem_append_right _ (List.mem_singleton.mpr rfl)

lemma mem_of_mem_fence {e : Table n α} (h : p ∈ (e.fence a).deferred) :
    p ∈ e.deferred ∨ p = (e.current, a) := by
  rcases List.mem_append.mp h with h | h
  · exact .inl h
  · exact .inr (List.mem_singleton.mp h)

lemma mem_register {e : Table n α} (h : p ∈ (e.register t a).deferred) :
    p ∈ e.deferred ∨ p = (e.current, a) :=
  mem_of_mem_fence h

lemma mem_of_mem_drop {e : Table n α} {i : Nat} (h : p ∈ (e.drop i).deferred) : p ∈ e.deferred :=
  List.mem_of_mem_eraseIdx h

lemma announced_isSome_register {e : Table n α} {t t' : Fin n} :
    ((e.register t a).announced t').isSome = (e.announced t').isSome := by
  by_cases h : t' = t
  · subst h
    show (update e.announced t' _ t').isSome = _
    rw [update_self, Option.isSome_map]
  · show (update e.announced t _ t').isSome = _
    rw [update_of_ne h]

end Table

/-- No border that the deferred actions move to `value` passes an address at which a participant
works: `pin t = some x` says that participant `t` works at address `x`. -/
structure Guarded (value : α → Nat) (e : Table n α) (safe : Nat) (pin : Fin n → Option Nat) :
    Prop where
  safe_le : ∀ {t x}, pin t = some x → safe ≤ x
  waits : ∀ {t x}, pin t = some x →
    ∃ l, e.announced t = some l ∧ ∀ p ∈ e.deferred, x < value p.2 → l ≤ p.1

namespace Guarded

section

variable (h : Guarded value e safe pin)
include h

/-- Participants may stop working anywhere, go on to higher addresses, and start at addresses that
no deferred action passes. -/
lemma repin {pin' : Fin n → Option Nat} (hpin : ∀ t x, pin' t = some x → (∃ y ≤ x, pin t = some y) ∨
      (safe ≤ x ∧ (e.announced t).isSome ∧ ∀ p ∈ e.deferred, value p.2 ≤ x)) :
    Guarded value e safe pin' where
  safe_le := by
    intro t x hx
    rcases hpin t x hx with ⟨y, hle, h'⟩ | ⟨hs, -, -⟩
    · exact (h.safe_le h').trans hle
    · exact hs
  waits := by
    intro t x hx
    rcases hpin t x hx with ⟨y, hle, h'⟩ | ⟨-, ha, hd⟩
    · obtain ⟨l, hl, hd⟩ := h.waits h'
      exact ⟨l, hl, fun p hp hlt => hd p hp (hle.trans_lt hlt)⟩
    · obtain ⟨l, hl⟩ := Option.isSome_iff_exists.mp ha
      exact ⟨l, hl, fun p hp hlt => absurd (hd p hp) (not_le_of_gt hlt)⟩

omit h in
/-- One participant turns to something else: `f` reads off a participant's task where it works. -/
lemma update {σ : Type} {f : σ → Option Nat} {task : Fin n → σ}
    (h : Guarded value e safe (f ∘ task)) (k : σ)
    (hk : ∀ x, f k = some x → (∃ y ≤ x, f (task t) = some y) ∨
      (safe ≤ x ∧ (e.announced t).isSome ∧ ∀ p ∈ e.deferred, value p.2 ≤ x)) :
    Guarded value e safe (f ∘ update task t k) := by
  apply h.repin
  intro t' x hx
  by_cases ht : t' = t
  · subst ht
    rw [comp_apply, update_self] at hx
    exact hk x hx
  · rw [comp_apply, update_of_ne ht] at hx
    exact .inl ⟨x, le_rfl, hx⟩

/-- The entries of those who work nowhere may change, and actions may be deferred at the current
epoch. -/
lemma of_announced {e' : Table n α} (hann : ∀ t, pin t ≠ none → e'.announced t = e.announced t)
    (hdeferred : ∀ p ∈ e'.deferred, p ∈ e.deferred ∨ p.1 = e.current) :
    Guarded value e' safe pin where
  safe_le := h.safe_le
  waits := by
    intro t x hx
    obtain ⟨l, hl, hd⟩ := h.waits hx
    refine ⟨l, (hann t (by simp [hx])).trans hl, fun p hp hlt => ?_⟩
    rcases hdeferred p hp with hp | hp
    · exact hd p hp hlt
    · exact hp ▸ e.announced_le t l hl

lemma enter (ht : pin t = none) : Guarded value (e.enter t) safe pin :=
  h.of_announced (fun _ hx => update_of_ne (ne_of_apply_ne pin (ht ▸ hx)) _ _) fun _ => .inl

lemma exit (ht : pin t = none) : Guarded value (e.exit t) safe pin :=
  h.of_announced (fun _ hx => update_of_ne (ne_of_apply_ne pin (ht ▸ hx)) _ _) fun _ => .inl

lemma bump : Guarded value e.bump safe pin := ⟨h.safe_le, h.waits⟩

lemma register (ht : pin t = none) (a : α) : Guarded value (e.register t a) safe pin :=
  h.of_announced (fun _ hx => update_of_ne (ne_of_apply_ne pin (ht ▸ hx)) _ _)
    fun _ hp => (Table.mem_register hp).imp_right (congrArg Prod.fst)

lemma fence (a : α) : Guarded value (e.fence a) safe pin :=
  h.of_announced (fun _ _ => rfl) fun _ hp =>
    (Table.mem_of_mem_fence hp).imp_right (congrArg Prod.fst)

/-- Running a deferred action that is ready moves the border at most to its value, and not past
any address at which somebody works. -/
lemma drained {i : Nat} {safe' : Nat}
    (hp : p ∈ e.deferred) (hr : e.Ready p.1) (hs : safe' ≤ max safe (value p.2)) :
    Guarded value (e.drop i) safe' pin where
  safe_le := by
    intro t x hx
    obtain ⟨l, hl, hd⟩ := h.waits hx
    have hv : value p.2 ≤ x := by
      apply Nat.le_of_not_lt
      intro hlt
      have hle : l ≤ p.1 := hd p hp hlt
      have hgt : p.1 < l := hr t l hl
      omega
    exact hs.trans (Nat.max_le.mpr ⟨h.safe_le hx, hv⟩)
  waits := by
    intro t x hx
    obtain ⟨l, hl, hd⟩ := h.waits hx
    exact ⟨l, hl, fun q hq => hd q (Table.mem_of_mem_drop hq)⟩

end

end Guarded

end Epoch
