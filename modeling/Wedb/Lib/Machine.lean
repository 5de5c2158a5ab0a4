import Mathlib.Tactic.Common

/-!
# Machines with partial steps

A machine is a step function that may refuse an action. Runs are lists of actions; the reachable
states of a machine can be restricted to runs whose steps all meet a condition on the state before
the step and the action taken.
-/

namespace Machine

variable {σ α : Type*} (step : σ → α → Option σ)

/-- Take the actions one after the other; a refused action ends the run without a state. -/
def run : σ → List α → Option σ
  | s, [] => some s
  | s, a :: as =>
    match step s a with
    | some s' => run s' as
    | none => none

/-- The states reached from `s₀` by steps that all meet `allowed`. -/
inductive Reaches (allowed : σ → α → Prop) (s₀ : σ) : σ → Prop
  | refl : Reaches allowed s₀ s₀
  | step {s s' : σ} {a : α} : Reaches allowed s₀ s → allowed s a → step s a = some s' →
      Reaches allowed s₀ s'

/-- Every state a machine can reach, whatever it does. -/
abbrev Reachable (s₀ s : σ) : Prop := Reaches step (fun _ _ => True) s₀ s

variable {step}

variable {allowed : σ → α → Prop}

/-- The invariant rule: what holds at the start and survives every allowed step holds in every
state reached. -/
lemma Reaches.invariant {s₀ s : σ} {I : σ → Prop} (h : Reaches step allowed s₀ s) (hinit : I s₀)
    (hstep : ∀ {s s' a}, I s → allowed s a → step s a = some s' → I s') : I s := by
  induction h with
  | refl => exact hinit
  | step _ ha hs ih => exact hstep ih ha hs

lemma Reaches.trans {s₀ s₁ s₂ : σ}
    (h₁ : Reaches step allowed s₀ s₁) (h₂ : Reaches step allowed s₁ s₂) :
    Reaches step allowed s₀ s₂ := by
  induction h₂ with
  | refl => exact h₁
  | step _ ha hs ih => exact .step ih ha hs

/-- A run that is not refused reaches its last state. -/
lemma reachable_of_run {s s' : σ} {as : List α} (h : run step s as = some s') :
    Reachable step s s' := by
  induction as generalizing s with
  | nil =>
    cases h
    exact .refl
  | cons a as ih =>
    unfold run at h
    split at h
    · rename_i s₁ hs
      exact .trans (.step .refl trivial hs) (ih h)
    · cases h

/-- The same for what can be observed of the last state: a run on a concrete machine is checked by
evaluating the observation. -/
lemma exists_reachable_of_run {β : Type*} (step : σ → α → Option σ) (s : σ) (as : List α)
    (f : σ → β) (b : β) (h : (run step s as).map f = some b) :
    ∃ s', Reachable step s s' ∧ f s' = b := by
  obtain ⟨s', hs', hb⟩ := Option.map_eq_some_iff.1 h
  exact ⟨s', reachable_of_run hs', hb⟩

/-- The machine that refuses every step that is not allowed. -/
def restrict (step : σ → α → Option σ) (allowed : σ → α → Prop)
    [∀ s a, Decidable (allowed s a)] (s : σ) (a : α) : Option σ :=
  if allowed s a then step s a else none

lemma Reaches.of_restrict [∀ s a, Decidable (allowed s a)] {s s' : σ}
    (h : Reachable (restrict step allowed) s s') : Reaches step allowed s s' := by
  induction h with
  | refl => exact .refl
  | @step s₁ s₂ a _ _ hs ih =>
    by_cases ha : allowed s₁ a
    · rw [restrict, if_pos ha] at hs
      exact .step ih ha hs
    · rw [restrict, if_neg ha] at hs
      cases hs

/-- A concrete run whose steps are all allowed, checked by evaluation. -/
lemma exists_reaches_of_run {β : Type*} (step : σ → α → Option σ) (allowed : σ → α → Prop)
    [∀ s a, Decidable (allowed s a)] (s : σ) (as : List α) (f : σ → β) (b : β)
    (h : (run (restrict step allowed) s as).map f = some b) :
    ∃ s', Reaches step allowed s s' ∧ f s' = b := by
  obtain ⟨s', hs', hb⟩ := exists_reachable_of_run (restrict step allowed) s as f b h
  exact ⟨s', .of_restrict hs', hb⟩

end Machine
