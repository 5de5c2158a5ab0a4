import Mathlib.Data.List.Forall2

/-!
# Programs of atomic operations

A program either returns or performs an atomic operation on the shared memory and goes on with what
the operation gave. Any number of programs run over one memory, one operation at a time, in any
order.

Each program is held to a protocol: a local state that follows the operations performed and their
results, and refuses the operations that the protocol does not permit. An invariant of the memory
and of the list of all local states is then checked once per operation, and each program once, by
recursion on its own text.
-/

/-- Programs over operations `Op`, where `o` gives a result of type `Res o`. -/
inductive Prog (Op : Type) (Res : Op → Type) (α : Type) where
  | ret (a : α)
  | call (o : Op) (k : Res o → Prog Op Res α)

namespace Prog

variable {Op : Type} {Res : Op → Type} {α β : Type}

/-- Run the first program, then the one its value selects. -/
def bind : Prog Op Res α → (α → Prog Op Res β) → Prog Op Res β
  | ret a, f => f a
  | call o k, f => call o fun r => (k r).bind f

instance : Monad (Prog Op Res) where
  pure := ret
  bind := bind

/-- The program of a single operation. -/
def perform (o : Op) : Prog Op Res (Res o) := call o ret

/-- The program has returned. -/
def Returned : Prog Op Res α → Prop
  | ret _ => True
  | call _ _ => False

variable {p : Prog Op Res α} {f : α → Prog Op Res β}

section Protocol

variable {G : Type} (next : G → (o : Op) → Res o → G → Prop)

/-- Whatever the operations give, the program only performs what the protocol permits, and returns
in a local state that `final` accepts. -/
def Conforms (final : G → α → Prop) : G → Prog Op Res α → Prop
  | g, ret a => final g a
  | g, call o k => ∀ r, ∃ g', next g o r g' ∧ Conforms final g' (k r)

variable {next} {final : G → α → Prop} {final' : G → β → Prop} {g : G}

@[simp]
lemma conforms_pure {a : α} : Conforms next final g (pure a : Prog Op Res α) ↔ final g a := Iff.rfl

/-- The rule of composition: the second program starts where the first one has returned. -/
lemma Conforms.bind (hp : Conforms next final g p)
    (hf : ∀ g' a, final g' a → Conforms next final' g' (f a)) :
    Conforms next final' g (p >>= f) := by
  induction p generalizing g with
  | ret a => exact hf g a hp
  | call o k ih =>
    intro r
    obtain ⟨g', hg', hk⟩ := hp r
    exact ⟨g', hg', ih r hk⟩

lemma Conforms.mono {final₂ : G → α → Prop} (hp : Conforms next final g p)
    (h : ∀ g' a, final g' a → final₂ g' a) : Conforms next final₂ g p := by
  induction p generalizing g with
  | ret a => exact h g a hp
  | call o k ih =>
    intro r
    obtain ⟨g', hg', hk⟩ := hp r
    exact ⟨g', hg', ih r hk⟩

/-- A program that only changes its result conforms as before. -/
lemma Conforms.map {f : α → β} (hp : Conforms next final g p)
    (h : ∀ g' a, final g' a → final' g' (f a)) :
    Conforms next final' g (p >>= fun a => pure (f a)) :=
  hp.bind h

end Protocol

/-! ### A single program

A program that runs alone knows the memory it works on. It may be stopped after any operation, so
what it has to keep holds after each one.
-/

section Alone

variable {σ Ω : Type} (exec : σ → (o : Op) → Ω → Option (σ × Res o)) (I : σ → Prop)

/-- From memory `m`, each operation leaves a memory that satisfies `I`, and the program returns where
`final` holds. -/
def Keeps (final : σ → α → Prop) : σ → Prog Op Res α → Prop
  | m, ret a => final m a
  | m, call o k => ∀ ω m' r, exec m o ω = some (m', r) → I m' ∧ Keeps final m' (k r)

variable {exec I} {final : σ → α → Prop} {final' : σ → β → Prop} {m : σ}

/-- The rule of composition. -/
lemma Keeps.bind (hp : Keeps exec I final m p)
    (hf : ∀ m' a, final m' a → Keeps exec I final' m' (f a)) :
    Keeps exec I final' m (p >>= f) := by
  induction p generalizing m with
  | ret a => exact hf m a hp
  | call o k ih =>
    intro ω m' r he
    obtain ⟨hI, hk⟩ := hp ω m' r he
    exact ⟨hI, ih r hk⟩

/-- The rule of an operation with one outcome. -/
lemma Keeps.perform {o : Op} {m' : σ} {r : Res o} {f : Res o → Prog Op Res β}
    (he : ∀ ω, exec m o ω = some (m', r)) (hI : I m') (hf : Keeps exec I final' m' (f r)) :
    Keeps exec I final' m (perform o >>= f) := by
  rintro ω _ _ h
  obtain ⟨⟩ := (he ω).symm.trans h
  exact ⟨hI, hf⟩

lemma Keeps.mono {final₂ : σ → α → Prop} (hp : Keeps exec I final m p)
    (h : ∀ m' a, final m' a → final₂ m' a) : Keeps exec I final₂ m p := by
  induction p generalizing m with
  | ret a => exact h m a hp
  | call o k ih =>
    intro ω m' r he
    obtain ⟨hI, hk⟩ := hp ω m' r he
    exact ⟨hI, ih r hk⟩

end Alone

end Prog

/-- A shared memory and the programs that run over it. -/
structure Threads (σ : Type) (Op : Type) (Res : Op → Type) (α : Type) where
  shared : σ
  tasks : List (Prog Op Res α)

namespace Threads

open List Prog

variable {σ Ω Op : Type} {Res : Op → Type} {α : Type}

/-- One more program starts. -/
def spawn (s : Threads σ Op Res α) (p : Prog Op Res α) : Threads σ Op Res α :=
  { s with tasks := s.tasks ++ [p] }

/-- Program `i` performs its next operation; `ω` decides what the operation leaves open. -/
def runTask (exec : σ → (o : Op) → Ω → Option (σ × Res o)) (s : Threads σ Op Res α) (i : Nat)
    (ω : Ω) : Option (Threads σ Op Res α) :=
  match s.tasks[i]? with
  | some (.call o k) =>
    (exec s.shared o ω).map fun e => { shared := e.1, tasks := s.tasks.set i (k e.2) }
  | _ => none

/-- Every program has returned. -/
def Quiet (s : Threads σ Op Res α) : Prop := ∀ p ∈ s.tasks, p.Returned

variable {s' : Threads σ Op Res α} {i : Nat} {exec : σ → (o : Op) → Ω → Option (σ × Res o)} {ω : Ω}

lemma runTask_eq_some {s : Threads σ Op Res α}
    (h : runTask exec s i ω = some s') :
    ∃ o k m r, s.tasks[i]? = some (.call o k) ∧ exec s.shared o ω = some (m, r) ∧
      s' = { shared := m, tasks := s.tasks.set i (k r) } := by
  unfold runTask at h
  split at h
  · rename_i o k hi
    obtain ⟨⟨m, r⟩, he, rfl⟩ := Option.map_eq_some_iff.1 h
    exact ⟨o, k, m, r, hi, he, rfl⟩
  · cases h

/-- Two lists stay related when related elements are set at one place. -/
lemma forall₂_set {β γ : Type} {R : β → γ → Prop} {xs : List β} {ys : List γ} {x : β}
    {y : γ} (h : List.Forall₂ R xs ys) (hxy : R x y) :
    List.Forall₂ R (xs.set i x) (ys.set i y) := by
  refine forall₂_iff_get.2 ⟨by simp [h.length_eq], fun j hj hj' => ?_⟩
  simp only [get_eq_getElem, getElem_set]
  split
  · exact hxy
  · exact h.get (by simpa using hj) (by simpa using hj')

/-- What stands at one place of the second list is related to what stands there in the first. -/
lemma exists_of_forall₂ {β γ : Type} {R : β → γ → Prop} {xs : List β} {ys : List γ}
    {y : γ} (h : List.Forall₂ R xs ys) (hy : ys[i]? = some y) : ∃ x, xs[i]? = some x ∧ R x y := by
  obtain ⟨hlt, rfl⟩ := List.getElem?_eq_some_iff.1 hy
  have hlt' : i < xs.length := by rwa [h.length_eq]
  exact ⟨xs[i], getElem?_eq_getElem hlt', h.get hlt' hlt⟩

/-- How a list counts after one of its elements has changed. -/
lemma countP_set_add {β : Type} (p : β → Bool) {xs : List β} {x : β} (y : β)
    (hi : xs[i]? = some x) :
    (xs.set i y).countP p + (p x).toNat = xs.countP p + (p y).toNat := by
  induction xs generalizing i with
  | nil => simp at hi
  | cons z xs ih =>
    cases i with
    | zero =>
      cases Option.some.inj hi
      simp only [set_cons_zero, countP_cons]
      cases p x <;> cases p y <;> simp
    | succ =>
      have hset := ih hi
      simp only [set_cons_succ, countP_cons]
      omega

section Invariant

variable {G : Type} (next : G → (o : Op) → Res o → G → Prop) (final : G → α → Prop)
  (I : σ → List G → Prop)

/-- Every program conforms from its local state, and the invariant holds of the memory and the
local states. -/
def Conforming (s : Threads σ Op Res α) : Prop :=
  ∃ gs, List.Forall₂ (Conforms next final) gs s.tasks ∧ I s.shared gs

variable {next final I} {s : Threads σ Op Res α}

section

variable (hs : s.Conforming next final I)
include hs

/-- An operation keeps the programs conforming when the protocol's step keeps the invariant. What the
programs are about to do may be used. -/
lemma Conforming.run
    (hI : ∀ {m' gs g g' o k r}, List.Forall₂ (Conforms next final) gs s.tasks → I s.shared gs →
      s.tasks[i]? = some (.call o k) → gs[i]? = some g → exec s.shared o ω = some (m', r) →
      next g o r g' → I m' (gs.set i g'))
    (h : runTask exec s i ω = some s') : s'.Conforming next final I := by
  obtain ⟨gs, hgs, hinv⟩ := hs
  obtain ⟨o, k, m, r, hi, he, rfl⟩ := runTask_eq_some h
  obtain ⟨g, hg, hgi⟩ := exists_of_forall₂ hgs hi
  obtain ⟨g', hg', hconf⟩ := hgi r
  exact ⟨gs.set i g', forall₂_set hgs hconf, hI hgs hinv hi hg he hg'⟩

/-- The same when the invariant does not depend on what the programs are about to do. -/
lemma Conforming.runTask
    (hI : ∀ {m m' gs g g' o r}, I m gs → gs[i]? = some g → exec m o ω = some (m', r) →
      next g o r g' → I m' (gs.set i g'))
    (h : Threads.runTask exec s i ω = some s') : s'.Conforming next final I :=
  hs.run (fun _ hinv _ hg he hn => hI hinv hg he hn) h

/-- The operation performed is one the protocol permits. -/
lemma Conforming.permitted
    (h : Threads.runTask exec s i ω = some s') :
    ∃ gs g g' o r, I s.shared gs ∧ gs[i]? = some g ∧ exec s.shared o ω = some (s'.shared, r) ∧
      next g o r g' := by
  obtain ⟨gs, hgs, hinv⟩ := hs
  obtain ⟨o, k, m, r, hi, he, rfl⟩ := runTask_eq_some h
  obtain ⟨g, hg, hgi⟩ := exists_of_forall₂ hgs hi
  obtain ⟨g', hg', -⟩ := hgi r
  exact ⟨gs, g, g', o, r, hinv, hg, he, hg'⟩

/-- A new program is added with a local state of its own. -/
lemma Conforming.spawn {p : Prog Op Res α} {g : G}
    (hp : Conforms next final g p) (hI : ∀ gs, I s.shared gs → I s.shared (gs ++ [g])) :
    (s.spawn p).Conforming next final I := by
  obtain ⟨gs, hgs, hinv⟩ := hs
  exact ⟨gs ++ [g], rel_append hgs (.cons hp .nil), hI gs hinv⟩

/-- A program that has returned left its thread in a final state. -/
lemma Conforming.settled {a : α} (hi : s.tasks[i]? = some (.ret a)) :
    ∃ gs g, gs[i]? = some g ∧ I s.shared gs ∧ final g a := by
  obtain ⟨gs, hgs, hinv⟩ := hs
  obtain ⟨g, hg, hgi⟩ := exists_of_forall₂ hgs hi
  exact ⟨gs, g, hg, hinv, hgi⟩

/-- A program that has returned goes on with another one, which may change the memory at once. -/
lemma Conforming.replace {p : Prog Op Res α} {a : α} {m : σ} (hi : s.tasks[i]? = some (.ret a))
    (hI : ∀ {gs g}, I s.shared gs → gs[i]? = some g → final g a →
      ∃ g', I m (gs.set i g') ∧ Conforms next final g' p) :
    Conforming next final I { shared := m, tasks := s.tasks.set i p } := by
  obtain ⟨gs, hgs, hinv⟩ := hs
  obtain ⟨g, hg, hgi⟩ := exists_of_forall₂ hgs hi
  obtain ⟨g', hinv', hp⟩ := hI hinv hg hgi
  exact ⟨gs.set i g', forall₂_set hgs hp, hinv'⟩

/-- What happens to the memory from outside has to keep the invariant too. -/
lemma Conforming.outside {m : σ} (hI : ∀ gs, I s.shared gs → I m gs) :
    Conforming next final I { s with shared := m } := by
  obtain ⟨gs, hgs, hinv⟩ := hs
  exact ⟨gs, hgs, hI gs hinv⟩

end

/-- At rest every local state is a final one. -/
lemma forall_final_of_quiet {gs : List G} {ps : List (Prog Op Res α)}
    (h : List.Forall₂ (Conforms next final) gs ps) (hq : ∀ p ∈ ps, p.Returned) :
    ∀ g ∈ gs, ∃ a, final g a := by
  induction h with
  | nil => simp
  | @cons g p gs ps hp _ ih =>
    intro g' hg'
    rcases mem_cons.1 hg' with rfl | hg'
    · cases p with
      | ret a => exact ⟨a, hp⟩
      | call => exact absurd (hq _ mem_cons_self) id
    · exact ih (fun p hp => hq p (mem_cons_of_mem _ hp)) g' hg'

end Invariant

end Threads
