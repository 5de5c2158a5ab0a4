import Wedb.Aof.Barrier

/-!
# The double turnstile

The participants of a page replay meet at two gates for each page, before the work and after it. Both gates share
one counter and one phase: who arrives last sets the counter back and then moves the phase on, which lets the
others pass. Nobody comes to the next gate before the phase has moved, so the counter is back by then. The phase
is a machine word and may go round; then those that wait for it stay where they are.
-/

namespace Wedb.Aof.Turnstile

open Function

/-- Where a participant is in the call for its gate. -/
inductive Stage where
  | outside
  | loaded (expectedPhase : UInt64)
  | last
  | cleared
  | waiting (expectedPhase : UInt64)

/-- The barrier, with the list of those that have arrived in the place of their number, and the gates that each
participant has passed: ready and completed gates in turn. -/
structure State (n : Nat) where
  phase : UInt64 := 0
  arrivals : List (Fin n) := []
  passed : Fin n → Nat := fun _ => 0
  stage : Fin n → Stage := fun _ => .outside

variable {n : Nat}

def State.arrived (s : State n) : Nat := s.arrivals.length

def State.move (s : State n) (i : Fin n) (stage : Stage) : State n :=
  { s with stage := update s.stage i stage }

def State.pass (s : State n) (i : Fin n) : State n :=
  { s with passed := update s.passed i (s.passed i + 1), stage := update s.stage i .outside }

/-- The phase `signal_work_ready_wait_async` waits for the end of. -/
def readyPhase (p : UInt64) : UInt64 := if p % 2 = 0 then p else p + 1

/-- The phase `signal_work_completed_wait_async` waits for the end of. -/
def completedPhase (p : UInt64) : UInt64 := if p % 2 = 0 then p + 1 else p

inductive Action (n : Nat) where
  | load (i : Fin n)
  | arrive (i : Fin n)
  | clear (i : Fin n)
  | flip (i : Fin n)
  | look (i : Fin n)

def step (s : State n) : Action n → Option (State n)
  | .load i =>
    match s.stage i with
    | .outside =>
      some (s.move i (.loaded (if s.passed i % 2 = 0 then readyPhase s.phase else completedPhase s.phase)))
    | _ => none
  | .arrive i =>
    match s.stage i with
    | .loaded expected =>
      if n ≤ 1 then some (s.pass i)
      else
        some ({ s with arrivals := i :: s.arrivals }.move i
          (if s.arrived + 1 = n then .last else .waiting expected))
    | _ => none
  | .clear i =>
    match s.stage i with
    | .last => some ({ s with arrivals := [] }.move i .cleared)
    | _ => none
  | .flip i =>
    match s.stage i with
    | .cleared => some ({ s with phase := s.phase + 1 }.pass i)
    | _ => none
  -- the spins and the wake-ups look at the phase again and again
  | .look i =>
    match s.stage i with
    | .waiting expected => if expected < s.phase then some (s.pass i) else none
    | _ => none

/-- The participant has been counted at its gate. -/
@[grind] def Stage.counted : Stage → Bool
  | .outside | .loaded _ => false
  | .last | .cleared | .waiting _ => true

/-- It has been counted as the last one. -/
@[grind] def Stage.leads : Stage → Bool
  | .last | .cleared => true
  | _ => false

/-- How many gates a participant has arrived at. -/
def State.reached (s : State n) (i : Fin n) : Nat := s.passed i + if (s.stage i).counted then 1 else 0

/-! ### What a run keeps -/

/-- Everybody has come to `gate`, or waits at the one before, which is open. -/
structure Inv (gate : Nat) (s : State n) : Prop where
  phase : s.phase = .ofNat gate
  near (i : Fin n) : s.passed i = gate ∨ s.passed i + 1 = gate ∧ ∃ expected, s.stage i = .waiting expected
  expects (i : Fin n) (expected : UInt64) : s.passed i = gate →
    s.stage i = .loaded expected ∨ s.stage i = .waiting expected → expected = s.phase
  nodup : s.arrivals.Nodup
  counted (i : Fin n) : i ∈ s.arrivals → s.passed i = gate ∧ (s.stage i).counted = true
  full (i j : Fin n) : (s.stage i).leads = true →
    s.passed j = gate ∧ (s.stage j).counted = true ∧ ((s.stage j).leads = true → j = i)
  cleared (i : Fin n) : s.stage i = .cleared → s.arrivals = []

variable {gate : Nat} {s s' : State n} {i : Fin n}

/-- At a gate with an even number the phase is even: the call waits for the end of this very phase. -/
lemma Inv.expectedPhase (h : Inv gate s) (hi : s.stage i = .outside) :
    (if s.passed i % 2 = 0 then readyPhase s.phase else completedPhase s.phase) = s.phase := by
  have hpassed : s.passed i = gate := (h.near i).resolve_right fun ⟨_, _, hw⟩ => by simp [hi] at hw
  have heven : s.phase % 2 = 0 ↔ gate % 2 = 0 := by
    rw [h.phase, ← UInt64.toNat_inj]
    simp
  rw [hpassed, readyPhase, completedPhase]
  split_ifs <;> simp_all

/-- The last one is counted when all the others have been. -/
lemma Inv.arrive {expected : UInt64} (h : Inv gate s) (hi : s.stage i = .loaded expected) :
    Inv gate ({ s with arrivals := i :: s.arrivals }.move i
      (if s.arrived + 1 = n then .last else .waiting expected)) := by
  have hcounted : (s.stage i).counted = false := by rw [hi]; rfl
  have hnew : i ∉ s.arrivals := fun hmem => by simp [(h.counted i hmem).2] at hcounted
  have hnone (j : Fin n) : (s.stage j).leads = false := by
    by_contra hj
    simp [(h.full j i (by simpa using hj)).2.1] at hcounted
  have hall (hn : s.arrived + 1 = n) (j : Fin n) : j ∈ i :: s.arrivals :=
    mem_of_nodup_of_le_length (List.nodup_cons.2 ⟨hnew, h.nodup⟩) (le_of_eq hn.symm) j
  cases h
  split_ifs with hn <;> constructor <;> simp only [State.move] <;> grind -linarith -ring -ac [update_apply]

lemma Inv.step {a : Action n} (hn : 2 ≤ n) (h : Inv gate s) (hs : step s a = some s') :
    ∃ gate', Inv gate' s' := by
  cases a with
  | load i =>
    simp only [Turnstile.step] at hs
    split at hs <;> cases hs
    rename_i hi
    rw [h.expectedPhase hi]
    cases h
    refine ⟨gate, ?_⟩
    constructor <;> simp only [State.move] <;> grind -linarith -ring -ac [update_apply]
  | arrive i =>
    simp only [Turnstile.step, if_neg (Nat.not_le.2 hn)] at hs
    split at hs <;> cases hs
    exact ⟨gate, h.arrive ‹_›⟩
  | clear i =>
    simp only [Turnstile.step] at hs
    split at hs <;> cases hs
    cases h
    refine ⟨gate, ?_⟩
    constructor <;> simp only [State.move] <;> grind -linarith -ring -ac [update_apply]
  | flip i =>
    simp only [Turnstile.step] at hs
    split at hs <;> cases hs
    rename_i hi
    have hphase : s.phase + 1 = .ofNat (gate + 1) := by
      rw [h.phase]
      simp
    -- the others have been counted, and nobody else is the last one
    have hwaits (j : Fin n) (hj : j ≠ i) : s.passed j = gate ∧ ∃ expected, s.stage j = .waiting expected := by
      obtain ⟨hpassed, hcounted, hleads⟩ := h.full i j (by rw [hi]; rfl)
      cases hstage : s.stage j <;> simp_all [Stage.counted, Stage.leads]
    have hpassed := (h.full i i (by rw [hi]; rfl)).1
    cases h
    refine ⟨gate + 1, ?_⟩
    constructor <;> simp only [State.pass]
    case near =>
      intro j
      by_cases hj : j = i
      · simp [hj, hpassed]
      · simp [hj, hwaits j hj]
    all_goals grind -linarith -ring -ac [update_apply]
  | look i =>
    simp only [Turnstile.step] at hs
    split at hs <;> try cases hs
    split at hs <;> cases hs
    rename_i expected hi hlt
    have hne : s.passed i ≠ gate := fun heq => by
      rw [h.expects i expected heq (.inr hi)] at hlt
      exact absurd hlt (UInt64.lt_irrefl _)
    cases h
    refine ⟨gate, ?_⟩
    constructor <;> simp only [State.pass] <;> grind -linarith -ring -ac [update_apply]

/-- Nobody passes a gate at which not everybody has arrived, nobody is a round of two gates ahead, and the counter
is back at zero when the first one comes to a gate. -/
theorem gates_hold (hn : 2 ≤ n) (h : Machine.Reachable step ({} : State n) s) :
    (∀ i j, s.passed i ≤ s.reached j) ∧ (∀ i j, s.passed i < s.passed j + 2) ∧
      ∀ i, (s.stage i).counted = false → (∀ j, s.reached j ≤ s.passed i) → s.arrived = 0 := by
  obtain ⟨gate, hi⟩ := h.invariant (I := fun s => ∃ gate, Inv gate s)
    ⟨0, by constructor <;> simp [Stage.leads]⟩ fun ⟨_, hi⟩ _ hs => hi.step hn hs
  cases hi
  refine ⟨?_, ?_, ?_⟩
  · grind -linarith -ring -ac [State.reached]
  · grind -linarith -ring -ac [State.reached]
  · intro i hi hfirst
    have hnil : s.arrivals = [] := by
      refine List.eq_nil_iff_forall_not_mem.2 fun j hj => ?_
      have := hfirst j
      grind -linarith -ring -ac [State.reached]
    rw [State.arrived, hnil, List.length_nil]

/-- Two participants at the first gate: the last one is through while the other still waits. -/
theorem gates_hold_two : ∃ s : State 2, Machine.Reachable step {} s ∧ s.passed 1 = 1 ∧
    ∀ i j, s.passed i ≤ s.reached j := by
  obtain ⟨s, hs, hpassed⟩ := Machine.exists_reachable_of_run step ({} : State 2)
    [.load 0, .arrive 0, .load 1, .arrive 1, .clear 1, .flip 1] (fun s => s.passed 1) 1 (by decide)
  exact ⟨s, hs, hpassed, (gates_hold (by decide) hs).1⟩

end Wedb.Aof.Turnstile
