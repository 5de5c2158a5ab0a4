import Mathlib.Data.Fintype.Card
import Wedb.Lib.Machine

/-!
# Leader barriers of the replay

The tasks that replay an operation of all sublogs meet at a `LeaderBarrier`. The first to arrive
leads: it waits for the others, executes the operation, takes the barrier out of the table and
releases those that wait (`process_synchronized_operation_async`). Both waits are bounded, and a task
whose wait times out goes on.
-/

namespace Wedb.Aof

open Function

/-- A barrier, with the list of those that have arrived in the place of their number. -/
structure LeaderBarrier (n : Nat) where
  arrivals : List (Fin n) := []
  allArrived : Bool := n ≤ 1
  released : Bool := false

@[grind] def LeaderBarrier.arrived {n : Nat} (barrier : LeaderBarrier n) : Nat := barrier.arrivals.length

/-- Where a task is in `process_synchronized_operation_async`, and at which barrier. -/
inductive BarrierPhase where
  | outside
  | joined (barrier : Nat)
  | waitingFirst (barrier : Nat)
  | waitingRelease (barrier : Nat)
  | leading (barrier : Nat)
  /-- The operation has returned; the guard is dropped in two steps. -/
  | removing (barrier : Nat) (ok : Bool)
  | releasing (barrier : Nat) (ok : Bool)
  | finished (barrier : Nat) (ok : Bool)
deriving DecidableEq

/-- The barrier of one key, and the tasks that take part. -/
structure BarrierState (n : Nat) where
  /-- The entry of `leader_barriers`. -/
  current : Option Nat
  created : Nat
  barriers : Nat → LeaderBarrier n
  phases : Fin n → BarrierPhase
  /-- Who has executed the operation, and whose wait has timed out. -/
  executions : List (Fin n)
  timedOut : List (Fin n)

namespace BarrierState

variable {n : Nat}

def init (n : Nat) : BarrierState n := ⟨none, 0, fun _ => {}, fun _ => .outside, [], []⟩

def setPhase (s : BarrierState n) (p : Fin n) (phase : BarrierPhase) : BarrierState n :=
  { s with phases := update s.phases p phase }

def setBarrier (s : BarrierState n) (b : Nat) (barrier : LeaderBarrier n) : BarrierState n :=
  { s with barriers := update s.barriers b barrier }

end BarrierState

inductive BarrierAction (n : Nat) where
  | getBarrier (p : Fin n)
  | signal (p : Fin n)
  | wake (p : Fin n)
  | timeOut (p : Fin n)
  | execute (p : Fin n) (ok : Bool)
  | tryRemoveBarrier (p : Fin n)
  | release (p : Fin n)

namespace BarrierAction

variable {n : Nat}

open BarrierPhase

/-- `try_signal_or_wait` up to the first look at the condition of its loop. -/
def signalAt (s : BarrierState n) (p : Fin n) (b : Nat) : BarrierState n :=
  let barrier := s.barriers b
  if n ≤ 1 then s.setPhase p (leading b)
  else
    let arrivals := barrier.arrivals ++ [p]
    if arrivals.length = 1 then
      (s.setBarrier b { barrier with arrivals }).setPhase p (waitingFirst b)
    else
      let allArrived := barrier.allArrived || decide (n ≤ arrivals.length)
      (s.setBarrier b { barrier with arrivals, allArrived }).setPhase p (waitingRelease b)

def step (s : BarrierState n) : BarrierAction n → Option (BarrierState n)
  | getBarrier p =>
    match s.phases p, s.current with
    | outside, some b => some (s.setPhase p (joined b))
    | outside, none =>
      some ({ s with current := some s.created, created := s.created + 1 }.setPhase p
        (joined s.created))
    | _, _ => none
  | signal p =>
    match s.phases p with
    | joined b => some (signalAt s p b)
    | _ => none
  | wake p =>
    match s.phases p with
    | waitingFirst b =>
      if (s.barriers b).allArrived || (s.barriers b).released then some (s.setPhase p (leading b))
      else none
    | waitingRelease b =>
      if (s.barriers b).released then some (s.setPhase p (finished b true)) else none
    | _ => none
  | timeOut p =>
    match s.phases p with
    | waitingFirst b => some ({ s with timedOut := p :: s.timedOut }.setPhase p (leading b))
    | waitingRelease b =>
      some ({ s with timedOut := p :: s.timedOut }.setPhase p (finished b true))
    | _ => none
  | execute p ok =>
    match s.phases p with
    | leading b => some ({ s with executions := p :: s.executions }.setPhase p (removing b ok))
    | _ => none
  | tryRemoveBarrier p =>
    match s.phases p with
    | removing b ok => some ({ s with current := none }.setPhase p (releasing b ok))
    | _ => none
  | release p =>
    match s.phases p with
    | releasing b ok =>
      some ((s.setBarrier b { s.barriers b with released := true }).setPhase p (finished b ok))
    | _ => none

end BarrierAction

/-! ### What a run keeps -/

namespace BarrierPhase

/-- The barrier a task has signalled to. -/
@[grind] def signalledTo : BarrierPhase → Option Nat
  | outside | joined _ => none
  | waitingFirst b | waitingRelease b | leading b | removing b _ | releasing b _ | finished b _ =>
    some b

/-- The barrier a task leads at. -/
@[grind] def leadsAt : BarrierPhase → Option Nat
  | waitingFirst b | leading b | removing b _ | releasing b _ => some b
  | _ => none

/-- The operation has been executed by the task. -/
@[grind] def late : BarrierPhase → Bool
  | removing _ _ | releasing _ _ => true
  | _ => false

/-- The task will not execute the operation any more. -/
@[grind] def done : BarrierPhase → Bool
  | removing _ _ | releasing _ _ | finished _ _ => true
  | _ => false

lemma exists_signalledTo {phase : BarrierPhase} (h : phase.done = true) :
    ∃ b, phase.signalledTo = some b := by
  cases phase <;> first | exact ⟨_, rfl⟩ | cases h

end BarrierPhase

namespace BarrierState

variable {n : Nat}

/-- A task leads at a barrier: it was the first there, or there is only one. -/
@[grind] def Leads (s : BarrierState n) (p : Fin n) (b : Nat) : Prop :=
  n ≤ 1 ∨ (s.barriers b).arrivals.head? = some p

/-- What lets a leader go on. -/
@[grind] def Ready (s : BarrierState n) (p : Fin n) (b : Nat) : Prop :=
  n ≤ 1 ∨ p ∈ s.timedOut ∨ (s.barriers b).allArrived = true

end BarrierState

structure BarrierInv {n : Nat} (s : BarrierState n) : Prop where
  nodup (b : Nat) : (s.barriers b).arrivals.Nodup
  signalled (b : Nat) : ∀ p ∈ (s.barriers b).arrivals, (s.phases p).signalledTo = some b
  full (b : Nat) : (s.barriers b).allArrived = true → n ≤ 1 ∨ n ≤ (s.barriers b).arrived
  released (b : Nat) : (s.barriers b).released = true →
    s.executions ≠ [] ∧ (n ≤ 1 ∨ (s.barriers b).arrivals ≠ []) ∧ ∀ p, s.phases p ≠ .waitingFirst b
  leads (p : Fin n) (b : Nat) : (s.phases p).leadsAt = some b → s.Leads p b
  leading (p : Fin n) (b : Nat) : s.phases p = .leading b → s.Ready p b
  executed (p : Fin n) : p ∈ s.executions → (s.phases p).done = true
  ready (p : Fin n) (b : Nat) : p ∈ s.executions → (s.phases p).signalledTo = some b →
    s.Leads p b ∧ s.Ready p b
  late (p : Fin n) : (s.phases p).late = true → s.executions ≠ []
  finished (p : Fin n) (b : Nat) (ok : Bool) : s.phases p = .finished b ok →
    p ∈ s.timedOut ∨ s.executions ≠ []
  once : s.executions.Nodup

lemma BarrierInv.init (n : Nat) : BarrierInv (BarrierState.init n) := by
  constructor
  case full => exact fun _ h => .inl (of_decide_eq_true h)
  all_goals simp [BarrierState.init, BarrierPhase.leadsAt, BarrierPhase.late]

section Steps

variable {n : Nat} {s s' : BarrierState n} {p : Fin n} {b : Nat}

section

variable (hi : BarrierInv s)
include hi

lemma BarrierInv.signalAt (hp : s.phases p = .joined b) :
    BarrierInv (BarrierAction.signalAt s p b) := by
  cases hi
  unfold BarrierAction.signalAt
  dsimp only
  split_ifs with hn hone
  · constructor <;> simp only [BarrierState.setPhase, BarrierState.Leads, BarrierState.Ready] <;>
      grind -linarith -ring -ac [update_apply]
  · have hnil : (s.barriers b).arrivals = [] := by simpa using hone
    rw [hnil]
    constructor <;> simp only [BarrierState.setPhase, BarrierState.setBarrier, BarrierState.Leads,
      BarrierState.Ready] <;> grind -linarith -ring -ac [update_apply]
  · constructor <;> simp only [BarrierState.setPhase, BarrierState.setBarrier, BarrierState.Leads,
      BarrierState.Ready] <;> grind -linarith -ring -ac [update_apply]

lemma BarrierInv.leader_unique {q : Fin n}
    (hp : (s.phases p).leadsAt = some b) (hq : (s.phases q).leadsAt = some b) : q = p := by
  rcases hi.leads p b hp with hn | hhead
  · exact Fin.ext (by omega)
  rcases hi.leads q b hq with hn | hhead'
  · exact Fin.ext (by omega)
  exact Option.some.inj (hhead'.symm.trans hhead)

/-- Only the leader of a barrier releases it, so that nobody is left waiting as the first. -/
lemma BarrierInv.releaseAt {ok : Bool} (hp : s.phases p = .releasing b ok) :
    BarrierInv ((s.setBarrier b { s.barriers b with released := true }).setPhase p
      (.finished b ok)) := by
  have hsome : n ≤ 1 ∨ (s.barriers b).arrivals ≠ [] := by
    refine (hi.leads p b (by rw [hp]; rfl)).imp_right fun hhead hnil => ?_
    simp [hnil] at hhead
  have hwaits : ∀ q, s.phases q ≠ .waitingFirst b := by
    intro q hq
    have hqp := hi.leader_unique (p := p) (by rw [hp]; rfl) (by rw [hq]; rfl)
    rw [hqp, hp] at hq
    cases hq
  cases hi
  constructor <;> simp only [BarrierState.setPhase, BarrierState.setBarrier, BarrierState.Leads,
    BarrierState.Ready] <;> grind -linarith -ring -ac [update_apply]

lemma BarrierInv.step {a : BarrierAction n}
    (h : BarrierAction.step s a = some s') : BarrierInv s' := by
  cases a with
  | signal =>
    simp only [BarrierAction.step] at h
    split at h <;> cases h
    exact hi.signalAt ‹_›
  | release =>
    simp only [BarrierAction.step] at h
    split at h <;> cases h
    exact hi.releaseAt ‹_›
  | getBarrier p | wake p | timeOut p | execute p ok | tryRemoveBarrier p =>
    cases hi
    simp only [BarrierAction.step] at h
    split at h <;> (try split_ifs at h) <;> cases h
    all_goals
      constructor <;> simp only [BarrierState.setPhase, BarrierState.Leads, BarrierState.Ready] <;>
        grind -linarith -ring -ac [update_apply]

end

end Steps

section Once

variable {n : Nat} {s : BarrierState n}

lemma mem_of_nodup_of_le_length {l : List (Fin n)} (hnodup : l.Nodup) (h : n ≤ l.length)
    (p : Fin n) : p ∈ l := by
  have hcard : l.toFinset.card = Fintype.card (Fin n) := by
    refine le_antisymm (Finset.card_le_univ _) ?_
    rwa [List.toFinset_card_of_nodup hnodup, Fintype.card_fin]
  exact List.mem_toFinset.1 (Finset.eq_univ_of_card _ hcard ▸ Finset.mem_univ p)

/-- Who has waited for all of them is the only one to execute the operation. -/
lemma BarrierInv.eq_of_executed (hi : BarrierInv s) {p q : Fin n} (hp : p ∈ s.executions)
    (hq : q ∈ s.executions) (htimedOut : p ∉ s.timedOut) : q = p := by
  obtain ⟨b, hb⟩ := BarrierPhase.exists_signalledTo (hi.executed p hp)
  obtain ⟨b', hb'⟩ := BarrierPhase.exists_signalledTo (hi.executed q hq)
  obtain ⟨hleads, hready⟩ := hi.ready p b hp hb
  obtain ⟨hleads', -⟩ := hi.ready q b' hq hb'
  by_cases hn : n ≤ 1
  · exact Fin.ext (by omega)
  have hhead := hleads.resolve_left hn
  have hhead' := hleads'.resolve_left hn
  have hall := (hready.resolve_left hn).resolve_left htimedOut
  have hfull := (hi.full b hall).resolve_left hn
  -- all have signalled to this barrier, so the other one led here as well
  have hmem := mem_of_nodup_of_le_length (hi.nodup b) hfull q
  obtain rfl := Option.some.inj (hb'.symm.trans (hi.signalled b q hmem))
  exact Option.some.inj (hhead'.symm.trans hhead)

/-- The operation is executed once, unless every one who executed it had given up waiting; and who
goes on without having given up does so after an execution. -/
theorem executed_once_or_timedOut (h : Machine.Reachable BarrierAction.step (.init n) s) :
    (s.executions.length ≤ 1 ∨ ∀ p ∈ s.executions, p ∈ s.timedOut) ∧
      ∀ p b, s.phases p = .finished b true → p ∈ s.timedOut ∨ s.executions ≠ [] := by
  have hi : BarrierInv s := h.invariant (.init n) fun hi _ hs => hi.step hs
  refine ⟨?_, fun p b hp => hi.finished p b true hp⟩
  by_cases hall : ∀ p ∈ s.executions, p ∈ s.timedOut
  · exact .inr hall
  · push Not at hall
    obtain ⟨p, hp, htimedOut⟩ := hall
    have hsame : ∀ q ∈ s.executions, q = p := fun q hq => hi.eq_of_executed hp hq htimedOut
    have hsub : s.executions ⊆ [p] := fun q hq => List.mem_singleton.2 (hsame q hq)
    exact .inl (hi.once.subperm hsub).length_le

end Once

/-- Two tasks that meet. -/
def meeting : List (BarrierAction 2) :=
  [.getBarrier 0, .signal 0, .getBarrier 1, .signal 1, .wake 0, .execute 0 true,
    .tryRemoveBarrier 0, .release 0, .wake 1]

theorem executed_once_or_timedOut_meeting :
    ∃ s : BarrierState 2, Machine.Reachable BarrierAction.step (.init 2) s ∧ s.timedOut = [] ∧
      s.phases 1 = .finished 0 true ∧ s.executions.length ≤ 1 ∧ s.executions ≠ [] := by
  obtain ⟨s, hs, hstate⟩ := Machine.exists_reachable_of_run BarrierAction.step (.init 2) meeting
    (fun s => (s.timedOut, s.phases 1)) ([], .finished 0 true) (by decide +kernel)
  obtain ⟨htimedOut, hphase⟩ := Prod.mk.inj hstate
  obtain ⟨honce, hfinished⟩ := executed_once_or_timedOut hs
  have hexec := (hfinished 1 0 hphase).resolve_left (by simp [htimedOut])
  refine ⟨s, hs, htimedOut, hphase, honce.resolve_right fun hall => ?_, hexec⟩
  obtain ⟨p, hp⟩ := List.exists_mem_of_ne_nil _ hexec
  simpa [htimedOut] using hall p hp

/-- The second task comes after the first has given up waiting for it, executed the operation and
taken the barrier away. -/
theorem executed_twice_lateArrival :
    ¬ ∀ (n : Nat) (s : BarrierState n), Machine.Reachable BarrierAction.step (.init n) s →
      s.executions.length ≤ 1 ∧ ∀ p b, s.phases p = .finished b true → s.executions ≠ [] := by
  intro hall
  obtain ⟨s, hs, htwo⟩ := Machine.exists_reachable_of_run BarrierAction.step (.init 2)
    [.getBarrier 0, .signal 0, .timeOut 0, .execute 0 true, .tryRemoveBarrier 0, .release 0,
      .getBarrier 1, .signal 1, .timeOut 1, .execute 1 true]
    (fun s => s.executions.length) 2 (by decide +kernel)
  have hone := (hall 2 s hs).1
  rw [htwo] at hone
  exact absurd hone (by decide)

end Wedb.Aof
