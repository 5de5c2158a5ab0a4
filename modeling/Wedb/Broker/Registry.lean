import Wedb.Broker.Model

/-!
# Blocked sessions in the registry

A disposal or an unblock request finds the observer of a session in the registry. The loop takes
out the entry of an observer it has served by the number of its session, some time after it has
woken the session: by then the entry may belong to the next wait.
-/

namespace Wedb.Broker

open State

variable {K E : Type} [DecidableEq K] {s s' : State K E}

/-- While a session is blocked without a result the registry leads to the observer of its wait. -/
def Reached (s : State K E) : Prop :=
  ∀ session o, s.waits session = .blocked o → s.waiting o = true → s.registry session = some o

/-- The loop takes out no entry of a session that has begun to wait again. -/
def Action.careful (s : State K E) : Action K E → Bool
  | loop =>
    match s.phase with
    | .unmapping o _ _ =>
      match s.waits (s.observers o).session with
      | .blocked o' => o' = o
      | _ => true
    | _ => true
  | _ => true

structure RegistryInv (s : State K E) : Prop where
  reached : Reached s
  known (session o : Nat) : s.waits session = .blocked o → o < s.observerCount
  served (o : Nat) (dst back : Option K) : s.phase = .unmapping o dst back →
    s.waiting o = false ∧ o < s.observerCount
  waiting (o : Nat) : s.waiting o = true → o < s.observerCount

/-- The action concerns the items of a key. -/
def Action.quiet : Action K E → Bool
  | push .. | pop .. | findQueue .. | notify .. => true
  | _ => false

lemma Action.step_quiet {a : Action K E} (ha : a.quiet = true) (h : a.step s = some s') :
    ∃ events store committed found, s' = { s with
      events := events, store := store, committed := committed, found := found } := by
  cases a with
  | push key item | pop key =>
    cases h
    exact ⟨_, _, _, _, rfl⟩
  | findQueue key | notify key number =>
    simp only [step] at h
    split_ifs at h
    split at h <;> (try split_ifs at h) <;> cases h <;> exact ⟨_, _, _, _, rfl⟩
  | _ => cases ha

/-- Observers only cease to wait while the loop gives items away. -/
lemma RegistryInv.loop (hi : RegistryInv s) (hc : Action.careful s .loop = true)
    (h : s.loop = some s') : RegistryInv s' := by
  obtain ⟨hreached, hknown, hserved, hwaiting⟩ := hi
  unfold Reached at hreached
  unfold State.loop at h
  split at h
  · split at h <;> cases h <;> exact ⟨hreached, hknown, nofun, hwaiting⟩
  · cases h
    exact ⟨hreached, hknown, nofun, hwaiting⟩
  · cases h
    unfold initializeKey
    dsimp only
    split_ifs
    all_goals
      constructor <;> simp only [Reached, State.waiting, Observer.waiting, setQueue,
        serve, setObserver] at * <;> grind [Function.update_apply]
  · cases h
    unfold assignNext
    split
    · exact ⟨hreached, hknown, nofun, hwaiting⟩
    · exact ⟨hreached, hknown, nofun, hwaiting⟩
    · split_ifs
      all_goals
        constructor <;> simp only [Reached, State.waiting, Observer.waiting, setQueue,
          serve, setObserver] at * <;> grind [Function.update_apply]
  · cases h
    rename_i o dst back hphase
    simp only [Action.careful, hphase] at hc
    cases back <;> constructor <;>
      simp only [Reached, State.waiting, Observer.waiting, unregister, Phase.resume] at * <;>
      grind [Function.update_apply]

omit [DecidableEq K] in
lemma RegistryInv.setResult (hi : RegistryInv s) (o : Nat) : RegistryInv (s.setResult o) := by
  obtain ⟨hreached, hknown, hserved, hwaiting⟩ := hi
  constructor <;> simp only [Reached, State.waiting, Observer.waiting, State.setResult,
    setObserver] at * <;> grind [Function.update_apply, Observer.handleSetResult]

lemma RegistryInv.step {a : Action K E} (hi : RegistryInv s) (hc : a.careful s = true)
    (h : a.step s = some s') : RegistryInv s' := by
  cases a with
  | loop => exact hi.loop hc h
  | loopDegraded =>
    simp only [Action.step, State.loopDegraded] at h
    split at h
    · split_ifs at h with hwaits
      cases h
      obtain ⟨hreached, hknown, hserved, hwaiting⟩ := hi
      constructor <;> simp only [Reached, State.waiting, Observer.waiting, State.setResult,
        setQueue, setObserver] at * <;>
        grind [Function.update_apply, Observer.handleSetResult, Observer.waiting]
    · rename_i key _
      cases h
      have hkept : RegistryInv (s.setQueue key none) :=
        ⟨hi.reached, hi.known, hi.served, hi.waiting⟩
      have hall := List.foldlRecOn (s.queue key) _ hkept fun _ hi o _ => hi.setResult o
      exact ⟨hall.reached, hall.known, nofun, hall.waiting⟩
    · cases h
  | tryForceUnblock =>
    simp only [Action.step] at h
    split at h <;> cases h
    · exact hi.setResult _
    · exact hi
  | push key item | pop key | findQueue key | notify key number =>
    obtain ⟨_, _, _, _, rfl⟩ := Action.step_quiet rfl h
    exact ⟨hi.reached, hi.known, hi.served, hi.waiting⟩
  | clean =>
    simp only [Action.step] at h
    split at h <;> cases h
    exact ⟨hi.reached, hi.known, hi.served, hi.waiting⟩
  | startWait session keys command | finishWait session | finishResult session
  | handleSessionDisposed session | markDisposed session =>
    obtain ⟨hreached, hknown, hserved, hwaiting⟩ := hi
    simp only [Action.step] at h
    split at h <;> cases h
    all_goals
      constructor <;> simp only [Reached, State.waiting, Observer.waiting, setObserver,
        State.setResult, setWait, unregister, Observer.new] at * <;>
        grind [Function.update_apply, Observer.handleSetResult]

/-- In every run in which the loop takes out no entry of a session that waits again, every blocked
session is in the registry. -/
theorem reached_of_careful
    (h : Machine.Reaches Action.step (fun s a => a.careful s = true) ({} : State K E) s) :
    Reached s := by
  have hinit : RegistryInv ({} : State K E) := by
    constructor <;> simp [Reached, waiting, Observer.waiting, Observer.unused]
  exact (h.invariant hinit fun hi hc hs => hi.step hc hs).reached

/-- The first item of a list. -/
def blpop : Command Nat Nat where
  take items := (items.take 1, items.drop 1)
  perm items := by rw [List.take_append_drop]

/-- A session is served and begins its next wait. -/
def servedTwice (early : Bool) : List (Action Nat Nat) :=
  [.push 7 1, .startWait 0 [7] blpop, .loop, .loop] ++ (if early then [] else [.loop]) ++
    [.finishWait 0, .finishResult 0, .startWait 0 [7] blpop] ++ (if early then [.loop] else [])

theorem reached_of_careful_inTime :
    ∃ s : State Nat Nat, Machine.Reaches Action.step (fun s a => a.careful s = true) {} s ∧
      s.waits 0 = .blocked 1 ∧ s.waiting 1 = true ∧ s.registry 0 = some 1 := by
  obtain ⟨s, hs, hstate⟩ := Machine.exists_reaches_of_run Action.step
    (fun s a => a.careful s = true) ({} : State Nat Nat) (servedTwice false)
    (fun s => (s.waits 0, s.waiting 1)) (.blocked 1, true) (by decide +kernel)
  obtain ⟨hwait, hwaiting⟩ := Prod.mk.inj hstate
  exact ⟨s, hs, hwait, hwaiting, reached_of_careful hs 0 1 hwait hwaiting⟩

/-- The entry of the second wait goes with the first. -/
theorem exists_not_reached :
    ∃ s : State Nat Nat, Machine.Reachable Action.step {} s ∧ ¬ Reached s := by
  obtain ⟨s, hs, hstate⟩ := Machine.exists_reachable_of_run Action.step ({} : State Nat Nat)
    (servedTwice true) (fun s => (s.waits 0, s.waiting 1, s.registry 0)) (.blocked 1, true, none)
    (by decide +kernel)
  obtain ⟨hwait, hrest⟩ := Prod.mk.inj hstate
  obtain ⟨hwaiting, hnone⟩ := Prod.mk.inj hrest
  refine ⟨s, hs, fun hreached => ?_⟩
  have := hreached 0 1 hwait hwaiting
  rw [hnone] at this
  cases this

end Wedb.Broker
