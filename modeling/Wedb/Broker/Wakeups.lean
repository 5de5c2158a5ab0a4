import Wedb.Broker.Registry

/-!
# No item and no wake-up is lost at the broker

While the items of a key can be taken (no degraded key), whoever waits is in the queue of its key or
still on its way there, and the queue of a key that has items is not left alone: the loop works on
it, or an event or a writer is on its way.
-/

namespace Wedb.Broker

open List Observer Function

variable {K E : Type} [DecidableEq K] {s s' : State K E}

/-- The loop finds no degraded key. -/
def Action.plain : Action K E → Bool
  | loopDegraded => false
  | _ => true

/-- Someone is on the way to give out the items of the key. -/
def State.Alerted (s : State K E) (key : K) : Prop :=
  .collectionUpdated key ∈ s.events ∨ key ∈ s.committed ∨
    (∃ number waiters, s.table key = some (number, waiters) ∧ (key, number) ∈ s.found) ∨
    s.phase = .assigning key ∨
    ∃ o dst back, s.phase = .unmapping o dst back ∧ (dst = some key ∨ back = some key)

/-- The observer is in the queue of the key, or the loop has still to put it there. -/
def State.Enrolled (s : State K E) (o : Nat) (key : K) : Prop :=
  (∃ number waiters, s.table key = some (number, waiters) ∧ o ∈ waiters) ∨
    .newObserver o ∈ s.events ∨ ∃ rest, s.phase = .initializing o rest ∧ key ∈ rest

/-- Queues and the events of new observers hold the observers in the order they came. -/
structure WakeInv (s : State K E) : Prop where
  ordered (key : K) (number : Nat) (waiters : List Nat) : s.table key = some (number, waiters) →
    waiters.Pairwise (· ≤ ·)
  known (key : K) (number : Nat) (waiters : List Nat) : s.table key = some (number, waiters) →
    ∀ o ∈ waiters, o < s.observerCount ∧ ∀ o', .newObserver o' ∈ s.events → o < o'
  news : s.events.Pairwise fun e e' => ∀ o o', e = .newObserver o → e' = .newObserver o' → o < o'
  news_lt (o : Nat) : .newObserver o ∈ s.events → o < s.observerCount
  current (o : Nat) (rest : List K) : s.phase = .initializing o rest → o < s.observerCount ∧
    (∀ o', .newObserver o' ∈ s.events → o < o') ∧
    ∀ key number waiters, s.table key = some (number, waiters) → ∀ o' ∈ waiters, o' ≤ o
  enrolled (o : Nat) (key : K) : s.waiting o = true → key ∈ (s.observers o).keys → s.Enrolled o key
  alerted (key : K) (number : Nat) (waiters : List Nat) : s.table key = some (number, waiters) →
    waiters ≠ [] → s.store key ≠ [] → s.Alerted key

attribute [grind] Phase.resume

variable {o : Nat} {key : K} {a : Action K E}

section

variable (hi : WakeInv s)
include hi

/-- An observer that has its items leaves the queue of the key. -/
lemma WakeInv.serve {queue : Option (Nat × List Nat)} {back : Option K} (hat :
      (∃ rest, s.phase = .initializing o rest) ∧ queue = none ∧
        (∀ number waiters, s.table key = some (number, waiters) → waiters = []) ∨
      s.phase = .assigning key ∧ back = some key ∧
        ∃ number rest, s.table key = some (number, o :: rest) ∧ queue = some (number, rest)) :
    WakeInv ((s.setQueue key queue).serve o key back) := by
  cases hi
  rcases hdst : (s.observers o).command.dst with _ | dst
  all_goals
    constructor <;> simp only [State.waiting, waiting, State.Enrolled, State.Alerted,
      State.setQueue, State.serve, State.setObserver, hdst] at * <;> grind -linarith [update_apply]

lemma WakeInv.initializeKey {rest : List K}
    (hphase : s.phase = .initializing o (key :: rest)) : WakeInv (s.initializeKey o key rest) := by
  have hserve : (∀ number waiters, s.table key = some (number, waiters) → waiters = []) →
      WakeInv ((s.setQueue key none).serve o key none) :=
    fun h => hi.serve (.inl ⟨⟨_, hphase⟩, rfl, h⟩)
  cases hi
  unfold State.initializeKey
  rcases htable : s.table key with _ | ⟨number, waiters⟩ <;> dsimp only [Option.getD] <;>
    split_ifs with hsome hgone hstore
  case neg | neg =>
    obtain ⟨h₁, h₂, h₃, h₄, h₅, h₆, h₇⟩ := hserve (by grind)
    exact ⟨h₁, h₂, h₃, h₄, h₅, h₆, h₇⟩
  all_goals
    constructor <;> simp only [State.waiting, waiting, State.Enrolled, State.Alerted,
      State.setQueue] at * <;> grind -linarith [update_apply]

lemma WakeInv.assignNext (hphase : s.phase = .assigning key) : WakeInv (s.assignNext key) := by
  have hserve : ∀ o number rest, s.table key = some (number, o :: rest) →
      WakeInv ((s.setQueue key (some (number, rest))).serve o key (some key)) :=
    fun o number rest htable => hi.serve (.inr ⟨hphase, rfl, number, rest, htable, rfl⟩)
  cases hi
  unfold State.assignNext
  split
  · constructor <;> simp only [State.waiting, State.Enrolled, State.Alerted] at * <;> grind -linarith
  · constructor <;> simp only [State.waiting, State.Enrolled, State.Alerted,
      State.setQueue] at * <;> grind -linarith [update_apply]
  · split_ifs
    · constructor <;> simp only [State.waiting, State.Enrolled, State.Alerted,
        State.setQueue] at * <;> grind -linarith [update_apply]
    · constructor <;> simp only [State.waiting, State.Enrolled, State.Alerted] at * <;> grind -linarith
    · exact hserve _ _ _ ‹_›

lemma WakeInv.loop (h : s.loop = some s') : WakeInv s' := by
  unfold State.loop at h
  split at h
  · obtain ⟨hordered, hknown, hnews, hnewslt, hcurrent, henrolled, halerted⟩ := hi
    split at h <;> cases h <;> rename_i hevents <;> rw [hevents] at hnews
    · obtain ⟨hfirst, hnews⟩ := pairwise_cons.1 hnews
      have hfirst := fun o' h => hfirst (.newObserver o') h _ _ rfl rfl
      constructor <;> simp only [State.waiting, State.Enrolled, State.Alerted] at * <;> grind -linarith
    · constructor <;> simp only [State.waiting, State.Enrolled, State.Alerted] at * <;> grind -linarith
  · cases hi
    cases h
    constructor <;> simp only [State.waiting, State.Enrolled, State.Alerted] at * <;> grind -linarith
  · cases h
    exact hi.initializeKey ‹_›
  · cases h
    exact hi.assignNext ‹_›
  · cases h
    rename_i back _
    cases hi
    cases back <;> constructor <;> simp only [State.waiting, State.Enrolled, State.Alerted,
      State.unregister, Phase.resume] at * <;> grind -linarith

lemma WakeInv.step (ha : a.plain = true) (h : a.step s = some s') : WakeInv s' := by
  cases a
  case loop => exact hi.loop h
  case loopDegraded => cases ha
  all_goals
    obtain ⟨hordered, hknown, hnews, hnewslt, hcurrent, henrolled, halerted⟩ := hi
    simp only [Action.step, State.waiting, State.Enrolled, State.Alerted] at *
  case startWait | finishWait | finishResult | handleSessionDisposed | markDisposed
      | tryForceUnblock =>
    split at h <;> cases h
    all_goals
      constructor <;> simp only [State.waiting, waiting, State.Enrolled, State.Alerted,
        State.setObserver, State.setResult, State.setWait, State.unregister, new] at * <;>
        grind -linarith [update_apply, handleSetResult]
  case push key item | pop key =>
    cases h
    have htail : (s.store key).tail ≠ [] → s.store key ≠ [] := by grind
    constructor <;> simp only [State.waiting, State.Enrolled, State.Alerted] <;>
      grind -linarith [update_apply]
  case findQueue =>
    split_ifs at h
    split at h <;> cases h <;> constructor <;>
      simp only [State.waiting, State.Enrolled, State.Alerted] <;> grind -linarith
  case notify key number =>
    split_ifs at h
    split at h
    · split_ifs at h <;> cases h <;> constructor <;>
        simp only [State.waiting, State.Enrolled, State.Alerted] <;> grind -linarith
    · rename_i hnobody
      have hempty : ∀ number waiters, s.table key = some (number, waiters) → waiters = [] := by
        rintro number (_ | ⟨o, rest⟩) htable
        · rfl
        · exact (hnobody _ _ _ htable).elim
      cases h
      constructor <;> simp only [State.waiting, State.Enrolled, State.Alerted] <;> grind -linarith
  case clean key =>
    split at h <;> cases h
    rename_i number waiters hphase htable
    have hmem : ∀ o, o ∈ waiters.filter s.waiting ↔ o ∈ waiters ∧ (s.observers o).waiting = true :=
      fun o => mem_filter
    have hkept := (hordered key number waiters htable).filter s.waiting
    have hsome : waiters.filter s.waiting ≠ [] → waiters ≠ [] := by grind
    generalize waiters.filter s.waiting = kept at *
    split_ifs
    all_goals
      constructor <;> simp only [State.waiting, State.Enrolled, State.Alerted, State.setQueue] <;>
        grind -linarith [update_apply]

end

/-! ### Items and results -/

/-- The items of a key are given to an observer. -/
structure Serves (s s' : State K E) (o : Nat) (key : K) (popped : List E) : Prop where
  waiting : s.waiting o = true
  items : popped = ((s.observers o).command.take (s.store key)).1
  served : s'.served = s.served ++ [o]
  removed : s'.removed = s.removed ++ popped
  observers : s'.observers = update s.observers o
    { s.observers o with status := .resultSet, result := popped }
  first : (∃ rest, s.phase = .initializing o (key :: rest)) ∧
      (∀ number waiters, s.table key = some (number, waiters) → waiters = []) ∨
    s.phase = .assigning key ∧ ∃ number rest, s.table key = some (number, o :: rest)

lemma State.serves_of_loop (h : s.loop = some s') : s'.observerCount = s.observerCount ∧
    ((s'.served = s.served ∧ s'.removed = s.removed ∧ s'.observers = s.observers ∧
        s'.store = s.store) ∨
      ∃ o key popped, Serves s s' o key popped) := by
  unfold loop at h
  split at h
  case h_3 o key rest hphase =>
    cases h
    unfold initializeKey
    dsimp only
    split_ifs with hsome hgone
    case neg =>
      refine ⟨rfl, .inr ⟨o, key, _, ?_, rfl, rfl, rfl, rfl, .inl ⟨⟨rest, hphase⟩, ?_⟩⟩⟩
      · simpa [waiting] using hgone
      · intro number waiters htable
        simpa [htable] using hsome
    all_goals exact ⟨rfl, .inl ⟨rfl, rfl, rfl, rfl⟩⟩
  case h_4 key hphase =>
    cases h
    unfold assignNext
    split
    case h_3 htable =>
      split_ifs with hgone
      case neg =>
        exact ⟨rfl, .inr ⟨_, key, _, by simpa using hgone, rfl, rfl, rfl, rfl,
          .inr ⟨hphase, _, _, htable⟩⟩⟩
      all_goals exact ⟨rfl, .inl ⟨rfl, rfl, rfl, rfl⟩⟩
    all_goals exact ⟨rfl, .inl ⟨rfl, rfl, rfl, rfl⟩⟩
  · split at h <;> cases h <;> exact ⟨rfl, .inl ⟨rfl, rfl, rfl, rfl⟩⟩
  all_goals
    cases h
    exact ⟨rfl, .inl ⟨rfl, rfl, rfl, rfl⟩⟩

/-- What the loop has taken are the results of those it has served, one after the other, and an
observer is in the queues of its own keys only. -/
structure Delivered (s : State K E) : Prop where
  once : s.served.Nodup
  gone (o : Nat) : o ∈ s.served → s.waiting o = false ∧ o < s.observerCount
  results : s.removed = s.served.flatMap fun o => (s.observers o).result
  queued (key : K) (number : Nat) (waiters : List Nat) : s.table key = some (number, waiters) →
    ∀ o ∈ waiters, key ∈ (s.observers o).keys
  current (o : Nat) (rest : List K) : s.phase = .initializing o rest →
    ∀ key ∈ rest, key ∈ (s.observers o).keys

omit [DecidableEq K] in
lemma results_congr {served : List Nat}
    (h : ∀ o ∈ served, (s'.observers o).result = (s.observers o).result) :
    served.flatMap (fun o => (s'.observers o).result) =
      served.flatMap fun o => (s.observers o).result := by
  rw [flatMap_def, flatMap_def, map_congr_left h]

variable {popped : List E}

omit [DecidableEq K] in
lemma Serves.lt (h : Serves s s' o key popped) (hw : WakeInv s) : o < s.observerCount := by
  rcases h.first with ⟨⟨rest, hphase⟩, -⟩ | ⟨-, number, rest, htable⟩
  · exact (hw.current o _ hphase).1
  · exact (hw.known key number _ htable o mem_cons_self).1

lemma Delivered.loop_members (hi : Delivered s) (h : s.loop = some s') :
    (∀ key number waiters, s'.table key = some (number, waiters) →
      ∀ o ∈ waiters, key ∈ (s'.observers o).keys) ∧
    ∀ o rest, s'.phase = .initializing o rest → ∀ key ∈ rest, key ∈ (s'.observers o).keys := by
  obtain ⟨-, -, -, hqueued, hcurrent⟩ := hi
  unfold State.loop at h
  split at h
  · split at h <;> cases h <;> grind
  · cases h
    constructor <;> grind
  · cases h
    rename_i o key rest hphase
    have hkeys := hcurrent _ _ hphase
    rcases htable : s.table key with _ | ⟨number, waiters⟩ <;>
      simp only [State.initializeKey] <;> split_ifs <;> simp only [State.setQueue, State.serve, State.setObserver] <;>
      grind [update_apply]
  · cases h
    unfold State.assignNext
    split
    · constructor <;> grind
    · constructor <;> simp only [State.setQueue] <;> grind [update_apply]
    · split_ifs <;>
        simp only [State.setQueue, State.serve, State.setObserver] <;>
        grind [update_apply]
  · cases h
    rename_i back _
    cases back <;> simp only [State.unregister] <;> grind

lemma Delivered.loop (hw : WakeInv s) (hi : Delivered s) (h : s.loop = some s') : Delivered s' := by
  obtain ⟨hqueued, hcurrent⟩ := hi.loop_members h
  obtain ⟨honce, hgone, hresults, -, -⟩ := hi
  obtain ⟨hcount, ⟨hserved, hremoved, hobservers, -⟩ | ⟨o, key, popped, hserves⟩⟩ :=
    State.serves_of_loop h
  · refine ⟨hserved ▸ honce, ?_, ?_, hqueued, hcurrent⟩
    · simpa only [hserved, State.waiting, hobservers, hcount] using hgone
    · rw [hserved, hremoved, hobservers, hresults]
  · have hlt := hserves.lt hw
    obtain ⟨hwaiting, -, hserved, hremoved, hobservers, -⟩ := hserves
    have hnew : o ∉ s.served := fun hmem => by simp [(hgone o hmem).1] at hwaiting
    have hothers : ∀ o' ∈ s.served, s'.observers o' = s.observers o' := by
      intro o' hmem
      rw [hobservers, update_of_ne (ne_of_mem_of_not_mem hmem hnew)]
    refine ⟨?_, ?_, ?_, hqueued, hcurrent⟩
    · rw [hserved]
      exact nodup_append.2 ⟨honce, by simp, by grind⟩
    · simp only [State.waiting, hobservers] at *
      grind [waiting]
    · rw [hserved, hremoved, flatMap_append, hresults,
        results_congr fun o' ho' => congrArg result (hothers o' ho')]
      simp [hobservers]

lemma Delivered.step (hw : WakeInv s) (hi : Delivered s) (ha : a.plain = true)
    (h : a.step s = some s') : Delivered s' := by
  cases a with
  | loopDegraded => cases ha
  | loop => exact hi.loop hw h
  | startWait session keys command | finishWait session | finishResult session
  | handleSessionDisposed session | markDisposed session | tryForceUnblock session =>
    obtain ⟨-, hknown, -, -, hat, -, -⟩ := hw
    obtain ⟨honce, hgone, hresults, hqueued, hcurrent⟩ := hi
    simp only [Action.step] at h
    split at h <;> cases h
    all_goals
      refine ⟨honce, ?_, hresults.trans (results_congr ?_).symm, ?_, ?_⟩ <;>
      simp only [State.waiting, waiting,
        State.setObserver, State.setResult, State.setWait, State.unregister, new] at * <;>
        grind [update_apply, handleSetResult]
  | push key item | pop key | findQueue key | notify key number =>
    obtain ⟨_, _, _, _, rfl⟩ := Action.step_quiet rfl h
    exact ⟨hi.once, hi.gone, hi.results, hi.queued, hi.current⟩
  | clean =>
    have hqueued := hi.queued
    simp only [Action.step] at h
    split at h <;> cases h
    refine ⟨hi.once, hi.gone, hi.results, ?_, hi.current⟩
    simp only [State.setQueue]
    grind [update_apply]

omit [DecidableEq K] in
/-- No one that came earlier waits at the key. -/
lemma Serves.earlier (h : Serves s s' o key popped)
    (hw : WakeInv s) {o' : Nat} (hlt : o' < o) (hkey : key ∈ (s.observers o').keys) :
    s.waiting o' = false := by
  by_contra hwaiting
  rcases hw.enrolled o' key (by simpa using hwaiting) hkey with
    ⟨number, waiters, htable, hmem⟩ | hevent | ⟨rest, hphase, -⟩
  · rcases h.first with ⟨-, hempty⟩ | ⟨-, number', rest, htable'⟩
    · simp [hempty number waiters htable] at hmem
    · obtain rfl : waiters = o :: rest := by grind
      have hle := pairwise_cons.1 (hw.ordered key number _ htable)
      grind
  · rcases h.first with ⟨⟨rest, hphase⟩, -⟩ | ⟨-, number, rest, htable⟩
    · exact absurd ((hw.current o _ hphase).2.1 o' hevent) (by omega)
    · exact absurd ((hw.known key number _ htable o mem_cons_self).2 o' hevent) (by omega)
  · rcases h.first with ⟨⟨rest', hphase'⟩, -⟩ | ⟨hphase', -⟩ <;> grind

end Wedb.Broker
