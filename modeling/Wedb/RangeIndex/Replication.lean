import Wedb.Lib.Machine

/-!
# Replication of range-index writes

Sessions create a range index, set and delete its fields. A write takes effect in one section under
the stripe lock of the key, and its event goes to the log after the lock is released; a delete that
empties the index goes on to remove it. The replica runs the same operations in the order of the
log.
-/

namespace Wedb.RangeIndex

variable {n : Nat} {F V : Type}

inductive Event (F V : Type) where
  | create
  | set (field : F) (value : V)
  | delete (field : F)
  | drop
deriving DecidableEq

/-- The size of the record and the fields of the tree. -/
abbrev Index (F V : Type) := Nat × (F → Option V)

inductive Write (F V : Type) where
  | set (field : F) (value : V)
  | delete (field : F)

def Write.event : Write F V → Event F V
  | set field value => .set field value
  | delete field => .delete field

/-- Where a call stands. -/
inductive Phase (F V : Type) where
  | idle
  /-- `create` has found no record. -/
  | checked
  /-- `create` has registered its tree. -/
  | built
  /-- A write has found a record. -/
  | loaded (write : Write F V)
  /-- `lazy_restore_tree` has found a record again. -/
  | restoring (write : Write F V)
  /-- The last field is gone. -/
  | drained (field : F) (keyId : Nat)
  | tombstoned (field : F)
  | unregistered (field : F)
  | emitting (event : Event F V)

structure State (n : Nat) (F V : Type) where
  /-- The live metadata record: its key id and its size. -/
  record : Option (Nat × Nat) := none
  nextKeyId : Nat := 0
  /-- The tree in the registry. -/
  tree : Option (F → Option V) := none
  events : List (Event F V) := []
  phase : Fin n → Phase F V := fun _ => .idle

inductive Action (F V : Type) where
  | create
  | createBftree
  | saveMeta
  | load (write : Write F V)
  | recheck
  /-- The tree is opened from whatever its file holds. -/
  | getOrOpen (file : F → Option V)
  /-- The section of a write under the stripe lock. -/
  | apply
  | tombstoneMetaGuarded
  | deleteIndex
  | emit

section Step

variable [DecidableEq F]

/-- A write to the tree and to the size of the record. -/
def Index.write (index : Index F V) : Write F V → Index F V
  | .set field value =>
    (if (index.2 field).isNone then index.1 + 1 else index.1,
      Function.update index.2 field (some value))
  | .delete field =>
    if (index.2 field).isSome then (index.1 - 1, Function.update index.2 field none) else index

/-- A delete has taken the last field. -/
def Index.drains (index : Index F V) : Write F V → Bool
  | .set _ _ => false
  | .delete field => (index.2 field).isSome && index.1 == 1

def State.goto (s : State n F V) (r : Fin n) (phase : Phase F V) : State n F V :=
  { s with phase := Function.update s.phase r phase }

def Write.field : Write F V → F
  | set field _ | delete field => field

def Action.step (s : State n F V) (r : Fin n) : Action F V → Option (State n F V)
  | create =>
    match s.phase r, s.record with
    | .idle, none => some (s.goto r .checked)
    | _, _ => none
  | createBftree =>
    match s.phase r, s.tree with
    | .checked, none => some ({ s with tree := some fun _ => none }.goto r .built)
    | .checked, some _ => some (s.goto r .idle)
    | _, _ => none
  | saveMeta =>
    match s.phase r, s.record with
    | .built, none =>
      some ({ s with record := some (s.nextKeyId, 0), nextKeyId := s.nextKeyId + 1 }.goto r
        (.emitting .create))
    | .built, some _ => some ({ s with tree := none }.goto r .idle)
    | _, _ => none
  | load write =>
    match s.phase r, s.record with
    | .idle, some _ => some (s.goto r (.loaded write))
    | _, _ => none
  | recheck =>
    match s.phase r, s.tree with
    | .loaded write, none => some (s.goto r (if s.record.isSome then .restoring write else .idle))
    | _, _ => none
  | getOrOpen file =>
    match s.phase r with
    | .restoring write => some ({ s with tree := some (s.tree.getD file) }.goto r (.loaded write))
    | _ => none
  | apply =>
    match s.phase r, s.tree, s.record with
    | .loaded write, some tree, some (keyId, size) =>
      let index := Index.write (size, tree) write
      some ({ s with record := some (keyId, index.1), tree := some index.2 }.goto r
        (if Index.drains (size, tree) write then .drained write.field keyId
          else .emitting write.event))
    | .loaded _, some _, none => some (s.goto r .idle)
    | _, _, _ => none
  | tombstoneMetaGuarded =>
    match s.phase r with
    | .drained field keyId =>
      if s.record = some (keyId, 0) then some ({ s with record := none }.goto r (.tombstoned field))
      else some (s.goto r (.emitting (.delete field)))
    | _ => none
  | deleteIndex =>
    match s.phase r with
    | .tombstoned field => some ({ s with tree := none }.goto r (.unregistered field))
    | _ => none
  | emit =>
    match s.phase r with
    | .unregistered field =>
      some ({ s with events := s.events ++ [Event.drop] }.goto r (.emitting (.delete field)))
    | .emitting event => some ({ s with events := s.events ++ [event] }.goto r .idle)
    | _ => none

def step (s : State n F V) (a : Fin n × Action F V) : Option (State n F V) := a.2.step s a.1

/-- The replica runs the same operation. A delete of its last field removes its index. -/
def replayEvent (index : Option (Index F V)) : Event F V → Option (Index F V)
  | .create => some (index.getD (0, fun _ => none))
  | .set field value => index.map (·.write (.set field value))
  | .delete field => index.bind fun index =>
    if index.drains (.delete field) then none else some (index.write (.delete field))
  | .drop => none

def replay (events : List (Event F V)) : Option (Index F V) := events.foldl replayEvent none

end Step

/-- The index that commands see. -/
def State.index (s : State n F V) : Option (Index F V) :=
  s.record.bind fun record => s.tree.map (record.2, ·)

/-- The call has changed the index and has events to emit. -/
def Phase.busy : Phase F V → Bool
  | .drained _ _ | .tombstoned _ | .unregistered _ | .emitting _ => true
  | _ => false

/-- A write takes effect only while no other call has events to emit. -/
def inTurn (s : State n F V) (a : Fin n × Action F V) : Bool :=
  match a.2 with
  | .saveMeta | .apply => decide (∀ r, (s.phase r).busy = false)
  | _ => true

/-- The replica has the index of the primary once no call has events to emit. -/
def Replicated [DecidableEq F] (s : State n F V) : Prop :=
  (∀ r, (s.phase r).busy = false) → (replay s.events).map Prod.snd = s.index.map Prod.snd

section Invariant

variable [DecidableEq F] {s s' t : State n F V} {r : Fin n} {p : Phase F V} {a : Action F V}

lemma replay_append (events : List (Event F V)) (event : Event F V) :
    replay (events ++ [event]) = replayEvent (replay events) event := by
  simp [replay]

/-- What a call relies on, and what its events are still to bring about. -/
def Phase.Owes (s : State n F V) : Phase F V → Prop
  | .built => s.record = none ∧ s.tree = some fun _ => none
  | .drained _ keyId => s.record = some (keyId, 0)
  | .tombstoned _ => s.record = none ∧ s.tree.isSome
  | .unregistered _ => s.record = none
  | .emitting event => replayEvent (replay s.events) event = s.index
  | _ => True

/-- The call has a tree in the registry that belongs to no record. -/
def Phase.holds : Phase F V → Bool
  | .built | .tombstoned _ => true
  | _ => false

structure Inv (s : State n F V) : Prop where
  registered : s.record.isSome → s.tree.isSome
  alone (r r' : Fin n) : (s.phase r).busy = true → (s.phase r').busy = true → r = r'
  holders (r r' : Fin n) : (s.phase r).holds = true → (s.phase r').holds = true → r = r'
  quiet : (∀ r, (s.phase r).busy = false) → replay s.events = s.index
  owes (r : Fin n) : (s.phase r).Owes s

namespace Inv

lemma holder (hi : Inv s) (h : (s.phase r).holds = true) : s.record = none ∧ s.tree.isSome := by
  have howes := hi.owes r
  cases hp : s.phase r <;> rw [hp] at h howes <;> cases h
  · exact ⟨howes.1, by rw [howes.2]; rfl⟩
  · exact howes

/-- A call goes on to phase `p`. -/
lemma go (hi : Inv s) (hphase : t.phase = s.phase) (hregistered : t.record.isSome → t.tree.isSome)
    (hothers : ∀ r' ≠ r, (s.phase r').Owes t) (hown : p.Owes t)
    (hbusy : p.busy = true → ∀ r' ≠ r, (s.phase r').busy = false)
    (hholds : p.holds = true → ∀ r' ≠ r, (s.phase r').holds = false)
    (hquiet : p.busy = false → (∀ r' ≠ r, (s.phase r').busy = false) →
      replay t.events = t.index) : Inv (t.goto r p) where
  registered := hregistered
  alone r₁ r₂ := by
    have := hi.alone r₁ r₂
    simp only [State.goto, hphase]
    grind [Function.update_apply]
  holders r₁ r₂ := by
    have := hi.holders r₁ r₂
    simp only [State.goto, hphase]
    grind [Function.update_apply]
  quiet h := hquiet (by simpa [State.goto] using h r) fun r' hne => by
    simpa [State.goto, hne, hphase] using h r'
  owes := (Function.forall_update_iff t.phase fun _ p => p.Owes t).2
    ⟨hown, fun r' hne => hphase ▸ hothers r' hne⟩

/-- The only call that has changed the index goes on. -/
lemma act (hi : Inv s) (hphase : t.phase = s.phase) (hothers : ∀ r' ≠ r, (s.phase r').busy = false)
    (hheld : (∀ r' ≠ r, (s.phase r').holds = false) ∨ t.record = s.record ∧ t.tree = s.tree)
    (hregistered : t.record.isSome → t.tree.isSome) (hown : p.Owes t)
    (hholds : p.holds = true → ∀ r' ≠ r, (s.phase r').holds = false)
    (hquiet : p.busy = false → replay t.events = t.index) : Inv (t.goto r p) := by
  refine hi.go hphase hregistered (fun r' hne => ?_) hown (fun _ => hothers) hholds
    fun h _ => hquiet h
  have hbusy := hothers r' hne
  have howes := hi.owes r'
  cases hp : s.phase r' <;> rw [hp] at hbusy howes <;> try cases hbusy
  all_goals try trivial
  rcases hheld with hheld | ⟨hrecord, htree⟩
  · have := hheld r' hne
    rw [hp] at this
    cases this
  · exact ⟨hrecord.trans howes.1, htree.trans howes.2⟩

/-- A step that commands do not see. -/
lemma pass (hi : Inv s) {tree : Option (F → Option V)} (htree : s.tree = none ∨ tree = s.tree)
    (hold : (s.phase r).busy = false) (hnew : p.busy = false) (hown : p.Owes { s with tree })
    (hholds : p.holds = true → s.tree = none) : Inv ({ s with tree }.goto r p) := by
  have hnone (h : s.tree = none) : s.record = none := by simpa [h] using hi.registered
  have hindex : State.index { s with tree } = s.index := by
    rcases htree with h | rfl
    · simp [State.index, hnone h]
    · rfl
  have hholder {r'} := hi.holder (r := r')
  refine hi.go (t := { s with tree }) rfl ?_ (fun r' _ => ?_) hown ?_ ?_ fun _ h => ?_
  · have := hi.registered
    grind
  · have howes := hi.owes r'
    cases hp : s.phase r' <;> rw [hp] at howes <;> grind [Phase.Owes]
  · exact fun h => absurd (hnew.symm.trans h) nofun
  · grind
  · exact (hi.quiet fun r' => if hne : r' = r then hne ▸ hold else h r' hne).trans hindex.symm

end Inv

lemma Inv.step (hi : Inv s) (hc : inTurn s (r, a) = true) (h : a.step s r = some s') : Inv s' := by
  have howes := hi.owes r
  have hbusy (h : (s.phase r).busy = true) (r' : Fin n) (hne : r' ≠ r) : (s.phase r').busy = false :=
    Bool.eq_false_iff.2 fun h' => hne (hi.alone r' r h' h)
  have hholds (h : (s.phase r).holds = true) (r' : Fin n) (hne : r' ≠ r) :
      (s.phase r').holds = false := Bool.eq_false_iff.2 fun h' => hne (hi.holders r' r h' h)
  have hlive (h : s.record ≠ none) (r' : Fin n) (_ : r' ≠ r) : (s.phase r').holds = false :=
    Bool.eq_false_iff.2 fun h' => h (hi.holder h').1
  cases a <;> simp only [Action.step] at h
  case create | load =>
    split at h <;> cases h
    exact hi.pass (.inr rfl) (by simp [*, Phase.busy]) rfl trivial nofun
  case createBftree =>
    split at h <;> cases h
    · refine hi.pass (.inl ‹_›) (by simp [*, Phase.busy]) rfl ⟨?_, rfl⟩ fun _ => ‹_›
      simpa [*] using hi.registered
    · exact hi.pass (.inr rfl) (by simp [*, Phase.busy]) rfl trivial nofun
  case saveMeta =>
    have hall : ∀ r, (s.phase r).busy = false := of_decide_eq_true hc
    split at h <;> cases h <;> rename_i hp hrecord <;> rw [hp] at howes hholds
    · have hempty : replay s.events = none := by simp [hi.quiet hall, State.index, hrecord]
      refine hi.act rfl (fun r' _ => hall r') (.inl (hholds rfl)) (by simp [howes.2]) ?_ nofun nofun
      simp [Phase.Owes, hempty, replayEvent, State.index, howes.2]
    · cases howes.1.symm.trans hrecord
  case recheck =>
    split at h <;> cases h
    split_ifs <;> exact hi.pass (.inr rfl) (by simp [*, Phase.busy]) rfl trivial nofun
  case getOrOpen =>
    split at h <;> cases h
    refine hi.pass ?_ (by simp [*, Phase.busy]) rfl trivial nofun
    cases s.tree <;> simp
  case apply =>
    have hall : ∀ r, (s.phase r).busy = false := of_decide_eq_true hc
    split at h <;> cases h
    · rename_i write tree keyId size hp htree hrecord
      have hindex : replay s.events = some (size, tree) := by
        simp [hi.quiet hall, State.index, hrecord, htree]
      refine hi.act rfl (fun r' _ => hall r') (.inl (hlive (by simp [hrecord]))) (fun _ => rfl) ?_ ?_ ?_
      · cases write <;> grind [Phase.Owes, Index.drains, Index.write, replayEvent, State.index,
          Write.event]
      · split_ifs <;> nofun
      · split_ifs <;> nofun
    · exact hi.pass (.inr rfl) (by simp [*, Phase.busy]) rfl trivial nofun
  case tombstoneMetaGuarded =>
    split at h <;> try cases h
    rename_i field keyId hp
    rw [hp] at howes hbusy
    rw [if_pos (show s.record = some (keyId, 0) from howes)] at h
    cases h
    have hothers := hlive (by rw [howes]; nofun)
    exact hi.act rfl (hbusy rfl) (.inl hothers) nofun ⟨rfl, hi.registered (by rw [howes]; rfl)⟩
      (fun _ => hothers) nofun
  case deleteIndex =>
    split at h <;> cases h
    rename_i field hp
    rw [hp] at howes hbusy hholds
    exact hi.act rfl (hbusy rfl) (.inl (hholds rfl)) (by simp [howes.1]) howes.1 nofun nofun
  case emit =>
    split at h <;> cases h <;> rename_i hp <;> rw [hp] at howes hbusy
    · refine hi.act rfl (hbusy rfl) (.inr ⟨rfl, rfl⟩) hi.registered ?_ nofun nofun
      have hrecord : s.record = none := howes
      simp [Phase.Owes, replay_append, replayEvent, State.index, hrecord]
    · exact hi.act rfl (hbusy rfl) (.inr ⟨rfl, rfl⟩) hi.registered trivial nofun
        fun _ => (replay_append ..).trans howes

/-- The replica follows, if every write takes effect only after the events of the one before it have
been emitted. -/
theorem replicated_of_inTurn (h : Machine.Reaches step (fun s a => inTurn s a = true) {} s) :
    Replicated s := by
  have hi : Inv s := h.invariant
    ⟨nofun, fun _ _ => nofun, fun _ _ => nofun, fun _ => rfl, fun _ => trivial⟩
    fun hi hc hs => hi.step hc hs
  exact fun hquiet => congrArg _ (hi.quiet hquiet)

end Invariant

/-- An index that is emptied. -/
theorem replicated_emptied : ∃ s : State 1 Unit Bool,
    s.events = [.create, .set () true, .drop, .delete ()] ∧ Replicated s := by
  obtain ⟨s, hs, hevents⟩ := Machine.exists_reaches_of_run step (fun s a => inTurn s a = true)
    ({} : State 1 Unit Bool)
    [(0, .create), (0, .createBftree), (0, .saveMeta), (0, .emit), (0, .load (.set () true)),
      (0, .apply), (0, .emit), (0, .load (.delete ())), (0, .apply), (0, .tombstoneMetaGuarded),
      (0, .deleteIndex), (0, .emit), (0, .emit)]
    State.events [.create, .set () true, .drop, .delete ()] (by decide +kernel)
  exact ⟨s, hevents, replicated_of_inTurn hs⟩

/-- The value that came second is emitted first. -/
theorem exists_not_replicated : ¬ ∀ s : State 2 Unit Bool,
    Machine.Reachable step {} s → Replicated s := by
  intro hall
  obtain ⟨s, hs, hview⟩ := Machine.exists_reachable_of_run step ({} : State 2 Unit Bool)
    [(0, .create), (0, .createBftree), (0, .saveMeta), (0, .emit), (0, .load (.set () true)),
      (1, .load (.set () false)), (0, .apply), (1, .apply), (1, .emit), (0, .emit)]
    (fun s => (decide (∀ r, (s.phase r).busy = false), (replay s.events).map (·.2 ()),
      s.index.map (·.2 ()))) (true, some (some true), some (some false)) (by decide +kernel)
  simp only [Prod.mk.injEq, decide_eq_true_eq] at hview
  have hsame := congrArg (Option.map (· ())) (hall s hs hview.1)
  simp only [Option.map_map] at hsame
  cases hview.2.1.symm.trans (hsame.trans hview.2.2)

end Wedb.RangeIndex
