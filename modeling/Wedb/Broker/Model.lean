import Wedb.Lib.Machine

/-!
# The collection item broker

Blocking commands wait at the broker (`wcol::itembroker`). `start_wait` enters an observer in the
registry of sessions and queues an event; one loop takes the events, gives a new observer the first
item it can get or puts it in the queues of its keys, and gives the items of a key that has been
written to the observers in its queue. A writer commits to the store first and then looks for the
queue of the key.
-/

namespace Wedb.Broker

open Function

inductive ObserverStatus where
  | waitingForResult
  | resultSet
  | sessionDisposed
deriving DecidableEq

/-- What a blocking command does to a collection that has items: which it takes and which it leaves,
and for `BLMOVE` where those it takes go. -/
structure Command (K E : Type) where
  take : List E → List E × List E
  perm (items : List E) : ((take items).1 ++ (take items).2).Perm items
  dst : Option K := none

structure Observer (K E : Type) where
  session : Nat
  keys : List K
  command : Command K E
  status : ObserverStatus
  result : List E

namespace Observer

variable {K E : Type}

/-- What a number that has not been given out leads to. -/
def unused : Observer K E :=
  ⟨0, [], ⟨fun items => ([], items), fun _ => .rfl, none⟩, .sessionDisposed, []⟩

def new (session : Nat) (keys : List K) (command : Command K E) : Observer K E :=
  ⟨session, keys, command, .waitingForResult, []⟩

def waiting (o : Observer K E) : Bool := o.status = .waitingForResult

/-- `handle_set_result` with nothing to give, or `try_force_unblock`. -/
def handleSetResult (o : Observer K E) : Observer K E :=
  if o.waiting then { o with status := .resultSet } else o

end Observer

inductive Event (K : Type) where
  | newObserver (o : Nat)
  | collectionUpdated (key : K)

/-- Where the loop is. -/
inductive Phase (K : Type) where
  | idle
  | initializing (o : Nat) (keys : List K)
  | assigning (key : K)
  /-- An observer has its result; its session is still in the registry and the key its items went to
  has not been announced. The loop goes on with the given key. -/
  | unmapping (o : Nat) (dst : Option K) (back : Option K)

/-- The loop goes on with the key, or has done with the event. -/
def Phase.resume {K : Type} : Option K → Phase K
  | some key => .assigning key
  | none => .idle

/-- Where a session is. -/
inductive Wait where
  | idle
  | blocked (o : Nat)
  | finishing (o : Nat)
  | disposing (o : Nat)
deriving DecidableEq

structure State (K E : Type) where
  events : List (Event K) := []
  /-- `keys_to_observers`: a queue has a number of its own, for those that found it earlier. -/
  table : K → Option (Nat × List Nat) := fun _ => none
  queueCount : Nat := 0
  observers : Nat → Observer K E := fun _ => .unused
  observerCount : Nat := 0
  /-- `session_id_to_observer`. -/
  registry : Nat → Option Nat := fun _ => none
  waits : Nat → Wait := fun _ => .idle
  store : K → List E := fun _ => []
  /-- Writers that have committed, and those that have found a queue. -/
  committed : List K := []
  found : List (K × Nat) := []
  phase : Phase K := .idle
  /-- Who has been given items, and the items the loop has taken. -/
  served : List Nat := []
  removed : List E := []

inductive Action (K E : Type) where
  | startWait (session : Nat) (keys : List K) (command : Command K E)
  | finishWait (session : Nat)
  | finishResult (session : Nat)
  | handleSessionDisposed (session : Nat)
  | markDisposed (session : Nat)
  | tryForceUnblock (session : Nat)
  | push (key : K) (item : E)
  | pop (key : K)
  | findQueue (key : K)
  | notify (key : K) (queue : Nat)
  | loop
  | loopDegraded
  | clean (key : K)

section Steps

variable {K E : Type} [DecidableEq K]

namespace State

def queue (s : State K E) (key : K) : List Nat := ((s.table key).map Prod.snd).getD []

def waiting (s : State K E) (o : Nat) : Bool := (s.observers o).waiting

def setObserver (s : State K E) (o : Nat) (observer : Observer K E) : State K E :=
  { s with observers := update s.observers o observer }

def setResult (s : State K E) (o : Nat) : State K E :=
  s.setObserver o (s.observers o).handleSetResult

def setQueue (s : State K E) (key : K) (queue : Option (Nat × List Nat)) : State K E :=
  { s with table := update s.table key queue }

def unregister (s : State K E) (session : Nat) : State K E :=
  { s with registry := update s.registry session none }

def setWait (s : State K E) (session : Nat) (wait : Wait) : State K E :=
  { s with waits := update s.waits session wait }

/-- `try_assign_with` on a collection that has items: they become the result in the same section. -/
def serve (s : State K E) (o : Nat) (key : K) (back : Option K) : State K E :=
  let command := (s.observers o).command
  let (popped, left) := command.take (s.store key)
  let store := update s.store key left
  { s.setObserver o { s.observers o with status := .resultSet, result := popped } with
    store := match command.dst with
      | some dst => update store dst (store dst ++ popped)
      | none => store
    phase := .unmapping o (command.dst.filter (· ≠ key)) back
    served := s.served ++ [o]
    removed := s.removed ++ popped }

/-- One key of `initialize_observer`. -/
def initializeKey (s : State K E) (o : Nat) (key : K) (rest : List K) : State K E :=
  let (number, waiters) := (s.table key).getD (s.queueCount, [])
  let s := { s with queueCount := s.queueCount + 1, phase := .initializing o rest }
  if waiters ≠ [] then s.setQueue key (some (number, waiters ++ [o]))
  else if !s.waiting o then { s.setQueue key none with phase := .idle }
  else if s.store key = [] then s.setQueue key (some (number, [o]))
  else (s.setQueue key none).serve o key none

/-- One turn of `try_assign_item_from_key`. -/
def assignNext (s : State K E) (key : K) : State K E :=
  match s.table key with
  | none => { s with phase := .idle }
  | some (_, []) => { s.setQueue key none with phase := .idle }
  | some (number, o :: rest) =>
    if !s.waiting o then s.setQueue key (some (number, rest))
    else if s.store key = [] then { s with phase := .idle }
    else (s.setQueue key (some (number, rest))).serve o key (some key)

/-- One step of the loop. -/
def loop (s : State K E) : Option (State K E) :=
  match s.phase with
  | .idle =>
    match s.events with
    | .newObserver o :: events =>
      some { s with events := events, phase := .initializing o (s.observers o).keys }
    | .collectionUpdated key :: events =>
      some { s with events := events, phase := .assigning key }
    | [] => none
  | .initializing _ [] => some { s with phase := .idle }
  | .initializing o (key :: rest) => some (s.initializeKey o key rest)
  | .assigning key => some (s.assignNext key)
  | .unmapping o dst back =>
    some { s.unregister (s.observers o).session with
      events := s.events ++ dst.toList.map .collectionUpdated
      phase := .resume back }

/-- The loop finds that the items of the key cannot be taken here: those who wait are sent away. -/
def loopDegraded (s : State K E) : Option (State K E) :=
  match s.phase with
  | .initializing o (key :: _) =>
    if s.queue key = [] ∧ s.waiting o then
      some { (s.setQueue key none).setResult o with phase := .unmapping o none none }
    else none
  | .assigning key =>
    some { (s.queue key).foldl setResult (s.setQueue key none) with phase := .idle }
  | _ => none

end State

open State in
def Action.step (s : State K E) : Action K E → Option (State K E)
  | startWait session keys command =>
    match s.waits session with
    | .idle =>
      let o := s.observerCount
      some { (s.setObserver o (.new session keys command)).setWait session (.blocked o) with
        observerCount := o + 1
        registry := update s.registry session (some o)
        events := s.events ++ [.newObserver o] }
    | _ => none
  | finishWait session =>
    match s.waits session with
    | .blocked o => some ((s.unregister session).setWait session (.finishing o))
    | _ => none
  | finishResult session =>
    match s.waits session with
    | .finishing o =>
      some ((s.setResult o).setWait session .idle)
    | _ => none
  | handleSessionDisposed session =>
    match s.registry session with
    | some o => some ((s.unregister session).setWait session (.disposing o))
    | none => some s
  | markDisposed session =>
    match s.waits session with
    | .disposing o => some (s.setObserver o { s.observers o with status := .sessionDisposed })
    | _ => none
  | tryForceUnblock session =>
    match s.registry session with
    | some o => some (s.setResult o)
    | none => some s
  | push key item =>
    some { s with
      store := update s.store key (s.store key ++ [item])
      committed := key :: s.committed }
  | pop key => some { s with store := update s.store key (s.store key).tail }
  | findQueue key =>
    if key ∈ s.committed then
      let s := { s with committed := s.committed.erase key }
      match s.table key with
      | some (number, _) => some { s with found := (key, number) :: s.found }
      | none => some s
    else none
  | notify key number =>
    if (key, number) ∈ s.found then
      let s := { s with found := s.found.erase (key, number) }
      match s.table key with
      | some (current, _ :: _) =>
        if current = number then some { s with events := s.events ++ [.collectionUpdated key] }
        else some s
      | _ => some s
    else none
  | loop => s.loop
  | loopDegraded => s.loopDegraded
  | clean key =>
    match s.phase, s.table key with
    | .idle, some (number, waiters) =>
      let waiters := waiters.filter s.waiting
      some (s.setQueue key (if waiters = [] then none else some (number, waiters)))
    | _, _ => none

end Steps

end Wedb.Broker
