import Wedb.Lib.Machine
import Wedb.Lib.Epoch

/-!
# The version-shift window of a checkpoint

Writers move the tail, read the version word, encode their record with its new-version flag,
publish it in the index and enqueue an AOF entry stamped with the version that they read. Beside
them one checkpoint runs: it samples the covered AOF address, loads the tail as the floor, opens
the window, drains the epochs, writes the index snapshot, cuts the log at a later tail, drains
again, flushes, publishes its metadata, closes the window, publishes the covered address and
truncates the AOF.
-/

namespace Wedb.Checkpoint

/-- The version word: the bit of the open window and the store version in one atomic. -/
structure Word where
  isOpen : Bool
  version : Nat
  deriving DecidableEq, Repr

/-- The version of the store before the checkpoint and the version of the checkpoint; versions are
issued in strictly ascending order. -/
structure Round where
  oldVersion : Nat
  newVersion : Nat
  lt : oldVersion < newVersion

/-- An AOF entry with its version stamp. `record` is the address of the record that the same write
has in the log. -/
structure AofEntry where
  storeVersion : Nat
  record : Nat
  deriving DecidableEq, Repr

/-- How far a writer is with its record. -/
inductive Task
  | idle
  | reserved (addr : Nat)
  | stamped (addr : Nat) (word : Word)
  | encoded (addr : Nat) (word : Word)
  | published (addr : Nat) (word : Word)
  deriving DecidableEq, Repr

/-- How far the checkpoint is. -/
inductive Phase
  | rest
  | sampled
  | loaded
  | opened
  | fencing
  | drained
  | indexed
  | cut
  | sealing
  | sealed
  | flushed
  | published
  | closed
  | covered
  | truncated
  deriving DecidableEq, Repr

instance : Preorder Phase where
  le p q := p.ctorIdx ≤ q.ctorIdx
  le_refl p := Nat.le_refl p.ctorIdx
  le_trans _ _ _ := Nat.le_trans

instance : DecidableLE Phase := fun p q => inferInstanceAs (Decidable (p.ctorIdx ≤ q.ctorIdx))

/-- What the checkpoint captures: the covered AOF address, the floor, the index snapshot, the cut
tail and the flags of the records on the device. -/
structure Snapshot where
  coveredAddr : Nat
  floor : Nat
  index : List Nat
  cutTail : Nat
  disk : Nat → Option Bool

/-- The store. A record is the flag that was encoded at its address; `reachable` are the addresses
that the index leads to. -/
structure State (n : Nat) extends Snapshot where
  tail : Nat
  word : Word
  records : Nat → Option Bool
  reachable : List Nat
  aof : List AofEntry
  aofBegin : Nat
  task : Fin n → Task
  epochs : Epoch.Table n Nat
  phase : Phase

inductive Action (n : Nat)
  | enter (t : Fin n)
  | exit (t : Fin n)
  | bump
  | moveTail (t : Fin n) (size : Nat)
  | readWord (t : Fin n)
  | encode (t : Fin n)
  | publish (t : Fin n)
  | enqueue (t : Fin n)
  | sampleCovered
  | loadFloor
  | openWindow
  | fence
  | awaitDrain
  | writeIndex
  | cutTail
  | fenceTail
  | awaitSealed
  | flushAll
  | publishMeta
  | closeWindow
  | publishCovered
  | truncateAof

namespace State

variable {n : Nat}

/-- Thread `t` goes on with `k`. -/
def become (s : State n) (t : Fin n) (k : Task) : State n :=
  { s with task := Function.update s.task t k }

def moveTail (s : State n) (t : Fin n) (size : Nat) : State n :=
  { s with tail := s.tail + size }.become t (.reserved s.tail)

def encode (s : State n) (t : Fin n) (addr : Nat) (word : Word) : State n :=
  { s with records := Function.update s.records addr (some word.isOpen) }.become t
    (.encoded addr word)

def publish (s : State n) (t : Fin n) (addr : Nat) (word : Word) : State n :=
  { s with reachable := addr :: s.reachable }.become t (.published addr word)

def enqueue (s : State n) (t : Fin n) (addr : Nat) (word : Word) : State n :=
  { s with aof := s.aof ++ [AofEntry.mk word.version addr] }.become t .idle

/-- The store before the checkpoint, with the log up to `tail` already behind it. -/
def new (r : Round) (tail : Nat) : State n where
  coveredAddr := 0
  floor := 0
  index := []
  cutTail := 0
  disk := fun _ => none
  tail := tail
  word := ⟨false, r.oldVersion⟩
  records := fun _ => none
  reachable := []
  aof := []
  aofBegin := 0
  task := fun _ => .idle
  epochs := .start n Nat
  phase := .rest

end State

variable {n : Nat} (r : Round)

/-- One atomic step of a writer, of the checkpoint or of the epoch table. -/
def step (s : State n) : Action n → Option (State n)
  | .enter t =>
    if s.task t = .idle ∧ s.epochs.announced t = none then
      some { s with epochs := s.epochs.enter t }
    else none
  | .exit t =>
    if s.task t = .idle then some { s with epochs := s.epochs.exit t } else none
  | .bump => some { s with epochs := s.epochs.bump }
  | .moveTail t size =>
    if s.task t = .idle ∧ 0 < size then some (s.moveTail t size) else none
  | .readWord t =>
    match s.task t with
    | .reserved addr => some (s.become t (.stamped addr s.word))
    | _ => none
  | .encode t =>
    match s.task t with
    | .stamped addr word => some (s.encode t addr word)
    | _ => none
  | .publish t =>
    match s.task t with
    | .encoded addr word => some (s.publish t addr word)
    | _ => none
  | .enqueue t =>
    match s.task t with
    | .published addr word => some (s.enqueue t addr word)
    | _ => none
  | .sampleCovered =>
    if s.phase = .rest then some { s with coveredAddr := s.aof.length, phase := .sampled } else none
  | .loadFloor =>
    if s.phase = .sampled then some { s with floor := s.tail, phase := .loaded } else none
  | .openWindow =>
    if s.phase = .loaded then some { s with word := ⟨true, r.newVersion⟩, phase := .opened }
    else none
  | .fence =>
    if s.phase = .opened then
      some { s with epochs := s.epochs.fence s.floor, phase := .fencing }
    else none
  | .awaitDrain =>
    if s.phase = .fencing ∧ ∀ p ∈ s.epochs.deferred, s.epochs.Ready p.1 then
      some { s with epochs := s.epochs.drop 0, phase := .drained }
    else none
  | .writeIndex =>
    if s.phase = .drained then some { s with index := s.reachable, phase := .indexed } else none
  | .cutTail =>
    if s.phase = .indexed then some { s with cutTail := s.tail, phase := .cut } else none
  | .fenceTail =>
    if s.phase = .cut then
      some { s with epochs := s.epochs.fence s.cutTail, phase := .sealing }
    else none
  | .awaitSealed =>
    if s.phase = .sealing ∧ ∀ p ∈ s.epochs.deferred, s.epochs.Ready p.1 then
      some { s with epochs := s.epochs.drop 0, phase := .sealed }
    else none
  | .flushAll =>
    if s.phase = .sealed then some { s with disk := s.records, phase := .flushed } else none
  | .publishMeta => if s.phase = .flushed then some { s with phase := .published } else none
  | .closeWindow =>
    if s.phase = .published then
      some { s with word := { s.word with isOpen := false }, phase := .closed }
    else none
  | .publishCovered => if s.phase = .closed then some { s with phase := .covered } else none
  | .truncateAof =>
    if s.phase = .covered then some { s with aofBegin := s.coveredAddr, phase := .truncated }
    else none

/-! ## Recovery after a crash -/

/-- The record at `addr` is in the recovered store: below the floor if the index snapshot leads to
it, from the floor to the cut tail if the scan does not undo it. -/
def Kept (s : Snapshot) (addr : Nat) : Prop :=
  addr < s.cutTail ∧
    if s.floor ≤ addr then s.disk addr = some false else addr ∈ s.index ∧ (s.disk addr).isSome

instance (s : Snapshot) (addr : Nat) : Decidable (Kept s addr) :=
  inferInstanceAs (Decidable (_ ∧ _))

/-- The covered address in the metadata; it is filled in after the checkpoint is published. -/
def State.aofFloor (s : State n) : Nat := if Phase.covered ≤ s.phase then s.coveredAddr else 0

/-- `should_skip_record` lets the entry at position `p` of the AOF pass. -/
def Replayed (s : State n) (p : Nat) (e : AofEntry) : Prop :=
  s.aofFloor ≤ p ∧ r.newVersion ≤ e.storeVersion

instance (s : State n) (p : Nat) (e : AofEntry) : Decidable (Replayed r s p e) :=
  inferInstanceAs (Decidable (_ ∧ _))

/-- After a crash in a state with a published checkpoint, every write whose AOF entry survived has
exactly one effect. -/
def ExactlyOnce (s : State n) : Prop :=
  Phase.published ≤ s.phase → ∀ p e, s.aofBegin ≤ p → s.aof[p]? = some e →
    (Kept s.toSnapshot e.record ↔ ¬ Replayed r s p e)

end Wedb.Checkpoint
