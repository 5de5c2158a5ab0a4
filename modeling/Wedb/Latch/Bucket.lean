import Wedb.Lib.Machine
import Wedb.Lib.Program
import Wedb.Latch.Word

/-!
# The latch operations of a hash bucket

The operations of `windex::bucket` on the latch word, as programs of atomic operations, and the
threads that run them.
-/

namespace Wedb.Latch

/-! ## Atomic operations -/

inductive Op
  | load
  | compareExchangeWeak (expected new : Word)
  | fetchSub (x : Word)
  | fetchAnd (x : Word)
  | fetchOr (x : Word)
  /-- a retry loop that goes on after the rounds the run has room for -/
  | stall

/-- A failed exchange gives the word found. -/
def Op.Res : Op → Type
  | load => Word
  | compareExchangeWeak _ _ => Option Word
  | fetchSub _ | fetchAnd _ | fetchOr _ | stall => Unit

/-- One atomic operation; `spurious` makes a weak exchange fail for no reason. -/
def exec (w : Word) (o : Op) (spurious : Bool) : Option (Word × o.Res) :=
  match o with
  | .load => some (w, w)
  | .compareExchangeWeak expected new =>
    if w = expected ∧ spurious = false then some (new, none) else some (w, some w)
  | .fetchSub x => some (w - x, ())
  | .fetchAnd x => some (w &&& x, ())
  | .fetchOr x => some (w ||| x, ())
  | .stall => none

abbrev Code := Prog Op Op.Res

def load : Code Word := .perform Op.load

def compareExchangeWeak (expected new : Word) : Code (Option Word) :=
  .perform (Op.compareExchangeWeak expected new)

def fetchAnd (x : Word) : Code Unit := .perform (Op.fetchAnd x)

def fetchOr (x : Word) : Code Unit := .perform (Op.fetchOr x)

def stall : Code Unit := .perform Op.stall

/-! ## Operations of the bucket -/

/-- `MAX_LOCK_SPINS`. -/
def maxLockSpins : Nat := 10

/-- `MAX_READER_DRAIN_SPINS`. -/
def maxReaderDrainSpins : Nat := 100

/-- The spin loop of `try_lock_shared`. -/
def tryLockSharedSpin : Nat → Code Bool
  | 0 => return false
  | spins + 1 => do
    let curr ← load
    if curr &&& exclusiveLatchMask = 0#64 ∧ curr &&& sharedLatchMask ≠ sharedLatchMask then
      match ← compareExchangeWeak curr (curr + sharedLatchInc) with
      | none => return true
      | some _ => tryLockSharedSpin spins
    else tryLockSharedSpin spins

/-- `try_lock_shared`. -/
def tryLockShared : Code Bool := tryLockSharedSpin maxLockSpins

/-- The wait of `drain_or_rollback` for the readers to leave. -/
def drain : Nat → Code Bool
  | 0 => return false
  | spins + 1 => do
    let curr ← load
    if curr &&& sharedLatchMask = 0#64 then
      return true
    else drain spins

/-- The rollback of `drain_or_rollback`. -/
def rollback : Nat → Code Unit
  | 0 => stall
  | fuel + 1 => do
    let curr ← load
    match ← compareExchangeWeak curr (curr &&& ~~~exclusiveLatchMask) with
    | none => return ()
    | some _ => rollback fuel

/-- `drain_or_rollback`. -/
def drainOrRollback (fuel : Nat) : Code Bool := do
  if ← drain maxReaderDrainSpins then
    return true
  else
    rollback fuel
    return false

/-- The spin loop of `try_lock_exclusive_now`: whether the bit was set. -/
def setExclusiveBit : Nat → Code Bool
  | 0 => return false
  | spins + 1 => do
    let curr ← load
    if curr &&& exclusiveLatchMask = 0#64 then
      match ← compareExchangeWeak curr (curr ||| exclusiveLatchMask) with
      | none => return true
      | some _ => setExclusiveBit spins
    else setExclusiveBit spins

/-- `try_lock_exclusive_now`. -/
def tryLockExclusiveNow (fuel : Nat) : Code Bool := do
  if ← setExclusiveBit maxLockSpins then
    drainOrRollback fuel
  else return false

/-- `handoff_pending`. -/
def handoffPending : Code Bool := do
  let curr ← load
  return curr &&& handoffMask ≠ 0#64

/-- `try_lock_exclusive`. -/
def tryLockExclusive (fuel : Nat) : Code Bool := do
  if ← handoffPending then
    return false
  else tryLockExclusiveNow fuel

/-- `set_handoff`. -/
def setHandoff : Code Unit := fetchOr handoffMask

/-- `clear_handoff`. -/
def clearHandoff : Code Unit := fetchAnd (~~~handoffMask)

/-- The loop of `consume_release_notify`. -/
def consumeLoop : Nat → Word → Code Bool
  | 0, _ => do
    stall
    return false
  | fuel + 1, curr => do
    match ← compareExchangeWeak curr (curr &&& ~~~releaseNotifyMask) with
    | none => return true
    | some actual =>
      if actual &&& releaseNotifyMask = 0#64 then return false else consumeLoop fuel actual

/-- `consume_release_notify`. -/
def consumeReleaseNotify (fuel : Nat) : Code Bool := do
  let curr ← load
  if curr &&& releaseNotifyMask = 0#64 then
    return false
  else consumeLoop fuel curr

/-- The loop of `set_overflow_index`. -/
def installLoop (targetAddr : Word) : Nat → Word → Code Bool
  | 0, _ => do
    stall
    return false
  | fuel + 1, curr => do
    if curr &&& addressMask ≠ 0#64 then
      return false
    else
      match ← compareExchangeWeak curr (curr ||| targetAddr) with
      | none => return true
      | some actual => installLoop targetAddr fuel actual

/-- `set_overflow_index`. -/
def setOverflowIndex (overflowIdx : Word) (fuel : Nat) : Code Bool := do
  if overflowIdx = 0#64 then
    return false
  else
    let curr ← load
    installLoop (overflowIdx &&& addressMask) fuel curr

/-! ## Threads -/

/-- What a call leaves its thread with. -/
inductive Held
  | nothing
  | shared
  | exclusive
  deriving DecidableEq, Repr

abbrev State := Threads Word Op Op.Res Held

/-- A thread that called `try_lock_shared`. -/
def acquireShared : Code Held := do
  if ← tryLockShared then return .shared else return .nothing

/-- A thread that called `try_lock_exclusive`, or `try_lock_exclusive_now` if it is a registered
waiter. -/
def acquireExclusive (registered : Bool) (fuel : Nat) : Code Held := do
  if ← (if registered then tryLockExclusiveNow fuel else tryLockExclusive fuel) then
    return .exclusive
  else return .nothing

/-- What is left of `unlock_exclusive` after the bit is cleared. -/
def notifyRelease : Code Held := do
  fetchOr releaseNotifyMask
  return .nothing

inductive Action
  | acquireShared
  | acquireExclusive (registered : Bool) (fuel : Nat)
  | setHandoff
  | clearHandoff
  | consumeReleaseNotify (fuel : Nat)
  | setOverflowIndex (overflowIdx : Word) (fuel : Nat)
  /-- the thread that holds a shared latch performs the operation of `unlock_shared` -/
  | unlockShared (i : Nat)
  /-- the thread that holds the exclusive latch clears the bit in `unlock_exclusive` -/
  | unlockExclusive (i : Nat)
  /-- call `i` performs its next operation -/
  | run (i : Nat) (spurious : Bool)

/-- The call has returned, and its thread holds a shared latch. -/
def holdsShared : Code Held → Bool
  | .ret .shared => true
  | _ => false

/-- The call has returned, and its thread holds the exclusive latch. -/
def holdsExclusive : Code Held → Bool
  | .ret .exclusive => true
  | _ => false

def step (s : State) : Action → Option State
  | .acquireShared => some (s.spawn acquireShared)
  | .acquireExclusive registered fuel => some (s.spawn (acquireExclusive registered fuel))
  | .setHandoff => some (s.spawn do
      setHandoff
      return .nothing)
  | .clearHandoff => some (s.spawn do
      clearHandoff
      return .nothing)
  | .consumeReleaseNotify fuel => some (s.spawn do
      let _ ← consumeReleaseNotify fuel
      return .nothing)
  | .setOverflowIndex overflowIdx fuel => some (s.spawn do
      let _ ← setOverflowIndex overflowIdx fuel
      return .nothing)
  | .unlockShared i =>
    match s.tasks[i]? with
    | some (.ret .shared) =>
      some { shared := s.shared - sharedLatchInc, tasks := s.tasks.set i (.ret .nothing) }
    | _ => none
  | .unlockExclusive i =>
    match s.tasks[i]? with
    | some (.ret .exclusive) =>
      some { shared := s.shared &&& ~~~exclusiveLatchMask, tasks := s.tasks.set i notifyRelease }
    | _ => none
  | .run i spurious => s.runTask exec i spurious

/-- A bucket without latches and with any link. -/
def start (overflowIdx : Word) : State where
  shared := overflowIdx &&& addressMask
  tasks := []

end Wedb.Latch
