import Mathlib.Data.List.Basic
import Mathlib.Order.Nat
import Wedb.Lib.Machine

/-!
# The group commit pipeline

`GroupCommitPipeline` folds concurrent commits into the rounds of one leader. A submitter that finds
its target covered is done; one that finds a leader registers a waiter with a channel of its own; any
other becomes the leader and registers its own target without a channel. The leader runs rounds until
no waiter is left and nothing new has been written, and then gives the leadership up; an error of a
round and the drop of the leader's guard break the waiters off instead.

Every section under the mutex is one step. Between them the leader can be anywhere the source awaits,
the durable watermark rises and the tail moves as it likes.
-/

namespace Wedb.GroupCommit

/-- What a submitter gets to know. -/
inductive Outcome
  | ok (committed : Nat)
  /-- the sentinel that breaks off the followers -/
  | broken
  /-- the leader's own error -/
  | failed
  /-- the future was dropped -/
  | cancelled
  deriving DecidableEq, Repr

/-- The places of the leader. -/
inductive Phase
  /-- before a round collects its target -/
  | collecting
  | collected (batchTarget : Nat)
  /-- awaiting the physical step; the watermark read before it -/
  | stepping (watermark : Nat)
  | settling (watermark committed : Nat)
  | failing
  | yielding
  deriving DecidableEq, Repr

inductive Pc
  | idle
  | waiting (target : Nat)
  | leading (target : Nat) (phase : Phase)
  | returned (target : Nat) (outcome : Outcome)
  deriving DecidableEq, Repr

structure Waiter (ι : Type*) where
  target : Nat
  tx : Option ι
  deriving DecidableEq, Repr

structure State (ι : Type*) where
  leading : Bool
  waiters : List (Waiter ι)
  /-- the messages sent to the channel of each submitter -/
  inbox : ι → List Outcome
  pc : ι → Pc
  watermark : Nat
  tail : Nat
  /-- who became the leader last, while the leadership is held -/
  leader : Option ι
  /-- the leader a follower has registered with -/
  leaderOf : ι → Option ι

def State.init (ι : Type*) (watermark tail : Nat) : State ι :=
  ⟨false, [], fun _ => [], fun _ => .idle, watermark, tail, none, fun _ => none⟩

inductive Action (ι : Type*)
  | enter (i : ι) (target : Nat)
  | collect (i : ι)
  | readWatermark (i : ι)
  /-- the physical step is done and reports a watermark not below the one before it -/
  | stepOk (i : ι) (committed : Nat)
  | stepErr (i : ι)
  | settle (i : ι)
  | broadcast (i : ι)
  /-- the leader is dropped at an await point, or unwound -/
  | cancel (i : ι)
  | receive (i : ι)
  /-- a follower is dropped -/
  | leave (i : ι)
  /-- the durable watermark rises -/
  | advance (watermark : Nat)
  /-- writers move the tail -/
  | write (tail : Nat)
  deriving DecidableEq, Repr

variable {ι : Type*} [DecidableEq ι]

namespace State

def move (s : State ι) (i : ι) (pc : Pc) : State ι :=
  { s with pc := Function.update s.pc i pc }

/-- One message for every waiter of `ws` that has a channel. -/
def send (s : State ι) (ws : List (Waiter ι)) (message : Outcome) : State ι :=
  { s with
    inbox := fun i => s.inbox i ++ List.replicate (ws.countP (·.tx = some i)) message }

/-- The leadership is given up and every waiter is broken off; the error arm and the drop of the
guard share it. -/
def breakOff (s : State ι) : State ι :=
  { s.send s.waiters .broken with leading := false, waiters := [], leader := none }

/-- The submitter holds the guard of the leader. -/
def Leads (s : State ι) (i : ι) : Prop :=
  ∃ target phase, s.pc i = .leading target phase

def isRegistered (s : State ι) (i : ι) : Bool :=
  s.waiters.any (·.tx = some i)

end State

/-- `wait`: the message, or the watermark when the channel is closed without one. -/
def wait (message : Option Outcome) (target watermark : Nat) : Outcome :=
  match message with
  | some outcome => outcome
  | none => if target ≤ watermark then .ok watermark else .broken

/-- `enter`. -/
def enter (s : State ι) (i : ι) (target : Nat) : State ι :=
  if target ≤ s.watermark then s.move i (.returned target (.ok s.watermark))
  else if s.leading then
    { s.move i (.waiting target) with
      waiters := s.waiters ++ [⟨target, some i⟩]
      leaderOf := Function.update s.leaderOf i s.leader }
  else
    { s.move i (.leading target .collecting) with
      leading := true
      waiters := s.waiters ++ [⟨target, none⟩]
      leader := some i }

/-- The target of a round. -/
def batchTarget (s : State ι) : Nat :=
  max s.tail ((s.waiters.map (·.target)).foldr max 0)

/-- The section that ends a round: waiters that are reached are told so, and the leader stays while
somebody lags behind or the tail has moved on. -/
def settle (s : State ι) (i : ι) (target watermark committed : Nat) : State ι :=
  let s := { s.send (s.waiters.filter (·.target ≤ committed)) (.ok committed) with
    waiters := s.waiters.filter (committed < ·.target) }
  if s.waiters.any (committed < ·.target) || committed < s.tail then
    s.move i (.leading target (if committed ≤ watermark then .yielding else .collecting))
  else { s.move i (.returned target (.ok committed)) with leading := false, leader := none }

def step (s : State ι) : Action ι → Option (State ι)
  | .enter i target => if s.pc i = .idle then some (enter s i target) else none
  | .collect i =>
    match s.pc i with
    | .leading target .collecting | .leading target .yielding =>
      some (s.move i (.leading target (.collected (batchTarget s))))
    | _ => none
  | .readWatermark i =>
    match s.pc i with
    | .leading target (.collected batchTarget) =>
      some (s.move i (.leading target
        (if s.watermark < batchTarget then .stepping s.watermark
        else .settling s.watermark s.watermark)))
    | _ => none
  | .stepOk i committed =>
    match s.pc i with
    | .leading target (.stepping watermark) =>
      if watermark ≤ committed ∧ committed ≤ s.watermark then
        some (s.move i (.leading target (.settling watermark committed)))
      else none
    | _ => none
  | .stepErr i =>
    match s.pc i with
    | .leading target (.stepping _) => some (s.move i (.leading target .failing))
    | _ => none
  | .settle i =>
    match s.pc i with
    | .leading target (.settling watermark committed) => some (settle s i target watermark committed)
    | _ => none
  | .broadcast i =>
    match s.pc i with
    | .leading target .failing => some (s.breakOff.move i (.returned target .failed))
    | _ => none
  | .cancel i =>
    match s.pc i with
    | .leading target _ => some (s.breakOff.move i (.returned target .cancelled))
    | _ => none
  | .receive i =>
    match s.pc i with
    | .waiting target =>
      -- blocked while the sender lives and has sent nothing
      if (s.inbox i).isEmpty ∧ s.isRegistered i then none
      else some (s.move i (.returned target (wait (s.inbox i).head? target s.watermark)))
    | _ => none
  | .leave i =>
    match s.pc i with
    | .waiting target => some (s.move i (.returned target .cancelled))
    | _ => none
  | .advance watermark => if s.watermark ≤ watermark then some { s with watermark } else none
  | .write tail => some { s with tail }

/-- What the pipeline promises. -/
structure Safe (s : State ι) : Prop where
  oneLeader : ∀ i j, s.Leads i → s.Leads j → i = j
  drained : s.leading = false → s.waiters = []
  /-- a follower is waiting for its message or has it, and has it once its leader has left -/
  delivered : ∀ i leader, s.leaderOf i = some leader →
    s.waiters.countP (·.tx = some i) + (s.inbox i).length = 1 ∧
      (¬s.Leads leader → (s.inbox i).length = 1)
  reached : ∀ i target committed, s.pc i = .returned target (.ok committed) →
    target ≤ committed ∧ committed ≤ s.watermark
  /-- after an error or a cancellation the next submitter that finds work leads -/
  reelected : ∀ i s', step s (.broadcast i) = some s' ∨ step s (.cancel i) = some s' →
    ∀ j target, s'.pc j = .idle → s'.watermark < target →
      ∃ s'', step s' (.enter j target) = some s'' ∧ s''.Leads j

end Wedb.GroupCommit
