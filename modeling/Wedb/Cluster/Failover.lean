import Wedb.Cluster.Config
import Wedb.Lib.Machine

/-!
# Failover between a primary and its replicas

A default failover hands the slots of a primary to one of its replicas. Either the replica starts
it (`CLUSTER FAILSTOPWRITES`, wait for the offset of the reply, take over) or the primary does
(stop its writes, wait for a replica that has caught up, order it to take over). Both sides may give
up at every moment: the primary takes its slots back, the replica asks it to reset.
-/

namespace Wedb.Failover

open Function

open Cluster (NodeRole)

variable {n k : Nat}

/-- The offsets of `n` sublogs. -/
abbrev AofAddress (n : Nat) := Fin n → Nat

def AofAddress.anyLesser (a b : AofAddress n) : Prop := ∃ x, a x < b x

instance (a b : AofAddress n) : Decidable (a.anyLesser b) := inferInstanceAs (Decidable (∃ _, _))

/-- A `FAILSTOPWRITES` call of a replica. -/
inductive StopCall (n : Nat) where
  | none
  | sent
  | draining (epoch : Nat)
  | replied (offset : AofAddress n)
  | failed
deriving DecidableEq

/-- The status of a replica's session; `ordered` sessions were started by `TAKEOVER`. -/
inductive ReplicaPhase (n : Nat) where
  | noFailover
  | issuingPauseWrites
  | waitingForSync (offset : AofAddress n)
  | takingOver (ordered : Bool)
deriving DecidableEq

/-- The `TAKEOVER` call of the primary at a replica. -/
inductive Order where
  | none
  | sent
  | answered (ok : Bool)
deriving DecidableEq

/-- A replica, and the calls between it and its primary. -/
structure Replica (n : Nat) where
  applied : AofAddress n := fun _ => 0
  /-- The replica is a primary in its own configuration, and the owner of the slot. -/
  tookOver : Bool := false
  phase : ReplicaPhase n := .noFailover
  stop : StopCall n := .none
  /-- The call with the empty argument. -/
  reset : StopCall n := .none
  /-- The answer to the primary's `FAILREPLICATIONOFFSET`. -/
  probe : Option (AofAddress n) := none
  order : Order := .none

inductive ReplicaAction where
  | start
  | recvReply
  | synced
  | takeOver
  | giveUp
  | recvOrder

/-- `begin_async_replica_failover_async`, and the start of a session by `TAKEOVER`. -/
def Replica.step (x : Replica n) : ReplicaAction → Option (Replica n)
  | .start =>
    if x.phase = .noFailover ∧ x.stop = .none ∧ x.reset = .none ∧ x.tookOver = false then
      some { x with phase := .issuingPauseWrites, stop := .sent }
    else none
  | .recvReply =>
    match x.stop, x.phase with
    | .replied offset, .issuingPauseWrites =>
      some { x with stop := .none, phase := .waitingForSync offset }
    | .failed, .issuingPauseWrites => some { x with stop := .none, phase := .noFailover }
    -- the session that has asked is gone
    | .replied _, _ | .failed, _ => some { x with stop := .none }
    | _, _ => none
  | .synced =>
    match x.phase with
    | .waitingForSync offset =>
      if x.applied.anyLesser offset then none else some { x with phase := .takingOver false }
    | _ => none
  | .takeOver =>
    match x.phase, x.tookOver with
    | .takingOver _, false => some { x with phase := .noFailover, tookOver := true }
    | _, _ => none
  | .giveUp =>
    match x.phase with
    | .noFailover => none
    -- no reset without `primary_needs_reset` and a connection
    | .issuingPauseWrites | .takingOver true => some { x with phase := .noFailover }
    | .waitingForSync _ | .takingOver false =>
      some { x with phase := .noFailover, reset := .sent }
  | .recvOrder =>
    if x.order = .sent then
      if x.phase = .noFailover ∧ x.tookOver = false then
        some { x with phase := .takingOver true, order := .answered true }
      else some { x with order := .answered false }
    else none

/-- The status of the primary's session. -/
inductive PrimaryPhase (n k : Nat) where
  | noFailover
  | issuingPauseWrites (epoch : Nat)
  | waitingForSync (offset : AofAddress n)
  | takingOver (replica : Fin k)
deriving DecidableEq

/-- A primary with `n` sublogs and `k` replicas, and one of the slots it owns. -/
structure State (n k : Nat) where
  role : NodeRole := .primary
  replicaOf : Option (Fin k) := none
  /-- The owner of the slot in the primary's configuration, `none` for the primary itself. -/
  owner : Option (Fin k) := none
  delegated : Bool := false
  epoch : Nat := 0
  /-- The sessions that write, by the epoch in which they have read the configuration. -/
  writers : List Nat := []
  tail : AofAddress n
  /-- One past the last acknowledged entry. -/
  acked : AofAddress n
  replicationOffset : AofAddress n
  session : PrimaryPhase n k := .noFailover
  replicas : Fin k → Replica n := fun _ => {}

namespace State

/-- After a start the offset field is the tail of the recovered log. -/
def init (start : AofAddress n) : State n k :=
  { tail := start, acked := start, replicationOffset := start }

def owns (s : State n k) : Prop := s.role = .primary ∧ s.owner = none

instance (s : State n k) : Decidable s.owns := inferInstanceAs (Decidable (_ ∧ _))

def tryStopWrites (s : State n k) (r : Fin k) : State n k :=
  { s with
    role := .replica
    replicaOf := some r
    owner := if s.owner = none then some r else s.owner
    delegated := true }

def tryRestoreStopWrites (s : State n k) : State n k :=
  let redeems := s.delegated = true ∧ s.replicaOf ≠ none
  { s with
    role := if redeems then .primary else s.role
    replicaOf := if redeems then none else s.replicaOf
    owner := if redeems ∧ s.owner = s.replicaOf then none else s.owner
    delegated := false }

def tryResetReplica (s : State n k) : State n k :=
  { s with role := .primary, replicaOf := none, delegated := false }

/-- The tail of the log at a primary, the field at a replica. -/
def getCurrentReplicationOffset (s : State n k) : AofAddress n :=
  if s.role = .primary then s.tail else s.replicationOffset

/-- `bump_and_wait_for_epoch_transition_async` may return. -/
def drained (s : State n k) (epoch : Nat) : Bool := s.writers.all (epoch ≤ ·)

def set (s : State n k) (r : Fin k) (x : Replica n) : State n k :=
  { s with replicas := update s.replicas r x }

end State

/-- What the clients, the replication stream, the replicas and the primary do. -/
inductive Action (n k : Nat) where
  | enter
  | append (x : Fin n)
  | leave (view : Nat)
  | acknowledge (x : Fin n) (entry : Nat)
  | apply (r : Fin k) (x : Fin n)
  | replica (r : Fin k) (a : ReplicaAction)
  | recvStop (r : Fin k)
  | drained (r : Fin k)
  | drainFails (r : Fin k)
  | recvReset (r : Fin k)
  | resetDone (r : Fin k) (settled : Bool)
  | stopWrites (r : Fin k)
  | sample
  | answer (r : Fin k)
  | initiateTakeOver (r : Fin k)
  | recvAnswer
  | abandon

open State in
def Action.step (s : State n k) : Action n k → Option (State n k)
  | enter => if s.owns then some { s with writers := s.epoch :: s.writers } else none
  | append x =>
    if s.writers = [] then none
    else some { s with tail := update s.tail x (s.tail x + 1) }
  | leave view =>
    if view ∈ s.writers then some { s with writers := s.writers.erase view } else none
  | acknowledge x entry =>
    if entry < s.tail x then
      some { s with acked := update s.acked x (max (s.acked x) (entry + 1)) }
    else none
  | apply r x =>
    let applied := (s.replicas r).applied
    if applied x < s.tail x then
      some (s.set r { s.replicas r with applied := update applied x (applied x + 1) })
    else none
  | replica r a => ((s.replicas r).step a).map (s.set r)
  | recvStop r =>
    if (s.replicas r).stop = .sent then
      some { (s.tryStopWrites r).set r { s.replicas r with stop := .draining (s.epoch + 1) } with
        epoch := s.epoch + 1 }
    else none
  | drained r =>
    match (s.replicas r).stop with
    | .draining epoch =>
      if s.drained epoch then
        some (s.set r { s.replicas r with stop := .replied s.getCurrentReplicationOffset })
      else none
    | _ => none
  | drainFails r =>
    match (s.replicas r).stop with
    | .draining _ => some (s.tryRestoreStopWrites.set r { s.replicas r with stop := .failed })
    | _ => none
  | recvReset r =>
    if (s.replicas r).reset = .sent then
      some { s.tryResetReplica.set r { s.replicas r with reset := .draining (s.epoch + 1) } with
        epoch := s.epoch + 1 }
    else none
  | resetDone r settled =>
    match (s.replicas r).reset, settled with
    | .draining _, true => some (s.set r { s.replicas r with reset := .none })
    | .draining _, false =>
      some (s.tryRestoreStopWrites.set r { s.replicas r with reset := .none })
    | _, _ => none
  | stopWrites r =>
    if s.session = .noFailover then
      some { s.tryStopWrites r with
        epoch := s.epoch + 1, session := .issuingPauseWrites (s.epoch + 1) }
    else none
  | sample =>
    match s.session with
    | .issuingPauseWrites epoch =>
      if s.drained epoch then
        some { s with
          session := .waitingForSync s.getCurrentReplicationOffset
          replicas := fun r => { s.replicas r with probe := none } }
      else none
    | _ => none
  | answer r =>
    match s.session with
    | .waitingForSync offset =>
      if (s.replicas r).applied.anyLesser offset then none
      else some (s.set r { s.replicas r with probe := some (s.replicas r).applied })
    | _ => none
  | initiateTakeOver r =>
    match s.session with
    | .waitingForSync offset =>
      if (s.replicas r).probe = some offset ∧ (s.replicas r).order ≠ .sent then
        some { s.set r { s.replicas r with order := .sent } with session := .takingOver r }
      else none
    | _ => none
  | recvAnswer =>
    match s.session with
    | .takingOver r =>
      if (s.replicas r).order = .answered true then some { s with session := .noFailover } else none
    | _ => none
  | abandon =>
    if s.session = .noFailover then none
    else some { s.tryRestoreStopWrites with session := .noFailover }

/-! ### Taking the slots back -/

/-- The replica has not taken over, and may not do so without another stop of the writes. -/
def Replica.quiet (x : Replica n) : Bool :=
  match x.phase, x.stop with
  | .waitingForSync _, _ | .takingOver _, _ | _, .draining _ | _, .replied _ => false
  | _, _ => !x.tookOver && x.order ≠ .sent

def State.quiet (s : State n k) : Prop := s.session = .noFailover ∧ ∀ r, (s.replicas r).quiet = true

instance (s : State n k) : Decidable s.quiet := inferInstanceAs (Decidable (_ ∧ ∀ _, _))

/-- The primary takes its slots back only when that ends the one failover that was going on. -/
def soleRestore (s : State n k) : Action n k → Bool
  | .drainFails r => (s.set r { s.replicas r with stop := .failed }).quiet
  | .abandon => { s with session := .noFailover }.quiet
  | .resetDone _ false => s.quiet
  | _ => true

variable {x x' : Replica n} {s s' : State n k} {a : Action n k}

lemma Replica.quiet_step {a : ReplicaAction} (hx : x.quiet = true) (h : x.step a = some x') :
    x'.quiet = true := by
  cases a <;> simp only [step] at h <;> split at h <;> try split at h
  all_goals
    cases h
    try grind -linarith [quiet]

/-- While a takeover may follow, the primary does not own the slot. -/
def Delegated (s : State n k) : Prop := s.owner = none → s.role = .primary ∧ s.quiet

lemma forall_update {β : Type} {f : Fin k → β} (p : β → Prop) (h : ∀ r, p (f r))
    (r : Fin k) {v : β} (hv : p v) (r' : Fin k) : p (update f r v r') :=
  (forall_update_iff f fun _ => p).2 ⟨hv, fun r' _ => h r'⟩ r'

lemma Delegated.set (hi : Delegated s) (r : Fin k)
    (hx : (s.replicas r).quiet = true → x.quiet = true) : Delegated (s.set r x) := by
  intro howner
  obtain ⟨hrole, hsession, hquiet⟩ := hi howner
  exact ⟨hrole, hsession, forall_update (Replica.quiet · = true) hquiet r (hx (hquiet r))⟩

lemma tryRestoreStopWrites_role (hi : Delegated s) (h : s.tryRestoreStopWrites.owner = none) :
    s.tryRestoreStopWrites.role = .primary := by
  grind -linarith [State.tryRestoreStopWrites, Delegated]

lemma Delegated.step (hi : Delegated s) (hc : soleRestore s a = true) (h : a.step s = some s') :
    Delegated s' := by
  cases a <;> simp only [Action.step] at h
  case replica r a =>
    obtain ⟨x, hx, rfl⟩ := Option.map_eq_some_iff.1 h
    exact hi.set r fun hquiet => Replica.quiet_step hquiet hx
  case enter | append x | leave view | acknowledge x entry =>
    split at h <;> cases h
    exact hi
  case apply r x =>
    split at h <;> cases h
    exact hi.set r id
  case drainFails r | abandon =>
    split at h <;> cases h
    exact fun howner => ⟨tryRestoreStopWrites_role hi howner, of_decide_eq_true hc⟩
  case resetDone r settled =>
    split at h <;> cases h
    · exact hi.set r id
    · intro howner
      obtain ⟨hsession, hquiet⟩ := of_decide_eq_true hc
      exact ⟨tryRestoreStopWrites_role hi howner, hsession,
        forall_update (Replica.quiet · = true) hquiet r (hquiet r)⟩
  case recvStop r | stopWrites r =>
    split at h <;> cases h
    intro howner
    simp only [State.set, State.tryStopWrites] at howner
    split at howner <;> simp_all
  case recvReset r =>
    split at h <;> cases h
    intro howner
    obtain ⟨-, hsession, hquiet⟩ := hi howner
    exact ⟨rfl, hsession, forall_update (Replica.quiet · = true) hquiet r (hquiet r)⟩
  case drained r =>
    split at h <;> try split at h
    all_goals cases h
    refine hi.set r fun hquiet => ?_
    grind -linarith [Replica.quiet]
  case answer r =>
    split at h <;> try split at h
    all_goals cases h
    exact hi.set r id
  case sample | initiateTakeOver r | recvAnswer =>
    split at h <;> try split at h
    all_goals cases h
    intro howner
    simp [(hi howner).2.1] at *

/-! ### Acknowledged writes -/

lemma AofAddress.not_anyLesser {a b : AofAddress n} : ¬ a.anyLesser b ↔ b ≤ a := by
  simp [anyLesser, Pi.le_def]

/-- Nobody writes any more, and the offset is not short of the log. -/
def Covers (writers : List Nat) (tail offset : AofAddress n) : Prop := writers = [] ∧ tail ≤ offset

def Before (writers : List Nat) (epoch : Nat) : Prop := ∀ view ∈ writers, view < epoch

section Covers

variable {writers writers' : List Nat} {tail tail' b c : AofAddress n}

lemma Covers.mono (h : Covers writers tail b) (hle : b ≤ c) : Covers writers tail c :=
  ⟨h.1, h.2.trans hle⟩

structure Replica.Covered (writers : List Nat) (tail : AofAddress n) (x : Replica n) : Prop where
  draining (epoch : Nat) : x.stop = .draining epoch → Before writers epoch
  replied (offset : AofAddress n) : x.stop = .replied offset → Covers writers tail offset
  waiting (offset : AofAddress n) : x.phase = .waitingForSync offset → Covers writers tail offset
  taking (ordered : Bool) : x.phase = .takingOver ordered → Covers writers tail x.applied
  probe (offset : AofAddress n) : x.probe = some offset → offset ≤ x.applied
  order : x.order = .sent → Covers writers tail x.applied
  tookOver : x.tookOver = true → Covers writers tail x.applied

namespace Replica.Covered

section

variable (hi : x.Covered writers tail)
include hi

lemma step {a : ReplicaAction} (h : x.step a = some x') : x'.Covered writers tail := by
  have hsynced {offset} : Covers writers tail offset → ¬ x.applied.anyLesser offset →
    Covers writers tail x.applied := fun h hle => h.mono (AofAddress.not_anyLesser.1 hle)
  cases hi
  cases a <;> simp only [Replica.step] at h <;> split at h <;> try split at h
  all_goals
    cases h
    try constructor <;> grind -linarith

lemma applied_le (hle : x.applied ≤ b) : { x with applied := b }.Covered writers tail where
  draining := hi.draining
  replied := hi.replied
  waiting := hi.waiting
  taking ordered h := (hi.taking ordered h).mono hle
  probe offset h := (hi.probe offset h).trans hle
  order h := (hi.order h).mono hle
  tookOver h := (hi.tookOver h).mono hle

/-- Writers that write or leave concern only a failover that is not covered yet. -/
lemma relog (hne : writers ≠ []) (hsub : writers' ⊆ writers) : x.Covered writers' tail' where
  draining epoch h view hview := hi.draining epoch h view (hsub hview)
  replied offset h := absurd (hi.replied offset h).1 hne
  waiting offset h := absurd (hi.waiting offset h).1 hne
  taking ordered h := absurd (hi.taking ordered h).1 hne
  probe := hi.probe
  order h := absurd (hi.order h).1 hne
  tookOver h := absurd (hi.tookOver h).1 hne

lemma of_quiet (hquiet : x.quiet = true) : x.Covered writers' tail := by
  refine ⟨?_, ?_, ?_, ?_, hi.probe, ?_, ?_⟩ <;> grind -linarith [quiet]

end

end Replica.Covered

end Covers

structure Covered (s : State n k) : Prop where
  acked : s.acked ≤ s.tail
  views : Before s.writers (s.epoch + 1)
  stopping (epoch : Nat) : s.session = .issuingPauseWrites epoch → Before s.writers epoch
  sampled (offset : AofAddress n) : s.session = .waitingForSync offset →
    Covers s.writers s.tail offset
  replicas (r : Fin k) : (s.replicas r).Covered s.writers s.tail

/-- The field a node without the role of a primary reads its offset from has kept up. -/
def fieldCovers (s : State n k) : Action n k → Bool
  | .drained _ | .sample => decide (s.role ≠ .primary → ¬ s.replicationOffset.anyLesser s.tail)
  | _ => true

lemma covers_current {epoch : Nat} (hbefore : Before s.writers epoch)
    (hdrained : s.drained epoch = true)
    (hfield : s.role ≠ .primary → ¬ s.replicationOffset.anyLesser s.tail) :
    Covers s.writers s.tail s.getCurrentReplicationOffset := by
  constructor
  · refine List.eq_nil_iff_forall_not_mem.2 fun view hview => (hbefore view hview).not_ge ?_
    simpa using List.all_eq_true.1 hdrained view hview
  · unfold State.getCurrentReplicationOffset
    split_ifs with hrole
    · exact le_rfl
    · exact AofAddress.not_anyLesser.1 (hfield hrole)

namespace Covered

lemma replica (hi : Covered s) (r : Fin k) (hx : x.Covered s.writers s.tail) (r' : Fin k) :
    (update s.replicas r x r').Covered s.writers s.tail :=
  forall_update (Replica.Covered _ _) hi.replicas r hx r'

lemma set (hi : Covered s) (r : Fin k) (hx : x.Covered s.writers s.tail) : Covered (s.set r x) :=
  { hi with replicas := hi.replica r hx }

lemma views_succ (hi : Covered s) : Before s.writers (s.epoch + 1 + 1) :=
  fun view h => (hi.views view h).trans (Nat.lt_succ_self _)

lemma relog (hi : Covered s) {writers : List Nat} {tail : AofAddress n} (hne : s.writers ≠ [])
    (hsub : writers ⊆ s.writers) (hle : s.tail ≤ tail) :
    Covered { s with writers := writers, tail := tail } where
  acked := hi.acked.trans hle
  views view h := hi.views view (hsub h)
  stopping epoch h view hview := hi.stopping epoch h view (hsub hview)
  sampled offset h := absurd (hi.sampled offset h).1 hne
  replicas r := (hi.replicas r).relog hne hsub

end Covered

lemma Covered.step (hi : Covered s) (hd : Delegated s) (hc : fieldCovers s a = true)
    (h : a.step s = some s') : Covered s' := by
  cases a <;> simp only [Action.step] at h
  case replica r a =>
    obtain ⟨x, hx, rfl⟩ := Option.map_eq_some_iff.1 h
    exact hi.set r ((hi.replicas r).step hx)
  case enter =>
    split at h <;> cases h
    obtain ⟨-, hsession, hquiet⟩ := hd (And.right ‹_›)
    refine ⟨hi.acked, List.forall_mem_cons.2 ⟨Nat.lt_succ_self _, hi.views⟩, ?_, ?_,
      fun r => (hi.replicas r).of_quiet (hquiet r)⟩ <;> simp [hsession]
  case append =>
    split at h <;> cases h
    exact hi.relog ‹_› (List.Subset.refl _) (le_update_self_iff.2 (Nat.le_succ _))
  case leave =>
    split at h <;> cases h
    exact hi.relog (List.ne_nil_of_mem ‹_›) List.erase_subset le_rfl
  case acknowledge x entry =>
    split at h <;> cases h
    exact { hi with acked := update_le_iff.2 ⟨max_le (hi.acked _) ‹_›, fun x _ => hi.acked x⟩ }
  case apply r x =>
    split at h <;> cases h
    exact hi.set r ((hi.replicas r).applied_le (le_update_self_iff.2 (Nat.le_succ _)))
  case recvStop r =>
    split at h <;> cases h
    exact { hi with
      views := hi.views_succ
      replicas := hi.replica r
        { hi.replicas r with draining := by rintro _ ⟨⟩; exact hi.views, replied := nofun } }
  case drained r =>
    split at h <;> try split at h
    all_goals cases h
    have hcovers := covers_current ((hi.replicas r).draining _ ‹_›) ‹_› (of_decide_eq_true hc)
    exact hi.set r { hi.replicas r with draining := nofun, replied := by rintro _ ⟨⟩; exact hcovers }
  case drainFails r =>
    split at h <;> cases h
    exact { hi with
      replicas := hi.replica r { hi.replicas r with draining := nofun, replied := nofun } }
  case recvReset r =>
    split at h <;> cases h
    exact { hi with
      views := hi.views_succ
      replicas := hi.replica r { hi.replicas r with } }
  case resetDone r settled =>
    split at h <;> cases h
    all_goals exact { hi with
      replicas := hi.replica r { hi.replicas r with } }
  case stopWrites =>
    split at h <;> cases h
    exact { hi with
      views := hi.views_succ
      stopping := by rintro _ ⟨⟩; exact hi.views
      sampled := nofun }
  case sample =>
    split at h <;> try split at h
    all_goals cases h
    have hcovers := covers_current (hi.stopping _ ‹_›) ‹_› (of_decide_eq_true hc)
    exact { hi with
      stopping := nofun
      sampled := by rintro _ ⟨⟩; exact hcovers
      replicas := fun r => { hi.replicas r with probe := nofun } }
  case answer r =>
    split at h <;> try split at h
    all_goals cases h
    exact hi.set r { hi.replicas r with probe := by rintro _ ⟨⟩; exact le_rfl }
  case initiateTakeOver r =>
    split at h <;> try split at h
    all_goals cases h
    have hcovers := (hi.sampled _ ‹_›).mono ((hi.replicas r).probe _ (And.left ‹_›))
    exact { hi with
      stopping := nofun
      sampled := nofun
      replicas := hi.replica r { hi.replicas r with order := fun _ => hcovers } }
  case recvAnswer | abandon =>
    split at h <;> try split at h
    all_goals cases h
    exact { hi with stopping := nofun, sampled := nofun }

lemma init_delegated (start : AofAddress n) : Delegated (State.init start : State n k) :=
  fun _ => ⟨rfl, rfl, fun _ => rfl⟩

lemma init_covered (start : AofAddress n) : Covered (State.init start : State n k) := by
  refine ⟨le_rfl, nofun, nofun, nofun, fun r => ?_⟩
  constructor <;> nofun

/-- A replica that takes over has applied every entry its primary has acknowledged, if the
primary's offset field covers its log whenever the offset is read, and if it takes its slots back only
from the last failover. -/
theorem acked_le_applied_of_tookOver {start : AofAddress n} (h : Machine.Reaches Action.step
    (fun s a => soleRestore s a = true ∧ fieldCovers s a = true) (State.init start) s)
    (r : Fin k) (htook : (s.replicas r).tookOver = true) (x : Fin n) :
    s.acked x ≤ (s.replicas r).applied x := by
  obtain ⟨-, hi⟩ := h.invariant (I := fun s => Delegated s ∧ Covered s)
    ⟨init_delegated start, init_covered start⟩
    fun hi hc hs => ⟨hi.1.step hc.1 hs, hi.2.step hi.1 hc.2 hs⟩
  exact (hi.acked x).trans (((hi.replicas r).tookOver htook).2 x)

/-- A failover started by the replica, after a restart of the primary. -/
theorem takeover_after_restart : ∃ s : State 1 1, (s.replicas 0).tookOver = true ∧ s.acked 0 = 1 ∧
    s.acked 0 ≤ (s.replicas 0).applied 0 := by
  obtain ⟨s, hs, hview⟩ := Machine.exists_reaches_of_run Action.step
    (fun s a => soleRestore s a = true ∧ fieldCovers s a = true) (.init fun _ => 1 : State 1 1)
    [.apply 0 0, .replica 0 .start, .recvStop 0, .drained 0, .replica 0 .recvReply,
      .replica 0 .synced, .replica 0 .takeOver]
    (fun s => ((s.replicas 0).tookOver, s.acked 0)) (true, 1) (by decide +kernel)
  simp only [Prod.mk.injEq] at hview
  exact ⟨s, hview.1, hview.2, acked_le_applied_of_tookOver hs 0 hview.1 0⟩

/-- The stopped primary is a replica, so its answer is the offset of its start. -/
theorem exists_tookOver_applied_lt_acked : ¬ ∀ s : State 1 1,
    Machine.Reachable Action.step (State.init fun _ => 0) s → ∀ r,
      (s.replicas r).tookOver = true → ∀ x, s.acked x ≤ (s.replicas r).applied x := by
  intro hall
  obtain ⟨s, hs, hview⟩ := Machine.exists_reachable_of_run Action.step
    (.init fun _ => 0 : State 1 1)
    [.enter, .append 0, .acknowledge 0 0, .leave 0, .replica 0 .start, .recvStop 0, .drained 0,
      .replica 0 .recvReply, .replica 0 .synced, .replica 0 .takeOver]
    (fun s => ((s.replicas 0).tookOver, s.acked 0, (s.replicas 0).applied 0)) (true, 1, 0) (by decide +kernel)
  simp only [Prod.mk.injEq] at hview
  have := hall s hs 0 hview.1 0
  omega

/-! ### Owners -/

/-- A replica that gives up sends a reset, and the reset finds the slot back at the primary. -/
def resetLands (s : State n k) : Action n k → Bool
  | .replica r .giveUp =>
    (s.replicas r).phase ≠ .issuingPauseWrites ∧ (s.replicas r).phase ≠ .takingOver true
  | .recvReset _ => s.owner = none
  | _ => true

/-- Both sessions have ended and every message has been processed. -/
def State.settled (s : State n k) : Prop :=
  s.session = .noFailover ∧ ∀ r, (s.replicas r).phase = .noFailover ∧ (s.replicas r).stop = .none ∧
    (s.replicas r).reset = .none ∧ (s.replicas r).order ≠ .sent

instance (s : State n k) : Decidable s.settled := inferInstanceAs (Decidable (_ ∧ ∀ _, _))

/-- A slot that has been given away is under way to an owner. -/
structure Accounted (s : State n 1) : Prop where
  redeem : s.owner ≠ none → s.delegated = true ∧ s.replicaOf = s.owner
  calling : (s.replicas 0).stop ≠ .none → (s.replicas 0).phase = .issuingPauseWrites
  order : (s.replicas 0).order = .sent → s.session = .takingOver 0
  answered : s.session = .takingOver 0 → (s.replicas 0).order = .answered true →
    (s.replicas 0).phase = .takingOver true ∨ (s.replicas 0).tookOver = true
  active : s.owner ≠ none → (s.replicas 0).quiet = false ∨ s.session ≠ .noFailover ∨
    (s.replicas 0).reset = .sent

lemma Accounted.step {s s' : State n 1} {a : Action n 1} (hi : Accounted s) (hd : Delegated s)
    (hr : soleRestore s a = true) (hc : resetLands s a = true) (h : a.step s = some s') :
    Accounted s' := by
  have hzero (r : Fin 1) : r = 0 := Subsingleton.elim ..
  have howner : s.owner = none ∨ s.owner = some 0 := by
    rcases s.owner with _ | r
    · exact .inl rfl
    · exact .inr (congrArg some (hzero r))
  have hquiet : s.quiet → (s.replicas 0).quiet = true := fun h => h.2 0
  cases hi
  cases a with
  | replica r a =>
    obtain rfl := hzero r
    obtain ⟨x, hx, rfl⟩ := Option.map_eq_some_iff.1 h
    cases a <;> simp only [Replica.step] at hx <;> split at hx <;> try split at hx
    all_goals
      cases hx
      try
        constructor <;> simp only [State.set, update_self, resetLands] at * <;>
          grind -linarith [Replica.quiet]
  | _ =>
    simp only [Action.step, State.set, State.tryStopWrites, State.tryRestoreStopWrites,
      State.tryResetReplica] at h
    split at h <;> try split at h
    all_goals
      cases h
      try obtain rfl := hzero ‹Fin 1›
      try
        constructor <;> simp only [update_self, soleRestore, resetLands] at * <;>
          grind -linarith [Replica.quiet, Delegated, State.quiet]

/-- A primary and its replica never own the slot both, and when their failovers are over one of them
does, if the primary takes its slots back only from the last failover and a replica gives up only by a
reset that arrives after that. -/
theorem owns_iff_not_tookOver {start : AofAddress n} {s : State n 1}
    (h : Machine.Reaches Action.step (fun s a => soleRestore s a = true ∧ resetLands s a = true)
      (State.init start) s) :
    ¬ (s.owns ∧ (s.replicas 0).tookOver = true) ∧
      (s.settled → (s.owns ↔ (s.replicas 0).tookOver = false)) := by
  obtain ⟨hd, hi⟩ := h.invariant (I := fun s => Delegated s ∧ Accounted s)
    ⟨init_delegated start, by constructor <;> simp [State.init]⟩
    fun hi hc hs => ⟨hi.1.step hc.1 hs, hi.2.step hi.1 hc.1 hc.2 hs⟩
  constructor
  · rintro ⟨⟨-, howner⟩, htook⟩
    have hquiet := (hd howner).2.2 0
    grind -linarith [Replica.quiet]
  · rintro ⟨hsession, hrest⟩
    constructor
    · intro howns
      have hquiet := (hd howns.2).2.2 0
      grind -linarith [Replica.quiet]
    · intro htook
      by_contra howns
      have hactive := hi.active fun h => howns ⟨(hd h).1, h⟩
      grind -linarith [Replica.quiet]

/-- The replica has taken over. -/
theorem settled_after_takeover : ∃ s : State 1 1,
    s.settled ∧ (s.replicas 0).tookOver = true ∧ ¬ s.owns := by
  obtain ⟨s, hs, hview⟩ := Machine.exists_reaches_of_run Action.step
    (fun s a => soleRestore s a = true ∧ resetLands s a = true) (.init fun _ => 0 : State 1 1)
    [.replica 0 .start, .recvStop 0, .drained 0, .replica 0 .recvReply, .replica 0 .synced,
      .replica 0 .takeOver]
    (fun s => (decide s.settled, (s.replicas 0).tookOver)) (true, true) (by decide +kernel)
  simp only [Prod.mk.injEq, decide_eq_true_eq] at hview
  exact ⟨s, hview.1, hview.2, fun howns => (owns_iff_not_tookOver hs).1 ⟨howns, hview.2⟩⟩

/-- The reset makes a primary of the node that has given its slot away, and leaves the slot where it
is. -/
theorem exists_settled_without_owner : ¬ ∀ s : State 1 1,
    Machine.Reachable Action.step (State.init fun _ => 0) s →
      ¬ (s.owns ∧ (s.replicas 0).tookOver = true) ∧
        (s.settled → (s.owns ↔ (s.replicas 0).tookOver = false)) := by
  intro hall
  obtain ⟨s, hs, hview⟩ := Machine.exists_reachable_of_run Action.step
    (.init fun _ => 0 : State 1 1)
    [.replica 0 .start, .recvStop 0, .drained 0, .replica 0 .recvReply, .replica 0 .giveUp,
      .recvReset 0, .resetDone 0 true]
    (fun s => (decide s.settled, (s.replicas 0).tookOver, decide s.owns)) (true, false, false)
    (by decide +kernel)
  simp only [Prod.mk.injEq, decide_eq_true_eq, decide_eq_false_iff_not] at hview
  exact hview.2.2 (((hall s hs).2 hview.1).2 hview.2.1)

end Wedb.Failover
