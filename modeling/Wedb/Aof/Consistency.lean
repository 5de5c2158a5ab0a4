import Wedb.Lib.Machine
import Wedb.Aof.Log
import Wedb.Aof.KeySketch

/-!
# Reads on a replica

The virtual sublogs are replayed side by side, so a reader that has seen an operation of one of them
must not read a key of another one before that has come as far. Before a read the session compares
the largest number it may have seen with how far the sublog of the key has come, and waits if need
be; after the read it takes the number of the key from the sketch
(`read_consistency_manager`, `replica_read_session_context`).

The replay itself is taken as it should be: each sublog replays its operations one by one, in the
order of their numbers, and raises its frontier and its sketch before the operation becomes visible.
-/

namespace Wedb.Aof

open List Function VirtualSublogReplayState

variable {K : Type} {hash : K → Int64} {log : GarnetLog}

structure SublogOperation (K : Type) where
  key : K
  number : Int64
deriving DecidableEq

/-- What is to be replayed: for each virtual sublog its operations, in the order of their numbers.
An operation is in the sublog that its key hashes to. -/
structure ReplayLogs (hash : K → Int64) (log : GarnetLog) where
  operations : Nat → List (SublogOperation K)
  increasing : ∀ v, (operations v).Pairwise fun a b => a.number < b.number
  routed : ∀ v, ∀ op ∈ operations v, log.getVirtualSublogIdx (hash op.key) = v

/-- Where the replay of a sublog stands with its next operation. -/
inductive ReplayStage where
  | waiting
  | frontierRaised
  | sketchRaised
deriving DecidableEq

structure ReplicaReadSessionContext where
  sessionVersion : Int64
  maximumSessionSequenceNumber : Int64
  lastHash : Int64
  /-- The source has -1 where there is none. -/
  lastVirtualSublogIdx : Option Nat
  cachedSublogMax : Nat → Int64

namespace ReplicaReadSessionContext

def new : ReplicaReadSessionContext := ⟨-1, 0, 0, none, fun _ => 0⟩

/-- The session starts over with a manager it does not know. -/
def checkConsistencyManagerVersion (context : ReplicaReadSessionContext) (currentVersion : Int64) :
    ReplicaReadSessionContext :=
  if context.sessionVersion ≠ currentVersion then
    { context with
      sessionVersion := currentVersion
      maximumSessionSequenceNumber := 0
      lastVirtualSublogIdx := none
      cachedSublogMax := fun _ => 0 }
  else context

def setCachedSublogMax (context : ReplicaReadSessionContext) (idx : Nat) (value : Int64) :
    ReplicaReadSessionContext :=
  { context with cachedSublogMax := update context.cachedSublogMax idx value }

def setLast (context : ReplicaReadSessionContext) (idx : Nat) (keyHash : Int64) :
    ReplicaReadSessionContext :=
  { context with lastVirtualSublogIdx := some idx, lastHash := keyHash }

/-- Whether a key of this sublog can be read without looking at the sublog. -/
def needsNoWait (context : ReplicaReadSessionContext) (idx : Nat) : Bool :=
  context.lastVirtualSublogIdx = none || context.lastVirtualSublogIdx = some idx ||
    context.maximumSessionSequenceNumber < context.cachedSublogMax idx

end ReplicaReadSessionContext

/-- Where the session stands with the key it is about to read. -/
inductive ReadPhase (K : Type) where
  | idle
  /-- The cached frontier is not enough. -/
  | stale (key : K)
  | blocked (key : K)
  | woken (key : K)
  /-- The key may be read now. -/
  | fresh (key : K)
  | read (key : K)

/-- A read, with the operations on the key that could be seen. -/
structure ReadEvent (K : Type) where
  key : K
  visible : List (SublogOperation K)
deriving DecidableEq

structure ReadState (K : Type) where
  replayed : Nat → Nat
  stage : Nat → ReplayStage
  vsrs : Nat → VirtualSublogReplayState
  context : ReplicaReadSessionContext
  phase : ReadPhase K
  /-- The reads of the session, the last one first. -/
  events : List (ReadEvent K)

inductive ReadAction (K : Type) where
  | raiseFrontier (v : Nat)
  | raiseSketch (v : Nat)
  | apply (v : Nat)
  | preSingleKeyConsistentRead (key : K)
  | refresh
  | wake
  | timeout
  | recache
  | read
  | postSingleKeyConsistentRead

namespace ReadState

def start : ReadState K := ⟨fun _ => 0, fun _ => .waiting, fun _ => .new, .new, .idle, []⟩

variable (logs : ReplayLogs hash log) (s : ReadState K)

/-- The operations of a sublog that can be seen. -/
def appliedIn (v : Nat) : List (SublogOperation K) := (logs.operations v).take (s.replayed v)

/-- Those that cannot be seen yet. -/
def pendingIn (v : Nat) : List (SublogOperation K) := (logs.operations v).drop (s.replayed v)

/-- What a read of a key sees. -/
def visible [DecidableEq K] (key : K) : List (SublogOperation K) :=
  (s.appliedIn logs (log.getVirtualSublogIdx (hash key))).filter fun op => op.key = key

end ReadState

/-- What the session takes for the hash of a key: the sign is dropped. -/
def readHash (keyHash : Int64) : Int64 := keyHash &&& Int64.maxValue

namespace ReadAction

open ReadState

variable [DecidableEq K]

/-- The end of `verify_key_freshness`. -/
def grant (hash : K → Int64) (log : GarnetLog) (s : ReadState K) (context : ReplicaReadSessionContext)
    (key : K) : ReadState K :=
  { s with
    context := context.setLast (log.getVirtualSublogIdx (readHash (hash key))) (readHash (hash key))
    phase := .fresh key }

def step (logs : ReplayLogs hash log) (currentVersion : Int64) (s : ReadState K) :
    ReadAction K → Option (ReadState K)
  | raiseFrontier v =>
    match s.stage v, (logs.operations v)[s.replayed v]? with
    | .waiting, some op => some { s with
        stage := update s.stage v .frontierRaised
        vsrs := update s.vsrs v ((s.vsrs v).updateMaxSequenceNumber op.number) }
    | _, _ => none
  | raiseSketch v =>
    match s.stage v, (logs.operations v)[s.replayed v]? with
    | .frontierRaised, some op => some { s with
        stage := update s.stage v .sketchRaised
        vsrs := update s.vsrs v ((s.vsrs v).updateKeySequenceNumber (hash op.key) op.number) }
    | _, _ => none
  | apply v =>
    match s.stage v with
    | .sketchRaised => some { s with
        stage := update s.stage v .waiting
        replayed := update s.replayed v (s.replayed v + 1) }
    | _ => none
  | preSingleKeyConsistentRead key =>
    match s.phase with
    | .idle =>
      let context := s.context.checkConsistencyManagerVersion currentVersion
      if context.needsNoWait (log.getVirtualSublogIdx (readHash (hash key))) then
        some (grant hash log s context key)
      else some { s with context := context, phase := .stale key }
    | _ => none
  | refresh =>
    match s.phase with
    | .stale key =>
      let idx := log.getVirtualSublogIdx (readHash (hash key))
      let context := s.context.setCachedSublogMax idx (s.vsrs idx).frontier
      if (s.vsrs idx).frontier ≤ s.context.maximumSessionSequenceNumber then
        some { s with context := context, phase := .blocked key }
      else some (grant hash log s context key)
    | _ => none
  | wake =>
    match s.phase with
    | .blocked key =>
      if s.context.maximumSessionSequenceNumber <
          (s.vsrs (log.getVirtualSublogIdx (readHash (hash key)))).frontier then
        some { s with phase := .woken key }
      else none
    | _ => none
  | timeout =>
    match s.phase with
    | .blocked _ => some { s with phase := .idle }
    | _ => none
  | recache =>
    match s.phase with
    | .woken key =>
      let idx := log.getVirtualSublogIdx (readHash (hash key))
      some (grant hash log s (s.context.setCachedSublogMax idx (s.vsrs idx).frontier) key)
    | _ => none
  | read =>
    match s.phase with
    | .fresh key => some { s with
        phase := .read key
        events := ⟨key, s.visible logs key⟩ :: s.events }
    | _ => none
  | postSingleKeyConsistentRead =>
    match s.phase with
    | .read _ =>
      let keySequenceNumber := (s.vsrs
        (log.getVirtualSublogIdx s.context.lastHash)).getKeySequenceNumber s.context.lastHash
      some { s with
        context := { s.context with
          maximumSessionSequenceNumber :=
            fetchMax s.context.maximumSessionSequenceNumber keySequenceNumber }
        phase := .idle }
    | _ => none

/-- The key is looked for in the sublog it is replayed in. -/
def sameSublog (hash : K → Int64) (log : GarnetLog) : ReadAction K → Bool
  | preSingleKeyConsistentRead key =>
    log.getVirtualSublogIdx (readHash (hash key)) = log.getVirtualSublogIdx (hash key)
  | _ => true

end ReadAction

/-! ### The sketch has one cell for a hash with and without its sign -/

lemma getSketchSlot_readHash (keyHash : Int64) :
    getSketchSlot (readHash keyHash) = getSketchSlot keyHash := by
  have hand : (readHash keyHash).toUInt64.toNat = keyHash.toUInt64.toNat &&& (2 ^ 63 - 1) := rfl
  have hmask : (2 ^ 63 - 1) >>> 32 &&& sketchSlotMask =
      sketchSlotMask := by decide
  simp only [getSketchSlot]
  rw [hand, Nat.shiftRight_and_distrib, Nat.and_assoc, hmask]

/-! ### The replay -/

variable {context : ReplicaReadSessionContext}

namespace ReadState

variable {logs : ReplayLogs hash log} {s s' : ReadState K}

/-- The frontier of a sublog is not ahead of what is still to be replayed there, and the sketch not
behind what can be seen. -/
structure ReplayInv (logs : ReplayLogs hash log) (s : ReadState K) : Prop where
  nonneg : ∀ v, 0 ≤ (s.vsrs v).frontier
  frontier : ∀ v, 0 < (s.vsrs v).frontier →
    ∀ op ∈ s.pendingIn logs v, (s.vsrs v).frontier ≤ op.number
  sketch : ∀ v, ∀ op ∈ s.appliedIn logs v, op.number ≤ (s.vsrs v).getKeySequenceNumber (hash op.key)
  next : ∀ v, s.stage v = .sketchRaised → ∀ op, (logs.operations v)[s.replayed v]? = some op →
    op.number ≤ (s.vsrs v).getKeySequenceNumber (hash op.key)

variable {v : Nat} {op : SublogOperation K}

/-- The next operation has the least number of those to come. -/
lemma le_of_mem_pendingIn {next : SublogOperation K}
    (h : (logs.operations v)[s.replayed v]? = some next) (hop : op ∈ s.pendingIn logs v) :
    next.number ≤ op.number := by
  have hsorted : ((logs.operations v).drop (s.replayed v)).Pairwise fun a b => a.number < b.number :=
    (logs.increasing v).drop
  rw [pendingIn, drop_eq_getElem?_toList_append, h] at hop
  rw [drop_eq_getElem?_toList_append, h] at hsorted
  rcases mem_cons.1 hop with rfl | hlater
  · exact Int64.le_refl _
  · exact Int64.le_of_lt ((pairwise_cons.1 hsorted).1 op hlater)

/-- What can be seen comes before what cannot. -/
lemma lt_of_mem_appliedIn {o : SublogOperation K} (ho : o ∈ s.appliedIn logs v)
    (hop : op ∈ s.pendingIn logs v) : o.number < op.number := by
  have hsorted := logs.increasing v
  rw [← take_append_drop (s.replayed v) (logs.operations v)] at hsorted
  exact (pairwise_append.1 hsorted).2.2 o ho op hop

lemma frontier_le_raiseFrontier {number : Int64} (w : Nat) :
    (s.vsrs w).frontier ≤ (update s.vsrs v
      ((s.vsrs v).updateMaxSequenceNumber number) w).frontier := by
  by_cases hw : w = v
  · subst hw
    rw [update_self]
    exact le_fetchMax_left _ _
  · rw [update_of_ne hw]
    exact Int64.le_refl _

lemma frontier_raiseSketch {keyHash number : Int64} (w : Nat) :
    (update s.vsrs v ((s.vsrs v).updateKeySequenceNumber keyHash number) w).frontier =
      (s.vsrs w).frontier := by
  by_cases hw : w = v
  · subst hw
    rw [update_self, frontier_updateKeySequenceNumber]
  · rw [update_of_ne hw]

lemma ReplayInv.raiseFrontier (hs : ReplayInv logs s)
    (hop : (logs.operations v)[s.replayed v]? = some op) :
    ReplayInv logs { s with
      stage := update s.stage v .frontierRaised
      vsrs := update s.vsrs v ((s.vsrs v).updateMaxSequenceNumber op.number) } where
  nonneg := fun w => Int64.le_trans (hs.nonneg w) (frontier_le_raiseFrontier w)
  frontier := by
    intro w
    dsimp only
    by_cases hw : w = v
    · subst hw
      rw [update_self]
      intro hpos later hlater
      have hle : op.number ≤ later.number := le_of_mem_pendingIn hop hlater
      simp only [updateMaxSequenceNumber, fetchMax] at hpos ⊢
      split
      · exact hle
      · next hlt =>
        rw [if_neg hlt] at hpos
        exact hs.frontier w hpos later hlater
    · rw [update_of_ne hw]
      exact hs.frontier w
  sketch := by
    intro w later hlater
    have hold := hs.sketch w later hlater
    dsimp only
    by_cases hw : w = v
    · subst hw
      rw [update_self]
      exact hold
    · rw [update_of_ne hw]
      exact hold
  next := by
    intro w hstage
    by_cases hw : w = v
    · subst hw
      dsimp only at hstage
      rw [update_self] at hstage
      cases hstage
    · dsimp only at hstage ⊢
      rw [update_of_ne hw] at hstage ⊢
      exact hs.next w hstage

lemma ReplayInv.raiseSketch (hs : ReplayInv logs s)
    (hop : (logs.operations v)[s.replayed v]? = some op) :
    ReplayInv logs { s with
      stage := update s.stage v .sketchRaised
      vsrs := update s.vsrs v ((s.vsrs v).updateKeySequenceNumber (hash op.key) op.number) } where
  nonneg := by
    intro w
    rw [frontier_raiseSketch]
    exact hs.nonneg w
  frontier := by
    intro w
    rw [frontier_raiseSketch]
    exact hs.frontier w
  sketch := by
    intro w later hlater
    have hold := hs.sketch w later hlater
    dsimp only
    by_cases hw : w = v
    · subst hw
      rw [update_self]
      exact Int64.le_trans hold (getKeySequenceNumber_le_update _ _ _ _)
    · rw [update_of_ne hw]
      exact hold
  next := by
    intro w hstage other hother
    dsimp only at hstage hother ⊢
    by_cases hw : w = v
    · subst hw
      obtain rfl := Option.some.inj (hop.symm.trans hother)
      rw [update_self]
      exact le_getKeySequenceNumber_update _ _ _
    · rw [update_of_ne hw] at hstage ⊢
      exact hs.next w hstage other hother

/-- One operation becomes visible. -/
lemma appliedIn_apply (stage : Nat → ReplayStage) (w : Nat) :
    (appliedIn logs { s with
      stage := stage, replayed := update s.replayed v (s.replayed v + 1) } w) =
      if w = v then s.appliedIn logs v ++ (logs.operations v)[s.replayed v]?.toList
      else s.appliedIn logs w := by
  unfold appliedIn
  dsimp only
  split
  · next h =>
    subst h
    rw [update_self, take_add_one]
  · next h => rw [update_of_ne h]

lemma pendingIn_apply_subset (stage : Nat → ReplayStage) (w : Nat) :
    (pendingIn logs { s with
      stage := stage, replayed := update s.replayed v (s.replayed v + 1) } w) ⊆
      s.pendingIn logs w := by
  unfold pendingIn
  dsimp only
  by_cases h : w = v
  · subst h
    rw [update_self]
    exact drop_subset_drop_left _ (Nat.le_succ _)
  · rw [update_of_ne h]
    exact fun _ hmem => hmem

lemma ReplayInv.apply (hs : ReplayInv logs s) (hstage : s.stage v = .sketchRaised) :
    ReplayInv logs { s with
      stage := update s.stage v .waiting
      replayed := update s.replayed v (s.replayed v + 1) } where
  nonneg := hs.nonneg
  frontier := fun w hpos op hop => hs.frontier w hpos op (pendingIn_apply_subset _ w hop)
  sketch := by
    intro w op hop
    rw [appliedIn_apply] at hop
    split at hop
    · next hw =>
      subst hw
      rcases mem_append.1 hop with hold | hnew
      · exact hs.sketch w op hold
      · exact hs.next w hstage op (Option.mem_toList.1 hnew)
    · exact hs.sketch w op hop
  next := by
    intro w hother
    dsimp only at hother
    by_cases hw : w = v
    · subst hw
      rw [update_self] at hother
      cases hother
    · rw [update_of_ne hw] at hother
      dsimp only
      rw [update_of_ne hw]
      exact hs.next w hother

lemma replayInv_start : ReplayInv logs (start : ReadState K) where
  nonneg := fun _ => Int64.le_refl 0
  frontier := fun _ hpos => absurd hpos Int64.lt_irrefl
  sketch := by simp [appliedIn, start]
  next := nofun

/-! ### The session -/

/-- The session looks for the key where it is replayed. -/
def SameSublog (hash : K → Int64) (log : GarnetLog) (key : K) : Prop :=
  log.getVirtualSublogIdx (readHash (hash key)) = log.getVirtualSublogIdx (hash key)

/-- What the session knows of the key it is about to read. -/
def PhaseInv (hash : K → Int64) (log : GarnetLog) (s : ReadState K) : Prop :=
  match s.phase with
  | .idle => True
  | .stale key | .blocked key => SameSublog hash log key
  | .woken key => SameSublog hash log key ∧ s.context.maximumSessionSequenceNumber <
      (s.vsrs (log.getVirtualSublogIdx (hash key))).frontier
  | .fresh key | .read key => SameSublog hash log key ∧
      s.context.lastVirtualSublogIdx = some (log.getVirtualSublogIdx (hash key)) ∧
      s.context.lastHash = readHash (hash key)

/-- An operation whose effect the session has seen. -/
def Seen (s : ReadState K) (op : SublogOperation K) : Prop := ∃ event ∈ s.events, op ∈ event.visible

/-- A later read includes all that an earlier one makes necessary. -/
def Includes (logs : ReplayLogs hash log) (later earlier : ReadEvent K) : Prop :=
  ∀ seen ∈ earlier.visible, ∀ op ∈ logs.operations (log.getVirtualSublogIdx (hash later.key)),
    op.key = later.key → op.number ≤ seen.number → op ∈ later.visible

/-- The session's number is not behind what it has seen, but for the read it has not finished; the
sublog it has read from last has nothing to come below that; the cached frontiers are not ahead. -/
structure SessionInv (logs : ReplayLogs hash log) (currentVersion : Int64) (s : ReadState K) :
    Prop where
  cached : ∀ v, s.context.cachedSublogMax v ≤ (s.vsrs v).frontier
  nonneg : 0 ≤ s.context.maximumSessionSequenceNumber
  version : s.context.sessionVersion ≠ currentVersion → s.phase = .idle ∧ s.events = []
  first : s.context.lastVirtualSublogIdx = none → s.events = []
  seen : ∀ op, s.Seen op → op.number ≤ s.context.maximumSessionSequenceNumber ∨
    ∃ key, s.phase = .read key ∧ op.key = key ∧
      op ∈ s.appliedIn logs (log.getVirtualSublogIdx (hash key))
  last : ∀ v, s.context.lastVirtualSublogIdx = some v → ∀ seen, s.Seen seen →
    ∀ op ∈ s.pendingIn logs v, seen.number < op.number
  phase : s.PhaseInv hash log
  ordered : s.events.Pairwise (Includes logs)

variable {currentVersion : Int64}

section

variable (hs : SessionInv logs currentVersion s)
include hs

/-- A step of the replay: frontiers grow, operations become visible, the session stays. -/
lemma SessionInv.replay (hcontext : s'.context = s.context) (hphase : s'.phase = s.phase)
    (hevents : s'.events = s.events)
    (hfrontier : ∀ v, (s.vsrs v).frontier ≤ (s'.vsrs v).frontier)
    (hpending : ∀ v, s'.pendingIn logs v ⊆ s.pendingIn logs v)
    (happlied : ∀ v, s.appliedIn logs v ⊆ s'.appliedIn logs v) :
    SessionInv logs currentVersion s' where
  cached v := hcontext ▸ Int64.le_trans (hs.cached v) (hfrontier v)
  nonneg := hcontext ▸ hs.nonneg
  version := by
    rw [hcontext, hphase, hevents]
    exact hs.version
  first := by
    rw [hcontext, hevents]
    exact hs.first
  seen := by
    intro op hop
    rw [Seen, hevents] at hop
    rw [hcontext, hphase]
    refine (hs.seen op hop).imp_right ?_
    rintro ⟨key, hread, hkey, hmem⟩
    exact ⟨key, hread, hkey, happlied _ hmem⟩
  last := by
    intro v hlast seen hseen op hop
    rw [hcontext] at hlast
    rw [Seen, hevents] at hseen
    exact hs.last v hlast seen hseen op (hpending v hop)
  phase := by
    have hold := hs.phase
    unfold PhaseInv at hold ⊢
    rw [hphase, hcontext]
    split at hold <;> try exact hold
    exact ⟨hold.1, Int64.lt_of_lt_of_le hold.2 (hfrontier _)⟩
  ordered := hevents ▸ hs.ordered

lemma SessionInv.phaseInv {phase : ReadPhase K}
    (h : s.phase = phase) : PhaseInv hash log { s with phase } := h ▸ hs.phase

omit hs in
lemma not_seen (h : s.events = []) (op : SublogOperation K) : ¬ s.Seen op := by
  rintro ⟨event, hevent, -⟩
  rw [h] at hevent
  cases hevent

/-- Between two reads the session's number is not behind what it has seen. -/
lemma SessionInv.le_maximum
    (hread : ∀ key, s.phase ≠ .read key) {op : SublogOperation K} (hop : s.Seen op) :
    op.number ≤ s.context.maximumSessionSequenceNumber := by
  refine (hs.seen op hop).resolve_right ?_
  rintro ⟨key, hphase, -⟩
  exact hread key hphase

omit hs in
/-- The session may read a key of this sublog: either the sublog is the one it has read from last, or
its frontier has passed the session's number. -/
lemma lt_of_frontier (hr : ReplayInv logs s) (hs : SessionInv logs currentVersion s)
    (hread : ∀ key, s.phase ≠ .read key)
    (hlt : s.context.maximumSessionSequenceNumber < (s.vsrs v).frontier)
    (seen : SublogOperation K) (hseen : s.Seen seen) (op : SublogOperation K)
    (hop : op ∈ s.pendingIn logs v) : seen.number < op.number := by
  have hle := hs.le_maximum hread hseen
  have hpos : 0 < (s.vsrs v).frontier := Int64.lt_of_le_of_lt hs.nonneg hlt
  exact Int64.lt_of_le_of_lt hle (Int64.lt_of_lt_of_le hlt (hr.frontier v hpos op hop))

/-- The session takes note of a frontier, of the manager or of the sublog it turns to. -/
lemma SessionInv.note (hread : ∀ key, s.phase ≠ .read key)
    {phase : ReadPhase K} (hversion : context.sessionVersion = currentVersion)
    (hmaximum : context.maximumSessionSequenceNumber = s.context.maximumSessionSequenceNumber ∨
      context.maximumSessionSequenceNumber = 0 ∧ s.events = [])
    (hcached : ∀ v, context.cachedSublogMax v ≤ (s.vsrs v).frontier)
    (hfirst : context.lastVirtualSublogIdx = none → s.events = [])
    (hlast : ∀ v, context.lastVirtualSublogIdx = some v → ∀ seen, s.Seen seen →
      ∀ op ∈ s.pendingIn logs v, seen.number < op.number)
    (hphase : PhaseInv hash log { s with context := context, phase := phase }) :
    SessionInv logs currentVersion { s with context := context, phase := phase } where
  cached := hcached
  nonneg := by
    rcases hmaximum with heq | ⟨heq, -⟩ <;> rw [heq]
    · exact hs.nonneg
    · exact Int64.le_refl 0
  version := fun hne => absurd hversion hne
  first := hfirst
  seen := by
    intro op hop
    left
    rcases hmaximum with heq | ⟨-, hnone⟩
    · exact heq ▸ hs.le_maximum hread hop
    · exact absurd hop (not_seen hnone op)
  last := hlast
  phase := hphase
  ordered := hs.ordered

omit hs in
/-- What the version check leaves of the session's state. -/
lemma SessionInv.checked (hr : ReplayInv logs s) (hs : SessionInv logs currentVersion s) :
    let context := s.context.checkConsistencyManagerVersion currentVersion
    context.sessionVersion = currentVersion ∧
      (context.maximumSessionSequenceNumber = s.context.maximumSessionSequenceNumber ∨
        context.maximumSessionSequenceNumber = 0 ∧ s.events = []) ∧
      (∀ v, context.cachedSublogMax v ≤ (s.vsrs v).frontier) ∧
      (context.lastVirtualSublogIdx = none → s.events = []) ∧
      ∀ v, context.lastVirtualSublogIdx = some v → ∀ seen, s.Seen seen →
        ∀ op ∈ s.pendingIn logs v, seen.number < op.number := by
  unfold ReplicaReadSessionContext.checkConsistencyManagerVersion
  split
  · next hne =>
    have hevents := (hs.version hne).2
    exact ⟨rfl, .inr ⟨rfl, hevents⟩, hr.nonneg, fun _ => hevents, nofun⟩
  · next heq =>
    exact ⟨not_not.1 heq, .inl rfl, hs.cached, hs.first, hs.last⟩

omit hs in
/-- A frontier that has just been read is not ahead. -/
lemma cached_update {idx : Nat}
    (h : ∀ v, context.cachedSublogMax v ≤ (s.vsrs v).frontier) (v : Nat) :
    (context.setCachedSublogMax idx (s.vsrs idx).frontier).cachedSublogMax v ≤
      (s.vsrs v).frontier := by
  unfold ReplicaReadSessionContext.setCachedSublogMax
  dsimp only
  by_cases hv : v = idx
  · subst hv
    rw [update_self]
    exact Int64.le_refl _
  · rw [update_of_ne hv]
    exact h v

/-- A session that is at something knows the manager. -/
lemma SessionInv.version_eq (hphase : s.phase ≠ .idle) :
    s.context.sessionVersion = currentVersion := by
  by_contra hne
  exact hphase (hs.version hne).1

end

variable {key : K}

section

variable (hr : ReplayInv logs s)
include hr

section

variable (hs : SessionInv logs currentVersion s)
include hs

/-- The session takes the number of the key from the sketch. -/
lemma SessionInv.post (hphase : s.phase = .read key) :
    SessionInv logs currentVersion { s with
      context := { s.context with
        maximumSessionSequenceNumber := fetchMax s.context.maximumSessionSequenceNumber
          ((s.vsrs (log.getVirtualSublogIdx s.context.lastHash)).getKeySequenceNumber
            s.context.lastHash) }
      phase := .idle } := by
  obtain ⟨hsame, hlastIdx, hlastHash⟩ := hs.phaseInv hphase
  refine ⟨hs.cached, Int64.le_trans hs.nonneg (le_fetchMax_left _ _), ?_, hs.first, ?_, hs.last,
    trivial, hs.ordered⟩
  · exact fun hne => absurd (hs.version_eq (by simp [hphase])) hne
  · intro op hop
    left
    rcases hs.seen op hop with hle | ⟨other, hother, hkey, happlied⟩
    · exact Int64.le_trans hle (le_fetchMax_left _ _)
    · rw [hphase] at hother
      obtain rfl := ReadPhase.read.inj hother
      have hsketch := hr.sketch _ op happlied
      rw [hkey] at hsketch
      refine Int64.le_trans ?_ (le_fetchMax_right _ _)
      rw [hlastHash, hsame, getKeySequenceNumber, getSketchSlot_readHash]
      exact hsketch

/-- The session begins with a key. -/
lemma SessionInv.pre [DecidableEq K] (hphase : s.phase = .idle) (hsame : SameSublog hash log key)
    (h : ReadAction.step logs currentVersion s (.preSingleKeyConsistentRead key) = some s') :
    SessionInv logs currentVersion s' := by
  have hread : ∀ key, s.phase ≠ .read key := by simp [hphase]
  obtain ⟨hversion, hmaximum, hcached, hfirst, hlast⟩ := hs.checked hr
  simp only [ReadAction.step, hphase] at h
  generalize s.context.checkConsistencyManagerVersion currentVersion = context
    at hversion hmaximum hcached hfirst hlast h
  split at h
  · next hready =>
    cases h
    refine hs.note hread hversion hmaximum hcached nofun ?_ ⟨hsame, congrArg some hsame, rfl⟩
    intro v hv seen hseen op hop
    cases hv
    simp only [ReplicaReadSessionContext.needsNoWait, Bool.or_eq_true, decide_eq_true_eq] at hready
    rcases hready with (hnone | hsome) | hlt
    · exact absurd hseen (not_seen (hfirst hnone) seen)
    · exact hlast _ hsome seen hseen op hop
    · -- the cached frontier is not ahead of the frontier itself
      rcases hmaximum with heq | ⟨-, hnone⟩
      · rw [heq] at hlt
        exact lt_of_frontier hr hs hread (Int64.lt_of_lt_of_le hlt (hcached _)) seen hseen op hop
      · exact absurd hseen (not_seen hnone seen)
  · cases h
    exact hs.note hread hversion hmaximum hcached hfirst hlast hsame

/-- The session sees for itself how far the sublog has come. -/
lemma SessionInv.refresh [DecidableEq K] (hphase : s.phase = .stale key)
    (h : ReadAction.step logs currentVersion s .refresh = some s') :
    SessionInv logs currentVersion s' := by
  have hread : ∀ key, s.phase ≠ .read key := by simp [hphase]
  have hversion := hs.version_eq (by simp [hphase])
  have hsame : SameSublog hash log key := hs.phaseInv hphase
  simp only [ReadAction.step, hphase] at h
  split at h
  · cases h
    exact hs.note hread hversion (.inl rfl) (cached_update hs.cached) hs.first hs.last hsame
  · next hlt =>
    cases h
    refine hs.note hread hversion (.inl rfl) (cached_update hs.cached) nofun ?_
      ⟨hsame, congrArg some hsame, rfl⟩
    intro v hv
    cases hv
    exact lt_of_frontier hr hs hread (Int64.not_le.1 hlt)

/-- It has been told that the sublog has come far enough. -/
lemma SessionInv.recache [DecidableEq K] (hphase : s.phase = .woken key)
    (h : ReadAction.step logs currentVersion s .recache = some s') :
    SessionInv logs currentVersion s' := by
  have hread : ∀ key, s.phase ≠ .read key := by simp [hphase]
  have hversion := hs.version_eq (by simp [hphase])
  obtain ⟨hsame, hlt⟩ := hs.phaseInv hphase
  simp only [ReadAction.step, hphase] at h
  cases h
  refine hs.note hread hversion (.inl rfl) (cached_update hs.cached) nofun ?_
    ⟨hsame, congrArg some hsame, rfl⟩
  intro v hv
  cases hv
  rw [hsame]
  exact lt_of_frontier hr hs hread hlt

end

omit hr in
/-- The read itself: what the session has seen before is included, since the sublog of the key has
nothing to come below it. -/
lemma SessionInv.read [DecidableEq K] (hs : SessionInv logs currentVersion s)
    (hphase : s.phase = .fresh key) :
    SessionInv logs currentVersion { s with
      phase := .read key
      events := ⟨key, s.visible logs key⟩ :: s.events } := by
  obtain ⟨hsame, hlastIdx, hlastHash⟩ := hs.phaseInv hphase
  refine ⟨hs.cached, hs.nonneg, ?_, ?_, ?_, ?_, ⟨hsame, hlastIdx, hlastHash⟩, ?_⟩
  · exact fun hne => absurd (hs.version_eq (by simp [hphase])) hne
  · intro hnone
    rw [hlastIdx] at hnone
    cases hnone
  · rintro op ⟨event, hevent, hop⟩
    rcases mem_cons.1 hevent with rfl | hold
    · obtain ⟨happlied, hkey⟩ := mem_filter.1 hop
      exact .inr ⟨key, rfl, of_decide_eq_true hkey, happlied⟩
    · exact .inl (hs.le_maximum (by simp [hphase]) ⟨event, hold, hop⟩)
  · rintro v hv seen ⟨event, hevent, hseen⟩ op hop
    obtain rfl := Option.some.inj (hlastIdx.symm.trans hv)
    rcases mem_cons.1 hevent with rfl | hold
    · exact lt_of_mem_appliedIn (mem_filter.1 hseen).1 hop
    · exact hs.last _ hlastIdx seen ⟨event, hold, hseen⟩ op hop
  · refine pairwise_cons.2 ⟨?_, hs.ordered⟩
    intro event hevent seen hseen op hop hkey hle
    refine mem_filter.2 ⟨?_, decide_eq_true hkey⟩
    rw [← take_append_drop (s.replayed _) (logs.operations _)] at hop
    refine (mem_append.1 hop).resolve_right fun hpending => ?_
    have hlt := hs.last _ hlastIdx seen ⟨event, hevent, hseen⟩ op hpending
    exact absurd hle (Int64.not_le.2 hlt)

/-- The two parts of the state together. -/
structure Inv (logs : ReplayLogs hash log) (currentVersion : Int64) (s : ReadState K) : Prop where
  replay : ReplayInv logs s
  session : SessionInv logs currentVersion s

/-- The session changes nothing of the replay. -/
lemma ReplayInv.ofSession (hreplayed : s'.replayed = s.replayed)
    (hstage : s'.stage = s.stage) (hvsrs : s'.vsrs = s.vsrs) : ReplayInv logs s' := by
  obtain ⟨⟩ := s'
  cases hreplayed
  cases hstage
  cases hvsrs
  exact { hr with }

end

lemma Inv.step [DecidableEq K] (hi : Inv logs currentVersion s) {a : ReadAction K}
    (ha : ReadAction.sameSublog hash log a = true)
    (h : ReadAction.step logs currentVersion s a = some s') : Inv logs currentVersion s' := by
  have hr := hi.replay
  have hs := hi.session
  cases a <;> simp only [ReadAction.step] at h
  case raiseFrontier v =>
    split at h <;> cases h
    rename_i op _ hop
    exact ⟨hr.raiseFrontier hop, hs.replay rfl rfl rfl frontier_le_raiseFrontier
      (fun _ _ hmem => hmem) fun _ _ hmem => hmem⟩
  case raiseSketch v =>
    split at h <;> cases h
    rename_i op _ hop
    refine ⟨hr.raiseSketch hop, hs.replay rfl rfl rfl (fun w => ?_) (fun _ _ hmem => hmem)
      fun _ _ hmem => hmem⟩
    rw [frontier_raiseSketch]
    exact Int64.le_refl _
  case apply v =>
    split at h <;> cases h
    rename_i hstage
    refine ⟨hr.apply hstage, hs.replay rfl rfl rfl (fun _ => Int64.le_refl _)
      (pendingIn_apply_subset _) fun w op hmem => ?_⟩
    rw [appliedIn_apply]
    split
    · next hw =>
      subst hw
      exact mem_append_left _ hmem
    · exact hmem
  case preSingleKeyConsistentRead =>
    have hsession := h
    split at h
    · next hphase =>
      refine ⟨?_, hs.pre hr hphase (by simpa [SameSublog, ReadAction.sameSublog] using ha) hsession⟩
      split at h <;> obtain rfl := Option.some.inj h <;> exact hr.ofSession rfl rfl rfl
    · cases h
  case refresh =>
    have hsession := h
    split at h
    · next key hphase =>
      refine ⟨?_, hs.refresh hr hphase hsession⟩
      split at h <;> obtain rfl := Option.some.inj h <;> exact hr.ofSession rfl rfl rfl
    · cases h
  case wake =>
    split at h
    · next key hphase =>
      split at h
      · next hlt =>
        cases h
        have hsame : SameSublog hash log key := hs.phaseInv hphase
        refine ⟨hr.ofSession rfl rfl rfl, hs.note (by simp [hphase])
          (hs.version_eq (by simp [hphase])) (.inl rfl) hs.cached hs.first hs.last ?_⟩
        rw [hsame] at hlt
        exact ⟨hsame, hlt⟩
      · cases h
    · cases h
  case timeout =>
    split at h <;> cases h
    rename_i key hphase
    exact ⟨hr.ofSession rfl rfl rfl, hs.note (by simp [hphase])
      (hs.version_eq (by simp [hphase])) (.inl rfl) hs.cached hs.first hs.last trivial⟩
  case recache =>
    have hsession := h
    split at h
    · next key hphase =>
      refine ⟨?_, hs.recache hr hphase hsession⟩
      cases h
      exact hr.ofSession rfl rfl rfl
    · cases h
  case read =>
    split at h <;> cases h
    rename_i key hphase
    exact ⟨hr.ofSession rfl rfl rfl, hs.read hphase⟩
  case postSingleKeyConsistentRead =>
    split at h <;> cases h
    rename_i key hphase
    exact ⟨hr.ofSession rfl rfl rfl, hs.post hr hphase⟩

lemma inv_start : Inv logs currentVersion (start : ReadState K) where
  replay := replayInv_start
  session :=
    { cached := fun _ => Int64.le_refl 0
      nonneg := Int64.le_refl 0
      version := fun _ => ⟨rfl, rfl⟩
      first := fun _ => rfl
      seen := fun op hop => absurd hop (not_seen rfl op)
      last := nofun
      phase := trivial
      ordered := List.Pairwise.nil }

end ReadState

/-- A session that looks for its keys where they are replayed reads consistently: a read includes
every operation on its key that is not after one the session has seen before; and what it has cached
of a sublog is never ahead of how far the sublog has come. -/
theorem includes_of_sameSublog [DecidableEq K] (logs : ReplayLogs hash log) (currentVersion : Int64)
    {s : ReadState K}
    (h : Machine.Reaches (ReadAction.step logs currentVersion)
      (fun _ a => ReadAction.sameSublog hash log a = true) .start s) :
    s.events.Pairwise (ReadState.Includes logs) ∧
      ∀ v, s.context.cachedSublogMax v ≤ (s.vsrs v).frontier := by
  have hinv : s.Inv logs currentVersion := h.invariant ReadState.inv_start
    fun hi ha hs => hi.step ha hs
  exact ⟨hinv.session.ordered, hinv.session.cached⟩

/-! ### Keys that are looked for in the wrong place -/

/-- One log, replayed by three tasks. -/
def threeTasks : GarnetLog := ⟨1, 3, 21, 2 ^ 21, Nat.one_pos, by decide, by decide⟩

/-- Two keys. The one whose hash has a sign is replayed by the task 0 and looked for at the task 1;
the other one is replayed, and looked for, at the task 1. -/
def hashOf : Bool → Int64
  | true => Int64.minValue + 1
  | false => 1

def oneOperationEach : ReplayLogs hashOf threeTasks where
  operations
    | 0 => [⟨true, 5⟩]
    | 1 => [⟨false, 10⟩]
    | _ => []
  increasing := by
    intro v
    split <;> simp
  routed := by
    intro v op hop
    split at hop
    · rw [mem_singleton.1 hop]
      decide
    · rw [mem_singleton.1 hop]
      decide
    · cases hop

/-- The operation of the task 1 is replayed and read. -/
def readFalse : List (ReadAction Bool) :=
  [.raiseFrontier 1, .raiseSketch 1, .apply 1, .preSingleKeyConsistentRead false, .read,
    .postSingleKeyConsistentRead]

theorem includes_of_sameSublog_readFalse :
    ∃ s, Machine.Reaches (ReadAction.step oneOperationEach 0)
        (fun _ a => ReadAction.sameSublog hashOf threeTasks a = true) .start s ∧
      s.events.length = 1 ∧
      s.events.Pairwise (ReadState.Includes oneOperationEach) ∧
      ∀ v, s.context.cachedSublogMax v ≤ (s.vsrs v).frontier := by
  obtain ⟨s, hs, hlen⟩ := Machine.exists_reaches_of_run (ReadAction.step oneOperationEach 0)
    (fun _ a => ReadAction.sameSublog hashOf threeTasks a = true) .start readFalse
    (fun s => s.events.length) 1 (by decide +kernel)
  exact ⟨s, hs, hlen, includes_of_sameSublog oneOperationEach 0 hs⟩

/-- The session then reads the other key without waiting, for it takes both to be in one sublog, and
does not see its operation, which came first. -/
theorem not_includes_threeTasks :
    ¬ ∀ (K : Type) (_ : DecidableEq K) (hash : K → Int64) (log : GarnetLog)
      (logs : ReplayLogs hash log) (currentVersion : Int64) (s : ReadState K),
      Machine.Reachable (ReadAction.step logs currentVersion) .start s →
      s.events.Pairwise (ReadState.Includes logs) ∧
        ∀ v, s.context.cachedSublogMax v ≤ (s.vsrs v).frontier := by
  intro hall
  obtain ⟨s, hs, hevents⟩ := Machine.exists_reachable_of_run
    (ReadAction.step oneOperationEach 0) .start
    (readFalse ++ [.preSingleKeyConsistentRead true, .read])
    (fun s => s.events) [⟨true, []⟩, ⟨false, [⟨false, 10⟩]⟩] (by decide +kernel)
  have hordered := (hall Bool inferInstance hashOf threeTasks oneOperationEach 0 s hs).1
  rw [hevents] at hordered
  have hincludes := (pairwise_cons.1 hordered).1 _ mem_cons_self
  have hmem : (⟨true, 5⟩ : SublogOperation Bool) ∈ ([] : List (SublogOperation Bool)) :=
    hincludes ⟨false, 10⟩ mem_cons_self ⟨true, 5⟩ (by decide) rfl (by decide)
  cases hmem

end Wedb.Aof
