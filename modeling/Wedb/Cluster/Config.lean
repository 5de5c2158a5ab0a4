import Mathlib.Algebra.Group.Nat.Defs
import Mathlib.Data.Fintype.Basic

/-!
# Cluster configuration

The view a node has of its cluster (`cluster_config`): the workers it knows and, for every slot, the
worker the slot is assigned to. Slots name workers by position. Position 0 is reserved and position 1
is the node itself.
-/

namespace Wedb.Cluster

def clusterSlotCount : Nat := 16384

abbrev Slot := Fin clusterSlotCount

/-- Identity of a node, 128 bits. -/
abbrev NodeId := Nat

def reservedWorkerId : Nat := 0

def localWorkerId : Nat := 1

/-- The cast `as u16`. -/
def asU16 (n : Nat) : Nat := n % 2 ^ 16

inductive SlotState where
  | offline
  | stable
  | migrating
  | importing
  | fail
  | node
  | invalid
deriving DecidableEq, Repr, Inhabited

structure HashSlot where
  workerId : Nat
  state : SlotState
deriving DecidableEq, Repr

def HashSlot.default : HashSlot := ⟨0, .offline⟩

/-- A slot that is moving away still belongs to the local node. -/
def HashSlot.effWorkerId (slot : HashSlot) : Nat :=
  match slot.state with
  | .migrating => localWorkerId
  | _ => slot.workerId

inductive NodeRole where
  | primary
  | replica
  | unassigned
deriving DecidableEq, Repr

structure Worker where
  nodeid : Option NodeId
  address : String
  replicaOfNodeId : Option NodeId
  hostname : Option String
  configEpoch : Int64
  replicationOffset : Int64
  port : Int
  role : NodeRole
deriving DecidableEq

def Worker.default : Worker := ⟨none, "", none, none, 0, 0, 0, .primary⟩

def Worker.unassigned : Worker := { Worker.default with address := "unassigned", role := .unassigned }

/-- A configuration. The local worker is always there: the source reads it without a check. -/
@[ext]
structure ClusterConfig where
  slotMap : Slot → HashSlot
  workers : List Worker
  hasLocal : 1 < workers.length

/-- The identity of the worker at a position, if there is one. -/
def nodeIdAt (workers : List Worker) (i : Nat) : Option NodeId := workers[i]?.bind Worker.nodeid

/-- `worker_by_node_id`: the first position with this identity, the reserved one apart. -/
def workerByNodeId (workers : List Worker) (id : NodeId) : Option Nat :=
  ((workers.drop 1).findIdx? fun w => w.nodeid = some id).map (· + 1)

def getWorkerIdFromNodeId (workers : List Worker) (id : NodeId) : Nat :=
  (workerByNodeId workers id).elim 0 asU16

namespace ClusterConfig

def new : ClusterConfig where
  slotMap _ := .default
  workers := [.unassigned, .default]
  hasLocal := by decide

def localWorker (c : ClusterConfig) : Worker := c.workers.get ⟨1, c.hasLocal⟩

def localNodeId (c : ClusterConfig) : Option NodeId := c.localWorker.nodeid

def localNodeRole (c : ClusterConfig) : NodeRole := c.localWorker.role

def localNodePrimaryId (c : ClusterConfig) : Option NodeId := c.localWorker.replicaOfNodeId

def localNodeConfigEpoch (c : ClusterConfig) : Int64 := c.localWorker.configEpoch

def isPrimary (c : ClusterConfig) : Bool := c.localNodeRole = .primary

def isReplica (c : ClusterConfig) : Bool := c.localNodeRole = .replica

def numWorkers (c : ClusterConfig) : Nat := c.workers.length - 1

def updateLocal (c : ClusterConfig) (f : Worker → Worker) : ClusterConfig where
  slotMap := c.slotMap
  workers := c.workers.set 1 (f c.localWorker)
  hasLocal := by rw [List.length_set]; exact c.hasLocal

/-- What `initialize_local_worker` is given. -/
structure LocalWorkerSpec where
  nodeId : NodeId
  address : String
  port : Int
  configEpoch : Int64
  role : NodeRole
  replicaOfNodeId : Option NodeId
  hostname : Option String

def initializeLocalWorker (c : ClusterConfig) (spec : LocalWorkerSpec) : ClusterConfig :=
  c.updateLocal fun _ =>
    { nodeid := some spec.nodeId
      address := spec.address
      replicaOfNodeId := spec.replicaOfNodeId
      hostname := spec.hostname
      configEpoch := spec.configEpoch
      replicationOffset := 0
      port := spec.port
      role := spec.role }

def getNodeRoleFromNodeId (c : ClusterConfig) (id : NodeId) : NodeRole :=
  ((workerByNodeId c.workers id).bind (c.workers[·]?)).elim .unassigned Worker.role

def getMaxConfigEpoch (c : ClusterConfig) : Int64 :=
  ((c.workers.drop 1).map Worker.configEpoch).foldl max 0

/-! ### Local worker -/

def makeReplicaOf (c : ClusterConfig) (id : Option NodeId) : ClusterConfig :=
  c.updateLocal fun w => { w with replicaOfNodeId := id, role := .replica }

def setLocalWorkerRole (c : ClusterConfig) (role : NodeRole) : ClusterConfig :=
  c.updateLocal fun w => { w with role := role }

/-- The sum wraps around in a release build. -/
def bumpLocalNodeConfigEpoch (c : ClusterConfig) : ClusterConfig :=
  c.updateLocal fun w => { w with configEpoch := c.getMaxConfigEpoch + 1 }

/-- `none`: the epoch is not set. -/
def setLocalWorkerConfigEpoch (c : ClusterConfig) (epoch : Int64) : Option ClusterConfig :=
  if c.localNodeConfigEpoch = 0 ∧ 0 < epoch then
    some (c.updateLocal fun w => { w with configEpoch := epoch })
  else none

def lazyUpdateLocalReplicationOffset (c : ClusterConfig) (offset : Int64) : ClusterConfig :=
  c.updateLocal fun w => { w with replicationOffset := offset }

/-! ### Slots -/

def getState (c : ClusterConfig) (slot : Slot) : SlotState := (c.slotMap slot).state

def getWorkerIdFromSlot (c : ClusterConfig) (slot : Slot) : Nat := (c.slotMap slot).effWorkerId

/-- The owner of a slot. -/
def getNodeIdFromSlot (c : ClusterConfig) (slot : Slot) : Option NodeId :=
  nodeIdAt c.workers (c.getWorkerIdFromSlot slot)

/-- The worker a slot names: of a slot that is moving away the target. -/
def getOwnerIdFromSlot (c : ClusterConfig) (slot : Slot) : Option NodeId :=
  nodeIdAt c.workers (c.slotMap slot).workerId

def isLocalExpensive (c : ClusterConfig) (slot : Slot) (readWriteSession : Bool) : Bool :=
  if c.getState slot = .migrating then true
  else if readWriteSession && c.isReplica then
    match c.localNodePrimaryId with
    | none => false
    | some primary => 1 < (c.slotMap slot).workerId && c.getOwnerIdFromSlot slot = some primary
  else false

def isLocal (c : ClusterConfig) (slot : Slot) (readWriteSession : Bool) : Bool :=
  c.getWorkerIdFromSlot slot = localWorkerId || c.isLocalExpensive slot readWriteSession

/-- The slots of a worker. -/
def getSlotList (c : ClusterConfig) (workerId : Nat) : List Slot :=
  (List.finRange clusterSlotCount).filter fun slot => c.getWorkerIdFromSlot slot = workerId

def getLocalPrimarySlots (c : ClusterConfig) : List Slot :=
  match c.localNodePrimaryId with
  | none => []
  | some primaryId =>
    let target := getWorkerIdFromNodeId c.workers primaryId
    if target = 0 then []
    else (List.finRange clusterSlotCount).filter fun slot => (c.slotMap slot).workerId = target

/-- `assign_slots`, `update_multi_slot_state` -/
def updateMultiSlotState (c : ClusterConfig) (slots : List Slot) (workerId : Nat) (state : SlotState) :
    ClusterConfig :=
  { c with slotMap := fun slot => if slot ∈ slots then ⟨workerId, state⟩ else c.slotMap slot }

def updateSlotState (c : ClusterConfig) (slot : Slot) (workerId : Nat) (state : SlotState) :
    ClusterConfig :=
  c.updateMultiSlotState [slot] workerId state

/-- Slots go back to the worker they are served by. -/
def resetMultiSlotState (c : ClusterConfig) (slots : List Slot) : ClusterConfig :=
  { c with
    slotMap := fun slot =>
      if slot ∈ slots then
        if c.getState slot = .migrating then ⟨localWorkerId, .stable⟩
        else ⟨asU16 (c.getWorkerIdFromSlot slot), .stable⟩
      else c.slotMap slot }

def takeOverFromPrimary (c : ClusterConfig) : ClusterConfig :=
  (c.updateMultiSlotState c.getLocalPrimarySlots localWorkerId .stable).updateLocal fun w =>
    { w with role := .primary, replicaOfNodeId := none }

def reset (c : ClusterConfig) (newNodeId : NodeId) (configEpoch : Int64) : ClusterConfig where
  slotMap _ := .default
  workers :=
    [.unassigned,
     { c.localWorker with
       nodeid := some newNodeId, configEpoch, role := .primary, replicaOfNodeId := none,
       replicationOffset := 0 }]
  hasLocal := Nat.one_lt_two

/-- The slot after the worker at `workerId` with identity `id` has left. -/
def removeFromSlot (workers : List Worker) (workerId : Nat) (id : NodeId) (slot : HashSlot) : HashSlot :=
  if slot.state = .stable ∧ slot.workerId = workerId then ⟨reservedWorkerId, .offline⟩
  else if slot.state = .migrating ∧ slot.workerId = workerId then ⟨localWorkerId, .stable⟩
  else if slot.state = .importing ∧ nodeIdAt workers slot.workerId = some id then
    ⟨reservedWorkerId, .offline⟩
  else if workerId < slot.workerId then { slot with workerId := slot.workerId - 1 }
  else slot

/-- `none`: no local worker is left. -/
def removeWorker (c : ClusterConfig) (id : NodeId) : Option ClusterConfig :=
  match workerByNodeId c.workers id with
  | none => some c
  | some workerId =>
    if h : 1 < (c.workers.eraseIdx workerId).length then
      some
        { slotMap := fun slot => removeFromSlot c.workers workerId id (c.slotMap slot)
          workers := c.workers.eraseIdx workerId
          hasLocal := h }
    else none

end ClusterConfig

/-! ### Positions of workers -/

variable {workers : List Worker} {id : NodeId} {i : Nat}

lemma nodeIdAt_eq_some :
    nodeIdAt workers i = some id ↔ ∃ w, workers[i]? = some w ∧ w.nodeid = some id :=
  Option.bind_eq_some_iff

lemma lt_length_of_nodeIdAt (h : nodeIdAt workers i = some id) : i < workers.length := by
  obtain ⟨w, hw, -⟩ := nodeIdAt_eq_some.1 h
  exact (getElem?_eq_some_iff.1 hw).1

/-- The position found is the first one with the identity. -/
lemma workerByNodeId_eq_some :
    workerByNodeId workers id = some i ↔
      1 ≤ i ∧ nodeIdAt workers i = some id ∧ ∀ j, 1 ≤ j → j < i → nodeIdAt workers j ≠ some id := by
  have hdrop (k : Nat) : (workers.drop 1)[k]? = workers[k + 1]? := by
    rw [List.getElem?_drop, Nat.add_comm]
  rw [workerByNodeId, Option.map_eq_some_iff]
  constructor
  · rintro ⟨k, hk, rfl⟩
    obtain ⟨hlt, hid, hfirst⟩ := List.findIdx?_eq_some_iff_getElem.1 hk
    refine ⟨Nat.le_add_left 1 k, ?_, ?_⟩
    · exact nodeIdAt_eq_some.2 ⟨_, (hdrop k).symm.trans (List.getElem?_eq_getElem hlt), by simpa using hid⟩
    · intro j hj hji hjid
      obtain ⟨w, hw, hwid⟩ := nodeIdAt_eq_some.1 hjid
      obtain ⟨j, rfl⟩ := Nat.exists_eq_add_of_le' hj
      have hjk : j < k := Nat.lt_of_succ_lt_succ hji
      have hget : (workers.drop 1)[j] = w :=
        List.getElem_eq_iff (hjk.trans hlt) |>.2 ((hdrop j).trans hw)
      exact hfirst j hjk (by rw [hget]; simpa using hwid)
  · rintro ⟨hi, hid, hfirst⟩
    obtain ⟨w, hw, hwid⟩ := nodeIdAt_eq_some.1 hid
    obtain ⟨k, rfl⟩ := Nat.exists_eq_add_of_le' hi
    have hget := (hdrop k).trans hw
    obtain ⟨hlt, hget⟩ := getElem?_eq_some_iff.1 hget
    refine ⟨k, List.findIdx?_eq_some_iff_getElem.2 ⟨hlt, ?_, ?_⟩, rfl⟩
    · rw [hget]
      simpa using hwid
    · intro j hj hjid
      have hget := (hdrop j).symm.trans (List.getElem?_eq_getElem (hj.trans hlt))
      exact hfirst (j + 1) (Nat.le_add_left 1 j) (Nat.succ_lt_succ hj)
        (nodeIdAt_eq_some.2 ⟨_, hget, of_decide_eq_true hjid⟩)

lemma workerByNodeId_eq_none :
    workerByNodeId workers id = none ↔ ∀ j, 1 ≤ j → nodeIdAt workers j ≠ some id := by
  constructor
  · intro h j hj hid
    -- the least such position would have been found
    induction j using Nat.strong_induction_on with
    | _ j ih =>
      have hsome : workerByNodeId workers id = some j :=
        workerByNodeId_eq_some.2 ⟨hj, hid, fun k hk hkj hkid => ih k hkj hk hkid⟩
      rw [h] at hsome
      cases hsome
  · intro h
    cases hi : workerByNodeId workers id with
    | none => rfl
    | some i => exact absurd (workerByNodeId_eq_some.1 hi).2.1 (h i (workerByNodeId_eq_some.1 hi).1)

lemma lt_length_of_workerByNodeId (h : workerByNodeId workers id = some i) : i < workers.length :=
  lt_length_of_nodeIdAt (workerByNodeId_eq_some.1 h).2.1

/-- With fewer than 65536 workers a position fits its type. -/
lemma getWorkerIdFromNodeId_cases (hlen : workers.length < 2 ^ 16) (id : NodeId) :
    getWorkerIdFromNodeId workers id = 0 ∨
      1 ≤ getWorkerIdFromNodeId workers id ∧
        nodeIdAt workers (getWorkerIdFromNodeId workers id) = some id := by
  rw [getWorkerIdFromNodeId]
  cases hi : workerByNodeId workers id with
  | none => exact .inl rfl
  | some i =>
    obtain ⟨hpos, hid, -⟩ := workerByNodeId_eq_some.1 hi
    have hcast : asU16 i = i := Nat.mod_eq_of_lt ((lt_length_of_workerByNodeId hi).trans hlen)
    right
    rw [Option.elim_some, hcast]
    exact ⟨hpos, hid⟩

lemma getWorkerIdFromNodeId_lt (hlen : workers.length < 2 ^ 16)
    (hpos : 0 < workers.length) (id : NodeId) : getWorkerIdFromNodeId workers id < workers.length := by
  rcases getWorkerIdFromNodeId_cases hlen id with h | ⟨-, h⟩
  · rwa [h]
  · exact lt_length_of_nodeIdAt h

/-! ### Local worker -/

namespace ClusterConfig

section

variable (c : ClusterConfig)
include c

lemma getElem?_localWorker : c.workers[1]? = some c.localWorker :=
  List.getElem?_eq_getElem c.hasLocal

lemma localNodeId_eq : c.localNodeId = nodeIdAt c.workers 1 := by
  rw [nodeIdAt, c.getElem?_localWorker]
  rfl

@[simp]
lemma localWorker_updateLocal (f : Worker → Worker) :
    (c.updateLocal f).localWorker = f c.localWorker := by
  simp [localWorker, updateLocal]

lemma getElem?_updateLocal (f : Worker → Worker) (i : Nat) (hi : i ≠ 1) :
    (c.updateLocal f).workers[i]? = c.workers[i]? :=
  List.getElem?_set_ne (Ne.symm hi)

@[simp]
lemma length_workers_updateLocal (f : Worker → Worker) :
    (c.updateLocal f).workers.length = c.workers.length :=
  List.length_set

/-- An update of the local worker that keeps its identity keeps all of them. -/
lemma nodeIdAt_updateLocal {f : Worker → Worker}
    (hf : (f c.localWorker).nodeid = c.localWorker.nodeid) (i : Nat) :
    nodeIdAt (c.updateLocal f).workers i = nodeIdAt c.workers i := by
  rcases eq_or_ne i 1 with rfl | hi
  · rw [← localNodeId_eq, ← localNodeId_eq, localNodeId, localNodeId, localWorker_updateLocal, hf]
  · rw [nodeIdAt, nodeIdAt, getElem?_updateLocal c f i hi]

end

end ClusterConfig

end Wedb.Cluster
