import Wedb.Lib.Machine
import Wedb.Cluster.Merge

/-!
# Updates of the cluster configuration

The operations of the cluster manager on the configuration of its node, each under the write lock of
the configuration (`cluster_manager`, `cluster_manager_slot_state`, `cluster_manager_worker_state`),
and what holds after any sequence of them.
-/

namespace Wedb.Cluster

/-- Refused requests, with the slot and the identities the messages carry. -/
inductive Error where
  | noWorkers
  | epochNotSet
  | slotNotFree (slot : Slot)
  | slotNotLocal (slot : Slot)
  | nodeNotFound (id : NodeId)
  | cannotForgetMyself
  | cannotForgetPrimary
  | migrateToMyself
  | targetNotPrimary (id : NodeId)
  | slotNotOwned (slot : Slot)
  | slotAlreadyScheduled (slot : Slot) (id : Option NodeId)
  | inputNodeNotLocal (input : NodeId) (localId : Option NodeId)
  | localSlotAlreadyImported (slot : Slot)
  | slotNotOwnedByNode (slot : Slot) (id : NodeId)
  | importingNodeNotPrimary (role : NodeRole)
  | slotAlreadyScheduledForImport (slot : Slot) (id : NodeId)

namespace ClusterConfig

/-! ### Gossip -/

/-- `none`: there is no collision, or it is the other node that gives way. -/
def handleConfigEpochCollision (c sender : ClusterConfig) : Option ClusterConfig :=
  if c.localNodeConfigEpoch ≠ sender.localNodeConfigEpoch then none
  else if sender.localNodeId.getD 0 ≤ c.localNodeId.getD 0 then none
  else some c.bumpLocalNodeConfigEpoch

def tryMerge (c sender : ClusterConfig) (banned : NodeId → Bool) : ClusterConfig :=
  if sender.localNodeId.any banned then c
  else
    match c.merge sender banned with
    | some next => (next.handleConfigEpochCollision sender).getD next
    | none => (c.handleConfigEpochCollision sender).getD c

/-! ### Slots -/

def refuseIf (p : Prop) [Decidable p] (error : Error) : Except Error Unit :=
  if p then .error error else .ok ()

/-- The first slot of a set that fails a check. -/
def checkSlots (slots : List Slot) (check : Slot → Option Error) : Except Error Unit :=
  match slots.findSome? check with
  | some error => .error error
  | none => .ok ()

def tryAddSlots (c : ClusterConfig) (slots : List Slot) : Except Error ClusterConfig := do
  refuseIf (c.numWorkers = 0) .noWorkers
  checkSlots slots fun slot => if (c.slotMap slot).workerId ≠ 0 then some (.slotNotFree slot) else none
  return c.updateMultiSlotState slots localWorkerId .stable

def tryRemoveSlots (c : ClusterConfig) (slots : List Slot) : Except Error ClusterConfig := do
  refuseIf (c.numWorkers = 0) .noWorkers
  checkSlots slots fun slot => if (c.slotMap slot).workerId = 0 then some (.slotNotLocal slot) else none
  return (c.updateMultiSlotState slots 0 .offline).bumpLocalNodeConfigEpoch

/-- `try_prepare_slots_for_migration`, and for one slot `try_prepare_slot_for_migration` -/
def tryPrepareSlotsForMigration (c : ClusterConfig) (slots : List Slot) (id : NodeId) :
    Except Error ClusterConfig := do
  let migratingWorkerId := getWorkerIdFromNodeId c.workers id
  refuseIf (migratingWorkerId = 0) (.nodeNotFound id)
  refuseIf (c.localNodeId = some id) .migrateToMyself
  refuseIf (c.getNodeRoleFromNodeId id ≠ .primary) (.targetNotPrimary id)
  checkSlots slots fun slot =>
    if !c.isLocal slot false then some (.slotNotOwned slot)
    else if c.getState slot ≠ .stable then some (.slotAlreadyScheduled slot (c.getNodeIdFromSlot slot))
    else none
  return c.updateMultiSlotState slots migratingWorkerId .migrating

/-- `try_prepare_slots_for_import`, and for one slot `try_prepare_slot_for_import` -/
def tryPrepareSlotsForImport (c : ClusterConfig) (slots : List Slot) (id : NodeId) :
    Except Error ClusterConfig := do
  let importingWorkerId := getWorkerIdFromNodeId c.workers id
  refuseIf (importingWorkerId = 0) (.nodeNotFound id)
  refuseIf (c.localNodeRole ≠ .primary) (.importingNodeNotPrimary c.localNodeRole)
  checkSlots slots fun slot =>
    if c.isLocal slot false then some (.localSlotAlreadyImported slot)
    else if c.getNodeIdFromSlot slot ≠ some id then some (.slotNotOwnedByNode slot id)
    else if c.getState slot ≠ .stable then some (.slotAlreadyScheduledForImport slot id)
    else none
  return c.updateMultiSlotState slots importingWorkerId .importing

def tryPrepareSlotForOwnershipChange (c : ClusterConfig) (slot : Slot) (id : NodeId) :
    Except Error ClusterConfig := do
  let workerId := getWorkerIdFromNodeId c.workers id
  refuseIf (workerId = 0) (.nodeNotFound id)
  match c.getState slot with
  | .importing =>
    refuseIf (c.localNodeId ≠ some id) (.inputNodeNotLocal id c.localNodeId)
    return (c.updateSlotState slot localWorkerId .stable).bumpLocalNodeConfigEpoch
  | _ => return c.updateSlotState slot workerId .stable

def tryPrepareSlotsForOwnershipChange (c : ClusterConfig) (slots : List Slot) (id : NodeId) :
    Except Error ClusterConfig := do
  let workerId := getWorkerIdFromNodeId c.workers id
  refuseIf (workerId = 0) (.nodeNotFound id)
  let next := c.updateMultiSlotState slots workerId .stable
  return if c.localNodeId = some id then next.bumpLocalNodeConfigEpoch else next

def tryResetSlotState (c : ClusterConfig) (slot : Slot) : ClusterConfig :=
  match c.getState slot with
  | .migrating => c.updateSlotState slot localWorkerId .stable
  | .importing => c.updateSlotState slot (asU16 (c.getWorkerIdFromSlot slot)) .stable
  | _ => c

/-! ### Roles -/

/-- A replica of an unknown node sends the slots to the reserved worker. -/
def tryStopWrites (c : ClusterConfig) (replicaId : NodeId) : ClusterConfig :=
  (c.makeReplicaOf (some replicaId)).updateMultiSlotState (c.getSlotList localWorkerId)
    (getWorkerIdFromNodeId c.workers replicaId) .stable

def tryResetReplica (c : ClusterConfig) : ClusterConfig :=
  ((c.makeReplicaOf none).setLocalWorkerRole .primary).bumpLocalNodeConfigEpoch

/-- What `try_restore_stop_writes` does once it has taken the flag of `try_stop_writes`. -/
def tryRestoreStopWrites (c : ClusterConfig) : ClusterConfig :=
  match c.localNodePrimaryId with
  | none => c
  | some primaryId =>
    let slots := c.getSlotList (getWorkerIdFromNodeId c.workers primaryId)
    (c.updateMultiSlotState slots localWorkerId .stable).tryResetReplica

def tryTakeOverForPrimary (c : ClusterConfig) : ClusterConfig :=
  if !c.isReplica || c.localNodePrimaryId.isNone then c
  else c.takeOverFromPrimary.bumpLocalNodeConfigEpoch

/-- What `try_add_replica_async` does after its checks. -/
def addReplica (c : ClusterConfig) (id : NodeId) : ClusterConfig :=
  (c.makeReplicaOf (some id)).bumpLocalNodeConfigEpoch

/-! ### Workers -/

def tryRemoveWorker (c : ClusterConfig) (id : NodeId) : Except Error ClusterConfig := do
  refuseIf (c.localNodeId = some id) .cannotForgetMyself
  refuseIf (c.getNodeRoleFromNodeId id = .unassigned) (.nodeNotFound id)
  refuseIf (c.localNodeRole = .replica ∧ c.localNodePrimaryId = some id) .cannotForgetPrimary
  return (c.removeWorker id).getD c

/-- What `try_reset` does after it has found no keys: a hard reset takes a new identity. -/
def tryReset (c : ClusterConfig) (soft : Bool) (newNodeId : NodeId) : ClusterConfig :=
  if soft then c.reset (c.localNodeId.getD 0) c.localNodeConfigEpoch else c.reset newNodeId 0

def trySetLocalConfigEpoch (c : ClusterConfig) (epoch : Int64) : Except Error ClusterConfig := do
  refuseIf (c.numWorkers = 0) .noWorkers
  match c.setLocalWorkerConfigEpoch epoch with
  | some next => return next
  | none => throw .epochNotSet

end ClusterConfig

open ClusterConfig

/-- The configuration of a node, and the identity it was last given. -/
structure Manager where
  config : ClusterConfig
  localId : NodeId

inductive Action where
  | tryMerge (sender : ClusterConfig) (banned : NodeId → Bool)
  | tryAddSlots (slots : List Slot)
  | tryRemoveSlots (slots : List Slot)
  | tryPrepareSlotsForMigration (slots : List Slot) (id : NodeId)
  | tryPrepareSlotsForImport (slots : List Slot) (id : NodeId)
  | tryPrepareSlotForOwnershipChange (slot : Slot) (id : NodeId)
  | tryPrepareSlotsForOwnershipChange (slots : List Slot) (id : NodeId)
  | tryResetSlotState (slot : Slot)
  | tryResetSlotsState (slots : List Slot)
  | tryStopWrites (replicaId : NodeId)
  | tryRestoreStopWrites
  | tryTakeOverForPrimary
  | tryAddReplica (id : NodeId)
  | tryResetReplica
  | tryRemoveWorker (id : NodeId)
  | tryReset (soft : Bool) (newNodeId : NodeId)
  | trySetLocalConfigEpoch (epoch : Int64)
  | tryBumpClusterEpoch
  | lazyUpdateLocalReplicationOffset (offset : Int64)

/-- A refused request leaves the configuration as it is. -/
def orUnchanged (c : ClusterConfig) : Except Error ClusterConfig → ClusterConfig
  | .ok next => next
  | .error _ => c

def configAfter (c : ClusterConfig) : Action → ClusterConfig
  | .tryMerge sender banned => c.tryMerge sender banned
  | .tryAddSlots slots => orUnchanged c (c.tryAddSlots slots)
  | .tryRemoveSlots slots => orUnchanged c (c.tryRemoveSlots slots)
  | .tryPrepareSlotsForMigration slots id => orUnchanged c (c.tryPrepareSlotsForMigration slots id)
  | .tryPrepareSlotsForImport slots id => orUnchanged c (c.tryPrepareSlotsForImport slots id)
  | .tryPrepareSlotForOwnershipChange slot id => orUnchanged c (c.tryPrepareSlotForOwnershipChange slot id)
  | .tryPrepareSlotsForOwnershipChange slots id =>
    orUnchanged c (c.tryPrepareSlotsForOwnershipChange slots id)
  | .tryResetSlotState slot => c.tryResetSlotState slot
  | .tryResetSlotsState slots => c.resetMultiSlotState slots
  | .tryStopWrites replicaId => c.tryStopWrites replicaId
  | .tryRestoreStopWrites => c.tryRestoreStopWrites
  | .tryTakeOverForPrimary => c.tryTakeOverForPrimary
  | .tryAddReplica id => c.addReplica id
  | .tryResetReplica => c.tryResetReplica
  | .tryRemoveWorker id => orUnchanged c (c.tryRemoveWorker id)
  | .tryReset soft newNodeId => c.tryReset soft newNodeId
  | .trySetLocalConfigEpoch epoch => orUnchanged c (c.trySetLocalConfigEpoch epoch)
  | .tryBumpClusterEpoch => c.bumpLocalNodeConfigEpoch
  | .lazyUpdateLocalReplicationOffset offset => c.lazyUpdateLocalReplicationOffset offset

def step (m : Manager) (a : Action) : Option Manager :=
  some
    { config := configAfter m.config a
      localId :=
        match a with
        | .tryReset false newNodeId => newNodeId
        | _ => m.localId }

def start (spec : LocalWorkerSpec) : Manager :=
  ⟨ClusterConfig.new.initializeLocalWorker spec, spec.nodeId⟩

/-- The configuration has fewer than 65536 workers after the step. -/
def fewWorkers (m : Manager) (a : Action) : Bool :=
  (configAfter m.config a).workers.length < 2 ^ 16

/-- Slots name workers that exist, no two workers share an identity, the local worker has the identity
of the node, and a worker can be removed without a change to the slots of others. -/
structure Integrity (localId : NodeId) (c : ClusterConfig) : Prop where
  raw_lt : ∀ slot, (c.slotMap slot).workerId < c.workers.length
  eff_lt : ∀ slot, (c.slotMap slot).effWorkerId < c.workers.length
  distinct : ∀ i j id, nodeIdAt c.workers i = some id → nodeIdAt c.workers j = some id → i = j
  local_id : c.localNodeId = some localId
  remove : ∀ id, id ≠ localId → ∃ c', c.removeWorker id = some c' ∧
    ∀ slot, c.getOwnerIdFromSlot slot ≠ some id →
      c'.getNodeIdFromSlot slot = c.getNodeIdFromSlot slot ∧
      c'.getOwnerIdFromSlot slot = c.getOwnerIdFromSlot slot

/-! ### Identities -/

/-- The reserved worker is nameless, the local one has its identity, and identities are distinct. -/
structure Identities (localId : NodeId) (workers : List Worker) : Prop where
  reserved : nodeIdAt workers 0 = none
  local_id : nodeIdAt workers 1 = some localId
  distinct : ∀ {i j id}, nodeIdAt workers i = some id → nodeIdAt workers j = some id → i = j

variable {id : NodeId} {banned : NodeId → Bool}

section Identities

variable {localId : NodeId} {workers workers' : List Worker}

section

variable (h : Identities localId workers)
include h

lemma Identities.congr
    (hids : ∀ i, nodeIdAt workers' i = nodeIdAt workers i) : Identities localId workers' where
  reserved := by rw [hids, h.reserved]
  local_id := by rw [hids, h.local_id]
  distinct hi hj := by
    rw [hids] at hi hj
    exact h.distinct hi hj

lemma Identities.one_lt_length : 1 < workers.length := lt_length_of_nodeIdAt h.local_id

/-- A worker joins whose identity nobody has. -/
lemma Identities.append {w : Worker}
    (hid : w.nodeid = some id) (hnone : workerByNodeId workers id = none) :
    Identities localId (workers ++ [w]) := by
  have hpos : 0 < workers.length := Nat.zero_lt_of_lt h.one_lt_length
  have hold {i : Nat} (hi : i < workers.length) : nodeIdAt (workers ++ [w]) i = nodeIdAt workers i :=
    nodeIdAt_append_of_lt hi _
  -- nobody has the identity of the newcomer, the reserved worker having none at all
  have hnew {i : Nat} (hi : nodeIdAt workers i = some id) : False := by
    rcases Nat.eq_zero_or_pos i with rfl | hipos
    · rw [h.reserved] at hi
      cases hi
    · exact workerByNodeId_eq_none.1 hnone i hipos hi
  have hcases {i : Nat} {id' : NodeId} (hi : nodeIdAt (workers ++ [w]) i = some id') :
      nodeIdAt workers i = some id' ∨ i = workers.length ∧ id' = id := by
    rcases lt_or_ge i workers.length with hlt | hge
    · exact .inl (by rwa [hold hlt] at hi)
    · have hlt := lt_length_of_nodeIdAt hi
      rw [List.length_append, List.length_singleton] at hlt
      obtain rfl : i = workers.length := by omega
      rw [nodeIdAt, List.getElem?_concat_length, Option.bind_some, hid] at hi
      exact .inr ⟨rfl, (Option.some.inj hi).symm⟩
  refine ⟨by rw [hold hpos, h.reserved], by rw [hold h.one_lt_length, h.local_id], fun {i j id'} hi hj => ?_⟩
  rcases hcases hi with hi | ⟨hi, hid⟩ <;> rcases hcases hj with hj | ⟨hj, hjd⟩
  · exact h.distinct hi hj
  · exact (hnew (hjd ▸ hi)).elim
  · exact (hnew (hid ▸ hj)).elim
  · rw [hi, hj]

lemma Identities.mergeEntry {entry : Worker × Nat}
    (he : mergeEntry (some localId) banned workers entry = some workers') : Identities localId workers' := by
  cases Renewal.of_mergeEntry he with
  | append hid _ hnone => exact h.append hid hnone
  | renew _ _ _ hknown _ hsame => exact h.congr (nodeIdAt_set hknown hsame)

omit h in
lemma Identities.mergeEntries (banned : NodeId → Bool) (acc : List Worker × Bool)
    (h : Identities localId acc.1) (entries : List (Worker × Nat)) :
    Identities localId (mergeEntries (some localId) banned acc entries).1 := by
  induction entries generalizing acc with
  | nil => exact h
  | cons entry entries ih =>
    rw [Cluster.mergeEntries, List.foldl_cons]
    cases he : Cluster.mergeEntry (some localId) banned acc.1 entry with
    | none => exact ih acc h
    | some workers' => exact ih (workers', true) (h.mergeEntry he)

omit h in
lemma nodeIdAt_eraseIdx (workers : List Worker) (i j : Nat) :
    nodeIdAt (workers.eraseIdx i) j = nodeIdAt workers (if j < i then j else j + 1) := by
  rw [nodeIdAt, List.getElem?_eraseIdx]
  split <;> rfl

lemma Identities.eraseIdx {i : Nat} (hi : 1 < i) : Identities localId (workers.eraseIdx i) where
  reserved := by rw [nodeIdAt_eraseIdx, if_pos (by omega), h.reserved]
  local_id := by rw [nodeIdAt_eraseIdx, if_pos hi, h.local_id]
  distinct {j k id} hj hk := by
    rw [nodeIdAt_eraseIdx] at hj hk
    have heq := h.distinct hj hk
    split_ifs at heq <;> omega

end

end Identities

/-! ### Slots -/

/-- A slot is free or names one of `n` workers. -/
def HashSlot.Names (slot : HashSlot) (n : Nat) : Prop :=
  slot.workerId < n ∧
    (slot.workerId = reservedWorkerId ∧ slot.state = .offline ∨
      slot.state = .stable ∨ slot.state = .migrating ∨ slot.state = .importing)

lemma HashSlot.Names.stable {i n : Nat} (h : i < n) : HashSlot.Names ⟨i, .stable⟩ n :=
  ⟨h, .inr (.inl rfl)⟩

lemma HashSlot.Names.free {n : Nat} (h : 0 < n) : HashSlot.Names ⟨reservedWorkerId, .offline⟩ n :=
  ⟨h, .inl ⟨rfl, rfl⟩⟩

variable {slot : HashSlot}

lemma HashSlot.Names.effWorkerId_lt {n : Nat} (h : slot.Names n) (hn : 1 < n) :
    slot.effWorkerId < n := by
  unfold effWorkerId
  split
  · exact hn
  · exact h.1

structure Inv (localId : NodeId) (c : ClusterConfig) : Prop where
  ids : Identities localId c.workers
  slots : ∀ slot, (c.slotMap slot).Names c.workers.length

variable {workers : List Worker} {sender : ClusterConfig}

section Operations

variable {localId : NodeId} {c : ClusterConfig}

section

variable (h : Inv localId c)
include h

lemma Inv.local_eq : c.localNodeId = some localId := by
  rw [localNodeId_eq, h.ids.local_id]

omit h in
lemma Inv.pos (_ : Inv localId c) : 0 < c.workers.length := Nat.zero_lt_of_lt c.hasLocal

lemma Inv.updateLocal {f : Worker → Worker} (hf : ∀ w, (f w).nodeid = w.nodeid) :
    Inv localId (c.updateLocal f) where
  ids := h.ids.congr (c.nodeIdAt_updateLocal (hf _))
  slots slot := by
    rw [length_workers_updateLocal]
    exact h.slots slot

lemma Inv.bump : Inv localId c.bumpLocalNodeConfigEpoch := h.updateLocal fun _ => rfl

lemma Inv.lazyUpdateLocalReplicationOffset (offset : Int64) :
    Inv localId (c.lazyUpdateLocalReplicationOffset offset) :=
  h.updateLocal fun _ => rfl

lemma Inv.setEpoch (epoch : Int64) :
    Inv localId (c.updateLocal fun w => { w with configEpoch := epoch }) :=
  h.updateLocal fun _ => rfl

lemma Inv.makeReplicaOf (id : Option NodeId) : Inv localId (c.makeReplicaOf id) :=
  h.updateLocal fun _ => rfl

lemma Inv.tryResetReplica : Inv localId c.tryResetReplica :=
  Inv.bump (Inv.updateLocal (h.makeReplicaOf none) fun _ => rfl)

end

variable {workerId : Nat}

section

variable (h : Inv localId c)
include h

lemma Inv.updateMultiSlotState (slots : List Slot) {state : SlotState}
    (hnames : HashSlot.Names ⟨workerId, state⟩ c.workers.length) :
    Inv localId (c.updateMultiSlotState slots workerId state) where
  ids := h.ids
  slots slot := by
    dsimp only [ClusterConfig.updateMultiSlotState]
    split
    · exact hnames
    · exact h.slots slot

lemma Inv.assignLocal (slots : List Slot) :
    Inv localId (c.updateMultiSlotState slots localWorkerId .stable) :=
  h.updateMultiSlotState slots (.stable c.hasLocal)

/-- The position of a worker that is read back from a slot. -/
lemma Inv.eff_lt (slot : Slot) : asU16 (c.getWorkerIdFromSlot slot) < c.workers.length :=
  (Nat.mod_le _ _).trans_lt ((h.slots slot).effWorkerId_lt c.hasLocal)

lemma Inv.resetMultiSlotState (slots : List Slot) : Inv localId (c.resetMultiSlotState slots) where
  ids := h.ids
  slots slot := by
    dsimp only [ClusterConfig.resetMultiSlotState]
    split_ifs
    · exact .stable c.hasLocal
    · exact .stable (h.eff_lt slot)
    · exact h.slots slot

lemma Inv.tryResetSlotState (slot : Slot) : Inv localId (c.tryResetSlotState slot) := by
  unfold ClusterConfig.tryResetSlotState
  split
  · exact h.assignLocal [slot]
  · exact h.updateMultiSlotState [slot] (.stable (h.eff_lt slot))
  · exact h

lemma Inv.tryTakeOverForPrimary : Inv localId c.tryTakeOverForPrimary := by
  unfold ClusterConfig.tryTakeOverForPrimary
  split
  · exact h
  · exact bump (updateLocal (h.assignLocal c.getLocalPrimarySlots) fun _ => rfl)

lemma Inv.tryRestoreStopWrites : Inv localId c.tryRestoreStopWrites := by
  unfold ClusterConfig.tryRestoreStopWrites
  split
  · exact h
  · exact (h.assignLocal _).tryResetReplica

lemma Inv.tryStopWrites (hlen : c.workers.length < 2 ^ 16) (replicaId : NodeId) :
    Inv localId (c.tryStopWrites replicaId) := by
  refine (h.makeReplicaOf (some replicaId)).updateMultiSlotState _ (.stable ?_)
  rw [ClusterConfig.makeReplicaOf, length_workers_updateLocal]
  exact getWorkerIdFromNodeId_lt hlen h.pos replicaId

lemma Inv.tryReset (soft : Bool) (newNodeId : NodeId) :
    Inv (if soft then localId else newNodeId) (c.tryReset soft newNodeId) := by
  have hreset (id : NodeId) (epoch : Int64) : Inv id (c.reset id epoch) := by
    refine ⟨⟨rfl, rfl, fun {i j id'} hi hj => ?_⟩, fun _ => .free Nat.two_pos⟩
    have hone {k : Nat} (hk : nodeIdAt (c.reset id epoch).workers k = some id') : k = 1 := by
      have hlt : k < 2 := lt_length_of_nodeIdAt hk
      match k, hlt with
      | 0, _ => cases hk
      | 1, _ => rfl
    rw [hone hi, hone hj]
  cases soft with
  | true =>
    have hreset := hreset localId c.localNodeConfigEpoch
    rwa [ClusterConfig.tryReset, h.local_eq]
  | false => exact hreset newNodeId 0

end

/-! #### Refused requests -/

lemma orUnchanged_bind {α : Type} {P : ClusterConfig → Prop} (hc : P c) {x : Except Error α}
    {f : α → Except Error ClusterConfig} (h : ∀ a, x = .ok a → P (orUnchanged c (f a))) :
    P (orUnchanged c (x >>= f)) := by
  cases x with
  | error => exact hc
  | ok a => exact h a rfl

lemma not_of_refuseIf {p : Prop} [Decidable p] {e : Error} {u : Unit} (h : refuseIf p e = .ok u) : ¬ p := by
  intro hp
  rw [refuseIf, if_pos hp] at h
  cases h

section

variable (h : Inv localId c)
include h

lemma Inv.tryAddSlots (slots : List Slot) : Inv localId (orUnchanged c (c.tryAddSlots slots)) := by
  refine orUnchanged_bind h fun _ _ => orUnchanged_bind h fun _ _ => ?_
  exact h.assignLocal slots

lemma Inv.tryRemoveSlots (slots : List Slot) :
    Inv localId (orUnchanged c (c.tryRemoveSlots slots)) := by
  refine orUnchanged_bind h fun _ _ => orUnchanged_bind h fun _ _ => ?_
  exact bump (h.updateMultiSlotState slots (.free h.pos))

section

variable (hlen : c.workers.length < 2 ^ 16)
include hlen

lemma Inv.tryPrepareSlotsForMigration (slots : List Slot) (id : NodeId) :
    Inv localId (orUnchanged c (c.tryPrepareSlotsForMigration slots id)) := by
  refine orUnchanged_bind h fun _ _ => orUnchanged_bind h fun _ _ => orUnchanged_bind h fun _ _ =>
    orUnchanged_bind h fun _ _ => ?_
  exact h.updateMultiSlotState slots ⟨getWorkerIdFromNodeId_lt hlen h.pos id, .inr (.inr (.inl rfl))⟩

lemma Inv.tryPrepareSlotsForImport (slots : List Slot) (id : NodeId) :
    Inv localId (orUnchanged c (c.tryPrepareSlotsForImport slots id)) := by
  refine orUnchanged_bind h fun _ _ => orUnchanged_bind h fun _ _ => orUnchanged_bind h fun _ _ => ?_
  exact h.updateMultiSlotState slots ⟨getWorkerIdFromNodeId_lt hlen h.pos id, .inr (.inr (.inr rfl))⟩

lemma Inv.tryPrepareSlotForOwnershipChange (slot : Slot) (id : NodeId) :
    Inv localId (orUnchanged c (c.tryPrepareSlotForOwnershipChange slot id)) := by
  refine orUnchanged_bind h fun _ _ => ?_
  split
  · refine orUnchanged_bind h fun _ _ => ?_
    exact (h.assignLocal [slot]).bump
  · exact h.updateMultiSlotState [slot] (.stable (getWorkerIdFromNodeId_lt hlen h.pos id))

lemma Inv.tryPrepareSlotsForOwnershipChange (slots : List Slot) (id : NodeId) :
    Inv localId (orUnchanged c (c.tryPrepareSlotsForOwnershipChange slots id)) := by
  have hnext := h.updateMultiSlotState slots (.stable (getWorkerIdFromNodeId_lt hlen h.pos id))
  refine orUnchanged_bind h fun _ _ => ?_
  split
  · exact hnext.bump
  · exact hnext

end

lemma Inv.trySetLocalConfigEpoch (epoch : Int64) :
    Inv localId (orUnchanged c (c.trySetLocalConfigEpoch epoch)) := by
  refine orUnchanged_bind h fun _ _ => ?_
  split
  · next next hset =>
    unfold setLocalWorkerConfigEpoch at hset
    split at hset
    · cases hset
      exact h.setEpoch epoch
    · cases hset
  · exact h

end

/-! #### Gossip -/

lemma Inv.merge (h : Inv localId c) {c' : ClusterConfig}
    (hlen : c'.workers.length < 2 ^ 16) (hm : c.merge sender banned = some c') : Inv localId c' := by
  obtain ⟨hworkers, hslots⟩ := merge_eq_some hm
  have hle : c.workers.length ≤ c'.workers.length := by
    rw [hworkers]
    exact (c.grows_mergedWorkers sender banned).length_le
  refine ⟨?_, fun slot => ?_⟩
  · have hids := Identities.mergeEntries banned (c.workers, false) h.ids (sender.workers.zipIdx.drop 1)
    rwa [hworkers, mergedWorkers, h.local_eq]
  · rw [hslots]
    rcases mergeSlotMap_cases hlen c.slotMap sender slot with hs | hs | ⟨i, id, hs, hat, -⟩
    · rw [hs]
      exact ⟨(h.slots slot).1.trans_le hle, (h.slots slot).2⟩
    · rw [hs]
      exact .free (h.pos.trans_le hle)
    · rw [hs]
      exact .stable (lt_length_of_nodeIdAt hat)

lemma Inv.collision (h : Inv localId c) (sender : ClusterConfig) :
    Inv localId ((c.handleConfigEpochCollision sender).getD c) := by
  unfold handleConfigEpochCollision
  split_ifs
  · exact h
  · exact h
  · exact h.bump

lemma length_workers_collision (c sender : ClusterConfig) :
    ((c.handleConfigEpochCollision sender).getD c).workers.length = c.workers.length := by
  unfold handleConfigEpochCollision
  split_ifs
  · rfl
  · rfl
  · change c.bumpLocalNodeConfigEpoch.workers.length = c.workers.length
    exact length_workers_updateLocal _ _

lemma Inv.tryMerge (h : Inv localId c)
    (hlen : (c.tryMerge sender banned).workers.length < 2 ^ 16) : Inv localId (c.tryMerge sender banned) := by
  unfold ClusterConfig.tryMerge at hlen ⊢
  split
  · exact h
  next hbanned =>
  rw [if_neg hbanned] at hlen
  split at hlen
  · next next hm =>
    rw [length_workers_collision] at hlen
    exact (h.merge hlen hm).collision sender
  · exact h.collision sender

/-! #### Removal -/

/-- A slot that names another worker follows it to its new position. -/
lemma nodeIdAt_removeFromSlot
    (hat : nodeIdAt workers workerId = some id) (hother : nodeIdAt workers slot.workerId ≠ some id) :
    (removeFromSlot workers workerId id slot).state = slot.state ∧
      nodeIdAt (workers.eraseIdx workerId) (removeFromSlot workers workerId id slot).workerId =
        nodeIdAt workers slot.workerId := by
  have hne : slot.workerId ≠ workerId := by
    intro heq
    rw [heq] at hother
    exact hother hat
  simp only [removeFromSlot, hne, hother, and_false, if_false]
  rcases lt_or_ge workerId slot.workerId with hlt | hge
  · rw [if_pos hlt, nodeIdAt_eraseIdx, if_neg (by dsimp only; omega)]
    exact ⟨rfl, congrArg _ (by dsimp only; omega)⟩
  · rw [if_neg (by omega), nodeIdAt_eraseIdx, if_pos (by omega)]
    exact ⟨rfl, rfl⟩

lemma removeFromSlot_names
    (hslot : slot.Names workers.length) (hat : nodeIdAt workers workerId = some id) (hi : 1 < workerId) :
    (removeFromSlot workers workerId id slot).Names (workers.eraseIdx workerId).length := by
  have hlt := lt_length_of_nodeIdAt hat
  have hlen := List.length_eraseIdx_of_lt hlt
  obtain ⟨hname, hstate⟩ := hslot
  unfold removeFromSlot
  split_ifs with hstable hmigrating himporting hafter
  · exact .free (by omega)
  · exact .stable (show 1 < _ by omega)
  · exact .free (by omega)
  · exact ⟨by dsimp only; omega, hstate.imp_left fun h => absurd h.1 (by simp [reservedWorkerId]; omega)⟩
  · -- a slot that names the worker is free or in one of the three states
    have hne : slot.workerId ≠ workerId := by
      rintro heq
      rcases hstate with ⟨hzero, -⟩ | hs | hs | hs
      · rw [reservedWorkerId] at hzero
        omega
      · exact hstable ⟨hs, heq⟩
      · exact hmigrating ⟨hs, heq⟩
      · exact himporting ⟨hs, heq ▸ hat⟩
    exact ⟨by omega, hstate⟩

/-- The worker that leaves is not the local one. -/
lemma Inv.one_lt_of_workerByNodeId (h : Inv localId c) (hid : id ≠ localId) {i : Nat}
    (hi : workerByNodeId c.workers id = some i) : 1 < i := by
  obtain ⟨hpos, hat, -⟩ := workerByNodeId_eq_some.1 hi
  refine lt_of_le_of_ne hpos ?_
  rintro rfl
  exact hid (Option.some.inj (hat.symm.trans h.ids.local_id))

lemma Inv.removeWorker (h : Inv localId c) (hid : id ≠ localId) :
    ∃ c', c.removeWorker id = some c' ∧ Inv localId c' ∧ c'.workers.length ≤ c.workers.length ∧
      ∀ slot, c.getOwnerIdFromSlot slot ≠ some id →
        c'.getNodeIdFromSlot slot = c.getNodeIdFromSlot slot ∧
        c'.getOwnerIdFromSlot slot = c.getOwnerIdFromSlot slot := by
  unfold ClusterConfig.removeWorker
  cases hi : workerByNodeId c.workers id with
  | none => exact ⟨c, rfl, h, le_rfl, fun _ _ => ⟨rfl, rfl⟩⟩
  | some =>
    have hone := h.one_lt_of_workerByNodeId hid hi
    have hat := (workerByNodeId_eq_some.1 hi).2.1
    have hlen := List.length_eraseIdx_of_lt (lt_length_of_nodeIdAt hat)
    have hids := h.ids.eraseIdx hone
    refine ⟨_, dif_pos hids.one_lt_length, ⟨hids, fun slot => removeFromSlot_names (h.slots slot) hat hone⟩,
      by simp only [hlen]; omega, fun slot hother => ?_⟩
    obtain ⟨hstate, hraw⟩ := nodeIdAt_removeFromSlot hat hother
    refine ⟨?_, hraw⟩
    simp only [getNodeIdFromSlot, getWorkerIdFromSlot, HashSlot.effWorkerId, hstate]
    split
    · rw [localWorkerId, hids.local_id, h.ids.local_id]
    · exact hraw

lemma Inv.tryRemoveWorker (h : Inv localId c) (id : NodeId) :
    Inv localId (orUnchanged c (c.tryRemoveWorker id)) := by
  refine orUnchanged_bind h fun _ hself => orUnchanged_bind h fun _ _ => orUnchanged_bind h fun _ _ => ?_
  have hid : id ≠ localId := by
    rintro rfl
    exact not_of_refuseIf hself h.local_eq
  obtain ⟨c', hc', hinv, -⟩ := h.removeWorker hid
  rwa [hc']

end Operations

/-! ### Runs -/

/-- One operation keeps the invariant, under the identity the node has afterwards. -/
lemma Inv.step {m m' : Manager} {a : Action} (h : Inv m.localId m.config) (hlen : m.config.workers.length < 2 ^ 16)
    (hfew : fewWorkers m a = true) (hs : step m a = some m') : Inv m'.localId m'.config := by
  cases hs
  have hafter := of_decide_eq_true hfew
  cases a with
  | tryMerge => exact h.tryMerge hafter
  | tryAddSlots slots => exact h.tryAddSlots slots
  | tryRemoveSlots slots => exact h.tryRemoveSlots slots
  | tryPrepareSlotsForMigration slots id => exact h.tryPrepareSlotsForMigration hlen slots id
  | tryPrepareSlotsForImport slots id => exact h.tryPrepareSlotsForImport hlen slots id
  | tryPrepareSlotForOwnershipChange slot id => exact h.tryPrepareSlotForOwnershipChange hlen slot id
  | tryPrepareSlotsForOwnershipChange slots id => exact h.tryPrepareSlotsForOwnershipChange hlen slots id
  | tryResetSlotState slot => exact h.tryResetSlotState slot
  | tryResetSlotsState slots => exact h.resetMultiSlotState slots
  | tryStopWrites replicaId => exact h.tryStopWrites hlen replicaId
  | tryRestoreStopWrites => exact h.tryRestoreStopWrites
  | tryTakeOverForPrimary => exact h.tryTakeOverForPrimary
  | tryAddReplica id => exact (h.makeReplicaOf (some id)).bump
  | tryResetReplica => exact h.tryResetReplica
  | tryRemoveWorker id => exact h.tryRemoveWorker id
  | tryReset soft newNodeId =>
    have hreset := h.tryReset soft newNodeId
    cases soft <;> exact hreset
  | trySetLocalConfigEpoch epoch => exact h.trySetLocalConfigEpoch epoch
  | tryBumpClusterEpoch => exact h.bump
  | lazyUpdateLocalReplicationOffset offset => exact h.lazyUpdateLocalReplicationOffset offset

lemma inv_start (spec : LocalWorkerSpec) : Inv (start spec).localId (start spec).config := by
  refine ⟨⟨rfl, rfl, fun {i j id} hi hj => ?_⟩, fun _ => .free Nat.two_pos⟩
  have hone {k : Nat} (hk : nodeIdAt (start spec).config.workers k = some id) : k = 1 := by
    have hlt : k < 2 := lt_length_of_nodeIdAt hk
    match k, hlt with
    | 0, _ => cases hk
    | 1, _ => rfl
  rw [hone hi, hone hj]

lemma Inv.integrity {localId : NodeId} {c : ClusterConfig} (h : Inv localId c) : Integrity localId c where
  raw_lt slot := (h.slots slot).1
  eff_lt slot := (h.slots slot).effWorkerId_lt c.hasLocal
  distinct _ _ _ hi hj := h.ids.distinct hi hj
  local_id := h.local_eq
  remove _ hid := by
    obtain ⟨c', hc', -, -, hkeep⟩ := h.removeWorker hid
    exact ⟨c', hc', hkeep⟩

/-- Whatever a node hears and is told to do, its configuration stays intact. -/
theorem integrity_of_reaches (spec : LocalWorkerSpec) {m : Manager}
    (h : Machine.Reaches step (fun m a => fewWorkers m a = true) (start spec) m) :
    Integrity m.localId m.config := by
  refine Inv.integrity (And.left (h.invariant
    (I := fun m => Inv m.localId m.config ∧ m.config.workers.length < 2 ^ 16) ?_ ?_))
  · exact ⟨inv_start spec, show (2 : Nat) < 2 ^ 16 by decide⟩
  · rintro m m' a ⟨hinv, hlen⟩ hfew hs
    refine ⟨hinv.step hlen hfew hs, ?_⟩
    cases hs
    exact of_decide_eq_true hfew

/-- A node that takes two slots, gives one up, and cannot move the other to a node it does not know. -/
theorem integrity_two_slots :
    ∃ m, Machine.Reaches step (fun m a => fewWorkers m a = true)
        (start ⟨5, "10.0.0.5", 6379, 1, .primary, none, none⟩) m ∧
      m.config.slotMap ⟨7, by decide⟩ = ⟨1, .stable⟩ ∧ Integrity m.localId m.config := by
  obtain ⟨m, hreach, hslot⟩ := Machine.exists_reaches_of_run step (fun m a => fewWorkers m a = true)
    (start ⟨5, "10.0.0.5", 6379, 1, .primary, none, none⟩)
    [.tryAddSlots [⟨7, by decide⟩, ⟨8, by decide⟩], .tryRemoveSlots [⟨8, by decide⟩],
      .tryPrepareSlotsForMigration [⟨7, by decide⟩] 6, .tryBumpClusterEpoch]
    (fun m => m.config.slotMap ⟨7, by decide⟩) ⟨1, .stable⟩ (by decide +kernel)
  exact ⟨m, hreach, hslot, integrity_of_reaches _ hreach⟩

end Wedb.Cluster
