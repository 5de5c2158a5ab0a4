import Wedb.Cluster.Config

/-!
# Merging a configuration that was heard of

A node merges the configuration another node sends (`ClusterConfig::merge`): first the workers, of
which a higher epoch wins, then the slots, which only their sender can claim.
-/

namespace Wedb.Cluster

open List

def sameEndpoint (a b : Worker) : Bool :=
  a.address = b.address && a.port = b.port && a.hostname = b.hostname

/-- A worker that is known already, after it was heard of again. `none`: it stays as it is. -/
def mergeKnown (known worker : Worker) (isWorkerOwner : Bool) : Option Worker :=
  if worker.configEpoch < known.configEpoch then none
  else if worker.configEpoch = known.configEpoch then
    if !isWorkerOwner || sameEndpoint known worker then none
    else
      some
        { known with address := worker.address, port := worker.port, hostname := worker.hostname }
  else some { worker with replicationOffset := known.replicationOffset }

/-- A worker as it enters the list: offsets of replicas are not passed on. -/
def newcomer (worker : Worker) : Worker := { worker with replicationOffset := 0 }

/-- `none`: nothing changes. -/
def mergeWorkerInfo (workers : List Worker) (worker : Worker) (isWorkerOwner : Bool) :
    Option (List Worker) :=
  match worker.nodeid with
  | none => none
  | some nodeId =>
    match workerByNodeId workers nodeId with
    | none => some (workers ++ [newcomer worker])
    | some i =>
      (workers[i]?.bind fun known => mergeKnown known worker isWorkerOwner).map fun w => workers.set i w

/-- One turn of the loop over the workers of the sender: its own entry is the one at position 1. -/
def mergeEntry (localId : Option NodeId) (banned : NodeId → Bool) (workers : List Worker)
    (entry : Worker × Nat) : Option (List Worker) :=
  match entry.1.nodeid with
  | none => none
  | some sid =>
    if localId = some sid ∨ banned sid = true then none
    else mergeWorkerInfo workers entry.1 (entry.2 = localWorkerId)

def mergeEntries (localId : Option NodeId) (banned : NodeId → Bool) :
    List Worker × Bool → List (Worker × Nat) → List Worker × Bool :=
  foldl fun acc entry => (mergeEntry localId banned acc.1 entry).elim acc fun workers => (workers, true)

/-- A slot after its primary was heard of. A sender that does not claim the slot may still take its
hands off it; one that claims it needs a higher epoch than the owner. -/
def claimSlot (workers : List Worker) (assignToWorkerId : Nat) (senderEpoch : Int64)
    (slot senderSlot : HashSlot) : HashSlot × Bool :=
  if senderSlot.state ≠ .stable then (slot, false)
  else if senderSlot.workerId ≠ localWorkerId then
    if slot.effWorkerId = assignToWorkerId then (⟨reservedWorkerId, .offline⟩, true)
    else (slot, false)
  else if senderEpoch ≠ 0 ∧
      (workers[slot.effWorkerId]?.any fun w => decide (senderEpoch ≤ w.configEpoch)) = true then
    (slot, false)
  else (⟨assignToWorkerId, .stable⟩, slot.workerId ≠ assignToWorkerId || slot.state ≠ .stable)

/-- A slot after a replica was heard of: a former owner hands it to its primary. -/
def handOffSlot (assignToWorkerId handoffWorkerId : Nat) (slot senderSlot : HashSlot) :
    HashSlot × Bool :=
  if senderSlot.state ≠ .stable then (slot, false)
  else if slot.effWorkerId ≠ assignToWorkerId then (slot, false)
  else (⟨handoffWorkerId, .stable⟩, slot.workerId ≠ handoffWorkerId || slot.state ≠ .stable)

/-- What is done to every slot. `none`: the sender, or its primary, is not known. -/
def slotRule (workers : List Worker) (sender : ClusterConfig) :
    Option (HashSlot → HashSlot → HashSlot × Bool) :=
  let assignToWorkerId := sender.localNodeId.elim 0 (getWorkerIdFromNodeId workers)
  if assignToWorkerId = 0 then none
  else if sender.isPrimary then
    some (claimSlot workers assignToWorkerId sender.localNodeConfigEpoch)
  else
    let handoffWorkerId := sender.localNodePrimaryId.elim 0 (getWorkerIdFromNodeId workers)
    if handoffWorkerId = 0 then none else some (handOffSlot assignToWorkerId handoffWorkerId)

def mergeSlotMap (slotMap : Slot → HashSlot) (workers : List Worker) (sender : ClusterConfig) :
    (Slot → HashSlot) × Bool :=
  match slotRule workers sender with
  | none => (slotMap, false)
  | some rule =>
    (fun slot => (rule (slotMap slot) (sender.slotMap slot)).1,
      decide (∃ slot, (rule (slotMap slot) (sender.slotMap slot)).2 = true))

/-! ### One worker -/

section Known

variable {known known' worker : Worker} {isWorkerOwner : Bool}

section

variable (h : mergeKnown known worker isWorkerOwner = some known')
include h

lemma le_of_mergeKnown_eq_some : known.configEpoch ≤ known'.configEpoch := by
  unfold mergeKnown at h
  split at h
  · cases h
  · next hge =>
    split at h
    · split at h
      · cases h
      · cases h
        exact Int64.le_refl _
    · cases h
      exact Int64.not_lt.1 hge

end

lemma nodeid_of_mergeKnown (hid : worker.nodeid = known.nodeid)
    (h : mergeKnown known worker isWorkerOwner = some known') : known'.nodeid = known.nodeid := by
  unfold mergeKnown at h
  split at h
  · cases h
  · split at h
    · split at h
      · cases h
      · cases h
        rfl
    · cases h
      exact hid

end Known

/-! ### The list of workers -/

variable {w : Worker} {acc : List Worker × Bool}

section Entries

variable {localId : Option NodeId} {banned : NodeId → Bool} {workers workers' : List Worker}
  {entry : Worker × Nat}

lemma nodeIdAt_append_of_lt {i : Nat} (hi : i < workers.length) (more : List Worker) :
    nodeIdAt (workers ++ more) i = nodeIdAt workers i := by
  rw [nodeIdAt, nodeIdAt, getElem?_append_left hi]

lemma nodeIdAt_set {i : Nat} {known : Worker} (hi : workers[i]? = some known)
    (hid : w.nodeid = known.nodeid) (j : Nat) : nodeIdAt (workers.set i w) j = nodeIdAt workers j := by
  rcases eq_or_ne j i with rfl | hne
  · have hlt := (List.getElem?_eq_some_iff.1 hi).1
    rw [nodeIdAt, nodeIdAt, getElem?_set_self hlt, hi, Option.bind_some, Option.bind_some, hid]
  · rw [nodeIdAt, nodeIdAt, getElem?_set_ne hne.symm]

/-- What a heard entry can do to the list: name a new worker, or renew one other than the local. -/
inductive Renewal (localId : Option NodeId) (workers : List Worker) (entry : Worker × Nat) :
    List Worker → Prop
  | append {id : NodeId} : entry.1.nodeid = some id → localId ≠ some id →
      workerByNodeId workers id = none →
      Renewal localId workers entry (workers ++ [newcomer entry.1])
  | renew {id : NodeId} {i : Nat} {known w : Worker} : entry.1.nodeid = some id → localId ≠ some id →
      workerByNodeId workers id = some i → workers[i]? = some known →
      mergeKnown known entry.1 (entry.2 = localWorkerId) = some w → w.nodeid = known.nodeid →
      Renewal localId workers entry (workers.set i w)

section

variable (h : mergeEntry localId banned workers entry = some workers')
include h

lemma Renewal.of_mergeEntry : Renewal localId workers entry workers' := by
  unfold mergeEntry at h
  split at h
  · cases h
  next id hid =>
  split at h
  · cases h
  next hskip =>
  simp only [mergeWorkerInfo, hid] at h
  split at h
  · next hnone =>
    cases h
    exact .append hid (fun hl => hskip (.inl hl)) hnone
  · next i hi =>
    obtain ⟨w, hw, rfl⟩ := Option.map_eq_some_iff.1 h
    obtain ⟨known, hknown, hw⟩ := Option.bind_eq_some_iff.1 hw
    have hsame : entry.1.nodeid = known.nodeid := by
      obtain ⟨known', hknown', hid'⟩ := nodeIdAt_eq_some.1 (workerByNodeId_eq_some.1 hi).2.1
      rw [hknown] at hknown'
      cases hknown'
      rw [hid, hid']
    exact .renew hid (fun hl => hskip (.inl hl)) hi hknown hw (nodeid_of_mergeKnown hsame hw)

/-- Workers keep their positions and identities, their epochs only grow, and the local worker stays. -/
structure Grows (localId : Option NodeId) (workers workers' : List Worker) : Prop where
  length_le : workers.length ≤ workers'.length
  entry : ∀ {i : Nat} {w : Worker}, workers[i]? = some w →
    ∃ w', workers'[i]? = some w' ∧ w'.nodeid = w.nodeid ∧ w.configEpoch ≤ w'.configEpoch
  local_eq : ∀ {w : Worker}, workers[1]? = some w → w.nodeid = localId → workers'[1]? = some w

omit h in
lemma Grows.refl (localId : Option NodeId) (workers : List Worker) : Grows localId workers workers :=
  ⟨le_rfl, fun h => ⟨_, h, rfl, Int64.le_refl _⟩, fun h _ => h⟩

omit h in
lemma Grows.trans {workers'' : List Worker} (h : Grows localId workers workers')
    (h' : Grows localId workers' workers'') : Grows localId workers workers'' where
  length_le := h.length_le.trans h'.length_le
  entry hw := by
    obtain ⟨w', hw', hid, hle⟩ := h.entry hw
    obtain ⟨w'', hw'', hid', hle'⟩ := h'.entry hw'
    exact ⟨w'', hw'', hid'.trans hid, Int64.le_trans hle hle'⟩
  local_eq hw hid := h'.local_eq (h.local_eq hw hid) hid

lemma Grows.of_mergeEntry : Grows localId workers workers' := by
  cases Renewal.of_mergeEntry h with
  | append =>
    refine ⟨by simp, fun hw => ⟨_, ?_, rfl, Int64.le_refl _⟩, fun hw _ => ?_⟩ <;>
      rwa [getElem?_append_left (List.getElem?_eq_some_iff.1 hw).1]
  | @renew id i known w hid hlocal hi hknown hw hsame =>
    have hlt := (List.getElem?_eq_some_iff.1 hknown).1
    refine ⟨by simp, fun {j v} hv => ?_, fun {v} hv hvid => ?_⟩
    · rcases eq_or_ne j i with rfl | hne
      · cases hknown.symm.trans hv
        exact ⟨w, getElem?_set_self hlt, hsame, le_of_mergeKnown_eq_some hw⟩
      · exact ⟨v, by rwa [getElem?_set_ne hne.symm], rfl, Int64.le_refl _⟩
    · have hne : i ≠ 1 := by
        rintro rfl
        have hat := (workerByNodeId_eq_some.1 hi).2.1
        rw [nodeIdAt, hv, Option.bind_some, hvid] at hat
        exact hlocal hat
      rwa [getElem?_set_ne hne]

omit h in
lemma epoch_of_mergeKnown {known known' worker : Worker} {isWorkerOwner : Bool}
    (h : mergeKnown known worker isWorkerOwner = some known') :
    known'.configEpoch = known.configEpoch ∨ known'.configEpoch = worker.configEpoch := by
  unfold mergeKnown at h
  split at h
  · cases h
  · split at h
    · split at h
      · cases h
      · cases h
        exact .inl rfl
    · cases h
      exact .inr rfl

lemma epoch_of_mergeEntry (hw : w ∈ workers') :
    (∃ v ∈ workers, w.configEpoch = v.configEpoch) ∨ w.configEpoch = entry.1.configEpoch := by
  cases Renewal.of_mergeEntry h with
  | append =>
    rcases mem_append.1 hw with hw | hw
    · exact .inl ⟨w, hw, rfl⟩
    · rw [mem_singleton.1 hw]
      exact .inr rfl
  | @renew id i known w' _ _ _ hknown hmerge _ =>
    rcases mem_or_eq_of_mem_set hw with hw | rfl
    · exact .inl ⟨w, hw, rfl⟩
    · exact (epoch_of_mergeKnown hmerge).imp_left fun heq => ⟨known, mem_of_getElem? hknown, heq⟩

lemma length_le_of_mergeEntry : workers'.length ≤ workers.length + 1 := by
  cases Renewal.of_mergeEntry h with
  | append | renew => simp

end

lemma grows_mergeEntries (acc : List Worker × Bool) (entries : List (Worker × Nat)) :
    Grows localId acc.1 (mergeEntries localId banned acc entries).1 := by
  induction entries generalizing acc with
  | nil => exact .refl _ _
  | cons entry entries ih =>
    rw [mergeEntries, foldl_cons]
    cases h : mergeEntry localId banned acc.1 entry with
    | none => exact ih acc
    | some workers' => exact (Grows.of_mergeEntry h).trans (ih (workers', true))

variable {entries : List (Worker × Nat)}

/-- Without a change the workers are as before. -/
lemma mergeEntries_of_not_changed
    (h : (mergeEntries localId banned acc entries).2 = false) :
    (mergeEntries localId banned acc entries).1 = acc.1 ∧ acc.2 = false := by
  induction entries generalizing acc with
  | nil => exact ⟨rfl, h⟩
  | cons entry entries ih =>
    rw [mergeEntries, foldl_cons] at h ⊢
    cases he : mergeEntry localId banned acc.1 entry with
    | none =>
      rw [he] at h
      exact ih h
    | some =>
      rw [he] at h
      cases (ih h).2

/-- Every epoch was known to one of the two sides. -/
lemma mem_mergeEntries
    (hw : w ∈ (mergeEntries localId banned acc entries).1) :
    (∃ v ∈ acc.1, w.configEpoch = v.configEpoch) ∨ ∃ e ∈ entries, w.configEpoch = e.1.configEpoch := by
  induction entries generalizing acc with
  | nil => exact .inl ⟨w, hw, rfl⟩
  | cons entry entries ih =>
    rw [mergeEntries, foldl_cons] at hw
    cases he : mergeEntry localId banned acc.1 entry with
    | none =>
      rw [he] at hw
      exact (ih hw).imp_right fun ⟨e, hmem, heq⟩ => ⟨e, .tail _ hmem, heq⟩
    | some =>
      rw [he] at hw
      rcases ih hw with ⟨v, hv, heq⟩ | ⟨e, hmem, heq⟩
      · rcases epoch_of_mergeEntry he hv with ⟨u, hu, huv⟩ | huv
        · exact .inl ⟨u, hu, heq.trans huv⟩
        · exact .inr ⟨entry, mem_cons_self, heq.trans huv⟩
      · exact .inr ⟨e, .tail _ hmem, heq⟩

lemma length_mergeEntries_le (acc : List Worker × Bool) (entries : List (Worker × Nat)) :
    (mergeEntries localId banned acc entries).1.length ≤ acc.1.length + entries.length := by
  induction entries generalizing acc with
  | nil => exact le_rfl
  | cons entry entries ih =>
    rw [mergeEntries, foldl_cons, length_cons]
    cases he : mergeEntry localId banned acc.1 entry with
    | none => exact (ih acc).trans (by omega)
    | some workers' =>
      have hle := length_le_of_mergeEntry he
      exact (ih (workers', true)).trans (by dsimp only; omega)

end Entries

/-! ### Slots -/

variable {sender : ClusterConfig} {rule : HashSlot → HashSlot → HashSlot × Bool}

section Slots

variable {workers : List Worker} {assignTo handoff : Nat} {epoch : Int64}

/-- A rule that reports no change leaves the slot as it is. -/
lemma slotRule_of_not_updated
    (h : slotRule workers sender = some rule) {slot senderSlot : HashSlot}
    (hsame : (rule slot senderSlot).2 = false) : (rule slot senderSlot).1 = slot := by
  have hassigned {i : Nat} (heq : (decide (slot.workerId ≠ i) || decide (slot.state ≠ .stable)) = false) :
      (⟨i, .stable⟩ : HashSlot) = slot := by
    obtain ⟨hid, hstate⟩ : slot.workerId = i ∧ slot.state = .stable := by simpa using heq
    cases slot
    cases hid
    cases hstate
    rfl
  unfold slotRule at h
  dsimp only at h
  split at h
  · cases h
  split at h
  · cases h
    unfold claimSlot at hsame ⊢
    split_ifs at hsame ⊢ <;> first | rfl | cases hsame | exact hassigned hsame
  · split at h
    · cases h
    · cases h
      unfold handOffSlot at hsame ⊢
      split_ifs at hsame ⊢ <;> first | rfl | exact hassigned hsame

lemma mergeSlotMap_of_not_updated {slotMap : Slot → HashSlot}
    (h : (mergeSlotMap slotMap workers sender).2 = false) : (mergeSlotMap slotMap workers sender).1 = slotMap := by
  unfold mergeSlotMap at h ⊢
  cases hr : slotRule workers sender with
  | none => rfl
  | some =>
    simp only [hr, decide_eq_false_iff_not, not_exists, Bool.not_eq_true] at h
    exact funext fun slot => slotRule_of_not_updated hr (h slot)

lemma claimSlot_cases (slot senderSlot : HashSlot) :
    (claimSlot workers assignTo epoch slot senderSlot).1 = slot ∨
      (claimSlot workers assignTo epoch slot senderSlot).1 = ⟨reservedWorkerId, .offline⟩ ∨
      (claimSlot workers assignTo epoch slot senderSlot).1 = ⟨assignTo, .stable⟩ := by
  unfold claimSlot
  split_ifs <;> simp

lemma handOffSlot_cases (slot senderSlot : HashSlot) :
    (handOffSlot assignTo handoff slot senderSlot).1 = slot ∨
      (handOffSlot assignTo handoff slot senderSlot).1 = ⟨handoff, .stable⟩ := by
  unfold handOffSlot
  split_ifs <;> simp

/-- A slot after the merge is the slot before, goes to nobody, or to a worker that is the sender or its
primary. -/
lemma mergeSlotMap_cases (hlen : workers.length < 2 ^ 16) (slotMap : Slot → HashSlot)
    (sender : ClusterConfig) (slot : Slot) :
    (mergeSlotMap slotMap workers sender).1 slot = slotMap slot ∨
      (mergeSlotMap slotMap workers sender).1 slot = ⟨reservedWorkerId, .offline⟩ ∨
      ∃ i id, (mergeSlotMap slotMap workers sender).1 slot = ⟨i, .stable⟩ ∧ nodeIdAt workers i = some id ∧
        (sender.localNodeId = some id ∨ sender.localNodePrimaryId = some id) := by
  have hknown (node : Option NodeId) (hne : node.elim 0 (getWorkerIdFromNodeId workers) ≠ 0) :
      ∃ id, node = some id ∧ nodeIdAt workers (node.elim 0 (getWorkerIdFromNodeId workers)) = some id := by
    cases node with
    | none => exact absurd rfl hne
    | some id => exact ⟨id, rfl, ((getWorkerIdFromNodeId_cases hlen id).resolve_left hne).2⟩
  unfold mergeSlotMap slotRule
  by_cases hassign : sender.localNodeId.elim 0 (getWorkerIdFromNodeId workers) = 0
  · simp only [if_pos hassign, true_or]
  obtain ⟨id, hid, hat⟩ := hknown sender.localNodeId hassign
  cases sender.isPrimary with
  | true =>
    simp only [if_neg hassign]
    rcases claimSlot_cases (slotMap slot) (sender.slotMap slot) with h | h | h
    · exact .inl h
    · exact .inr (.inl h)
    · exact .inr (.inr ⟨_, id, h, hat, .inl hid⟩)
  | false =>
    by_cases hhandoff : sender.localNodePrimaryId.elim 0 (getWorkerIdFromNodeId workers) = 0
    · simp only [if_neg hassign, Bool.false_eq_true, if_false, if_pos hhandoff, true_or]
    obtain ⟨pid, hpid, hpat⟩ := hknown sender.localNodePrimaryId hhandoff
    simp only [if_neg hassign, if_neg hhandoff]
    rcases handOffSlot_cases (slotMap slot) (sender.slotMap slot) with h | h
    · exact .inl h
    · exact .inr (.inr ⟨_, pid, h, hpat, .inr hpid⟩)

end Slots

/-! ### The whole merge -/

variable {banned : NodeId → Bool}

namespace ClusterConfig

def mergedWorkers (c sender : ClusterConfig) (banned : NodeId → Bool) : List Worker × Bool :=
  mergeEntries c.localNodeId banned (c.workers, false) (sender.workers.zipIdx.drop 1)

lemma grows_mergedWorkers (c sender : ClusterConfig) (banned : NodeId → Bool) :
    Grows c.localNodeId c.workers (c.mergedWorkers sender banned).1 :=
  grows_mergeEntries (c.workers, false) _

/-- `none`: nothing changes. -/
def merge (c sender : ClusterConfig) (banned : NodeId → Bool) : Option ClusterConfig :=
  let merged := c.mergedWorkers sender banned
  let slots := mergeSlotMap c.slotMap merged.1 sender
  if merged.2 || slots.2 then
    some
      { slotMap := slots.1
        workers := merged.1
        hasLocal := c.hasLocal.trans_le (c.grows_mergedWorkers sender banned).length_le }
  else none

/-- The configuration after the merge, changed or not. -/
def merged (c sender : ClusterConfig) (banned : NodeId → Bool) : ClusterConfig where
  slotMap := (mergeSlotMap c.slotMap (c.mergedWorkers sender banned).1 sender).1
  workers := (c.mergedWorkers sender banned).1
  hasLocal := c.hasLocal.trans_le (c.grows_mergedWorkers sender banned).length_le

lemma getD_merge (c sender : ClusterConfig) (banned : NodeId → Bool) :
    (c.merge sender banned).getD c = c.merged sender banned := by
  unfold merge
  dsimp only
  split
  · rfl
  · next hsame =>
    obtain ⟨hworkers, hslots⟩ : (c.mergedWorkers sender banned).2 = false ∧
        (mergeSlotMap c.slotMap (c.mergedWorkers sender banned).1 sender).2 = false := by
      simpa using hsame
    exact ClusterConfig.ext (mergeSlotMap_of_not_updated hslots).symm
      (mergeEntries_of_not_changed hworkers).1.symm

variable {c c' : ClusterConfig}

lemma merge_eq_some (h : c.merge sender banned = some c') :
    c'.workers = (c.mergedWorkers sender banned).1 ∧
      c'.slotMap = (mergeSlotMap c.slotMap c'.workers sender).1 := by
  unfold merge at h
  dsimp only at h
  split at h
  · cases h
    exact ⟨rfl, rfl⟩
  · cases h

end ClusterConfig

/-! ### Positions that do not fit -/

section Crowd

/-- A worker with an identity and an epoch. -/
def Worker.named (id : NodeId) (epoch : Int64) : Worker :=
  { Worker.default with nodeid := some id, configEpoch := epoch }

/-- Three named workers, and nameless ones in front of the last. -/
def crowd (n : Nat) : List Worker :=
  [.unassigned, .named 1 0, .named 7 0] ++ (replicate n .default ++ [.named 9 1])

lemma length_crowd (n : Nat) : (crowd n).length = n + 4 := by
  simp only [crowd, length_append, length_replicate, length_cons, length_nil]
  omega

def crowded (n : Nat) : ClusterConfig where
  slotMap _ := .default
  workers := crowd n
  hasLocal := by
    rw [length_crowd]
    omega

end Crowd

end Wedb.Cluster
