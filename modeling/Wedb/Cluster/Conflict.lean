import Wedb.Cluster.Manager

/-!
# Two nodes that claim the same slots

Two primaries that both hold slots send each other their configurations, in any order and as often as
they like. Of a slot both claim the node with the greater epoch becomes the owner, of equal epochs the
node with the smaller identity, which raises its epoch when it hears of the other.
-/

namespace Wedb.Cluster

open Function Int64 List ClusterConfig

inductive Side where
  | left
  | right
deriving DecidableEq

def Side.other : Side → Side
  | .left => .right
  | .right => .left

/-- A node, or what it has sent: its configuration, and how far the exchange has come. `heard` is 0
before it has merged a configuration of the other, and 2 once it has merged one that the other had sent
after it had merged. -/
structure Node where
  config : ClusterConfig
  heard : Nat

structure Pair where
  node : Side → Node
  sent : Side → List Node

inductive Exchange where
  | send (s : Side)
  /-- `s` merges one of the configurations the other has sent. -/
  | merge (s : Side) (i : Nat)

def noBan (_ : NodeId) : Bool := false

def Node.hear (n m : Node) : Node :=
  ⟨n.config.tryMerge m.config noBan, max n.heard (min 2 (m.heard + 1))⟩

def exchange (p : Pair) : Exchange → Option Pair
  | .send s => some { p with sent := update p.sent s (p.sent s ++ [p.node s]) }
  | .merge s i =>
    (p.sent s.other)[i]?.map fun m => { p with node := update p.node s ((p.node s).hear m) }

def meeting (c : Side → ClusterConfig) : Pair := ⟨fun s => ⟨c s, 0⟩, fun _ => []⟩

/-- Two primaries that know each other. -/
structure Rivals (c : Side → ClusterConfig) (id : Side → NodeId) : Prop where
  distinct : id .left ≠ id .right
  local_id : ∀ s, (c s).localNodeId = some (id s)
  primary : ∀ s, (c s).isPrimary = true
  epoch_ne : ∀ s, (c s).localNodeConfigEpoch ≠ 0
  known : ∀ s, ∃ i, workerByNodeId (c s).workers (id s.other) = some i

/-- The slot is stable and assigned to the local node. -/
def Claims (c : ClusterConfig) (slot : Slot) : Prop := c.slotMap slot = ⟨localWorkerId, .stable⟩

def winner (c : Side → ClusterConfig) (id : Side → NodeId) : Side :=
  if (c .right).localNodeConfigEpoch < (c .left).localNodeConfigEpoch then .left
  else if (c .left).localNodeConfigEpoch < (c .right).localNodeConfigEpoch then .right
  else if id .left < id .right then .left
  else .right

/-- Once both have merged what the other sent after its own merge, they agree on the contested slots. A
slot only one of them claims stays with it: the other keeps what it had, or names the claimant too. -/
structure Resolved (c : Side → ClusterConfig) (id : Side → NodeId) (p : Pair) : Prop where
  contested : (∀ s, (p.node s).heard = 2) → ∀ slot, Claims (c .left) slot → Claims (c .right) slot →
    ∀ s, (p.node s).config.getNodeIdFromSlot slot = some (id (winner c id))
  uncontested : ∀ s slot, Claims (c s) slot → ¬ Claims (c s.other) slot →
    (p.node s).config.getNodeIdFromSlot slot = some (id s) ∧
    ((p.node s.other).config.slotMap slot = (c s.other).slotMap slot ∨
      (p.node s.other).config.getNodeIdFromSlot slot = some (id s))

/-- Two nodes with one epoch meet while neither knows of the last one, and there are fewer than 65536
workers. -/
def unexhausted (p : Pair) : Exchange → Bool
  | .send _ => true
  | .merge s i =>
    (p.sent s.other)[i]?.all fun m =>
      let workers := (p.node s).config.workers ++ m.config.workers
      workers.length < 2 ^ 16 &&
        ((p.node s).config.localNodeConfigEpoch != m.config.localNodeConfigEpoch ||
          workers.all fun w => w.configEpoch != maxValue)

/-! ### Epochs -/

lemma int64_max_def (a b : Int64) : max a b = if a ≤ b then b else a := rfl

lemma int64_lt_add_one {m : Int64} (h : m ≠ maxValue) : m < m + 1 := by
  rw [lt_iff_toInt_lt, toInt_add]
  have hlt := m.toInt_lt
  have hle := m.le_toInt
  have hne : m.toInt ≠ 2 ^ 63 - 1 := fun heq => h (toInt_inj.1 heq)
  rw [show (1 : Int64).toInt = 1 from rfl, Int.bmod_eq_of_le] <;> omega

lemma le_foldl_max (l : List Int64) (a : Int64) :
    a ≤ l.foldl max a ∧ (∀ e ∈ l, e ≤ l.foldl max a) ∧ (l.foldl max a = a ∨ l.foldl max a ∈ l) := by
  induction l generalizing a with
  | nil => exact ⟨Int64.le_refl a, nofun, .inl rfl⟩
  | cons b l ih =>
    obtain ⟨hacc, hall, hmem⟩ := ih (max a b)
    rw [foldl_cons]
    have hmax : a ≤ max a b ∧ b ≤ max a b ∧ (max a b = a ∨ max a b = b) := by
      rw [int64_max_def]
      grind
    refine ⟨Int64.le_trans hmax.1 hacc, ?_, ?_⟩
    · intro e he
      rcases mem_cons.1 he with rfl | he
      · exact Int64.le_trans hmax.2.1 hacc
      · exact hall e he
    · rcases hmem with hmem | hmem
      · rw [hmem]
        rcases hmax.2.2 with h | h <;> rw [h] <;> simp
      · exact .inr (.tail _ hmem)

/-- Raised, the epoch of the local worker exceeds what it was, unless the last one is known. -/
lemma lt_bump {c : ClusterConfig} (h : ∀ w ∈ c.workers, w.configEpoch ≠ maxValue) :
    c.localNodeConfigEpoch < c.bumpLocalNodeConfigEpoch.localNodeConfigEpoch := by
  obtain ⟨-, hall, hmem⟩ := le_foldl_max ((c.workers.drop 1).map Worker.configEpoch) 0
  have hlocal : c.localWorker ∈ c.workers.drop 1 := by
    refine mem_of_getElem? (i := 0) ?_
    rw [getElem?_drop]
    exact c.getElem?_localWorker
  have hle : c.localNodeConfigEpoch ≤ c.getMaxConfigEpoch := hall _ (mem_map_of_mem hlocal)
  have hne : c.getMaxConfigEpoch ≠ maxValue := by
    rcases hmem with hmem | hmem
    · rw [getMaxConfigEpoch, hmem]
      decide
    · obtain ⟨w, hw, heq⟩ := mem_map.1 hmem
      rw [getMaxConfigEpoch, ← heq]
      exact h w (mem_of_mem_drop hw)
  have hbump : c.bumpLocalNodeConfigEpoch.localNodeConfigEpoch = c.getMaxConfigEpoch + 1 := by
    rw [bumpLocalNodeConfigEpoch, localNodeConfigEpoch, localWorker_updateLocal]
  rw [hbump]
  exact Int64.lt_of_le_of_lt hle (int64_lt_add_one hne)

/-! ### One merge -/

lemma tryMerge_noBan (c m : ClusterConfig) :
    c.tryMerge m noBan = ((c.merged m noBan).handleConfigEpochCollision m).getD (c.merged m noBan) := by
  have hbanned : m.localNodeId.any noBan = false := by
    cases m.localNodeId <;> rfl
  rw [tryMerge, hbanned, ← getD_merge]
  cases c.merge m noBan <;> rfl

/-- Giving way changes the epoch of the local worker only. -/
lemma collision_cases (c m : ClusterConfig) :
    (c.handleConfigEpochCollision m).getD c = c ∨
      (c.handleConfigEpochCollision m).getD c = c.bumpLocalNodeConfigEpoch := by
  unfold handleConfigEpochCollision
  split_ifs <;> simp

/-- What a node with identity `τ` makes of the configuration of a primary with identity `σ`. -/
structure Heard (x m x' : ClusterConfig) (τ σ : NodeId) : Prop where
  local_id : x'.localNodeId = some τ
  primary : x'.isPrimary = x.isPrimary
  nodeIdAt : ∀ {i id}, nodeIdAt x.workers i = some id → nodeIdAt x'.workers i = some id
  epoch_eq : x.localNodeConfigEpoch ≠ m.localNodeConfigEpoch ∨ σ ≤ τ →
    x'.localNodeConfigEpoch = x.localNodeConfigEpoch
  epoch_lt : x.localNodeConfigEpoch = m.localNodeConfigEpoch → τ < σ →
    (∀ w ∈ x.workers ++ m.workers, w.configEpoch ≠ maxValue) →
    x.localNodeConfigEpoch < x'.localNodeConfigEpoch
  slots : ∃ workers a, workers[1]? = some x.localWorker ∧ a ≠ 0 ∧ a ≠ 1 ∧
    Cluster.nodeIdAt x'.workers a = some σ ∧
    ∀ slot, x'.slotMap slot =
      (claimSlot workers a m.localNodeConfigEpoch (x.slotMap slot) (m.slotMap slot)).1

section Merge

variable {x m : ClusterConfig} {τ σ : NodeId}

lemma localWorker_merged (x m : ClusterConfig) (banned : NodeId → Bool) :
    (x.merged m banned).localWorker = x.localWorker := by
  have hlocal := (x.grows_mergedWorkers m banned).local_eq x.getElem?_localWorker rfl
  exact Option.some.inj ((x.merged m banned).getElem?_localWorker.symm.trans hlocal)

lemma epoch_merged_ne {banned : NodeId → Bool}
    (h : ∀ w ∈ x.workers ++ m.workers, w.configEpoch ≠ maxValue) :
    ∀ w ∈ (x.merged m banned).workers, w.configEpoch ≠ maxValue := by
  intro w hw
  rcases mem_mergeEntries hw with ⟨v, hv, heq⟩ | ⟨⟨v, k⟩, hv, heq⟩
  · rw [heq]
    exact h v (mem_append_left _ hv)
  · rw [heq]
    refine h v (mem_append_right _ ?_)
    exact fst_mem_of_mem_zipIdx (mem_of_mem_drop hv)

lemma length_merged_le (x m : ClusterConfig) (banned : NodeId → Bool) :
    (x.merged m banned).workers.length ≤ x.workers.length + m.workers.length := by
  refine (length_mergeEntries_le (x.workers, false) _).trans (Nat.add_le_add_left ?_ _)
  rw [length_drop, length_zipIdx]
  omega

/-- Growing keeps the positions of the identities. -/
lemma Grows.nodeIdAt {localId : Option NodeId} {workers workers' : List Worker}
    (h : Grows localId workers workers') {i : Nat} {id : NodeId} (hi : nodeIdAt workers i = some id) :
    Cluster.nodeIdAt workers' i = some id := by
  obtain ⟨w, hw, hid⟩ := nodeIdAt_eq_some.1 hi
  obtain ⟨w', hw', hid', -⟩ := h.entry hw
  exact nodeIdAt_eq_some.2 ⟨w', hw', hid'.trans hid⟩

lemma isPrimary_bump (c : ClusterConfig) : c.bumpLocalNodeConfigEpoch.isPrimary = c.isPrimary := by
  rw [isPrimary, localNodeRole, bumpLocalNodeConfigEpoch, localWorker_updateLocal]
  rfl

lemma nodeIdAt_bump (c : ClusterConfig) (i : Nat) :
    nodeIdAt c.bumpLocalNodeConfigEpoch.workers i = nodeIdAt c.workers i :=
  c.nodeIdAt_updateLocal rfl i

/-- The position of a sender that is known. -/
lemma exists_assign (hτ : x.localNodeId = some τ) (hne : σ ≠ τ)
    (hknown : ∃ i, workerByNodeId x.workers σ = some i)
    (hlen : (x.workers ++ m.workers).length < 2 ^ 16) :
    ∃ a, getWorkerIdFromNodeId (x.merged m noBan).workers σ = a ∧ a ≠ 0 ∧ a ≠ 1 ∧
      nodeIdAt (x.merged m noBan).workers a = some σ := by
  obtain ⟨i, hi⟩ := hknown
  obtain ⟨hpos, hid, -⟩ := workerByNodeId_eq_some.1 hi
  have hid' := (x.grows_mergedWorkers m noBan).nodeIdAt hid
  have hfew : (x.merged m noBan).workers.length < 2 ^ 16 :=
    (length_merged_le x m noBan).trans_lt (by rwa [length_append] at hlen)
  cases hj : workerByNodeId (x.merged m noBan).workers σ with
  | none => exact absurd hid' (workerByNodeId_eq_none.1 hj i hpos)
  | some j =>
    obtain ⟨hjpos, hjid, -⟩ := workerByNodeId_eq_some.1 hj
    have hcast : asU16 j = j := Nat.mod_eq_of_lt ((lt_length_of_workerByNodeId hj).trans hfew)
    refine ⟨j, by rw [getWorkerIdFromNodeId, hj, Option.elim_some, hcast], by omega, ?_, hjid⟩
    rintro rfl
    rw [← localNodeId_eq, localNodeId, localWorker_merged] at hjid
    exact hne (Option.some.inj (hjid.symm.trans hτ))

lemma heard_tryMerge (hτ : x.localNodeId = some τ) (hσ : m.localNodeId = some σ) (hne : σ ≠ τ)
    (hprimary : m.isPrimary = true) (hknown : ∃ i, workerByNodeId x.workers σ = some i)
    (hlen : (x.workers ++ m.workers).length < 2 ^ 16) : Heard x m (x.tryMerge m noBan) τ σ := by
  have hlocal := localWorker_merged x m noBan
  have hid : (x.merged m noBan).localNodeId = some τ := by rw [localNodeId, hlocal, ← hτ]; rfl
  have hrole : (x.merged m noBan).isPrimary = x.isPrimary := by
    rw [isPrimary, localNodeRole, hlocal]
    rfl
  have hepoch : (x.merged m noBan).localNodeConfigEpoch = x.localNodeConfigEpoch := by
    rw [localNodeConfigEpoch, hlocal]
    rfl
  obtain ⟨a, ha, hzero, hone, hat⟩ := exists_assign hτ hne hknown hlen
  have hrule : slotRule (x.merged m noBan).workers m =
      some (claimSlot (x.merged m noBan).workers a m.localNodeConfigEpoch) := by
    simp only [slotRule, hσ, Option.elim_some, ha, if_neg hzero, hprimary, if_true]
  have hslots (slot : Slot) : (x.merged m noBan).slotMap slot =
      (claimSlot (x.merged m noBan).workers a m.localNodeConfigEpoch (x.slotMap slot) (m.slotMap slot)).1 := by
    have hmap : (x.merged m noBan).slotMap = (mergeSlotMap x.slotMap (x.merged m noBan).workers m).1 := rfl
    rw [hmap, mergeSlotMap, hrule]
  have hworker : (x.merged m noBan).workers[1]? = some x.localWorker := by
    rw [getElem?_localWorker, hlocal]
  have hcollision : (x.merged m noBan).handleConfigEpochCollision m =
      if x.localNodeConfigEpoch ≠ m.localNodeConfigEpoch then none
      else if σ ≤ τ then none else some (x.merged m noBan).bumpLocalNodeConfigEpoch := by
    rw [handleConfigEpochCollision, hepoch, hid, hσ]
    rfl
  rw [tryMerge_noBan]
  refine ⟨?_, ?_, ?_, ?_, ?_, ?_⟩
  · rcases collision_cases (x.merged m noBan) m with h | h <;> rw [h]
    · exact hid
    · rw [localNodeId_eq, nodeIdAt_bump, ← localNodeId_eq, hid]
  · rcases collision_cases (x.merged m noBan) m with h | h <;> rw [h]
    · exact hrole
    · rw [isPrimary_bump, hrole]
  · intro i id hi
    have hi' := (x.grows_mergedWorkers m noBan).nodeIdAt hi
    rcases collision_cases (x.merged m noBan) m with h | h <;> rw [h]
    · exact hi'
    · rwa [nodeIdAt_bump]
  · intro hkeep
    have hnone : (x.merged m noBan).handleConfigEpochCollision m = none := by
      rw [hcollision]
      rcases hkeep with hkeep | hkeep <;> simp [hkeep]
    rw [hnone]
    exact hepoch
  · intro heq hlt hmax
    rw [hcollision, if_neg (not_not_intro heq), if_neg (not_le.2 hlt), ← hepoch]
    exact lt_bump (epoch_merged_ne hmax)
  · refine ⟨(x.merged m noBan).workers, a, hworker, hzero, hone, ?_, ?_⟩
    · rcases collision_cases (x.merged m noBan) m with h | h <;> rw [h]
      · exact hat
      · rwa [nodeIdAt_bump]
    · intro slot
      rcases collision_cases (x.merged m noBan) m with h | h <;> rw [h]
      · exact hslots slot
      · exact hslots slot

end Merge

/-! ### Slots after a merge -/

section Slots

variable {x m x' : ClusterConfig} {τ σ : NodeId} {slot : Slot}

lemma Claims.getNodeIdFromSlot {c : ClusterConfig} (h : Claims c slot) :
    c.getNodeIdFromSlot slot = c.localNodeId := by
  rw [ClusterConfig.getNodeIdFromSlot, getWorkerIdFromSlot, h, localNodeId_eq]
  rfl

section

variable (h : Heard x m x' τ σ)
include h

lemma Heard.getNodeIdFromSlot_of_eq {id : NodeId}
    (heq : x'.slotMap slot = x.slotMap slot) (hid : x.getNodeIdFromSlot slot = some id) :
    x'.getNodeIdFromSlot slot = some id := by
  rw [getNodeIdFromSlot, getWorkerIdFromSlot] at hid ⊢
  rw [heq]
  exact h.nodeIdAt hid

lemma Heard.known {id : NodeId} (hknown : ∃ i, workerByNodeId x.workers id = some i) :
    ∃ i, workerByNodeId x'.workers id = some i := by
  obtain ⟨i, hi⟩ := hknown
  obtain ⟨hpos, hid, -⟩ := workerByNodeId_eq_some.1 hi
  cases hj : workerByNodeId x'.workers id with
  | none => exact absurd (h.nodeIdAt hid) (workerByNodeId_eq_none.1 hj i hpos)
  | some j => exact ⟨j, rfl⟩

/-- A claim of the sender is heard, or nothing happens to the slot. -/
lemma Heard.of_claims (hm : Claims m slot) :
    x'.slotMap slot = x.slotMap slot ∨ ¬ Claims x' slot ∧ x'.getNodeIdFromSlot slot = some σ := by
  obtain ⟨workers, a, -, -, hone, hat, hslots⟩ := h.slots
  have hslot := hslots slot
  rw [hm] at hslot
  simp only [claimSlot, ne_eq, not_true_eq_false, if_false] at hslot
  split at hslot
  · exact .inl hslot
  · right
    refine ⟨fun hclaims => hone ?_, ?_⟩
    · rw [Claims, hslot] at hclaims
      exact congrArg HashSlot.workerId hclaims
    · rw [getNodeIdFromSlot, getWorkerIdFromSlot, hslot]
      exact hat

/-- Where both claim the slot, the greater epoch decides. -/
lemma Heard.slot_of_claims (hx : Claims x slot) (hm : Claims m slot) :
    ∃ a, Cluster.nodeIdAt x'.workers a = some σ ∧ x'.slotMap slot =
      if m.localNodeConfigEpoch ≠ 0 ∧ m.localNodeConfigEpoch ≤ x.localNodeConfigEpoch then
        x.slotMap slot else ⟨a, .stable⟩ := by
  obtain ⟨workers, a, hworker, -, -, hat, hslots⟩ := h.slots
  have hany : (workers[(x.slotMap slot).effWorkerId]?.any
      fun w => decide (m.localNodeConfigEpoch ≤ w.configEpoch)) =
      decide (m.localNodeConfigEpoch ≤ x.localNodeConfigEpoch) := by
    rw [hx]
    change workers[1]?.any _ = _
    rw [hworker]
    rfl
  refine ⟨a, hat, (hslots slot).trans ?_⟩
  rw [hm]
  simp only [claimSlot, ne_eq, not_true_eq_false, if_false, hany, decide_eq_true_eq]
  split <;> rfl

lemma Heard.keeps (hx : Claims x slot) (hm : Claims m slot)
    (hne : m.localNodeConfigEpoch ≠ 0) (hle : m.localNodeConfigEpoch ≤ x.localNodeConfigEpoch) :
    x'.slotMap slot = x.slotMap slot := by
  obtain ⟨a, -, hslot⟩ := h.slot_of_claims hx hm
  rw [hslot, if_pos ⟨hne, hle⟩]

lemma Heard.yields (hx : Claims x slot) (hm : Claims m slot)
    (hlt : x.localNodeConfigEpoch < m.localNodeConfigEpoch) : x'.getNodeIdFromSlot slot = some σ := by
  obtain ⟨a, hat, hslot⟩ := h.slot_of_claims hx hm
  rw [getNodeIdFromSlot, getWorkerIdFromSlot, hslot, if_neg fun hle => Int64.not_le.2 hlt hle.2]
  exact hat

/-- A sender without a claim takes no slot, and none from the node itself. -/
lemma Heard.of_not_claims (hm : ¬ Claims m slot) :
    (x'.slotMap slot = x.slotMap slot ∨ ¬ Claims x' slot) ∧
      (Claims x slot → x'.slotMap slot = x.slotMap slot) := by
  obtain ⟨workers, a, -, -, hone, -, hslots⟩ := h.slots
  have hslot := hslots slot
  unfold claimSlot at hslot
  split at hslot
  · exact ⟨.inl hslot, fun _ => hslot⟩
  next hstable =>
  split at hslot
  · split at hslot
    · next howner =>
      refine ⟨.inr fun hclaims => ?_, fun hx => ?_⟩
      · rw [Claims, hslot] at hclaims
        cases hclaims
      · rw [hx] at howner
        exact absurd howner.symm hone
    · exact ⟨.inl hslot, fun _ => hslot⟩
  · next hlocal =>
    refine absurd ?_ hm
    rw [Claims]
    generalize m.slotMap slot = t at hstable hlocal
    cases t
    simp_all

end

end Slots

/-! ### The exchange -/

section Exchange

variable {c : Side → ClusterConfig} {id : Side → NodeId}

@[simp]
lemma Side.other_other (s : Side) : s.other.other = s := by
  cases s <;> rfl

lemma Side.other_ne (s : Side) : s.other ≠ s := by
  cases s <;> nofun

lemma Side.eq_or_eq_other (s t : Side) : s = t ∨ s = t.other := by
  cases s <;> cases t <;> simp [other]

lemma Rivals.id_ne (h : Rivals c id) (s : Side) : id s.other ≠ id s := by
  cases s
  · exact h.distinct.symm
  · exact h.distinct

/-- The winner has the greater epoch, or the smaller identity of equal epochs. -/
lemma winner_spec (h : Rivals c id) :
    (c (winner c id).other).localNodeConfigEpoch < (c (winner c id)).localNodeConfigEpoch ∨
      (c (winner c id).other).localNodeConfigEpoch = (c (winner c id)).localNodeConfigEpoch ∧
        id (winner c id) < id (winner c id).other := by
  unfold winner
  split_ifs with hleft hright hid
  · exact .inl hleft
  · exact .inl hright
  · exact .inr ⟨Int64.le_antisymm (Int64.not_lt.1 hright) (Int64.not_lt.1 hleft), hid⟩
  · exact .inr ⟨Int64.le_antisymm (Int64.not_lt.1 hleft) (Int64.not_lt.1 hright),
      lt_of_le_of_ne (not_lt.1 hid) h.distinct.symm⟩

variable (c id) in
/-- What holds of a node, and of all that it has sent. `w` is the side that wins. -/
structure View (w s : Side) (n : Node) : Prop where
  local_id : n.config.localNodeId = some (id s)
  primary : n.config.isPrimary = true
  known : ∃ i, workerByNodeId n.config.workers (id s.other) = some i
  /-- The node keeps the slots that only it claims, the winner also the contested ones. -/
  claims : ∀ {slot}, Claims (c s) slot → (s = w ∨ ¬ Claims (c s.other) slot) → Claims n.config slot
  unclaimed : ∀ {slot}, ¬ Claims (c s) slot → ¬ Claims n.config slot
  foreign : ∀ {slot}, Claims (c s.other) slot → ¬ Claims (c s) slot →
    n.config.slotMap slot = (c s).slotMap slot ∨ n.config.getNodeIdFromSlot slot = some (id s.other)
  /-- The winner gets ahead of the other, at the latest when it hears of it. -/
  ahead : s = w → (c w.other).localNodeConfigEpoch < n.config.localNodeConfigEpoch ∨
    (c w.other).localNodeConfigEpoch = n.config.localNodeConfigEpoch ∧ id w < id w.other ∧ n.heard = 0
  behind : s ≠ w → n.config.localNodeConfigEpoch = (c s).localNodeConfigEpoch
  yields : s ≠ w → ∀ {slot}, Claims (c s) slot → Claims (c s.other) slot →
    Claims n.config slot ∧ n.heard < 2 ∨ n.config.getNodeIdFromSlot slot = some (id w)

lemma View.init (h : Rivals c id) (s : Side) : View c id (winner c id) s ⟨c s, 0⟩ where
  local_id := h.local_id s
  primary := h.primary s
  known := h.known s
  claims hc _ := hc
  unclaimed hc := hc
  foreign _ _ := .inl rfl
  ahead hs := by
    subst hs
    exact (winner_spec h).imp_right fun ⟨heq, hlt⟩ => ⟨heq, hlt, rfl⟩
  behind _ := rfl
  yields _ _ hc _ := .inl ⟨hc, Nat.two_pos⟩

/-- A node that hears of the other keeps its part of the bargain. -/
lemma View.hear (h : Rivals c id) {t : Side} {n m : Node} (hn : View c id (winner c id) t n)
    (hm : View c id (winner c id) t.other m)
    (hlen : (n.config.workers ++ m.config.workers).length < 2 ^ 16)
    (hmax : n.config.localNodeConfigEpoch = m.config.localNodeConfigEpoch →
      ∀ w ∈ n.config.workers ++ m.config.workers, w.configEpoch ≠ maxValue) :
    View c id (winner c id) t (n.hear m) := by
  have hheard : Heard n.config m.config (n.hear m).config (id t) (id t.other) :=
    heard_tryMerge hn.local_id hm.local_id (h.id_ne t) hm.primary hn.known hlen
  have hlast : (n.hear m).heard = max n.heard (min 2 (m.heard + 1)) := rfl
  have hmclaims {slot : Slot} (hmc : Claims m.config slot) : Claims (c t.other) slot :=
    not_not.1 fun hno => hm.unclaimed hno hmc
  generalize winner c id = w at hn hm ⊢
  refine ⟨hheard.local_id, by rw [hheard.primary, hn.primary], hheard.known hn.known, ?_, ?_, ?_, ?_, ?_, ?_⟩
  · intro slot hc hown
    have hx := hn.claims hc hown
    by_cases hmc : Claims m.config slot
    · obtain rfl : t = w := hown.resolve_right (not_not_intro (hmclaims hmc))
      have hepoch := hm.behind t.other_ne
      have hle : m.config.localNodeConfigEpoch ≤ n.config.localNodeConfigEpoch := by
        rw [hepoch]
        rcases hn.ahead rfl with hlt | ⟨heq, -⟩
        · exact Int64.le_of_lt hlt
        · exact heq ▸ Int64.le_refl _
      exact (hheard.keeps hx hmc (hepoch ▸ h.epoch_ne _) hle).trans hx
    · exact ((hheard.of_not_claims hmc).2 hx).trans hx
  · intro slot hc
    have hx := hn.unclaimed hc
    have hsame (heq : (n.hear m).config.slotMap slot = n.config.slotMap slot) :
        ¬ Claims (n.hear m).config slot := by
      rw [Claims, heq]
      exact hx
    by_cases hmc : Claims m.config slot
    · exact (hheard.of_claims hmc).elim hsame And.left
    · exact (hheard.of_not_claims hmc).1.elim hsame fun hno => hno
  · intro slot hother hc
    have hmc : Claims m.config slot := hm.claims hother (.inr (by rwa [Side.other_other]))
    rcases hheard.of_claims hmc with heq | ⟨-, hnames⟩
    · refine (hn.foreign hother hc).imp (fun hold => ?_) fun hold => hheard.getNodeIdFromSlot_of_eq heq hold
      rw [heq, hold]
    · exact .inr hnames
  · rintro rfl
    have hepoch := hm.behind t.other_ne
    left
    rcases hn.ahead rfl with hlt | ⟨heq, hid, -⟩
    · rw [hheard.epoch_eq (.inl (by rw [hepoch]; exact (Int64.ne_of_lt hlt).symm))]
      exact hlt
    · have heq' : n.config.localNodeConfigEpoch = m.config.localNodeConfigEpoch := by rw [hepoch, heq]
      rw [heq]
      exact hheard.epoch_lt heq' hid (hmax heq')
  · intro hne
    obtain rfl : t = w.other := (t.eq_or_eq_other w).resolve_left hne
    rw [Side.other_other] at hm hheard
    rw [← hn.behind hne]
    refine hheard.epoch_eq ?_
    rw [hn.behind hne]
    rcases hm.ahead rfl with hlt | ⟨-, hid, -⟩
    · exact .inl (Int64.ne_of_lt hlt)
    · exact .inr hid.le
  · intro hne slot hc hother
    obtain rfl : t = w.other := (t.eq_or_eq_other w).resolve_left hne
    rw [Side.other_other] at hm hheard hother
    have hmc : Claims m.config slot := hm.claims hother (.inl rfl)
    rcases hn.yields hne hc (by rwa [Side.other_other]) with ⟨hx, hfew⟩ | hnames
    · rcases hm.ahead rfl with hlt | ⟨heq, -, hzero⟩
      · exact .inr (hheard.yields hx hmc (by rwa [hn.behind hne]))
      · have hkeeps := hheard.keeps hx hmc (heq ▸ h.epoch_ne _) (by rw [hn.behind hne, heq]; exact Int64.le_refl _)
        exact .inl ⟨hkeeps.trans hx, by omega⟩
    · rcases hheard.of_claims hmc with heq | ⟨-, hnew⟩
      · exact .inr (hheard.getNodeIdFromSlot_of_eq heq hnames)
      · exact .inr hnew

variable (c id) in
/-- Both nodes, and all that they have sent. -/
structure Views (p : Pair) : Prop where
  node : ∀ s, View c id (winner c id) s (p.node s)
  sent : ∀ s, ∀ m ∈ p.sent s, View c id (winner c id) s m

lemma Views.exchange (h : Rivals c id) {p p' : Pair} {a : Exchange} (hp : Views c id p)
    (ha : unexhausted p a = true) (hs : exchange p a = some p') : Views c id p' := by
  cases a with
  | send s =>
    cases hs
    refine ⟨hp.node, fun t m hm => ?_⟩
    rcases eq_or_ne t s with rfl | hne
    · dsimp only at hm
      rw [update_self] at hm
      rcases mem_append.1 hm with hm | hm
      · exact hp.sent t m hm
      · rw [mem_singleton.1 hm]
        exact hp.node t
    · dsimp only at hm
      rw [update_of_ne hne] at hm
      exact hp.sent t m hm
  | merge s =>
    obtain ⟨m, hm, rfl⟩ := Option.map_eq_some_iff.1 hs
    simp only [unexhausted, hm, Option.all_some, Bool.and_eq_true, decide_eq_true_eq, Bool.or_eq_true,
      bne_iff_ne, all_eq_true] at ha
    refine ⟨fun t => ?_, hp.sent⟩
    rcases eq_or_ne t s with rfl | hne
    · dsimp only
      rw [update_self]
      exact (hp.node t).hear h (hp.sent _ m (mem_of_getElem? hm)) ha.1
        fun heq => ha.2.resolve_left (not_not_intro heq)
    · dsimp only
      rw [update_of_ne hne]
      exact hp.node t

lemma Views.resolved {p : Pair} (hp : Views c id p) : Resolved c id p where
  contested hheard slot hleft hright s := by
    have hboth (t : Side) : Claims (c t) slot := by
      cases t
      · exact hleft
      · exact hright
    rcases eq_or_ne s (winner c id) with rfl | hne
    · have hclaims := (hp.node _).claims (hboth _) (.inl rfl)
      rw [hclaims.getNodeIdFromSlot, (hp.node _).local_id]
    · rcases (hp.node s).yields hne (hboth _) (hboth _) with ⟨-, hfew⟩ | hnames
      · have := hheard s
        omega
      · exact hnames
  uncontested s slot hc hother := by
    have hclaims := (hp.node s).claims hc (.inr hother)
    refine ⟨by rw [hclaims.getNodeIdFromSlot, (hp.node s).local_id], ?_⟩
    have hforeign := @(hp.node s.other).foreign slot (by rwa [Side.other_other]) hother
    rwa [Side.other_other] at hforeign

/-- Where no epoch is exhausted, two rivals agree on every contested slot as soon as both have heard of
what the other made of their claim, and every other slot stays where it is. -/
theorem resolved_of_unexhausted (h : Rivals c id) {p : Pair}
    (hp : Machine.Reaches exchange (fun p a => unexhausted p a = true) (meeting c) p) :
    Resolved c id p :=
  Views.resolved (hp.invariant (I := Views c id) ⟨View.init h, nofun⟩
    fun hv ha hs => hv.exchange h ha hs)

end Exchange

/-! ### Two nodes with one epoch -/

/-- Both hold all slots, with the same epoch. -/
def equals (epoch : Int64) : Side → ClusterConfig
  | .left =>
    { slotMap := fun _ => ⟨localWorkerId, .stable⟩
      workers := [.unassigned, .named 1 epoch, .named 2 epoch]
      hasLocal := Nat.one_lt_succ_succ 1 }
  | .right =>
    { slotMap := fun _ => ⟨localWorkerId, .stable⟩
      workers := [.unassigned, .named 2 epoch, .named 1 epoch]
      hasLocal := Nat.one_lt_succ_succ 1 }

def equalIds : Side → NodeId
  | .left => 1
  | .right => 2

lemma rivals_equals {epoch : Int64} (h : epoch ≠ 0) : Rivals (equals epoch) equalIds where
  distinct := by decide
  local_id s := by cases s <;> rfl
  primary s := by cases s <;> rfl
  epoch_ne s := by cases s <;> exact h
  known s := by
    cases s
    · exact ⟨2, rfl⟩
    · exact ⟨2, rfl⟩

/-- Both merge what the other held, and then what the other made of it. -/
def twoRounds : List Exchange :=
  [.send .left, .send .right, .merge .left 0, .merge .right 0,
    .send .left, .send .right, .merge .left 1, .merge .right 1]

def owners (p : Pair) (slot : Slot) : List (Nat × Option NodeId) :=
  [Side.left, Side.right].map fun s => ((p.node s).heard, (p.node s).config.getNodeIdFromSlot slot)

/-- The exchange slot by slot: whether any slot has changed need not be known to tell what becomes of
one. -/
def exchangeSlots (p : Pair) : Exchange → Option Pair
  | .send s => exchange p (.send s)
  | .merge s i =>
    (p.sent s.other)[i]?.map fun m =>
      let n := p.node s
      let next := n.config.merged m.config noBan
      { p with
        node := update p.node s
          ⟨(next.handleConfigEpochCollision m.config).getD next, max n.heard (min 2 (m.heard + 1))⟩ }

lemma exchange_eq_exchangeSlots : exchange = exchangeSlots := by
  funext p a
  cases a with
  | send => rfl
  | merge => simp only [exchange, exchangeSlots, Node.hear, tryMerge_noBan]

theorem resolved_equals_three :
    ∃ p, Machine.Reaches exchange (fun p a => unexhausted p a = true) (meeting (equals 3)) p ∧
      owners p ⟨0, by decide⟩ = [(2, some 1), (2, some 1)] ∧ Resolved (equals 3) equalIds p := by
  obtain ⟨p, hreach, howners⟩ := Machine.exists_reaches_of_run exchangeSlots
    (fun p a => unexhausted p a = true) (meeting (equals 3)) twoRounds
    (fun p => owners p ⟨0, by decide⟩) [(2, some 1), (2, some 1)] (by decide +kernel)
  rw [← exchange_eq_exchangeSlots] at hreach
  exact ⟨p, hreach, howners, resolved_of_unexhausted (rivals_equals (by decide)) hreach⟩

/-- From the last epoch on, the node with the smaller identity wraps around to the first one and loses
its slots. -/
theorem exists_not_resolved :
    ∃ p, Rivals (equals maxValue) equalIds ∧ winner (equals maxValue) equalIds = .left ∧
      Machine.Reachable exchange (meeting (equals maxValue)) p ∧
      ¬ Resolved (equals maxValue) equalIds p := by
  obtain ⟨p, hreach, howners⟩ := Machine.exists_reachable_of_run exchangeSlots
    (meeting (equals maxValue)) twoRounds
    (fun p => owners p ⟨0, by decide⟩) [(2, some 2), (2, some 2)] (by decide +kernel)
  rw [← exchange_eq_exchangeSlots] at hreach
  obtain ⟨⟨hleft, howner⟩, hright, -⟩ :
      ((p.node .left).heard = 2 ∧ (p.node .left).config.getNodeIdFromSlot ⟨0, by decide⟩ = some 2) ∧
        (p.node .right).heard = 2 ∧ (p.node .right).config.getNodeIdFromSlot ⟨0, by decide⟩ = some 2 := by
    simpa [owners] using howners
  have hheard : ∀ s, (p.node s).heard = 2 := by
    intro s
    cases s
    · exact hleft
    · exact hright
  refine ⟨p, rivals_equals (by decide), by decide, hreach, fun hresolved => ?_⟩
  have hagree := hresolved.contested hheard ⟨0, by decide⟩ rfl rfl .left
  rw [howner] at hagree
  exact absurd hagree (by decide)

end Wedb.Cluster
