import Wedb.Vdb.RestartMapping

/-!
# Mapping changes under crashes and failed batches

A batch is several records without a commit mark. A crash may leave any prefix of it, and a batch
that fails part way is rolled back in memory only. After the next restart the mapping should be the
one before the command or the one after it, and the one before it if the command reported an error.

It is not: the records that a failed FLUSHDB, FLUSHNS or root SWAPDB has written stay in the log, and
the restart follows them although the command reported an error. Outside the root namespace, where
only the 0x02 records count, a SWAPDB that is cut between its two 0x02 records leaves two logical
databases on one virtual database.
-/

namespace Wedb.Vdb

open Function Option VirtualDbManager LogEntry Journal

inductive Txn
  | flushDb (ns db : Nat) (expiredAt : Int) (tailAddress : Nat)
  | flushNs (ns : Nat) (expiredAt : Int) (tailAddress : Nat)
  | swapDb (ns db1 db2 : Nat)
  deriving DecidableEq, Repr

namespace Txn

/-- The change under the metadata lock, where the resolution has left a mapping. -/
def change (m : VirtualDbManager) : Txn → Option Change
  | .flushDb ns db expiredAt tailAddress =>
    if (m.nsMap ns).isSome then some (m.flushDatabase ns db expiredAt tailAddress) else none
  | .flushNs ns expiredAt tailAddress =>
    if (m.nsMap ns).isSome then some (m.flushNamespace ns expiredAt tailAddress) else none
  | .swapDb ns db1 db2 => do
    let vns ← m.nsMap ns
    if db1 ≠ db2 ∧ (m.dbRouting vns db1).isSome ∧ (m.dbRouting vns db2).isSome then
      some (m.swapDatabases vns db1 db2)
    else none

/-- Memory after the compensation for a failed batch. -/
def rollback (m : VirtualDbManager) : Txn → VirtualDbManager
  | .flushDb ns db expiredAt tailAddress =>
    let ((vns, _, oldVdb), m) := m.flushDb ns db expiredAt tailAddress
    m.rollbackFlushDb vns db oldVdb
  | .flushNs ns expiredAt tailAddress =>
    let ((newVns, oldVns), m) := m.flushNs ns expiredAt tailAddress
    m.rollbackFlushNs ns newVns oldVns
  | .swapDb ns db1 db2 =>
    match m.nsMap ns with
    | some vns =>
      let ((vdb1, vdb2), m) := m.swapCells vns db1 db2
      m.rollbackSwap vns db1 db2 vdb1 vdb2
    | none => m

/-- The step of a transaction that succeeds. -/
def action (places : List Bool) : Txn → Action
  | .flushDb ns db expiredAt tailAddress => .flushDb ns db expiredAt tailAddress places
  | .flushNs ns expiredAt tailAddress => .flushNs ns expiredAt tailAddress places
  | .swapDb ns db1 db2 => .swapDb ns db1 db2 places

end Txn

/-- A mapping from logical databases to virtual pairs. -/
abbrev Mapping := Nat → Nat → Option (Nat × Nat)

/-- The store together with the mapping that the reported results stand for: the successful commands
have changed it, the failed ones have not. After a crash, `crashed` is the mapping the interrupted
command was to lead to. -/
structure Run where
  store : State
  expected : Mapping
  crashed : Option Mapping

def Run.init : Run := ⟨.init, State.init.mem.mapping, none⟩

/-- `written` records of the batch have reached the log. -/
inductive Event
  | complete (action : Action)
  | fail (txn : Txn) (written : Nat) (places : List Bool)
  | crash (txn : Txn) (written : Nat) (places : List Bool)
  deriving DecidableEq, Repr

def Run.step (r : Run) (e : Event) : Option Run :=
  if r.crashed.isSome then none else
    match e with
    | .complete action => do
      let store ← Vdb.step r.store action
      some { r with store, expected := store.mem.mapping }
    | .fail txn written places => do
      let change ← txn.change r.store.mem
      if written < change.batch.length then
        some { r with
          store := ⟨txn.rollback r.store.mem,
            r.store.log.persist places (change.batch.take written)⟩ }
      else none
    | .crash txn written places => do
      let change ← txn.change r.store.mem
      some { r with
        store := ⟨change.mem, r.store.log.persist places (change.batch.take written)⟩
        crashed := some change.mem.mapping }

/-- What the next restart finds: the mapping the results stand for, or after a crash possibly the
one the interrupted command was to lead to; never two logical databases on one virtual database, and
never a logical database whose data the ledger holds for dead. -/
structure Atomic (r : Run) : Prop where
  restart_eq : r.store.log.restartMapping = r.expected ∨
    ∃ after, r.crashed = some after ∧ r.store.log.restartMapping = after
  distinct : ∀ ns db ns' db' vns vns' vdb, r.store.log.restartMapping ns db = some (vns, vdb) →
    r.store.log.restartMapping ns' db' = some (vns', vdb) → ns = ns' ∧ db = db'
  live : ∀ ns db vns vdb, r.store.log.restartMapping ns db = some (vns, vdb) →
    (rebuild r.store.log).isDeadDomain vns vdb = false

/-- The events after which the mapping is whole:
- completed steps keep the scan in step with memory;
- a batch fails before its first record, or it is a SWAPDB outside the root namespace and fails before
  its second;
- a crash does not cut a SWAPDB outside the root namespace between its 0x02 records, and in the root
  namespace the new 0x06 record is appended, or is updated in place where it decides both cells. -/
def cautious (r : Run) : Event → Bool
  | .complete action => careful r.store action
  | .fail txn written _ =>
    written == 0 ||
      match txn with
      | .swapDb ns _ _ => decide (r.store.mem.nsMap ns ≠ some rootVirtualId) && written == 1
      | _ => false
  | .crash txn written places =>
    written == 0 ||
      match txn with
      | .swapDb ns db1 db2 =>
        let pair := .dbSwap rootVirtualId db1 db2
        if r.store.mem.nsMap ns = some rootVirtualId then
          !overwrites key (places.headD false) r.store.log pair ||
            (r.store.log.decidedBy db1 [pair] && r.store.log.decidedBy db2 [pair])
        else written != 2
      | _ => careful r.store (txn.action places)

variable {written : Nat}

section

variable {m m' : VirtualDbManager} {log : MetaLog} {places : List Bool}

lemma VirtualDbManager.mapping_congr (hns : m'.nsMap = m.nsMap)
    (hdb : m'.dbRouting = m.dbRouting) : m'.mapping = m.mapping := by
  funext ns db
  rw [mapping, mapping, hns, hdb]

variable {ns vns : Nat}

lemma VirtualDbManager.mapping_eq_some {db vdb : Nat} :
    m.mapping ns db = some (vns, vdb) ↔ m.nsMap ns = some vns ∧ m.dbRouting vns db = some vdb := by
  rw [mapping]
  constructor
  · intro h
    obtain ⟨v, hv, h⟩ := bind_eq_some_iff.1 h
    obtain ⟨w, hw, h⟩ := bind_eq_some_iff.1 h
    obtain ⟨rfl, rfl⟩ := Prod.mk.inj (some.inj h)
    exact ⟨hv, hw⟩
  · rintro ⟨hv, hw⟩
    rw [hv, bind_eq_bind, bind_some, hw]
    rfl

/-! ### Rolling back -/

/-- The compensation undoes the change of the mapping; only a number is lost. -/
structure RolledBack (m m' : VirtualDbManager) : Prop where
  nsMap : m'.nsMap = m.nsMap
  dbRouting : m'.dbRouting = m.dbRouting
  next : m.nextVirtualId ≤ m'.nextVirtualId
  gcDead : ∀ {w e}, m'.gcDead w = some e → m.gcDead w = some e

lemma Mapped.rolledBack (h : Mapped m log) (hr : RolledBack m m') : Mapped m' log :=
  h.congr hr.nsMap hr.dbRouting hr.next fun he => Or.inl (hr.gcDead he)

lemma rolledBack_flushDb (hns : m.nsMap ns = some vns) (db : Nat) (t : Int)
    (a : Nat) : RolledBack m (Txn.rollback m (.flushDb ns db t a)) := by
  obtain ⟨hswap, hf⟩ := swapDb_of_some db hns
  have hnext : m.nextVirtualId ≤ (m.swapDb ns db).2.nextVirtualId := by
    rw [hf.next]
    exact Nat.le_succ _
  simp only [Txn.rollback, flushDb, hswap]
  cases hdb : m.dbRouting vns db with
  | none =>
    refine ⟨hf.nsMap, ?_, hnext, fun he => hf.gcDead ▸ he⟩
    funext v d
    by_cases hv : v = vns
    · by_cases hd : d = db
      · simp [rollbackFlushDb, removeDbMapping, hv, hd, hdb]
      · simp [rollbackFlushDb, removeDbMapping, hv, hd, hf.dbRouting]
    · simp [rollbackFlushDb, removeDbMapping, hv, hf.dbRouting]
  | some vdb =>
    refine ⟨hf.nsMap, ?_, hnext, ?_⟩
    · funext v d
      have heq : (((m.swapDb ns db).2.gcDeadInsert vdb ⟨t, a, some vns⟩).rollbackFlushDb vns db
          (some vdb)).dbRouting v d =
          if v = vns ∧ d = db then some vdb else (m.swapDb ns db).2.dbRouting v d :=
        insertDbMapping_dbRouting _ vns db vdb v d
      rw [heq, hf.dbRouting]
      split
      · rename_i hvd
        rw [hvd.1, hvd.2, hdb]
      · rfl
    · intro w e he
      rw [rollbackFlushDb, bumpGeneration_gcDead, gcDeadRemove_gcDead, update_apply] at he
      split at he
      · cases he
      · rename_i hne
        rw [insertDbMapping_gcDead, gcDeadInsert_gcDead, update_of_ne hne, hf.gcDead] at he
        exact he

lemma rolledBack_flushNs (hok : m.Ok) (hns : m.nsMap ns = some vns) (t : Int)
    (a : Nat) : RolledBack m (Txn.rollback m (.flushNs ns t a)) := by
  obtain ⟨hswap, hf⟩ := swapNs_of_some hns
  simp only [Txn.rollback, flushNs, hswap]
  refine ⟨?_, ?_, ?_, ?_⟩
  · show update (m.swapNs ns).2.nsMap ns (some vns) = m.nsMap
    rw [hf.nsMap, update_idem, ← hns, update_eq_self]
  · show update (m.swapNs ns).2.dbRouting m.nextVirtualId (fun _ => none) = m.dbRouting
    have hnone : m.dbRouting m.nextVirtualId = fun _ => none := by
      funext d
      by_contra hne
      obtain ⟨w, hw⟩ := ne_none_iff_exists'.1 hne
      exact lt_irrefl _ (hok.vns_lt hw)
    rw [hf.dbRouting, ← hnone, update_eq_self]
  · exact hf.next ▸ Nat.le_succ _
  · intro w e he
    rw [rollbackFlushNs, bumpGeneration_gcDead, gcDeadRemove_gcDead, update_apply] at he
    split at he
    · cases he
    · rename_i hne
      rw [gcDeadInsert_gcDead, update_of_ne hne] at he
      exact he

lemma rolledBack_swapDb {db1 db2 vdb1 vdb2 : Nat} (hns : m.nsMap ns = some vns)
    (h₁ : m.dbRouting vns db1 = some vdb1) (h₂ : m.dbRouting vns db2 = some vdb2) :
    RolledBack m (Txn.rollback m (.swapDb ns db1 db2)) := by
  have hcells : (m.swapCells vns db1 db2).1 = (vdb1, vdb2) := by
    rw [swapCells, h₁, h₂]
    rfl
  simp only [Txn.rollback, hns, hcells]
  refine ⟨rfl, ?_, le_rfl, id⟩
  funext v d
  simp only [rollbackSwap, bumpGeneration_dbRouting, insertDbMapping_dbRouting,
    swapCells_dbRouting h₁ h₂]
  split
  · rename_i heq
    rw [heq.1, heq.2, h₂]
  · split
    · rename_i heq
      rw [heq.1, heq.2, h₁]
    · rfl

/-! ### Cutting a batch -/

section

variable (h : Mapped m log)
include h

lemma Mapped.crash_flushDb {db : Nat} (hns : m.nsMap ns = some vns)
    (hc : vns = rootVirtualId → overwrites key (places.headD false) log
      (.dbMap rootVirtualId db) = true → log.decidedBy db [.dbMap rootVirtualId db] = true)
    (t : Int) (a : Nat) (hw : 0 < written) :
    ∃ m', Mapped m' (log.persist places ((m.flushDatabase ns db t a).batch.take written)) ∧
      m'.mapping = (m.flushDatabase ns db t a).mem.mapping := by
  obtain ⟨hswap, hf⟩ := swapDb_of_some db hns
  have hmap := h.swapDb hns hc
  simp only [VirtualDbManager.flushDatabase, flushDb, hswap]
  cases hdb : m.dbRouting vns db with
  | none =>
    obtain _ | _ | k := written
    · cases hw
    · exact ⟨_, hmap, rfl⟩
    · refine ⟨_, ?_, rfl⟩
      rw [List.take_of_length_le (Nat.le_add_left 2 k)]
      exact hmap.put_nextId _
  | some =>
    have hspent := hf.spentDb_old h.ok hdb
    have hdead : Mapped _ (.put _ (places.tail.headD false) _) :=
      (hmap.gcDeadInsert_db t a vns hspent).put_gcDeadDb t vns a hspent
    obtain _ | _ | _ | k := written
    · cases hw
    · exact ⟨_, hmap, rfl⟩
    · exact ⟨_, hdead, rfl⟩
    · refine ⟨_, ?_, rfl⟩
      rw [List.take_of_length_le (Nat.le_add_left 3 k)]
      exact hdead.put_nextId _

lemma Mapped.crash_flushNs (hns : m.nsMap ns = some vns) (t : Int) (a : Nat) (hw : 0 < written) :
    ∃ m', Mapped m' (log.persist places ((m.flushNamespace ns t a).batch.take written)) ∧
      m'.mapping = (m.flushNamespace ns t a).mem.mapping := by
  obtain ⟨hswap, hf⟩ := swapNs_of_some hns
  have hspent := hf.spentNs_old h.ok hns
  have hmap : Mapped _ (.put _ (places.headD false) _) := h.freshNs hf
  have hdead : Mapped _ (.put _ (places.tail.headD false) _) :=
    (hmap.gcDeadInsert_ns t a hspent).put_gcDeadNs t a hspent
  simp only [VirtualDbManager.flushNamespace, flushNs, hswap]
  obtain _ | _ | _ | k := written
  · cases hw
  · exact ⟨_, hmap, rfl⟩
  · exact ⟨_, hdead, rfl⟩
  · refine ⟨_, ?_, rfl⟩
    rw [List.take_of_length_le (Nat.le_add_left 3 k)]
    exact hdead.put_nextId _

/-- Outside the root namespace a restart reads no pair record. -/
lemma Mapped.put_dbSwap_of_ne (hv : vns ≠ rootVirtualId) (place : Bool) (db1 db2 vdb1 vdb2 : Nat) :
    Mapped m (log.put place (.dbSwap vns db1 db2 vdb1 vdb2)) := by
  refine h.put_silent nofun nofun (fun d => ?_) nofun nofun
  exact decide_eq_false fun heq => hv heq.1

/-- In the root namespace the pair record alone makes the exchange, when it decides both cells. -/
lemma Mapped.agrees_put_dbSwap {db1 db2 vdb1 vdb2 : Nat} {place : Bool}
    (hne : db1 ≠ db2) (h₁ : m.dbRouting rootVirtualId db1 = some vdb1)
    (h₂ : m.dbRouting rootVirtualId db2 = some vdb2)
    (hc : overwrites key place log (.dbSwap rootVirtualId db1 db2) = true →
      log.decidedBy db1 [.dbSwap rootVirtualId db1 db2] = true ∧
      log.decidedBy db2 [.dbSwap rootVirtualId db1 db2] = true) :
    Agrees (m.swapCells rootVirtualId db1 db2).2
        (log.put place (.dbSwap rootVirtualId db1 db2 vdb2 vdb1)) ∧
      (log.put place (.dbSwap rootVirtualId db1 db2 vdb2 vdb1)).findSome?
        (setsRoot db1) = some vdb2 ∧
      (log.put place (.dbSwap rootVirtualId db1 db2 vdb2 vdb1)).findSome?
        (setsRoot db2) = some vdb1 := by
  have hperm := swapCells_permuted h₁ h₂
  have hset : ∀ {d w}, (put (.dbSwap rootVirtualId db1 db2 vdb2 vdb1)).setsRoot d = some w →
      (overwrites key place log (.dbSwap rootVirtualId db1 db2) = true →
        log.decidedBy d [.dbSwap rootVirtualId db1 db2] = true) →
      (log.put place (.dbSwap rootVirtualId db1 db2 vdb2 vdb1)).findSome? (setsRoot d) =
        some w := by
    intro d w hd hdec
    rw [findSome?_eq_setting key, setting_upsert_self hd, map_some]
    exact fun hov q hq => List.mem_singleton.1 (MetaLog.decidedBy_iff.1 (hdec hov) q hq)
  have hset₁ := hset ((if_neg fun heq => hne heq.2.symm).trans (if_pos ⟨rfl, rfl⟩))
    fun hov => (hc hov).1
  have hset₂ := hset (if_pos ⟨rfl, rfl⟩) fun hov => (hc hov).2
  refine ⟨⟨?_, fun n => ?_, fun d => ?_, fun v d hv => ?_, ?_, ?_⟩, hset₁, hset₂⟩
  · exact MetaLog.puts_put h.agrees.puts _ _
  · rw [hperm.nsMap, Mapped.findSome?_put_setsNs (by nofun), h.agrees.ns]
  · rw [swapCells_dbRouting h₁ h₂]
    by_cases hd₂ : d = db2
    · rw [if_pos ⟨rfl, hd₂⟩, hd₂, hset₂, some_or]
    · rw [if_neg fun heq => hd₂ heq.2]
      by_cases hd₁ : d = db1
      · rw [if_pos ⟨rfl, hd₁⟩, hd₁, hset₁, some_or]
      · rw [if_neg fun heq => hd₁ heq.2, findSome?_upsert_of_none, h.agrees.root]
        intro x hx
        refine setsRoot_eq_none ?_
        rw [hx]
        refine decide_eq_false ?_
        rintro ⟨-, rfl | rfl⟩
        · exact hd₁ rfl
        · exact hd₂ rfl
  · rw [swapCells_dbRouting h₁ h₂, if_neg fun heq => hv heq.1, if_neg fun heq => hv heq.1,
      Mapped.findSome?_put_setsDb (by nofun), h.agrees.db v d hv]
  · exact forall_mem_upsert nofun fun e he w hw => hperm.spentDb (h.agrees.retired_db e he w hw)
  · exact forall_mem_upsert nofun fun e he v hv => hperm.spentNs (h.agrees.retired_ns e he v hv)

omit h in
/-- A 0x02 record of the root namespace that repeats what the scan reads. -/
lemma Agrees.put_dbMap_root (h : Agrees m log) {db vdb : Nat} {place : Bool}
    (hdb : log.findSome? (setsRoot db) = some vdb) :
    Agrees m (log.put place (.dbMap rootVirtualId db vdb)) where
  puts := MetaLog.puts_put h.puts _ _
  ns := by
    intro n
    rw [Mapped.findSome?_put_setsNs (by nofun), h.ns]
  root := by
    intro d
    rw [h.root]
    by_cases hd : d = db
    · have hset : (put (.dbMap rootVirtualId db vdb)).setsRoot db = some vdb := if_pos ⟨rfl, rfl⟩
      rw [hd, hdb, findSome?_upsert_of_eq hset hdb]
    · rw [findSome?_upsert_of_none]
      exact fun x hx => Mapped.setsRoot_eq_none_of_dbMap hx fun heq => hd heq.2.symm
  db := by
    intro v d hv
    rw [h.db v d hv, Mapped.findSome?_put_setsDb]
    exact fun heq => hv (MetaKey.dbMap.inj heq).1.symm
  retired_db := forall_mem_upsert nofun h.retired_db
  retired_ns := forall_mem_upsert nofun h.retired_ns

lemma Mapped.crash_swap_root {db1 db2 vdb1 vdb2 : Nat} (hne : db1 ≠ db2)
    (h₁ : m.dbRouting rootVirtualId db1 = some vdb1) (h₂ : m.dbRouting rootVirtualId db2 = some vdb2)
    (hc : overwrites key (places.headD false) log (.dbSwap rootVirtualId db1 db2) = true →
      log.decidedBy db1 [.dbSwap rootVirtualId db1 db2] = true ∧
      log.decidedBy db2 [.dbSwap rootVirtualId db1 db2] = true)
    (hw : 0 < written) :
    Agrees (m.swapDatabases rootVirtualId db1 db2).mem
      (log.persist places ((m.swapDatabases rootVirtualId db1 db2).batch.take written)) := by
  have hcells : (m.swapCells rootVirtualId db1 db2).1 = (vdb1, vdb2) := by
    rw [swapCells, h₁, h₂]
    rfl
  simp only [VirtualDbManager.swapDatabases, hcells]
  obtain ⟨hpair, hset₁, hset₂⟩ := h.agrees_put_dbSwap hne h₁ h₂ hc
  have hmap₁ : Agrees _ (.put _ (places.tail.headD false) _) := hpair.put_dbMap_root hset₁
  obtain _ | _ | _ | k := written
  · cases hw
  · exact hpair
  · exact hmap₁
  · rw [List.take_of_length_le (Nat.le_add_left 3 k)]
    refine hmap₁.put_dbMap_root ?_
    rw [findSome?_upsert_of_none]
    · exact hset₂
    · exact fun x hx => setsRoot_eq_none_of_dbMap hx fun heq => hne heq.2

end

end

/-! ### Runs -/

/-- While the store runs, the mapping in memory is the one the results stand for. What a crash leaves
is read as one of the two mappings. -/
def Run.Inv (r : Run) : Prop :=
  match r.crashed with
  | none => Mapped r.store.mem r.store.log ∧ r.store.mem.mapping = r.expected
  | some after => ∃ m : VirtualDbManager, m.Ok ∧ Agrees m r.store.log ∧
      (m.mapping = r.expected ∨ m.mapping = after)

variable {r : Run}

lemma Run.Inv.atomic (h : r.Inv) : Atomic r := by
  obtain ⟨m, hok, hagrees, hmap⟩ : ∃ m : VirtualDbManager, m.Ok ∧ Agrees m r.store.log ∧
      (m.mapping = r.expected ∨ ∃ after, r.crashed = some after ∧ m.mapping = after) := by
    unfold Inv at h
    split at h
    · exact ⟨_, h.1.ok, h.1.agrees, .inl h.2⟩
    · rename_i after hafter
      obtain ⟨m, hok, hagrees, hmap⟩ := h
      exact ⟨m, hok, hagrees, hmap.imp_right fun hm => ⟨after, hafter, hm⟩⟩
  have hrestart : r.store.log.restartMapping = m.mapping := by
    funext ns db
    exact hagrees.restart_eq ns db
  refine ⟨hrestart ▸ hmap, fun ns db ns' db' vns vns' vdb h₁ h₂ => ?_, fun ns db vns vdb h₁ => ?_⟩
  · rw [hrestart, mapping_eq_some] at h₁ h₂
    obtain ⟨rfl, hd⟩ := hok.db_inj h₁.2 h₂.2
    exact ⟨hok.ns_inj h₁.1 h₂.1, hd⟩
  · rw [hrestart, mapping_eq_some] at h₁
    exact hagrees.isDeadDomain_rebuild h₁.1 h₁.2

lemma Run.Inv.fail {txn : Txn} {places : List Bool} {change : Change}
    (h : Mapped r.store.mem r.store.log) (hmap : r.store.mem.mapping = r.expected)
    (hchange : txn.change r.store.mem = some change)
    (hc : cautious r (.fail txn written places) = true) :
    Mapped (txn.rollback r.store.mem) (r.store.log.persist places (change.batch.take written)) ∧
      (txn.rollback r.store.mem).mapping = r.expected := by
  have hrolled : RolledBack r.store.mem (txn.rollback r.store.mem) := by
    cases txn with
    | flushDb ns db t a =>
      obtain ⟨hns, _⟩ := ite_none_right_eq_some.1 hchange
      obtain ⟨vns, hns⟩ := isSome_iff_exists.1 hns
      exact rolledBack_flushDb hns db t a
    | flushNs ns t a =>
      obtain ⟨hns, _⟩ := ite_none_right_eq_some.1 hchange
      obtain ⟨vns, hns⟩ := isSome_iff_exists.1 hns
      exact rolledBack_flushNs h.ok hns t a
    | swapDb =>
      obtain ⟨vns, hns, hchange⟩ := bind_eq_some_iff.1 hchange
      obtain ⟨⟨_, h₁, h₂⟩, _⟩ := ite_none_right_eq_some.1 hchange
      obtain ⟨vdb1, h₁⟩ := isSome_iff_exists.1 h₁
      obtain ⟨vdb2, h₂⟩ := isSome_iff_exists.1 h₂
      exact rolledBack_swapDb hns h₁ h₂
  refine ⟨?_, (mapping_congr hrolled.nsMap hrolled.dbRouting).trans hmap⟩
  simp only [cautious, Bool.or_eq_true, beq_iff_eq] at hc
  rcases hc with rfl | hc
  · exact h.rolledBack hrolled
  · cases txn with
    | flushDb ns db t a | flushNs ns t a => cases hc
    | swapDb ns db1 db2 =>
      simp only [decide_not, Bool.and_eq_true, Bool.not_eq_true', decide_eq_false_iff_not,
        beq_iff_eq] at hc
      obtain ⟨hroot, rfl⟩ := hc
      obtain ⟨vns, hns, hchange⟩ := bind_eq_some_iff.1 hchange
      obtain ⟨_, ⟨⟩⟩ := ite_none_right_eq_some.1 hchange
      refine (h.put_dbSwap_of_ne ?_ _ db1 db2 _ _).rolledBack hrolled
      rintro rfl
      exact hroot hns

lemma Run.Inv.crash {txn : Txn} {places : List Bool} {change : Change}
    (h : Mapped r.store.mem r.store.log) (hmap : r.store.mem.mapping = r.expected)
    (hchange : txn.change r.store.mem = some change)
    (hc : cautious r (.crash txn written places) = true) :
    ∃ m : VirtualDbManager, m.Ok ∧
      Agrees m (r.store.log.persist places (change.batch.take written)) ∧
      (m.mapping = r.expected ∨ m.mapping = change.mem.mapping) := by
  simp only [cautious, Bool.or_eq_true, beq_iff_eq] at hc
  rcases Nat.eq_zero_or_pos written with rfl | hw
  · exact ⟨r.store.mem, h.ok, h.agrees, .inl hmap⟩
  have hc := hc.resolve_left hw.ne'
  cases txn with
  | flushDb ns db t a =>
    obtain ⟨hns, ⟨⟩⟩ := ite_none_right_eq_some.1 hchange
    obtain ⟨vns, hns⟩ := isSome_iff_exists.1 hns
    have hdec : vns = rootVirtualId → overwrites key (places.headD false)
        r.store.log (.dbMap rootVirtualId db) = true →
        r.store.log.decidedBy db [.dbMap rootVirtualId db] = true := by
      rintro rfl hov
      simpa only [Txn.action, careful, hns, ne_eq, not_true_eq_false, decide_false, Bool.false_or,
        hov, Bool.not_true] using hc
    obtain ⟨m, hm, heq⟩ := h.crash_flushDb hns hdec t a hw
    exact ⟨m, hm.ok, hm.agrees, .inr heq⟩
  | flushNs ns t a =>
    obtain ⟨hns, ⟨⟩⟩ := ite_none_right_eq_some.1 hchange
    obtain ⟨vns, hns⟩ := isSome_iff_exists.1 hns
    obtain ⟨m, hm, heq⟩ := h.crash_flushNs hns t a hw
    exact ⟨m, hm.ok, hm.agrees, .inr heq⟩
  | swapDb ns db1 db2 =>
    obtain ⟨vns, hns, hchange⟩ := bind_eq_some_iff.1 hchange
    obtain ⟨⟨hne, h₁, h₂⟩, ⟨⟩⟩ := ite_none_right_eq_some.1 hchange
    obtain ⟨vdb1, h₁⟩ := isSome_iff_exists.1 h₁
    obtain ⟨vdb2, h₂⟩ := isSome_iff_exists.1 h₂
    have hok := (swapCells_permuted h₁ h₂).ok h.ok
    by_cases hroot : vns = rootVirtualId
    · subst hroot
      simp only [hns, if_true, Bool.or_eq_true, Bool.and_eq_true] at hc
      refine ⟨_, hok, h.crash_swap_root hne h₁ h₂ (fun hov => ?_) hw, .inr rfl⟩
      exact hc.resolve_left (by rw [hov]; rintro ⟨⟩)
    · simp only [hns, some.injEq, hroot, if_false, bne_iff_ne] at hc
      obtain _ | _ | _ | k := written
      · cases hw
      · exact ⟨_, h.ok, (h.put_dbSwap_of_ne hroot _ db1 db2 _ _).agrees, .inl hmap⟩
      · exact absurd rfl hc
      · have hswap : Mapped _ (.persist places _ _) :=
          h.swapDatabases hne h₁ h₂ fun heq => absurd heq hroot
        refine ⟨_, hok, ?_, .inr rfl⟩
        rw [List.take_of_length_le (Nat.le_add_left 3 k)]
        exact hswap.agrees

lemma Run.Inv.step {r' : Run} {e : Event} (h : r.Inv) (hc : cautious r e = true)
    (hs : r.step e = some r') : r'.Inv := by
  unfold Run.step at hs
  split at hs
  · cases hs
  rename_i hrun
  rw [isSome_iff_ne_none, not_not] at hrun
  unfold Inv at h
  rw [hrun] at h
  obtain ⟨hmapped, hmap⟩ := h
  cases e with
  | complete =>
    obtain ⟨store, hstore, hs⟩ := bind_eq_some_iff.1 hs
    cases hs
    rw [hrun]
    exact ⟨hmapped.step hc hstore, rfl⟩
  | fail =>
    obtain ⟨change, hchange, hs⟩ := bind_eq_some_iff.1 hs
    obtain ⟨_, ⟨⟩⟩ := ite_none_right_eq_some.1 hs
    rw [hrun]
    exact Inv.fail hmapped hmap hchange hc
  | crash =>
    obtain ⟨change, hchange, hs⟩ := bind_eq_some_iff.1 hs
    cases hs
    exact Inv.crash hmapped hmap hchange hc

/-- In every history of cautious events, the next restart finds a whole mapping. -/
theorem atomic_of_cautious {r : Run}
    (h : Machine.Reaches Run.step (fun r e => cautious r e = true) Run.init r) : Atomic r :=
  (h.invariant (I := Run.Inv) ⟨Mapped.init, rfl⟩ Run.Inv.step).atomic

/-- A FLUSHDB that fails before its first record, a SWAPDB outside the root namespace that fails after
its pair record, and a SWAPDB of the root namespace that a crash cuts after its pair record. -/
theorem atomic_failures_and_cut : ∃ r, Atomic r ∧
    [r.store.log.restartMapping 0 1, r.store.log.restartMapping 0 2, r.store.log.restartMapping 7 1,
      r.store.log.restartMapping 7 2] =
      [some (0, 2), some (0, 1), some (3, 4), some (3, 5)] := by
  obtain ⟨r, hr, hobs⟩ := Machine.exists_reaches_of_run Run.step (fun r e => cautious r e = true)
    .init
    [.complete (.setContext 0 1 []), .complete (.setContext 0 2 []),
      .complete (.setContext 7 1 []), .complete (.setContext 7 2 []),
      .fail (.flushDb 0 1 10 0) 0 [], .fail (.swapDb 7 1 2) 1 [], .crash (.swapDb 0 1 2) 1 []]
    (fun r => [r.store.log.restartMapping 0 1, r.store.log.restartMapping 0 2,
      r.store.log.restartMapping 7 1, r.store.log.restartMapping 7 2])
    [some (0, 2), some (0, 1), some (3, 4), some (3, 5)] (by decide +kernel)
  exact ⟨r, atomic_of_cautious hr, hobs⟩

/-- A FLUSHDB fails behind its first record and reports an error; the restart maps the database to
the empty one all the same. -/
theorem exists_error_with_effect : ∃ r, Machine.Reachable Run.step Run.init r ∧ ¬Atomic r := by
  obtain ⟨r, hr, hobs⟩ := Machine.exists_reachable_of_run Run.step .init
    [.complete (.setContext 7 0 []), .fail (.flushDb 7 0 10 0) 1 []]
    (fun r => (r.store.log.restartMapping 7 0, r.expected 7 0, r.crashed.isSome))
    (some (1, 3), some (1, 2), false) (by decide +kernel)
  simp only [Prod.mk.injEq, isSome_eq_false_iff, isNone_iff_eq_none] at hobs
  obtain ⟨hrestart, hexpected, hcrashed⟩ := hobs
  refine ⟨r, hr, fun h => ?_⟩
  rcases h.restart_eq with heq | ⟨after, hafter, _⟩
  · rw [heq, hexpected] at hrestart
    cases hrestart
  · rw [hcrashed] at hafter
    cases hafter

end Wedb.Vdb
