import Wedb.Vdb.MappingSteps

/-!
# A restart finds the mapping that was in memory

Address order is not the order of the transactions: a record updated in place keeps its address and
a record copied by compaction gets a new one. Where two kinds of records set the cells of the root
namespace, the scan may therefore end with what an older transaction said. A 0x06 record of a SWAPDB
lies above the 0x02 records of its databases when these are updated in place, and a later FLUSHDB
that updates its 0x02 record in place stays below it: the database is back at its retired number
after a restart. Compaction moves a 0x06 record above everything, whatever its age. Apart from
that, the database (0, 0) is never persisted, although FLUSHNS gives it a new number.

Without these the mapping is rebuilt in every history.
-/

namespace Wedb.Vdb

open Option VirtualDbManager

/-- The steps that keep what the scan reads in step with memory:
- the database (0, 0) is not given a number outside FLUSHDB;
- a record of the root namespace is updated in place only where it decides its cell in the scan;
- a pair record of the root namespace is copied only while the 0x02 records of both databases say
  the same. -/
def careful (s : State) : Action → Bool
  | .setContext ns db _ | .resolveDb ns db _ =>
    decide (ns ≠ 0 ∨ db ≠ 0) || (s.mem.mapping ns db).isSome
  | .flushDb ns db _ _ places =>
    decide (s.mem.nsMap ns ≠ some rootVirtualId) ||
      !Journal.overwrites LogEntry.key (places.headD false) s.log (.dbMap rootVirtualId db) ||
      s.log.decidedBy db [.dbMap rootVirtualId db]
  | .swapDb ns db1 db2 places =>
    let pair := .dbSwap rootVirtualId db1 db2
    decide (s.mem.nsMap ns ≠ some rootVirtualId) ||
      !Journal.overwrites LogEntry.key (places.headD false) s.log pair ||
      ((!places.tail.headD false || s.log.decidedBy db1 [.dbMap rootVirtualId db1, pair]) &&
        (!places.tail.tail.headD false || s.log.decidedBy db2 [.dbMap rootVirtualId db2, pair]))
  | .copy (.dbSwap vns db1 db2) =>
    decide (vns ≠ rootVirtualId) ||
      match s.log.read (.dbSwap vns db1 db2) with
      | some (.dbSwap _ _ _ vdb1 vdb2) =>
        decide (s.log.probeDb vns db1 = some vdb1 ∧ s.log.probeDb vns db2 = some vdb2)
      | _ => true
  | _ => true

/-! ### Drawing numbers -/

variable {ns vns db : Nat}

section Drawing

variable {m : VirtualDbManager} {log : MetaLog} {places : List Bool}

lemma getOrCreateNs_of_some (h : m.nsMap ns = some vns) :
    m.getOrCreateNs ns = ((vns, false), m) := by
  rw [getOrCreateNs, h]

lemma getOrCreateNs_of_none (h : m.nsMap ns = none) :
    (m.getOrCreateNs ns).1 = (m.nextVirtualId, true) ∧ FreshNs m (m.getOrCreateNs ns).2 ns := by
  rw [getOrCreateNs, h]
  exact ⟨rfl, rfl, rfl, rfl, rfl⟩

lemma getOrCreateDbForVns_of_some {vdb : Nat} (h : m.dbRouting vns db = some vdb) :
    m.getOrCreateDbForVns vns db = ((vdb, false), m) := by
  rw [getOrCreateDbForVns, h]

lemma freshDb_insertDbMapping (m : VirtualDbManager) (vns db : Nat) :
    FreshDb m ({ m with nextVirtualId := m.nextVirtualId + 1 }.insertDbMapping vns db
      m.nextVirtualId) vns db :=
  ⟨rfl, fun v d => insertDbMapping_dbRouting _ vns db m.nextVirtualId v d, rfl, rfl⟩

lemma getOrCreateDbForVns_of_none (h : m.dbRouting vns db = none) :
    (m.getOrCreateDbForVns vns db).1 = (m.nextVirtualId, true) ∧
      FreshDb m (m.getOrCreateDbForVns vns db).2 vns db := by
  rw [getOrCreateDbForVns, h]
  exact ⟨rfl, freshDb_insertDbMapping m vns db⟩

lemma swapDb_of_some (db : Nat) (hns : m.nsMap ns = some vns) :
    (m.swapDb ns db).1 = (vns, m.nextVirtualId, m.dbRouting vns db) ∧
      FreshDb m (m.swapDb ns db).2 vns db := by
  rw [swapDb, getOrCreateNs_of_some hns]
  exact ⟨rfl, rfl, (freshDb_insertDbMapping m vns db).dbRouting, rfl, rfl⟩

lemma swapNs_of_some (hns : m.nsMap ns = some vns) :
    (m.swapNs ns).1 = (m.nextVirtualId, some vns) ∧ FreshNs m (m.swapNs ns).2 ns := by
  rw [swapNs, hns]
  exact ⟨rfl, rfl, rfl, rfl, rfl⟩

/-- A database without a number has no record that could be updated. -/
lemma Mapped.decidedBy_of_none (h : Mapped m log) {keys : List MetaKey}
    (hdb : m.dbRouting rootVirtualId db = none) : log.decidedBy db keys = true := by
  rw [MetaLog.decidedBy_iff]
  intro q hq
  have hroot := h.agrees.root db
  rw [hdb, Journal.findSome?_eq_setting LogEntry.key, hq] at hroot
  cases hroot

/-- A new database in a known namespace. -/
lemma Mapped.createDb (h : Mapped m log) (hns : vns < m.nextVirtualId)
    (hdb : m.dbRouting vns db = none) {place : Bool} :
    Mapped (m.getOrCreateDbForVns vns db).2 (log.put place (.dbMap vns db m.nextVirtualId)) := by
  refine h.freshDb (getOrCreateDbForVns_of_none hdb).2 hns ?_
  rintro rfl -
  exact h.decidedBy_of_none hdb

end Drawing

/-! ### The transactions -/

namespace Mapped

variable {m : VirtualDbManager} {log : MetaLog} {places : List Bool}

section

variable (h : Mapped m log)
include h

lemma setContext (hc : (ns ≠ 0 ∨ db ≠ 0) ∨ (m.mapping ns db).isSome) :
    Mapped (m.setContext ns db).mem (log.persist places (m.setContext ns db).batch) := by
  cases hns : m.nsMap ns with
  | some vns =>
    cases hdb : m.dbRouting vns db with
    | some =>
      have heq : m.setContext ns db = ⟨m, []⟩ := by
        simp [VirtualDbManager.setContext, getOrCreateNs_of_some hns,
          getOrCreateDbForVns_of_some hdb]
      rw [heq]
      exact h
    | none =>
      have hnz : ns ≠ 0 ∨ db ≠ 0 := by
        refine hc.resolve_right ?_
        simp [mapping, hns, hdb]
      have hdraw := (getOrCreateDbForVns_of_none hdb).1
      have heq : m.setContext ns db = ⟨(m.getOrCreateDbForVns vns db).2,
          [.dbMap vns db m.nextVirtualId,
            .nextId (m.getOrCreateDbForVns vns db).2.nextVirtualId]⟩ := by
        simp [VirtualDbManager.setContext, getOrCreateNs_of_some hns, hdraw, hnz]
      rw [heq]
      exact (h.createDb (h.ok.ns_lt hns) hdb).put_nextId _
  | none =>
    have hnz : ns ≠ 0 := by
      rintro rfl
      exact h.nsMap_zero hns
    obtain ⟨hdraw, hf⟩ := getOrCreateNs_of_none hns
    have hdb : (m.getOrCreateNs ns).2.dbRouting m.nextVirtualId db = none := by
      rw [hf.dbRouting]
      by_contra hne
      obtain ⟨vdb, hvdb⟩ := ne_none_iff_exists'.1 hne
      exact lt_irrefl _ (h.ok.vns_lt hvdb)
    have hdrawDb := (getOrCreateDbForVns_of_none hdb).1
    have heq : m.setContext ns db =
        ⟨((m.getOrCreateNs ns).2.getOrCreateDbForVns m.nextVirtualId db).2,
          [.nsMap ns m.nextVirtualId,
            .dbMap m.nextVirtualId db (m.getOrCreateNs ns).2.nextVirtualId,
            .nextId ((m.getOrCreateNs ns).2.getOrCreateDbForVns m.nextVirtualId db).2.nextVirtualId]⟩ := by
      simp [VirtualDbManager.setContext, hdraw, hdrawDb, hnz]
    rw [heq]
    refine ((h.freshNs hf).createDb ?_ hdb).put_nextId _
    rw [hf.next]
    exact Nat.lt_succ_self _

lemma resolveNs :
    Mapped (m.resolveNs log ns).mem (log.persist places (m.resolveNs log ns).batch) := by
  rw [VirtualDbManager.resolveNs, h.lookupNs_eq]
  cases hns : m.nsMap ns with
  | some =>
    simp only [adoptNsMapping, hns]
    exact h
  | none =>
    obtain ⟨hdraw, hf⟩ := getOrCreateNs_of_none hns
    have hnz : ns ≠ 0 := by
      rintro rfl
      exact h.nsMap_zero hns
    simp only [hdraw, if_pos hnz]
    exact h.freshNs hf

section

variable (hns : m.nsMap ns = some vns)
include hns

lemma resolveDb (hc : (ns ≠ 0 ∨ db ≠ 0) ∨ (m.mapping ns db).isSome) :
    Mapped (m.resolveDb log ns vns db).mem (log.persist places (m.resolveDb log ns vns db).batch) := by
  rw [VirtualDbManager.resolveDb, h.lookupDb_eq]
  cases hdb : m.dbRouting vns db with
  | some =>
    simp only [adoptDbMapping, hdb]
    exact h
  | none =>
    have hnz : ns ≠ 0 ∨ db ≠ 0 := by
      refine hc.resolve_right ?_
      simp [mapping, hns, hdb]
    simp only [(getOrCreateDbForVns_of_none hdb).1, if_pos hnz]
    exact h.createDb (h.ok.ns_lt hns) hdb

/-- FLUSHDB after its first record: the database has a fresh number. -/
lemma swapDb {place : Bool} (hc : vns = rootVirtualId → Journal.overwrites LogEntry.key place log
      (.dbMap rootVirtualId db) = true → log.decidedBy db [.dbMap rootVirtualId db] = true) :
    Mapped (m.swapDb ns db).2 (log.put place (.dbMap vns db m.nextVirtualId)) := by
  refine h.freshDb (swapDb_of_some db hns).2 (h.ok.ns_lt hns) ?_
  rintro rfl
  exact hc rfl

lemma flushDatabase
    (hc : vns = rootVirtualId → Journal.overwrites LogEntry.key (places.headD false) log
      (.dbMap rootVirtualId db) = true → log.decidedBy db [.dbMap rootVirtualId db] = true)
    (t : Int) (a : Nat) :
    Mapped (m.flushDatabase ns db t a).mem (log.persist places (m.flushDatabase ns db t a).batch) := by
  obtain ⟨hswap, hf⟩ := swapDb_of_some db hns
  have hmap := h.swapDb hns hc
  simp only [VirtualDbManager.flushDatabase, flushDb, hswap]
  cases hdb : m.dbRouting vns db with
  | none => exact hmap.put_nextId _
  | some =>
    have hspent := hf.spentDb_old h.ok hdb
    exact ((hmap.gcDeadInsert_db t a vns hspent).put_gcDeadDb t vns a hspent).put_nextId _

lemma flushNamespace (t : Int) (a : Nat) :
    Mapped (m.flushNamespace ns t a).mem (log.persist places (m.flushNamespace ns t a).batch) := by
  obtain ⟨hswap, hf⟩ := swapNs_of_some hns
  have hspent := hf.spentNs_old h.ok hns
  simp only [VirtualDbManager.flushNamespace, flushNs, hswap]
  exact (((h.freshNs hf).gcDeadInsert_ns t a hspent).put_gcDeadNs t a hspent).put_nextId _

end

lemma swapDatabases {db1 db2 vdb1 vdb2 : Nat} (hne : db1 ≠ db2)
    (h₁ : m.dbRouting vns db1 = some vdb1) (h₂ : m.dbRouting vns db2 = some vdb2)
    (hc : vns = rootVirtualId → Journal.overwrites LogEntry.key (places.headD false) log
        (.dbSwap rootVirtualId db1 db2) = true →
      (places.tail.headD false = true →
        log.decidedBy db1 [.dbMap rootVirtualId db1, .dbSwap rootVirtualId db1 db2] = true) ∧
      (places.tail.tail.headD false = true →
        log.decidedBy db2 [.dbMap rootVirtualId db2, .dbSwap rootVirtualId db1 db2] = true)) :
    Mapped (m.swapDatabases vns db1 db2).mem
      (log.persist places (m.swapDatabases vns db1 db2).batch) := by
  have hcells : (m.swapCells vns db1 db2).1 = (vdb1, vdb2) := by
    rw [swapCells, h₁, h₂]
    rfl
  simp only [VirtualDbManager.swapDatabases, hcells]
  exact h.swap hne h₁ h₂ hc

end

lemma step {s s' : State} {a : Action} (h : Mapped s.mem s.log) (hc : careful s a = true)
    (hs : Vdb.step s a = some s') : Mapped s'.mem s'.log := by
  cases a with
  | setContext =>
    cases hs
    exact h.setContext (by simpa [careful] using hc)
  | resolveNs =>
    cases hs
    exact h.resolveNs
  | resolveDb =>
    obtain ⟨vns, hns, hs⟩ := bind_eq_some_iff.1 hs
    cases hs
    exact h.resolveDb hns (by simpa [careful] using hc)
  | flushDb ns db t a =>
    obtain ⟨hns, ⟨⟩⟩ := ite_none_right_eq_some.1 hs
    obtain ⟨vns, hns⟩ := isSome_iff_exists.1 hns
    refine h.flushDatabase hns ?_ t a
    rintro rfl hov
    simpa only [careful, hns, ne_eq, not_true_eq_false, decide_false, Bool.false_or, hov,
      Bool.not_true] using hc
  | flushNs ns t a =>
    obtain ⟨hns, ⟨⟩⟩ := ite_none_right_eq_some.1 hs
    obtain ⟨vns, hns⟩ := isSome_iff_exists.1 hns
    exact h.flushNamespace hns t a
  | swapDb =>
    obtain ⟨vns, hns, hs⟩ := bind_eq_some_iff.1 hs
    obtain ⟨⟨hne, h₁, h₂⟩, ⟨⟩⟩ := ite_none_right_eq_some.1 hs
    obtain ⟨vdb1, h₁⟩ := isSome_iff_exists.1 h₁
    obtain ⟨vdb2, h₂⟩ := isSome_iff_exists.1 h₂
    refine h.swapDatabases hne h₁ h₂ ?_
    rintro rfl hov
    simp only [careful, hns, ne_eq, not_true_eq_false, decide_false, Bool.false_or, hov,
      Bool.not_true, Bool.and_eq_true, Bool.or_eq_true] at hc
    exact ⟨fun hp => hc.1.resolve_left (by rw [hp]; rintro ⟨⟩),
      fun hp => hc.2.resolve_left (by rw [hp]; rintro ⟨⟩)⟩
  | copy key =>
    obtain ⟨record, hread, hs⟩ := bind_eq_some_iff.1 hs
    cases hs
    refine h.copy hread fun d₁ d₂ w₁ w₂ hrec => ?_
    subst hrec
    have hkey : key = .dbSwap rootVirtualId d₁ d₂ := by
      unfold MetaLog.read at hread
      split at hread
      · rename_i r hr
        cases hread
        exact (Journal.mem_of_lookup hr).2.symm
      · cases hread
    subst hkey
    simpa [careful, hread] using hc

/-- What the invariant says of a restart. -/
lemma rebuilt {s : State} (h : Mapped s.mem s.log) : Rebuilt s where
  restart_eq := h.agrees.restart_eq
  distinct := by
    intro ns db ns' db' vns vns' vdb h₁ h₂
    rw [h.agrees.restart_eq] at h₁ h₂
    obtain ⟨v, hv, w, hw, ⟨⟩⟩ : ∃ v, s.mem.nsMap ns = some v ∧ ∃ w, s.mem.dbRouting v db = some w ∧
        (v, w) = (vns, vdb) := by simpa [mapping, bind_eq_some_iff] using h₁
    obtain ⟨v', hv', w', hw', ⟨⟩⟩ : ∃ v, s.mem.nsMap ns' = some v ∧
        ∃ w, s.mem.dbRouting v db' = some w ∧ (v, w) = (vns', vdb) := by
      simpa [mapping, bind_eq_some_iff] using h₂
    obtain ⟨rfl, hd⟩ := h.ok.db_inj hw hw'
    exact ⟨h.ok.ns_inj hv hv', hd⟩
  not_retired := by
    intro ns db vns vdb h₁
    rw [h.agrees.restart_eq] at h₁
    obtain ⟨v, hv, w, hw, ⟨⟩⟩ : ∃ v, s.mem.nsMap ns = some v ∧ ∃ w, s.mem.dbRouting v db = some w ∧
        (v, w) = (vns, vdb) := by simpa [mapping, bind_eq_some_iff] using h₁
    exact h.ok.isDeadDomain_eq_false hv hw

end Mapped

/-- In every history of careful steps, a restart at any time finds the mapping in memory. -/
theorem rebuilt_of_careful {s : State}
    (h : Machine.Reaches step (fun s a => careful s a = true) State.init s) : Rebuilt s :=
  Mapped.rebuilt (h.invariant (I := fun s => Mapped s.mem s.log) Mapped.init Mapped.step)

/-- Two databases of the root namespace and one of another, a SWAPDB and a FLUSHDB with appended
records, compaction of the new 0x02 record, and a FLUSHDB in place. -/
theorem rebuilt_swap_flush : ∃ s, Rebuilt s ∧
    [s.log.restartMapping 0 1, s.log.restartMapping 0 2, s.log.restartMapping 7 0] =
      [some (0, 5), some (0, 7), some (3, 4)] := by
  obtain ⟨s, hs, hobs⟩ := Machine.exists_reaches_of_run step (fun s a => careful s a = true)
    .init
    [.setContext 0 1 [], .setContext 0 2 [], .setContext 7 0 [], .swapDb 0 1 2 [false, true, true],
      .flushDb 0 1 10 0 [false, false, true], .flushDb 0 2 10 0 [false],
      .copy (.dbMap 0 1), .flushDb 0 2 10 0 [true]]
    (fun s => [s.log.restartMapping 0 1, s.log.restartMapping 0 2, s.log.restartMapping 7 0])
    [some (0, 5), some (0, 7), some (3, 4)] (by decide +kernel)
  exact ⟨s, rebuilt_of_careful hs, hobs⟩

/-- SWAPDB 1 2 and FLUSHDB 1, both updating 0x02 records in place: the restart maps database 1 to
number 2, which the FLUSHDB retired. -/
theorem exists_retired_after_restart : ∃ s, Machine.Reachable step State.init s ∧ ¬Rebuilt s := by
  obtain ⟨s, hs, hobs⟩ := Machine.exists_reachable_of_run step .init
    [.setContext 0 1 [], .setContext 0 2 [], .swapDb 0 1 2 [false, true, true],
      .flushDb 0 1 10 0 [true, false, true]]
    (fun s => (s.log.restartMapping 0 1, s.mem.mapping 0 1, s.mem.isDeadDomain 0 2))
    (some (0, 2), some (0, 3), true) (by decide +kernel)
  simp only [Prod.mk.injEq] at hobs
  refine ⟨s, hs, fun h => ?_⟩
  have := h.not_retired 0 1 0 2 hobs.1
  rw [hobs.2.2] at this
  cases this

end Wedb.Vdb
