import Wedb.Vdb.NumbersInvariant
import Wedb.Vdb.RestartMapping

/-!
# A virtual number is handed out once

A context draws its numbers in memory and only tries to persist them. When the page turns, the batch
is left out, watermark included; the session writes data under the new number all the same, and after
a restart the counter stands below it: the next database gets the number and sees the data of the
other one. The database (0, 0) needs no failure for that, since its number is never persisted.

When the batches of context creations are written, mirrored records do not lower what the log accounts
for, SWAPDB finds its 0x02 records in step with memory and FLUSHALL leaves nothing behind under a root
number that it hands out again, no number is handed out twice.
-/

namespace Wedb.Numbers

open Nat Option Vdb VirtualDbManager LogEntry

/-- The steps that leave every drawn number in the log. -/
def persisted (s : State) : Action → Bool
  | .setContext ns db written _ =>
    (decide (ns ≠ 0 ∨ db ≠ 0) || (s.mem.mapping ns db).isSome) &&
      decide ((s.mem.setContext ns db).batch.length ≤ written)
  | .resolveNs ns written _ => decide ((s.mem.resolveNs s.log ns).batch.length ≤ written)
  | .resolveDb ns db written _ =>
    match s.mem.nsMap ns with
    | some vns =>
      (decide (ns ≠ 0 ∨ db ≠ 0) || (s.mem.lookupDb s.log vns db).isSome) &&
        decide ((s.mem.resolveDb s.log ns vns db).batch.length ≤ written)
    | none => true
  | .swapDb ns db1 db2 _ =>
    match s.mem.nsMap ns with
    | some vns => [db1, db2].all fun db =>
        (s.log.probeDb vns db).isNone || s.log.probeDb vns db = s.mem.dbRouting vns db
    | none => true
  | .flushAll _ datas => (s.data.take datas).all fun r =>
      decide (r.vns ≠ rootVirtualId ∨ s.mem.nsMap 0 = some rootVirtualId) &&
        decide (r.vdb ≠ rootVirtualId ∨ s.mem.mapping 0 0 = some (rootVirtualId, rootVirtualId))
  | .applyRecord record _ =>
    match record with
    | .gcDeadNs .. | .gcDeadDb .. | .dbSwap .. => decide (record.vid < s.mem.nextVirtualId)
    | .nextId _ => (s.log.read .nextId).all fun old => decide (old.vid ≤ record.vid)
    | _ => (s.log.read record.key).all fun old =>
        decide (old.vid ≤ record.vid) ||
          (s.log.read .nextId).any fun watermark => decide (old.vid ≤ watermark.vid)
  | _ => true

/-! ### Drawing numbers -/

section Drawing

variable {m : VirtualDbManager} {log : MetaLog} {places : List Bool}

/-- The batch of a context is empty or ends with the watermark. -/
lemma setContext_batch (m : VirtualDbManager) (ns db : Nat) :
    let ns' := m.getOrCreateNs ns
    let db' := ns'.2.getOrCreateDbForVns ns'.1.1 db
    ∃ records : List DbMetaRecord,
      (m.setContext ns db).batch =
        (if records.isEmpty then [] else records ++ [.nextId (m.setContext ns db).mem.nextVirtualId]) ∧
      (∀ r ∈ records, r = .nsMap ns ns'.1.1 ∨ r = .dbMap ns'.1.1 db db'.1.1) ∧
      (records = [] → ¬(ns'.1.2 = true ∧ ns ≠ 0) ∧ ¬(db'.1.2 = true ∧ (ns ≠ 0 ∨ db ≠ 0))) := by
  intro ns' db'
  refine ⟨(if ns'.1.2 = true ∧ ns ≠ 0 then [.nsMap ns ns'.1.1] else []) ++
    (if db'.1.2 = true ∧ (ns ≠ 0 ∨ db ≠ 0) then [.dbMap ns'.1.1 db db'.1.1] else []), rfl, ?_, ?_⟩
  · intro r hr
    rw [List.mem_append, List.mem_ite_nil_right, List.mem_ite_nil_right, List.mem_singleton,
      List.mem_singleton] at hr
    exact hr.imp And.right And.right
  · intro hnil
    obtain ⟨h₁, h₂⟩ := List.append_eq_nil_iff.1 hnil
    constructor <;> intro hc
    · rw [if_pos hc] at h₁
      cases h₁
    · rw [if_pos hc] at h₂
      cases h₂

lemma sound_setContext (h : m.Bounded) (ns db : Nat) : Sound m (m.setContext ns db) := by
  have hns := h.getOrCreateNs ns
  have hdb := hns.bounded.getOrCreateDbForVns (m.getOrCreateNs ns).1.1 db
  have hle : (m.getOrCreateNs ns).2.nextVirtualId ≤ (m.setContext ns db).mem.nextVirtualId := by
    show _ ≤ ((m.getOrCreateNs ns).2.getOrCreateDbForVns (m.getOrCreateNs ns).1.1 db).2.nextVirtualId
    rw [hdb.next]
    split <;> omega
  refine ⟨hdb.bounded, le_trans ?_ hle, fun r hr => ?_⟩
  · rw [hns.next]
    split <;> omega
  · obtain ⟨records, hbatch, hrecords, _⟩ := setContext_batch m ns db
    rw [hbatch] at hr
    split at hr
    · cases hr
    · rcases List.mem_append.1 hr with hr | hr
      · rcases hrecords r hr with rfl | rfl
        · exact hns.lt.trans_le hle
        · exact hdb.lt
      · rw [List.mem_singleton.1 hr]
        exact sub_one_lt hdb.bounded.pos.ne'

variable {ns : Nat}

lemma covered_setContext (h : m.Bounded) {db : Nat}
    (hc : (ns ≠ 0 ∨ db ≠ 0) ∨ (m.mapping ns db).isSome)
    (hcovered : ∀ x, 0 < x → x < m.nextVirtualId → log.Covered x) {x : Nat} (h₀ : 0 < x)
    (h₁ : x < (m.setContext ns db).mem.nextVirtualId) :
    (log.persist places (m.setContext ns db).batch).Covered x := by
  obtain ⟨records, hbatch, _, hempty⟩ := setContext_batch m ns db
  rw [hbatch]
  split
  · -- nothing was drawn
    rename_i hnil
    obtain ⟨hns, hdb⟩ := hempty (List.isEmpty_iff.1 hnil)
    refine hcovered x h₀ (h₁.trans_le (le_of_eq ?_))
    show ((m.getOrCreateNs ns).2.getOrCreateDbForVns (m.getOrCreateNs ns).1.1 db).2.nextVirtualId = _
    cases hmap : m.nsMap ns with
    | none =>
      have hz : ns ≠ 0 := by
        rintro rfl
        exact h.zero hmap
      exact absurd ⟨by rw [(getOrCreateNs_of_none hmap).1], hz⟩ hns
    | some vns =>
      rw [getOrCreateNs_of_some hmap] at hdb ⊢
      cases hcell : m.dbRouting vns db with
      | some => rw [getOrCreateDbForVns_of_some hcell]
      | none =>
        have hnz : ns ≠ 0 ∨ db ≠ 0 := by
          refine hc.resolve_right ?_
          simp [mapping, hmap, hcell]
        exact absurd ⟨by rw [(getOrCreateDbForVns_of_none hcell).1], hnz⟩ hdb
  · exact MetaLog.covered_persist_nextId h₁ records places log

variable {vns : Nat}

lemma probeNs_lt (hvids : ∀ r, put r ∈ log → r.vid < m.nextVirtualId)
    (h : log.probeNs ns = some vns) : vns < m.nextVirtualId := by
  unfold MetaLog.probeNs at h
  split at h
  · rename_i hread
    cases h
    exact hvids _ (MetaLog.read_key hread).2
  · cases h

lemma probeDb_lt (hvids : ∀ r, put r ∈ log → r.vid < m.nextVirtualId) {db vdb : Nat}
    (h : log.probeDb vns db = some vdb) : vdb < m.nextVirtualId := by
  unfold MetaLog.probeDb at h
  split at h
  · rename_i hread
    cases h
    exact hvids _ (MetaLog.read_key hread).2
  · cases h

section

variable (h : m.Bounded)
include h

/-- `resolve_ns` loads a number that the log accounts for, or draws one and writes it down. -/
lemma resolveNs_sound (hvids : ∀ r, put r ∈ log → r.vid < m.nextVirtualId)
    (hcovered : ∀ x, 0 < x → x < m.nextVirtualId → log.Covered x) (ns : Nat) :
    Sound m (m.resolveNs log ns) ∧ ∀ x, 0 < x → x < (m.resolveNs log ns).mem.nextVirtualId →
      (log.persist places (m.resolveNs log ns).batch).Covered x := by
  unfold resolveNs
  cases hlookup : m.lookupNs log ns with
  | some =>
    unfold adoptNsMapping
    cases hmap : m.nsMap ns with
    | some => exact ⟨⟨h, le_rfl, List.forall_mem_nil _⟩, hcovered⟩
    | none =>
      rw [lookupNs, hmap] at hlookup
      have hlt := probeNs_lt hvids (eq_some_of_filter_eq_some hlookup)
      exact ⟨⟨h.updateNs rfl hlt rfl le_rfl, le_rfl, List.forall_mem_nil _⟩, hcovered⟩
  | none =>
    have hmap : m.nsMap ns = none := (or_eq_none_iff.1 hlookup).1
    have hz : ns ≠ 0 := by
      rintro rfl
      exact h.zero hmap
    obtain ⟨hdraw, hf⟩ := getOrCreateNs_of_none hmap
    simp only [hdraw, if_pos hz]
    refine ⟨⟨(h.getOrCreateNs ns).bounded, hf.next ▸ le_succ _,
      List.forall_mem_singleton.2 (hf.next ▸ lt_succ_self _)⟩, fun x _ h₁ => ?_⟩
    · rw [hf.next] at h₁
      exact MetaLog.covered_put_self rfl (le_of_lt_succ h₁)

lemma resolveDb_sound (hvids : ∀ r, put r ∈ log → r.vid < m.nextVirtualId)
    (hcovered : ∀ x, 0 < x → x < m.nextVirtualId → log.Covered x) {db : Nat}
    (hc : (ns ≠ 0 ∨ db ≠ 0) ∨ (m.lookupDb log vns db).isSome) :
    Sound m (m.resolveDb log ns vns db) ∧
      ∀ x, 0 < x → x < (m.resolveDb log ns vns db).mem.nextVirtualId →
        (log.persist places (m.resolveDb log ns vns db).batch).Covered x := by
  unfold resolveDb
  cases hlookup : m.lookupDb log vns db with
  | some =>
    unfold adoptDbMapping
    cases hcell : m.dbRouting vns db with
    | some => exact ⟨⟨h, le_rfl, List.forall_mem_nil _⟩, hcovered⟩
    | none =>
      rw [lookupDb, hcell] at hlookup
      have hlt := probeDb_lt hvids (eq_some_of_filter_eq_some hlookup)
      exact ⟨⟨h.insertDbMapping hlt, le_rfl, List.forall_mem_nil _⟩, hcovered⟩
  | none =>
    rw [hlookup] at hc
    have hnz : ns ≠ 0 ∨ db ≠ 0 := hc.resolve_right Bool.false_ne_true
    have hcell : m.dbRouting vns db = none := (or_eq_none_iff.1 hlookup).1
    obtain ⟨hdraw, hf⟩ := getOrCreateDbForVns_of_none hcell
    simp only [hdraw, if_pos hnz]
    refine ⟨⟨(h.getOrCreateDbForVns vns db).bounded, hf.next ▸ le_succ _,
      List.forall_mem_singleton.2 (hf.next ▸ lt_succ_self _)⟩, fun x _ h₁ => ?_⟩
    · rw [hf.next] at h₁
      exact MetaLog.covered_put_self rfl (le_of_lt_succ h₁)

/-- The record at the end of a batch names the last number drawn. -/
lemma nextId_lt : ∀ r ∈ [DbMetaRecord.nextId m.nextVirtualId], r.vid < m.nextVirtualId :=
  List.forall_mem_singleton.2 (sub_one_lt h.pos.ne')

lemma flushDatabase_sound (hns : m.nsMap ns = some vns) (db : Nat) (t : Int) (a : Nat) :
    Sound m (m.flushDatabase ns db t a) ∧
      ∀ x, 0 < x → x < (m.flushDatabase ns db t a).mem.nextVirtualId →
        (log.persist places (m.flushDatabase ns db t a).batch).Covered x := by
  obtain ⟨hswap, hf⟩ := swapDb_of_some db hns
  have hle : m.nextVirtualId ≤ (m.swapDb ns db).2.nextVirtualId := hf.next ▸ le_succ _
  have hlt : m.nextVirtualId < (m.swapDb ns db).2.nextVirtualId := hf.next ▸ lt_succ_self _
  have hb : (m.swapDb ns db).2.Bounded := by
    refine h.mono hf.nsMap (fun {v d w} hw => ?_) hle
    rw [hf.dbRouting] at hw
    split at hw
    · exact .inr (some.inj hw ▸ hlt)
    · exact .inl hw
  simp only [flushDatabase, flushDb, hswap]
  cases hdb : m.dbRouting vns db with
  | none =>
    refine ⟨⟨hb, hle, List.forall_mem_cons.2 ⟨hlt, nextId_lt hb⟩⟩, fun x _ h₁ => ?_⟩
    exact MetaLog.covered_persist_nextId h₁ [_] places log
  | some vdb =>
    have hb' : ((m.swapDb ns db).2.gcDeadInsert vdb ⟨t, a, some vns⟩).Bounded := ⟨hb.pos, hb.zero, hb.ns, hb.db⟩
    refine ⟨⟨hb', hle, List.forall_mem_cons.2 ⟨hlt, List.forall_mem_cons.2
      ⟨(h.db hdb).trans hlt, nextId_lt hb'⟩⟩⟩, fun x _ h₁ => ?_⟩
    exact MetaLog.covered_persist_nextId h₁ [_, _] places log

lemma flushNamespace_sound (hns : m.nsMap ns = some vns) (t : Int) (a : Nat) :
    Sound m (m.flushNamespace ns t a) ∧
      ∀ x, 0 < x → x < (m.flushNamespace ns t a).mem.nextVirtualId →
        (log.persist places (m.flushNamespace ns t a).batch).Covered x := by
  obtain ⟨hswap, hf⟩ := swapNs_of_some hns
  have hle : m.nextVirtualId ≤ (m.swapNs ns).2.nextVirtualId := hf.next ▸ le_succ _
  have hlt : m.nextVirtualId < (m.swapNs ns).2.nextVirtualId := hf.next ▸ lt_succ_self _
  have hb := h.updateNs hf.nsMap hlt hf.dbRouting hle
  simp only [flushNamespace, flushNs, hswap]
  have hb' : ((m.swapNs ns).2.gcDeadInsert vns ⟨t, a, none⟩).Bounded :=
    ⟨hb.pos, hb.zero, hb.ns, hb.db⟩
  refine ⟨⟨hb', hle, List.forall_mem_cons.2 ⟨hlt, List.forall_mem_cons.2
    ⟨(h.ns hns).trans hlt, nextId_lt hb'⟩⟩⟩, fun x _ h₁ => ?_⟩
  exact MetaLog.covered_persist_nextId h₁ [_, _] places log

/-- SWAPDB draws nothing. Its 0x02 records exchange their numbers, when they held those of memory. -/
lemma swapDatabases_sound
    (hcovered : ∀ x, 0 < x → x < m.nextVirtualId → log.Covered x) {db1 db2 vdb1 vdb2 : Nat}
    (hne : db1 ≠ db2)
    (h₁ : m.dbRouting vns db1 = some vdb1) (h₂ : m.dbRouting vns db2 = some vdb2)
    (hc₁ : log.probeDb vns db1 = none ∨ log.probeDb vns db1 = some vdb1)
    (hc₂ : log.probeDb vns db2 = none ∨ log.probeDb vns db2 = some vdb2) :
    Sound m (m.swapDatabases vns db1 db2) ∧
      ∀ x, 0 < x → x < (m.swapDatabases vns db1 db2).mem.nextVirtualId →
        (log.persist places (m.swapDatabases vns db1 db2).batch).Covered x := by
  have hcells : (m.swapCells vns db1 db2).1 = (vdb1, vdb2) := by
    rw [swapCells, h₁, h₂]
    rfl
  have hb : (m.swapCells vns db1 db2).2.Bounded := by
    refine h.mono rfl (fun {v d w} hw => ?_) le_rfl
    rw [(swapCells_permuted h₁ h₂).dbRouting] at hw
    exact .inr (h.db hw)
  have hold : ∀ {db vdb}, log.probeDb vns db = none ∨ log.probeDb vns db = some vdb →
      ∀ old, log.read (.dbMap vns db) = some old → old.vid = vdb := by
    intro db vdb hc old hread
    obtain ⟨hkey, _⟩ := MetaLog.read_key hread
    rcases old with _ | ⟨v, d, w⟩ | _ | _ | _ | _ <;> try cases hkey
    rw [MetaLog.probeDb_of_read hread] at hc
    exact some.inj (hc.resolve_left (some_ne_none _))
  simp only [swapDatabases, hcells]
  refine ⟨⟨hb, le_rfl, fun r hr => ?_⟩, fun x h₀ hx => ?_⟩
  · have hlt₁ := h.db h₁
    have hlt₂ := h.db h₂
    rcases List.mem_cons.1 hr with rfl | hr
    · exact max_lt hlt₂ hlt₁
    rcases List.mem_cons.1 hr with rfl | hr
    · exact hlt₂
    · rw [List.mem_singleton.1 hr]
      exact hlt₁
  · -- what covers the number is moved at most to the other database
    show MetaLog.Covered (.put (.put (.put log _ _) _ _) _ _) x
    obtain ⟨r, hread, hlast, hvid⟩ := hcovered x h₀ hx
    by_cases hk₁ : r.key = .dbMap vns db1
    · refine MetaLog.covered_put_self rfl ?_
      rw [hk₁] at hread
      exact hvid.trans_eq (hold hc₁ r hread)
    by_cases hk₂ : r.key = .dbMap vns db2
    · have hmoved : x ≤ (DbMetaRecord.dbMap vns db1 vdb2).vid := by
        rw [hk₂] at hread
        exact hvid.trans_eq (hold hc₂ r hread)
      refine (MetaLog.covered_put_self rfl hmoved).put fun old hread' _ _ => ?_
      refine ⟨.dbMap vns db1 vdb2, ?_, rfl, hmoved⟩
      rw [MetaLog.read_put_of_ne, MetaLog.read_put, if_pos rfl]
      exact fun heq => hne (MetaKey.dbMap.inj heq).2
    · refine ⟨r, ?_, hlast, hvid⟩
      rw [MetaLog.read_put_of_ne hk₂, MetaLog.read_put_of_ne hk₁,
        MetaLog.read_put_of_ne (DbMetaRecord.key_ne_dbSwap hlast _ _ _), hread]

end

end Drawing

/-! ### Mirrored records -/

variable {place : Bool}

section Mirrored

variable {m m' : VirtualDbManager} {log : MetaLog}

lemma bounded_applyRecord (h : m.Bounded) {r : DbMetaRecord}
    (hns : m'.nsMap = (m.applyRecord r).2.nsMap)
    (hdb : m'.dbRouting = (m.applyRecord r).2.dbRouting) (hnext : m.nextVirtualId ≤ m'.nextVirtualId)
    (hvid : r.vid < m'.nextVirtualId) : m'.Bounded := by
  cases r with
  | nsMap => exact h.updateNs hns hvid hdb hnext
  | dbMap =>
    refine h.mono ?_ (fun {v' d' w'} hw => ?_) hnext
    · rw [hns]
      simp only [applyRecord]
      split <;> rfl
    · rw [hdb] at hw
      simp only [applyRecord] at hw
      split at hw
      · rw [insertDbMapping_dbRouting] at hw
        split at hw
        · exact .inr (some.inj hw ▸ hvid)
        · exact .inl hw
      · exact .inl hw
  | gcDeadNs | gcDeadDb | nextId => exact h.mono hns (fun hw => .inl (hdb ▸ hw)) hnext
  | dbSwap v d₁ d₂ w₁ w₂ =>
    have hw₁ : w₁ < m'.nextVirtualId := (le_max_left _ _).trans_lt hvid
    have hw₂ : w₂ < m'.nextVirtualId := (le_max_right _ _).trans_lt hvid
    refine h.mono ?_ (fun {v' d' w'} hw => ?_) hnext
    · rw [hns]
      simp only [applyRecord]
      split <;> rfl
    · rw [hdb] at hw
      simp only [applyRecord] at hw
      split at hw
      · rw [insertDbMapping_dbRouting] at hw
        split at hw
        · exact .inr (some.inj hw ▸ hw₂)
        · rw [insertDbMapping_dbRouting] at hw
          split at hw
          · exact .inr (some.inj hw ▸ hw₁)
          · exact .inl hw
      · exact .inl hw

/-- What a mirrored record may replace. -/
lemma covered_applyRecord (hcovered : ∀ x, 0 < x → x < m.nextVirtualId → log.Covered x)
    {r : DbMetaRecord}
    (hsilent : r.lasting = false → r.vid < m.nextVirtualId)
    (hlast : r.lasting = true → ∀ old, log.read r.key = some old → old.vid ≤ r.vid ∨
      r.key ≠ .nextId ∧ ∃ w, log.read .nextId = some w ∧ old.vid ≤ w.vid) {x : Nat} (h₀ : 0 < x)
    (h₁ : x < max m.nextVirtualId (r.vid + 1)) : (log.put place r).Covered x := by
  have hkey : ∀ old, log.read r.key = some old → old.lasting = r.lasting := by
    intro old hread
    have := (MetaLog.read_key hread).1
    cases old <;> cases r <;> first | rfl | cases this
  cases hr : r.lasting with
  | false =>
    rw [max_eq_left (hsilent hr)] at h₁
    refine (hcovered x h₀ h₁).put fun old hread hold _ => ?_
    rw [hkey old hread, hr] at hold
    cases hold
  | true =>
    by_cases hx : x ≤ r.vid
    · exact MetaLog.covered_put_self hr hx
    have hlt : x < m.nextVirtualId := by
      by_contra hge
      exact absurd h₁ (not_lt.2 (max_le (not_lt.1 hge) (not_le.1 hx)))
    refine (hcovered x h₀ hlt).put fun old hread _ hxold => ?_
    rcases hlast hr old hread with hle | ⟨hne, w, hw, hle⟩
    · exact absurd (hxold.trans hle) hx
    · have hwkey := (MetaLog.read_key hw).1
      refine ⟨w, ?_, ?_, hxold.trans hle⟩
      · rw [hwkey, MetaLog.read_put_of_ne hne.symm, hw]
      · cases w <;> first | rfl | cases hwkey

/-- The counter passes the number of the record. -/
lemma applied_next (h : m.Bounded) (r : DbMetaRecord) :
    (if 0 < (m.applyRecord r).1 then (m.applyRecord r).2.bumpWatermark ((m.applyRecord r).1 + 1)
      else (m.applyRecord r).2).nextVirtualId = max m.nextVirtualId (r.vid + 1) := by
  rw [applyRecord_fst]
  split
  · rw [bumpWatermark, applyRecord_next]
  · rename_i hz
    rw [applyRecord_next, Nat.eq_zero_of_not_pos hz]
    exact (max_eq_left h.pos).symm

lemma applied_bounded (h : m.Bounded) (r : DbMetaRecord) :
    (if 0 < (m.applyRecord r).1 then (m.applyRecord r).2.bumpWatermark ((m.applyRecord r).1 + 1)
      else (m.applyRecord r).2).Bounded := by
  have hnext := applied_next h r
  refine bounded_applyRecord h (r := r) ?_ ?_ ?_ ?_
  · split <;> rfl
  · split <;> rfl
  · rw [hnext]
    exact le_max_left _ _
  · rw [hnext]
    exact lt_of_succ_le (le_max_right _ _)

end Mirrored

/-! ### The steps -/

variable {record : DbMetaRecord}

namespace Inv

variable {s s' : State}

section

variable (h : Inv s)
include h

/-- A step that draws nothing and writes no data. -/
lemma keep (hb : s'.mem.Bounded) (hnext : s.mem.nextVirtualId ≤ s'.mem.nextVirtualId)
    (hvids : ∀ r, put r ∈ s'.log → r.vid < s'.mem.nextVirtualId)
    (hcovered : ∀ x, 0 < x → x < s'.mem.nextVirtualId → s'.log.Covered x)
    (hdata : ∀ r ∈ s'.data, r ∈ s.data)
    (hgrantNs : ∀ r ∈ s'.data, s'.grantNs r.vns = s.grantNs r.vns)
    (hgrantDb : ∀ r ∈ s'.data, s'.grantDb r.vdb = s.grantDb r.vdb) : Inv s' where
  bounded := hb
  vids := hvids
  covered := hcovered
  data := fun r hr => (h.data r (hdata r hr)).imp (·.trans_le hnext) (·.trans_le hnext)
  noReuse := by
    intro r hr
    rw [hgrantNs r hr, hgrantDb r hr]
    exact h.noReuse r (hdata r hr)

lemma flushAll {metas datas : Nat} (hc : persisted s (.flushAll metas datas) = true)
    (hs : step s (.flushAll metas datas) = some s') : Inv s' := by
  cases hs
  simp only [persisted, List.all_eq_true, Bool.and_eq_true, decide_eq_true_eq] at hc
  have hroot : s.mem.reset.Bounded := by
    refine ⟨h.bounded.pos, Bounded.new.zero, fun hv => ?_, fun hw => ?_⟩
    · exact (lt_one_iff.1 (Bounded.new.ns hv)) ▸ h.bounded.pos
    · exact (lt_one_iff.1 (Bounded.new.db hw)) ▸ h.bounded.pos
  refine h.keep hroot le_rfl ?_ ?_ (fun r hr => List.mem_of_mem_take hr) ?_ ?_
  · intro r hr
    rcases List.mem_cons.1 hr with heq | hr
    · obtain rfl := put.inj heq
      exact sub_one_lt h.bounded.pos.ne'
    · exact h.vids r (List.mem_of_mem_take hr)
  · intro x _ hx
    refine ⟨.nextId s.mem.nextVirtualId, ?_, rfl, le_sub_one_of_lt hx⟩
    rw [MetaLog.read, Journal.lookup_cons, key_put, if_pos rfl]
  · intro r hr
    refine if_neg fun hroot => ?_
    rcases (hc r hr).1 with hne | heq
    · exact hne hroot.1
    · exact hroot.2 heq
  · intro r hr
    refine if_neg fun hroot => ?_
    rcases (hc r hr).2 with hne | heq
    · exact hne hroot.1
    · exact hroot.2 heq

lemma applyTombstone {k : MetaKey} (hs : step s (.applyTombstone k place) = some s') : Inv s' := by
  have hlog : ∀ r, put r ∈ Journal.upsert key place s.log (.tombstone k) →
      r.vid < s.mem.nextVirtualId := by
    intro r hr
    rcases Journal.mem_upsert hr with heq | hr
    · cases heq
    · exact h.vids r hr
  simp only [step, State.applyTombstone] at hs
  split at hs
  · rename_i vns
    cases hs
    have hb : (s.mem.gcDeadRemove vns).Bounded := h.bounded.mono rfl .inl le_rfl
    exact h.keep (hb.dropTable vns) le_rfl hlog (fun x h₀ h₁ => (h.covered x h₀ h₁).delete rfl)
      (fun _ hr => hr) (fun _ _ => rfl) fun _ _ => rfl
  · cases hs
    exact h.keep (h.bounded.mono rfl .inl le_rfl) le_rfl hlog
      (fun x h₀ h₁ => (h.covered x h₀ h₁).delete rfl) (fun _ hr => hr) (fun _ _ => rfl) fun _ _ => rfl
  · cases hs

/-- The restart finds the counter where it was. -/
lemma restart (hs : step s .restart = some s') : Inv s' := by
  cases hs
  have hnext : (rebuild s.log).nextVirtualId = s.mem.nextVirtualId := by
    rw [rebuild_next]
    refine le_antisymm (scan_lt h.bounded.pos h.vids) ?_
    rcases eq_or_lt_of_le (show 1 ≤ s.mem.nextVirtualId from h.bounded.pos) with heq | hlt
    · rw [← heq]
      exact le_add_left 1 _
    · obtain ⟨r, hread, _, hvid⟩ := h.covered (s.mem.nextVirtualId - 1) (by omega) (by omega)
      have := vid_le_scan (MetaLog.read_key hread).2
      omega
  have hb : (rebuild s.log).Bounded := by
    refine ⟨hnext ▸ h.bounded.pos, ?_, fun {n v} hv => ?_, fun {v d w} hw => ?_⟩
    · rw [rebuild_nsMap, scan_nsMap, new_nsMap]
      cases s.log.findSome? (setsNs 0) <;> nofun
    · rw [rebuild_nsMap, scan_nsMap] at hv
      rw [hnext]
      rcases or_eq_some_iff.1 hv with hv | ⟨_, hv⟩
      · obtain ⟨e, hmem, he⟩ := List.exists_of_findSome?_eq_some hv
        rcases e with (⟨n', v'⟩ | _ | _ | _ | _ | _) | _ <;> try cases he
        obtain ⟨_, ⟨⟩⟩ := ite_none_right_eq_some.1 he
        exact h.vids _ hmem
      · exact (lt_one_iff.1 (Bounded.new.ns hv)) ▸ h.bounded.pos
    · rw [rebuild_dbRouting] at hw
      rw [hnext]
      by_cases hroot : v = rootVirtualId
      · rw [hroot, scan_dbRouting_root] at hw
        rcases or_eq_some_iff.1 hw with hw | ⟨_, hw⟩
        · obtain ⟨e, hmem, he⟩ := List.exists_of_findSome?_eq_some hw
          refine (?_ : ∃ r, put r ∈ s.log ∧ w ≤ r.vid).elim fun r hr =>
            hr.2.trans_lt (h.vids r hr.1)
          rcases e with (_ | ⟨v', d', w'⟩ | _ | _ | _ | ⟨v', d₁, d₂, w₁, w₂⟩) | _ <;> try cases he
          · obtain ⟨_, ⟨⟩⟩ := ite_none_right_eq_some.1 he
            exact ⟨_, hmem, le_rfl⟩
          · rw [setsRoot] at he
            split at he
            · exact ⟨_, hmem, some.inj he ▸ le_max_right _ _⟩
            · obtain ⟨_, ⟨⟩⟩ := ite_none_right_eq_some.1 he
              exact ⟨_, hmem, le_max_left _ _⟩
        · exact (lt_one_iff.1 (Bounded.new.db hw)) ▸ h.bounded.pos
      · rw [scan_dbRouting_of_ne _ hroot] at hw
        cases hw
  refine h.keep hb hnext.ge ?_ ?_ (fun _ hr => hr) (fun _ _ => rfl) fun _ _ => rfl
  · rw [hnext]
    exact h.vids
  · rw [hnext]
    exact h.covered

/-- A step of the log that changes no lookup of a lasting record. -/
lemma relog {log : MetaLog} (hmem : ∀ e ∈ log, e ∈ s.log)
    (hread : ∀ r : DbMetaRecord, s.log.read r.key = some r → log.read r.key = some r) :
    Inv { s with log } :=
  h.keep h.bounded le_rfl (fun r hr => h.vids r (hmem _ hr))
    (fun x h₀ h₁ => (h.covered x h₀ h₁).imp fun r hr => ⟨hread r hr.1, hr.2⟩) (fun _ hr => hr)
    (fun _ _ => rfl) fun _ _ => rfl

/-- A mirrored record, whatever of memory outside the root it changes besides. -/
lemma mirror {m : VirtualDbManager}
    (hc : persisted s (.applyRecord record place) = true) (hb : m.Bounded)
    (hnext : m.nextVirtualId = max s.mem.nextVirtualId (record.vid + 1)) :
    Inv { s with mem := m, log := Journal.upsert key place s.log (.put record) } := by
  have hle : s.mem.nextVirtualId ≤ m.nextVirtualId := hnext ▸ le_max_left _ _
  have hvid : record.vid < m.nextVirtualId := hnext ▸ lt_of_succ_le (le_max_right _ _)
  refine h.keep hb hle (fun r hr => ?_) (fun x h₀ h₁ => ?_) (fun _ hr => hr) (fun _ _ => rfl)
    fun _ _ => rfl
  · rcases Journal.mem_upsert hr with heq | hr
    · exact put.inj heq ▸ hvid
    · exact (h.vids r hr).trans_le hle
  · refine covered_applyRecord h.covered (fun hsilent => ?_) (fun hlast old hread => ?_) h₀ (hnext ▸ h₁)
    · cases record <;> first | exact of_decide_eq_true hc | cases hsilent
    · cases record <;> try cases hlast
      all_goals
        simp only [persisted, DbMetaRecord.key] at hc hread
        rw [hread] at hc
        simp only [all_some, Bool.or_eq_true, decide_eq_true_eq, any_eq_true] at hc
      case nextId.refl => exact .inl hc
      all_goals exact hc.imp_right fun hw => ⟨by rintro ⟨⟩, hw⟩

lemma applyRecord (hc : persisted s (.applyRecord record place) = true) :
    Inv (s.applyRecord record place) := by
  have hb := applied_bounded h.bounded record
  have hnext := applied_next h.bounded record
  unfold State.applyRecord
  dsimp only
  generalize (if 0 < (s.mem.applyRecord record).1 then _ else _) = m at hb hnext ⊢
  cases record with
  | nsMap => exact h.mirror hc hb.bumpGeneration hnext
  | gcDeadNs | gcDeadDb | nextId => exact h.mirror hc hb hnext
  | dbMap vns db vdb =>
    have hvdb := lt_of_succ_le ((le_max_right _ (vdb + 1)).trans_eq hnext.symm)
    refine h.mirror hc (.bumpGeneration ?_) ?_
    · split
      · exact hb.insertDbMapping hvdb
      · exact hb
    · split <;> exact hnext
  | dbSwap vns db1 db2 vdb1 vdb2 =>
    have hmax := lt_of_succ_le ((le_max_right _ (max vdb1 vdb2 + 1)).trans_eq hnext.symm)
    have hvdb1 := (le_max_left vdb1 vdb2).trans_lt hmax
    have hvdb2 := (le_max_right vdb1 vdb2).trans_lt hmax
    by_cases hdead : vns ≠ rootVirtualId ∧ m.isDeadNs vns = true
    · -- passed over: nothing is written, and the counter is past the pair already
      have hsame := hnext.trans (max_eq_left (succ_le_of_lt (of_decide_eq_true hc)))
      simp only [if_pos hdead]
      refine h.keep hb hsame.ge (fun r hr => ?_) (fun x h₀ h₁ => ?_) (fun _ hr => hr)
        (fun _ _ => rfl) fun _ _ => rfl
      · exact (h.vids r hr).trans_eq hsame.symm
      · exact h.covered x h₀ (h₁.trans_eq hsame)
    · simp only [if_neg hdead]
      refine h.mirror hc (.bumpGeneration ?_) ?_
      · split
        · exact (hb.insertDbMapping hvdb1).insertDbMapping hvdb2
        · exact hb
      · split <;> exact hnext

lemma step {a : Action} (hc : persisted s a = true) (hs : step s a = some s') : Inv s' := by
  cases a with
  | setContext ns db =>
    cases hs
    simp only [persisted, Bool.and_eq_true, Bool.or_eq_true, decide_eq_true_eq] at hc
    exact h.commit (sound_setContext h.bounded ns db) hc.2 fun x h₀ h₁ =>
      covered_setContext h.bounded hc.1 h.covered h₀ h₁
  | resolveNs ns =>
    cases hs
    obtain ⟨hsound, hcovered⟩ := resolveNs_sound h.bounded h.vids h.covered ns
    exact h.commit hsound (of_decide_eq_true hc) hcovered
  | resolveDb =>
    obtain ⟨vns, hns, hs⟩ := bind_eq_some_iff.1 hs
    cases hs
    simp only [persisted, hns, Bool.and_eq_true, Bool.or_eq_true, decide_eq_true_eq] at hc
    obtain ⟨hsound, hcovered⟩ := resolveDb_sound h.bounded h.vids h.covered hc.1
    exact h.commit hsound hc.2 hcovered
  | flushDb ns db t a =>
    obtain ⟨hns, hs⟩ := ite_none_right_eq_some.1 hs
    cases hs
    obtain ⟨vns, hns⟩ := isSome_iff_exists.1 hns
    obtain ⟨hsound, hcovered⟩ := flushDatabase_sound h.bounded hns db t a
    exact h.commit hsound le_rfl hcovered
  | flushNs ns t a =>
    obtain ⟨hns, hs⟩ := ite_none_right_eq_some.1 hs
    cases hs
    obtain ⟨vns, hns⟩ := isSome_iff_exists.1 hns
    obtain ⟨hsound, hcovered⟩ := flushNamespace_sound h.bounded hns t a
    exact h.commit hsound le_rfl hcovered
  | swapDb =>
    obtain ⟨vns, hns, hs⟩ := bind_eq_some_iff.1 hs
    obtain ⟨⟨hne, h₁, h₂⟩, hs⟩ := ite_none_right_eq_some.1 hs
    cases hs
    obtain ⟨vdb1, h₁⟩ := isSome_iff_exists.1 h₁
    obtain ⟨vdb2, h₂⟩ := isSome_iff_exists.1 h₂
    simp only [persisted, hns, List.all_cons, List.all_nil, and_true, Bool.and_eq_true,
      Bool.or_eq_true, isNone_iff_eq_none, decide_eq_true_eq, h₁, h₂] at hc
    obtain ⟨hsound, hcovered⟩ := swapDatabases_sound h.bounded h.covered hne h₁ h₂ hc.1 hc.2
    exact h.commit hsound le_rfl hcovered
  | flushAll => exact h.flushAll hc hs
  | applyRecord =>
    cases hs
    exact h.applyRecord hc
  | applyTombstone => exact h.applyTombstone hs
  | evict vns =>
    obtain ⟨_, ⟨⟩⟩ := ite_none_right_eq_some.1 hs
    exact h.keep (h.bounded.dropTable vns) le_rfl h.vids h.covered (fun _ hr => hr) (fun _ _ => rfl)
      fun _ _ => rfl
  | copy =>
    obtain ⟨record, hread, hs⟩ := bind_eq_some_iff.1 hs
    cases hs
    refine h.relog (fun e he => ?_) fun r hr => ?_
    · rcases List.mem_cons.1 he with rfl | he
      · exact (MetaLog.read_key hread).2
      · exact he
    · rw [MetaLog.read_copy hread, hr]
  | truncate =>
    obtain ⟨hcut, ⟨⟩⟩ := ite_none_right_eq_some.1 hs
    simp only [List.all_eq_true, Bool.or_eq_true, isNone_iff_eq_none] at hcut
    exact h.relog (fun e he => List.mem_of_mem_take he) fun r hr => MetaLog.read_take hr hcut
  | dropData =>
    cases hs
    exact h.keep h.bounded le_rfl h.vids h.covered (fun _ hr => List.mem_of_mem_eraseIdx hr)
      (fun _ _ => rfl) fun _ _ => rfl
  | write =>
    obtain ⟨hlt, ⟨⟩⟩ := ite_none_right_eq_some.1 hs
    refine { h with data := fun r hr => ?_, noReuse := fun r hr => ?_ }
    · rcases List.mem_cons.1 hr with rfl | hr
      · exact hlt
      · exact h.data r hr
    · rcases List.mem_cons.1 hr with rfl | hr
      · exact ⟨rfl, rfl⟩
      · exact h.noReuse r hr
  | restart => exact h.restart hs

end

end Inv

/-- In every run whose steps leave the drawn numbers in the log, no number is handed out again. -/
theorem noReuse_of_persisted {s : State}
    (h : Machine.Reaches step (fun s a => persisted s a = true) State.init s) : NoReuse s :=
  (h.invariant (I := Inv) Inv.init fun hi hc hs => hi.step hc hs).noReuse

/-- Contexts, a FLUSHDB, compaction, FLUSHALL and restarts. -/
theorem noReuse_flush_and_restart : ∃ s : State,
    Machine.Reaches step (fun s a => persisted s a = true) State.init s ∧ NoReuse s ∧
      s.mem.nextVirtualId = 5 ∧ s.data = [⟨1, 4, 1, 1⟩, ⟨1, 3, 1, 1⟩] := by
  obtain ⟨s, hreach, hs⟩ := Machine.exists_reaches_of_run step (fun s a => persisted s a = true)
    .init
    [.setContext 1 0 3 [], .write 1 2, .flushDb 1 0 50 7 [], .restart, .write 1 3, .dropData 1,
      .copy (.nsMap 1), .truncate 5, .resolveNs 1 1 [], .setContext 1 1 2 [], .restart, .write 1 4]
    (fun s => (s.mem.nextVirtualId, s.data)) (5, [⟨1, 4, 1, 1⟩, ⟨1, 3, 1, 1⟩]) (by decide +kernel)
  exact ⟨s, hreach, noReuse_of_persisted hreach, congrArg Prod.fst hs, congrArg Prod.snd hs⟩

/-- The batch of a new database is left out; the number is drawn again after a restart, over the data
of the first database. -/
theorem exists_number_reused : ∃ s : State, Machine.Reachable step State.init s ∧ ¬NoReuse s := by
  obtain ⟨s, hreach, hs⟩ := Machine.exists_reachable_of_run step .init
    [.setContext 0 1 0 [], .write 0 1, .restart, .setContext 0 2 2 []]
    (fun s => (s.data, s.grantDb 1)) ([⟨0, 1, 0, 1⟩], 2) (by decide +kernel)
  refine ⟨s, hreach, fun hno => ?_⟩
  have hdata : s.data = [⟨0, 1, 0, 1⟩] := congrArg Prod.fst hs
  have hgrant : s.grantDb 1 = 2 := congrArg Prod.snd hs
  have := (hno ⟨0, 1, 0, 1⟩ (by rw [hdata]; exact List.mem_singleton_self _)).2
  rw [hgrant] at this
  cases this

end Wedb.Numbers
