import Wedb.Vdb.Numbers
import Wedb.Vdb.MappingSteps

/-!
# Which numbers the log accounts for

After a restart the allocation goes on behind the greatest number met in the log. A number is
`Covered` when a current 0x01, 0x02 or 0x05 record is at or above it: such a record is never deleted
and compaction keeps it.
-/

namespace Wedb.Vdb

open Journal

/-- The number a record makes the watermark pass. -/
def DbMetaRecord.vid : DbMetaRecord → Nat
  | .nsMap _ vns => vns
  | .dbMap _ _ vdb => vdb
  | .gcDeadNs _ oldVns _ => oldVns
  | .gcDeadDb _ _ oldVdb _ => oldVdb
  | .nextId nextVirtualId => nextVirtualId - 1
  | .dbSwap _ _ _ swappedDb1 swappedDb2 => max swappedDb1 swappedDb2

/-- The kinds of records that the garbage collection never deletes and that hold what was drawn. -/
def DbMetaRecord.lasting : DbMetaRecord → Bool
  | .nsMap .. | .dbMap .. | .nextId .. => true
  | _ => false

variable {r : DbMetaRecord}

lemma DbMetaRecord.key_ne_dbSwap (h : r.lasting = true) (v d₁ d₂ : Nat) :
    r.key ≠ .dbSwap v d₁ d₂ := by
  cases r <;> simp_all [lasting, key]

namespace VirtualDbManager

lemma applyRecord_fst (m : VirtualDbManager) (r : DbMetaRecord) : (m.applyRecord r).1 = r.vid := by
  cases r <;> rfl

/-- Every number in the maps was drawn. -/
structure Bounded (m : VirtualDbManager) : Prop where
  pos : 0 < m.nextVirtualId
  zero : m.nsMap 0 ≠ none
  ns : ∀ {n v}, m.nsMap n = some v → v < m.nextVirtualId
  db : ∀ {v d w}, m.dbRouting v d = some w → w < m.nextVirtualId

lemma Bounded.new : new.Bounded where
  pos := Nat.one_pos
  zero := by
    nofun
  ns := Ok.new.ns_lt
  db := Ok.new.vdb_lt

/-- The result of asking for a number: an old one, or the next one from the counter. -/
structure Drawn (m m' : VirtualDbManager) (v : Nat) (created : Bool) : Prop where
  bounded : m'.Bounded
  lt : v < m'.nextVirtualId
  next : m'.nextVirtualId = if created then m.nextVirtualId + 1 else m.nextVirtualId

variable {m m' : VirtualDbManager}

section

variable (h : m.Bounded)
include h

lemma Bounded.mono (hns : m'.nsMap = m.nsMap)
    (hdb : ∀ {v d w}, m'.dbRouting v d = some w → m.dbRouting v d = some w ∨ w < m'.nextVirtualId)
    (hnext : m.nextVirtualId ≤ m'.nextVirtualId) : m'.Bounded where
  pos := h.pos.trans_le hnext
  zero := hns ▸ h.zero
  ns := fun hv => (h.ns (hns ▸ hv)).trans_le hnext
  db := fun hw => (hdb hw).elim (fun hw => (h.db hw).trans_le hnext) id

lemma Bounded.updateNs {n v : Nat} (hns : m'.nsMap = Function.update m.nsMap n (some v))
    (hv : v < m'.nextVirtualId) (hdb : m'.dbRouting = m.dbRouting)
    (hnext : m.nextVirtualId ≤ m'.nextVirtualId) : m'.Bounded where
  pos := h.pos.trans_le hnext
  zero := by
    rw [hns, Function.update_apply]
    split
    · nofun
    · exact h.zero
  ns := by
    intro n' v' hv'
    rw [hns, Function.update_apply] at hv'
    split at hv'
    · exact Option.some.inj hv' ▸ hv
    · exact (h.ns hv').trans_le hnext
  db := fun hw => (h.db (hdb ▸ hw)).trans_le hnext

lemma Bounded.insertDbMapping {v d w : Nat} (hw : w < m.nextVirtualId) :
    (m.insertDbMapping v d w).Bounded := by
  refine h.mono rfl (fun {v' d' w'} hw' => ?_) le_rfl
  rw [insertDbMapping_dbRouting] at hw'
  split at hw'
  · exact .inr (Option.some.inj hw' ▸ hw)
  · exact .inl hw'

lemma Bounded.bumpGeneration : m.bumpGeneration.Bounded := ⟨h.pos, h.zero, h.ns, h.db⟩

/-- A routing table is dropped. -/
lemma Bounded.dropTable (v : Nat) :
    Bounded { m with dbRouting := Function.update m.dbRouting v fun _ => none } := by
  refine h.mono rfl (fun {v' d w} hw => ?_) le_rfl
  by_cases hv : v' = v
  · simp [hv] at hw
  · simpa [hv] using Or.inl hw

lemma Bounded.getOrCreateNs (n : Nat) :
    Drawn m (m.getOrCreateNs n).2 (m.getOrCreateNs n).1.1 (m.getOrCreateNs n).1.2 := by
  unfold VirtualDbManager.getOrCreateNs
  cases hn : m.nsMap n with
  | some => exact ⟨h, h.ns hn, rfl⟩
  | none =>
    exact ⟨h.updateNs rfl (Nat.lt_succ_self _) rfl (Nat.le_succ _), Nat.lt_succ_self _, rfl⟩

lemma Bounded.getOrCreateDbForVns (v d : Nat) :
    Drawn m (m.getOrCreateDbForVns v d).2 (m.getOrCreateDbForVns v d).1.1
      (m.getOrCreateDbForVns v d).1.2 := by
  unfold VirtualDbManager.getOrCreateDbForVns
  cases hd : m.dbRouting v d with
  | some => exact ⟨h, h.db hd, rfl⟩
  | none =>
    have hnext : Bounded { m with nextVirtualId := m.nextVirtualId + 1 } :=
      h.mono rfl .inl (Nat.le_succ _)
    exact ⟨hnext.insertDbMapping (Nat.lt_succ_self _), Nat.lt_succ_self _, rfl⟩

end

lemma applyRecord_next (m : VirtualDbManager) (r : DbMetaRecord) :
    (m.applyRecord r).2.nextVirtualId = m.nextVirtualId := by
  cases r with
  | nsMap | gcDeadNs | gcDeadDb | nextId => rfl
  | dbMap | dbSwap => simp only [applyRecord]; split <;> rfl

/-- The scan keeps the greatest number it has met. -/
lemma scan_put (r : DbMetaRecord) (log : MetaLog) :
    (scan (.put r :: log)).1 = max (scan log).1 r.vid := by
  show max (scan log).1 ((scan log).2.applyRecord r).1 = _
  rw [applyRecord_fst]

lemma scan_tombstone (k : MetaKey) (log : MetaLog) :
    (scan (.tombstone k :: log)).1 = (scan log).1 := by
  show (visit (.tombstone k) (scan log)).1 = _
  simp only [visit]
  split <;> rfl

lemma vid_le_scan {log : MetaLog} (h : LogEntry.put r ∈ log) : r.vid ≤ (scan log).1 := by
  induction log with
  | nil => cases h
  | cons e log ih =>
    rcases List.mem_cons.1 h with rfl | hmem
    · rw [scan_put]
      exact le_max_right _ _
    · cases e with
      | put =>
        exact (ih hmem).trans (le_max_left _ _)
      | tombstone =>
        rw [scan_tombstone]
        exact ih hmem

lemma scan_lt {log : MetaLog} {b : Nat} (hb : 0 < b)
    (h : ∀ r, LogEntry.put r ∈ log → r.vid < b) : (scan log).1 < b := by
  induction log with
  | nil => exact hb
  | cons e log ih =>
    have ih := ih fun r hr => h r (List.mem_cons_of_mem _ hr)
    cases e with
    | put r =>
      rw [scan_put]
      exact max_lt ih (h r List.mem_cons_self)
    | tombstone =>
      rw [scan_tombstone]
      exact ih

lemma scan_next (log : MetaLog) : (scan log).2.nextVirtualId = 1 := by
  induction log with
  | nil => rfl
  | cons e log ih =>
    show (visit e (scan log)).2.nextVirtualId = 1
    cases e with
    | put => exact (applyRecord_next _ _).trans ih
    | tombstone =>
      simp only [visit]
      split <;> exact ih

/-- The allocation goes on behind the greatest number of the log. -/
lemma rebuild_next (log : MetaLog) : (rebuild log).nextVirtualId = (scan log).1 + 1 := by
  simp only [rebuild, bumpGeneration_nextVirtualId]
  split
  · rw [bumpWatermark, scan_next]
    exact max_eq_right (Nat.le_add_left 1 _)
  · rename_i hpos
    rw [scan_next, Nat.eq_zero_of_not_pos hpos]

end VirtualDbManager

namespace MetaLog

variable {log : MetaLog} {place : Bool} {x : Nat}

lemma read_put (log : MetaLog) (place : Bool) (r : DbMetaRecord) (k : MetaKey) :
    (log.put place r).read k = if k = r.key then some r else log.read k := by
  rw [read, lookup_upsert, LogEntry.key_put]
  by_cases hk : k = r.key
  · rw [if_pos hk, if_pos hk]
  · rw [if_neg hk, if_neg hk, read]

variable {k : MetaKey}

lemma read_put_of_ne (h : k ≠ r.key) : (log.put place r).read k = log.read k := by
  rw [read_put, if_neg h]

lemma read_key (h : log.read k = some r) : r.key = k ∧ LogEntry.put r ∈ log := by
  unfold read at h
  split at h
  · rename_i r' hr
    cases h
    obtain ⟨hmem, hkey⟩ := mem_of_lookup hr
    exact ⟨hkey, hmem⟩
  · cases h

/-- A current record of a lasting kind is at or above the number. -/
def Covered (log : MetaLog) (x : Nat) : Prop :=
  ∃ r : DbMetaRecord, log.read r.key = some r ∧ r.lasting = true ∧ x ≤ r.vid

lemma covered_put_self (hr : r.lasting = true) (hx : x ≤ r.vid) : (log.put place r).Covered x :=
  ⟨r, by rw [read_put, if_pos rfl], hr, hx⟩

/-- An upsert takes away only the cover by the record it replaces. -/
lemma Covered.put (h : log.Covered x)
    (hold : ∀ old, log.read r.key = some old → old.lasting = true → x ≤ old.vid →
      (log.put place r).Covered x) : (log.put place r).Covered x := by
  obtain ⟨old, hread, hlast, hx⟩ := h
  by_cases hk : old.key = r.key
  · exact hold old (hk ▸ hread) hlast hx
  · exact ⟨old, by rw [read_put, if_neg hk, hread], hlast, hx⟩

/-- Deleting a retirement record takes no cover away. -/
lemma Covered.delete (h : log.Covered x) {vid : Nat} (hk : k.deadVidOf = some vid) :
    MetaLog.Covered (upsert LogEntry.key place log (.tombstone k)) x := by
  obtain ⟨r, hread, hlast, hx⟩ := h
  refine ⟨r, ?_, hlast, hx⟩
  have hne : r.key ≠ k := by
    rintro rfl
    cases r <;> simp_all [DbMetaRecord.lasting, DbMetaRecord.key, MetaKey.deadVidOf]
  rw [read, lookup_upsert, LogEntry.key_tombstone, if_neg hne]
  exact hread

/-- A copy of a current record changes no lookup. -/
lemma read_copy (h : log.read k = some r) (k' : MetaKey) :
    MetaLog.read (.put r :: log) k' = log.read k' := by
  obtain ⟨hkey, _⟩ := read_key h
  rw [read, lookup_cons, LogEntry.key_put]
  by_cases hk : r.key = k'
  · rw [if_pos hk, ← hk, hkey, h]
  · rw [if_neg hk, read]

/-- Cutting the log keeps the lookup of every key whose current record is kept. -/
lemma read_take {metas : Nat} (h : log.read k = some r)
    (hcut : ∀ e ∈ log.drop metas, log.read e.key = none ∨
      (lookup LogEntry.key (log.take metas) e.key).isSome) :
    MetaLog.read (log.take metas) k = some r := by
  have hsplit : lookup LogEntry.key log k =
      (lookup LogEntry.key (log.take metas) k).or (lookup LogEntry.key (log.drop metas) k) := by
    conv_lhs => rw [← List.take_append_drop metas log]
    exact List.find?_append
  cases hkept : lookup LogEntry.key (log.take metas) k with
  | some =>
    rw [hkept] at hsplit
    rw [read, hsplit] at h
    rw [read, hkept]
    exact h
  | none =>
    -- the current record would have been cut off
    rw [hkept] at hsplit
    cases hdrop : lookup LogEntry.key (log.drop metas) k with
    | none =>
      rw [read, hsplit, hdrop] at h
      cases h
    | some e =>
      obtain ⟨hmem, rfl⟩ := mem_of_lookup hdrop
      rcases hcut e hmem with hnone | hsome
      · rw [hnone] at h
        cases h
      · rw [hkept] at hsome
        cases hsome

/-- A batch that ends with the watermark covers all that was drawn. -/
lemma covered_persist_nextId {n : Nat} (hx : x < n) (batch : List DbMetaRecord)
    (places : List Bool) (log : MetaLog) :
    (log.persist places (batch ++ [.nextId n])).Covered x := by
  induction batch generalizing places log with
  | nil => exact covered_put_self rfl (Nat.le_sub_one_of_lt hx)
  | cons r batch ih => exact ih places.tail _

lemma mem_persist {e : LogEntry} {batch : List DbMetaRecord} {places : List Bool}
    {log : MetaLog} (h : e ∈ log.persist places batch) : e ∈ log ∨ ∃ r ∈ batch, e = .put r := by
  induction batch generalizing places log with
  | nil => exact .inl h
  | cons r batch ih =>
    rcases ih h with h | ⟨r', hr', he⟩
    · rcases mem_upsert h with rfl | h
      · exact .inr ⟨r, List.mem_cons_self, rfl⟩
      · exact .inl h
    · exact .inr ⟨r', List.mem_cons_of_mem _ hr', he⟩

end MetaLog

end Wedb.Vdb

namespace Wedb.Numbers

open Vdb VirtualDbManager

structure Inv (s : State) : Prop where
  bounded : s.mem.Bounded
  vids : ∀ r, LogEntry.put r ∈ s.log → r.vid < s.mem.nextVirtualId
  covered : ∀ x, 0 < x → x < s.mem.nextVirtualId → s.log.Covered x
  data : ∀ r ∈ s.data, r.vns < s.mem.nextVirtualId ∧ r.vdb < s.mem.nextVirtualId
  noReuse : NoReuse s

lemma Inv.init : Inv State.init where
  bounded := Bounded.new
  vids := nofun
  covered := by
    intro x h₀ h₁
    exact absurd h₁ (by show ¬x < 1; omega)
  data := nofun
  noReuse := nofun

/-- What a change does to the numbers. -/
structure Sound (m : VirtualDbManager) (change : Change) : Prop where
  bounded : change.mem.Bounded
  next : m.nextVirtualId ≤ change.mem.nextVirtualId
  vids : ∀ r ∈ change.batch, r.vid < change.mem.nextVirtualId

lemma Inv.commit {s : State} (h : Inv s) {change : Change} {written : Nat} {places : List Bool}
    (hsound : Sound s.mem change) (hwritten : change.batch.length ≤ written)
    (hcovered : ∀ x, 0 < x → x < change.mem.nextVirtualId →
      (s.log.persist places change.batch).Covered x) :
    Inv (s.commit change written places) := by
  have hlog : (s.commit change written places).log = s.log.persist places change.batch := by
    rw [State.commit, List.take_of_length_le hwritten]
  have hgrant : ∀ {x}, x < s.mem.nextVirtualId →
      ¬(s.mem.nextVirtualId ≤ x ∧ x < change.mem.nextVirtualId) := fun hx hd =>
    absurd hx (not_lt.2 hd.1)
  refine ⟨hsound.bounded, ?_, ?_, ?_, ?_⟩
  · intro r hr
    rw [hlog] at hr
    rcases MetaLog.mem_persist hr with hr | ⟨r', hr', he⟩
    · exact (h.vids r hr).trans_le hsound.next
    · obtain rfl := LogEntry.put.inj he
      exact hsound.vids r hr'
  · intro x h₀ h₁
    rw [hlog]
    exact hcovered x h₀ h₁
  · intro r hr
    obtain ⟨hv, hd⟩ := h.data r hr
    exact ⟨hv.trans_le hsound.next, hd.trans_le hsound.next⟩
  · intro r hr
    obtain ⟨hv, hd⟩ := h.data r hr
    obtain ⟨gv, gd⟩ := h.noReuse r hr
    refine ⟨?_, ?_⟩
    · show r.grantNs = if decide _ = true then _ else _
      rw [if_neg (by simpa using hgrant hv)]
      exact gv
    · show r.grantDb = if decide _ = true then _ else _
      rw [if_neg (by simpa using hgrant hd)]
      exact gd

end Wedb.Numbers
