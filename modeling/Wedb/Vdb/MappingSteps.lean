import Wedb.Vdb.MappingInvariant

/-!
# The mapping invariant, record by record

What each record of a batch does to `Mapped`, the invariant of the mapping: memory is sound, a
restart finds it, and the current 0x02 records say the same.
-/

namespace Wedb.Vdb

open Option LogEntry VirtualDbManager Journal

structure Mapped (m : VirtualDbManager) (log : MetaLog) : Prop where
  ok : m.Ok
  agrees : Agrees m log
  /-- the scan also reads pair records; the key lookup of a root database says the same -/
  root_db : ∀ d, m.dbRouting rootVirtualId d =
    (log.findSome? (setsDb rootVirtualId d)).or (new.dbRouting rootVirtualId d)

/-- One record of a batch. -/
abbrev MetaLog.put (log : MetaLog) (place : Bool) (record : DbMetaRecord) : MetaLog :=
  upsert LogEntry.key place log (.put record)

open MetaLog

/-- The record that decides the cell of a root database in the scan has one of the keys. -/
def MetaLog.decidedBy (log : MetaLog) (d : Nat) (keys : List MetaKey) : Bool :=
  (setting LogEntry.key (setsRoot d) log).all fun q => decide (q.1 ∈ keys)

lemma MetaLog.puts_put {log : MetaLog} (h : ∀ e ∈ log, ∃ r, e = .put r) (place : Bool)
    (record : DbMetaRecord) : ∀ e ∈ log.put place record, ∃ r, e = .put r :=
  forall_mem_upsert ⟨record, rfl⟩ h

variable {d : Nat}

lemma MetaLog.decidedBy_iff {log : MetaLog} {keys : List MetaKey} :
    log.decidedBy d keys = true ↔
      ∀ q, setting LogEntry.key (setsRoot d) log = some q → q.1 ∈ keys := by
  rw [decidedBy]
  cases setting key (setsRoot d) log with
  | none | some q => simp

lemma Mapped.init : Mapped .new [] where
  ok := Ok.new
  agrees :=
    { puts := nofun
      ns := fun _ => rfl
      root := fun _ => rfl
      db := by
        intro v d hv
        rw [new_dbRouting, if_neg fun h => hv h.1]
        rfl
      retired_db := nofun
      retired_ns := nofun }
  root_db := fun _ => rfl

variable {v : Nat}

namespace Mapped

variable {m m' : VirtualDbManager} {log : MetaLog} {place : Bool}

section

variable {record : DbMetaRecord}

lemma findSome?_put_setsNs {n : Nat} (h : record.key ≠ .nsMap n) :
    (log.put place record).findSome? (setsNs n) = log.findSome? (setsNs n) :=
  findSome?_upsert_of_none fun _ hx => setsNs_eq_none (hx ▸ h)

lemma findSome?_put_setsDb (h : record.key ≠ .dbMap v d) :
    (log.put place record).findSome? (setsDb v d) = log.findSome? (setsDb v d) :=
  findSome?_upsert_of_none fun _ hx => setsDb_eq_none (hx ▸ h)

lemma findSome?_put_setsRoot (h : rootKey d record.key = false) :
    (log.put place record).findSome? (setsRoot d) = log.findSome? (setsRoot d) :=
  findSome?_upsert_of_none fun _ hx => setsRoot_eq_none (hx ▸ h)

end

variable {record : DbMetaRecord}

section

variable (h : Mapped m log)
include h

/-- A mapping that memory has not is not on disk either. -/
lemma lookupNs_eq (n : Nat) : m.lookupNs log n = m.nsMap n := by
  rw [lookupNs, probeNs_eq h.agrees.puts]
  cases hn : m.nsMap n with
  | some => rfl
  | none =>
    have hns := h.agrees.ns n
    rw [hn] at hns
    rw [(or_eq_none_iff.1 hns.symm).1]
    rfl

lemma lookupDb_eq (v d : Nat) : m.lookupDb log v d = m.dbRouting v d := by
  rw [lookupDb, probeDb_eq h.agrees.puts]
  cases hd : m.dbRouting v d with
  | some => rfl
  | none =>
    have hnone : log.findSome? (setsDb v d) = none := by
      by_cases hv : v = rootVirtualId
      · have hroot := h.root_db d
        rw [← hv, hd] at hroot
        exact (or_eq_none_iff.1 hroot.symm).1
      · rw [← h.agrees.db v d hv, hd]
    rw [hnone]
    rfl

lemma nsMap_zero : m.nsMap 0 ≠ none := by
  rw [h.agrees.ns, new_nsMap]
  cases log.findSome? (setsNs 0) <;> nofun

/-- A record that sets no cell. -/
lemma put_silent
    (hns : ∀ n, record.key ≠ .nsMap n) (hdb : ∀ v d, record.key ≠ .dbMap v d)
    (hroot : ∀ d, rootKey d record.key = false)
    (hdead : ∀ w, (LogEntry.put record).retiresDb w → m.SpentDb w)
    (hdeadNs : ∀ v, (LogEntry.put record).retiresNs v → m.SpentNs v) :
    Mapped m (log.put place record) where
  ok := h.ok
  agrees :=
    { puts := MetaLog.puts_put h.agrees.puts place record
      ns := by
        intro n
        rw [findSome?_put_setsNs (hns n), h.agrees.ns]
      root := by
        intro d
        rw [findSome?_put_setsRoot (hroot d), h.agrees.root]
      db := by
        intro v d hv
        rw [findSome?_put_setsDb (hdb v d), h.agrees.db v d hv]
      retired_db := forall_mem_upsert hdead h.agrees.retired_db
      retired_ns := forall_mem_upsert hdeadNs h.agrees.retired_ns }
  root_db := by
    intro d
    rw [findSome?_put_setsDb (hdb _ d), h.root_db]

lemma put_nextId (n : Nat) : Mapped m (log.put place (.nextId n)) :=
  h.put_silent nofun nofun (fun _ => rfl) nofun nofun

lemma put_gcDeadDb (t : Int) (v a : Nat) {w : Nat} (hw : m.SpentDb w) :
    Mapped m (log.put place (.gcDeadDb t v w a)) := by
  refine h.put_silent nofun nofun (fun _ => rfl) ?_ nofun
  rintro _ rfl
  exact hw

lemma put_gcDeadNs (t : Int) (a : Nat) (hv : m.SpentNs v) :
    Mapped m (log.put place (.gcDeadNs t v a)) := by
  refine h.put_silent nofun nofun (fun _ => rfl) nofun ?_
  rintro _ rfl
  exact hv

/-- The generation, the active namespaces and numbers that were drawn in vain play no part. -/
lemma congr (hns : m'.nsMap = m.nsMap) (hdb : m'.dbRouting = m.dbRouting)
    (hnext : m.nextVirtualId ≤ m'.nextVirtualId)
    (hdead : ∀ {w e}, m'.gcDead w = some e → m.gcDead w = some e ∨
      (e.vns.isSome ∧ m.SpentDb w) ∨ (e.vns = none ∧ m.SpentNs w)) : Mapped m' log := by
  have hspentDb : ∀ {w}, m.SpentDb w → m'.SpentDb w := fun hw =>
    ⟨hw.1.trans_le hnext, by rw [hdb]; exact hw.2⟩
  have hspentNs : ∀ {w}, m.SpentNs w → m'.SpentNs w := fun hw =>
    ⟨hw.1.trans_le hnext, by rw [hns]; exact hw.2⟩
  constructor
  · constructor
    · exact h.ok.pos.trans_le hnext
    · rw [hns]
      exact fun hv => (h.ok.ns_lt hv).trans_le hnext
    · rw [hdb]
      exact fun hw => (h.ok.vns_lt hw).trans_le hnext
    · rw [hdb]
      exact fun hw => (h.ok.vdb_lt hw).trans_le hnext
    · rw [hns]
      exact h.ok.ns_inj
    · rw [hdb]
      exact h.ok.db_inj
    · intro w e he hr
      rcases hdead he with he | ⟨_, hw⟩ | ⟨hn, _⟩
      · exact hspentDb (h.ok.dead_db he hr)
      · exact hspentDb hw
      · rw [hn] at hr
        cases hr
    · intro v e he hr
      rcases hdead he with he | ⟨hs, _⟩ | ⟨_, hv⟩
      · exact hspentNs (h.ok.dead_ns he hr)
      · rw [hr] at hs
        cases hs
      · exact hspentNs hv
  · constructor
    · exact h.agrees.puts
    · rw [hns]
      exact h.agrees.ns
    · rw [hdb]
      exact h.agrees.root
    · rw [hdb]
      exact h.agrees.db
    · exact fun e he w hw => hspentDb (h.agrees.retired_db e he w hw)
    · exact fun e he v hv => hspentNs (h.agrees.retired_ns e he v hv)
  · rw [hdb]
    exact h.root_db

lemma gcDeadInsert_db (t : Int) (a v : Nat) {w : Nat} (hw : m.SpentDb w) :
    Mapped (m.gcDeadInsert w ⟨t, a, some v⟩) log := by
  refine h.congr rfl rfl le_rfl fun {u e} he => ?_
  rw [gcDeadInsert_gcDead, Function.update_apply] at he
  split at he
  · rename_i heq
    cases he
    exact .inr (.inl ⟨rfl, heq ▸ hw⟩)
  · exact .inl he

lemma gcDeadInsert_ns (t : Int) (a : Nat) (hv : m.SpentNs v) :
    Mapped (m.gcDeadInsert v ⟨t, a, none⟩) log := by
  refine h.congr rfl rfl le_rfl fun {u e} he => ?_
  rw [gcDeadInsert_gcDead, Function.update_apply] at he
  split at he
  · rename_i heq
    cases he
    exact .inr (.inr ⟨rfl, heq ▸ hv⟩)
  · exact .inl he

lemma freshNs {n : Nat} (hf : FreshNs m m' n) :
    Mapped m' (log.put place (.nsMap n m.nextVirtualId)) where
  ok := hf.drawn.ok h.ok h.ok.pos
  agrees :=
    { puts := MetaLog.puts_put h.agrees.puts place _
      ns := by
        intro n'
        rw [hf.nsMap_eq]
        by_cases hn : n' = n
        · subst hn
          rw [if_pos rfl, findSome?_upsert_self, some_or]
          · intro x hx
            by_contra hne
            rw [setsNs_eq_none hne] at hx
            cases hx
          · exact if_pos rfl
        · rw [if_neg hn, findSome?_put_setsNs, h.agrees.ns]
          exact fun heq => hn (MetaKey.nsMap.inj heq).symm
      root := by
        intro d
        rw [hf.dbRouting, findSome?_put_setsRoot rfl, h.agrees.root]
      db := by
        intro v d hv
        rw [hf.dbRouting, findSome?_put_setsDb (by nofun), h.agrees.db v d hv]
      retired_db := forall_mem_upsert nofun fun e he w hw =>
        hf.drawn.spentDb (h.agrees.retired_db e he w hw)
      retired_ns := forall_mem_upsert nofun fun e he v hv =>
        hf.drawn.spentNs (h.agrees.retired_ns e he v hv) }
  root_db := by
    intro d
    rw [hf.dbRouting, findSome?_put_setsDb (by nofun), h.root_db]

omit h in
/-- The 0x02 record of a cell is what the key lookup reads next. -/
lemma findSome?_put_dbMap (v d w v' d' : Nat) :
    (log.put place (.dbMap v d w)).findSome? (setsDb v' d') =
      if v' = v ∧ d' = d then some w else log.findSome? (setsDb v' d') := by
  split
  · rename_i heq
    obtain ⟨rfl, rfl⟩ := heq
    refine findSome?_upsert_self (fun x hx => ?_) (if_pos ⟨rfl, rfl⟩)
    by_contra hne
    rw [setsDb_eq_none hne] at hx
    cases hx
  · rename_i hne
    refine findSome?_put_setsDb fun heq => ?_
    obtain ⟨rfl, rfl⟩ := MetaKey.dbMap.inj heq
    exact hne ⟨rfl, rfl⟩

omit h in
lemma setsRoot_eq_none_of_dbMap {x : LogEntry} {d' : Nat} (hx : x.key = .dbMap v d)
    (hne : ¬(v = rootVirtualId ∧ d = d')) : x.setsRoot d' = none := by
  refine setsRoot_eq_none ?_
  rw [hx]
  exact decide_eq_false hne

lemma freshDb (hf : FreshDb m m' v d) (hv : v < m.nextVirtualId)
    (hroot : v = rootVirtualId → overwrites LogEntry.key place log (.dbMap v d) = true →
      log.decidedBy d [.dbMap v d] = true) :
    Mapped m' (log.put place (.dbMap v d m.nextVirtualId)) where
  ok := hf.drawn.ok h.ok hv
  agrees :=
    { puts := MetaLog.puts_put h.agrees.puts place _
      ns := by
        intro n
        rw [hf.nsMap, findSome?_put_setsNs (by nofun), h.agrees.ns]
      root := by
        intro d'
        rw [hf.dbRouting]
        split
        · rename_i heq
          obtain ⟨rfl, rfl⟩ := heq
          rw [findSome?_eq_setting key, setting_upsert_self, map_some, some_or]
          · exact if_pos ⟨rfl, rfl⟩
          · intro hov q hq
            exact List.mem_singleton.1 (decidedBy_iff.1 (hroot rfl hov) q hq)
        · rename_i hne
          rw [findSome?_upsert_of_none, h.agrees.root]
          exact fun x hx => setsRoot_eq_none_of_dbMap hx fun heq => hne ⟨heq.1.symm, heq.2.symm⟩
      db := by
        intro v' d' hv'
        rw [hf.dbRouting, findSome?_put_dbMap, h.agrees.db v' d' hv']
      retired_db := forall_mem_upsert nofun fun e he w hw =>
        hf.drawn.spentDb (h.agrees.retired_db e he w hw)
      retired_ns := forall_mem_upsert nofun fun e he u hu =>
        hf.drawn.spentNs (h.agrees.retired_ns e he u hu) }
  root_db := by
    intro d'
    rw [hf.dbRouting, findSome?_put_dbMap, h.root_db]
    split <;> rfl

/-- The records of SWAPDB set both cells, when a pair record and a 0x02 record that are both updated in
place find the cell decided by one of them. -/
lemma findSome?_swap {d₁ d₂ w₁ w₂ w : Nat} {place₁ place₂ : Bool}
    (hset : (LogEntry.put (.dbSwap rootVirtualId d₁ d₂ w₁ w₂)).setsRoot d = some w)
    (hroot : overwrites LogEntry.key place₁ log (.dbSwap rootVirtualId d₁ d₂) = true →
      place₂ = true →
      log.decidedBy d [.dbMap rootVirtualId d, .dbSwap rootVirtualId d₁ d₂] = true)
    {log' : MetaLog} (hlog : setting LogEntry.key (setsRoot d) log' =
      setting LogEntry.key (setsRoot d) (log.put place₁ (.dbSwap rootVirtualId d₁ d₂ w₁ w₂))) :
    (log'.put place₂ (.dbMap rootVirtualId d w)).findSome? (setsRoot d) = some w := by
  refine findSome?_upsert_upsert ?_ ?_ hset (if_pos ⟨rfl, rfl⟩) ?_ hlog
  · nofun
  · intro x hx hkey
    obtain ⟨r, rfl⟩ := h.agrees.puts x hx
    refine isSome_setsRoot ?_
    rw [show r.key = .dbSwap rootVirtualId d₁ d₂ from hkey]
    by_contra hne
    rw [setsRoot_eq_none (Bool.not_eq_true _ ▸ hne)] at hset
    cases hset
  · intro hov hp q hq
    have hmem := decidedBy_iff.1 (hroot hov hp) q hq
    rwa [List.mem_cons, List.mem_singleton] at hmem

lemma swap {d₁ d₂ w₁ w₂ : Nat} (hne : d₁ ≠ d₂)
    (hw₁ : m.dbRouting v d₁ = some w₁) (hw₂ : m.dbRouting v d₂ = some w₂) {p₀ p₁ p₂ : Bool}
    (hroot : v = rootVirtualId →
      overwrites LogEntry.key p₀ log (.dbSwap rootVirtualId d₁ d₂) = true →
      (p₁ = true → log.decidedBy d₁ [.dbMap rootVirtualId d₁, .dbSwap rootVirtualId d₁ d₂] = true) ∧
      (p₂ = true → log.decidedBy d₂ [.dbMap rootVirtualId d₂, .dbSwap rootVirtualId d₁ d₂] = true)) :
    Mapped (m.swapCells v d₁ d₂).2
      (((log.put p₀ (.dbSwap v d₁ d₂ w₂ w₁)).put p₁ (.dbMap v d₁ w₂)).put p₂ (.dbMap v d₂ w₁)) := by
  have hperm := swapCells_permuted hw₁ hw₂
  have hdb : ∀ v' d, (((log.put p₀ (.dbSwap v d₁ d₂ w₂ w₁)).put p₁ (.dbMap v d₁ w₂)).put p₂
      (.dbMap v d₂ w₁)).findSome? (setsDb v' d) =
      if v' = v ∧ d = d₂ then some w₁ else if v' = v ∧ d = d₁ then some w₂
      else log.findSome? (setsDb v' d) := by
    intro v' d
    rw [findSome?_put_dbMap, findSome?_put_dbMap, findSome?_put_setsDb (by nofun)]
  refine ⟨hperm.ok h.ok, ⟨?_, fun n => ?_, fun d => ?_, fun v' d hv' => ?_, ?_, ?_⟩, fun d => ?_⟩
  · exact puts_put (puts_put (puts_put h.agrees.puts _ _) _ _) _ _
  · rw [hperm.nsMap, findSome?_put_setsNs (by nofun), findSome?_put_setsNs (by nofun),
      findSome?_put_setsNs (by nofun), h.agrees.ns]
  · rw [swapCells_dbRouting hw₁ hw₂]
    by_cases hd₂ : rootVirtualId = v ∧ d = d₂
    · obtain ⟨rfl, rfl⟩ := hd₂
      rw [if_pos ⟨rfl, rfl⟩, h.findSome?_swap (if_pos ⟨rfl, rfl⟩)
        (fun hov => (hroot rfl hov).2), some_or]
      exact setting_upsert_of_none fun x hx =>
        setsRoot_eq_none_of_dbMap hx fun heq => hne heq.2
    · rw [if_neg hd₂, findSome?_upsert_of_none]
      swap
      · exact fun x hx => setsRoot_eq_none_of_dbMap hx fun heq => hd₂ ⟨heq.1.symm, heq.2.symm⟩
      by_cases hd₁ : rootVirtualId = v ∧ d = d₁
      · obtain ⟨rfl, rfl⟩ := hd₁
        rw [if_pos ⟨rfl, rfl⟩, h.findSome?_swap _ (fun hov => (hroot rfl hov).1) rfl, some_or]
        exact (if_neg fun heq => hne heq.2.symm).trans (if_pos ⟨rfl, rfl⟩)
      · rw [if_neg hd₁, findSome?_upsert_of_none, findSome?_upsert_of_none, h.agrees.root]
        · intro x hx
          refine setsRoot_eq_none ?_
          rw [hx]
          refine decide_eq_false ?_
          rintro ⟨rfl, rfl | rfl⟩
          · exact hd₁ ⟨rfl, rfl⟩
          · exact hd₂ ⟨rfl, rfl⟩
        · exact fun x hx => setsRoot_eq_none_of_dbMap hx fun heq => hd₁ ⟨heq.1.symm, heq.2.symm⟩
  · rw [swapCells_dbRouting hw₁ hw₂, hdb, h.agrees.db v' d hv']
  · refine forall_mem_upsert nofun (forall_mem_upsert nofun (forall_mem_upsert nofun ?_))
    exact fun e he w hw => hperm.spentDb (h.agrees.retired_db e he w hw)
  · refine forall_mem_upsert nofun (forall_mem_upsert nofun (forall_mem_upsert nofun ?_))
    exact fun e he u hu => hperm.spentNs (h.agrees.retired_ns e he u hu)
  · rw [swapCells_dbRouting hw₁ hw₂, hdb, h.root_db]
    split
    · rfl
    · split <;> rfl

/-- Compaction copies a current record to the tail. A pair record of the root namespace must still
say what the 0x02 records of its databases say. -/
lemma copy {key : MetaKey} (hread : log.read key = some record)
    (hpair : ∀ d₁ d₂ w₁ w₂, record = .dbSwap rootVirtualId d₁ d₂ w₁ w₂ →
      log.probeDb rootVirtualId d₁ = some w₁ ∧ log.probeDb rootVirtualId d₂ = some w₂) :
    Mapped m (.put record :: log) := by
  have hlookup : lookup LogEntry.key log key = some (.put record) := by
    unfold MetaLog.read at hread
    split at hread
    · rename_i r hr
      rw [hr, some.inj hread]
    · cases hread
  obtain ⟨hmem, hkey⟩ := mem_of_lookup hlookup
  subst hkey
  have hcons : ∀ {sets : LogEntry → Option Nat},
      (∀ b, sets (.put record) = some b → log.findSome? sets = some b) →
      List.findSome? sets (.put record :: log) = log.findSome? sets := by
    intro sets hsets
    rw [List.findSome?_cons]
    cases hb : sets (.put record) with
    | none => rfl
    | some b => exact (hsets b hb).symm
  have hdb : ∀ v d, List.findSome? (setsDb v d) (.put record :: log) =
      log.findSome? (setsDb v d) := by
    intro v d
    refine hcons fun b hb => ?_
    rcases record with _ | ⟨v', d', w⟩ | _ | _ | _ | _ <;> try cases hb
    obtain ⟨⟨rfl, rfl⟩, ⟨⟩⟩ := ite_none_right_eq_some.1 hb
    rw [← probeDb_eq h.agrees.puts]
    exact probeDb_of_read hread
  refine ⟨h.ok, ⟨List.forall_mem_cons.2 ⟨⟨record, rfl⟩, h.agrees.puts⟩, fun n => ?_, fun d => ?_,
    fun v d hv => ?_, List.forall_mem_cons.2 ⟨h.agrees.retired_db _ hmem, h.agrees.retired_db⟩,
    List.forall_mem_cons.2 ⟨h.agrees.retired_ns _ hmem, h.agrees.retired_ns⟩⟩, fun d => ?_⟩
  · rw [hcons, h.agrees.ns]
    intro b hb
    rcases record with ⟨n', v⟩ | _ | _ | _ | _ | _ <;> try cases hb
    obtain ⟨rfl, ⟨⟩⟩ := ite_none_right_eq_some.1 hb
    rw [← probeNs_eq h.agrees.puts]
    exact probeNs_of_read hread
  · -- the copy becomes the newest record that sets its cells
    have hprobe : ∀ {d w}, log.probeDb rootVirtualId d = some w →
        m.dbRouting rootVirtualId d = some w := by
      intro d w hw
      rw [h.root_db, ← probeDb_eq h.agrees.puts, hw, some_or]
    rw [List.findSome?_cons]
    cases hb : (put record).setsRoot d with
    | none => exact h.agrees.root d
    | some =>
      rcases record with _ | ⟨v', d', w⟩ | _ | _ | _ | ⟨v', d₁, d₂, w₁, w₂⟩ <;> try cases hb
      · obtain ⟨⟨rfl, rfl⟩, ⟨⟩⟩ := ite_none_right_eq_some.1 hb
        exact hprobe (probeDb_of_read hread)
      · rw [setsRoot] at hb
        split at hb
        · rename_i heq
          obtain ⟨rfl, rfl⟩ := heq
          exact hb ▸ hprobe (hpair _ _ _ _ rfl).2
        · obtain ⟨⟨rfl, rfl⟩, ⟨⟩⟩ := ite_none_right_eq_some.1 hb
          exact hprobe (hpair _ _ _ _ rfl).1
  · rw [hdb, h.agrees.db v d hv]
  · rw [hdb, h.root_db]

end

end Mapped

end Wedb.Vdb
