import Wedb.Vdb.Transactions
import Mathlib.Logic.Equiv.Basic

/-!
# What memory and the log say about the mapping

`VirtualDbManager.Ok` is what holds of the numbers in memory: they were drawn from the counter, no
two logical names share one, and a retired one is not in use. `Agrees m log` says that a restart from
`log` finds the mapping of `m`. Both are kept record by record, so that they also hold between the
records of a batch.
-/

namespace Wedb.Vdb

open Nat Option VirtualDbManager LogEntry

open Function (update)

/-! ### Memory -/

variable {w : Nat}

namespace VirtualDbManager

variable {m m' : VirtualDbManager}

/-- The number was drawn and no cell holds it. -/
def SpentDb (m : VirtualDbManager) (w : Nat) : Prop :=
  w < m.nextVirtualId ∧ ∀ v d, m.dbRouting v d ≠ some w

/-- The number was drawn and no namespace has it. -/
def SpentNs (m : VirtualDbManager) (v : Nat) : Prop :=
  v < m.nextVirtualId ∧ ∀ n, m.nsMap n ≠ some v

structure Ok (m : VirtualDbManager) : Prop where
  pos : 0 < m.nextVirtualId
  ns_lt : ∀ {n v}, m.nsMap n = some v → v < m.nextVirtualId
  vns_lt : ∀ {v d w}, m.dbRouting v d = some w → v < m.nextVirtualId
  vdb_lt : ∀ {v d w}, m.dbRouting v d = some w → w < m.nextVirtualId
  ns_inj : ∀ {n n' v}, m.nsMap n = some v → m.nsMap n' = some v → n = n'
  db_inj : ∀ {v d v' d' w}, m.dbRouting v d = some w → m.dbRouting v' d' = some w → v = v' ∧ d = d'
  dead_db : ∀ {w e}, m.gcDead w = some e → e.vns.isSome → m.SpentDb w
  dead_ns : ∀ {v e}, m.gcDead v = some e → e.vns = none → m.SpentNs v

lemma new_nsMap (n : Nat) : new.nsMap n = if n = 0 then some rootVirtualId else none := by
  by_cases h : n = 0 <;> simp [new, h]

lemma new_dbRouting (v d : Nat) :
    new.dbRouting v d = if v = rootVirtualId ∧ d = 0 then some rootVirtualId else none := by
  by_cases hv : v = rootVirtualId
  · by_cases hd : d = 0 <;> simp [new, hv, hd]
  · simp [new, hv]

lemma Ok.new : new.Ok where
  pos := Nat.one_pos
  ns_lt := by
    intro n v h
    rw [new_nsMap] at h
    obtain ⟨_, ⟨⟩⟩ := ite_none_right_eq_some.1 h
    exact Nat.one_pos
  vns_lt := by
    intro v d w h
    rw [new_dbRouting] at h
    obtain ⟨⟨rfl, _⟩, _⟩ := ite_none_right_eq_some.1 h
    exact Nat.one_pos
  vdb_lt := by
    intro v d w h
    rw [new_dbRouting] at h
    obtain ⟨_, ⟨⟩⟩ := ite_none_right_eq_some.1 h
    exact Nat.one_pos
  ns_inj := by
    intro n n' v h h'
    rw [new_nsMap] at h h'
    rw [(ite_none_right_eq_some.1 h).1, (ite_none_right_eq_some.1 h').1]
  db_inj := by
    intro v d v' d' w h h'
    rw [new_dbRouting] at h h'
    obtain ⟨⟨rfl, rfl⟩, _⟩ := ite_none_right_eq_some.1 h
    obtain ⟨⟨rfl, rfl⟩, _⟩ := ite_none_right_eq_some.1 h'
    exact ⟨rfl, rfl⟩
  dead_db := nofun
  dead_ns := nofun

/-- What is in use is not judged dead. -/
lemma Ok.isDeadDomain_eq_false (h : m.Ok) {n v d : Nat} (hn : m.nsMap n = some v)
    (hd : m.dbRouting v d = some w) : m.isDeadDomain v w = false := by
  rw [isDeadDomain, isDeadNs, Bool.or_eq_false_iff]
  constructor
  · cases hw : m.gcDead w with
    | none => rfl
    | some =>
      rw [Bool.eq_false_iff]
      exact fun he => (h.dead_db hw he).2 v d hd
  · cases hv : m.gcDead v with
    | none => rfl
    | some =>
      rw [Bool.eq_false_iff]
      exact fun he => (h.dead_ns hv (by simpa using he)).2 n hn

/-- A namespace gets a fresh number. -/
structure FreshNs (m m' : VirtualDbManager) (n : Nat) : Prop where
  nsMap : m'.nsMap = update m.nsMap n (some m.nextVirtualId)
  dbRouting : m'.dbRouting = m.dbRouting
  next : m'.nextVirtualId = m.nextVirtualId + 1
  gcDead : m'.gcDead = m.gcDead

/-- A cell gets a fresh number. -/
structure FreshDb (m m' : VirtualDbManager) (v d : Nat) : Prop where
  nsMap : m'.nsMap = m.nsMap
  dbRouting : ∀ v' d', m'.dbRouting v' d' =
    if v' = v ∧ d' = d then some m.nextVirtualId else m.dbRouting v' d'
  next : m'.nextVirtualId = m.nextVirtualId + 1
  gcDead : m'.gcDead = m.gcDead

/-- What is held now was held before, or it is the number drawn, which stands in one place. -/
structure DrawnOnce (m m' : VirtualDbManager) (n v d : Nat) : Prop where
  ns : ∀ {n' u}, m'.nsMap n' = some u → m.nsMap n' = some u ∨ n' = n ∧ u = m.nextVirtualId
  db : ∀ {v' d' w}, m'.dbRouting v' d' = some w →
    m.dbRouting v' d' = some w ∨ (v' = v ∧ d' = d) ∧ w = m.nextVirtualId
  next : m'.nextVirtualId = m.nextVirtualId + 1
  gcDead : m'.gcDead = m.gcDead

section DrawnOnce

variable {n v d : Nat} (hd : DrawnOnce m m' n v d)
include hd

lemma DrawnOnce.lt {x : Nat} (h : x < m.nextVirtualId + 1) : x < m'.nextVirtualId := hd.next ▸ h

lemma DrawnOnce.spentDb (h : m.SpentDb w) : m'.SpentDb w := by
  refine ⟨hd.lt (lt_succ_of_lt h.1), fun v' d' hw => ?_⟩
  rcases hd.db hw with hw | ⟨-, rfl⟩
  · exact h.2 v' d' hw
  · exact absurd h.1 (lt_irrefl _)

lemma DrawnOnce.spentNs {u : Nat} (h : m.SpentNs u) : m'.SpentNs u := by
  refine ⟨hd.lt (lt_succ_of_lt h.1), fun n' hu => ?_⟩
  rcases hd.ns hu with hu | ⟨-, rfl⟩
  · exact h.2 n' hu
  · exact absurd h.1 (lt_irrefl _)

lemma DrawnOnce.ok (h : m.Ok) (hv : v < m.nextVirtualId) : m'.Ok where
  pos := hd.lt (succ_pos _)
  ns_lt := by
    intro n' u hu
    rcases hd.ns hu with hu | ⟨-, rfl⟩
    · exact hd.lt (lt_succ_of_lt (h.ns_lt hu))
    · exact hd.lt (lt_succ_self _)
  vns_lt := by
    intro v' d' w hw
    rcases hd.db hw with hw | ⟨⟨rfl, -⟩, -⟩
    · exact hd.lt (lt_succ_of_lt (h.vns_lt hw))
    · exact hd.lt (lt_succ_of_lt hv)
  vdb_lt := by
    intro v' d' w hw
    rcases hd.db hw with hw | ⟨-, rfl⟩
    · exact hd.lt (lt_succ_of_lt (h.vdb_lt hw))
    · exact hd.lt (lt_succ_self _)
  ns_inj := by
    intro n₁ n₂ u h₁ h₂
    rcases hd.ns h₁ with h₁ | ⟨rfl, rfl⟩ <;> rcases hd.ns h₂ with h₂ | ⟨rfl, heq⟩
    · exact h.ns_inj h₁ h₂
    · exact absurd (h.ns_lt h₁) (heq ▸ lt_irrefl _)
    · exact absurd (h.ns_lt h₂) (lt_irrefl _)
    · rfl
  db_inj := by
    intro v₁ d₁ v₂ d₂ w h₁ h₂
    rcases hd.db h₁ with h₁ | ⟨⟨rfl, rfl⟩, rfl⟩ <;> rcases hd.db h₂ with h₂ | ⟨⟨rfl, rfl⟩, heq⟩
    · exact h.db_inj h₁ h₂
    · exact absurd (h.vdb_lt h₁) (heq ▸ lt_irrefl _)
    · exact absurd (h.vdb_lt h₂) (lt_irrefl _)
    · exact ⟨rfl, rfl⟩
  dead_db := fun he hr => hd.spentDb (h.dead_db (hd.gcDead ▸ he) hr)
  dead_ns := fun he hr => hd.spentNs (h.dead_ns (hd.gcDead ▸ he) hr)

end DrawnOnce

section FreshNs

variable {n : Nat} (hf : FreshNs m m' n)
include hf

lemma FreshNs.nsMap_eq (n' : Nat) :
    m'.nsMap n' = if n' = n then some m.nextVirtualId else m.nsMap n' := by
  rw [hf.nsMap, Function.update_apply]

lemma FreshNs.drawn : DrawnOnce m m' n 0 0 where
  ns := by
    intro n' u hu
    rw [hf.nsMap_eq] at hu
    split at hu
    · exact .inr ⟨‹_›, (some.inj hu).symm⟩
    · exact .inl hu
  db := fun hw => .inl (hf.dbRouting ▸ hw)
  next := hf.next
  gcDead := hf.gcDead

/-- The number it replaces is not in use any more. -/
lemma FreshNs.spentNs_old (h : m.Ok) {v : Nat} (hv : m.nsMap n = some v) : m'.SpentNs v := by
  refine ⟨hf.drawn.lt (lt_succ_of_lt (h.ns_lt hv)), fun n' hn' => ?_⟩
  rw [hf.nsMap_eq] at hn'
  split at hn'
  · cases hn'
    exact absurd (h.ns_lt hv) (lt_irrefl _)
  · rename_i hne
    exact hne (h.ns_inj hn' hv)

end FreshNs

section FreshDb

variable {v d : Nat} (hf : FreshDb m m' v d)
include hf

lemma FreshDb.drawn : DrawnOnce m m' 0 v d where
  ns := fun hu => .inl (hf.nsMap ▸ hu)
  db := by
    intro v' d' w hw
    rw [hf.dbRouting] at hw
    split at hw
    · exact .inr ⟨‹_›, (some.inj hw).symm⟩
    · exact .inl hw
  next := hf.next
  gcDead := hf.gcDead

/-- The number it replaces is not in use any more. -/
lemma FreshDb.spentDb_old (h : m.Ok) (hw : m.dbRouting v d = some w) : m'.SpentDb w := by
  refine ⟨hf.drawn.lt (lt_succ_of_lt (h.vdb_lt hw)), fun v' d' hw' => ?_⟩
  rw [hf.dbRouting] at hw'
  split at hw'
  · cases hw'
    exact absurd (h.vdb_lt hw) (lt_irrefl _)
  · rename_i hne
    exact hne (h.db_inj hw' hw)

end FreshDb

/-- The databases of a namespace change their places. -/
structure Permuted (m m' : VirtualDbManager) (v : Nat) (σ : Equiv.Perm Nat) : Prop where
  nsMap : m'.nsMap = m.nsMap
  dbRouting : ∀ v' d, m'.dbRouting v' d = m.dbRouting v' (if v' = v then σ d else d)
  next : m'.nextVirtualId = m.nextVirtualId
  gcDead : m'.gcDead = m.gcDead

lemma swapCells_dbRouting {v d₁ d₂ w₁ w₂ : Nat} (h₁ : m.dbRouting v d₁ = some w₁)
    (h₂ : m.dbRouting v d₂ = some w₂) (v' d : Nat) :
    (m.swapCells v d₁ d₂).2.dbRouting v' d =
      if v' = v ∧ d = d₂ then some w₁ else if v' = v ∧ d = d₁ then some w₂
      else m.dbRouting v' d := by
  rw [swapCells, h₁, h₂]
  simp only [getD_some, bumpGeneration_dbRouting, insertDbMapping_dbRouting]

lemma swapCells_permuted {v d₁ d₂ w₁ w₂ : Nat} (h₁ : m.dbRouting v d₁ = some w₁)
    (h₂ : m.dbRouting v d₂ = some w₂) :
    Permuted m (m.swapCells v d₁ d₂).2 v (Equiv.swap d₁ d₂) where
  nsMap := rfl
  dbRouting := by
    intro v' d
    rw [swapCells_dbRouting h₁ h₂]
    by_cases hv : v' = v
    · subst hv
      rw [if_pos rfl]
      by_cases hd₂ : d = d₂
      · subst hd₂
        rw [if_pos ⟨rfl, rfl⟩, Equiv.swap_apply_right, h₁]
      · rw [if_neg fun h => hd₂ h.2]
        by_cases hd₁ : d = d₁
        · subst hd₁
          rw [if_pos ⟨rfl, rfl⟩, Equiv.swap_apply_left, h₂]
        · rw [if_neg fun h => hd₁ h.2, Equiv.swap_apply_of_ne_of_ne hd₁ hd₂]
    · rw [if_neg fun h => hv h.1, if_neg fun h => hv h.1, if_neg hv]
  next := rfl
  gcDead := rfl

section Permuted

variable {v : Nat} {σ : Equiv.Perm Nat} (hp : Permuted m m' v σ)
include hp

lemma Permuted.spentDb (h : m.SpentDb w) : m'.SpentDb w :=
  ⟨hp.next ▸ h.1, fun v' d hw => h.2 _ _ (hp.dbRouting v' d ▸ hw)⟩

lemma Permuted.spentNs {u : Nat} (h : m.SpentNs u) : m'.SpentNs u := by
  rw [SpentNs, hp.next, hp.nsMap]
  exact h

lemma Permuted.ok (h : m.Ok) : m'.Ok where
  pos := hp.next ▸ h.pos
  ns_lt := by
    rw [hp.nsMap, hp.next]
    exact h.ns_lt
  vns_lt := fun hw => hp.next ▸ h.vns_lt (hp.dbRouting _ _ ▸ hw)
  vdb_lt := fun hw => hp.next ▸ h.vdb_lt (hp.dbRouting _ _ ▸ hw)
  ns_inj := by
    rw [hp.nsMap]
    exact h.ns_inj
  db_inj := by
    intro v₁ d₁ v₂ d₂ w h₁ h₂
    rw [hp.dbRouting] at h₁ h₂
    obtain ⟨rfl, hd⟩ := h.db_inj h₁ h₂
    split at hd
    · exact ⟨rfl, σ.injective hd⟩
    · exact ⟨rfl, hd⟩
  dead_db := fun he hr => hp.spentDb (h.dead_db (hp.gcDead ▸ he) hr)
  dead_ns := fun he hr => hp.spentNs (h.dead_ns (hp.gcDead ▸ he) hr)

end Permuted

end VirtualDbManager

/-! ### The log -/

namespace LogEntry

variable {e : LogEntry}

lemma setsNs_eq_none {n : Nat} (h : e.key ≠ .nsMap n) : e.setsNs n = none := by
  rcases e with (⟨n', v⟩ | _ | _ | _ | _ | _) | _ <;> try rfl
  exact if_neg fun hn => h (congrArg MetaKey.nsMap hn)

variable {d : Nat}

lemma setsDb_eq_none {v : Nat} (h : e.key ≠ .dbMap v d) : e.setsDb v d = none := by
  rcases e with (_ | ⟨v', d', w⟩ | _ | _ | _ | _) | _ <;> try rfl
  exact if_neg fun hv => h (congrArg₂ MetaKey.dbMap hv.1 hv.2)

/-- The keys under which a record sets the cell of a root database. -/
def rootKey (d : Nat) : MetaKey → Bool
  | .dbMap v d' => v = rootVirtualId ∧ d' = d
  | .dbSwap v d₁ d₂ => v = rootVirtualId ∧ (d₁ = d ∨ d₂ = d)
  | _ => false

lemma setsRoot_eq_none (h : rootKey d e.key = false) : e.setsRoot d = none := by
  rcases e with (_ | ⟨v, d', w⟩ | _ | _ | _ | ⟨v, d₁, d₂, w₁, w₂⟩) | _ <;> try rfl
  · simpa [rootKey, DbMetaRecord.key, setsRoot] using h
  · simp only [rootKey, key, DbMetaRecord.key, decide_eq_false_iff_not] at h
    rw [setsRoot, if_neg (by tauto), if_neg (by tauto)]

lemma isSome_setsRoot {r : DbMetaRecord} (h : rootKey d r.key = true) :
    ((put r).setsRoot d).isSome := by
  rcases r with _ | ⟨v, d', w⟩ | _ | _ | _ | ⟨v, d₁, d₂, w₁, w₂⟩ <;> try cases h
  · simp only [rootKey, DbMetaRecord.key, decide_eq_true_eq] at h
    simp [setsRoot, h]
  · simp only [rootKey, DbMetaRecord.key, decide_eq_true_eq] at h
    rw [setsRoot]
    split
    · rfl
    · rw [if_pos (by tauto)]
      rfl

lemma setsRoot_of_setsDb (h : e.setsDb rootVirtualId d = some w) : e.setsRoot d = some w := by
  rcases e with (_ | ⟨v', d', w⟩ | _ | _ | _ | _) | _ <;> try cases h
  exact h

end LogEntry

namespace MetaLog

/-- Without deleted keys, the key lookup of a namespace is what the scan finds. -/
lemma probeNs_eq {log : MetaLog} (hputs : ∀ e ∈ log, ∃ r, e = .put r) (n : Nat) :
    log.probeNs n = log.findSome? (setsNs n) := by
  induction log with
  | nil => rfl
  | cons e log ih =>
    have ih := ih fun x hx => hputs x (List.mem_cons_of_mem _ hx)
    obtain ⟨r, rfl⟩ := hputs e List.mem_cons_self
    rw [List.findSome?_cons]
    by_cases hk : (put r).key = .nsMap n
    · rcases r with ⟨n', v⟩ | _ | _ | _ | _ | _ <;> try cases hk
      simp [probeNs, read, DbMetaRecord.key, setsNs]
    · rw [setsNs_eq_none hk, ← ih, probeNs, probeNs, read, read, Journal.lookup_cons, if_neg hk]

lemma probeDb_eq {log : MetaLog} (hputs : ∀ e ∈ log, ∃ r, e = .put r) (v d : Nat) :
    log.probeDb v d = log.findSome? (setsDb v d) := by
  induction log with
  | nil => rfl
  | cons e log ih =>
    have ih := ih fun x hx => hputs x (List.mem_cons_of_mem _ hx)
    obtain ⟨r, rfl⟩ := hputs e List.mem_cons_self
    rw [List.findSome?_cons]
    by_cases hk : (put r).key = .dbMap v d
    · rcases r with _ | ⟨v', d', w⟩ | _ | _ | _ | _ <;> try cases hk
      simp [probeDb, read, DbMetaRecord.key, setsDb]
    · rw [setsDb_eq_none hk, ← ih, probeDb, probeDb, read, read, Journal.lookup_cons, if_neg hk]

end MetaLog

/-- A restart from `log` finds the mapping of `m`. -/
structure Agrees (m : VirtualDbManager) (log : MetaLog) : Prop where
  puts : ∀ e ∈ log, ∃ r, e = .put r
  ns : ∀ n, m.nsMap n = (log.findSome? (setsNs n)).or (new.nsMap n)
  root : ∀ d, m.dbRouting rootVirtualId d = (log.findSome? (setsRoot d)).or
    (new.dbRouting rootVirtualId d)
  db : ∀ v d, v ≠ rootVirtualId → m.dbRouting v d = log.findSome? (setsDb v d)
  retired_db : ∀ e ∈ log, ∀ w, e.retiresDb w → m.SpentDb w
  retired_ns : ∀ e ∈ log, ∀ v, e.retiresNs v → m.SpentNs v

namespace Agrees

variable {m : VirtualDbManager} {log : MetaLog}

section

variable (h : Agrees m log)
include h

/-- What is in use is not judged dead by the ledger a restart loads. -/
lemma isDeadDomain_rebuild {n v d : Nat} (hn : m.nsMap n = some v) (hd : m.dbRouting v d = some w) :
    (rebuild log).isDeadDomain v w = false := by
  rw [isDeadDomain, isDeadNs, Bool.or_eq_false_iff, rebuild_gcDead]
  constructor
  · cases hw : (scan log).2.gcDead w with
    | none => rfl
    | some =>
      rw [any_some, Bool.eq_false_iff]
      intro he
      obtain ⟨e, hmem, hret⟩ := exists_retires_of_scan_gcDead hw
      rw [if_pos he] at hret
      exact (h.retired_db e hmem w hret).2 v d hd
  · cases hv : (scan log).2.gcDead v with
    | none => rfl
    | some =>
      rw [Bool.eq_false_iff]
      intro he
      obtain ⟨e, hmem, hret⟩ := exists_retires_of_scan_gcDead hv
      rw [if_neg (by simpa using he)] at hret
      exact (h.retired_ns e hmem v hret).2 n hn

lemma rebuild_lookupNs (n : Nat) : (rebuild log).lookupNs log n = m.nsMap n := by
  rw [lookupNs, rebuild_nsMap, scan_nsMap, ← h.ns]
  cases hn : m.nsMap n with
  | some => rfl
  | none =>
    have hnone : log.findSome? (setsNs n) = none := by
      have := h.ns n
      rw [hn] at this
      exact (or_eq_none_iff.1 this.symm).1
    rw [MetaLog.probeNs_eq h.puts, hnone]
    rfl

lemma rebuild_lookupDb {n v : Nat} (hn : m.nsMap n = some v) (d : Nat) :
    (rebuild log).lookupDb log v d = m.dbRouting v d := by
  rw [lookupDb, rebuild_dbRouting, MetaLog.probeDb_eq h.puts]
  by_cases hv : v = rootVirtualId
  · subst hv
    rw [scan_dbRouting_root, ← h.root]
    cases hd : m.dbRouting rootVirtualId d with
    | some => rfl
    | none =>
      -- a 0x02 record of the database would have been scanned
      have hnone : log.findSome? (setsRoot d) = none := by
        have := h.root d
        rw [hd] at this
        exact (or_eq_none_iff.1 this.symm).1
      have hdb : log.findSome? (setsDb rootVirtualId d) = none := by
        rw [List.findSome?_eq_none_iff] at hnone ⊢
        intro e he
        by_contra hne
        obtain ⟨w, hw⟩ := ne_none_iff_exists'.1 hne
        exact absurd (setsRoot_of_setsDb hw) (by rw [hnone e he]; nofun)
      rw [hdb]
      rfl
  · rw [scan_dbRouting_of_ne log hv, none_or, ← h.db v d hv]
    cases hd : m.dbRouting v d with
    | none => rfl
    | some => rw [filter_some, h.isDeadDomain_rebuild hn hd, Bool.not_false, if_pos rfl]

lemma restart_eq (n d : Nat) : log.restartMapping n d = m.mapping n d := by
  rw [MetaLog.restartMapping, lookupContext, mapping, h.rebuild_lookupNs]
  cases hn : m.nsMap n with
  | none => rfl
  | some => rw [bind_eq_bind, bind_some, h.rebuild_lookupDb hn]; rfl

end

end Agrees

end Wedb.Vdb
