import Wedb.Vdb.Manager

/-!
# Rebuilding the mapping at a restart

A restart scans the log in address order and applies every DbMeta record to an initial manager.
Only the root namespace's databases are loaded by the scan; a database of another namespace is
looked up by its 0x02 key when it is first used.
-/

namespace Wedb.Vdb

open Function LogEntry

namespace VirtualDbManager

/-- `rebuild_apply_record`: applies a record, and returns the number the watermark has to pass. -/
def applyRecord (m : VirtualDbManager) : DbMetaRecord → Nat × VirtualDbManager
  | .nsMap logicNs vns => (vns, m.insertNsMapping logicNs vns)
  | .dbMap vns logicDb vdb =>
    (vdb, if vns = rootVirtualId then m.insertDbMapping vns logicDb vdb else m)
  | .gcDeadNs expiredAt oldVns tailAddress =>
    (oldVns, m.gcDeadInsert oldVns ⟨expiredAt, tailAddress, none⟩)
  | .gcDeadDb expiredAt vns oldVdb tailAddress =>
    (oldVdb, m.gcDeadInsert oldVdb ⟨expiredAt, tailAddress, some vns⟩)
  | .nextId nextVirtualId => (nextVirtualId - 1, m)
  | .dbSwap vns logicDb1 logicDb2 swappedDb1 swappedDb2 =>
    (max swappedDb1 swappedDb2,
      if vns = rootVirtualId then
        (m.insertDbMapping vns logicDb1 swappedDb1).insertDbMapping vns logicDb2 swappedDb2
      else m)

/-- `rebuild_vdb_visit`, with the greatest number met so far. -/
def visit : LogEntry → Nat × VirtualDbManager → Nat × VirtualDbManager
  | .tombstone k, (maxVid, m) =>
    match k.deadVidOf with
    | some vid => (maxVid, m.gcDeadRemove vid)
    | none => (maxVid, m)
  | .put record, (maxVid, m) => (max maxVid (m.applyRecord record).1, (m.applyRecord record).2)

/-- The state of the scan behind the records of `log`, whose head has the highest address. The
database (0, 0) that `rebuild_vdb_async` asks for first is there in a new manager. -/
def scan (log : MetaLog) : Nat × VirtualDbManager := log.foldr visit (0, new)

/-- `rebuild_vdb_async` with `finish_vdb_rebuild`. -/
def rebuild (log : MetaLog) : VirtualDbManager :=
  let (maxVid, m) := scan log
  (if 0 < maxVid then m.bumpWatermark (maxVid + 1) else m).bumpGeneration

/-- The existing mapping that `resolve_ns` finds, in memory or on disk. -/
def lookupNs (m : VirtualDbManager) (log : MetaLog) (logicNs : Nat) : Option Nat :=
  (m.nsMap logicNs).or ((log.probeNs logicNs).filter fun vns => !m.isDeadNs vns)

/-- The existing mapping that `resolve_db` finds, in memory or on disk. -/
def lookupDb (m : VirtualDbManager) (log : MetaLog) (vns logicDb : Nat) : Option Nat :=
  (m.dbRouting vns logicDb).or ((log.probeDb vns logicDb).filter fun vdb => !m.isDeadDomain vns vdb)

/-- The virtual pair that `resolve_context` finds; where it finds none it allocates. -/
def lookupContext (m : VirtualDbManager) (log : MetaLog) (logicNs logicDb : Nat) :
    Option (Nat × Nat) := do
  let vns ← m.lookupNs log logicNs
  let vdb ← m.lookupDb log vns logicDb
  some (vns, vdb)

end VirtualDbManager

/-- The mapping a restart obtains from the log. -/
def MetaLog.restartMapping (log : MetaLog) (logicNs logicDb : Nat) : Option (Nat × Nat) :=
  (VirtualDbManager.rebuild log).lookupContext log logicNs logicDb

/-! ### What the scan leaves -/

namespace LogEntry

/-- What an entry sets the virtual namespace of `logicNs` to. -/
def setsNs (logicNs : Nat) : LogEntry → Option Nat
  | .put (.nsMap ns vns) => if ns = logicNs then some vns else none
  | _ => none

/-- What a 0x02 record sets the virtual database of `logicDb` in `vns` to. -/
def setsDb (vns logicDb : Nat) : LogEntry → Option Nat
  | .put (.dbMap vns' db vdb) => if vns' = vns ∧ db = logicDb then some vdb else none
  | _ => none

/-- What an entry sets the cell of `logicDb` in the root namespace to when it is scanned. -/
def setsRoot (logicDb : Nat) : LogEntry → Option Nat
  | .put (.dbMap vns db vdb) => if vns = rootVirtualId ∧ db = logicDb then some vdb else none
  | .put (.dbSwap vns db1 db2 vdb1 vdb2) =>
    if vns = rootVirtualId ∧ db2 = logicDb then some vdb2
    else if vns = rootVirtualId ∧ db1 = logicDb then some vdb1
    else none
  | _ => none

/-- The entry retires a database number. -/
def retiresDb (vdb : Nat) : LogEntry → Prop
  | .put (.gcDeadDb _ _ oldVdb _) => oldVdb = vdb
  | _ => False

/-- The entry retires a namespace number. -/
def retiresNs (vns : Nat) : LogEntry → Prop
  | .put (.gcDeadNs _ oldVns _) => oldVns = vns
  | _ => False

end LogEntry

namespace VirtualDbManager

section

variable (log : MetaLog)
include log

lemma scan_nsMap (ns : Nat) :
    (scan log).2.nsMap ns = (log.findSome? (setsNs ns)).or (new.nsMap ns) := by
  induction log with
  | nil => rfl
  | cons e log ih =>
    change (visit e (scan log)).2.nsMap ns = _
    rcases e with (⟨n, v⟩ | _ | _ | _ | _ | _) | _
    · by_cases h : n = ns
      · simp [visit, applyRecord, setsNs, h]
      · simp [visit, applyRecord, setsNs, h, update_of_ne (symm h), ih]
    all_goals
      simp only [visit, applyRecord]
      try split
    all_goals exact ih

lemma scan_dbRouting_root (db : Nat) :
    (scan log).2.dbRouting rootVirtualId db =
      (log.findSome? (setsRoot db)).or (new.dbRouting rootVirtualId db) := by
  induction log with
  | nil => rfl
  | cons e log ih =>
    change (visit e (scan log)).2.dbRouting rootVirtualId db = _
    rcases e with (_ | ⟨v, d, w⟩ | _ | _ | _ | ⟨v, d, d', w, w'⟩) | _
    · exact ih
    · by_cases hv : v = rootVirtualId
      · by_cases hd : d = db
        · simp [visit, applyRecord, setsRoot, hv, hd]
        · simp [visit, applyRecord, setsRoot, hv, hd, Ne.symm hd, ih]
      · simp [visit, applyRecord, setsRoot, hv, ih]
    · exact ih
    · exact ih
    · exact ih
    · by_cases hv : v = rootVirtualId
      · by_cases hd' : d' = db
        · simp [visit, applyRecord, setsRoot, hv, hd']
        · by_cases hd : d = db
          · simp [visit, applyRecord, setsRoot, hv, hd', Ne.symm hd', hd]
          · simp [visit, applyRecord, setsRoot, hv, hd', Ne.symm hd', hd, Ne.symm hd, ih]
      · simp [visit, applyRecord, setsRoot, hv, ih]
    · simp only [visit]
      split <;> exact ih

/-- The scan loads no database of another namespace. -/
lemma scan_dbRouting_of_ne {vns : Nat} (h : vns ≠ rootVirtualId) (db : Nat) :
    (scan log).2.dbRouting vns db = none := by
  induction log with
  | nil => simp [scan, new, update_of_ne h]
  | cons e log ih =>
    change (visit e (scan log)).2.dbRouting vns db = _
    rcases e with (_ | _ | _ | _ | _ | _) | _
    all_goals simp only [visit, applyRecord]
    all_goals try exact ih
    all_goals split
    all_goals try exact ih
    all_goals simp [*]

omit log in
/-- What the ledger holds after the scan comes from a retirement record of the same role. -/
lemma exists_retires_of_scan_gcDead {log : MetaLog} {vid : Nat} {entry : GcDeadEntry}
    (h : (scan log).2.gcDead vid = some entry) :
    ∃ e ∈ log, if entry.vns.isSome then e.retiresDb vid else e.retiresNs vid := by
  induction log with
  | nil => cases h
  | cons e log ih =>
    have hrec : (scan log).2.gcDead vid = some entry →
        ∃ e' ∈ e :: log, if entry.vns.isSome then e'.retiresDb vid else e'.retiresNs vid := by
      intro h
      obtain ⟨e', he', hr⟩ := ih h
      exact ⟨e', List.mem_cons_of_mem _ he', hr⟩
    change (visit e (scan log)).2.gcDead vid = some entry at h
    rcases e with (_ | _ | ⟨t, v, a⟩ | ⟨t, v, w, a⟩ | _ | _) | k
    all_goals simp only [visit, applyRecord] at h
    · exact hrec h
    · split at h <;> exact hrec h
    · by_cases hv : vid = v
      · rw [gcDeadInsert_gcDead, hv, update_self] at h
        cases h
        exact ⟨_, List.mem_cons_self, by simp [retiresNs, hv]⟩
      · rw [gcDeadInsert_gcDead, update_of_ne hv] at h
        exact hrec h
    · by_cases hw : vid = w
      · rw [gcDeadInsert_gcDead, hw, update_self] at h
        cases h
        exact ⟨_, List.mem_cons_self, by simp [retiresDb, hw]⟩
      · rw [gcDeadInsert_gcDead, update_of_ne hw] at h
        exact hrec h
    · exact hrec h
    · split at h <;> exact hrec h
    · split at h
      · rename_i v _
        by_cases hv : vid = v
        · simp [hv] at h
        · rw [gcDeadRemove_gcDead, update_of_ne hv] at h
          exact hrec h
      · exact hrec h

@[simp]
lemma rebuild_nsMap : (rebuild log).nsMap = (scan log).2.nsMap := by
  simp only [rebuild]
  split <;> rfl

@[simp]
lemma rebuild_dbRouting : (rebuild log).dbRouting = (scan log).2.dbRouting := by
  simp only [rebuild]
  split <;> rfl

@[simp]
lemma rebuild_gcDead : (rebuild log).gcDead = (scan log).2.gcDead := by
  simp only [rebuild]
  split <;> rfl

end

end VirtualDbManager

end Wedb.Vdb
