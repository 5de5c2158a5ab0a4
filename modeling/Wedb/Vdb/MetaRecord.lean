import Wedb.Lib.Journal

/-!
# DbMeta records

The six kinds of records that carry the database mapping on disk. A record splits into a key, under
which an upsert finds it again, and a value. The numbers of virtual namespaces and of virtual
databases are drawn from one counter.
-/

namespace Wedb.Vdb

/-- The number of the root namespace and of its database 0. -/
def rootVirtualId : Nat := 0

inductive DbMetaRecord
  /-- 0x01 -/
  | nsMap (logicNs vns : Nat)
  /-- 0x02 -/
  | dbMap (vns logicDb vdb : Nat)
  /-- 0x03 -/
  | gcDeadNs (expiredAt : Int) (oldVns tailAddress : Nat)
  /-- 0x04 -/
  | gcDeadDb (expiredAt : Int) (vns oldVdb tailAddress : Nat)
  /-- 0x05 -/
  | nextId (nextVirtualId : Nat)
  /-- 0x06 -/
  | dbSwap (vns logicDb1 logicDb2 swappedDb1 swappedDb2 : Nat)
  deriving DecidableEq, Repr

/-- What `DbMetaRecord::key` encodes: the kind of the record and its key fields. -/
inductive MetaKey
  | nsMap (logicNs : Nat)
  | dbMap (vns logicDb : Nat)
  | gcDeadNs (expiredAt : Int) (oldVns : Nat)
  | gcDeadDb (expiredAt : Int) (vns oldVdb : Nat)
  | nextId
  | dbSwap (vns logicDb1 logicDb2 : Nat)
  deriving DecidableEq, Repr

def DbMetaRecord.key : DbMetaRecord → MetaKey
  | .nsMap logicNs _ => .nsMap logicNs
  | .dbMap vns logicDb _ => .dbMap vns logicDb
  | .gcDeadNs expiredAt oldVns _ => .gcDeadNs expiredAt oldVns
  | .gcDeadDb expiredAt vns oldVdb _ => .gcDeadDb expiredAt vns oldVdb
  | .nextId _ => .nextId
  | .dbSwap vns logicDb1 logicDb2 _ _ => .dbSwap vns logicDb1 logicDb2

/-- The retired number that a retirement key names. -/
def MetaKey.deadVidOf : MetaKey → Option Nat
  | .gcDeadNs _ oldVns => some oldVns
  | .gcDeadDb _ _ oldVdb => some oldVdb
  | _ => none

/-- An entry of the log under a DbMeta key: a value, or the tombstone of a deleted key. -/
inductive LogEntry
  | put (record : DbMetaRecord)
  | tombstone (key : MetaKey)
  deriving DecidableEq, Repr

def LogEntry.key : LogEntry → MetaKey
  | .put record => record.key
  | .tombstone key => key

@[simp]
lemma LogEntry.key_put (record : DbMetaRecord) : (LogEntry.put record).key = record.key := rfl

@[simp]
lemma LogEntry.key_tombstone (key : MetaKey) : (LogEntry.tombstone key).key = key := rfl

/-- The DbMeta records in the log, the one with the highest address first. -/
abbrev MetaLog := List LogEntry

/-- The record a key lookup reads. -/
def MetaLog.read (log : MetaLog) (k : MetaKey) : Option DbMetaRecord :=
  match Journal.lookup LogEntry.key log k with
  | some (.put record) => some record
  | _ => none

/-- Writes a batch record by record. `places` says of each record whether the store finds the
current record still mutable and updates it in place. -/
def MetaLog.persist : List Bool → MetaLog → List DbMetaRecord → MetaLog
  | _, log, [] => log
  | places, log, record :: batch =>
    persist places.tail (Journal.upsert LogEntry.key (places.headD false) log (.put record)) batch

/-- `probe_ns_mapping`: the 0x01 record of a namespace. -/
def MetaLog.probeNs (log : MetaLog) (logicNs : Nat) : Option Nat :=
  match log.read (.nsMap logicNs) with
  | some (.nsMap _ vns) => some vns
  | _ => none

/-- `probe_db_mapping`: the 0x02 record of a database. -/
def MetaLog.probeDb (log : MetaLog) (vns logicDb : Nat) : Option Nat :=
  match log.read (.dbMap vns logicDb) with
  | some (.dbMap _ _ vdb) => some vdb
  | _ => none

lemma MetaLog.probeNs_of_read {log : MetaLog} {ns vns : Nat}
    (h : log.read (.nsMap ns) = some (.nsMap ns vns)) : log.probeNs ns = some vns := by
  rw [probeNs, h]

lemma MetaLog.probeDb_of_read {log : MetaLog} {vns db vdb : Nat}
    (h : log.read (.dbMap vns db) = some (.dbMap vns db vdb)) : log.probeDb vns db = some vdb := by
  rw [probeDb, h]

end Wedb.Vdb
