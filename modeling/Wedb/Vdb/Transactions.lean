import Wedb.Vdb.Rebuild
import Wedb.Lib.Machine

/-!
# Transactions on the mapping

Context creation, FLUSHDB, FLUSHNS and SWAPDB as changes of the manager together with the batch of
DbMeta records they persist, one transaction after the other, and compaction moving records. The
resolution that FLUSHDB, FLUSHNS and SWAPDB start with is a step of its own; they go on where it
has left a mapping.
-/

namespace Wedb.Vdb

open Function (update)

/-- A change of the mapping: memory after it, and the records to persist in their order. -/
structure Change where
  mem : VirtualDbManager
  batch : List DbMetaRecord

namespace VirtualDbManager

/-- `set_context` and the slow path of `virtual_domain`. The database (0, 0) is never persisted. -/
def setContext (m : VirtualDbManager) (ns db : Nat) : Change :=
  let ((vns, newNs), m) := m.getOrCreateNs ns
  let ((vdb, newDb), m) := m.getOrCreateDbForVns vns db
  let nsRecord := if newNs ∧ ns ≠ 0 then [.nsMap ns vns] else []
  let dbRecord := if newDb ∧ (ns ≠ 0 ∨ db ≠ 0) then [.dbMap vns db vdb] else []
  let records := nsRecord ++ dbRecord
  ⟨m, if records.isEmpty then [] else records ++ [.nextId m.nextVirtualId]⟩

/-- `adopt_ns_mapping`: what is there already wins. -/
def adoptNsMapping (m : VirtualDbManager) (ns vns : Nat) : VirtualDbManager :=
  match m.nsMap ns with
  | some _ => m
  | none =>
    { m with
      nsMap := update m.nsMap ns (some vns)
      activeVns := update m.activeVns vns (some ns) }

/-- `adopt_db_mapping`: what is there already wins. -/
def adoptDbMapping (m : VirtualDbManager) (vns db vdb : Nat) : VirtualDbManager :=
  match m.dbRouting vns db with
  | some _ => m
  | none => m.insertDbMapping vns db vdb

/-- `resolve_ns`: an existing mapping is loaded, and only without one a number is drawn. -/
def resolveNs (m : VirtualDbManager) (log : MetaLog) (ns : Nat) : Change :=
  match m.lookupNs log ns with
  | some vns => ⟨m.adoptNsMapping ns vns, []⟩
  | none =>
    let ((vns, _), m) := m.getOrCreateNs ns
    ⟨m, if ns ≠ 0 then [.nsMap ns vns] else []⟩

/-- `resolve_db` in the namespace that `resolve_ns` returned. -/
def resolveDb (m : VirtualDbManager) (log : MetaLog) (ns vns db : Nat) : Change :=
  match m.lookupDb log vns db with
  | some vdb => ⟨m.adoptDbMapping vns db vdb, []⟩
  | none =>
    let ((vdb, _), m) := m.getOrCreateDbForVns vns db
    ⟨m, if ns ≠ 0 ∨ db ≠ 0 then [.dbMap vns db vdb] else []⟩

/-- The batch of `commit_swap`: the new mapping, the retirement if there is one, the watermark. -/
def swapBatch (m : VirtualDbManager) (map : DbMetaRecord) (dead : Option DbMetaRecord) :
    List DbMetaRecord :=
  map :: (dead.toList ++ [.nextId m.nextVirtualId])

/-- `flush_database` under the metadata lock. -/
def flushDatabase (m : VirtualDbManager) (ns db : Nat) (expiredAt : Int) (tailAddress : Nat) :
    Change :=
  let ((vns, newVdb, oldVdb), m) := m.flushDb ns db expiredAt tailAddress
  ⟨m, m.swapBatch (.dbMap vns db newVdb)
    (oldVdb.map fun vdb => .gcDeadDb expiredAt vns vdb tailAddress)⟩

/-- `flush_namespace` under the metadata lock. -/
def flushNamespace (m : VirtualDbManager) (ns : Nat) (expiredAt : Int) (tailAddress : Nat) :
    Change :=
  let ((newVns, oldVns), m) := m.flushNs ns expiredAt tailAddress
  ⟨m, m.swapBatch (.nsMap ns newVns) (oldVns.map fun vns => .gcDeadNs expiredAt vns tailAddress)⟩

/-- `swap_databases` in the namespace it resolved under the metadata lock. -/
def swapDatabases (m : VirtualDbManager) (vns db1 db2 : Nat) : Change :=
  let ((vdb1, vdb2), m) := m.swapCells vns db1 db2
  ⟨m, [.dbSwap vns db1 db2 vdb2 vdb1, .dbMap vns db1 vdb2, .dbMap vns db2 vdb1]⟩

end VirtualDbManager

structure State where
  mem : VirtualDbManager
  log : MetaLog

/-- A new store. -/
def State.init : State := ⟨.new, []⟩

/-- A change with its whole batch persisted. -/
def State.commit (s : State) (change : Change) (places : List Bool) : State :=
  ⟨change.mem, s.log.persist places change.batch⟩

/-- `places` says of each record of the batch whether it is updated in place. -/
inductive Action
  | setContext (ns db : Nat) (places : List Bool)
  | resolveNs (ns : Nat) (places : List Bool)
  | resolveDb (ns db : Nat) (places : List Bool)
  | flushDb (ns db : Nat) (expiredAt : Int) (tailAddress : Nat) (places : List Bool)
  | flushNs (ns : Nat) (expiredAt : Int) (tailAddress : Nat) (places : List Bool)
  | swapDb (ns db1 db2 : Nat) (places : List Bool)
  /-- compaction copies the current record of a key to the tail of the log -/
  | copy (key : MetaKey)
  deriving DecidableEq, Repr

def step (s : State) : Action → Option State
  | .setContext ns db places => some (s.commit (s.mem.setContext ns db) places)
  | .resolveNs ns places => some (s.commit (s.mem.resolveNs s.log ns) places)
  | .resolveDb ns db places => do
    let vns ← s.mem.nsMap ns
    some (s.commit (s.mem.resolveDb s.log ns vns db) places)
  | .flushDb ns db expiredAt tailAddress places =>
    if (s.mem.nsMap ns).isSome then
      some (s.commit (s.mem.flushDatabase ns db expiredAt tailAddress) places)
    else none
  | .flushNs ns expiredAt tailAddress places =>
    if (s.mem.nsMap ns).isSome then
      some (s.commit (s.mem.flushNamespace ns expiredAt tailAddress) places)
    else none
  | .swapDb ns db1 db2 places => do
    let vns ← s.mem.nsMap ns
    if db1 ≠ db2 ∧ (s.mem.dbRouting vns db1).isSome ∧ (s.mem.dbRouting vns db2).isSome then
      some (s.commit (s.mem.swapDatabases vns db1 db2) places)
    else none
  | .copy key => do
    let record ← s.log.read key
    some { s with log := .put record :: s.log }

/-- The mapping a restart obtains is the one in memory; so distinct logical databases have distinct
virtual ones, and none has a retired one. -/
structure Rebuilt (s : State) : Prop where
  restart_eq : ∀ ns db, s.log.restartMapping ns db = s.mem.mapping ns db
  distinct : ∀ ns db ns' db' vns vns' vdb, s.log.restartMapping ns db = some (vns, vdb) →
    s.log.restartMapping ns' db' = some (vns', vdb) → ns = ns' ∧ db = db'
  not_retired : ∀ ns db vns vdb, s.log.restartMapping ns db = some (vns, vdb) →
    s.mem.isDeadDomain vns vdb = false

end Wedb.Vdb
