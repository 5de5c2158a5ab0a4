import Wedb.Vdb.Transactions

/-!
# Handing out virtual numbers

Where virtual numbers come from over the whole life of a store: contexts, whose batch may be left
unwritten, FLUSHDB, FLUSHNS, SWAPDB and FLUSHALL, records mirrored from a primary, retirement records
that are done with, compaction and restarts. A data record carries the numbers of its namespace and
database in its key. `grantNs` and `grantDb` count how often a number has been handed out, and a data
record remembers the counts at the time it was written.
-/

namespace Wedb.Numbers

open Vdb

structure DataRecord where
  vns : Nat
  vdb : Nat
  grantNs : Nat
  grantDb : Nat
  deriving DecidableEq, Repr

structure State where
  mem : VirtualDbManager
  log : MetaLog
  data : List DataRecord
  grantNs : Nat → Nat
  grantDb : Nat → Nat

def State.init : State := ⟨.new, [], [], fun _ => 0, fun _ => 0⟩

inductive Action
  /-- `written` records of the batch reach the log, the rest is dropped with a warning -/
  | setContext (ns db written : Nat) (places : List Bool)
  | resolveNs (ns written : Nat) (places : List Bool)
  | resolveDb (ns db written : Nat) (places : List Bool)
  | flushDb (ns db : Nat) (expiredAt : Int) (tailAddress : Nat) (places : List Bool)
  | flushNs (ns : Nat) (expiredAt : Int) (tailAddress : Nat) (places : List Bool)
  | swapDb (ns db1 db2 : Nat) (places : List Bool)
  /-- `metas` DbMeta records and `datas` data records lie above the sampled tail -/
  | flushAll (metas datas : Nat)
  | applyRecord (record : DbMetaRecord) (place : Bool)
  /-- a retirement record is done with, here or on the primary -/
  | applyTombstone (key : MetaKey) (place : Bool)
  /-- the routing table of an idle namespace is dropped -/
  | evict (vns : Nat)
  | copy (key : MetaKey)
  /-- the log is cut below its newest `metas` DbMeta records -/
  | truncate (metas : Nat)
  /-- a data record is cut off or judged dead -/
  | dropData (i : Nat)
  | write (vns vdb : Nat)
  | restart
  deriving DecidableEq, Repr

/-- A change whose first `written` records reach the log; the numbers it draws are handed out. -/
def State.commit (s : State) (change : Change) (written : Nat) (places : List Bool) : State :=
  let drawn x := decide (s.mem.nextVirtualId ≤ x ∧ x < change.mem.nextVirtualId)
  { s with
    mem := change.mem
    log := s.log.persist places (change.batch.take written)
    grantNs := fun x => if drawn x then s.grantNs x + 1 else s.grantNs x
    grantDb := fun x => if drawn x then s.grantDb x + 1 else s.grantDb x }

/-- `reset` hands the numbers of the root out again, unless they are still where they were. -/
def State.reset (s : State) : State :=
  { s with
    mem := s.mem.reset
    grantNs := fun x =>
      if x = rootVirtualId ∧ s.mem.nsMap 0 ≠ some rootVirtualId then s.grantNs x + 1
      else s.grantNs x
    grantDb := fun x =>
      if x = rootVirtualId ∧ s.mem.mapping 0 0 ≠ some (rootVirtualId, rootVirtualId) then
        s.grantDb x + 1
      else s.grantDb x }

/-- `apply_dbmeta_record`. A pair record of a retired namespace is passed over. -/
def State.applyRecord (s : State) (record : DbMetaRecord) (place : Bool) : State :=
  let (vid, m) := s.mem.applyRecord record
  let m := if 0 < vid then m.bumpWatermark (vid + 1) else m
  let log := Journal.upsert LogEntry.key place s.log (.put record)
  match record with
  | .nsMap .. => { s with mem := m.bumpGeneration, log }
  | .dbMap vns db vdb =>
    let m := if vns ≠ rootVirtualId then m.insertDbMapping vns db vdb else m
    { s with mem := m.bumpGeneration, log }
  | .dbSwap vns db1 db2 vdb1 vdb2 =>
    if vns ≠ rootVirtualId ∧ m.isDeadNs vns then { s with mem := m } else
      let m :=
        if vns ≠ rootVirtualId then
          (m.insertDbMapping vns db1 vdb1).insertDbMapping vns db2 vdb2
        else m
      { s with mem := m.bumpGeneration, log }
  | _ => { s with mem := m, log }

/-- `apply_dbmeta_tombstone`. -/
def State.applyTombstone (s : State) (key : MetaKey) (place : Bool) : Option State :=
  let log := Journal.upsert LogEntry.key place s.log (.tombstone key)
  match key with
  | .gcDeadNs _ vns =>
    let m := s.mem.gcDeadRemove vns
    some { s with mem := { m with dbRouting := Function.update m.dbRouting vns fun _ => none }, log }
  | .gcDeadDb _ _ vdb => some { s with mem := s.mem.gcDeadRemove vdb, log }
  | _ => none

def step (s : State) : Action → Option State
  | .setContext ns db written places => some (s.commit (s.mem.setContext ns db) written places)
  | .resolveNs ns written places => some (s.commit (s.mem.resolveNs s.log ns) written places)
  | .resolveDb ns db written places => do
    let vns ← s.mem.nsMap ns
    some (s.commit (s.mem.resolveDb s.log ns vns db) written places)
  | .flushDb ns db expiredAt tailAddress places =>
    if (s.mem.nsMap ns).isSome then
      let change := s.mem.flushDatabase ns db expiredAt tailAddress
      some (s.commit change change.batch.length places)
    else none
  | .flushNs ns expiredAt tailAddress places =>
    if (s.mem.nsMap ns).isSome then
      let change := s.mem.flushNamespace ns expiredAt tailAddress
      some (s.commit change change.batch.length places)
    else none
  | .swapDb ns db1 db2 places => do
    let vns ← s.mem.nsMap ns
    if db1 ≠ db2 ∧ (s.mem.dbRouting vns db1).isSome ∧ (s.mem.dbRouting vns db2).isSome then
      let change := s.mem.swapDatabases vns db1 db2
      some (s.commit change change.batch.length places)
    else none
  | .flushAll metas datas =>
    -- the watermark is written behind the sampled tail before everything below it is cut off
    some { s.reset with
      log := .put (.nextId s.mem.nextVirtualId) :: s.log.take metas
      data := s.data.take datas }
  | .applyRecord record place => some (s.applyRecord record place)
  | .applyTombstone key place => s.applyTombstone key place
  | .evict vns =>
    if vns ≠ rootVirtualId then
      some { s with
        mem := { s.mem with dbRouting := Function.update s.mem.dbRouting vns fun _ => none } }
    else none
  | .copy key => do
    let record ← s.log.read key
    some { s with log := .put record :: s.log }
  | .truncate metas =>
    -- compaction has copied what is current
    if (s.log.drop metas).all fun e =>
        (s.log.read e.key).isNone || (Journal.lookup LogEntry.key (s.log.take metas) e.key).isSome
    then some { s with log := s.log.take metas }
    else none
  | .dropData i => some { s with data := s.data.eraseIdx i }
  | .write vns vdb =>
    if vns < s.mem.nextVirtualId ∧ vdb < s.mem.nextVirtualId then
      some { s with data := ⟨vns, vdb, s.grantNs vns, s.grantDb vdb⟩ :: s.data }
    else none
  | .restart => some { s with mem := VirtualDbManager.rebuild s.log }

/-- No number has been handed out again since a data record in the log was written under it. -/
def NoReuse (s : State) : Prop :=
  ∀ r ∈ s.data, r.grantNs = s.grantNs r.vns ∧ r.grantDb = s.grantDb r.vdb

end Wedb.Numbers
