import Wedb.Vdb.MetaRecord

/-!
# The virtual database manager

The mapping from logical namespaces and databases to virtual ones in memory, the ledger of retired
numbers, and the operations that change them. Maps are functions into `Option`; a routing table
that was never created reads as an empty one. Here every operation runs alone; what their atomic
steps do when they interleave is the subject of other modules.
-/

namespace Wedb.Vdb

open Function (update)

/-- A retirement: of a database when `vns` is the namespace it belonged to, of a namespace when
`vns` is `none`. -/
structure GcDeadEntry where
  expiredAt : Int
  tailAddress : Nat
  vns : Option Nat
  deriving DecidableEq, Repr

structure VirtualDbManager where
  nsMap : Nat → Option Nat
  activeVns : Nat → Option Nat
  dbRouting : Nat → Nat → Option Nat
  nextVirtualId : Nat
  generation : Nat
  gcDead : Nat → Option GcDeadEntry

namespace VirtualDbManager

def new : VirtualDbManager where
  nsMap := update (fun _ => none) 0 (some rootVirtualId)
  activeVns := update (fun _ => none) rootVirtualId (some 0)
  dbRouting := update (fun _ _ => none) rootVirtualId (update (fun _ => none) 0 (some rootVirtualId))
  nextVirtualId := 1
  generation := 1
  gcDead := fun _ => none

/-- Back to the initial mapping; the allocation watermark stays where it is. -/
def reset (m : VirtualDbManager) : VirtualDbManager :=
  { new with nextVirtualId := m.nextVirtualId, generation := m.generation + 1 }

def bumpGeneration (m : VirtualDbManager) : VirtualDbManager :=
  { m with generation := m.generation + 1 }

def bumpWatermark (m : VirtualDbManager) (minNext : Nat) : VirtualDbManager :=
  { m with nextVirtualId := max m.nextVirtualId minNext }

/-- `insert_ns_mapping`: the namespace it pointed to before is no longer active. -/
def insertNsMapping (m : VirtualDbManager) (logicNs vns : Nat) : VirtualDbManager :=
  let active :=
    match m.nsMap logicNs with
    | some oldVns => if oldVns ≠ vns then update m.activeVns oldVns none else m.activeVns
    | none => m.activeVns
  { m with
    nsMap := update m.nsMap logicNs (some vns)
    activeVns := update active vns (some logicNs) }

/-- `insert_db_mapping`: sets one cell of a routing table. -/
def insertDbMapping (m : VirtualDbManager) (vns logicDb vdb : Nat) : VirtualDbManager :=
  { m with dbRouting := update m.dbRouting vns (update (m.dbRouting vns) logicDb (some vdb)) }

/-- Takes a cell out of a routing table. -/
def removeDbMapping (m : VirtualDbManager) (vns logicDb : Nat) : VirtualDbManager :=
  { m with dbRouting := update m.dbRouting vns (update (m.dbRouting vns) logicDb none) }

def gcDeadInsert (m : VirtualDbManager) (vid : Nat) (entry : GcDeadEntry) : VirtualDbManager :=
  { m with gcDead := update m.gcDead vid (some entry) }

/-- The ledger entry of a number is withdrawn (`cancel`) or done with (`remove`). -/
def gcDeadRemove (m : VirtualDbManager) (vid : Nat) : VirtualDbManager :=
  { m with gcDead := update m.gcDead vid none }

def isDeadNs (m : VirtualDbManager) (vns : Nat) : Bool :=
  (m.gcDead vns).any fun entry => entry.vns.isNone

def isDeadDomain (m : VirtualDbManager) (vns vdb : Nat) : Bool :=
  (m.gcDead vdb).any (fun entry => entry.vns.isSome) || m.isDeadNs vns

/-- `get_or_create_ns`: the virtual namespace and whether it was created. -/
def getOrCreateNs (m : VirtualDbManager) (logicNs : Nat) : (Nat × Bool) × VirtualDbManager :=
  match m.nsMap logicNs with
  | some vns => ((vns, false), m)
  | none =>
    ((m.nextVirtualId, true),
      { m with
        nextVirtualId := m.nextVirtualId + 1
        nsMap := update m.nsMap logicNs (some m.nextVirtualId)
        activeVns := update m.activeVns m.nextVirtualId (some logicNs) })

/-- `get_or_create_db_for_vns`: the virtual database and whether it was created. -/
def getOrCreateDbForVns (m : VirtualDbManager) (vns logicDb : Nat) :
    (Nat × Bool) × VirtualDbManager :=
  match m.dbRouting vns logicDb with
  | some vdb => ((vdb, false), m)
  | none =>
    ((m.nextVirtualId, true),
      { m with nextVirtualId := m.nextVirtualId + 1 }.insertDbMapping vns logicDb m.nextVirtualId)

/-- `swap_db`: a fresh number for a database; returns the namespace, the new number and the number
the cell held before, if any. -/
def swapDb (m : VirtualDbManager) (logicNs logicDb : Nat) :
    (Nat × Nat × Option Nat) × VirtualDbManager :=
  let ((vns, _), m) := m.getOrCreateNs logicNs
  let newVdb := m.nextVirtualId
  ((vns, newVdb, m.dbRouting vns logicDb),
    ({ m with nextVirtualId := newVdb + 1 }.insertDbMapping vns logicDb newVdb).bumpGeneration)

def flushDb (m : VirtualDbManager) (logicNs logicDb : Nat) (expiredAt : Int) (tailAddress : Nat) :
    (Nat × Nat × Option Nat) × VirtualDbManager :=
  let ((vns, newVdb, oldVdb), m) := m.swapDb logicNs logicDb
  ((vns, newVdb, oldVdb),
    match oldVdb with
    | some vdb => m.gcDeadInsert vdb ⟨expiredAt, tailAddress, some vns⟩
    | none => m)

/-- `swap_ns`: a fresh number for a namespace; returns it and the number it replaces, if any. -/
def swapNs (m : VirtualDbManager) (logicNs : Nat) : (Nat × Option Nat) × VirtualDbManager :=
  let newVns := m.nextVirtualId
  let active :=
    match m.nsMap logicNs with
    | some oldVns => update m.activeVns oldVns none
    | none => m.activeVns
  ((newVns, m.nsMap logicNs),
    { m with
      nextVirtualId := newVns + 1
      nsMap := update m.nsMap logicNs (some newVns)
      activeVns := update active newVns (some logicNs)
      generation := m.generation + 1 })

def flushNs (m : VirtualDbManager) (logicNs : Nat) (expiredAt : Int) (tailAddress : Nat) :
    (Nat × Option Nat) × VirtualDbManager :=
  let ((newVns, oldVns), m) := m.swapNs logicNs
  ((newVns, oldVns),
    match oldVns with
    | some vns => m.gcDeadInsert vns ⟨expiredAt, tailAddress, none⟩
    | none => m)

/-- The cells of two databases are exchanged. -/
def swapCells (m : VirtualDbManager) (vns logicDb1 logicDb2 : Nat) : (Nat × Nat) × VirtualDbManager :=
  let vdb1 := (m.dbRouting vns logicDb1).getD rootVirtualId
  let vdb2 := (m.dbRouting vns logicDb2).getD rootVirtualId
  ((vdb1, vdb2),
    ((m.insertDbMapping vns logicDb1 vdb2).insertDbMapping vns logicDb2 vdb1).bumpGeneration)

def rollbackFlushDb (m : VirtualDbManager) (vns logicDb : Nat) (oldVdb : Option Nat) :
    VirtualDbManager :=
  match oldVdb with
  | some vdb => ((m.insertDbMapping vns logicDb vdb).gcDeadRemove vdb).bumpGeneration
  | none => (m.removeDbMapping vns logicDb).bumpGeneration

def rollbackFlushNs (m : VirtualDbManager) (logicNs newVns : Nat) (oldVns : Option Nat) :
    VirtualDbManager :=
  let active := update m.activeVns newVns none
  let routing := update m.dbRouting newVns fun _ => none
  match oldVns with
  | some vns =>
    ({ m with
      nsMap := update m.nsMap logicNs (some vns)
      activeVns := update active vns (some logicNs)
      dbRouting := routing }.gcDeadRemove vns).bumpGeneration
  | none =>
    { m with
      nsMap := update m.nsMap logicNs none
      activeVns := active
      dbRouting := routing }.bumpGeneration

def rollbackSwap (m : VirtualDbManager) (vns logicDb1 logicDb2 finalVdb1 finalVdb2 : Nat) :
    VirtualDbManager :=
  ((m.insertDbMapping vns logicDb1 finalVdb1).insertDbMapping vns logicDb2 finalVdb2).bumpGeneration

/-- The virtual pair that memory has for a logical database. -/
def mapping (m : VirtualDbManager) (logicNs logicDb : Nat) : Option (Nat × Nat) := do
  let vns ← m.nsMap logicNs
  let vdb ← m.dbRouting vns logicDb
  some (vns, vdb)

/-! ### Reading the changed fields -/

section Fields

variable (m : VirtualDbManager) (vid vns ns db vdb : Nat) (entry : GcDeadEntry)

@[simp]
lemma bumpGeneration_dbRouting : m.bumpGeneration.dbRouting = m.dbRouting := rfl

@[simp]
lemma bumpGeneration_gcDead : m.bumpGeneration.gcDead = m.gcDead := rfl

@[simp]
lemma bumpGeneration_nextVirtualId : m.bumpGeneration.nextVirtualId = m.nextVirtualId := rfl

@[simp]
lemma gcDeadInsert_gcDead : (m.gcDeadInsert vid entry).gcDead = update m.gcDead vid (some entry) :=
  rfl

@[simp]
lemma gcDeadRemove_gcDead : (m.gcDeadRemove vid).gcDead = update m.gcDead vid none := rfl

@[simp]
lemma insertNsMapping_nsMap : (m.insertNsMapping ns vns).nsMap = update m.nsMap ns (some vns) := rfl

@[simp]
lemma insertDbMapping_gcDead : (m.insertDbMapping vns db vdb).gcDead = m.gcDead := rfl

@[simp]
lemma insertDbMapping_dbRouting (vns' db' : Nat) :
    (m.insertDbMapping vns db vdb).dbRouting vns' db' =
      if vns' = vns ∧ db' = db then some vdb else m.dbRouting vns' db' := by
  by_cases hv : vns' = vns
  · by_cases hd : db' = db <;> simp [insertDbMapping, hv, hd]
  · simp [insertDbMapping, hv]

end Fields

end VirtualDbManager

end Wedb.Vdb
