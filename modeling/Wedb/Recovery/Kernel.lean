import Wedb.Index.Table

/-!
# The recovery kernel

After a crash the log is scanned once, in ascending address order, over the fuzzy index snapshot of
the checkpoint. Records of the checkpoint's window, at or above the replay start, are put back into
the index, except those that carry the new-version flag: they belong to the next version, their
slot is rewound and they are sealed after the scan.
-/

namespace Wedb

open HashBucketEntry

/-- A log record as the scan delivers it. -/
structure LogRecord where
  addr : Nat
  prev : Nat
  key : List UInt8
  value : List UInt8
  tombstone : Bool
  inNewVersion : Bool
  isSealed : Bool
  deriving DecidableEq, Repr

namespace Recovery

/-- `RecoveryScanStats` -/
structure Stats where
  visited : Nat
  undone : Nat
  replayed : Nat
  deriving DecidableEq, Repr

/-- One call of the visitor: address, key, value and tombstone flag. -/
structure Visit where
  addr : Nat
  key : List UInt8
  value : List UInt8
  tombstone : Bool
  deriving DecidableEq, Repr

/-- What the scan loop carries from record to record. -/
structure ScanState where
  index : HashIndex
  stats : Stats
  undoSeals : List Nat
  visits : List Visit

/-- The addresses of one recovery: the log `[begin, tail)` and the start of the replay window. The
order is what recovery checks before it runs the kernel; addresses of the main log keep the
read-cache bit clear. -/
structure Bounds where
  beginAddress : Nat
  indexStart : Nat
  tail : Nat
  begin_le : beginAddress ≤ indexStart
  start_le : indexStart ≤ tail
  tail_le : tail ≤ 2 ^ 47

lemma Bounds.lt_addressSpace {bd : Bounds} {a : Nat} (h : a < bd.tail) : a < addressSpace := by
  have := bd.tail_le
  simp only [addressSpace]
  omega

/-- `sanitize_data_slot`: what reading a snapshot keeps of a slot. Uncommitted entries, read-cache
pointers and addresses at or above the cut tail become empty. -/
def sanitizeDataSlot (raw : Nat) (tail : Option Nat) : Nat :=
  if raw = 0 ∨ isTentative raw = true ∨ isReadCache raw = true then 0
  else
    match tail with
    | some t => if t ≤ address raw then 0 else raw
    | none => raw

/-- The index that reading a snapshot with the cut tail rebuilds. -/
def readSnapshot (snapshot : HashIndex) (tail : Option Nat) : HashIndex :=
  { snapshot with chains := fun b => (snapshot.chains b).map (sanitizeDataSlot · tail) }

/-- `scan_iter` over a log at rest: its records in `[from, until)`, in address order. -/
def scanIter (log : List LogRecord) (lo hi : Nat) : List LogRecord :=
  log.filter fun r => decide (lo ≤ r.addr) && decide (r.addr < hi)

/-- A record that the undo arm takes. -/
def isUndone (bd : Bounds) (undoNextVersion : Bool) (r : LogRecord) : Bool :=
  undoNextVersion && decide (bd.indexStart ≤ r.addr) && r.inNewVersion

section

variable (hashKey : List UInt8 → Nat) (bd : Bounds)

/-- The undo arm for one record: seal it later and, when its predecessor lies below the replay
start, rewind its slot to the predecessor. -/
def undoRecord (st : ScanState) (r : LogRecord) : Except IndexError ScanState :=
  let st := { st with
    stats := { st.stats with undone := st.stats.undone + 1 }
    undoSeals := st.undoSeals ++ [r.addr] }
  if r.prev < bd.indexStart ∧ r.key ≠ [] then
    match st.index.findOrCreateTag (hashKey r.key) bd.beginAddress with
    | .ok (index, hei) =>
      -- a predecessor `0` is a key created in the window: `try_cas` would refuse the address
      if r.prev = 0 then .ok { st with index := (index.trySetInvalid hei).1 }
      else .ok { st with index := (index.tryCas hei r.prev).1 }
    | .error e => .error e
  else .ok st

/-- The replay arm for one record: put it into its slot unless the slot is already ahead of it. -/
def replayRecord (st : ScanState) (r : LogRecord) : Except IndexError ScanState :=
  if bd.indexStart ≤ r.addr ∧ r.key ≠ [] then
    match st.index.findOrCreateTag (hashKey r.key) bd.beginAddress with
    | .ok (index, hei) =>
      if !(hei.isFound && decide (r.addr < hei.address)) then
        .ok { st with
          index := (index.tryCas hei r.addr).1
          stats := { st.stats with replayed := st.stats.replayed + 1 } }
      else .ok { st with index := index }
    | .error e => .error e
  else .ok st

/-- The callback of the scan for one record. -/
def recoverRecord (undoNextVersion : Bool) (st : ScanState) (r : LogRecord) :
    Except IndexError ScanState :=
  let st := { st with stats := { st.stats with visited := st.stats.visited + 1 } }
  if isUndone bd undoNextVersion r then undoRecord hashKey bd st r
  else
    match replayRecord hashKey bd st r with
    | .ok st => .ok { st with visits := st.visits ++ [⟨r.addr, r.key, r.value, r.tombstone⟩] }
    | .error e => .error e

/-- The scan loop; an error of the index stops it. -/
def recoverRecords (undoNextVersion : Bool) : ScanState → List LogRecord →
    Except IndexError ScanState
  | st, [] => .ok st
  | st, r :: rs =>
    match recoverRecord hashKey bd undoNextVersion st r with
    | .ok st => recoverRecords undoNextVersion st rs
    | .error e => .error e

/-- What a finished recovery leaves. -/
structure Outcome where
  index : HashIndex
  log : List LogRecord
  stats : Stats
  undoSeals : List Nat
  visits : List Visit

/-- `try_seal_record`: only a record of a loaded page can be sealed. -/
def trySealRecord (loaded : Nat → Bool) (log : List LogRecord) (addr : Nat) : List LogRecord :=
  log.map fun r => if r.addr = addr ∧ loaded addr then { r with isSealed := true } else r

/-- `run_recovery_kernel`: the scan, then the sealing of the undone records. -/
def runRecoveryKernel (undoNextVersion : Bool) (loaded : Nat → Bool) (log : List LogRecord)
    (index : HashIndex) : Except IndexError Outcome :=
  match recoverRecords hashKey bd undoNextVersion ⟨index, ⟨0, 0, 0⟩, [], []⟩
      (scanIter log bd.beginAddress bd.tail) with
  | .ok st =>
    .ok ⟨st.index, st.undoSeals.foldl (trySealRecord loaded) log, st.stats, st.undoSeals, st.visits⟩
  | .error e => .error e

end

end Recovery

end Wedb
