import Wedb.Index.Table
import Wedb.Lib.Links
import Wedb.Lib.Machine

/-!
# Doubling the index

The buckets of the old table are distributed over a table of twice the size. A bucket `b` is split
into the buckets `b` and `b + n`: the head of every chain goes to the half its record hashes to, the
other half gets the first record of its own that is met on the chain, and what is met below the head
address cannot be classified and is shared by both. The work is dealt out in chunks of buckets, each
claimed by one session.
-/

namespace Wedb.Split

open HashBucketEntry HashIndex

/-! ### The log as the split sees it -/

/-- The records of the main log (hash of the key and predecessor link), the predecessor links of
the read cache, and the addresses sampled for the split. -/
structure LogView where
  read : Nat → Option (Nat × Nat)
  rcPrev : Nat → Option Nat
  head : Nat
  beginAddress : Nat

/-- The predecessor of an address of either log. -/
def LogView.next (log : LogView) (a : Nat) : Option Nat :=
  if isReadCache a then log.rcPrev a else (log.read a).map Prod.snd

/-- `skip_read_cache`: the first address of the main log behind read-cache records. The fuel bounds
the number of links; a chain of descending links needs no more than its first address. -/
def skipReadCache (log : LogView) : Nat → Nat → Option Nat
  | 0, _ => none
  | fuel + 1, addr =>
    if isReadCache addr then
      match log.rcPrev addr with
      | some prev => skipReadCache log fuel prev
      | none => none
    else some addr

/-- The record locator of the split: hash and predecessor of the main-log record, when it is in
memory. -/
def recordLocator (log : LogView) (addr : Nat) : Option (Nat × Nat) :=
  let mainAddr := if isReadCache addr then (skipReadCache log (addr + 1) addr).getD 0 else addr
  if log.head ≤ mainAddr then log.read mainAddr else none

/-- The half of the new table a hash belongs to, as the split tests it. -/
def halfOf (bits hash : Nat) : Nat := hash / 2 ^ bits % 2

/-- `trace_back_for_other_chain_start`: the first record of the other half, or the address at which
the chain leaves memory. -/
def traceBack (log : LogView) (bits targetBit : Nat) : Nat → Nat → Option Nat
  | 0, _ => none
  | fuel + 1, curr =>
    let stop := if 0 < curr ∧ log.beginAddress ≤ curr ∧ curr < log.head then some curr else none
    if log.head ≤ curr then
      match recordLocator log curr with
      | some (hash, nextPrev) =>
        let bit := if 2 ^ bits ≤ hash &&& (2 ^ (bits + 1) - 1) then 1 else 0
        if bit = targetBit then some curr else traceBack log bits targetBit fuel nextPrev
      | none => stop
    else stop

/-! ### Splitting a bucket -/

/-- `insert_to_bucket` without contention: the first empty slot of the chain, or the first slot of
a new overflow bucket. The table is returned with an error, too: what was inserted before stays. -/
def insertToBucket (idx : HashIndex) (bucket tag address : Nat) : HashIndex × Option IndexError :=
  if address = 0 then (idx, some (.invalidAddress address))
  else if addressSpace ≤ address then (idx, some (.addressOverflow address))
  else
    let b := bucket &&& idx.mask
    match (idx.chains b).findIdx? (· == 0) with
    | some slot => (idx.setChain b ((idx.chains b).set slot (new address tag false)), none)
    | none =>
      match idx.extend b with
      | .ok idx' =>
        (idx'.setChain b ((idx'.chains b).set (idx.chains b).length (new address tag false)), none)
      | .error e => (idx, some e)

/-- A second insertion after a first one that may have failed. -/
def andThen (r : HashIndex × Option IndexError) (f : HashIndex → HashIndex × Option IndexError) :
    HashIndex × Option IndexError :=
  match r with
  | (idx, none) => f idx
  | (idx, some e) => (idx, some e)

/-- The other half's entry: the first record of that half behind the head of the chain. -/
def insertOther (log : LogView) (bits otherIdx targetBit tag prevAddr : Nat) (idx : HashIndex) :
    HashIndex × Option IndexError :=
  if prevAddr = 0 then (idx, none)
  else
    match traceBack log bits targetBit (prevAddr + 1) prevAddr with
    | some otherAddr => insertToBucket idx otherIdx tag otherAddr
    | none => (idx, none)

/-- One slot of the old bucket. -/
def splitSlot (log : LogView) (old : HashIndex) (bucketIdx raw : Nat) (idx : HashIndex) :
    HashIndex × Option IndexError :=
  let left := bucketIdx &&& old.mask
  let right := left + old.size
  let addr := address raw
  if raw = 0 ∨ isValid raw = false ∨ addr = 0 then (idx, none)
  else if 0 < log.beginAddress ∧ isReadCache raw = false ∧ addr < log.beginAddress then (idx, none)
  else
    match recordLocator log addr with
    | some (hash, prevAddr) =>
      if halfOf old.bits hash = 0 then
        andThen (insertToBucket idx left (tag raw) addr)
          (insertOther log old.bits right 1 (tag raw) prevAddr)
      else
        andThen (insertToBucket idx right (tag raw) addr)
          (insertOther log old.bits left 0 (tag raw) prevAddr)
    | none =>
      -- on disk, or not readable: both halves keep the chain
      andThen (insertToBucket idx left (tag raw) addr) fun idx =>
        insertToBucket idx right (tag raw) addr

/-- The slot loop of `split_single_bucket`. -/
def splitSlots (log : LogView) (old : HashIndex) (bucketIdx : Nat) :
    List Nat → HashIndex → HashIndex × Option IndexError
  | [], idx => (idx, none)
  | raw :: rest, idx =>
    andThen (splitSlot log old bucketIdx raw idx) (splitSlots log old bucketIdx rest)

/-- `split_single_bucket` -/
def splitSingleBucket (log : LogView) (old : HashIndex) (bucketIdx : Nat) (idx : HashIndex) :
    HashIndex × Option IndexError :=
  splitSlots log old bucketIdx (old.chains (bucketIdx &&& old.mask)) idx

/-! ### Chunks -/

/-- Buckets of a chunk (`CHUNK_SIZE`). -/
abbrev chunkBuckets : Nat := 2 ^ 14

/-- `chunk_count` -/
def chunkCount (oldSize : Nat) : Nat :=
  if oldSize / chunkBuckets = 0 then 1 else oldSize / chunkBuckets

/-- The number of buckets `split_chunk` gives to a chunk. -/
def chunkSize (old : HashIndex) : Nat := old.size / chunkCount old.size

/-- The first bucket of a chunk. -/
def chunkStart (old : HashIndex) (chunkIdx : Nat) : Nat :=
  chunkSize old * (chunkIdx &&& (chunkCount old.size - 1))

/-- Where a chunk is: `SPLIT_UNSTARTED`, `SPLIT_IN_PROGRESS` with the next bucket of its loop, or
`SPLIT_COMPLETED`. -/
inductive ChunkStatus where
  | unstarted
  | inProgress (next : Nat)
  | completed
  deriving DecidableEq, Repr

/-- The state of a growing index: the status of each chunk, the number of chunks pending, the new
table, and the buckets split by passes over whole chunks. -/
structure State where
  status : Nat → ChunkStatus
  pending : Nat
  table : HashIndex
  splitBuckets : List Nat

/-- A step of the sessions that take part in the split. -/
inductive Action where
  /-- claim a chunk -/
  | claim (chunkIdx : Nat)
  /-- split the next bucket of a claimed chunk, or finish the chunk -/
  | work (chunkIdx : Nat)
  deriving DecidableEq, Repr

/-- The sessions' steps on the chunks (`split_single_chunk`, called by the driver and by sessions
that help). A failed bucket hands the chunk back; what was inserted stays in the table. -/
def step (log : LogView) (old : HashIndex) (st : State) : Action → Option State
  | .claim c =>
    if c < chunkCount old.size ∧ st.status c = .unstarted then
      some { st with status := Function.update st.status c (.inProgress (chunkStart old c)) }
    else none
  | .work c =>
    match st.status c with
    | .inProgress b =>
      if b < chunkStart old c + chunkSize old then
        match splitSingleBucket log old b st.table with
        | (table, none) =>
          some { st with table, status := Function.update st.status c (.inProgress (b + 1)) }
        | (table, some _) =>
          some { st with table, status := Function.update st.status c .unstarted }
      else
        some { st with
          status := Function.update st.status c .completed
          pending := st.pending - 1
          splitBuckets := st.splitBuckets ++ List.range' (chunkStart old c) (chunkSize old) }
    | _ => none

/-- The start: no chunk is claimed and the new table is empty, with twice as many buckets. -/
def start (old : HashIndex) (pool : Nat) : State where
  status := fun _ => .unstarted
  pending := chunkCount old.size
  table := ⟨old.bits + 1, fun _ => List.replicate dataEntries 0, pool⟩
  splitBuckets := []

end Wedb.Split
