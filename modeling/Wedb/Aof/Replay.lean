import Wedb.Aof.Chunked
import Wedb.Aof.KeySketch

/-!
# Replaying the append-only file

`process_aof_record_internal` takes the entries of a virtual sublog one by one. What a session wrote
in a transaction is kept back until its commit; between the two markers of a checkpoint commits are
kept back until the end marker, and on a replica so are the entries of the version to come; the rest
goes to the store at once.

The state carries two histories that the code does not have: the entries that have been read, and
what has gone to the store, each operation with the value its key had in the sketch at that moment.
-/

namespace Wedb.Aof

/-- What the replay looks at in a plain entry. Only a log with several sublogs writes a number into
the header. -/
structure ReplayEntry where
  opType : AofEntryType
  sessionId : Int32
  storeVersion : Int64
  sequenceNumber : Option Int64
  keyHash : Int64
  address : Int64

/-- The number of an entry: its own, or else its address. -/
def ReplayEntry.number (entry : ReplayEntry) : Int64 := entry.sequenceNumber.getD entry.address

inductive ReplayOperation where
  | record (entry : ReplayEntry)
  /-- A record that has been put together, with the address of its last frame. -/
  | chunk (acc : ChunkedAccumulator) (address : Int64)

namespace ReplayOperation

def keyHash : ReplayOperation → Int64
  | record entry => entry.keyHash
  | chunk acc _ => acc.keyHash

def number : ReplayOperation → Int64
  | record entry => entry.number
  | chunk acc address => if acc.sequenceNumber ≠ 0 then acc.sequenceNumber else address

end ReplayOperation

structure TransactionGroup where
  sessionId : Int32
  startSequenceNumber : Int64
  operations : List ReplayOperation

inductive AofReplayError where
  | nestedTxnStart
  | storedProcInTxn
  | storedProcedure
  | unknownOperation (opType : AofEntryType)
  | unexpectedChunk (opType : AofEntryType)
deriving DecidableEq

/-- An entry of the log, after frames have been put together. -/
inductive LogRecord where
  | commitFrame
  /-- A frame that completes nothing. -/
  | frame
  | chunk (acc : ChunkedAccumulator) (address : Int64)
  | entry (entry : ReplayEntry)

/-- An operation that has gone to the store, and what the sketch said of its key then. -/
structure Applied where
  operation : ReplayOperation
  sketchValue : Int64

structure ReplayTarget where
  asReplica : Bool
  multiLogEnabled : Bool
  aofFloor : Int64

structure ReplayState where
  activeTxns : Int32 → Option TransactionGroup
  inFuzzyRegion : Bool
  fuzzyRegionOps : List ReplayOperation
  txnGroupBuffer : List TransactionGroup
  storeVersion : Int64
  vsr : VirtualSublogReplayState
  /-- What has ended the replay. -/
  error : Option AofReplayError
  readSoFar : List LogRecord
  applied : List Applied

namespace AofEntryType

def isFlush : AofEntryType → Bool
  | flushAll | flushDb | flushNs => true
  | _ => false

/-- What `replay_chunk` has an arm for. -/
def isChunkOperation : AofEntryType → Bool
  | rangeIndexStreamChunk => false
  | opType => opType.hasKey

end AofEntryType

namespace ReplayState

/-- A replay that is about to begin, over a store of this version. -/
def start (storeVersion : Int64) (vsr : VirtualSublogReplayState) : ReplayState where
  activeTxns := fun _ => none
  inFuzzyRegion := false
  fuzzyRegionOps := []
  txnGroupBuffer := []
  storeVersion := storeVersion
  vsr := vsr
  error := none
  readSoFar := []
  applied := []

variable (target : ReplayTarget) (s : ReplayState)

def operations : List ReplayOperation := s.applied.map Applied.operation

def fail (error : AofReplayError) : ReplayState := { s with error := some error }

/-- The rest of a function that leaves at the first error. -/
def unlessFailed (f : ReplayState → ReplayState) : ReplayState := if s.error.isSome then s else f s

/-- The store carries out an operation. -/
def apply (operation : ReplayOperation) : ReplayState :=
  { s with applied := s.applied ++ [⟨operation, s.vsr.getKeySequenceNumber operation.keyHash⟩] }

def updateVirtualSublogKeySequenceNumber (keyHash sequenceNumber : Int64) : ReplayState :=
  if target.multiLogEnabled then
    { s with
      vsr := (s.vsr.updateMaxSequenceNumber sequenceNumber).updateKeySequenceNumber keyHash
        sequenceNumber }
  else s

/-! ### Operations -/

def prepareKey (entry : ReplayEntry) (logAddressSequenceNumber : Int64) : ReplayState :=
  s.updateVirtualSublogKeySequenceNumber target entry.keyHash
    (entry.sequenceNumber.getD logAddressSequenceNumber)

def replayOp (entry : ReplayEntry) : ReplayState :=
  if entry.opType.hasKey then s.apply (.record entry)
  else if entry.opType = .storedProcedure then s.fail .storedProcedure
  else s.fail (.unknownOperation entry.opType)

def replayChunk (acc : ChunkedAccumulator) (address : Int64) : ReplayState :=
  if acc.opType.isChunkOperation then s.apply (.chunk acc address)
  else s.fail (.unexpectedChunk acc.opType)

/-- An operation that has been kept back, with the number for a key that has none of its own. -/
def replayOperation (fallback : Int64) : ReplayOperation → ReplayState
  | .record entry => (s.prepareKey target entry fallback).replayOp entry
  | .chunk acc address => s.replayChunk acc address

/-! ### Transactions -/

def clearSessionTxn (sessionId : Int32) : ReplayState :=
  { s with activeTxns := Function.update s.activeTxns sessionId none }

def addTransactionGroup (sessionId : Int32) (startSequenceNumber : Int64) : ReplayState :=
  { s with
    activeTxns :=
      Function.update s.activeTxns sessionId (some ⟨sessionId, startSequenceNumber, []⟩) }

/-- An operation of a session whose transaction is open. -/
def pushOperation (sessionId : Int32) (group : TransactionGroup) (operation : ReplayOperation) :
    ReplayState :=
  { s with
    activeTxns := Function.update s.activeTxns sessionId
      (some { group with operations := group.operations ++ [operation] }) }

def processTransactionGroupOperations (group : TransactionGroup) : ReplayState :=
  group.operations.foldl (fun s operation =>
    s.unlessFailed fun s => s.replayOperation target group.startSequenceNumber operation) s

def processTransactionGroup (group : TransactionGroup) : ReplayState :=
  (s.processTransactionGroupOperations target group).clearSessionTxn group.sessionId

/-! ### The fuzzy region -/

def addToFuzzyRegionBuffer (group : TransactionGroup) (commitMarker : ReplayEntry) : ReplayState :=
  { s with
    fuzzyRegionOps := s.fuzzyRegionOps ++ [.record commitMarker]
    txnGroupBuffer := s.txnGroupBuffer ++ [group] }

def addFuzzyRegionOperation (operation : ReplayOperation) : ReplayState :=
  { s with fuzzyRegionOps := s.fuzzyRegionOps ++ [operation] }

def clearFuzzyRegionBuffer : ReplayState := { s with fuzzyRegionOps := [], txnGroupBuffer := [] }

def processFuzzyRegionTransactionGroup : ReplayState :=
  match s.txnGroupBuffer with
  | [] => s
  | group :: rest => { s with txnGroupBuffer := rest }.processTransactionGroup target group

def processFuzzyRegionOperation : ReplayOperation → ReplayState
  | .record entry =>
    if entry.opType = .txnCommit then s.processFuzzyRegionTransactionGroup target
    else s.replayOperation target 0 (.record entry)
  | .chunk acc address => s.replayOperation target 0 (.chunk acc address)

def processFuzzyRegionOperations : ReplayState :=
  s.fuzzyRegionOps.foldl (fun s operation =>
    s.unlessFailed fun s => s.processFuzzyRegionOperation target operation)
    { s with fuzzyRegionOps := [] }

def processCheckpointStartCommit : ReplayState :=
  { (if s.inFuzzyRegion then s.clearFuzzyRegionBuffer else s) with inFuzzyRegion := true }

def processCheckpointEndCommit : ReplayState :=
  if s.inFuzzyRegion then
    ({ s with inFuzzyRegion := false }.processFuzzyRegionOperations target).unlessFailed
      clearFuzzyRegionBuffer
  else s

/-! ### Entries -/

/-- Whether an entry is passed over; on a replica it may be kept for later. -/
def shouldSkipRecord (entry : ReplayEntry) : Bool × ReplayState :=
  if target.asReplica && s.inFuzzyRegion then
    if s.storeVersion < entry.storeVersion then
      (true, s.addFuzzyRegionOperation (.record entry))
    else (false, s)
  else if !target.asReplica && entry.address < target.aofFloor then (true, s)
  else (entry.storeVersion < s.storeVersion, s)

def shouldSkipRecordChunk (acc : ChunkedAccumulator) (address : Int64) : Bool × ReplayState :=
  if target.asReplica && s.inFuzzyRegion then
    if s.storeVersion < acc.storeVersion then
      (true, s.addFuzzyRegionOperation (.chunk acc address))
    else (false, s)
  else (acc.storeVersion < s.storeVersion, s)

def replayOpDispatch (entry : ReplayEntry) : ReplayState :=
  match s.shouldSkipRecord target entry with
  | (true, s') => s'
  | (false, s') => (s'.prepareKey target entry entry.address).replayOp entry

def replayOpDispatchChunk (acc : ChunkedAccumulator) (address : Int64) : ReplayState :=
  let raised := s.updateVirtualSublogKeySequenceNumber target acc.keyHash
    (ReplayOperation.chunk acc address).number
  match raised.shouldSkipRecordChunk target acc address with
  | (true, s') => s'
  | (false, s') => s'.replayChunk acc address

def processChunkedRecord (acc : ChunkedAccumulator) (address : Int64) : ReplayState :=
  match s.activeTxns acc.sessionId with
  | some group => s.pushOperation acc.sessionId group (.chunk acc address)
  | none => s.replayOpDispatchChunk target acc address

/-- An entry of a session whose transaction is open. -/
def processInTransaction (group : TransactionGroup) (entry : ReplayEntry) : ReplayState :=
  match entry.opType with
  | .txnStart => s.fail .nestedTxnStart
  | .txnAbort => s.clearSessionTxn entry.sessionId
  | .txnCommit =>
    if s.inFuzzyRegion then
      (s.clearSessionTxn entry.sessionId).addToFuzzyRegionBuffer group entry
    else (s.clearSessionTxn entry.sessionId).processTransactionGroup target group
  | .storedProcedure => s.fail .storedProcInTxn
  | _ => s.pushOperation entry.sessionId group (.record entry)

/-- An entry of a session that has none. -/
def processAlone (entry : ReplayEntry) : ReplayState :=
  match entry.opType with
  | .txnStart => s.addTransactionGroup entry.sessionId entry.number
  | .txnAbort | .txnCommit => s
  | .checkpointStartCommit => s.processCheckpointStartCommit
  | .checkpointEndCommit => s.processCheckpointEndCommit target
  | .flushAll | .flushDb | .flushNs => s.apply (.record entry)
  | _ => s.replayOpDispatch target entry

def processAofRecordInternal : LogRecord → ReplayState
  | .commitFrame | .frame => s
  | .chunk acc address => s.processChunkedRecord target acc address
  | .entry entry =>
    match s.activeTxns entry.sessionId with
    | some group => s.processInTransaction target group entry
    | none => s.processAlone target entry

end ReplayState

inductive ReplayAction where
  | read (record : LogRecord)
  /-- A replica takes a checkpoint of its own. -/
  | checkpointed (storeVersion : Int64)

namespace ReplayAction

def step (target : ReplayTarget) (s : ReplayState) : ReplayAction → Option ReplayState
  | read record =>
    if s.error.isSome then none
    else some { s.processAofRecordInternal target record with
      readSoFar := s.readSoFar ++ [record] }
  | checkpointed storeVersion =>
    if target.asReplica then some { s with storeVersion := storeVersion } else none

end ReplayAction

/-! ### What the parts of a replay leave alone -/

variable {operations : List ReplayOperation}

namespace ReplayState

variable {target : ReplayTarget} {s s' : ReplayState}

/-- A replay of `operations` from `s` to `s'`: some of them have gone to the store, in order, and all
of them unless the replay has failed; nothing is buffered or forgotten, and the sketch has only
grown. -/
structure Replays (s : ReplayState) (operations : List ReplayOperation) (s' : ReplayState) :
    Prop where
  frame : s' = { s with vsr := s'.vsr, error := s'.error, applied := s'.applied }
  done : ∃ done, s'.operations = s.operations ++ done ∧ done <+: operations ∧
    (s'.error = none → done = operations)
  sketch_le : ∀ hash, s.vsr.getKeySequenceNumber hash ≤ s'.vsr.getKeySequenceNumber hash

lemma Replays.nil (s : ReplayState) : Replays s [] s :=
  ⟨rfl, ⟨[], by simp, List.nil_prefix, fun _ => rfl⟩, fun _ => Int64.le_refl _⟩

lemma operations_apply (operation : ReplayOperation) :
    (s.apply operation).operations = s.operations ++ [operation] := by
  simp [operations, apply]

lemma Replays.apply (operation : ReplayOperation) : Replays s [operation] (s.apply operation) :=
  ⟨rfl, ⟨[operation], operations_apply operation, List.prefix_refl _, fun _ => rfl⟩,
    fun _ => Int64.le_refl _⟩

lemma Replays.fail (error : AofReplayError) (operations : List ReplayOperation) :
    Replays s operations (s.fail error) :=
  ⟨rfl, ⟨[], by simp [ReplayState.fail, ReplayState.operations], List.nil_prefix, nofun⟩,
    fun _ => Int64.le_refl _⟩

lemma Replays.update (keyHash sequenceNumber : Int64)
    (h : Replays (s.updateVirtualSublogKeySequenceNumber target keyHash sequenceNumber)
      operations s') : Replays s operations s' := by
  unfold updateVirtualSublogKeySequenceNumber at h
  split at h
  · refine ⟨h.frame, h.done, fun hash => Int64.le_trans ?_ (h.sketch_le hash)⟩
    exact VirtualSublogReplayState.getKeySequenceNumber_le_update
      (s.vsr.updateMaxSequenceNumber sequenceNumber) keyHash sequenceNumber hash
  · exact h

lemma Replays.replayOp (entry : ReplayEntry) : Replays s [.record entry] (s.replayOp entry) := by
  unfold ReplayState.replayOp
  split
  · exact .apply _
  · split
    · exact .fail _ _
    · exact .fail _ _

lemma Replays.prepared (entry : ReplayEntry) (fallback : Int64) :
    Replays s [.record entry] ((s.prepareKey target entry fallback).replayOp entry) :=
  .update _ _ (.replayOp entry)

lemma Replays.replayChunk (acc : ChunkedAccumulator) (address : Int64) :
    Replays s [.chunk acc address] (s.replayChunk acc address) := by
  unfold ReplayState.replayChunk
  split
  · exact .apply _
  · exact .fail _ _

lemma Replays.replayOperation (fallback : Int64) (operation : ReplayOperation) :
    Replays s [operation] (s.replayOperation target fallback operation) := by
  cases operation with
  | record entry => exact .prepared entry fallback
  | chunk acc address => exact .replayChunk acc address

/-- One more operation. A replay that has failed does nothing any more. -/
lemma Replays.cons {operation : ReplayOperation}
    {s₁ s₂ : ReplayState} (h₁ : Replays s [operation] s₁) (h₂ : Replays s₁ operations s₂)
    (hfailed : s₁.error.isSome → s₂ = s₁) : Replays s (operation :: operations) s₂ := by
  refine ⟨?_, ?_, fun hash => Int64.le_trans (h₁.sketch_le hash) (h₂.sketch_le hash)⟩
  · rw [h₂.frame, h₁.frame]
  · obtain ⟨done₁, heq₁, hpre₁, hall₁⟩ := h₁.done
    obtain ⟨done₂, heq₂, hpre₂, hall₂⟩ := h₂.done
    cases herror : s₁.error with
    | none =>
      obtain rfl := hall₁ herror
      refine ⟨operation :: done₂, ?_, List.prefix_cons_inj operation |>.2 hpre₂, ?_⟩
      · rw [heq₂, heq₁, List.append_assoc, List.singleton_append]
      · exact fun hnone => by rw [hall₂ hnone]
    | some =>
      obtain rfl := hfailed (by rw [herror]; rfl)
      refine ⟨done₁, heq₁, hpre₁.trans ⟨operations, rfl⟩, fun hnone => ?_⟩
      rw [herror] at hnone
      cases hnone

lemma foldl_unlessFailed_of_isSome {f : ReplayState → ReplayOperation → ReplayState}
    (h : s.error.isSome) (operations : List ReplayOperation) :
    operations.foldl (fun s operation => s.unlessFailed fun s => f s operation) s = s := by
  induction operations with
  | nil => rfl
  | cons operation operations ih =>
    rw [List.foldl_cons, unlessFailed, if_pos h]
    exact ih

lemma Replays.foldl (fallback : Int64) (operations : List ReplayOperation) (hok : s.error = none) :
    Replays s operations (operations.foldl (fun s operation =>
      s.unlessFailed fun s => s.replayOperation target fallback operation) s) := by
  induction operations generalizing s with
  | nil => exact .nil s
  | cons operation operations ih =>
    rw [List.foldl_cons]
    have hone : s.unlessFailed (fun s => s.replayOperation target fallback operation) =
        s.replayOperation target fallback operation := by
      rw [unlessFailed, hok]
      rfl
    rw [hone]
    cases herror : (s.replayOperation target fallback operation).error with
    | none => exact (replayOperation fallback operation).cons (ih herror) (by simp [herror])
    | some =>
      rw [foldl_unlessFailed_of_isSome (by rw [herror]; rfl)]
      have hone : Replays s [operation] (s.replayOperation target fallback operation) :=
        .replayOperation fallback operation
      refine ⟨hone.frame, ?_, hone.sketch_le⟩
      obtain ⟨done, heq, hpre, -⟩ := hone.done
      refine ⟨done, heq, hpre.trans ⟨operations, rfl⟩, fun hnone => ?_⟩
      rw [herror] at hnone
      cases hnone

end ReplayState

end Wedb.Aof
