import Wedb.Aof.Log

/-!
# Putting a record together again

The frames of a record that has been cut carry the number of its group and the lengths of its parts,
but not where one part ends and the next begins: the reader fills the parts in order, each up to its
length (`wnode::aof::aof_chunked_record_reader`). Groups in progress are kept apart by their number,
and the numbers of the last groups that were finished are remembered.
-/

namespace Wedb.Aof

inductive Component where
  | key
  | value
  | input
deriving DecidableEq, Repr

/-- A record in the making. -/
structure ChunkedAccumulator where
  opType : AofEntryType
  headerType : AofHeaderType
  sessionId : Int32
  storeVersion : Int64
  sequenceNumber : Int64
  keyHash : Int64
  key : List UInt8
  value : List UInt8
  valueChunks : List (List UInt8)
  input : List UInt8
  currentComponent : Component
  isComplete : Bool
  overflowKeyLength : Nat
  overflowValueLength : Nat
  inputLength : Nat
  valueBytesLen : Nat
  hasValue : Bool
  hasInput : Bool
  isObjectValue : Bool

namespace ChunkedAccumulator

def firstComponent (acc : ChunkedAccumulator) : Component :=
  if acc.overflowKeyLength > 0 then .key else if acc.hasValue then .value else .input

def new (opType : AofEntryType) (chunkHeader : AofChunkHeader) : ChunkedAccumulator :=
  let acc : ChunkedAccumulator := {
    opType := opType
    headerType := .basicHeader
    sessionId := 0
    storeVersion := 0
    sequenceNumber := 0
    keyHash := chunkHeader.keyHash
    key := []
    value := []
    valueChunks := []
    input := []
    currentComponent := .key
    isComplete := false
    overflowKeyLength := chunkHeader.overflowKeyLength.toNat
    overflowValueLength := chunkHeader.overflowValueLength.toNat
    inputLength := chunkHeader.inputLength.toNat
    valueBytesLen := 0
    hasValue := opType.hasChunkValue
    hasInput := opType.hasChunkInput
    isObjectValue := opType.hasChunkObjectValue }
  { acc with currentComponent := acc.firstComponent }

/-- `object_value_bytes`, and for a value that is no object the value itself. -/
def valueBytes (acc : ChunkedAccumulator) : List UInt8 :=
  if acc.isObjectValue then acc.valueChunks.flatten else acc.value

def valueLen (acc : ChunkedAccumulator) : Nat :=
  if acc.isObjectValue then acc.valueBytesLen else acc.value.length

def verify (acc : ChunkedAccumulator) : Except String Unit :=
  let keyLen := acc.key.length
  let keyHeader := acc.overflowKeyLength
  let actual := acc.valueLen
  let valueHeader := acc.overflowValueLength
  let inputLen := acc.input.length
  let inputHeader := acc.inputLength
  if keyLen ≠ keyHeader then
    .error s!"Chunked key length mismatch: read {keyLen}, header {keyHeader}"
  else if acc.hasValue ∧ actual ≠ valueHeader then
    .error s!"Chunked value length mismatch: read {actual}, header {valueHeader}"
  else if acc.hasInput ∧ inputLen ≠ inputHeader then
    .error s!"Chunked input length mismatch: read {inputLen}, header {inputHeader}"
  else .ok ()

/-- The next part there is; without one the record is marked as complete. -/
def nextComponent (acc : ChunkedAccumulator) : Bool × ChunkedAccumulator :=
  if acc.currentComponent = .key ∧ acc.hasValue then
    (true, { acc with currentComponent := .value })
  else if acc.currentComponent ≠ .input ∧ acc.hasInput then
    (true, { acc with currentComponent := .input })
  else (false, { acc with isComplete := true })

def allComponentsFilled (acc : ChunkedAccumulator) : Bool :=
  acc.key.length = acc.overflowKeyLength &&
    (!acc.hasValue || acc.valueLen = acc.overflowValueLength) &&
      (!acc.hasInput || acc.input.length = acc.inputLength)

/-- The length of the part that is being filled. -/
def capacity (acc : ChunkedAccumulator) : Nat :=
  match acc.currentComponent with
  | .key => acc.overflowKeyLength
  | .value => acc.overflowValueLength
  | .input => acc.inputLength

/-- How much of it there is. -/
def filled (acc : ChunkedAccumulator) : Nat :=
  match acc.currentComponent with
  | .key => acc.key.length
  | .value => acc.valueLen
  | .input => acc.input.length

/-- More of it. An object's value is kept as a list of pieces. -/
def push (acc : ChunkedAccumulator) (data : List UInt8) : ChunkedAccumulator :=
  match acc.currentComponent with
  | .key => { acc with key := acc.key ++ data }
  | .value =>
    if acc.isObjectValue then
      { acc with
        valueChunks := acc.valueChunks ++ [data]
        valueBytesLen := acc.valueBytesLen + data.length }
    else { acc with value := acc.value ++ data }
  | .input => { acc with input := acc.input ++ data }

/-- The parts from here on, for the loop below to end. -/
def rank (acc : ChunkedAccumulator) : Nat :=
  match acc.currentComponent with
  | .key => 2
  | .value => 1
  | .input => 0

lemma rank_nextComponent {acc acc' : ChunkedAccumulator} (h : acc.nextComponent = (true, acc')) :
    acc'.rank < acc.rank := by
  unfold nextComponent at h
  split at h
  · next hkey =>
    obtain ⟨-, rfl⟩ := Prod.mk.inj h
    simp [rank, hkey.1]
  · split at h
    · next hinput =>
      obtain ⟨-, rfl⟩ := Prod.mk.inj h
      cases hcomponent : acc.currentComponent <;> simp_all [rank]
    · simp at h

/-- Bytes go to the part being filled, and when it is full to the next. -/
def feed (acc : ChunkedAccumulator) (data : List UInt8) : Bool × ChunkedAccumulator :=
  if _hdata : data = [] then (true, acc)
  else
    let remaining := acc.capacity - acc.filled
    if _hroom : remaining = 0 then
      match _hnext : acc.nextComponent with
      | (true, acc') => feed acc' data
      | (false, acc') => (false, acc')
    else
      let take := min remaining data.length
      let stored := acc.push (data.take take)
      if stored.filled ≥ stored.capacity ∧ data.drop take ≠ [] then
        match stored.nextComponent with
        | (true, acc') => feed acc' (data.drop take)
        | (false, acc') => (false, acc')
      else feed stored (data.drop take)
  termination_by (data.length, acc.rank)
  decreasing_by
    · exact Prod.Lex.right _ (rank_nextComponent _hnext)
    all_goals
      refine Prod.Lex.left _ _ ?_
      have := List.length_pos_iff.2 _hdata
      simp only [List.length_drop]
      omega

end ChunkedAccumulator

inductive AofChunkReadError where
  | duplicateChunk (objectId : UInt64)
  | segmentOutOfBounds (entryLen required : Nat)
  | componentOverflow (objectId : UInt64) (component : Component)
  | verifyMismatch (objectId : UInt64) (reason : String)

/-- The ids that are remembered as finished are those of the queue. -/
structure AofChunkedRecordReader where
  inProgress : UInt64 → Option ChunkedAccumulator
  completedOrder : List UInt64

namespace AofChunkedRecordReader

def new : AofChunkedRecordReader := ⟨fun _ => none, []⟩

def maxCompletedIds : Nat := 4096

def setInProgress (reader : AofChunkedRecordReader) (objectId : UInt64)
    (acc : Option ChunkedAccumulator) : AofChunkedRecordReader :=
  { reader with inProgress := Function.update reader.inProgress objectId acc }

def recordCompleted (reader : AofChunkedRecordReader) (objectId : UInt64) :
    AofChunkedRecordReader :=
  if reader.completedOrder.contains objectId then reader
  else
    let completedOrder := reader.completedOrder ++ [objectId]
    { reader with completedOrder :=
        if completedOrder.length > maxCompletedIds then completedOrder.tail else completedOrder }

/-- What the first frame of a group starts with. -/
def firstChunk (entry : List UInt8) (header : AofHeader) (chunkHeader : AofChunkHeader) :
    Except AofChunkReadError ChunkedAccumulator :=
  let opCode := header.opType
  match AofEntryType.tryFrom header.opType with
  | none => .error (.verifyMismatch chunkHeader.objectId s!"Unknown op_type {opCode}")
  | some opType =>
    let acc := ChunkedAccumulator.new opType chunkHeader
    if header.headerType = some .shardedChunkHeader then
      match AofShardedHeader.parse entry with
      | some sharded => .ok { acc with
          headerType := .shardedHeader
          sessionId := sharded.basic.sessionId
          storeVersion := sharded.basic.storeVersion
          sequenceNumber := sharded.sequenceNumber }
      | none => .ok acc
    else .ok { acc with sessionId := header.sessionId, storeVersion := header.storeVersion }

/-- A frame added to the record of its group. -/
def addChunk (reader : AofChunkedRecordReader) (chunkHeader : AofChunkHeader)
    (acc : ChunkedAccumulator) (data : List UInt8) :
    Except AofChunkReadError (Option ChunkedAccumulator) × AofChunkedRecordReader :=
  let objectId := chunkHeader.objectId
  let reader := reader.setInProgress objectId (some acc)
  let keyLen := acc.overflowKeyLength
  let valueLen := acc.overflowValueLength
  let inputLen := acc.inputLength
  let keyGot := chunkHeader.overflowKeyLength.toNat
  let valueGot := chunkHeader.overflowValueLength.toNat
  let inputGot := chunkHeader.inputLength.toNat
  if acc.isComplete then (.error (.duplicateChunk objectId), reader)
  else if keyGot ≠ keyLen ∨ valueGot ≠ valueLen ∨ inputGot ≠ inputLen then
    (.error (.verifyMismatch objectId (s!"分块头声明长度不一致: expected ({keyLen}, {valueLen}, " ++
      s!"{inputLen}), got ({keyGot}, {valueGot}, {inputGot})")), reader)
  else
    match acc.feed data with
    | (false, fed) =>
      (.error (.componentOverflow objectId fed.currentComponent),
        reader.setInProgress objectId (some fed))
    | (true, fed) =>
      if fed.allComponentsFilled then
        match fed.verify with
        | .error reason =>
          (.error (.verifyMismatch objectId reason), reader.setInProgress objectId (some fed))
        | .ok () =>
          (.ok (some { fed with isComplete := true }),
            (reader.setInProgress objectId none).recordCompleted objectId)
      else (.ok none, reader.setInProgress objectId (some fed))

def readChunk (reader : AofChunkedRecordReader) (entry : List UInt8) :
    Except AofChunkReadError (Option ChunkedAccumulator) × AofChunkedRecordReader :=
  match AofHeader.parse entry with
  | none => (.error (.segmentOutOfBounds entry.length AofHeader.totalSize), reader)
  | some header =>
    match AofHeader.getChunkedHeaderRef entry with
    | none =>
      let required := if header.headerType = some .shardedChunkHeader then
          AofShardedHeader.totalSize + AofChunkHeader.totalSize
        else AofHeader.totalSize + AofChunkHeader.totalSize
      (.error (.segmentOutOfBounds entry.length required), reader)
    | some (chunkHeaderOffset, chunkHeader) =>
      let dataOffset := chunkHeaderOffset + AofChunkHeader.totalSize
      if entry.length < dataOffset then
        (.error (.segmentOutOfBounds entry.length dataOffset), reader)
      else if reader.completedOrder.contains chunkHeader.objectId then
        (.error (.duplicateChunk chunkHeader.objectId), reader)
      else
        match reader.inProgress chunkHeader.objectId with
        | some acc => reader.addChunk chunkHeader acc (entry.drop dataOffset)
        | none =>
          match firstChunk entry header chunkHeader with
          | .error e => (.error e, reader)
          | .ok acc => reader.addChunk chunkHeader acc (entry.drop dataOffset)

end AofChunkedRecordReader

end Wedb.Aof
