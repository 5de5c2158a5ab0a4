import Wedb.Aof.Header
import Wedb.Wal.Frame

/-!
# Writing to the append-only file

The log has a number of physical sublogs, and each of them is replayed by a number of tasks. A
record goes to the sublog its key hashes to; one that is too large for a page is cut into frames
that repeat its headers. Markers of transactions go to the sublogs that take part, those for
everybody to all of them (`wnode::aof::garnet_log`).
-/

namespace Wedb.Aof

open List AofHeader

open Wedb.Wal (recordHeaderLen)

/-- What does not change while the log is open. -/
structure GarnetLog where
  physicalSublogCount : Nat
  replayTaskCount : Nat
  logPageSizeBits : Nat
  bufferSize : Nat
  physical_pos : 0 < physicalSublogCount
  physical_le : physicalSublogCount ≤ 64
  replay_pos : 0 < replayTaskCount

/-- What is to be written of one operation. All that is written this way has a key. -/
structure RecordShape where
  opType : AofEntryType
  version : Int64
  sessionId : Int32
  key : List UInt8
  value : List UInt8
  input : List UInt8
  databaseId : UInt8
  keyed : opType.hasKey = true

/-- The sublogs and the tasks a transaction touches. -/
structure SublogAccess where
  physicalVector : Nat
  virtualVectors : List AccessVector
  participantCount : Nat

/-- The sublogs whose bit is set, from the lowest. -/
def SublogAccess.sublogs (access : SublogAccess) : List Nat :=
  (range 64).filter access.physicalVector.testBit

/-- The tasks of one sublog. -/
def SublogAccess.vector (access : SublogAccess) (sublogIdx : Nat) : AccessVector :=
  access.virtualVectors.getD sublogIdx .zero

/-- An entry and the sublog it is in. -/
abbrev Entry := Nat × List UInt8

namespace GarnetLog

variable (hash : List UInt8 → Int64) (log : GarnetLog)

def usingSinglePhysicalLog : Bool := log.physicalSublogCount = 1

def usingSingleLog : Bool := log.physicalSublogCount = 1 && log.replayTaskCount = 1

/-! ### Routing -/

def getPhysicalSublogIdx (hash : Int64) : Nat := hash.toUInt64.toNat % log.physicalSublogCount

def getReplayTaskIdx (hash : Int64) : Nat :=
  hash.toUInt64.toNat / log.physicalSublogCount % log.replayTaskCount

def getVirtualSublogIdx (hash : Int64) : Nat :=
  log.getPhysicalSublogIdx hash * log.replayTaskCount + log.getReplayTaskIdx hash

lemma getPhysicalSublogIdx_lt (hash : Int64) :
    log.getPhysicalSublogIdx hash < log.physicalSublogCount :=
  Nat.mod_lt _ log.physical_pos

lemma getReplayTaskIdx_lt (hash : Int64) : log.getReplayTaskIdx hash < log.replayTaskCount :=
  Nat.mod_lt _ log.replay_pos

/-- The only sublog is the one every key hashes to. -/
lemma getPhysicalSublogIdx_of_single {log : GarnetLog} (h : log.usingSinglePhysicalLog = true)
    (hash : Int64) : log.getPhysicalSublogIdx hash = 0 := by
  have hone : log.physicalSublogCount = 1 := of_decide_eq_true h
  rw [getPhysicalSublogIdx, hone, Nat.mod_one]

/-! ### What the sublog takes -/

/-- `check_record_len`. -/
def checkRecordLen (recordLen : Nat) : Bool :=
  recordLen ≤ (2 ^ 32 - 1) + recordHeaderLen && recordLen ≤ log.bufferSize

def frameLen (frame : List UInt8) : Nat := recordHeaderLen + frame.length

def totalLen (frames : List (List UInt8)) : Nat := (frames.map frameLen).sum

def enqueueFrames (frames : List (List UInt8)) : Option (List (List UInt8)) :=
  if frames.all (fun frame => log.checkRecordLen (frameLen frame)) &&
      log.checkRecordLen (totalLen frames) then some frames
  else none

def enqueueParts (entry : List UInt8) : Option (List UInt8) :=
  if log.checkRecordLen (frameLen entry) then some entry else none

/-! ### Records -/

/-- The basic header of a record. -/
def recordHeader (record : RecordShape) (headerType : AofHeaderType) : AofHeader :=
  { new with
    opType := record.opType.asU8
    storeVersion := record.version
    sessionId := record.sessionId
    databaseId := record.databaseId }.setHeaderType headerType

/-- A sequence number is written where there are several sublogs. -/
def sequencePart (sequenceNumber : Int64) : List UInt8 :=
  if log.usingSinglePhysicalLog then [] else i64Bytes sequenceNumber

/-- What follows the header of a record that has not been cut. -/
def recordBody (record : RecordShape) : List UInt8 :=
  u32Bytes (UInt32.ofNat record.key.length) ++ (record.key ++
    ((if record.opType.hasChunkValue then
        u32Bytes (UInt32.ofNat record.value.length) ++ record.value
      else []) ++ record.input))

def enqueueWithHeader (record : RecordShape) (sequenceNumber : Int64) : Option (List Entry) := do
  let physicalSublogIdx := if log.usingSinglePhysicalLog then 0
    else log.getPhysicalSublogIdx (hash record.key)
  let header := recordHeader record
    (if log.usingSinglePhysicalLog then .basicHeader else .shardedHeader)
  let entry ← log.enqueueParts
    (header.toBytes ++ (log.sequencePart sequenceNumber ++ recordBody record))
  return [(physicalSublogIdx, entry)]

def minPartialAllocSize : Nat := 2 ^ 20

def isChunkable (keyLen valueLen inputSerializedLength : Nat) : Bool :=
  keyLen + valueLen + inputSerializedLength > minPartialAllocSize

def headerSize : Nat :=
  if log.usingSinglePhysicalLog then totalSize else AofShardedHeader.totalSize

/-- How much of a record fits a frame. The subtraction wraps for a page smaller than the headers. -/
def pagePayload : Nat :=
  max ((2 ^ (log.logPageSizeBits % 64) + 2 ^ 64 - log.headerSize - AofChunkHeader.totalSize) % 2 ^ 64)
    1

lemma pagePayload_pos : 0 < log.pagePayload := Nat.le_max_right _ 1

/-- The loop that cuts the parts of a record: the parts left, the frames closed and the one open. -/
def pack (payload : Nat) (hpayload : 0 < payload) :
    List (List UInt8) → List (List UInt8) → List UInt8 → List (List UInt8)
  | [], closed, current => closed ++ [current]
  | [] :: comps, closed, current => pack payload hpayload comps closed current
  | (byte :: comp) :: comps, closed, current =>
    if payload - current.length = 0 then
      -- the frame is full and there is more
      let take := min (comp.length + 1) payload
      pack payload hpayload ((byte :: comp).drop take :: comps) (closed ++ [current])
        ((byte :: comp).take take)
    else
      let take := min (comp.length + 1) (payload - current.length)
      pack payload hpayload ((byte :: comp).drop take :: comps) closed
        (current ++ (byte :: comp).take take)
  termination_by comps => (comps.length, comps.flatten.length)
  decreasing_by
    all_goals simp_wf
    all_goals grind

/-- The frames hold the parts one after the other, and none is opened for nothing: the last is only
empty when it is the one that was open and nothing was left to write. -/
lemma pack_spec {payload : Nat} (hpayload : 0 < payload) (comps closed : List (List UInt8))
    (current : List UInt8) :
    ∃ frames last, pack payload hpayload comps closed current = frames ++ [last] ∧
      (frames ++ [last]).flatten = closed.flatten ++ (current ++ comps.flatten) ∧
      (last = [] → frames = closed ∧ current = []) := by
  induction comps, closed, current using pack.induct payload hpayload with
  | case1 closed current => exact ⟨closed, current, by simp [pack], by simp, by simp⟩
  | case2 closed current comps ih => simpa [pack] using ih
  | case3 byte comp comps closed current hfull take ih =>
    obtain ⟨frames, last, hpack, hflatten, hlast⟩ := ih
    refine ⟨frames, last, by rw [pack, if_pos hfull]; exact hpack, ?_, ?_⟩
    · rw [hflatten]
      simp [← append_assoc]
    · intro hnil
      -- the frame just opened has a byte in it
      have htake := (hlast hnil).2
      simp [take] at htake
      omega
  | case4 byte comp comps closed current hroom take ih =>
    obtain ⟨frames, last, hpack, hflatten, hlast⟩ := ih
    refine ⟨frames, last, by rw [pack, if_neg hroom]; exact hpack, ?_, ?_⟩
    · rw [hflatten, flatten_cons, append_assoc, ← append_assoc (.take take _),
        take_append_drop, flatten_cons]
    · intro hnil
      have htake := (hlast hnil).2
      simp [take] at htake
      omega

/-- Parts that fit a frame together are not cut. -/
lemma pack_of_le {payload : Nat} (hpayload : 0 < payload) {comps : List (List UInt8)}
    (closed : List (List UInt8)) {current : List UInt8}
    (h : current.length + comps.flatten.length ≤ payload) :
    pack payload hpayload comps closed current = closed ++ [current ++ comps.flatten] := by
  induction comps, closed, current using pack.induct payload hpayload with
  | case1 => simp [pack]
  | case2 closed current comps ih => simpa [pack] using ih (by simpa using h)
  | case3 => simp at h; omega
  | case4 byte comp comps closed current hroom take ih =>
    simp only [flatten_cons, length_append, length_cons] at h
    have htake : take = (byte :: comp).length := by simp [take]; omega
    rw [pack, if_neg hroom]
    change pack payload hpayload ((byte :: comp).drop take :: comps) closed
      (current ++ (byte :: comp).take take) = _
    rw [htake, drop_length, take_length] at ih ⊢
    have hle : (current ++ (byte :: comp)).length + ([] :: comps).flatten.length ≤ payload := by
      simp only [length_append, flatten_cons, nil_append]
      omega
    rw [ih hle]
    simp

/-- The parts of a record that are written. -/
def components (record : RecordShape) : List (List UInt8) :=
  [record.key, if record.opType.hasChunkValue then record.value else [],
    if record.opType.hasChunkInput then record.input else []]

def chunkHeader (record : RecordShape) (objectId : UInt64) : AofChunkHeader where
  overflowKeyLength := UInt32.ofNat record.key.length
  overflowValueLength :=
    if record.opType.hasChunkValue then UInt32.ofNat record.value.length else 0
  inputLength := if record.opType.hasChunkInput then UInt32.ofNat record.input.length else 0
  objectId := objectId
  keyHash := hash record.key

/-- A frame of a record that has been cut: all the headers in front of a piece. -/
def chunkFrame (record : RecordShape) (sequenceNumber : Int64) (objectId : UInt64)
    (data : List UInt8) : List UInt8 :=
  (recordHeader record
      (if log.usingSinglePhysicalLog then .basicChunkHeader else .shardedChunkHeader)).toBytes ++
    (log.sequencePart sequenceNumber ++ ((chunkHeader hash record objectId).toBytes ++ data))

def chunkFrames (record : RecordShape) (sequenceNumber : Int64) (objectId : UInt64) :
    List (List UInt8) :=
  (pack log.pagePayload log.pagePayload_pos (components record) [] []).map
    (log.chunkFrame hash record sequenceNumber objectId)

def enqueueSpanChunked (record : RecordShape) (sequenceNumber : Int64) (objectId : UInt64) :
    Option (List Entry) := do
  let physicalSublogIdx := if log.usingSinglePhysicalLog then 0
    else log.getPhysicalSublogIdx (hash record.key)
  let frames ← log.enqueueFrames (log.chunkFrames hash record sequenceNumber objectId)
  return frames.map fun frame => (physicalSublogIdx, frame)

def enqueue (record : RecordShape) (sequenceNumber : Int64) (objectId : UInt64) :
    Option (List Entry) :=
  if isChunkable record.key.length record.value.length record.input.length then
    log.enqueueSpanChunked hash record sequenceNumber objectId
  else log.enqueueWithHeader hash record sequenceNumber

/-! ### Markers -/

/-- The header of a marker. -/
def markerHeader (opType : AofEntryType) (version : Int64) (sessionId : Int32) (procedureId : UInt8)
    (headerType : AofHeaderType) : AofHeader :=
  { new with
    opType := opType.asU8
    procedureId := procedureId
    storeVersion := version
    sessionId := sessionId }.setHeaderType headerType

def enqueueStoredProc (opType : AofEntryType) (version : Int64) (sessionId : Int32)
    (procedureId : UInt8) (body : List UInt8) (access : SublogAccess) (sequenceNumber : Int64) :
    Option (List Entry) :=
  let participants := Int16.ofNat access.participantCount
  if log.usingSingleLog then do
    let header := markerHeader opType version sessionId procedureId .basicHeader
    let entry ← log.enqueueParts (header.toBytes ++ body)
    return [(0, entry)]
  else if log.usingSinglePhysicalLog then do
    let header : AofSingleLogTransactionHeader :=
      ⟨markerHeader opType version sessionId procedureId .singleLogTransactionHeader,
        participants, access.vector 0⟩
    let entry ← log.enqueueParts (header.toBytes ++ body)
    return [(0, entry)]
  else
    access.sublogs.mapM fun sublogIdx => do
      let header : AofShardedLogTransactionHeader :=
        ⟨⟨markerHeader opType version sessionId procedureId .shardedLogTransactionHeader,
          sequenceNumber⟩, participants, access.vector sublogIdx⟩
      let entry ← log.enqueueParts (header.toBytes ++ body)
      return (sublogIdx, entry)

def enqueueTxn (opType : AofEntryType) (version : Int64) (sessionId : Int32)
    (access : SublogAccess) (sequenceNumber : Int64) : Option (List Entry) :=
  log.enqueueStoredProc opType version sessionId 0 [] access sequenceNumber

/-- An entry for every task of every sublog. -/
def enqueueBroadcastEntry (basic : AofHeader) (extra : List UInt8) (sequenceNumber : Int64) :
    Option (List Entry) :=
  let participants := Int16.ofNat (log.physicalSublogCount * log.replayTaskCount)
  if log.usingSingleLog then do
    let entry ← log.enqueueParts (basic.toBytes ++ extra)
    return [(0, entry)]
  else if log.usingSinglePhysicalLog then do
    let header : AofSingleLogTransactionHeader :=
      ⟨basic.setHeaderType .singleLogTransactionHeader, participants, .full⟩
    let entry ← log.enqueueParts (header.toBytes ++ extra)
    return [(0, entry)]
  else
    (range log.physicalSublogCount).mapM fun sublogIdx => do
      let header : AofShardedLogTransactionHeader :=
        ⟨⟨basic.setHeaderType .shardedLogTransactionHeader, sequenceNumber⟩, participants, .full⟩
      let entry ← log.enqueueParts (header.toBytes ++ extra)
      return (sublogIdx, entry)

def enqueueDatabaseCommit (opType : AofEntryType) (version : Int64) (sequenceNumber : Int64) :
    Option (List Entry) :=
  log.enqueueBroadcastEntry (markerHeader opType version (-1) 0 .basicHeader) [] sequenceNumber

def enqueueSafeFlushAof (opType : AofEntryType) (unsafeTruncateLog : Bool) (ns db : UInt64)
    (sequenceNumber : Int64) : Option (List Entry) :=
  let header := markerHeader opType 0 (-1) 0 .basicHeader
  let header := if unsafeTruncateLog then
      { header with flags := header.flags ||| unsafeTruncateLogFlag }
    else header
  log.enqueueBroadcastEntry header (u64Bytes ns ++ u64Bytes db) sequenceNumber

/-! ### What the entries say -/

section Entries

variable {hash log} {record : RecordShape}

@[simp] lemma headerType_recordHeader (record : RecordShape) (headerType : AofHeaderType) :
    (recordHeader record headerType).headerType = some headerType :=
  headerType_setHeaderType (.inl rfl) headerType

@[simp] lemma opType_recordHeader (headerType : AofHeaderType) :
    (recordHeader record headerType).opType = record.opType.asU8 := rfl

@[simp] lemma sessionId_recordHeader (headerType : AofHeaderType) :
    (recordHeader record headerType).sessionId = record.sessionId := rfl

@[simp] lemma storeVersion_recordHeader (headerType : AofHeaderType) :
    (recordHeader record headerType).storeVersion = record.version := rfl

lemma chunkFrame_of_single (h : log.usingSinglePhysicalLog = true) (sequenceNumber : Int64)
    (objectId : UInt64) (data : List UInt8) :
    log.chunkFrame hash record sequenceNumber objectId data =
      (recordHeader record .basicChunkHeader).toBytes ++
        ((chunkHeader hash record objectId).toBytes ++ data) := by
  simp [chunkFrame, sequencePart, h]

lemma chunkFrame_of_sharded (h : log.usingSinglePhysicalLog = false) (sequenceNumber : Int64)
    (objectId : UInt64) (data : List UInt8) :
    log.chunkFrame hash record sequenceNumber objectId data =
      (⟨recordHeader record .shardedChunkHeader, sequenceNumber⟩ : AofShardedHeader).toBytes ++
        ((chunkHeader hash record objectId).toBytes ++ data) := by
  simp [chunkFrame, sequencePart, h, AofShardedHeader.toBytes]

section

variable (sequenceNumber : Int64)
include sequenceNumber

/-- Every frame begins with the headers of its record. -/
lemma parse_chunkFrame (objectId : UInt64) (data : List UInt8) :
    parse (log.chunkFrame hash record sequenceNumber objectId data) =
      some (recordHeader record (if log.usingSinglePhysicalLog then .basicChunkHeader
        else .shardedChunkHeader)).readBack := by
  rw [chunkFrame, parse_toBytes_append]

lemma getChunkedHeaderRef_chunkFrame (objectId : UInt64) (data : List UInt8) :
    getChunkedHeaderRef (log.chunkFrame hash record sequenceNumber objectId data) =
      some (log.headerSize, chunkHeader hash record objectId) := by
  cases h : log.usingSinglePhysicalLog with
  | true =>
    simp [chunkFrame_of_single h, getChunkedHeaderRef, headerType_recordHeader,
      AofChunkHeader.parse_toBytes_append, headerSize, h]
  | false =>
    rw [chunkFrame_of_sharded h, getChunkedHeaderRef_sharded (headerType_recordHeader _ _)]
    simp [headerSize, h]

lemma length_chunkFrame (objectId : UInt64) (data : List UInt8) :
    (log.chunkFrame hash record sequenceNumber objectId data).length =
      log.headerSize + AofChunkHeader.totalSize + data.length := by
  unfold chunkFrame sequencePart headerSize
  split <;> simp [AofShardedHeader.totalSize] <;> omega

lemma drop_chunkFrame (objectId : UInt64) (data : List UInt8) :
    (log.chunkFrame hash record sequenceNumber objectId data).drop
      (log.headerSize + AofChunkHeader.totalSize) = data := by
  rw [← drop_drop]
  cases h : log.usingSinglePhysicalLog with
  | true =>
    have hsize : log.headerSize = totalSize := by simp [headerSize, h]
    rw [chunkFrame_of_single h, hsize, drop_left' (length_toBytes _),
      drop_left' (AofChunkHeader.length_toBytes _)]
  | false =>
    have hsize : log.headerSize = AofShardedHeader.totalSize := by simp [headerSize, h]
    rw [chunkFrame_of_sharded h, hsize, drop_left' (AofShardedHeader.length_toBytes _),
      drop_left' (AofChunkHeader.length_toBytes _)]

end

/-- The length of all frames, with the headers the sublog puts in front of them. -/
lemma totalLen_map_chunkFrame (hash : List UInt8 → Int64) (log : GarnetLog) (record : RecordShape)
    (sequenceNumber : Int64) (objectId : UInt64) (pieces : List (List UInt8)) :
    totalLen (pieces.map (log.chunkFrame hash record sequenceNumber objectId)) =
      pieces.length * (recordHeaderLen + (log.headerSize + AofChunkHeader.totalSize)) +
        pieces.flatten.length := by
  induction pieces with
  | nil => simp [totalLen]
  | cons piece pieces ih =>
    unfold totalLen at ih ⊢
    rw [map_cons, map_cons, sum_cons, frameLen,
      length_chunkFrame, length_cons, flatten_cons, length_append,
      add_mul]
    omega

end Entries

end GarnetLog

end Wedb.Aof
