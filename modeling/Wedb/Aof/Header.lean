import Wedb.Lib.LittleEndian
import Wedb.Lib.ByteBits

/-!
# Headers of the append-only file

An entry begins with one of six headers (`waof::aof::header`). All of them begin with the basic one;
in a topology of several sublogs a sequence number follows, markers of transactions add the replay
tasks they are for, and the frames of a record that has been cut add the lengths of its parts.
-/

namespace Wedb.Aof

open List LittleEndian

inductive AofEntryType where
  | storeUpsert
  | storeRMW
  | storeDelete
  | objectStoreUpsert
  | objectStoreRMW
  | objectStoreDelete
  | txnStart
  | txnCommit
  | txnAbort
  | checkpointStartCommit
  | checkpointEndCommit
  | storedProcedure
  | flushAll
  | flushDb
  | flushNs
  | unifiedStoreStringUpsert
  | unifiedStoreObjectUpsert
  | unifiedStoreRMW
  | unifiedStoreDelete
  | rangeIndexStreamChunk
deriving DecidableEq, Repr

namespace AofEntryType

def asU8 : AofEntryType → UInt8
  | storeUpsert => 0x00
  | storeRMW => 0x01
  | storeDelete => 0x02
  | objectStoreUpsert => 0x10
  | objectStoreRMW => 0x11
  | objectStoreDelete => 0x12
  | txnStart => 0x20
  | txnCommit => 0x21
  | txnAbort => 0x22
  | checkpointStartCommit => 0x30
  | checkpointEndCommit => 0x32
  | storedProcedure => 0x50
  | flushAll => 0x60
  | flushDb => 0x61
  | flushNs => 0x62
  | unifiedStoreStringUpsert => 0x70
  | unifiedStoreObjectUpsert => 0x71
  | unifiedStoreRMW => 0x72
  | unifiedStoreDelete => 0x73
  | rangeIndexStreamChunk => 0x80

def all : List AofEntryType :=
  [storeUpsert, storeRMW, storeDelete, objectStoreUpsert, objectStoreRMW, objectStoreDelete,
    txnStart, txnCommit, txnAbort, checkpointStartCommit, checkpointEndCommit, storedProcedure,
    flushAll, flushDb, flushNs, unifiedStoreStringUpsert, unifiedStoreObjectUpsert,
    unifiedStoreRMW, unifiedStoreDelete, rangeIndexStreamChunk]

/-- `from_repr`. -/
def tryFrom (val : UInt8) : Option AofEntryType := all.find? fun op => op.asU8 = val

def hasKey : AofEntryType → Bool
  | storeUpsert | storeRMW | storeDelete | objectStoreUpsert | objectStoreRMW | objectStoreDelete
  | unifiedStoreStringUpsert | unifiedStoreObjectUpsert | unifiedStoreRMW | unifiedStoreDelete
  | rangeIndexStreamChunk => true
  | _ => false

def hasChunkValue : AofEntryType → Bool
  | storeUpsert | objectStoreUpsert | unifiedStoreStringUpsert | unifiedStoreObjectUpsert => true
  | _ => false

def hasChunkInput : AofEntryType → Bool
  | storeUpsert | storeRMW | objectStoreRMW | unifiedStoreStringUpsert | unifiedStoreRMW => true
  | _ => false

def hasChunkObjectValue : AofEntryType → Bool
  | objectStoreUpsert | unifiedStoreObjectUpsert => true
  | _ => false

@[simp] lemma tryFrom_asU8 (op : AofEntryType) : tryFrom op.asU8 = some op := by
  cases op <;> decide

end AofEntryType

inductive AofHeaderType where
  | basicHeader
  | shardedHeader
  | singleLogTransactionHeader
  | shardedLogTransactionHeader
  | basicChunkHeader
  | shardedChunkHeader
deriving DecidableEq, Repr

namespace AofHeaderType

def asU8 : AofHeaderType → UInt8
  | basicHeader => 0
  | shardedHeader => 1
  | singleLogTransactionHeader => 2
  | shardedLogTransactionHeader => 3
  | basicChunkHeader => 4
  | shardedChunkHeader => 5

def fromRepr (val : UInt8) : Option AofHeaderType :=
  if val = 0 then some basicHeader
  else if val = 1 then some shardedHeader
  else if val = 2 then some singleLogTransactionHeader
  else if val = 3 then some shardedLogTransactionHeader
  else if val = 4 then some basicChunkHeader
  else if val = 5 then some shardedChunkHeader
  else none

end AofHeaderType

/-! ### Words -/

def i64Bytes (x : Int64) : List UInt8 := encode 8 x.toUInt64.toNat

def i32Bytes (x : Int32) : List UInt8 := encode 4 x.toUInt32.toNat

def i16Bytes (x : Int16) : List UInt8 := encode 2 x.toUInt16.toNat

def u32Bytes (x : UInt32) : List UInt8 := encode 4 x.toNat

def u64Bytes (x : UInt64) : List UInt8 := encode 8 x.toNat

/-- The bytes of a field. -/
def field (entry : List UInt8) (offset width : Nat) : List UInt8 := (entry.drop offset).take width

def readI64 (bytes : List UInt8) : Int64 := (UInt64.ofNat (decode bytes)).toInt64

def readI32 (bytes : List UInt8) : Int32 := (UInt32.ofNat (decode bytes)).toInt32

def readI16 (bytes : List UInt8) : Int16 := (UInt16.ofNat (decode bytes)).toInt16

def readU32 (bytes : List UInt8) : UInt32 := UInt32.ofNat (decode bytes)

def readU64 (bytes : List UInt8) : UInt64 := UInt64.ofNat (decode bytes)

@[simp] lemma length_i64Bytes (x : Int64) : (i64Bytes x).length = 8 := length_encode _ _

@[simp] lemma length_i32Bytes (x : Int32) : (i32Bytes x).length = 4 := length_encode _ _

@[simp] lemma length_i16Bytes (x : Int16) : (i16Bytes x).length = 2 := length_encode _ _

@[simp] lemma length_u32Bytes (x : UInt32) : (u32Bytes x).length = 4 :=
  length_encode _ _

@[simp] lemma length_u64Bytes (x : UInt64) : (u64Bytes x).length = 8 :=
  length_encode _ _

@[simp] lemma readU32_u32Bytes (x : UInt32) : readU32 (u32Bytes x) = x := by
  rw [readU32, u32Bytes, decode_encode_of_lt x.toNat_lt, UInt32.ofNat_toNat]

@[simp] lemma readU64_u64Bytes (x : UInt64) : readU64 (u64Bytes x) = x := by
  rw [readU64, u64Bytes, decode_encode_of_lt x.toNat_lt, UInt64.ofNat_toNat]

@[simp] lemma readI64_i64Bytes (x : Int64) : readI64 (i64Bytes x) = x := by
  rw [readI64, i64Bytes, decode_encode_of_lt x.toUInt64.toNat_lt, UInt64.ofNat_toNat,
    Int64.toInt64_toUInt64]

@[simp] lemma readI32_i32Bytes (x : Int32) : readI32 (i32Bytes x) = x := by
  rw [readI32, i32Bytes, decode_encode_of_lt x.toUInt32.toNat_lt, UInt32.ofNat_toNat,
    Int32.toInt32_toUInt32]

@[simp] lemma readI16_i16Bytes (x : Int16) : readI16 (i16Bytes x) = x := by
  rw [readI16, i16Bytes, decode_encode_of_lt x.toUInt16.toNat_lt, UInt16.ofNat_toNat,
    Int16.toInt16_toUInt16]

variable {before : List UInt8}

/-- A field is found behind whatever has its offset as its length. -/
lemma field_append {word after : List UInt8} {offset width : Nat}
    (hoffset : before.length = offset) (hwidth : word.length = width) :
    field (before ++ (word ++ after)) offset width = word := by
  rw [field, drop_left' hoffset, take_left' hwidth]

lemma field_zero {word after : List UInt8} {width : Nat} (hwidth : word.length = width) :
    field (word ++ after) 0 width = word := by
  rw [field, drop_zero, take_left' hwidth]

/-- A field behind the first word is a field of what follows it. -/
lemma field_after {n : Nat} (h : before.length = n) (rest : List UInt8)
    (offset width : Nat) :
    field (before ++ rest) (n + offset) width = field rest offset width := by
  rw [field, field, ← drop_drop, drop_left' h]

/-! ### The basic header -/

structure AofHeader where
  aofHeaderVersion : UInt8
  flags : UInt8
  opType : UInt8
  procedureId : UInt8
  databaseId : UInt8
  storeVersion : Int64
  sessionId : Int32
deriving DecidableEq

namespace AofHeader

def totalSize : Nat := 16

def aofFormatVersion : UInt8 := 0x80

def aofHeaderTypeMask : UInt8 := 0b0111

def chunkedRecordFlag : UInt8 := 0b0100

def unsafeTruncateLogFlag : UInt8 := 0b1000

def new : AofHeader := ⟨aofFormatVersion, 0, 0, 0, 0, 0, 0⟩

def headerType (h : AofHeader) : Option AofHeaderType :=
  AofHeaderType.fromRepr (h.flags &&& aofHeaderTypeMask)

def setHeaderType (h : AofHeader) (value : AofHeaderType) : AofHeader :=
  { h with flags := (h.flags &&& ~~~aofHeaderTypeMask) ||| value.asU8 }

def isChunked (h : AofHeader) : Bool := h.flags &&& chunkedRecordFlag ≠ 0

/-- The two ids share a byte. -/
def unionByte (h : AofHeader) : UInt8 := if h.procedureId ≠ 0 then h.procedureId else h.databaseId

def toBytes (h : AofHeader) : List UInt8 :=
  [h.aofHeaderVersion, h.flags, h.opType, h.unionByte] ++
    (i64Bytes h.storeVersion ++ i32Bytes h.sessionId)

def parse (entry : List UInt8) : Option AofHeader :=
  if entry.length < totalSize then none
  else some {
    aofHeaderVersion := entry.getD 0 0
    flags := entry.getD 1 0
    opType := entry.getD 2 0
    procedureId := entry.getD 3 0
    databaseId := entry.getD 3 0
    storeVersion := readI64 (field entry 4 8)
    sessionId := readI32 (field entry 12 4) }

section

variable (h : AofHeader)
include h

@[simp] lemma length_toBytes : h.toBytes.length = totalSize := by
  simp [toBytes, totalSize]

/-- What is read back of a header: the shared byte stands in both of its places. -/
def readBack (h : AofHeader) : AofHeader :=
  { h with procedureId := h.unionByte, databaseId := h.unionByte }

@[simp] lemma headerType_readBack : h.readBack.headerType = h.headerType := rfl

@[simp] lemma isChunked_readBack : h.readBack.isChunked = h.isChunked := rfl

@[simp] lemma opType_readBack : h.readBack.opType = h.opType := rfl

@[simp] lemma storeVersion_readBack : h.readBack.storeVersion = h.storeVersion :=
  rfl

@[simp] lemma sessionId_readBack : h.readBack.sessionId = h.sessionId := rfl

@[simp] lemma parse_toBytes_append (rest : List UInt8) :
    parse (h.toBytes ++ rest) = some h.readBack := by
  have hlen : ¬ (h.toBytes ++ rest).length < totalSize := by simp
  have hversion : field (h.toBytes ++ rest) 4 8 = i64Bytes h.storeVersion := by
    rw [toBytes, append_assoc]
    exact field_append rfl (length_i64Bytes _)
  have hsession : field (h.toBytes ++ rest) 12 4 = i32Bytes h.sessionId := by
    rw [toBytes, ← append_assoc, append_assoc]
    exact field_append (by simp) (length_i32Bytes _)
  rw [parse, if_neg hlen, hversion, hsession, readI64_i64Bytes, readI32_i32Bytes]
  rfl

end

/-- What a header is, for the flags the log writes. -/
lemma headerType_setHeaderType {h : AofHeader}
    (hflags : h.flags = 0 ∨ h.flags = unsafeTruncateLogFlag) (value : AofHeaderType) :
    (h.setHeaderType value).headerType = some value := by
  simp only [setHeaderType, headerType]
  rcases hflags with hflags | hflags <;> rw [hflags] <;> cases value <;> decide

lemma isChunked_setHeaderType {h : AofHeader}
    (hflags : h.flags = 0 ∨ h.flags = unsafeTruncateLogFlag) (value : AofHeaderType) :
    (h.setHeaderType value).isChunked = true ↔
      value = .basicChunkHeader ∨ value = .shardedChunkHeader := by
  rw [isChunked, decide_eq_true_iff, setHeaderType]
  dsimp only
  rcases hflags with hflags | hflags <;> rw [hflags] <;> cases value <;> decide

end AofHeader

/-! ### The other headers -/

structure AofShardedHeader where
  basic : AofHeader
  sequenceNumber : Int64

namespace AofShardedHeader

def totalSize : Nat := AofHeader.totalSize + 8

def toBytes (h : AofShardedHeader) : List UInt8 := h.basic.toBytes ++ i64Bytes h.sequenceNumber

def parse (entry : List UInt8) : Option AofShardedHeader :=
  if entry.length < totalSize then none
  else do
    let basic ← AofHeader.parse entry
    return ⟨basic, readI64 (field entry 16 8)⟩

end AofShardedHeader

def replayTaskAccessVectorBytes : Nat := 32

/-- A bit for each replay task. -/
structure AccessVector where
  bytes : List UInt8
  sized : bytes.length = replayTaskAccessVectorBytes

namespace AccessVector

def zero : AccessVector := ⟨replicate replayTaskAccessVectorBytes 0, length_replicate⟩

def full : AccessVector := ⟨replicate replayTaskAccessVectorBytes 0xFF, length_replicate⟩

/-- `bit_is_set`. -/
def bitIsSet (vector : AccessVector) (idx : Nat) : Bool :=
  idx / 8 < replayTaskAccessVectorBytes && ByteBits.isSet vector.bytes idx

end AccessVector

/-- What follows the first header of a marker. -/
structure TxnTail where
  participantCount : Int16
  replayTaskAccessVector : AccessVector

namespace TxnTail

def size : Nat := 2 + replayTaskAccessVectorBytes

def toBytes (t : TxnTail) : List UInt8 :=
  i16Bytes t.participantCount ++ t.replayTaskAccessVector.bytes

/-- `parse_txn_tail`. -/
def parse (entry : List UInt8) (prefixSize : Nat) : Option TxnTail :=
  if h : (field entry (prefixSize + 2) replayTaskAccessVectorBytes).length =
      replayTaskAccessVectorBytes then
    some ⟨readI16 (field entry prefixSize 2), ⟨_, h⟩⟩
  else none

end TxnTail

structure AofSingleLogTransactionHeader where
  basic : AofHeader
  tail : TxnTail

namespace AofSingleLogTransactionHeader

def totalSize : Nat := AofHeader.totalSize + TxnTail.size

def toBytes (h : AofSingleLogTransactionHeader) : List UInt8 := h.basic.toBytes ++ h.tail.toBytes

def parse (entry : List UInt8) : Option AofSingleLogTransactionHeader :=
  if entry.length < totalSize then none
  else do
    let basic ← AofHeader.parse entry
    let tail ← TxnTail.parse entry AofHeader.totalSize
    return ⟨basic, tail⟩

end AofSingleLogTransactionHeader

structure AofShardedLogTransactionHeader where
  sharded : AofShardedHeader
  tail : TxnTail

namespace AofShardedLogTransactionHeader

def totalSize : Nat := AofShardedHeader.totalSize + TxnTail.size

def toBytes (h : AofShardedLogTransactionHeader) : List UInt8 := h.sharded.toBytes ++ h.tail.toBytes

def parse (entry : List UInt8) : Option AofShardedLogTransactionHeader :=
  if entry.length < totalSize then none
  else do
    let sharded ← AofShardedHeader.parse entry
    let tail ← TxnTail.parse entry AofShardedHeader.totalSize
    return ⟨sharded, tail⟩

end AofShardedLogTransactionHeader

structure AofChunkHeader where
  overflowKeyLength : UInt32
  overflowValueLength : UInt32
  inputLength : UInt32
  objectId : UInt64
  keyHash : Int64
deriving DecidableEq

namespace AofChunkHeader

def totalSize : Nat := 28

def toBytes (h : AofChunkHeader) : List UInt8 :=
  u32Bytes h.overflowKeyLength ++ (u32Bytes h.overflowValueLength ++ (u32Bytes h.inputLength ++
    (u64Bytes h.objectId ++ i64Bytes h.keyHash)))

def parse (entry : List UInt8) : Option AofChunkHeader :=
  if entry.length < totalSize then none
  else some {
    overflowKeyLength := readU32 (field entry 0 4)
    overflowValueLength := readU32 (field entry 4 4)
    inputLength := readU32 (field entry 8 4)
    objectId := readU64 (field entry 12 8)
    keyHash := readI64 (field entry 20 8) }

end AofChunkHeader

namespace AofHeaderType

def totalSize : AofHeaderType → Nat
  | basicHeader => AofHeader.totalSize
  | shardedHeader => AofShardedHeader.totalSize
  | singleLogTransactionHeader => AofSingleLogTransactionHeader.totalSize
  | shardedLogTransactionHeader => AofShardedLogTransactionHeader.totalSize
  | basicChunkHeader => AofHeader.totalSize + AofChunkHeader.totalSize
  | shardedChunkHeader => AofShardedHeader.totalSize + AofChunkHeader.totalSize

end AofHeaderType

namespace AofHeader

/-- Where the payload of an entry begins. -/
def skipHeader (entry : List UInt8) : Option Nat := do
  let header ← parse entry
  let headerType ← header.headerType
  return headerType.totalSize

/-- The number an entry carries, or the address given for those that carry none. -/
def sequenceNumberOf (entry : List UInt8) (fallback : Int64) : Option Int64 := do
  let header ← parse entry
  match ← header.headerType with
  | .shardedHeader | .shardedChunkHeader | .shardedLogTransactionHeader =>
    (AofShardedHeader.parse entry).map AofShardedHeader.sequenceNumber
  | _ => some fallback

def getChunkedHeaderRef (entry : List UInt8) : Option (Nat × AofChunkHeader) := do
  let header ← parse entry
  let offset ← match ← header.headerType with
    | .basicChunkHeader => some totalSize
    | .shardedChunkHeader => some AofShardedHeader.totalSize
    | _ => none
  if entry.length < offset + AofChunkHeader.totalSize then none
  else
    let chunk ← AofChunkHeader.parse (entry.drop offset)
    return (offset, chunk)

end AofHeader

/-! ### What is written comes back -/

section RoundTrip

lemma AofShardedHeader.parse_toBytes_append (h : AofShardedHeader) (rest : List UInt8) :
    parse (h.toBytes ++ rest) = some ⟨h.basic.readBack, h.sequenceNumber⟩ := by
  have hlen : ¬ (h.toBytes ++ rest).length < totalSize := by simp [toBytes, totalSize]
  have hnumber : field (h.toBytes ++ rest) 16 8 = i64Bytes h.sequenceNumber := by
    rw [toBytes, append_assoc]
    exact field_append (AofHeader.length_toBytes _) (length_i64Bytes _)
  have hbasic := AofHeader.parse_toBytes_append h.basic (i64Bytes h.sequenceNumber ++ rest)
  rw [← append_assoc] at hbasic
  rw [parse, hnumber, readI64_i64Bytes, toBytes, hbasic]
  rfl

@[simp] lemma AofShardedHeader.length_toBytes (h : AofShardedHeader) :
    h.toBytes.length = totalSize := by
  simp [toBytes, totalSize]

@[simp] lemma TxnTail.length_toBytes (t : TxnTail) : t.toBytes.length = size := by
  simp [toBytes, size, t.replayTaskAccessVector.sized]

lemma TxnTail.parse_toBytes (t : TxnTail) {rest : List UInt8} {prefixSize : Nat}
    (h : before.length = prefixSize) :
    parse (before ++ (t.toBytes ++ rest)) prefixSize = some t := by
  have hcount : field (before ++ (t.toBytes ++ rest)) prefixSize 2 =
      i16Bytes t.participantCount := by
    exact field_append h (length_i16Bytes _)
  have hvector : field (before ++ (t.toBytes ++ rest)) (prefixSize + 2)
      replayTaskAccessVectorBytes = t.replayTaskAccessVector.bytes := by
    rw [toBytes, append_assoc, ← append_assoc]
    exact field_append (by simp [h]) t.replayTaskAccessVector.sized
  unfold parse
  simp only [hvector, hcount, readI16_i16Bytes, t.replayTaskAccessVector.sized, dite_true]

@[simp] lemma AofChunkHeader.length_toBytes (h : AofChunkHeader) :
    h.toBytes.length = totalSize := by
  simp [toBytes, totalSize]

lemma AofChunkHeader.parse_toBytes_append (h : AofChunkHeader) (rest : List UInt8) :
    parse (h.toBytes ++ rest) = some h := by
  have hlen : ¬ (h.toBytes ++ rest).length < totalSize := by simp
  -- skip the words in front one after the other
  have hskip₁ := field_after (length_u32Bytes h.overflowKeyLength)
    (u32Bytes h.overflowValueLength ++ (u32Bytes h.inputLength ++
      (u64Bytes h.objectId ++ (i64Bytes h.keyHash ++ rest))))
  have hskip₂ := field_after (length_u32Bytes h.overflowValueLength)
    (u32Bytes h.inputLength ++ (u64Bytes h.objectId ++ (i64Bytes h.keyHash ++ rest)))
  have hskip₃ := field_after (length_u32Bytes h.inputLength)
    (u64Bytes h.objectId ++ (i64Bytes h.keyHash ++ rest))
  have hskip₄ := field_after (length_u64Bytes h.objectId) (i64Bytes h.keyHash ++ rest)
  have hvalue := (hskip₁ 0 4).trans (field_zero (length_u32Bytes _))
  have hinput := (hskip₁ 4 4).trans ((hskip₂ 0 4).trans (field_zero (length_u32Bytes _)))
  have hid := (hskip₁ 8 8).trans ((hskip₂ 4 8).trans
    ((hskip₃ 0 8).trans (field_zero (length_u64Bytes _))))
  have hhash := (hskip₁ 16 8).trans ((hskip₂ 12 8).trans
    ((hskip₃ 8 8).trans ((hskip₄ 0 8).trans (field_zero (length_i64Bytes _)))))
  rw [parse, if_neg hlen, toBytes]
  simp only [append_assoc]
  rw [field_zero (length_u32Bytes _), hvalue, hinput, hid, hhash]
  simp

lemma AofSingleLogTransactionHeader.parse_toBytes_append (h : AofSingleLogTransactionHeader)
    (rest : List UInt8) :
    parse (h.toBytes ++ rest) = some ⟨h.basic.readBack, h.tail⟩ := by
  have hlen : ¬ (h.toBytes ++ rest).length < totalSize := by simp [toBytes, totalSize]
  rw [parse, if_neg hlen, toBytes, append_assoc, AofHeader.parse_toBytes_append,
    TxnTail.parse_toBytes h.tail (AofHeader.length_toBytes _)]
  rfl

lemma AofShardedLogTransactionHeader.parse_toBytes_append (h : AofShardedLogTransactionHeader)
    (rest : List UInt8) :
    parse (h.toBytes ++ rest) =
      some ⟨⟨h.sharded.basic.readBack, h.sharded.sequenceNumber⟩, h.tail⟩ := by
  have hlen : ¬ (h.toBytes ++ rest).length < totalSize := by simp [toBytes, totalSize]
  rw [parse, if_neg hlen, toBytes, append_assoc, AofShardedHeader.parse_toBytes_append,
    TxnTail.parse_toBytes h.tail (AofShardedHeader.length_toBytes _)]
  rfl

end RoundTrip

/-! ### What an entry with a given header says -/

section Entry

variable {h : AofHeader} {headerType : AofHeaderType}

lemma AofHeader.skipHeader_append (htype : h.headerType = some headerType) (rest : List UInt8) :
    skipHeader (h.toBytes ++ rest) = some headerType.totalSize := by
  simp [skipHeader, htype]

lemma AofHeader.sequenceNumberOf_append
    (htype : h.headerType = some .basicHeader ∨ h.headerType = some .basicChunkHeader ∨
      h.headerType = some .singleLogTransactionHeader)
    (rest : List UInt8) (fallback : Int64) :
    sequenceNumberOf (h.toBytes ++ rest) fallback = some fallback := by
  rcases htype with htype | htype | htype <;> simp [sequenceNumberOf, htype]

lemma AofHeader.sequenceNumberOf_sharded {h : AofShardedHeader}
    (htype : h.basic.headerType = some .shardedHeader ∨
      h.basic.headerType = some .shardedChunkHeader ∨
      h.basic.headerType = some .shardedLogTransactionHeader)
    (rest : List UInt8) (fallback : Int64) :
    sequenceNumberOf (h.toBytes ++ rest) fallback = some h.sequenceNumber := by
  have hparse := AofShardedHeader.parse_toBytes_append h rest
  rw [AofShardedHeader.toBytes, append_assoc] at hparse ⊢
  rcases htype with htype | htype | htype <;> simp [sequenceNumberOf, htype, hparse]

lemma AofHeader.getChunkedHeaderRef_sharded {h : AofShardedHeader}
    (htype : h.basic.headerType = some .shardedChunkHeader) (chunk : AofChunkHeader)
    (data : List UInt8) :
    getChunkedHeaderRef (h.toBytes ++ (chunk.toBytes ++ data)) =
      some (AofShardedHeader.totalSize, chunk) := by
  have hparse : parse (h.toBytes ++ (chunk.toBytes ++ data)) = some h.basic.readBack := by
    rw [AofShardedHeader.toBytes, append_assoc, parse_toBytes_append]
  simp [getChunkedHeaderRef, hparse, htype, AofChunkHeader.parse_toBytes_append]

end Entry

end Wedb.Aof
