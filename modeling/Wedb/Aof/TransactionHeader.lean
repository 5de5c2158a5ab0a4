import Wedb.Aof.Header

/-!
# Headers of transactions and their readers

The marker that opens a transaction is written with one of two headers. Its count of participants is
read in two places: `add_or_replay_transaction_operation` keeps it with the group it opens, and
`get_synchronized_operation_params` takes it for the barrier. The first tries one layout and then the
other, the second looks at the type of the header.
-/

namespace Wedb.Aof

open LittleEndian AofHeader

/-- A header of either layout. -/
inductive TransactionHeader where
  | singleLog (h : AofSingleLogTransactionHeader)
  | shardedLog (h : AofShardedLogTransactionHeader)

namespace TransactionHeader

def basic : TransactionHeader → AofHeader
  | singleLog h => h.basic
  | shardedLog h => h.sharded.basic

def tail : TransactionHeader → TxnTail
  | singleLog h | shardedLog h => h.tail

def headerType : TransactionHeader → AofHeaderType
  | singleLog _ => .singleLogTransactionHeader
  | shardedLog _ => .shardedLogTransactionHeader

def toBytes : TransactionHeader → List UInt8
  | singleLog h | shardedLog h => h.toBytes

/-- The number of the entry: an entry of the only log is numbered by its address. -/
def sequenceNumber : TransactionHeader → Int64 → Int64
  | singleLog _, address => address
  | shardedLog h, _ => h.sharded.sequenceNumber

end TransactionHeader

/-! ### The readers -/

def getSynchronizedOperationParams (replayTaskCount : Nat) (entry : List UInt8)
    (entryAddress : Int64) : Option (Int64 × Int16) := do
  let header ← parse entry
  let sequenceNumber ← sequenceNumberOf entry entryAddress
  let participantCount ← match ← header.headerType with
    | .singleLogTransactionHeader =>
      (AofSingleLogTransactionHeader.parse entry).map fun h => h.tail.participantCount
    | .shardedLogTransactionHeader =>
      (AofShardedLogTransactionHeader.parse entry).map fun h => h.tail.participantCount
    | _ => some (Int16.ofNat replayTaskCount)
  return (sequenceNumber, participantCount)

def txnHeaderParticipantCount (entry : List UInt8) : Option Int16 :=
  match AofSingleLogTransactionHeader.parse entry with
  | some h => some h.tail.participantCount
  | none => (AofShardedLogTransactionHeader.parse entry).map fun h => h.tail.participantCount

/-- The group of a session, with the entries it has been given. -/
structure SessionGroup where
  sessionId : Int32
  participantCount : UInt8
  startSequenceNumber : Int64
  operations : List (List UInt8)

structure AofReplayContext where
  fuzzyRegionOps : List (List UInt8)
  txnGroupBuffer : List SessionGroup
  activeTxns : Int32 → Option SessionGroup
  inFuzzyRegion : Bool

inductive TxnAction where
  | handled
  | commit (group : SessionGroup)
  | none
  | reject (message : String)

def rejectNestedTxnStart : String := "No nested transactions expected"

def rejectStoredProcInTxn : String := "已移除自定义事务过程支持，无法回放事务组内存储过程条目"

namespace AofReplayContext

def addTransactionGroup (ctx : AofReplayContext) (sessionId : Int32) (participantCount : UInt8)
    (startSequenceNumber : Int64) : AofReplayContext :=
  { ctx with
    activeTxns := Function.update ctx.activeTxns sessionId
      (some ⟨sessionId, participantCount, startSequenceNumber, []⟩) }

def addToFuzzyRegionBuffer (ctx : AofReplayContext) (group : SessionGroup)
    (commitMarker : List UInt8) : AofReplayContext :=
  { ctx with
    fuzzyRegionOps := ctx.fuzzyRegionOps ++ [commitMarker]
    txnGroupBuffer := ctx.txnGroupBuffer ++ [group] }

/-- The last component is the number the frontier of the sublog is raised to. -/
def addOrReplayTransactionOperation (ctx : AofReplayContext) (entry : List UInt8)
    (logAddressSequenceNumber : Int64) : AofReplayContext × TxnAction × Option Int64 :=
  match parse entry with
  | none => (ctx, .none, none)
  | some header =>
    match AofEntryType.tryFrom header.opType with
    | none => (ctx, .none, none)
    | some opType =>
      let sessionId := header.sessionId
      let number := sequenceNumberOf entry logAddressSequenceNumber
      let closed := { ctx with activeTxns := Function.update ctx.activeTxns sessionId none }
      match ctx.activeTxns sessionId, opType with
      | some _, .txnStart => (ctx, .reject rejectNestedTxnStart, none)
      | some _, .txnAbort => (closed, .handled, some (number.getD 0))
      | some group, .txnCommit =>
        if ctx.inFuzzyRegion then (closed.addToFuzzyRegionBuffer group entry, .handled, none)
        else (closed, .commit group, none)
      | some _, .storedProcedure => (ctx, .reject rejectStoredProcInTxn, none)
      | some group, _ =>
        let grown := { group with operations := group.operations ++ [entry] }
        ({ ctx with activeTxns := Function.update ctx.activeTxns sessionId (some grown) },
          .handled, none)
      | none, .txnStart =>
        let participantCount :=
          ((txnHeaderParticipantCount entry).map fun c => c.toUInt16.toUInt8).getD 0
        (ctx.addTransactionGroup sessionId participantCount
          (number.getD logAddressSequenceNumber), .handled, none)
      | none, .txnAbort | none, .txnCommit => (ctx, .handled, some (number.getD 0))
      | none, _ => (ctx, .none, none)

end AofReplayContext

/-! ### What they read -/

section Readers

variable (h : TransactionHeader) (body : List UInt8) (address : Int64)

lemma TransactionHeader.parse_toBytes_append :
    parse (h.toBytes ++ body) = some h.basic.readBack := by
  cases h with
  | singleLog =>
    rw [toBytes, AofSingleLogTransactionHeader.toBytes, List.append_assoc, parse_toBytes_append]
    rfl
  | shardedLog =>
    rw [toBytes, AofShardedLogTransactionHeader.toBytes, AofShardedHeader.toBytes,
      List.append_assoc, List.append_assoc, parse_toBytes_append]
    rfl

lemma sequenceNumberOf_transactionHeader (htype : h.basic.headerType = some h.headerType) :
    sequenceNumberOf (h.toBytes ++ body) address = some (h.sequenceNumber address) := by
  cases h with
  | singleLog =>
    exact sequenceNumberOf_append (.inr (.inr htype)) _ _
  | shardedLog =>
    rw [TransactionHeader.toBytes, AofShardedLogTransactionHeader.toBytes, List.append_assoc]
    exact sequenceNumberOf_sharded (.inr (.inr htype)) _ _

/-- The reader of the barrier gets back what has been written. -/
lemma getSynchronizedOperationParams_toBytes (htype : h.basic.headerType = some h.headerType)
    (replayTaskCount : Nat) :
    getSynchronizedOperationParams replayTaskCount (h.toBytes ++ body) address =
      some (h.sequenceNumber address, h.tail.participantCount) := by
  have hparse := h.parse_toBytes_append body
  have hnumber := sequenceNumberOf_transactionHeader h body address htype
  cases h with
  | singleLog h =>
    have htxn : AofSingleLogTransactionHeader.parse ((TransactionHeader.singleLog h).toBytes ++ body) =
      _ := h.parse_toBytes_append body
    simp [getSynchronizedOperationParams, hparse, hnumber, htype, htxn,
      TransactionHeader.headerType, TransactionHeader.tail]
  | shardedLog h =>
    have htxn : AofShardedLogTransactionHeader.parse ((TransactionHeader.shardedLog h).toBytes ++ body) =
      _ := h.parse_toBytes_append body
    simp [getSynchronizedOperationParams, hparse, hnumber, htype, htxn,
      TransactionHeader.headerType, TransactionHeader.tail]

/-- Where the layout of the only log has its count, the other has the low half word of its number. -/
lemma participantCount_of_shardedLog (h : AofShardedLogTransactionHeader) :
    txnHeaderParticipantCount (h.toBytes ++ body) =
      some h.sharded.sequenceNumber.toUInt64.toUInt16.toInt16 := by
  have hbasic := (TransactionHeader.shardedLog h).parse_toBytes_append body
  rw [TransactionHeader.toBytes] at hbasic
  have hlen : ¬ (h.toBytes ++ body).length < AofSingleLogTransactionHeader.totalSize := by
    simp [AofShardedLogTransactionHeader.toBytes, AofSingleLogTransactionHeader.totalSize,
      AofShardedHeader.totalSize]
    omega
  have hvector : (field (h.toBytes ++ body) (totalSize + 2)
      replayTaskAccessVectorBytes).length = replayTaskAccessVectorBytes := by
    simp [field, AofShardedLogTransactionHeader.toBytes, AofShardedHeader.totalSize, TxnTail.size]
    omega
  have hcount : field (h.toBytes ++ body) totalSize 2 =
      encode 2 h.sharded.sequenceNumber.toUInt64.toNat := by
    rw [AofShardedLogTransactionHeader.toBytes, AofShardedHeader.toBytes, i64Bytes,
      encode_add 2 6, List.append_assoc]
    exact field_append (length_toBytes _) (length_encode _ _)
  have hread : readI16 (encode 2 h.sharded.sequenceNumber.toUInt64.toNat) =
      h.sharded.sequenceNumber.toUInt64.toUInt16.toInt16 := by
    rw [readI16, decode_encode]
    congr 1
    apply UInt16.toNat.inj
    simp
  rw [txnHeaderParticipantCount, AofSingleLogTransactionHeader.parse, if_neg hlen, hbasic]
  simp [TxnTail.parse, hvector, hcount, hread]

lemma participantCount_of_singleLog (h : AofSingleLogTransactionHeader) :
    txnHeaderParticipantCount (h.toBytes ++ body) = some h.tail.participantCount := by
  rw [txnHeaderParticipantCount, AofSingleLogTransactionHeader.parse_toBytes_append]

end Readers

/-! ### What is kept with a group -/

/-- Count and number kept for a session are those of the header that opened its group, and those the
reader of the barrier gets. -/
def KeptAsWritten (h : TransactionHeader) (body : List UInt8) (address : Int64)
    (replayTaskCount : Nat) (ctx : AofReplayContext) : Prop :=
  ∃ group, ctx.activeTxns h.basic.sessionId = some group ∧
    (group.participantCount.toNat : Int) = h.tail.participantCount.toInt ∧
    group.startSequenceNumber = h.sequenceNumber address ∧
    getSynchronizedOperationParams replayTaskCount (h.toBytes ++ body) address =
      some (group.startSequenceNumber, group.participantCount.toUInt16.toInt16)

/-- The count fits a byte; in the layout of several logs it is also the low byte of the number. -/
def TransactionHeader.countKept : TransactionHeader → Bool
  | singleLog h => 0 ≤ h.tail.participantCount.toInt ∧ h.tail.participantCount.toInt < 256
  | shardedLog h =>
    h.tail.participantCount.toInt = h.sharded.sequenceNumber.toUInt64.toUInt8.toNat

/-- The byte kept for a header. -/
def TransactionHeader.keptCount : TransactionHeader → UInt8
  | singleLog h => h.tail.participantCount.toUInt16.toUInt8
  | shardedLog h => h.sharded.sequenceNumber.toUInt64.toUInt8

lemma activeTxns_of_txnStart (h : TransactionHeader) (ctx : AofReplayContext)
    (htype : h.basic.headerType = some h.headerType)
    (hop : h.basic.opType = AofEntryType.txnStart.asU8)
    (hfree : ctx.activeTxns h.basic.sessionId = none) (body : List UInt8) (address : Int64) :
    (ctx.addOrReplayTransactionOperation (h.toBytes ++ body) address).1.activeTxns
        h.basic.sessionId =
      some ⟨h.basic.sessionId, h.keptCount, h.sequenceNumber address, []⟩ := by
  have hparse := h.parse_toBytes_append body
  have hnumber := sequenceNumberOf_transactionHeader h body address htype
  have hcount : ((txnHeaderParticipantCount (h.toBytes ++ body)).map
      fun c => c.toUInt16.toUInt8) = some h.keptCount := by
    cases h with
    | singleLog => rw [TransactionHeader.toBytes, participantCount_of_singleLog]; rfl
    | shardedLog =>
      rw [TransactionHeader.toBytes, participantCount_of_shardedLog]
      simp [TransactionHeader.keptCount]
  simp only [AofReplayContext.addOrReplayTransactionOperation, hparse, opType_readBack,
    sessionId_readBack, hop, AofEntryType.tryFrom_asU8, hfree, hnumber, hcount,
    AofReplayContext.addTransactionGroup, Option.getD_some, Function.update_self]

lemma lowByte_eq_iff (c : Int16) :
    (c.toUInt16.toUInt8.toNat : Int) = c.toInt ↔ 0 ≤ c.toInt ∧ c.toInt < 256 := by
  have hlow : c.toUInt16.toUInt8.toNat = c.toBitVec.toNat % 256 := UInt16.toNat_toUInt8 _
  have hint : c.toInt = c.toBitVec.toInt := rfl
  rw [hint, BitVec.toInt_eq_toNat_cond]
  split <;> omega

lemma toInt_of_byte (c : UInt8) : c.toUInt16.toInt16.toInt = c.toNat := by
  have hint : c.toUInt16.toInt16.toInt = c.toUInt16.toBitVec.toInt := rfl
  have hnat : c.toUInt16.toBitVec.toNat = c.toNat := by simp
  have hlt := c.toNat_lt
  rw [hint, BitVec.toInt_eq_toNat_cond]
  split <;> omega

lemma keptCount_eq_iff (h : TransactionHeader) :
    (h.keptCount.toNat : Int) = h.tail.participantCount.toInt ↔ h.countKept = true := by
  cases h with
  | singleLog =>
    rw [TransactionHeader.keptCount, TransactionHeader.tail, lowByte_eq_iff]
    simp [TransactionHeader.countKept]
  | shardedLog =>
    simp [TransactionHeader.keptCount, TransactionHeader.countKept, TransactionHeader.tail, eq_comm]

/-- What is kept with the group a header opens is what has been written exactly if the count is one
the record of the group and the layout tried first can hold. -/
theorem keptAsWritten_iff_countKept (h : TransactionHeader)
    (htype : h.basic.headerType = some h.headerType)
    (hop : h.basic.opType = AofEntryType.txnStart.asU8) (body : List UInt8) (address : Int64)
    (replayTaskCount : Nat) (ctx : AofReplayContext)
    (hfree : ctx.activeTxns h.basic.sessionId = none) :
    KeptAsWritten h body address replayTaskCount
        (ctx.addOrReplayTransactionOperation (h.toBytes ++ body) address).1 ↔
      h.countKept = true := by
  have hgroup := activeTxns_of_txnStart h ctx htype hop hfree body address
  rw [← keptCount_eq_iff]
  constructor
  · rintro ⟨group, hkept, hcount, -⟩
    obtain rfl := Option.some.inj (hgroup.symm.trans hkept)
    exact hcount
  · intro hcount
    refine ⟨_, hgroup, hcount, rfl, ?_⟩
    have hword : h.keptCount.toUInt16.toInt16 = h.tail.participantCount :=
      Int16.toInt.inj ((toInt_of_byte _).trans hcount)
    rw [getSynchronizedOperationParams_toBytes h body address htype, hword]

/-- A marker that opens a transaction of session 5 in a topology of several logs. -/
def shardedTxnStart (sequenceNumber : Int64) (participantCount : Int16) : TransactionHeader :=
  .shardedLog ⟨⟨{ new with
      opType := AofEntryType.txnStart.asU8
      sessionId := 5 }.setHeaderType .shardedLogTransactionHeader, sequenceNumber⟩,
    ⟨participantCount, .full⟩⟩

def AofReplayContext.empty : AofReplayContext := ⟨[], [], fun _ => none, false⟩

theorem keptAsWritten_iff_countKept_two :
    KeptAsWritten (shardedTxnStart 0x1102 2) [] 64 4
      (AofReplayContext.empty.addOrReplayTransactionOperation
        ((shardedTxnStart 0x1102 2).toBytes ++ []) 64).1 :=
  (keptAsWritten_iff_countKept _ (by decide) (by decide) _ _ _ _ rfl).2 (by decide)

/-- Of the number 7 the low half word is taken for the count 2. -/
theorem not_keptAsWritten_seven :
    ¬ ∀ (h : TransactionHeader) (body : List UInt8) (address : Int64) (replayTaskCount : Nat)
        (ctx : AofReplayContext),
      h.basic.headerType = some h.headerType → h.basic.opType = AofEntryType.txnStart.asU8 →
      ctx.activeTxns h.basic.sessionId = none →
      KeptAsWritten h body address replayTaskCount
        (ctx.addOrReplayTransactionOperation (h.toBytes ++ body) address).1 := by
  intro hall
  obtain ⟨group, hkept, hcount, -⟩ :=
    hall (shardedTxnStart 7 2) [] 64 4 .empty (by decide) (by decide) rfl
  have hgroup := activeTxns_of_txnStart (shardedTxnStart 7 2) .empty (by decide) (by decide) rfl [] 64
  obtain rfl := Option.some.inj (hgroup.symm.trans hkept)
  exact absurd hcount (by decide)

end Wedb.Aof
