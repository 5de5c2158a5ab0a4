import Wedb.Aof.Log
import Wedb.Aof.TransactionHeader

/-!
# Which task replays an entry

Every task of a sublog looks at every entry of it and decides for itself whether the entry is for it
(`wnode::aof::record_gate`). An entry with a key is for the task its key hashes to, which the frames
of a record that has been cut know from a hash they carry; a marker is for the tasks in its vector.
-/

namespace Wedb.Aof

open List GarnetLog AofHeader

inductive ReplayError where
  | invalidRecordHeader
  | unknownEntryType (opType : UInt8)
  | unsupportedReplayHeaderType (headerType : UInt8)
deriving DecidableEq

/-- A part of a payload behind the four bytes of its length. -/
def splitLenPrefixed (buf : List UInt8) : Option (List UInt8 × List UInt8) :=
  if buf.length < 4 then none
  else
    let len := (readU32 (buf.take 4)).toNat
    let afterLen := buf.drop 4
    if afterLen.length < len then none else some (afterLen.take len, afterLen.drop len)

def peekEntryKey (entry : List UInt8) : Option (List UInt8) := do
  let offset ← skipHeader entry
  if entry.length < offset then none
  else (splitLenPrefixed (entry.drop offset)).map Prod.fst

def entryRoutingHash (hash : List UInt8 → Int64) (entry : List UInt8) (header : AofHeader) :
    Except ReplayError Int64 :=
  if header.isChunked then
    match getChunkedHeaderRef entry with
    | some (_, chunk) => .ok chunk.keyHash
    | none => .error .invalidRecordHeader
  else
    match peekEntryKey entry with
    | some key => .ok (hash key)
    | none => .error .invalidRecordHeader

def entryOpType (header : AofHeader) : Except ReplayError AofEntryType :=
  match AofEntryType.tryFrom header.opType with
  | some opType => .ok opType
  | none => .error (.unknownEntryType header.opType)

/-- `Option::ok_or` for a header that cannot be read. -/
def orInvalid {α : Type} (x : Option α) : Except ReplayError α :=
  match x with
  | some a => .ok a
  | none => .error .invalidRecordHeader

/-- Whether a task replays an entry, and the number of the entry. -/
def canReplay (hash : List UInt8 → Int64) (log : GarnetLog) (entry : List UInt8)
    (replayTaskIdx : Nat) (entryAddress : Int64) : Except ReplayError (Bool × Int64) := do
  let header ← orInvalid (parse entry)
  match header.headerType with
  | none => .error (.unsupportedReplayHeaderType (header.flags &&& aofHeaderTypeMask))
  | some headerType =>
    let sequenceNumber ← orInvalid (sequenceNumberOf entry entryAddress)
    match headerType with
    | .basicHeader | .basicChunkHeader =>
      let opType ← entryOpType header
      if opType.hasKey then
        let routing ← entryRoutingHash hash entry header
        return (replayTaskIdx = log.getReplayTaskIdx routing, sequenceNumber)
      else return (true, sequenceNumber)
    | .shardedHeader | .shardedChunkHeader =>
      let opType ← entryOpType header
      if opType.hasKey then
        let routing ← entryRoutingHash hash entry header
        return (replayTaskIdx = log.getReplayTaskIdx routing, sequenceNumber)
      else return (replayTaskIdx = 0, sequenceNumber)
    | .singleLogTransactionHeader =>
      let txn ← orInvalid (AofSingleLogTransactionHeader.parse entry)
      return (txn.tail.replayTaskAccessVector.bitIsSet replayTaskIdx, sequenceNumber)
    | .shardedLogTransactionHeader =>
      let txn ← orInvalid (AofShardedLogTransactionHeader.parse entry)
      return (txn.tail.replayTaskAccessVector.bitIsSet replayTaskIdx, sequenceNumber)

/-! ### What decides -/

variable {opType : AofEntryType}

section Deciding

variable {hash : List UInt8 → Int64} {log : GarnetLog} {entry : List UInt8} {header : AofHeader}
  {headerType : AofHeaderType} {number : Int64} {task : Nat} {address : Int64}

/-- An entry with a key is for the task of its hash. -/
lemma canReplay_of_key {routing : Int64}
    (hparse : parse entry = some header) (htype : header.headerType = some headerType)
    (hplain : headerType ≠ .singleLogTransactionHeader ∧ headerType ≠ .shardedLogTransactionHeader)
    (hnumber : sequenceNumberOf entry address = some number)
    (hop : entryOpType header = .ok opType) (hkey : opType.hasKey = true)
    (hrouting : entryRoutingHash hash entry header = .ok routing) :
    canReplay hash log entry task address =
      .ok (decide (task = log.getReplayTaskIdx routing), number) := by
  rw [canReplay, hparse, hnumber]
  change (match header.headerType with | none => _ | some _ => _) = _
  rw [htype]
  cases headerType with
  | singleLogTransactionHeader => exact absurd rfl hplain.1
  | shardedLogTransactionHeader => exact absurd rfl hplain.2
  | _ =>
    rw [hop]
    change (if opType.hasKey = true then _ else _) = _
    rw [if_pos hkey, hrouting]
    rfl

end Deciding

/-! ### Keys come back -/

lemma splitLenPrefixed_append {part : List UInt8} (hlen : part.length < 2 ^ 32)
    (rest : List UInt8) :
    splitLenPrefixed (u32Bytes (UInt32.ofNat part.length) ++ (part ++ rest)) =
      some (part, rest) := by
  have hfour := length_u32Bytes (UInt32.ofNat part.length)
  have hread : (UInt32.ofNat part.length).toNat = part.length := by
    exact Nat.mod_eq_of_lt hlen
  simp [splitLenPrefixed, hread]

variable {sequenceNumber : Int64} {written : List Entry} {e : Entry} {headerType : AofHeaderType}

section Records

variable {hash : List UInt8 → Int64} {log : GarnetLog} {record : RecordShape}

lemma not_isChunked_recordHeader
    (h : headerType ≠ .basicChunkHeader ∧ headerType ≠ .shardedChunkHeader) :
    (recordHeader record headerType).isChunked = false := by
  rw [← Bool.not_eq_true, recordHeader, isChunked_setHeaderType (.inl rfl)]
  exact not_or.2 h

lemma isChunked_recordHeader
    (h : headerType = .basicChunkHeader ∨ headerType = .shardedChunkHeader) :
    (recordHeader record headerType).isChunked = true :=
  (isChunked_setHeaderType (.inl rfl) headerType).2 h

lemma entryOpType_recordHeader (headerType : AofHeaderType) :
    entryOpType (recordHeader record headerType).readBack = .ok record.opType := by
  simp [entryOpType]

/-- The key of a record that has not been cut. -/
lemma peekEntryKey_append {front : List UInt8} (hlen : record.key.length < 2 ^ 32)
    (hskip : skipHeader (front ++ recordBody record) = some front.length) :
    peekEntryKey (front ++ recordBody record) = some record.key := by
  have hsplit : splitLenPrefixed (recordBody record) = some (record.key, _) :=
    splitLenPrefixed_append hlen _
  simp [peekEntryKey, hskip, hsplit]

/-- A record that has not been cut is for the task of its key. -/
lemma canReplay_of_plain (hlen : record.key.length < 2 ^ 32) (sequenceNumber : Int64)
    (task : Nat) (address : Int64) :
    ∃ number, canReplay hash log
      ((recordHeader record
        (if log.usingSinglePhysicalLog then .basicHeader else .shardedHeader)).toBytes ++
          (log.sequencePart sequenceNumber ++ recordBody record)) task address =
      .ok (decide (task = log.getReplayTaskIdx (hash record.key)), number) := by
  cases h : log.usingSinglePhysicalLog with
  | true =>
    have htype := headerType_recordHeader record .basicHeader
    have hkey : peekEntryKey ((recordHeader record .basicHeader).toBytes ++
        recordBody record) = some record.key :=
      peekEntryKey_append hlen (by
        rw [skipHeader_append htype]; rfl)
    simp only [if_true, sequencePart, h]
    exact ⟨address, canReplay_of_key (parse_toBytes_append _ _) htype (by decide)
      (sequenceNumberOf_append (.inl htype) _ _) (entryOpType_recordHeader _)
      record.keyed (by simp [entryRoutingHash, not_isChunked_recordHeader, hkey])⟩
  | false =>
    have htype := headerType_recordHeader record .shardedHeader
    have hskip : skipHeader (((recordHeader record .shardedHeader).toBytes ++
        i64Bytes sequenceNumber) ++ recordBody record) =
          some ((recordHeader record .shardedHeader).toBytes ++
            i64Bytes sequenceNumber).length := by
      rw [append_assoc, skipHeader_append htype]
      simp [AofHeaderType.totalSize, AofShardedHeader.totalSize]
    have hkey := peekEntryKey_append hlen hskip
    have hnumber := sequenceNumberOf_sharded
      (h := ⟨recordHeader record .shardedHeader, sequenceNumber⟩) (.inl htype)
      (recordBody record) address
    rw [append_assoc] at hkey
    simp only [sequencePart, h]
    exact ⟨sequenceNumber, canReplay_of_key (parse_toBytes_append _ _) htype (by decide)
      hnumber (entryOpType_recordHeader _) record.keyed
      (by simp [entryRoutingHash, not_isChunked_recordHeader, hkey])⟩

/-- So is every frame of one that has been cut. -/
lemma canReplay_of_chunk (sequenceNumber : Int64) (objectId : UInt64) (data : List UInt8)
    (task : Nat) (address : Int64) :
    ∃ number, canReplay hash log (log.chunkFrame hash record sequenceNumber objectId data) task
      address = .ok (decide (task = log.getReplayTaskIdx (hash record.key)), number) := by
  have hrouting (header : AofHeader) (hchunked : header.isChunked = true) : entryRoutingHash hash
      (log.chunkFrame hash record sequenceNumber objectId data) header = .ok (hash record.key) := by
    rw [entryRoutingHash, if_pos hchunked, getChunkedHeaderRef_chunkFrame]
    rfl
  cases h : log.usingSinglePhysicalLog with
  | true =>
    have htype := headerType_recordHeader record .basicChunkHeader
    have hchunked : (recordHeader record .basicChunkHeader).isChunked = true :=
      isChunked_recordHeader (.inl rfl)
    have hparse : parse (log.chunkFrame hash record sequenceNumber objectId data) =
        some (recordHeader record .basicChunkHeader).readBack := by
      rw [parse_chunkFrame, h]
      rfl
    have hnumber : sequenceNumberOf
        (log.chunkFrame hash record sequenceNumber objectId data) address = some address := by
      rw [chunkFrame_of_single h]
      exact sequenceNumberOf_append (.inr (.inl htype)) _ _
    exact ⟨address, canReplay_of_key hparse htype (by decide) hnumber
      (entryOpType_recordHeader _) record.keyed (hrouting _ hchunked)⟩
  | false =>
    have htype := headerType_recordHeader record .shardedChunkHeader
    have hchunked : (recordHeader record .shardedChunkHeader).isChunked = true :=
      isChunked_recordHeader (.inr rfl)
    have hparse : parse (log.chunkFrame hash record sequenceNumber objectId data) =
        some (recordHeader record .shardedChunkHeader).readBack := by
      rw [parse_chunkFrame, h]
      rfl
    have hnumber : sequenceNumberOf
        (log.chunkFrame hash record sequenceNumber objectId data) address =
          some sequenceNumber := by
      rw [chunkFrame_of_sharded h]
      exact sequenceNumberOf_sharded (.inr (.inl htype)) _ _
    exact ⟨sequenceNumber, canReplay_of_key hparse htype (by decide) hnumber
      (entryOpType_recordHeader _) record.keyed (hrouting _ hchunked)⟩

/-- Every entry an operation leaves is in the sublog of its key and for the task of its key. -/
lemma canReplay_of_enqueue {objectId : UInt64}
    (h : log.enqueue hash record sequenceNumber objectId = some written)
    (he : e ∈ written) :
    e.1 = log.getPhysicalSublogIdx (hash record.key) ∧ ∀ task address, ∃ number,
      canReplay hash log e.2 task address =
        .ok (decide (task = log.getReplayTaskIdx (hash record.key)), number) := by
  have hidx : (if log.usingSinglePhysicalLog then 0
      else log.getPhysicalSublogIdx (hash record.key)) =
        log.getPhysicalSublogIdx (hash record.key) := by
    split
    · next hsingle => exact (getPhysicalSublogIdx_of_single hsingle _).symm
    · rfl
  unfold enqueue at h
  split at h
  · -- the frames of a record that has been cut
    simp only [enqueueSpanChunked, enqueueFrames, Option.pure_def,
      Option.bind_eq_bind, Option.bind_eq_some_iff, Option.ite_none_right_eq_some,
      Option.some.injEq] at h
    obtain ⟨_, ⟨-, rfl⟩, rfl⟩ := h
    obtain ⟨_, hframe, rfl⟩ := mem_map.1 he
    obtain ⟨data, -, rfl⟩ := mem_map.1 hframe
    exact ⟨hidx, fun task address => canReplay_of_chunk _ _ _ task address⟩
  · next hsmall =>
    have hlen : record.key.length < 2 ^ 32 := by
      simp only [isChunkable, minPartialAllocSize, gt_iff_lt,
        decide_eq_true_eq] at hsmall
      omega
    simp only [enqueueWithHeader, enqueueParts, Option.pure_def,
      Option.bind_eq_bind, Option.bind_eq_some_iff, Option.ite_none_right_eq_some,
      Option.some.injEq] at h
    obtain ⟨_, ⟨-, rfl⟩, rfl⟩ := h
    obtain rfl := mem_singleton.1 he
    exact ⟨hidx, fun task address => canReplay_of_plain hlen _ task address⟩

end Records

section Markers

variable {hash : List UInt8 → Int64} {log : GarnetLog}

lemma canReplay_append_transaction (h : TransactionHeader)
    (htype : h.basic.headerType = some h.headerType) (body : List UInt8) (task : Nat)
    (address : Int64) : ∃ number, canReplay hash log (h.toBytes ++ body) task address =
      .ok (h.tail.replayTaskAccessVector.bitIsSet task, number) := by
  refine ⟨h.sequenceNumber address, ?_⟩
  rw [canReplay, h.parse_toBytes_append body, sequenceNumberOf_transactionHeader h body address htype]
  change (match h.basic.headerType with | none => _ | some _ => _) = _
  rw [htype]
  cases h with
  | singleLog h =>
    change (orInvalid (AofSingleLogTransactionHeader.parse (h.toBytes ++ body)) >>= _) = _
    rw [h.parse_toBytes_append]
    rfl
  | shardedLog h =>
    change (orInvalid (AofShardedLogTransactionHeader.parse (h.toBytes ++ body)) >>= _) = _
    rw [h.parse_toBytes_append]
    rfl

lemma GarnetLog.eq_of_enqueueParts {α : Type} {f : List UInt8 → α} {entry : List UInt8} {x : α}
    (h : ((log.enqueueParts entry).bind fun entry => some (f entry)) = some x) : x = f entry := by
  unfold enqueueParts at h
  split at h
  · exact (Option.some.inj h).symm
  · cases h

lemma mem_of_mapM_eq_some {α β : Type} {f : α → Option β} :
    ∀ {l : List α} {out : List β}, l.mapM f = some out → ∀ b ∈ out, ∃ a ∈ l, f a = some b
  | [], out, h, b, hb => by
    obtain rfl : [] = out := by simpa using h
    cases hb
  | a :: l, out, h, b, hb => by
    simp only [mapM_cons, Option.pure_def, Option.bind_eq_bind, Option.bind_eq_some_iff,
      Option.some.injEq] at h
    obtain ⟨b', hb', out', hout, rfl⟩ := h
    rcases mem_cons.1 hb with rfl | hb
    · exact ⟨a, mem_cons_self, hb'⟩
    · obtain ⟨a', ha', hf⟩ := mem_of_mapM_eq_some hout b hb
      exact ⟨a', mem_cons_of_mem _ ha', hf⟩

/-- The entries of a marker are for the tasks of the vector they carry, which is the one of their
sublog. -/
lemma canReplay_of_enqueueStoredProc {version : Int64} {sessionId : Int32}
    {procedureId : UInt8} {body : List UInt8} {access : SublogAccess}
    (hmany : log.usingSingleLog = false)
    (h : log.enqueueStoredProc opType version sessionId procedureId body access sequenceNumber =
      some written) (he : e ∈ written) (task : Nat) (address : Int64) :
    ∃ number, canReplay hash log e.2 task address =
      .ok ((access.vector e.1).bitIsSet task, number) := by
  simp only [enqueueStoredProc, hmany, Bool.false_eq_true, if_false] at h
  split at h
  · obtain rfl := eq_of_enqueueParts h
    obtain rfl := mem_singleton.1 he
    exact canReplay_append_transaction (.singleLog _) (by exact headerType_setHeaderType (.inl rfl) _) _ _ _
  · obtain ⟨sublogIdx, -, hentry⟩ := mem_of_mapM_eq_some h e he
    obtain rfl := eq_of_enqueueParts hentry
    exact canReplay_append_transaction (.shardedLog _) (by exact headerType_setHeaderType (.inl rfl) _) _ _ _

/-- Those for everybody have every bit set. -/
lemma canReplay_of_enqueueBroadcastEntry {basic : AofHeader} {extra : List UInt8}
    (hmany : log.usingSingleLog = false)
    (hflags : basic.flags = 0 ∨ basic.flags = unsafeTruncateLogFlag)
    (h : log.enqueueBroadcastEntry basic extra sequenceNumber = some written)
    (he : e ∈ written) (task : Nat) (address : Int64) :
    ∃ number, canReplay hash log e.2 task address =
      .ok (AccessVector.full.bitIsSet task, number) := by
  simp only [enqueueBroadcastEntry, hmany, Bool.false_eq_true, if_false] at h
  split at h
  · obtain rfl := eq_of_enqueueParts h
    obtain rfl := mem_singleton.1 he
    exact canReplay_append_transaction (.singleLog _) (by exact headerType_setHeaderType hflags _) _ _ _
  · obtain ⟨sublogIdx, -, hentry⟩ := mem_of_mapM_eq_some h e he
    obtain rfl := eq_of_enqueueParts hentry
    exact canReplay_append_transaction (.shardedLog _) (by exact headerType_setHeaderType hflags _) _ _ _

lemma flags_markerHeader (opType : AofEntryType) (version : Int64) :
    (markerHeader opType version (-1) 0 .basicHeader).flags = 0 := by
  change (0 &&& ~~~aofHeaderTypeMask) ||| AofHeaderType.basicHeader.asU8 = 0
  decide

lemma flags_of_safeFlush (opType : AofEntryType) (unsafeTruncateLog : Bool) :
    let header := markerHeader opType 0 (-1) 0 .basicHeader
    let header := if unsafeTruncateLog then
        { header with flags := header.flags ||| unsafeTruncateLogFlag }
      else header
    header.flags = 0 ∨ header.flags = unsafeTruncateLogFlag := by
  cases unsafeTruncateLog <;> simp [flags_markerHeader]

end Markers

/-- The tasks of a sublog divide the records among themselves: for a key there is one sublog, and of
its tasks one, that has every entry of every record of the key, cut or not, and no other task takes
any of them. An entry of a transaction, or one for everybody, is taken by the tasks of its vector. -/
theorem canReplay_partition (hash : List UInt8 → Int64) (log : GarnetLog) :
    (∀ key, ∃ sublog < log.physicalSublogCount, ∃ task < log.replayTaskCount,
      ∀ record : RecordShape, record.key = key → ∀ sequenceNumber objectId written,
        log.enqueue hash record sequenceNumber objectId = some written → ∀ e ∈ written,
          e.1 = sublog ∧ ∀ task' address, ∃ number,
            canReplay hash log e.2 task' address = .ok (decide (task' = task), number)) ∧
    (log.usingSingleLog = false →
      (∀ opType version sessionId procedureId body access sequenceNumber written,
        log.enqueueStoredProc opType version sessionId procedureId body access sequenceNumber =
          some written → ∀ e ∈ written, ∀ task address, ∃ number,
            canReplay hash log e.2 task address = .ok ((access.vector e.1).bitIsSet task, number)) ∧
      (∀ opType version sequenceNumber written,
        log.enqueueDatabaseCommit opType version sequenceNumber = some written →
          ∀ e ∈ written, ∀ task address, ∃ number,
            canReplay hash log e.2 task address = .ok (AccessVector.full.bitIsSet task, number)) ∧
      (∀ opType unsafeTruncateLog ns db sequenceNumber written,
        log.enqueueSafeFlushAof opType unsafeTruncateLog ns db sequenceNumber = some written →
          ∀ e ∈ written, ∀ task address, ∃ number,
            canReplay hash log e.2 task address =
              .ok (AccessVector.full.bitIsSet task, number))) := by
  refine ⟨fun key => ?_, fun hmany => ⟨?_, ?_, ?_⟩⟩
  · refine ⟨_, log.getPhysicalSublogIdx_lt (hash key), _, log.getReplayTaskIdx_lt (hash key), ?_⟩
    rintro record rfl sequenceNumber objectId written h e he
    exact canReplay_of_enqueue h he
  · intro opType version sessionId procedureId body access sequenceNumber written h e he task address
    exact canReplay_of_enqueueStoredProc hmany h he task address
  · intro opType version sequenceNumber written h e he task address
    exact canReplay_of_enqueueBroadcastEntry hmany (.inl (flags_markerHeader _ _)) h he task address
  · intro opType unsafeTruncateLog ns db sequenceNumber written h e he task address
    exact canReplay_of_enqueueBroadcastEntry hmany (flags_of_safeFlush opType unsafeTruncateLog) h he
      task address

end Wedb.Aof
