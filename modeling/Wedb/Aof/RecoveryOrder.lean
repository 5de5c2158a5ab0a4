import Wedb.Aof.Recovery

/-!
# The order of a recovery

What a log says is done: an entry that stands alone is done where it stands, and the operations of a
transaction where it commits, in their order and with nothing between them; those of a transaction
that is aborted, or that the log does not finish, are not done. A recovery does just this for a log
without a commit between the two markers of a checkpoint.
-/

namespace Wedb.Aof

open List Function AofEntryType

/-! ### What a log says is done -/

/-- A marker of a transaction of this session. -/
def isTxnMarker (sessionId : Int32) : LogRecord → Bool
  | .entry entry => entry.sessionId = sessionId &&
      (entry.opType = .txnStart || entry.opType = .txnCommit || entry.opType = .txnAbort)
  | _ => false

/-- What this session adds to its transaction with a record that is no marker. -/
def operationOf (sessionId : Int32) : LogRecord → Option ReplayOperation
  | .chunk acc address => if acc.sessionId = sessionId then some (.chunk acc address) else none
  | .entry entry => if entry.sessionId = sessionId then some (.record entry) else none
  | _ => none

/-- The operations of the transaction that is open at the end of the log: those after the last
marker of the session, if that has begun one. -/
def openTxn (log : List LogRecord) (sessionId : Int32) : Option (List ReplayOperation) :=
  match log.reverse.dropWhile (!isTxnMarker sessionId ·) with
  | .entry entry :: _ =>
    if entry.opType = .txnStart then
      some ((log.reverse.takeWhile (!isTxnMarker sessionId ·)).reverse.filterMap
        (operationOf sessionId))
    else none
  | _ => none

/-- What is done at a record that comes after this log. -/
def doneAt (target : ReplayTarget) (storeVersion : Int64) (log : List LogRecord) :
    LogRecord → List ReplayOperation
  | .chunk acc address =>
    if (openTxn log acc.sessionId).isSome then []
    else [.chunk acc address].filter (!covers target storeVersion ·)
  | .entry entry =>
    if entry.opType = .txnCommit then
      ((openTxn log entry.sessionId).getD []).filter (!covers target storeVersion ·)
    else if (openTxn log entry.sessionId).isNone &&
        (entry.opType.hasKey || entry.opType.isFlush) then
      [.record entry].filter (!covers target storeVersion ·)
    else []
  | _ => []

/-- What is done by a log, record by record. -/
def doneBy (target : ReplayTarget) (storeVersion : Int64) (log : List LogRecord) :
    List ReplayOperation :=
  log.zipIdx.flatMap fun (record, i) => doneAt target storeVersion (log.take i) record

/-- Whether a record may come after this log: transactions are not nested, what is in them are
operations on keys, and there are no procedures. -/
def wellFormedAt (log : List LogRecord) : LogRecord → Bool
  | .chunk acc _ => acc.opType.isChunkOperation
  | .entry entry =>
    if (openTxn log entry.sessionId).isSome then
      entry.opType.hasKey || entry.opType = .txnCommit || entry.opType = .txnAbort
    else entry.opType ≠ .storedProcedure
  | _ => true

variable {target : ReplayTarget} {storeVersion : Int64}

lemma AofEntryType.not_txn_of_hasKey {opType : AofEntryType} (h : opType.hasKey = true) :
    opType ≠ .txnStart ∧ opType ≠ .txnCommit ∧ opType ≠ .txnAbort := by
  cases opType <;> simp_all [hasKey]

variable {entry : ReplayEntry}

lemma isTxnMarker_of_hasKey (h : entry.opType.hasKey = true)
    (sessionId : Int32) : isTxnMarker sessionId (.entry entry) = false := by
  simp [isTxnMarker, not_txn_of_hasKey h]

lemma doneBy_snoc (log : List LogRecord) (record : LogRecord) :
    doneBy target storeVersion (log ++ [record]) =
      doneBy target storeVersion log ++ doneAt target storeVersion log record := by
  unfold doneBy
  rw [zipIdx_append, flatMap_append]
  congr 1
  · refine flatMap_congr fun ⟨r, i⟩ hmem => ?_
    have hlt : i < log.length := by
      have := (mem_zipIdx hmem).2.1
      omega
    dsimp only
    rw [take_append_of_le_length (le_of_lt hlt)]
  · simp

variable {sessionId : Int32}

/-- A record that is no marker of the session adds to its transaction at most. -/
lemma openTxn_snoc (log : List LogRecord) {record : LogRecord}
    (h : isTxnMarker sessionId record = false) :
    openTxn (log ++ [record]) sessionId =
      (openTxn log sessionId).map (· ++ (operationOf sessionId record).toList) := by
  unfold openTxn
  rw [reverse_append, reverse_singleton, singleton_append,
    dropWhile_cons_of_pos (by simp [h]), takeWhile_cons_of_pos (by simp [h])]
  split
  · next entry _ _ =>
    split
    · simp [filterMap_cons]
      cases operationOf sessionId record <;> rfl
    · rfl
  · rfl

/-! ### A recovery does what its log says -/

/-- A commit comes outside of the fuzzy region, and nothing it or a flush does is covered. -/
def commitsAtOnce (target : ReplayTarget) (s : ReplayState) (a : ReplayAction) : Bool :=
  uncovered target s a &&
    match a with
    | .read (.entry entry) =>
      (s.activeTxns entry.sessionId).isNone || entry.opType ≠ .txnCommit || !s.inFuzzyRegion
    | _ => true

/-- The log that is read is well formed. -/
def wellFormed (s : ReplayState) : ReplayAction → Bool
  | .read record => wellFormedAt s.readSoFar record
  | .checkpointed _ => true

/-- An operation that there is something to do for. -/
def ReplayOperation.isReplayable : ReplayOperation → Bool
  | record entry => entry.opType.hasKey
  | chunk acc _ => acc.opType.isChunkOperation

variable {p : ReplayState} {operation : ReplayOperation}

namespace ReplayState

open ReplayState

variable {s s' : ReplayState}

lemma error_replayOperation (fallback : Int64)
    (h : operation.isReplayable = true) :
    (s.replayOperation target fallback operation).error = s.error := by
  cases operation with
  | record =>
    rw [replayOperation, replayOp, if_pos (by exact h)]
    exact error_update _ _
  | chunk =>
    rw [replayOperation, replayChunk, if_pos (by exact h)]
    rfl

variable {group : TransactionGroup}

/-- A transaction of operations on keys is replayed to its end. -/
lemma error_processTransactionGroupOperations
    (h : ∀ operation ∈ group.operations, operation.isReplayable = true) (hok : s.error = none) :
    (s.processTransactionGroupOperations target group).error = none := by
  unfold processTransactionGroupOperations
  revert h
  induction group.operations generalizing s with
  | nil => exact fun _ => hok
  | cons operation operations ih =>
    intro h
    rw [foldl_cons]
    refine ih ?_ fun other hother => h other (mem_cons_of_mem _ hother)
    rw [unlessFailed, hok, if_neg (by simp),
      error_replayOperation _ (h operation mem_cons_self), hok]

/-- What has gone to the store is what the log read so far says, the transactions that are open are
those the log leaves open, and nothing else waits. -/
structure InOrder (target : ReplayTarget) (storeVersion : Int64) (s : ReplayState) : Prop where
  ok : s.error = none
  version : s.storeVersion = storeVersion
  noMarkers : s.fuzzyRegionOps = []
  noGroups : s.txnGroupBuffer = []
  session : ∀ sessionId group, s.activeTxns sessionId = some group →
    group.sessionId = sessionId ∧ ∀ operation ∈ group.operations, operation.isReplayable = true
  txns : ∀ sessionId,
    (s.activeTxns sessionId).map TransactionGroup.operations = openTxn s.readSoFar sessionId
  applied : s.operations = doneBy target storeVersion s.readSoFar

lemma Replays.operations_eq {operations : List ReplayOperation} (h : Replays s operations s')
    (hok : s'.error = none) : s'.operations = s.operations ++ operations := by
  obtain ⟨done, heq, -, hall⟩ := h.done
  rw [heq, hall hok]

section

variable (hs : InOrder target storeVersion s)
include hs

lemma InOrder.openTxn_of_some (h : s.activeTxns sessionId = some group) :
    openTxn s.readSoFar sessionId = some group.operations := by
  rw [← hs.txns, h]
  rfl

lemma InOrder.openTxn_of_none
    (h : s.activeTxns sessionId = none) : openTxn s.readSoFar sessionId = none := by
  rw [← hs.txns, h]
  rfl

omit hs in
lemma others_of_entry (entry : ReplayEntry) (other : Int32) (h : other ≠ entry.sessionId) :
    isTxnMarker other (.entry entry) = false ∧ operationOf other (.entry entry) = none := by
  simp [isTxnMarker, operationOf, h.symm]

omit hs in
lemma others_of_chunk (acc : ChunkedAccumulator) (address : Int64) (other : Int32)
    (h : other ≠ acc.sessionId) :
    isTxnMarker other (.chunk acc address) = false ∧
      operationOf other (.chunk acc address) = none := by
  simp [isTxnMarker, operationOf, h.symm]

/-- One record: what it changes in the transactions, and what goes to the store. -/
lemma InOrder.next {record : LogRecord}
    (txn : Option TransactionGroup) (hok : p.error = none)
    (hversion : p.storeVersion = s.storeVersion)
    (hmarkers : p.fuzzyRegionOps = []) (hgroups : p.txnGroupBuffer = [])
    (hactive : p.activeTxns = update s.activeTxns sessionId txn)
    (htxn : ∀ group, txn = some group →
      group.sessionId = sessionId ∧ ∀ operation ∈ group.operations, operation.isReplayable = true)
    (hother : ∀ other, other ≠ sessionId →
      isTxnMarker other record = false ∧ operationOf other record = none)
    (hown : txn.map TransactionGroup.operations = openTxn (s.readSoFar ++ [record]) sessionId)
    (happlied : p.operations = s.operations ++ doneAt target storeVersion s.readSoFar record) :
    InOrder target storeVersion { p with readSoFar := s.readSoFar ++ [record] } where
  ok := hok
  version := hversion.trans hs.version
  noMarkers := hmarkers
  noGroups := hgroups
  session := by
    intro other group h
    rw [hactive] at h
    by_cases he : other = sessionId
    · subst he
      rw [update_self] at h
      exact htxn group h
    · rw [update_of_ne he] at h
      exact hs.session other group h
  txns := by
    intro other
    rw [hactive]
    by_cases he : other = sessionId
    · rw [he, update_self, hown]
    · obtain ⟨hmarker, hnone⟩ := hother other he
      rw [update_of_ne he, openTxn_snoc _ hmarker, hnone, hs.txns]
      simp
  applied := by
    change p.operations = _
    rw [happlied, hs.applied, doneBy_snoc]

/-- A record that changes no transaction: its session has none, and it is no marker that would
begin one. -/
lemma InOrder.alone {record : LogRecord}
    (hok : p.error = none) (hversion : p.storeVersion = s.storeVersion)
    (hmarkers : p.fuzzyRegionOps = []) (hgroups : p.txnGroupBuffer = [])
    (hactive : p.activeTxns = s.activeTxns) (hnone : s.activeTxns sessionId = none)
    (hother : ∀ other, other ≠ sessionId →
      isTxnMarker other record = false ∧ operationOf other record = none)
    (hown : openTxn (s.readSoFar ++ [record]) sessionId = none)
    (happlied : p.operations = s.operations ++ doneAt target storeVersion s.readSoFar record) :
    InOrder target storeVersion { p with readSoFar := s.readSoFar ++ [record] } := by
  refine hs.next none hok hversion hmarkers hgroups ?_ nofun hother hown.symm happlied
  rw [hactive, ← hnone, update_eq_self]

/-- The same when it only sends to the store what is to be done. -/
lemma InOrder.replays {record : LogRecord}
    (h : Replays s (doneAt target storeVersion s.readSoFar record) p)
    (hok : p.error = none) (hnone : s.activeTxns sessionId = none)
    (hother : ∀ other, other ≠ sessionId →
      isTxnMarker other record = false ∧ operationOf other record = none)
    (hown : openTxn (s.readSoFar ++ [record]) sessionId = none) :
    InOrder target storeVersion { p with readSoFar := s.readSoFar ++ [record] } := by
  refine hs.alone hok ?_ ?_ ?_ ?_ hnone hother hown (h.operations_eq hok)
  · rw [h.frame]
  · rw [h.frame]
    exact hs.noMarkers
  · rw [h.frame]
    exact hs.noGroups
  · rw [h.frame]

omit hs in
lemma openTxn_snoc_of_none {log : List LogRecord} {record : LogRecord}
    (hmarker : isTxnMarker sessionId record = false) (hnone : openTxn log sessionId = none) :
    openTxn (log ++ [record]) sessionId = none := by
  rw [openTxn_snoc log hmarker, hnone]
  rfl

/-- A transaction that gets an operation on a key. -/
lemma InOrder.session_push (htxn : s.activeTxns sessionId = some group)
    (hoperation : operation.isReplayable = true)
    (pushed : TransactionGroup)
    (h : some { group with operations := group.operations ++ [operation] } = some pushed) :
    pushed.sessionId = sessionId ∧
      ∀ operation ∈ pushed.operations, operation.isReplayable = true := by
  cases h
  obtain ⟨hsession, hall⟩ := hs.session sessionId group htxn
  refine ⟨hsession, fun other hmem => ?_⟩
  rcases mem_append.1 hmem with hold | hnew
  · exact hall other hold
  · rw [mem_singleton.1 hnew]
    exact hoperation

lemma InOrder.processChunkedRecord
    (hreplica : target.asReplica = false) {acc : ChunkedAccumulator} {address : Int64}
    (hchunk : acc.opType.isChunkOperation = true) :
    InOrder target storeVersion { s.processChunkedRecord target acc address with
      readSoFar := s.readSoFar ++ [.chunk acc address] } := by
  cases htxn : s.activeTxns acc.sessionId with
  | some group =>
    have heq : s.processChunkedRecord target acc address =
        s.pushOperation acc.sessionId group (.chunk acc address) := by
      simp only [ReplayState.processChunkedRecord, htxn]
    rw [heq]
    refine hs.next _ hs.ok rfl hs.noMarkers hs.noGroups rfl ?_ (others_of_chunk acc address) ?_ ?_
    · exact hs.session_push htxn hchunk
    · rw [openTxn_snoc _ rfl, hs.openTxn_of_some htxn]
      simp [operationOf]
    · simp [doneAt, hs.openTxn_of_some htxn, pushOperation, operations]
  | none =>
    have heq : s.processChunkedRecord target acc address =
        s.replayOpDispatchChunk target acc address := by
      simp only [ReplayState.processChunkedRecord, htxn]
    have hnone := hs.openTxn_of_none htxn
    obtain ⟨raised, hok, hraised, hdispatch⟩ :=
      replayOpDispatchChunk_of_recovery hreplica hs.version acc address
    have hleft : doneAt target storeVersion s.readSoFar (.chunk acc address) =
        [.chunk acc address].filter (!covers target storeVersion ·) := by
      simp [doneAt, hnone]
    refine hs.replays ?_ ?_ htxn (others_of_chunk acc address) (openTxn_snoc_of_none rfl hnone)
    · rw [hleft, heq, hdispatch]
      split
      · next hcovers =>
        rw [filter_cons_of_neg (by simp [hcovers])]
        exact hraised _ _ (.nil _)
      · next hcovers =>
        rw [filter_cons_of_pos (by simp [hcovers])]
        exact hraised _ _ (.replayChunk acc address)
    · rw [heq, hdispatch, replayChunk]
      split
      · exact hok.trans hs.ok
      · exact hok.trans hs.ok

omit hs in
/-- A marker that is no start leaves its session without a transaction. -/
lemma openTxn_snoc_of_end (log : List LogRecord)
    (h : entry.opType = .txnCommit ∨ entry.opType = .txnAbort) :
    openTxn (log ++ [.entry entry]) entry.sessionId = none := by
  rcases h with h | h <;> simp [openTxn, isTxnMarker, h]

lemma InOrder.commit (htxn : s.activeTxns entry.sessionId = some group)
    (hcommit : entry.opType = .txnCommit)
    (hgroup : ∀ operation ∈ group.operations, covers target storeVersion operation = false) :
    InOrder target storeVersion
      { (s.clearSessionTxn entry.sessionId).processTransactionGroup target group with
        readSoFar := s.readSoFar ++ [.entry entry] } := by
  obtain ⟨hsession, hall⟩ := hs.session _ group htxn
  have hreplays : Replays (s.clearSessionTxn entry.sessionId) group.operations
      ((s.clearSessionTxn entry.sessionId).processTransactionGroupOperations target group) :=
    .foldl group.startSequenceNumber group.operations hs.ok
  have hdone : ((s.clearSessionTxn entry.sessionId).processTransactionGroupOperations target
      group).error = none := error_processTransactionGroupOperations hall hs.ok
  refine hs.next none hdone ?_ ?_ ?_ ?_ nofun (others_of_entry entry)
    (openTxn_snoc_of_end _ (.inl hcommit)).symm ?_
  · change (processTransactionGroupOperations ..).storeVersion = _
    rw [hreplays.frame]
    rfl
  · change (processTransactionGroupOperations ..).fuzzyRegionOps = _
    rw [hreplays.frame]
    exact hs.noMarkers
  · change (processTransactionGroupOperations ..).txnGroupBuffer = _
    rw [hreplays.frame]
    exact hs.noGroups
  · change update (processTransactionGroupOperations ..).activeTxns _ none = _
    rw [hreplays.frame, hsession]
    exact update_idem _ _ _
  · change (processTransactionGroupOperations ..).operations = _
    rw [hreplays.operations_eq hdone, doneAt, if_pos hcommit, hs.openTxn_of_some htxn, filter_eq_self.2 fun operation hmem => by simp [hgroup operation hmem]]
    rfl

lemma InOrder.processInTransaction (htxn : s.activeTxns entry.sessionId = some group)
    (hgroup : entry.opType = .txnCommit → s.inFuzzyRegion = false ∧
      ∀ operation ∈ group.operations, covers target storeVersion operation = false)
    (hformed : entry.opType.hasKey = true ∨ entry.opType = .txnCommit ∨ entry.opType = .txnAbort) :
    InOrder target storeVersion { s.processInTransaction target group entry with
      readSoFar := s.readSoFar ++ [.entry entry] } := by
  rcases hformed with hkey | hcommit | habort
  · have heq : s.processInTransaction target group entry =
        s.pushOperation entry.sessionId group (.record entry) := by
      unfold ReplayState.processInTransaction
      cases hop : entry.opType <;> first | rfl | (rw [hop] at hkey; cases hkey)
    rw [heq]
    refine hs.next _ hs.ok rfl hs.noMarkers hs.noGroups rfl (hs.session_push htxn hkey)
      (others_of_entry entry) ?_ ?_
    · rw [openTxn_snoc _ (isTxnMarker_of_hasKey hkey _), hs.openTxn_of_some htxn]
      simp [operationOf]
    · rw [doneAt, if_neg (not_txn_of_hasKey hkey).2.1]
      simp [hs.openTxn_of_some htxn, pushOperation, operations]
  · obtain ⟨hfuzzy, hfresh⟩ := hgroup hcommit
    have heq : s.processInTransaction target group entry =
        (s.clearSessionTxn entry.sessionId).processTransactionGroup target group := by
      simp [ReplayState.processInTransaction, hcommit, hfuzzy]
    rw [heq]
    exact hs.commit htxn hcommit hfresh
  · have heq : s.processInTransaction target group entry = s.clearSessionTxn entry.sessionId := by
      simp [ReplayState.processInTransaction, habort]
    rw [heq]
    refine hs.next none hs.ok rfl hs.noMarkers hs.noGroups rfl (by rintro _ ⟨⟩)
      (others_of_entry entry) (openTxn_snoc_of_end _ (.inr habort)).symm ?_
    simp [doneAt, habort, hasKey, isFlush,
      clearSessionTxn, operations]

/-- Nothing waits for the end marker. -/
lemma InOrder.processCheckpointEndCommit_eq :
    s.processCheckpointEndCommit target = { s with inFuzzyRegion := false } := by
  unfold processCheckpointEndCommit
  split
  · rw [processFuzzyRegionOperations, hs.noMarkers]
    unfold unlessFailed
    split
    · simp
    · simp [clearFuzzyRegionBuffer, hs.noGroups]
  · next hfuzzy =>
    have hfalse : s.inFuzzyRegion = false := by simpa using hfuzzy
    rw [← hfalse]

lemma InOrder.processCheckpointStartCommit_eq :
    s.processCheckpointStartCommit = { s with inFuzzyRegion := true } := by
  unfold processCheckpointStartCommit
  split
  · simp [clearFuzzyRegionBuffer, hs.noMarkers, hs.noGroups]
  · rfl

section

variable (hreplica : target.asReplica = false)
include hreplica

/-- An operation that stands alone. -/
lemma InOrder.replayOpDispatch
    (htxn : s.activeTxns entry.sessionId = none) (hkey : entry.opType.hasKey = true) :
    InOrder target storeVersion { s.replayOpDispatch target entry with
      readSoFar := s.readSoFar ++ [.entry entry] } := by
  have hnone := hs.openTxn_of_none htxn
  have hleft : doneAt target storeVersion s.readSoFar (.entry entry) =
      [.record entry].filter (!covers target storeVersion ·) := by
    rw [doneAt, if_neg (not_txn_of_hasKey hkey).2.1]
    simp [hnone, hkey]
  rw [replayOpDispatch_of_recovery hreplica hs.version]
  refine hs.replays ?_ ?_ htxn (others_of_entry entry)
    (openTxn_snoc_of_none (isTxnMarker_of_hasKey hkey _) hnone)
  · rw [hleft]
    split
    · next hcovers =>
      rw [filter_cons_of_neg (by simp [hcovers])]
      exact .nil s
    · next hcovers =>
      rw [filter_cons_of_pos (by simp [hcovers])]
      exact .prepared entry entry.address
  · split
    · exact hs.ok
    · rw [replayOp, if_pos hkey]
      exact (error_update _ _).trans hs.ok

/-- Every entry of a session without a transaction is a marker, a flush or an operation on a key. -/
lemma InOrder.processAlone (htxn : s.activeTxns entry.sessionId = none)
    (hflush : entry.opType.isFlush = true → covers target storeVersion (.record entry) = false)
    (hformed : entry.opType ≠ .storedProcedure) :
    InOrder target storeVersion { s.processAlone target entry with
      readSoFar := s.readSoFar ++ [.entry entry] } := by
  have hnone := hs.openTxn_of_none htxn
  have hothers := others_of_entry entry
  unfold ReplayState.processAlone
  cases hop : entry.opType with
  | txnStart =>
    refine hs.next _ hs.ok rfl hs.noMarkers hs.noGroups rfl ?_ hothers ?_ ?_
    · rintro _ ⟨⟩
      exact ⟨rfl, forall_mem_nil _⟩
    · simp [openTxn, isTxnMarker, hop]
    · simp [doneAt, hop, hasKey, isFlush, addTransactionGroup, operations]
  | txnAbort =>
    refine hs.replays ?_ hs.ok htxn hothers (openTxn_snoc_of_end _ (.inr hop))
    simpa [doneAt, hop, hasKey, isFlush] using .nil s
  | txnCommit =>
    refine hs.replays ?_ hs.ok htxn hothers (openTxn_snoc_of_end _ (.inl hop))
    simpa [doneAt, hop, hnone] using .nil s
  | checkpointStartCommit =>
    rw [hs.processCheckpointStartCommit_eq]
    refine hs.alone hs.ok rfl hs.noMarkers hs.noGroups rfl htxn hothers
      (openTxn_snoc_of_none (by simp [isTxnMarker, hop]) hnone) ?_
    simp [doneAt, hop, hasKey, isFlush, operations]
  | checkpointEndCommit =>
    rw [hs.processCheckpointEndCommit_eq]
    refine hs.alone hs.ok rfl hs.noMarkers hs.noGroups rfl htxn hothers
      (openTxn_snoc_of_none (by simp [isTxnMarker, hop]) hnone) ?_
    simp [doneAt, hop, hasKey, isFlush, operations]
  | flushAll | flushDb | flushNs =>
    have hfresh := hflush (by rw [hop]; rfl)
    refine hs.replays ?_ hs.ok htxn hothers
      (openTxn_snoc_of_none (by simp [isTxnMarker, hop]) hnone)
    simpa [doneAt, hop, hnone, hfresh, isFlush] using .apply (.record entry)
  | storedProcedure => exact absurd hop hformed
  | _ => exact hs.replayOpDispatch hreplica htxn (by rw [hop]; rfl)

lemma InOrder.step
    {a : ReplayAction} (hformed : wellFormed s a = true) (ha : commitsAtOnce target s a = true)
    (h : ReplayAction.step target s a = some s') : InOrder target storeVersion s' := by
  obtain ⟨hfresh, hfuzzy⟩ := Bool.and_eq_true_iff.1 ha
  cases a with
  | checkpointed =>
    rw [ReplayAction.step, hreplica] at h
    cases h
  | read record =>
    rw [ReplayAction.step, hs.ok] at h
    cases h
    cases record with
    | commitFrame | frame =>
      refine ⟨hs.ok, hs.version, hs.noMarkers, hs.noGroups, hs.session, fun sessionId => ?_, ?_⟩
      · dsimp only [processAofRecordInternal]
        rw [openTxn_snoc _ rfl, hs.txns]
        simp [operationOf]
      · change s.operations = _
        rw [doneBy_snoc, hs.applied]
        simp [doneAt]
    | chunk => exact hs.processChunkedRecord hreplica hformed
    | entry entry =>
      unfold uncovered at hfresh
      rw [hs.version] at hfresh
      dsimp only [processAofRecordInternal, wellFormed, wellFormedAt] at hformed hfresh hfuzzy ⊢
      cases htxn : s.activeTxns entry.sessionId with
      | some =>
        rw [htxn] at hfresh hfuzzy
        rw [hs.openTxn_of_some htxn] at hformed
        refine hs.processInTransaction htxn (fun hcommit => ?_) ?_
        · exact ⟨by simpa [hcommit] using hfuzzy, by simpa [hcommit] using hfresh⟩
        · simpa [or_assoc] using hformed
      | none =>
        rw [htxn] at hfresh
        rw [hs.openTxn_of_none htxn] at hformed
        refine hs.processAlone hreplica htxn (fun hflush => ?_) ?_
        · simpa [hflush] using hfresh
        · simpa using hformed

end

end

lemma inOrder_start (vsr : VirtualSublogReplayState) :
    InOrder target storeVersion (.start storeVersion vsr) :=
  ⟨rfl, rfl, rfl, rfl, nofun, fun _ => rfl, rfl⟩

end ReplayState

/-- A recovery does what its log says, wherever the log ends, as long as no transaction is committed
between the two markers of a checkpoint and none that is committed, nor a flush, is covered. -/
theorem operations_eq_doneBy {target : ReplayTarget} (hreplica : target.asReplica = false)
    {storeVersion : Int64} {vsr : VirtualSublogReplayState} {s : ReplayState}
    (h : Machine.Reaches (ReplayAction.step target)
      (fun s a => wellFormed s a = true ∧ commitsAtOnce target s a = true)
      (.start storeVersion vsr) s) :
    s.error = none ∧ s.operations = doneBy target storeVersion s.readSoFar := by
  have hinv : s.InOrder target storeVersion := h.invariant (ReplayState.inOrder_start vsr)
    fun hi ha hs => hi.step hreplica ha.1 ha.2 hs
  exact ⟨hinv.ok, hinv.applied⟩

/-- A transaction between two entries of another session, which are done before it. -/
theorem operations_eq_doneBy_interleaved :
    ∃ s, Machine.Reaches (ReplayAction.step (recoveryFrom 0))
        (fun s a => wellFormed s a = true ∧ commitsAtOnce (recoveryFrom 0) s a = true)
        (.start 1 .new) s ∧
      s.applied.length = 2 ∧
      s.error = none ∧ s.operations = doneBy (recoveryFrom 0) 1 s.readSoFar := by
  obtain ⟨s, hs, hlen⟩ := Machine.exists_reaches_of_run (ReplayAction.step (recoveryFrom 0))
    (fun s a => wellFormed s a = true ∧ commitsAtOnce (recoveryFrom 0) s a = true) (.start 1 .new)
    [.read (entryAt .txnStart 1 10), .read (entryAt .storeRMW 1 20),
      .read (.entry ⟨.storeUpsert, 2, 1, none, 0, 30⟩), .read (entryAt .txnCommit 1 40)]
    (fun s => s.applied.length) 2 (by decide +kernel)
  exact ⟨s, hs, hlen, operations_eq_doneBy rfl hs⟩

/-- A transaction that is committed after the first marker of a checkpoint is lost if the log ends
before the second. -/
theorem operations_ne_doneBy_fuzzy :
    ¬ ∀ (target : ReplayTarget), target.asReplica = false →
      ∀ (storeVersion : Int64) (vsr : VirtualSublogReplayState) (s : ReplayState),
        Machine.Reaches (ReplayAction.step target) (fun s a => wellFormed s a = true)
          (.start storeVersion vsr) s →
        s.operations = doneBy target storeVersion s.readSoFar := by
  intro hall
  obtain ⟨s, hs, hlens⟩ := Machine.exists_reaches_of_run (ReplayAction.step (recoveryFrom 0))
    (fun s a => wellFormed s a = true) (.start 1 .new)
    [.read (.entry ⟨.checkpointStartCommit, -1, 1, none, 0, 10⟩), .read (entryAt .txnStart 1 20),
      .read (entryAt .storeUpsert 1 30), .read (entryAt .txnCommit 1 40)]
    (fun s => (s.operations.length, (doneBy (recoveryFrom 0) 1 s.readSoFar).length)) (0, 1)
    (by decide +kernel)
  obtain ⟨hnone, hone⟩ := Prod.mk.inj hlens
  rw [← hall (recoveryFrom 0) rfl 1 .new s hs, hnone] at hone
  cases hone

end Wedb.Aof
