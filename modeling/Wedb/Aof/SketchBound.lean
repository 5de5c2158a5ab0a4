import Wedb.Aof.Recovery

/-!
# The sketch is ahead of the store

A reader on a replica takes the number of the state it has seen of a key from the sketch. That is
safe as long as the sketch is at least the number of an operation when the operation becomes visible.
For an entry that stands alone the sketch is raised first; an entry of a transaction without a number
of its own raises it only to the number of the start of the transaction, one from the fuzzy region
to nothing, and a record in several frames raises nothing when it is in a transaction.
-/

namespace Wedb.Aof

open List ReplayOperation

/-- An operation on a key, unlike a flush. -/
def ReplayOperation.hasKey : ReplayOperation → Bool
  | record entry => entry.opType.hasKey
  | chunk _ _ => true

/-- An operation that has been kept back has a number that the replay will raise the sketch to, or
that the sketch has reached. -/
def raisedBy (s : ReplayState) (fallback : Int64) (operation : ReplayOperation) : Bool :=
  operation.number ≤ s.vsr.getKeySequenceNumber operation.keyHash ||
    match operation with
    | .record entry => entry.number ≤ entry.sequenceNumber.getD fallback
    | .chunk _ _ => false

/-- The same for what waits for the end marker; the chunks there have raised the sketch. -/
def fuzzyRaisedBy (s : ReplayState) : ReplayOperation → Bool
  | .record entry => entry.opType = .txnCommit || raisedBy s 0 (.record entry)
  | .chunk _ _ => true

/-- What is replayed later than it is read is raised by then. -/
def raises (s : ReplayState) : ReplayAction → Bool
  | .read (.entry entry) =>
    match s.activeTxns entry.sessionId with
    | some group => entry.opType ≠ .txnCommit || s.inFuzzyRegion ||
        group.operations.all (raisedBy s group.startSequenceNumber)
    | none => entry.opType ≠ .checkpointEndCommit || !s.inFuzzyRegion ||
        (s.fuzzyRegionOps.all (fuzzyRaisedBy s) && s.txnGroupBuffer.all fun group =>
          group.operations.all (raisedBy s group.startSequenceNumber))
  | _ => true

variable {operations : List ReplayOperation} {group : TransactionGroup}

namespace ReplayState

variable {target : ReplayTarget} {s s' : ReplayState}

/-- The sketch was ahead of every operation that has gone to the store, and is ahead of the chunks
that wait. -/
structure Ahead (s : ReplayState) : Prop where
  applied : ∀ done ∈ s.applied, done.operation.hasKey = true →
    done.operation.number ≤ done.sketchValue
  chunks : ∀ acc address, .chunk acc address ∈ s.fuzzyRegionOps →
    (chunk acc address).number ≤ s.vsr.getKeySequenceNumber acc.keyHash

/-- The sketch has not gone back. -/
def Grown (s s' : ReplayState) : Prop :=
  ∀ hash, s.vsr.getKeySequenceNumber hash ≤ s'.vsr.getKeySequenceNumber hash

lemma Grown.refl (s : ReplayState) : Grown s s := fun _ => Int64.le_refl _

variable {fallback : Int64} {operation : ReplayOperation}

lemma Grown.raisedBy (h : Grown s s')
    (hraised : raisedBy s fallback operation = true) : raisedBy s' fallback operation = true := by
  simp only [Aof.raisedBy, Bool.or_eq_true, decide_eq_true_eq] at hraised ⊢
  exact hraised.imp_left fun hle => Int64.le_trans hle (h _)

lemma Grown.fuzzyRaisedBy (h : Grown s s')
    (hraised : fuzzyRaisedBy s operation = true) : fuzzyRaisedBy s' operation = true := by
  cases operation with
  | record =>
    simp only [fuzzyRaisedBy, Bool.or_eq_true] at hraised ⊢
    exact hraised.imp_right h.raisedBy
  | chunk => rfl

/-! ### Single operations -/

lemma Ahead.apply (hs : Ahead s) (h : operation.hasKey = true →
      operation.number ≤ s.vsr.getKeySequenceNumber operation.keyHash) :
    Ahead (s.apply operation) where
  applied := by
    intro done hmem
    rcases mem_append.1 hmem with hold | hnew
    · exact hs.applied done hold
    · obtain rfl := mem_singleton.1 hnew
      exact h
  chunks := hs.chunks

lemma Ahead.fail (hs : Ahead s) (error : AofReplayError) : Ahead (s.fail error) :=
  ⟨hs.applied, hs.chunks⟩

/-- Which transactions are open does not matter. -/
lemma Ahead.withTxns (hs : Ahead s) (activeTxns : Int32 → Option TransactionGroup) :
    Ahead { s with activeTxns := activeTxns } :=
  ⟨hs.applied, hs.chunks⟩

lemma grown_update (keyHash sequenceNumber : Int64) :
    Grown s (s.updateVirtualSublogKeySequenceNumber target keyHash sequenceNumber) := by
  have h : Replays s [] (s.updateVirtualSublogKeySequenceNumber target keyHash sequenceNumber) :=
    .update keyHash sequenceNumber (.nil _)
  exact h.sketch_le

lemma le_update (hmulti : target.multiLogEnabled = true) (keyHash sequenceNumber : Int64) :
    sequenceNumber ≤ (s.updateVirtualSublogKeySequenceNumber target keyHash
      sequenceNumber).vsr.getKeySequenceNumber keyHash := by
  rw [updateVirtualSublogKeySequenceNumber, if_pos hmulti]
  exact VirtualSublogReplayState.le_getKeySequenceNumber_update _ _ _

lemma Ahead.update (hs : Ahead s) (keyHash sequenceNumber : Int64) :
    Ahead (s.updateVirtualSublogKeySequenceNumber target keyHash sequenceNumber) := by
  have h : Replays s [] (s.updateVirtualSublogKeySequenceNumber target keyHash sequenceNumber) :=
    .update keyHash sequenceNumber (.nil _)
  refine ⟨?_, fun acc address hmem => ?_⟩
  · unfold updateVirtualSublogKeySequenceNumber
    split <;> exact hs.applied
  · rw [h.frame] at hmem
    exact Int64.le_trans (hs.chunks acc address hmem) (h.sketch_le _)

variable {entry : ReplayEntry}

lemma Ahead.replayOp (hs : Ahead s)
    (h : entry.number ≤ s.vsr.getKeySequenceNumber entry.keyHash) : Ahead (s.replayOp entry) := by
  unfold ReplayState.replayOp
  split
  · exact hs.apply fun _ => h
  · split
    · exact hs.fail _
    · exact hs.fail _

lemma Ahead.replayChunk (hs : Ahead s) {acc : ChunkedAccumulator} {address : Int64}
    (h : (chunk acc address).number ≤ s.vsr.getKeySequenceNumber acc.keyHash) :
    Ahead (s.replayChunk acc address) := by
  unfold ReplayState.replayChunk
  split
  · exact hs.apply fun _ => h
  · exact hs.fail _

lemma Ahead.replayOperation (hs : Ahead s) (hmulti : target.multiLogEnabled = true)
        (h : raisedBy s fallback operation = true) :
    Ahead (s.replayOperation target fallback operation) := by
  simp only [raisedBy, Bool.or_eq_true, decide_eq_true_eq] at h
  cases operation with
  | record entry =>
    refine (hs.update entry.keyHash (entry.sequenceNumber.getD fallback)).replayOp ?_
    rcases h with hreached | hraised
    · exact Int64.le_trans hreached (grown_update _ _ _)
    · exact Int64.le_trans (of_decide_eq_true hraised) (le_update hmulti _ _)
  | chunk =>
    exact hs.replayChunk (h.resolve_right Bool.false_ne_true)

/-! ### What has been kept back -/

section

variable (hs : Ahead s)
include hs

/-- Every group that waits is raised. -/
def GroupsRaised (s : ReplayState) : Prop :=
  ∀ group ∈ s.txnGroupBuffer, ∀ operation ∈ group.operations,
    raisedBy s group.startSequenceNumber operation = true

omit hs in
lemma GroupsRaised.mono (h : GroupsRaised s) (hgrown : Grown s s')
    (hsub : s'.txnGroupBuffer ⊆ s.txnGroupBuffer) : GroupsRaised s' :=
  fun group hgroup operation hoperation =>
    hgrown.raisedBy (h group (hsub hgroup) operation hoperation)

lemma Ahead.clearFuzzyRegionBuffer : Ahead s.clearFuzzyRegionBuffer :=
  ⟨hs.applied, fun _ _ hmem => absurd hmem not_mem_nil⟩

lemma Ahead.processCheckpointStartCommit : Ahead s.processCheckpointStartCommit := by
  unfold ReplayState.processCheckpointStartCommit
  split
  · exact ⟨hs.applied, hs.clearFuzzyRegionBuffer.chunks⟩
  · exact ⟨hs.applied, hs.chunks⟩

variable (hmulti : target.multiLogEnabled = true)
include hmulti

/-- The operations of a transaction, one after the other. -/
lemma Ahead.foldl (h : ∀ operation ∈ operations, raisedBy s fallback operation = true) :
    Ahead (operations.foldl (fun s operation =>
      s.unlessFailed fun s => s.replayOperation target fallback operation) s) := by
  induction operations generalizing s with
  | nil => exact hs
  | cons operation operations ih =>
    rw [foldl_cons]
    unfold unlessFailed
    split
    · exact ih hs fun other hother => h other (mem_cons_of_mem _ hother)
    · have hone : Replays s [operation] (s.replayOperation target fallback operation) :=
        .replayOperation fallback operation
      refine ih (hs.replayOperation hmulti (h operation mem_cons_self)) ?_
      intro other hother
      exact Grown.raisedBy hone.sketch_le (h other (mem_cons_of_mem _ hother))

lemma Ahead.processTransactionGroup
    (h : ∀ operation ∈ group.operations, raisedBy s group.startSequenceNumber operation = true) :
    Ahead (s.processTransactionGroup target group) :=
  (hs.foldl hmulti h).withTxns _

/-- One commit from the buffer. -/
lemma Ahead.processFuzzyRegionTransactionGroup (hok : s.error = none) (hgroups : GroupsRaised s) :
    Ahead (s.processFuzzyRegionTransactionGroup target) ∧
      Grown s (s.processFuzzyRegionTransactionGroup target) ∧
      (s.processFuzzyRegionTransactionGroup target).txnGroupBuffer ⊆ s.txnGroupBuffer := by
  unfold ReplayState.processFuzzyRegionTransactionGroup
  split
  · exact ⟨hs, .refl s, fun _ h => h⟩
  · next group rest hbuffer =>
    have hreplays : Replays { s with txnGroupBuffer := rest } group.operations
        ({ s with txnGroupBuffer := rest }.processTransactionGroupOperations target group) :=
      .foldl group.startSequenceNumber group.operations hok
    have hrest : Ahead { s with txnGroupBuffer := rest } := ⟨hs.applied, hs.chunks⟩
    refine ⟨?_, hreplays.sketch_le, ?_⟩
    · exact hrest.processTransactionGroup hmulti
        (hgroups group (by rw [hbuffer]; exact mem_cons_self))
    · change (processTransactionGroupOperations ..).txnGroupBuffer ⊆ _
      rw [hreplays.frame, hbuffer]
      exact subset_cons_self _ _

/-- The invariant of the loop over what waits for the end marker. -/
lemma Ahead.foldl_processFuzzyRegionOperation (hgroups : GroupsRaised s)
    (hchunks : ∀ acc address, .chunk acc address ∈ operations →
      (chunk acc address).number ≤ s.vsr.getKeySequenceNumber acc.keyHash)
    (h : ∀ operation ∈ operations, fuzzyRaisedBy s operation = true) :
    Ahead (operations.foldl (fun s operation =>
      s.unlessFailed fun s => s.processFuzzyRegionOperation target operation) s) := by
  induction operations generalizing s with
  | nil => exact hs
  | cons operation operations ih =>
    rw [foldl_cons]
    by_cases hok : s.error = none
    swap
    · have hfailed : s.error.isSome := Option.isSome_iff_ne_none.2 hok
      rw [unlessFailed, if_pos hfailed, foldl_unlessFailed_of_isSome hfailed]
      exact hs
    have hrun : s.unlessFailed (fun s => s.processFuzzyRegionOperation target operation) =
        s.processFuzzyRegionOperation target operation := by
      rw [unlessFailed, hok]
      rfl
    rw [hrun]
    -- what one operation does: the sketch grows and groups are only taken from the buffer
    have hone : Ahead (s.processFuzzyRegionOperation target operation) ∧
        Grown s (s.processFuzzyRegionOperation target operation) ∧
        (s.processFuzzyRegionOperation target operation).txnGroupBuffer ⊆ s.txnGroupBuffer := by
      have halone : raisedBy s 0 operation = true →
          Ahead (s.replayOperation target 0 operation) ∧
          Grown s (s.replayOperation target 0 operation) ∧
          (s.replayOperation target 0 operation).txnGroupBuffer ⊆ s.txnGroupBuffer := by
        intro hraised
        have hreplays : Replays s [operation] (s.replayOperation target 0 operation) :=
          .replayOperation 0 operation
        refine ⟨hs.replayOperation hmulti hraised, hreplays.sketch_le, ?_⟩
        rw [hreplays.frame]
        exact fun _ hmem => hmem
      cases operation with
      | record entry =>
        have hentry := h (.record entry) mem_cons_self
        simp only [fuzzyRaisedBy, Bool.or_eq_true, decide_eq_true_eq] at hentry
        dsimp only [processFuzzyRegionOperation]
        split
        · exact hs.processFuzzyRegionTransactionGroup hmulti hok hgroups
        · next hcommit => exact halone (hentry.resolve_left hcommit)
      | chunk acc address =>
        refine halone (Bool.or_eq_true_iff.2 (.inl (decide_eq_true ?_)))
        exact hchunks acc address mem_cons_self
    obtain ⟨hahead, hgrown, hsub⟩ := hone
    refine ih hahead (hgroups.mono hgrown hsub) (fun acc address hmem => ?_) fun other hother => ?_
    · exact Int64.le_trans (hchunks acc address (mem_cons_of_mem _ hmem)) (hgrown _)
    · exact hgrown.fuzzyRaisedBy (h other (mem_cons_of_mem _ hother))

lemma Ahead.processCheckpointEndCommit (h : s.inFuzzyRegion = true →
      (∀ operation ∈ s.fuzzyRegionOps, fuzzyRaisedBy s operation = true) ∧ GroupsRaised s) :
    Ahead (s.processCheckpointEndCommit target) := by
  unfold ReplayState.processCheckpointEndCommit
  split
  · next hfuzzy =>
    obtain ⟨hops, hgroups⟩ := h hfuzzy
    have htaken : Ahead { s with inFuzzyRegion := false, fuzzyRegionOps := [] } :=
      ⟨hs.applied, fun _ _ hmem => absurd hmem not_mem_nil⟩
    have hdone : Ahead ({ s with inFuzzyRegion := false }.processFuzzyRegionOperations target) :=
      htaken.foldl_processFuzzyRegionOperation hmulti hgroups hs.chunks hops
    unfold unlessFailed
    split
    · exact hdone
    · exact hdone.clearFuzzyRegionBuffer
  · exact hs

/-! ### Entries -/

lemma Ahead.replayOpDispatch (entry : ReplayEntry) : Ahead (s.replayOpDispatch target entry) := by
  -- an entry that is passed over is at most kept, and a record in the buffer claims nothing
  have hskip : Ahead (s.shouldSkipRecord target entry).2 := by
    unfold shouldSkipRecord
    split
    · split
      · refine ⟨hs.applied, fun acc address hmem => ?_⟩
        rcases mem_append.1 hmem with hold | hnew
        · exact hs.chunks acc address hold
        · cases mem_singleton.1 hnew
      · exact hs
    · split
      · exact hs
      · exact hs
  unfold ReplayState.replayOpDispatch
  split
  · next heq =>
    rw [heq] at hskip
    exact hskip
  · next heq =>
    rw [heq] at hskip
    exact (hskip.update _ _).replayOp (le_update hmulti _ _)

lemma Ahead.replayOpDispatchChunk (acc : ChunkedAccumulator) (address : Int64) :
    Ahead (s.replayOpDispatchChunk target acc address) := by
  have hraised : Ahead (s.updateVirtualSublogKeySequenceNumber target acc.keyHash
    (chunk acc address).number) := hs.update _ _
  have hle : (chunk acc address).number ≤
      (s.updateVirtualSublogKeySequenceNumber target acc.keyHash
        (chunk acc address).number).vsr.getKeySequenceNumber acc.keyHash :=
    le_update hmulti _ _
  unfold ReplayState.replayOpDispatchChunk
  dsimp only
  generalize s.updateVirtualSublogKeySequenceNumber target acc.keyHash
    (chunk acc address).number = raised at hraised hle ⊢
  -- a chunk that is kept has raised the sketch
  have hskip : Ahead (raised.shouldSkipRecordChunk target acc address).2 ∧
      (raised.shouldSkipRecordChunk target acc address).2.vsr = raised.vsr := by
    unfold shouldSkipRecordChunk
    split
    · split
      · refine ⟨⟨hraised.applied, fun other address' hmem => ?_⟩, rfl⟩
        rcases mem_append.1 hmem with hold | hnew
        · exact hraised.chunks other address' hold
        · obtain ⟨rfl, rfl⟩ := chunk.inj (mem_singleton.1 hnew)
          exact hle
      · exact ⟨hraised, rfl⟩
    · exact ⟨hraised, rfl⟩
  split
  · next heq =>
    rw [heq] at hskip
    exact hskip.1
  · next heq =>
    rw [heq] at hskip
    exact hskip.1.replayChunk (by rw [hskip.2]; exact hle)

lemma Ahead.processInTransaction
    (h : entry.opType = .txnCommit → s.inFuzzyRegion = false →
      ∀ operation ∈ group.operations, raisedBy s group.startSequenceNumber operation = true) :
    Ahead (s.processInTransaction target group entry) := by
  unfold ReplayState.processInTransaction
  split
  · exact hs.fail _
  · exact hs.withTxns _
  · next hcommit =>
    have hcleared : Ahead (s.clearSessionTxn entry.sessionId) := hs.withTxns _
    split
    · refine ⟨hs.applied, fun acc address hmem => ?_⟩
      rcases mem_append.1 hmem with hold | hnew
      · exact hs.chunks acc address hold
      · cases mem_singleton.1 hnew
    · next hfuzzy =>
      exact hcleared.processTransactionGroup hmulti (h hcommit (by simpa using hfuzzy))
  · exact hs.fail _
  · exact hs.withTxns _

lemma Ahead.processAlone (h : entry.opType = .checkpointEndCommit → s.inFuzzyRegion = true →
      (∀ operation ∈ s.fuzzyRegionOps, fuzzyRaisedBy s operation = true) ∧ GroupsRaised s) :
    Ahead (s.processAlone target entry) := by
  unfold ReplayState.processAlone
  split
  · exact hs.withTxns _
  · exact hs
  · exact hs
  · exact hs.processCheckpointStartCommit
  · next hend => exact hs.processCheckpointEndCommit hmulti (h hend)
  iterate 3
    next hop =>
      refine hs.apply fun hkey => ?_
      rw [hasKey, hop] at hkey
      cases hkey
  · exact hs.replayOpDispatch hmulti entry

lemma Ahead.step {a : ReplayAction}
    (ha : raises s a = true) (h : ReplayAction.step target s a = some s') : Ahead s' := by
  cases a with
  | checkpointed =>
    simp only [ReplayAction.step] at h
    split at h
    · cases h
      exact ⟨hs.applied, hs.chunks⟩
    · cases h
  | read record =>
    simp only [ReplayAction.step] at h
    split at h
    · cases h
    · cases h
      have hprocessed : Ahead (s.processAofRecordInternal target record) := by
        cases record with
        | commitFrame | frame => exact hs
        | chunk acc address =>
          dsimp only [processAofRecordInternal, processChunkedRecord]
          split
          · exact hs.withTxns _
          · exact hs.replayOpDispatchChunk hmulti acc address
        | entry entry =>
          dsimp only [processAofRecordInternal]
          unfold raises at ha
          dsimp only at ha
          cases htxn : s.activeTxns entry.sessionId with
          | some =>
            rw [htxn] at ha
            refine hs.processInTransaction hmulti fun hcommit hfuzzy => ?_
            simpa [hcommit, hfuzzy] using ha
          | none =>
            rw [htxn] at ha
            refine hs.processAlone hmulti fun hend hfuzzy => ?_
            simpa [hend, hfuzzy, GroupsRaised] using ha
      exact ⟨hprocessed.applied, hprocessed.chunks⟩

end

end ReplayState

/-- Where there are several replay tasks or sublogs, the sketch is ahead of every operation on a key
when it goes to the store, as long as what is replayed later than it is read is raised by then. -/
theorem number_le_sketchValue {target : ReplayTarget} (hmulti : target.multiLogEnabled = true)
    {storeVersion : Int64} {vsr : VirtualSublogReplayState} {s : ReplayState}
    (h : Machine.Reaches (ReplayAction.step target) (fun s a => raises s a = true)
      (.start storeVersion vsr) s) :
    ∀ done ∈ s.applied, done.operation.hasKey = true →
      done.operation.number ≤ done.sketchValue := by
  have hinit : (ReplayState.start storeVersion vsr).Ahead :=
    ⟨forall_mem_nil _, fun _ _ hmem => absurd hmem not_mem_nil⟩
  have hahead : s.Ahead := h.invariant hinit fun hi ha hs => hi.step hmulti ha hs
  exact hahead.applied

/-- Several replay tasks over one log, or several logs. -/
def replicaOfMany : ReplayTarget := ⟨true, true, 0⟩

/-- In a log whose entries have numbers a transaction raises the sketch to them. -/
theorem number_le_sketchValue_numbered :
    ∃ s, Machine.Reaches (ReplayAction.step replicaOfMany) (fun s a => raises s a = true)
        (.start 1 .new) s ∧
      s.applied.length = 1 ∧
      ∀ done ∈ s.applied, done.operation.hasKey = true →
        done.operation.number ≤ done.sketchValue := by
  obtain ⟨s, hs, hlen⟩ := Machine.exists_reaches_of_run (ReplayAction.step replicaOfMany)
    (fun s a => raises s a = true) (.start 1 .new)
    [.read (.entry ⟨.txnStart, 1, 1, some 5, 0, 10⟩),
      .read (.entry ⟨.storeUpsert, 1, 1, some 6, 0, 20⟩),
      .read (.entry ⟨.txnCommit, 1, 1, some 7, 0, 30⟩)]
    (fun s => s.applied.length) 1 (by decide +kernel)
  exact ⟨s, hs, hlen, number_le_sketchValue rfl hs⟩

/-- In a log without numbers it raises the sketch to the address of its start only. -/
theorem sketchValue_lt_number_unnumbered :
    ¬ ∀ (target : ReplayTarget), target.multiLogEnabled = true →
      ∀ (storeVersion : Int64) (vsr : VirtualSublogReplayState) (s : ReplayState),
        Machine.Reachable (ReplayAction.step target) (.start storeVersion vsr) s →
        ∀ done ∈ s.applied, done.operation.hasKey = true →
          done.operation.number ≤ done.sketchValue := by
  intro hall
  obtain ⟨s, hs, hdone⟩ := Machine.exists_reachable_of_run (ReplayAction.step replicaOfMany)
    (.start 1 .new)
    [.read (entryAt .txnStart 1 10), .read (entryAt .storeUpsert 1 20),
      .read (entryAt .txnCommit 1 30)]
    (fun s => s.applied.map fun done =>
      (done.operation.hasKey, done.operation.number, done.sketchValue)) [(true, 20, 10)]
    (by decide +kernel)
  have hmem : (true, (20 : Int64), (10 : Int64)) ∈ s.applied.map fun done =>
      (done.operation.hasKey, done.operation.number, done.sketchValue) := by
    rw [hdone]
    exact mem_singleton_self _
  obtain ⟨done, happlied, heq⟩ := mem_map.1 hmem
  obtain ⟨hkey, hnumbers⟩ := Prod.mk.inj heq
  obtain ⟨hnumber, hsketch⟩ := Prod.mk.inj hnumbers
  have hle := hall replicaOfMany rfl 1 .new s hs done happlied hkey
  rw [hnumber, hsketch] at hle
  exact absurd hle (by decide)

end Wedb.Aof
