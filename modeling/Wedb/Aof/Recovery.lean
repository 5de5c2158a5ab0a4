import Mathlib.Data.List.Basic
import Wedb.Lib.Machine
import Wedb.Aof.Replay

/-!
# Recovery from the append-only file

A recovery replays the log over a store that has been restored from a checkpoint. What the
checkpoint covers must not be done again: an entry that stands alone is compared with the version of
the store and with the address the checkpoint covers, but the operations of a transaction are
replayed as they are. And a commit between the two markers of a checkpoint waits for the end marker,
in a recovery too: there it comes too late, or never if the log ends before.
-/

namespace Wedb.Aof

open List

/-- What a checkpoint of this version has done already. Of a record in several frames only the
version is known. -/
def covers (target : ReplayTarget) (storeVersion : Int64) : ReplayOperation → Bool
  | .record entry => entry.address < target.aofFloor || entry.storeVersion < storeVersion
  | .chunk acc _ => acc.storeVersion < storeVersion

/-- A commit is for a transaction of which the checkpoint has done nothing, and a flush comes after
the checkpoint. -/
def uncovered (target : ReplayTarget) (s : ReplayState) : ReplayAction → Bool
  | .read (.entry entry) =>
    match s.activeTxns entry.sessionId with
    | some group =>
      entry.opType ≠ .txnCommit || group.operations.all (!covers target s.storeVersion ·)
    | none => !entry.opType.isFlush || !covers target s.storeVersion (.record entry)
  | _ => true

variable {operations : List ReplayOperation} {group : TransactionGroup}

namespace ReplayState

variable {target : ReplayTarget} {storeVersion : Int64} {s s' : ReplayState}

/-! ### Nothing is done twice -/

/-- Nothing that the checkpoint covers has gone to the store or waits for the end marker. -/
structure Fresh (target : ReplayTarget) (storeVersion : Int64) (s : ReplayState) : Prop where
  version : s.storeVersion = storeVersion
  applied : ∀ operation ∈ s.operations, covers target storeVersion operation = false
  markers : ∀ operation ∈ s.fuzzyRegionOps,
    ∃ entry, operation = .record entry ∧ entry.opType = .txnCommit
  groups : ∀ group ∈ s.txnGroupBuffer, ∀ operation ∈ group.operations,
    covers target storeVersion operation = false

section

variable (hs : Fresh target storeVersion s)
include hs

lemma Fresh.replays (h : Replays s operations s')
    (hfresh : ∀ operation ∈ operations, covers target storeVersion operation = false) :
    Fresh target storeVersion s' := by
  obtain ⟨done, heq, hpre, -⟩ := h.done
  refine ⟨?_, ?_, ?_, ?_⟩
  · rw [h.frame]
    exact hs.version
  · intro operation hmem
    rw [heq] at hmem
    rcases mem_append.1 hmem with hold | hnew
    · exact hs.applied operation hold
    · exact hfresh operation (hpre.subset hnew)
  · rw [h.frame]
    exact hs.markers
  · rw [h.frame]
    exact hs.groups

/-- Which transactions are open does not matter. -/
lemma Fresh.withTxns (activeTxns : Int32 → Option TransactionGroup) :
    Fresh target storeVersion { s with activeTxns := activeTxns } :=
  ⟨hs.version, hs.applied, hs.markers, hs.groups⟩

lemma Fresh.fail (error : AofReplayError) : Fresh target storeVersion (s.fail error) :=
  ⟨hs.version, hs.applied, hs.markers, hs.groups⟩

lemma Fresh.clearFuzzyRegionBuffer : Fresh target storeVersion s.clearFuzzyRegionBuffer :=
  ⟨hs.version, hs.applied, forall_mem_nil _, forall_mem_nil _⟩

lemma Fresh.processTransactionGroup (hok : s.error = none)
    (hgroup : ∀ operation ∈ group.operations, covers target storeVersion operation = false) :
    Fresh target storeVersion (s.processTransactionGroup target group) :=
  (hs.replays (.foldl group.startSequenceNumber group.operations hok) hgroup).withTxns _

lemma Fresh.processFuzzyRegionTransactionGroup (hok : s.error = none) :
    Fresh target storeVersion (s.processFuzzyRegionTransactionGroup target) := by
  unfold ReplayState.processFuzzyRegionTransactionGroup
  split
  · exact hs
  · next group rest hbuffer =>
    have hrest : Fresh target storeVersion { s with txnGroupBuffer := rest } :=
      ⟨hs.version, hs.applied, hs.markers,
        fun g hg => hs.groups g (by rw [hbuffer]; exact mem_cons_of_mem _ hg)⟩
    exact hrest.processTransactionGroup hok (hs.groups group (by rw [hbuffer]; exact mem_cons_self))

/-- The end marker replays what waits: in a recovery that is commits. -/
lemma Fresh.foldl_processFuzzyRegionOperation
    (hmarkers : ∀ operation ∈ operations,
      ∃ entry, operation = .record entry ∧ entry.opType = .txnCommit) :
    Fresh target storeVersion (operations.foldl (fun s operation =>
      s.unlessFailed fun s => s.processFuzzyRegionOperation target operation) s) := by
  induction operations generalizing s with
  | nil => exact hs
  | cons operation operations ih =>
    rw [foldl_cons]
    refine ih ?_ fun other hother => hmarkers other (mem_cons_of_mem _ hother)
    obtain ⟨entry, rfl, hcommit⟩ := hmarkers operation mem_cons_self
    unfold unlessFailed
    split
    · exact hs
    · next hok =>
      dsimp only [processFuzzyRegionOperation]
      rw [if_pos hcommit]
      exact hs.processFuzzyRegionTransactionGroup (by simpa using hok)

lemma Fresh.processCheckpointStartCommit :
    Fresh target storeVersion s.processCheckpointStartCommit := by
  unfold ReplayState.processCheckpointStartCommit
  split
  · exact ⟨hs.version, hs.applied, forall_mem_nil _, forall_mem_nil _⟩
  · exact ⟨hs.version, hs.applied, hs.markers, hs.groups⟩

lemma Fresh.processCheckpointEndCommit :
    Fresh target storeVersion (s.processCheckpointEndCommit target) := by
  unfold ReplayState.processCheckpointEndCommit
  split
  · have htaken : Fresh target storeVersion
        { s with inFuzzyRegion := false, fuzzyRegionOps := [] } :=
      ⟨hs.version, hs.applied, forall_mem_nil _, hs.groups⟩
    have hdone : Fresh target storeVersion
        ({ s with inFuzzyRegion := false }.processFuzzyRegionOperations target) :=
      htaken.foldl_processFuzzyRegionOperation hs.markers
    unfold unlessFailed
    split
    · exact hdone
    · exact hdone.clearFuzzyRegionBuffer
  · exact hs

omit hs in
lemma error_update (keyHash sequenceNumber : Int64) :
    (s.updateVirtualSublogKeySequenceNumber target keyHash sequenceNumber).error = s.error := by
  unfold updateVirtualSublogKeySequenceNumber
  split <;> rfl

omit hs in
lemma storeVersion_update (keyHash sequenceNumber : Int64) :
    (s.updateVirtualSublogKeySequenceNumber target keyHash sequenceNumber).storeVersion =
      s.storeVersion := by
  unfold updateVirtualSublogKeySequenceNumber
  split <;> rfl

lemma Fresh.processInTransaction (hok : s.error = none)
    {entry : ReplayEntry}
    (hgroup : entry.opType = .txnCommit →
      ∀ operation ∈ group.operations, covers target storeVersion operation = false) :
    Fresh target storeVersion (s.processInTransaction target group entry) := by
  unfold ReplayState.processInTransaction
  split
  · exact hs.fail _
  · exact hs.withTxns _
  · next hcommit =>
    have hcleared : Fresh target storeVersion (s.clearSessionTxn entry.sessionId) := hs.withTxns _
    split
    · refine ⟨hs.version, hs.applied, ?_, ?_⟩
      · intro operation hmem
        rcases mem_append.1 hmem with hold | hnew
        · exact hs.markers operation hold
        · exact ⟨entry, mem_singleton.1 hnew, hcommit⟩
      · intro g hmem
        rcases mem_append.1 hmem with hold | hnew
        · exact hs.groups g hold
        · obtain rfl := mem_singleton.1 hnew
          exact hgroup hcommit
    · exact hcleared.processTransactionGroup hok (hgroup hcommit)
  · exact hs.fail _
  · exact hs.withTxns _

variable (hreplica : target.asReplica = false)
include hreplica

omit hs in
/-- In a recovery an entry that stands alone is passed over just if it is covered. -/
lemma shouldSkipRecord_of_recovery (hversion : s.storeVersion = storeVersion) (entry : ReplayEntry) :
    s.shouldSkipRecord target entry = (covers target storeVersion (.record entry), s) := by
  subst hversion
  unfold shouldSkipRecord covers
  by_cases hfloor : entry.address < target.aofFloor <;> simp [hreplica, hfloor]

omit hs in
lemma shouldSkipRecordChunk_of_recovery (hversion : s.storeVersion = storeVersion)
    (acc : ChunkedAccumulator) (address : Int64) :
    s.shouldSkipRecordChunk target acc address =
      (covers target storeVersion (.chunk acc address), s) := by
  subst hversion
  simp [shouldSkipRecordChunk, covers, hreplica]

omit hs in
/-- An entry that stands alone either does nothing, being covered, or goes to the store. -/
lemma replayOpDispatch_of_recovery (hversion : s.storeVersion = storeVersion) (entry : ReplayEntry) :
    s.replayOpDispatch target entry = if covers target storeVersion (.record entry) then s
      else (s.prepareKey target entry entry.address).replayOp entry := by
  unfold replayOpDispatch
  rw [shouldSkipRecord_of_recovery hreplica hversion]
  cases covers target storeVersion (.record entry) <;> rfl

omit hs in
/-- The same for a record in several frames; only the sketch has been raised for one that is
covered. -/
lemma replayOpDispatchChunk_of_recovery (hversion : s.storeVersion = storeVersion)
    (acc : ChunkedAccumulator) (address : Int64) :
    ∃ raised, raised.error = s.error ∧
      (∀ operations s', Replays raised operations s' → Replays s operations s') ∧
      s.replayOpDispatchChunk target acc address =
        if covers target storeVersion (.chunk acc address) then raised
        else raised.replayChunk acc address := by
  refine ⟨s.updateVirtualSublogKeySequenceNumber target acc.keyHash
    (ReplayOperation.chunk acc address).number, error_update _ _, fun _ _ h => .update _ _ h, ?_⟩
  unfold replayOpDispatchChunk
  dsimp only
  rw [shouldSkipRecordChunk_of_recovery hreplica ((storeVersion_update _ _).trans hversion)]
  cases covers target storeVersion (.chunk acc address) <;> rfl

lemma Fresh.processChunkedRecord (acc : ChunkedAccumulator) (address : Int64) :
    Fresh target storeVersion (s.processChunkedRecord target acc address) := by
  unfold ReplayState.processChunkedRecord
  split
  · exact hs.withTxns _
  · obtain ⟨raised, -, hraised, heq⟩ :=
      replayOpDispatchChunk_of_recovery hreplica hs.version acc address
    rw [heq]
    split
    · exact hs.replays (hraised _ _ (.nil _)) (forall_mem_nil _)
    · next hcovers =>
      refine hs.replays (hraised _ _ (.replayChunk acc address)) ?_
      simpa using hcovers

lemma Fresh.replayOpDispatch (entry : ReplayEntry) :
    Fresh target storeVersion (s.replayOpDispatch target entry) := by
  rw [replayOpDispatch_of_recovery hreplica hs.version]
  split
  · exact hs
  · next hcovers =>
    refine hs.replays (.prepared entry entry.address) ?_
    simpa using hcovers

lemma Fresh.processAlone {entry : ReplayEntry}
    (hflush : entry.opType.isFlush = true → covers target storeVersion (.record entry) = false) :
    Fresh target storeVersion (s.processAlone target entry) := by
  unfold ReplayState.processAlone
  split
  · exact hs.withTxns _
  · exact hs
  · exact hs
  · exact hs.processCheckpointStartCommit
  · exact hs.processCheckpointEndCommit
  iterate 3
    next hop =>
      refine hs.replays (.apply _) ?_
      simpa using hflush (by rw [hop]; rfl)
  · exact hs.replayOpDispatch hreplica entry

lemma Fresh.step {a : ReplayAction} (ha : uncovered target s a = true)
    (h : ReplayAction.step target s a = some s') : Fresh target storeVersion s' := by
  cases a with
  | checkpointed =>
    rw [ReplayAction.step, hreplica] at h
    cases h
  | read record =>
    simp only [ReplayAction.step] at h
    split at h
    · cases h
    · next herror =>
      have hok : s.error = none := by simpa using herror
      cases h
      have hprocessed : Fresh target storeVersion (s.processAofRecordInternal target record) := by
        cases record with
        | commitFrame | frame => exact hs
        | chunk acc address => exact hs.processChunkedRecord hreplica acc address
        | entry entry =>
          unfold processAofRecordInternal
          unfold uncovered at ha
          rw [hs.version] at ha
          dsimp only at ha ⊢
          cases htxn : s.activeTxns entry.sessionId with
          | some =>
            rw [htxn] at ha
            refine hs.processInTransaction hok fun hcommit => ?_
            simpa [hcommit] using ha
          | none =>
            rw [htxn] at ha
            refine hs.processAlone hreplica fun hflush => ?_
            simpa [hflush] using ha
      exact ⟨hprocessed.version, hprocessed.applied, hprocessed.markers, hprocessed.groups⟩

end

lemma fresh_start (vsr : VirtualSublogReplayState) :
    Fresh target storeVersion (.start storeVersion vsr) :=
  ⟨rfl, forall_mem_nil _, forall_mem_nil _, forall_mem_nil _⟩

end ReplayState

/-- A recovery does nothing that its checkpoint covers, as long as the transactions that are
committed and the databases that are flushed are not covered. -/
theorem not_covers_of_recovery {target : ReplayTarget} (hreplica : target.asReplica = false)
    {storeVersion : Int64} {vsr : VirtualSublogReplayState} {s : ReplayState}
    (h : Machine.Reaches (ReplayAction.step target) (fun s a => uncovered target s a = true)
      (.start storeVersion vsr) s) :
    ∀ operation ∈ s.operations, covers target storeVersion operation = false := by
  have hfresh : s.Fresh target storeVersion := h.invariant (ReplayState.fresh_start vsr)
    fun hi ha hs => hi.step hreplica ha hs
  exact hfresh.applied

/-! ### Transactions that are covered -/

/-- The target of a recovery whose checkpoint covers the addresses below this one. -/
def recoveryFrom (aofFloor : Int64) : ReplayTarget := ⟨false, false, aofFloor⟩

/-- An entry of session 1. -/
def entryAt (opType : AofEntryType) (storeVersion address : Int64) : LogRecord :=
  .entry ⟨opType, 1, storeVersion, none, 0, address⟩

/-- A recovery that passes over an old entry, and then commits a transaction of its own version. -/
theorem not_covers_of_recovery_newTxn :
    ∃ s, Machine.Reaches (ReplayAction.step (recoveryFrom 100))
        (fun s a => uncovered (recoveryFrom 100) s a = true) (.start 2 .new) s ∧
      s.applied.length = 1 ∧
      ∀ operation ∈ s.operations, covers (recoveryFrom 100) 2 operation = false := by
  obtain ⟨s, hs, hlen⟩ := Machine.exists_reaches_of_run (ReplayAction.step (recoveryFrom 100))
    (fun s a => uncovered (recoveryFrom 100) s a = true) (.start 2 .new)
    [.read (entryAt .storeUpsert 1 50), .read (entryAt .txnStart 2 110),
      .read (entryAt .storeUpsert 2 120), .read (entryAt .txnCommit 2 130)]
    (fun s => s.applied.length) 1 (by decide +kernel)
  exact ⟨s, hs, hlen, not_covers_of_recovery rfl hs⟩

/-- A transaction of the version before, below the address that the checkpoint covers, is done
again. -/
theorem covers_of_recovery_oldTxn :
    ¬ ∀ (target : ReplayTarget), target.asReplica = false →
      ∀ (storeVersion : Int64) (vsr : VirtualSublogReplayState) (s : ReplayState),
        Machine.Reachable (ReplayAction.step target) (.start storeVersion vsr) s →
        ∀ operation ∈ s.operations, covers target storeVersion operation = false := by
  intro hall
  obtain ⟨s, hs, hcovers⟩ := Machine.exists_reachable_of_run
    (ReplayAction.step (recoveryFrom 100)) (.start 2 .new)
    [.read (entryAt .txnStart 1 10), .read (entryAt .storeRMW 1 20),
      .read (entryAt .txnCommit 1 30)]
    (fun s => s.operations.map (covers (recoveryFrom 100) 2)) [true] (by decide +kernel)
  have hnone := hall (recoveryFrom 100) rfl 2 .new s hs
  have hmem : true ∈ s.operations.map (covers (recoveryFrom 100) 2) := by
    rw [hcovers]
    exact mem_singleton_self _
  obtain ⟨operation, hoperation, htrue⟩ := mem_map.1 hmem
  rw [hnone operation hoperation] at htrue
  cases htrue

end Wedb.Aof
