import Mathlib.Data.List.Induction
import Wedb.Aof.Log
import Wedb.Key.Codec

/-!
# The tasks a transaction touches

The markers of a transaction say which replay tasks have records of it. They are computed from the
keys the transaction locks, as the commands give them; its records are routed by the keys of the
store, which have the namespace, the database and a tag in front
(`wtxn::transaction_manager`, `wnode::service::aof_sink`).
-/

namespace Wedb.Aof

open List

namespace AccessVector

def setBit (vector : AccessVector) (idx : Nat) : AccessVector :=
  ⟨ByteBits.set vector.bytes idx, by rw [ByteBits.length_set, vector.sized]⟩

@[simp] lemma bitIsSet_zero (idx : Nat) : zero.bitIsSet idx = false := by
  simp [bitIsSet, zero]

lemma bitIsSet_setBit_iff (vector : AccessVector) {i : Nat}
    (h : i / 8 < replayTaskAccessVectorBytes) (j : Nat) :
    (vector.setBit i).bitIsSet j = true ↔ vector.bitIsSet j = true ∨ i = j := by
  rw [bitIsSet, bitIsSet, Bool.and_eq_true, Bool.and_eq_true, setBit,
    ByteBits.isSet_set_iff (by rw [vector.sized]; exact h), decide_eq_true_iff]
  constructor
  · rintro ⟨hlt, hset | rfl⟩
    · exact .inl ⟨hlt, hset⟩
    · exact .inr rfl
  · rintro (⟨hlt, hset⟩ | rfl)
    · exact ⟨hlt, .inl hset⟩
    · exact ⟨h, .inr rfl⟩

end AccessVector

/-- A sublog and a task of it. -/
def GarnetLog.pairOf (log : GarnetLog) (hash : Int64) : Nat × Nat :=
  (log.getPhysicalSublogIdx hash, log.getReplayTaskIdx hash)

/-! ### The markers -/

/-- One key of the loop over the locked keys. -/
def markRouting (log : GarnetLog) (access : SublogAccess) (routingHash : Int64) : SublogAccess :=
  let physicalIdx := log.getPhysicalSublogIdx routingHash
  let replayIdx := log.getReplayTaskIdx routingHash
  let physicalVector := if physicalIdx < 64 then access.physicalVector ||| 2 ^ physicalIdx
    else access.physicalVector
  match access.virtualVectors[physicalIdx]? with
  | some vector =>
    if replayIdx / 8 < replayTaskAccessVectorBytes ∧ vector.bitIsSet replayIdx = false then
      ⟨physicalVector, access.virtualVectors.set physicalIdx (vector.setBit replayIdx),
        access.participantCount + 1⟩
    else ⟨physicalVector, access.virtualVectors, access.participantCount⟩
  | none => ⟨physicalVector, access.virtualVectors, access.participantCount⟩

/-- No log, or one that is replayed by one task, needs no vectors. -/
def computeSublogAccessVector (aofLog : Option GarnetLog) (routingHashes : List Int64) :
    SublogAccess :=
  match aofLog with
  | none => ⟨0, [], 0⟩
  | some log =>
    if log.physicalSublogCount ≤ 1 ∧ log.replayTaskCount ≤ 1 then ⟨0, [], 0⟩
    else routingHashes.foldl (markRouting log) ⟨0, replicate log.physicalSublogCount .zero, 0⟩

/-- The keys a transaction locks: those it watches and those of its commands. -/
structure TxnKeys where
  watchKeys : List (List UInt8)
  txnKeys : List (List UInt8)

def TxnKeys.all (keys : TxnKeys) : List (List UInt8) := keys.watchKeys ++ keys.txnKeys

/-- What `register_run_preamble` keeps for the markers: the hashes of the bare keys. -/
def TxnKeys.routingHashes (hash : List UInt8 → Int64) (keys : TxnKeys) : List Int64 :=
  keys.watchKeys.map hash ++ keys.txnKeys.map hash

/-- A record a transaction writes for one of its keys. -/
structure TxnWrite where
  ns : UInt64
  db : UInt64
  tag : Key.KeyTag
  userKey : List UInt8

/-- `physical_key`: the key the record has in the log. -/
def TxnWrite.physicalKey (write : TxnWrite) : List UInt8 :=
  (Key.encodeTaggedKey write.ns write.db write.tag write.userKey).asSlice

/-- The bits of a pair are set. -/
def SublogAccess.Marks (access : SublogAccess) (pair : Nat × Nat) : Prop :=
  access.physicalVector.testBit pair.1 = true ∧ (access.vector pair.1).bitIsSet pair.2 = true

/-- The markers of a transaction reach its records, and count the pairs they mark. -/
structure MarkersReach (hash : List UInt8 → Int64) (log : GarnetLog) (keys : TxnKeys)
    (writes : List TxnWrite) : Prop where
  marked : ∀ write ∈ writes, write.userKey ∈ keys.all →
    (computeSublogAccessVector (some log) (keys.routingHashes hash)).Marks
      (log.pairOf (hash write.physicalKey))
  counted : ∃ pairs : List (Nat × Nat), pairs.Nodup ∧
    (∀ pair, pair ∈ pairs ↔
      (computeSublogAccessVector (some log) (keys.routingHashes hash)).Marks pair) ∧
    pairs.length = (computeSublogAccessVector (some log) (keys.routingHashes hash)).participantCount

/-- A vector has a bit for so many tasks. -/
def maxReplayTasks : Nat := 8 * replayTaskAccessVectorBytes

/-! ### What is marked -/

section Marking

variable {log : GarnetLog}

/-- What has been marked after some keys. -/
structure Marking (log : GarnetLog) (hashes : List Int64) (access : SublogAccess) : Prop where
  sized : access.virtualVectors.length = log.physicalSublogCount
  physical : ∀ i, access.physicalVector.testBit i = true ↔
    ∃ h ∈ hashes, log.getPhysicalSublogIdx h = i
  virtual : ∀ pair : Nat × Nat, (access.vector pair.1).bitIsSet pair.2 = true ↔
    pair.2 < maxReplayTasks ∧ ∃ h ∈ hashes, log.pairOf h = pair
  counted : ∃ pairs : List (Nat × Nat), pairs.Nodup ∧
    (∀ pair, pair ∈ pairs ↔ (access.vector pair.1).bitIsSet pair.2 = true) ∧
    pairs.length = access.participantCount

lemma marking_nil (log : GarnetLog) :
    Marking log [] ⟨0, replicate log.physicalSublogCount .zero, 0⟩ := by
  have hvector (i : Nat) : SublogAccess.vector
      ⟨0, replicate log.physicalSublogCount .zero, 0⟩ i = .zero := by
    rw [SublogAccess.vector, getD_eq_getElem?_getD, getElem?_replicate]
    split <;> rfl
  refine ⟨length_replicate, by simp, by simp [hvector], [], nodup_nil, ?_, rfl⟩
  simp [hvector]

lemma vector_set {vectors : List AccessVector} {i : Nat} (hi : i < vectors.length)
    (vector : AccessVector) (physicalVector count j : Nat) :
    SublogAccess.vector ⟨physicalVector, vectors.set i vector, count⟩ j =
      if i = j then vector else SublogAccess.vector ⟨physicalVector, vectors, count⟩ j := by
  rw [SublogAccess.vector, SublogAccess.vector, getD_eq_getElem?_getD, getElem?_set]
  split
  · next hij =>
    rfl
  · rfl

variable {hashes : List Int64} {access : SublogAccess}

lemma Marking.physical_mark (hm : Marking log hashes access) (h : Int64) (i : Nat) :
    (if log.getPhysicalSublogIdx h < 64 then
        access.physicalVector ||| 2 ^ log.getPhysicalSublogIdx h
      else access.physicalVector).testBit i = true ↔
      ∃ h' ∈ hashes ++ [h], log.getPhysicalSublogIdx h' = i := by
  have hlt : log.getPhysicalSublogIdx h < 64 :=
    lt_of_lt_of_le (log.getPhysicalSublogIdx_lt h) log.physical_le
  rw [if_pos hlt, Nat.testBit_or, Bool.or_eq_true, hm.physical, Nat.testBit_two_pow,
    decide_eq_true_iff]
  simp only [mem_append, mem_singleton]
  constructor
  · rintro (⟨h', hmem, heq⟩ | heq)
    · exact ⟨h', .inl hmem, heq⟩
    · exact ⟨h, .inr rfl, heq⟩
  · rintro ⟨h', hmem | rfl, heq⟩
    · exact .inl ⟨h', hmem, heq⟩
    · exact .inr heq

/-- A key marks the pair it is routed to, if the vector has a bit for it. -/
lemma Marking.mark (hm : Marking log hashes access)
    (h : Int64) : Marking log (hashes ++ [h]) (markRouting log access h) := by
  have hlt : log.getPhysicalSublogIdx h < access.virtualVectors.length := by
    rw [hm.sized]
    exact log.getPhysicalSublogIdx_lt h
  have hget : access.virtualVectors[log.getPhysicalSublogIdx h]? =
      some (access.vector (log.getPhysicalSublogIdx h)) := by
    rw [SublogAccess.vector, getD_eq_getElem?_getD, getElem?_eq_getElem hlt]
    rfl
  have hbyte : log.getReplayTaskIdx h / 8 < replayTaskAccessVectorBytes ↔
      log.getReplayTaskIdx h < maxReplayTasks := by
    unfold maxReplayTasks replayTaskAccessVectorBytes
    omega
  -- the pairs to be marked with the key
  have hnew (pair : Nat × Nat) : (∃ h' ∈ hashes ++ [h], log.pairOf h' = pair) ↔
      (∃ h' ∈ hashes, log.pairOf h' = pair) ∨ log.pairOf h = pair := by
    simp only [mem_append, mem_singleton, or_and_right, exists_or, exists_eq_left]
  unfold markRouting
  simp only [hget]
  split
  · next hunset =>
    obtain ⟨hfits, hunset⟩ := hunset
    have hset (pair : Nat × Nat) : ((SublogAccess.mk
        (if log.getPhysicalSublogIdx h < 64 then
            access.physicalVector ||| 2 ^ log.getPhysicalSublogIdx h
          else access.physicalVector)
        (access.virtualVectors.set (log.getPhysicalSublogIdx h)
          ((access.vector (log.getPhysicalSublogIdx h)).setBit (log.getReplayTaskIdx h)))
        (access.participantCount + 1)).vector pair.1).bitIsSet pair.2 = true ↔
          (access.vector pair.1).bitIsSet pair.2 = true ∨ log.pairOf h = pair := by
      rw [vector_set hlt]
      split
      · next heq =>
        rw [AccessVector.bitIsSet_setBit_iff _ hfits, GarnetLog.pairOf, Prod.ext_iff]
        simp [heq]
      · next hne =>
        rw [GarnetLog.pairOf, Prod.ext_iff]
        simp only [hne, false_and, or_false]
        rfl
    refine ⟨by rw [length_set, hm.sized], hm.physical_mark h, fun pair => ?_, ?_⟩
    · rw [hset, hm.virtual, hnew]
      constructor
      · rintro (⟨hlt, hold⟩ | rfl)
        · exact ⟨hlt, .inl hold⟩
        · exact ⟨hbyte.1 hfits, .inr rfl⟩
      · rintro ⟨hlt, hold | hpair⟩
        · exact .inl ⟨hlt, hold⟩
        · exact .inr hpair
    · obtain ⟨pairs, hnodup, hmem, hlen⟩ := hm.counted
      refine ⟨log.pairOf h :: pairs, nodup_cons.2 ⟨?_, hnodup⟩, fun pair => ?_, by simp [hlen]⟩
      · rw [hmem]
        simp [GarnetLog.pairOf, hunset]
      · rw [hset, mem_cons, hmem, eq_comm, or_comm]
  · next hset =>
    refine ⟨hm.sized, hm.physical_mark h, fun pair => ?_, hm.counted⟩
    rw [hnew]
    constructor
    · intro hbit
      obtain ⟨hlt, hold⟩ := (hm.virtual pair).1 hbit
      exact ⟨hlt, .inl hold⟩
    · rintro ⟨hlt, hold | rfl⟩
      · exact (hm.virtual pair).2 ⟨hlt, hold⟩
      · -- the bit was there already
        exact Bool.not_eq_false _ ▸ fun hunset => hset ⟨hbyte.2 hlt, hunset⟩

lemma marking_foldl (log : GarnetLog) (hashes : List Int64) :
    Marking log hashes (hashes.foldl (markRouting log)
      ⟨0, replicate log.physicalSublogCount .zero, 0⟩) := by
  induction hashes using reverseRecOn with
  | nil => exact marking_nil log
  | append_singleton hashes h ih =>
    rw [foldl_append]
    exact ih.mark h

lemma Marking.marks_iff (hm : Marking log hashes access) (pair : Nat × Nat) :
    access.Marks pair ↔ pair.2 < maxReplayTasks ∧ ∃ h ∈ hashes, log.pairOf h = pair := by
  rw [SublogAccess.Marks, hm.virtual, hm.physical]
  constructor
  · exact fun h => h.2
  · rintro ⟨hlt, h, hmem, rfl⟩
    exact ⟨⟨h, hmem, rfl⟩, hlt, h, hmem, rfl⟩

/-- In a topology with more than one task the markers are those of the bare keys. -/
lemma marking_computeSublogAccessVector (hmany : log.usingSingleLog = false)
    (hashes : List Int64) : Marking log hashes (computeSublogAccessVector (some log) hashes) := by
  have hmore : ¬ (log.physicalSublogCount ≤ 1 ∧ log.replayTaskCount ≤ 1) := by
    have := log.physical_pos
    have := log.replay_pos
    simp only [GarnetLog.usingSingleLog, Bool.and_eq_false_iff, decide_eq_false_iff_not] at hmany
    omega
  rw [computeSublogAccessVector, if_neg hmore]
  exact marking_foldl log hashes

end Marking

/-- The markers of a transaction reach its records exactly when the key of each record is routed
where a bare key of the transaction is, to a task that the vectors have a bit for. -/
theorem markersReach_iff (hash : List UInt8 → Int64) {log : GarnetLog}
    (hmany : log.usingSingleLog = false) (keys : TxnKeys) (writes : List TxnWrite) :
    MarkersReach hash log keys writes ↔ ∀ write ∈ writes, write.userKey ∈ keys.all →
      log.getReplayTaskIdx (hash write.physicalKey) < maxReplayTasks ∧
        ∃ key ∈ keys.all, log.pairOf (hash key) = log.pairOf (hash write.physicalKey) := by
  have hmarking := marking_computeSublogAccessVector hmany (keys.routingHashes hash)
  have hkeys (pair : Nat × Nat) : (∃ h ∈ keys.routingHashes hash, log.pairOf h = pair) ↔
      ∃ key ∈ keys.all, log.pairOf (hash key) = pair := by
    rw [TxnKeys.routingHashes, TxnKeys.all, ← map_append]
    simp only [mem_map, exists_exists_and_eq_and]
  have hmarks (write : TxnWrite) :
      (computeSublogAccessVector (some log) (keys.routingHashes hash)).Marks
        (log.pairOf (hash write.physicalKey)) ↔
      log.getReplayTaskIdx (hash write.physicalKey) < maxReplayTasks ∧
        ∃ key ∈ keys.all, log.pairOf (hash key) = log.pairOf (hash write.physicalKey) := by
    rw [hmarking.marks_iff, hkeys]
    rfl
  constructor
  · intro h write hwrite hkey
    exact (hmarks write).1 (h.marked write hwrite hkey)
  · intro h
    refine ⟨fun write hwrite hkey => (hmarks write).2 (h write hwrite hkey), ?_⟩
    obtain ⟨pairs, hnodup, hmem, hlen⟩ := hmarking.counted
    refine ⟨pairs, hnodup, fun pair => ?_, hlen⟩
    rw [hmem, hmarking.virtual, hmarking.marks_iff]

/-- Two sublogs with one task each. -/
def twoSublogs : GarnetLog := ⟨2, 1, 20, 2 ^ 20, by decide, by decide, Nat.one_pos⟩

/-- A transaction that writes the string under one key, in database 0 of namespace 0. -/
def oneKey : TxnKeys := ⟨[], [[1]]⟩

def oneWrite : TxnWrite := ⟨0, 0, .string, [1]⟩

theorem markersReach_oneKey : MarkersReach (fun _ => 7) twoSublogs oneKey [oneWrite] :=
  (markersReach_iff (fun _ => 7) (by decide) oneKey [oneWrite]).2 (by decide)

/-- A hash that looks at the length only: the bare key has one byte, that of the record four. -/
theorem not_markersReach_oneKey :
    ¬ ∀ (hash : List UInt8 → Int64) (log : GarnetLog) (keys : TxnKeys) (writes : List TxnWrite),
      log.usingSingleLog = false → MarkersReach hash log keys writes := by
  intro h
  have hmarked := (h (fun key => .ofNat key.length) twoSublogs oneKey [oneWrite]
    (by decide)).marked oneWrite (mem_singleton_self _) (by decide)
  exact absurd hmarked.1 (by decide)

end Wedb.Aof
