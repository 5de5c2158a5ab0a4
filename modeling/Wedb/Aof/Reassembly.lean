import Wedb.Aof.Chunked

/-!
# What was cut comes back

The frames of one record, read in order among the frames of others, give the record back with the
last of them, and nothing before.
-/

namespace Wedb.Aof

open List AofChunkedRecordReader GarnetLog

/-- What a record is made of. A part that its kind does not have is empty. -/
structure Parts where
  opType : AofEntryType
  headerType : AofHeaderType
  sessionId : Int32
  storeVersion : Int64
  sequenceNumber : Int64
  keyHash : Int64
  key : List UInt8
  value : List UInt8
  input : List UInt8
  value_nil : opType.hasChunkValue = false → value = []
  input_nil : opType.hasChunkInput = false → input = []

variable {chunkHeader : AofChunkHeader}

namespace ChunkedAccumulator

variable {parts : Parts} {acc : ChunkedAccumulator} {k v i data rest : List UInt8}

/-- The accumulator has the parts but for what is left of each, and nothing is left of those in front
of the one it fills. -/
structure Lacks (parts : Parts) (acc : ChunkedAccumulator) (k v i : List UInt8) : Prop where
  opType : acc.opType = parts.opType
  headerType : acc.headerType = parts.headerType
  sessionId : acc.sessionId = parts.sessionId
  storeVersion : acc.storeVersion = parts.storeVersion
  sequenceNumber : acc.sequenceNumber = parts.sequenceNumber
  keyHash : acc.keyHash = parts.keyHash
  hasValue : acc.hasValue = parts.opType.hasChunkValue
  hasInput : acc.hasInput = parts.opType.hasChunkInput
  isComplete : acc.isComplete = false
  keyLength : acc.overflowKeyLength = parts.key.length
  valueLength : acc.overflowValueLength = parts.value.length
  inputLength : acc.inputLength = parts.input.length
  key : acc.key ++ k = parts.key
  value : acc.valueBytes ++ v = parts.value
  input : acc.input ++ i = parts.input
  valueLen : acc.valueLen = acc.valueBytes.length
  front : acc.currentComponent ≠ .key → k = []
  middle : acc.currentComponent = .input → v = []

/-- What is still to come. -/
def Expects (parts : Parts) (acc : ChunkedAccumulator) (rest : List UInt8) : Prop :=
  ∃ k v i, Lacks parts acc k v i ∧ k ++ (v ++ i) = rest

/-- What is left of the part being filled. -/
def left (acc : ChunkedAccumulator) (k v i : List UInt8) : List UInt8 :=
  match acc.currentComponent with
  | .key => k
  | .value => v
  | .input => i

section

variable (h : Lacks parts acc k v i)
include h

lemma Lacks.remaining : acc.capacity - acc.filled = (acc.left k v i).length := by
  have hkey := congrArg length h.key
  have hvalue := congrArg length h.value
  have hinput := congrArg length h.input
  simp only [length_append] at hkey hvalue hinput
  have hlens := And.intro h.keyLength (And.intro h.valueLength (And.intro h.inputLength h.valueLen))
  unfold capacity filled left
  cases acc.currentComponent <;> dsimp only <;> omega

lemma Lacks.value_nil (hno : acc.hasValue = false) : v = [] :=
  (append_eq_nil_iff.1 (h.value.trans (parts.value_nil (h.hasValue ▸ hno)))).2

lemma Lacks.input_nil (hno : acc.hasInput = false) : i = [] :=
  (append_eq_nil_iff.1 (h.input.trans (parts.input_nil (h.hasInput ▸ hno)))).2

/-- From a part of which nothing is left the reader goes on to the next. -/
lemma Lacks.next (hfull : acc.left k v i = []) (hrest : k ++ (v ++ i) ≠ []) :
    ∃ acc', acc.nextComponent = (true, acc') ∧ Lacks parts acc' k v i := by
  unfold left at hfull
  cases hcomponent : acc.currentComponent with
  | key =>
    rw [hcomponent] at hfull
    cases hvalue : acc.hasValue with
    | true =>
      exact ⟨{ acc with currentComponent := .value }, if_pos ⟨hcomponent, hvalue⟩,
        { h with front := fun _ => hfull, middle := nofun }⟩
    | false =>
      cases hinput : acc.hasInput with
      | true =>
        exact ⟨{ acc with currentComponent := .input },
          by rw [nextComponent, if_neg (by simp [hvalue]), if_pos ⟨by simp [hcomponent], hinput⟩],
          { h with front := fun _ => hfull, middle := fun _ => h.value_nil hvalue }⟩
      | false => simp [hfull, h.value_nil hvalue, h.input_nil hinput] at hrest
  | value =>
    rw [hcomponent] at hfull
    have hk := h.front (by simp [hcomponent])
    cases hinput : acc.hasInput with
    | true =>
      exact ⟨{ acc with currentComponent := .input },
        by rw [nextComponent, if_neg (by simp [hcomponent]), if_pos ⟨by simp [hcomponent], hinput⟩],
        { h with front := fun _ => hk, middle := fun _ => hfull }⟩
    | false => simp [hk, hfull, h.input_nil hinput] at hrest
  | input =>
    rw [hcomponent] at hfull
    simp [h.front (by simp [hcomponent]), h.middle hcomponent, hfull] at hrest

/-- Bytes that the part being filled has room for are the first of what is left of it. -/
lemma Lacks.push (hrest : k ++ (v ++ i) = data ++ rest)
    (hroom : data.length ≤ (acc.left k v i).length) : Expects parts (acc.push data) rest := by
  have hsplit {a b : List UInt8} (hab : a ++ b = data ++ rest) (hle : data.length ≤ a.length) :
      ∃ a', a = data ++ a' ∧ a' ++ b = rest := by
    obtain ⟨a', rfl⟩ := prefix_of_prefix_length_le ⟨rest, hab.symm⟩ (prefix_append a b) hle
    exact ⟨a', rfl, by simpa using hab⟩
  unfold left at hroom
  cases hcomponent : acc.currentComponent with
  | key =>
    rw [hcomponent] at hroom
    obtain ⟨k', rfl, hk⟩ := hsplit hrest hroom
    refine ⟨k', v, i, ?_, hk⟩
    simp only [push, hcomponent]
    exact { h with
      key := by rw [append_assoc, h.key]
      front := fun hne => absurd rfl hne
      middle := nofun }
  | value =>
    rw [hcomponent] at hroom
    have hknil := h.front (by simp [hcomponent])
    obtain ⟨v', rfl, hv⟩ := hsplit (by simpa [hknil] using hrest) hroom
    refine ⟨k, v', i, ?_, by simpa [hknil] using hv⟩
    have hvalue := h.value
    have hlen := h.valueLen
    simp only [push, hcomponent]
    rw [ChunkedAccumulator.valueLen, valueBytes] at hlen
    rw [valueBytes] at hvalue
    split
    · next hobject =>
      rw [if_pos hobject] at hlen
      exact { h with
        value := by simpa [valueBytes, hobject] using hvalue
        valueLen := by simp [ChunkedAccumulator.valueLen, valueBytes, hobject, hlen]
        front := fun _ => hknil
        middle := nofun }
    · next hobject =>
      exact { h with
        value := by simpa [valueBytes, hobject] using hvalue
        valueLen := by simp [ChunkedAccumulator.valueLen, valueBytes, hobject]
        front := fun _ => hknil
        middle := nofun }
  | input =>
    rw [hcomponent] at hroom
    have hknil := h.front (by simp [hcomponent])
    have hvnil := h.middle hcomponent
    obtain ⟨i', rfl, hi⟩ := hsplit (b := []) (by simpa [hknil, hvnil] using hrest) hroom
    refine ⟨k, v, i', ?_, by simpa [hknil, hvnil] using hi⟩
    simp only [push, hcomponent]
    exact { h with
      input := by rw [append_assoc, h.input]
      front := fun _ => hknil
      middle := fun _ => hvnil }

end

lemma Expects.next (h : Expects parts acc rest) (hfull : acc.capacity - acc.filled = 0)
    (hrest : rest ≠ []) : ∃ acc', acc.nextComponent = (true, acc') ∧ Expects parts acc' rest := by
  obtain ⟨k, v, i, h, rfl⟩ := h
  obtain ⟨acc', hnext, h'⟩ := h.next (length_eq_zero_iff.1 (h.remaining.symm.trans hfull)) hrest
  exact ⟨acc', hnext, k, v, i, h', rfl⟩

lemma Expects.push (h : Expects parts acc (data ++ rest))
    (hroom : data.length ≤ acc.capacity - acc.filled) : Expects parts (acc.push data) rest := by
  obtain ⟨k, v, i, h, hrest⟩ := h
  exact h.push hrest (h.remaining ▸ hroom)

/-- The bytes of the parts go where they belong, however they have been cut. -/
lemma Expects.feed (h : Expects parts acc (data ++ rest)) :
    ∃ acc', acc.feed data = (true, acc') ∧ Expects parts acc' rest := by
  fun_induction ChunkedAccumulator.feed acc data with
  | case1 acc => exact ⟨acc, rfl, h⟩
  | case2 acc data hdata remaining hfull acc' hnext ih =>
    -- the part is full before anything is stored
    obtain ⟨acc'', hnext', h'⟩ := h.next hfull (by simp [hdata])
    obtain ⟨-, rfl⟩ := Prod.mk.inj (hnext.symm.trans hnext')
    exact ih h'
  | case3 acc data hdata remaining hfull acc' hnext =>
    obtain ⟨acc'', hnext', -⟩ := h.next hfull (by simp [hdata])
    simp [hnext] at hnext'
  | case4 acc data hdata remaining hroom take stored hfull acc' hnext ih =>
    rw [← take_append_drop take data, append_assoc] at h
    have hstored := h.push (by simp [take, remaining])
    obtain ⟨acc'', hnext', h'⟩ := hstored.next (Nat.sub_eq_zero_of_le hfull.1) (by simp [hfull.2])
    obtain ⟨-, rfl⟩ := Prod.mk.inj (hnext.symm.trans hnext')
    exact ih h'
  | case5 acc data hdata remaining hroom take stored hfull acc' hnext =>
    rw [← take_append_drop take data, append_assoc] at h
    have hstored := h.push (by simp [take, remaining])
    obtain ⟨acc'', hnext', -⟩ := hstored.next (Nat.sub_eq_zero_of_le hfull.1) (by simp [hfull.2])
    rw [show stored.nextComponent = _ from hnext] at hnext'
    simp at hnext'
  | case6 acc data hdata remaining hroom take stored hopen ih =>
    rw [← take_append_drop take data, append_assoc] at h
    exact ih (h.push (by simp [take, remaining]))

/-- All is there exactly when nothing is to come. -/
lemma Expects.allComponentsFilled_iff (h : Expects parts acc rest) :
    acc.allComponentsFilled = true ↔ rest = [] := by
  obtain ⟨k, v, i, h, rfl⟩ := h
  have hkey := congrArg length h.key
  have hvalue := congrArg length h.value
  have hinput := congrArg length h.input
  simp only [length_append] at hkey hvalue hinput
  have hk : acc.key.length = acc.overflowKeyLength ↔ k = [] := by
    rw [h.keyLength, ← length_eq_zero_iff]
    omega
  have hv : acc.valueLen = acc.overflowValueLength ↔ v = [] := by
    rw [h.valueLen, h.valueLength, ← length_eq_zero_iff]
    omega
  have hi : acc.input.length = acc.inputLength ↔ i = [] := by
    rw [h.inputLength, ← length_eq_zero_iff]
    omega
  have hvalueNil := h.value_nil
  have hinputNil := h.input_nil
  simp only [allComponentsFilled, Bool.and_eq_true, Bool.or_eq_true, decide_eq_true_eq,
    Bool.not_eq_true', append_eq_nil_iff]
  tauto

/-- The accumulator holds the parts. -/
structure Holds (parts : Parts) (acc : ChunkedAccumulator) : Prop where
  opType : acc.opType = parts.opType
  headerType : acc.headerType = parts.headerType
  sessionId : acc.sessionId = parts.sessionId
  storeVersion : acc.storeVersion = parts.storeVersion
  sequenceNumber : acc.sequenceNumber = parts.sequenceNumber
  keyHash : acc.keyHash = parts.keyHash
  key : acc.key = parts.key
  value : acc.valueBytes = parts.value
  input : acc.input = parts.input

lemma Expects.holds (h : Expects parts acc []) :
    acc.verify = .ok () ∧ Holds parts { acc with isComplete := true } := by
  obtain ⟨k, v, i, h, hnil⟩ := h
  simp only [append_eq_nil_iff] at hnil
  obtain ⟨rfl, rfl, rfl⟩ := hnil
  have hkey := h.key
  have hvalue := h.value
  have hinput := h.input
  rw [append_nil] at hkey hvalue hinput
  constructor
  · simp [verify, h.keyLength, h.valueLength, h.inputLength, h.valueLen, hkey, hvalue, hinput]
  · exact ⟨h.opType, h.headerType, h.sessionId, h.storeVersion, h.sequenceNumber, h.keyHash, hkey,
      hvalue, hinput⟩

/-- Of a new record everything is to come. -/
lemma lacks_new (parts : Parts) (hkey : chunkHeader.overflowKeyLength.toNat = parts.key.length)
    (hvalue : chunkHeader.overflowValueLength.toNat = parts.value.length)
    (hinput : chunkHeader.inputLength.toNat = parts.input.length)
    (hhash : chunkHeader.keyHash = parts.keyHash) :
    Lacks parts { new parts.opType chunkHeader with
      headerType := parts.headerType
      sessionId := parts.sessionId
      storeVersion := parts.storeVersion
      sequenceNumber := parts.sequenceNumber } parts.key parts.value parts.input where
  opType := rfl
  headerType := rfl
  sessionId := rfl
  storeVersion := rfl
  sequenceNumber := rfl
  keyHash := hhash
  hasValue := rfl
  hasInput := rfl
  isComplete := rfl
  keyLength := hkey
  valueLength := hvalue
  inputLength := hinput
  key := rfl
  value := by
    unfold valueBytes
    split <;> rfl
  input := rfl
  valueLen := by
    unfold valueLen valueBytes
    split <;> rfl
  front := by
    intro hne
    refine length_eq_zero_iff.1 (Nat.eq_zero_of_not_pos fun hpos => hne ?_)
    exact if_pos (hkey ▸ hpos)
  middle := by
    intro hcomponent
    simp only [new, firstComponent] at hcomponent
    split at hcomponent
    · cases hcomponent
    · split at hcomponent
      · cases hcomponent
      · next hno => exact parts.value_nil (Bool.not_eq_true _ ▸ hno)

end ChunkedAccumulator

open ChunkedAccumulator

/-! ### The frames of a record -/

section Frames

variable (hash : List UInt8 → Int64) (log : GarnetLog) (record : RecordShape)
  (sequenceNumber : Int64)

/-- What is written of a record, and what the reader gives back. The number is 0 where none is
written. -/
def writtenParts : Parts where
  opType := record.opType
  headerType := if log.usingSinglePhysicalLog then .basicHeader else .shardedHeader
  sessionId := record.sessionId
  storeVersion := record.version
  sequenceNumber := if log.usingSinglePhysicalLog then 0 else sequenceNumber
  keyHash := hash record.key
  key := record.key
  value := if record.opType.hasChunkValue then record.value else []
  input := if record.opType.hasChunkInput then record.input else []
  value_nil := fun h => by simp [h]
  input_nil := fun h => by simp [h]

/-- The lengths fit their fields. -/
structure Declared : Prop where
  key : record.key.length < 2 ^ 32
  value : record.opType.hasChunkValue = true → record.value.length < 2 ^ 32
  input : record.opType.hasChunkInput = true → record.input.length < 2 ^ 32

variable {hash log record sequenceNumber}

lemma toNat_ofNat_of_lt {n : Nat} (h : n < 2 ^ 32) : (UInt32.ofNat n).toNat = n := by
  exact Nat.mod_eq_of_lt h

lemma Declared.lengths (h : Declared record) (hash : List UInt8 → Int64) (log : GarnetLog)
    (sequenceNumber : Int64) (objectId : UInt64) :
    (GarnetLog.chunkHeader hash record objectId).overflowKeyLength.toNat =
        (writtenParts hash log record sequenceNumber).key.length ∧
      (GarnetLog.chunkHeader hash record objectId).overflowValueLength.toNat =
        (writtenParts hash log record sequenceNumber).value.length ∧
      (GarnetLog.chunkHeader hash record objectId).inputLength.toNat =
        (writtenParts hash log record sequenceNumber).input.length := by
  refine ⟨toNat_ofNat_of_lt h.key, ?_, ?_⟩
  · dsimp only [chunkHeader, writtenParts]
    split
    · next hvalue => exact toNat_ofNat_of_lt (h.value hvalue)
    · rfl
  · dsimp only [chunkHeader, writtenParts]
    split
    · next hinput => exact toNat_ofNat_of_lt (h.input hinput)
    · rfl

/-- The first frame of a group starts a record of which everything is to come. -/
lemma firstChunk_chunkFrame (h : Declared record) (hash : List UInt8 → Int64) (log : GarnetLog)
    (sequenceNumber : Int64) (objectId : UInt64) (data : List UInt8) :
    ∃ acc, firstChunk
        (log.chunkFrame hash record sequenceNumber objectId data)
        (recordHeader record (if log.usingSinglePhysicalLog then .basicChunkHeader
          else .shardedChunkHeader)).readBack
        (GarnetLog.chunkHeader hash record objectId) = .ok acc ∧
      Expects (writtenParts hash log record sequenceNumber) acc (components record).flatten := by
  obtain ⟨hkey, hvalue, hinput⟩ := h.lengths hash log sequenceNumber objectId
  have hlacks := lacks_new (writtenParts hash log record sequenceNumber) hkey hvalue hinput rfl
  have hflatten : record.key ++ ((writtenParts hash log record sequenceNumber).value ++
      (writtenParts hash log record sequenceNumber).input) = (components record).flatten := by
    simp [components, writtenParts]
  refine ⟨_, ?_, _, _, _, hlacks, hflatten⟩
  cases hsingle : log.usingSinglePhysicalLog with
  | true =>
    simp [firstChunk, writtenParts, hsingle, ChunkedAccumulator.new]
  | false =>
    rw [chunkFrame_of_sharded hsingle]
    simp [firstChunk, writtenParts, hsingle, AofShardedHeader.parse_toBytes_append]

/-- What is known of a group between two of its frames: it has not been finished, and what is to come
of it is the rest of its record. -/
def Awaits (parts : Parts) (objectId : UInt64) (whole : List UInt8)
    (reader : AofChunkedRecordReader) (rest : List UInt8) : Prop :=
  objectId ∉ reader.completedOrder ∧
    match reader.inProgress objectId with
    | none => rest = whole
    | some acc => Expects parts acc rest

/-- A frame whose bytes are the next ones of the record. -/
lemma addChunk_of_expects {parts : Parts} {acc : ChunkedAccumulator} {data rest : List UInt8}
    (reader : AofChunkedRecordReader)
    (hkey : chunkHeader.overflowKeyLength.toNat = parts.key.length)
    (hvalue : chunkHeader.overflowValueLength.toNat = parts.value.length)
    (hinput : chunkHeader.inputLength.toNat = parts.input.length)
    (h : Expects parts acc (data ++ rest)) :
    ∃ fed, Expects parts fed rest ∧ reader.addChunk chunkHeader acc data =
      if rest = [] then (.ok (some { fed with isComplete := true }),
        ((reader.setInProgress chunkHeader.objectId (some acc)).setInProgress
          chunkHeader.objectId none).recordCompleted chunkHeader.objectId)
      else (.ok none, (reader.setInProgress chunkHeader.objectId (some acc)).setInProgress
        chunkHeader.objectId (some fed)) := by
  obtain ⟨fed, hfeed, hfed⟩ := h.feed
  obtain ⟨k, v, i, hlacks, -⟩ := h
  refine ⟨fed, hfed, ?_⟩
  have hsame : ¬ (chunkHeader.overflowKeyLength.toNat ≠ acc.overflowKeyLength ∨
      chunkHeader.overflowValueLength.toNat ≠ acc.overflowValueLength ∨
      chunkHeader.inputLength.toNat ≠ acc.inputLength) := by
    simp [hkey, hvalue, hinput, hlacks.keyLength, hlacks.valueLength, hlacks.inputLength]
  simp only [addChunk, hlacks.isComplete, Bool.false_eq_true, if_false,
    if_neg hsame, hfeed, hfed.allComponentsFilled_iff]
  split
  · next hnil =>
    subst hnil
    rw [hfed.holds.1]
  · rfl

variable {objectId : UInt64} {reader : AofChunkedRecordReader}

/-- The next frame of a group is taken, and the last one gives the record. -/
lemma readChunk_frame (hdecl : Declared record) {data rest : List UInt8}
    (h : Awaits (writtenParts hash log record sequenceNumber) objectId
      (components record).flatten reader (data ++ rest)) :
    ∃ fed reader', Expects (writtenParts hash log record sequenceNumber) fed rest ∧
      reader.readChunk (log.chunkFrame hash record sequenceNumber objectId data) =
        (.ok (if rest = [] then some { fed with isComplete := true } else none), reader') ∧
      (rest ≠ [] → Awaits (writtenParts hash log record sequenceNumber) objectId
        (components record).flatten reader' rest) := by
  obtain ⟨hkey, hvalue, hinput⟩ := hdecl.lengths hash log sequenceNumber objectId
  obtain ⟨first, hfirst, hexpects⟩ :=
    firstChunk_chunkFrame hdecl hash log sequenceNumber objectId data
  have hlen : ¬ (log.chunkFrame hash record sequenceNumber objectId data).length <
      log.headerSize + AofChunkHeader.totalSize := by
    rw [length_chunkFrame]
    omega
  -- a frame of a group goes to the record of the group, or to a new one
  obtain ⟨acc, hacc, hread⟩ : ∃ acc,
      Expects (writtenParts hash log record sequenceNumber) acc (data ++ rest) ∧
      reader.readChunk (log.chunkFrame hash record sequenceNumber objectId data) =
        reader.addChunk (chunkHeader hash record objectId) acc data := by
    obtain ⟨hfresh, hprogress⟩ := h
    have hopen : reader.readChunk (log.chunkFrame hash record sequenceNumber objectId data) =
        (reader.inProgress objectId).elim (reader.addChunk (chunkHeader hash record objectId) first data)
          fun acc => reader.addChunk (chunkHeader hash record objectId) acc data := by
      simp only [readChunk, parse_chunkFrame,
        getChunkedHeaderRef_chunkFrame, if_neg hlen, drop_chunkFrame, hfirst]
      rw [if_neg (by simpa [chunkHeader] using hfresh),
        show (chunkHeader hash record objectId).objectId = objectId from rfl]
      cases reader.inProgress objectId <;> rfl
    rw [hopen]
    cases hin : reader.inProgress objectId with
    | none =>
      rw [hin] at hprogress
      exact ⟨first, hprogress ▸ hexpects, rfl⟩
    | some acc =>
      rw [hin] at hprogress
      exact ⟨acc, hprogress, rfl⟩
  obtain ⟨fed, hfed, hadd⟩ := addChunk_of_expects reader hkey hvalue hinput hacc
  rw [hread, hadd]
  by_cases hrest : rest = []
  · exact ⟨fed, _, hfed, by rw [if_pos hrest, if_pos hrest], fun hne => absurd hrest hne⟩
  · refine ⟨fed, (reader.setInProgress objectId (some acc)).setInProgress objectId (some fed), hfed,
      by rw [if_neg hrest, if_neg hrest]; rfl, fun _ => ⟨h.1, ?_⟩⟩
    simpa [setInProgress] using hfed

/-- The group of a frame. -/
def groupOf (entry : List UInt8) : Option UInt64 :=
  (AofHeader.getChunkedHeaderRef entry).map fun header => header.2.objectId

/-- Nothing is done to a group. -/
structure Untouched (objectId : UInt64) (reader reader' : AofChunkedRecordReader) : Prop where
  inProgress : reader'.inProgress objectId = reader.inProgress objectId
  completed : objectId ∉ reader.completedOrder → objectId ∉ reader'.completedOrder

lemma Untouched.refl (objectId : UInt64) (reader : AofChunkedRecordReader) :
    Untouched objectId reader reader := ⟨rfl, id⟩

variable {reader' : AofChunkedRecordReader}

lemma Untouched.setInProgress {other : UInt64}
    (h : Untouched objectId reader reader') (hne : other ≠ objectId)
    (acc : Option ChunkedAccumulator) :
    Untouched objectId reader (reader'.setInProgress other acc) :=
  ⟨(Function.update_of_ne hne.symm _ _).trans h.inProgress, h.completed⟩

lemma Untouched.recordCompleted {other : UInt64}
    (h : Untouched objectId reader reader') (hne : other ≠ objectId) :
    Untouched objectId reader (reader'.recordCompleted other) := by
  unfold AofChunkedRecordReader.recordCompleted
  split
  · exact h
  · refine ⟨h.inProgress, fun hfresh hmem => ?_⟩
    have hmem' : objectId ∈ reader'.completedOrder ++ [other] := by
      dsimp only at hmem
      split at hmem
      · exact mem_of_mem_tail hmem
      · exact hmem
    rcases mem_append.1 hmem' with hold | hnew
    · exact h.completed hfresh hold
    · exact hne (mem_singleton.1 hnew).symm

lemma untouched_addChunk (hne : chunkHeader.objectId ≠ objectId) (reader : AofChunkedRecordReader)
    (acc : ChunkedAccumulator) (data : List UInt8) :
    Untouched objectId reader (reader.addChunk chunkHeader acc data).2 := by
  have hset := (Untouched.refl objectId reader).setInProgress hne (some acc)
  unfold addChunk
  dsimp only
  split
  · exact hset
  · split
    · exact hset
    · split
      · exact hset.setInProgress hne _
      · split
        · split
          · exact hset.setInProgress hne _
          · exact (hset.setInProgress hne _).recordCompleted hne
        · exact hset.setInProgress hne _

/-- A frame of another group, or no frame at all, does nothing to this one. -/
lemma untouched_readChunk {entry : List UInt8}
    (h : groupOf entry ≠ some objectId) (reader : AofChunkedRecordReader) :
    Untouched objectId reader (reader.readChunk entry).2 := by
  unfold readChunk
  split
  · exact .refl _ _
  · split
    · exact .refl _ _
    · next offset chunkHeader href =>
      have hne : chunkHeader.objectId ≠ objectId := fun heq => h (by simp [groupOf, href, heq])
      dsimp only
      split
      · exact .refl _ _
      · split
        · exact .refl _ _
        · split
          · exact untouched_addChunk hne _ _ _
          · split
            · exact .refl _ _
            · exact untouched_addChunk hne _ _ _

/-- The answers to the frames of one group. -/
def answersOf (objectId : UInt64) (reader : AofChunkedRecordReader) :
    List (List UInt8) → List (Except AofChunkReadError (Option ChunkedAccumulator))
  | [] => []
  | entry :: entries =>
    let answer := reader.readChunk entry
    if groupOf entry = some objectId then
      answer.1 :: answersOf objectId answer.2 entries
    else answersOf objectId answer.2 entries

lemma answersOf_eq_nil {entries : List (List UInt8)}
    (h : entries.filter (fun entry => groupOf entry = some objectId) = [])
    (reader : AofChunkedRecordReader) : answersOf objectId reader entries = [] := by
  induction entries generalizing reader with
  | nil => rfl
  | cons entry entries ih =>
    rw [filter_eq_nil_iff] at h
    have hother : ¬ groupOf entry = some objectId := by simpa using h entry mem_cons_self
    rw [answersOf, if_neg hother]
    exact ih (filter_eq_nil_iff.2 fun e he => h e (mem_cons_of_mem _ he)) _

/-- Nothing comes back before the last frame, and the record with it. -/
lemma answersOf_frames (hdecl : Declared record)
    {entries pieces : List (List UInt8)} {last : List UInt8}
    (hentries : entries.filter (fun entry => groupOf entry = some objectId) =
      (pieces ++ [last]).map (log.chunkFrame hash record sequenceNumber objectId))
    (h : Awaits (writtenParts hash log record sequenceNumber) objectId
      (components record).flatten reader (pieces ++ [last]).flatten)
    (hlast : pieces ≠ [] → last ≠ []) :
    ∃ acc, Holds (writtenParts hash log record sequenceNumber) acc ∧
      answersOf objectId reader entries =
        replicate pieces.length (.ok none) ++ [.ok (some acc)] := by
  induction entries generalizing reader pieces with
  | nil => simp at hentries
  | cons entry entries ih =>
    by_cases hours : groupOf entry = some objectId
    · rw [filter_cons_of_pos (by simpa using hours)] at hentries
      rw [answersOf, if_pos hours]
      cases pieces with
      | nil =>
        obtain ⟨rfl, hnone⟩ := cons.inj hentries
        have hall : Awaits (writtenParts hash log record sequenceNumber) objectId
            (components record).flatten reader (last ++ []) := by simpa using h
        obtain ⟨fed, reader', hfed, hread, -⟩ := readChunk_frame hdecl hall
        rw [hread, answersOf_eq_nil (by simpa using hnone)]
        exact ⟨_, hfed.holds.2, rfl⟩
      | cons piece pieces =>
        obtain ⟨rfl, hothers⟩ := cons.inj hentries
        have hrest : (pieces ++ [last]).flatten ≠ [] := by simp [hlast (by simp)]
        rw [cons_append] at h
        obtain ⟨fed, reader', hfed, hread, hnext⟩ := readChunk_frame hdecl h
        obtain ⟨acc, hacc, hanswers⟩ := ih hothers (hnext hrest) fun _ => hlast (by simp)
        rw [hread, hanswers, if_neg hrest]
        exact ⟨acc, hacc, rfl⟩
    · rw [filter_cons_of_neg (by simpa using hours)] at hentries
      rw [answersOf, if_neg hours]
      have hsame := untouched_readChunk hours reader
      exact ih hentries ⟨hsame.completed h.1, hsame.inProgress ▸ h.2⟩ hlast

/-- Frames that the sublog takes have lengths that fit their fields: those of all of them together
have to fit one. -/
lemma declared_of_enqueueFrames {frames : List (List UInt8)}
    (h : log.enqueueFrames (log.chunkFrames hash record sequenceNumber objectId) = some frames) :
    Declared record := by
  obtain ⟨pieces, last, hpack, hflatten, -⟩ :=
    pack_spec log.pagePayload_pos (components record) [] []
  have htotal := totalLen_map_chunkFrame hash log record sequenceNumber objectId (pieces ++ [last])
  unfold enqueueFrames at h
  split at h
  · next hcheck =>
    have hlimit := (Bool.and_eq_true_iff.1 hcheck).2
    rw [chunkFrames, hpack, htotal, hflatten, length_append, Nat.add_mul] at hlimit
    simp only [checkRecordLen, components, AofChunkHeader.totalSize, Bool.and_eq_true, decide_eq_true_eq, length_cons,
      length_nil, length_append, flatten_cons, flatten_nil] at hlimit
    refine ⟨by omega, fun hvalue => ?_, fun hinput => ?_⟩
    · rw [if_pos hvalue] at hlimit
      omega
    · rw [if_pos hinput] at hlimit
      omega
  · cases h

end Frames

/-- A record that has been cut comes back: its frames, read in order with anything of other groups in
between, are answered with nothing up to the last, and then with the record. -/
theorem readChunk_roundTrip {hash : List UInt8 → Int64} {log : GarnetLog} {record : RecordShape}
    {sequenceNumber : Int64} {objectId : UInt64} {written : List Entry}
    (h : log.enqueueSpanChunked hash record sequenceNumber objectId = some written)
    {reader : AofChunkedRecordReader} (hcompleted : objectId ∉ reader.completedOrder)
    (hprogress : reader.inProgress objectId = none) {entries : List (List UInt8)}
    (hentries : entries.filter (fun entry => groupOf entry = some objectId) =
      written.map Prod.snd) :
    ∃ acc, Holds (writtenParts hash log record sequenceNumber) acc ∧
      answersOf objectId reader entries =
        replicate (written.length - 1) (.ok none) ++ [.ok (some acc)] := by
  obtain ⟨frames, hframes, hwritten⟩ := Option.bind_eq_some_iff.1 h
  cases hwritten
  have hdecl := declared_of_enqueueFrames hframes
  obtain ⟨pieces, last, hpack, hflatten, hlast⟩ :=
    pack_spec log.pagePayload_pos (components record) [] []
  have heq : frames = (pieces ++ [last]).map
      (log.chunkFrame hash record sequenceNumber objectId) := by
    unfold enqueueFrames at hframes
    split at hframes
    · rw [← Option.some.inj hframes, chunkFrames, hpack]
    · cases hframes
  have hawaits : Awaits (writtenParts hash log record sequenceNumber) objectId
      (components record).flatten reader (pieces ++ [last]).flatten := by
    refine ⟨hcompleted, ?_⟩
    rw [hprogress]
    simpa using hflatten
  have hours : entries.filter (fun entry => groupOf entry = some objectId) =
      (pieces ++ [last]).map (log.chunkFrame hash record sequenceNumber objectId) := by
    simp [hentries, heq]
  obtain ⟨acc, hacc, hanswers⟩ := answersOf_frames hdecl hours hawaits fun hne hnil =>
    hne (hlast hnil).1
  refine ⟨acc, hacc, ?_⟩
  rw [hanswers, heq]
  simp

/-- One sublog with pages of 64 bytes. -/
def smallPages : GarnetLog := ⟨1, 1, 6, 4096, Nat.one_pos, Nat.le_add_right 1 63, Nat.one_pos⟩

/-- A record of 27 bytes, which is more than a page takes. -/
def twoFrames : RecordShape where
  opType := .storeUpsert
  version := 1
  sessionId := 7
  key := [1, 2]
  value := replicate 25 3
  input := []
  databaseId := 0
  keyed := by decide

lemma pagePayload_smallPages : smallPages.pagePayload = 20 := by decide

lemma pack_twoFrames (h : 0 < 20) :
    pack 20 h (components twoFrames) [] [] = [[1, 2] ++ replicate 18 3, replicate 7 3] := by
  change pack 20 h [[1, 2], replicate 25 3, []] [] [] = _
  rw [pack]
  change pack 20 h [[], 3 :: replicate 24 3, []] [] [1, 2] = _
  rw [pack, pack]
  change pack 20 h [3 :: replicate 6 3, []] [] ([1, 2] ++ replicate 18 3) = _
  rw [pack]
  change pack 20 h [[], []] [[1, 2] ++ replicate 18 3] (replicate 7 3) = _
  rw [pack, pack, pack]
  rfl

lemma chunkFrames_twoFrames (hash : List UInt8 → Int64) :
    smallPages.chunkFrames hash twoFrames 0 9 =
      [smallPages.chunkFrame hash twoFrames 0 9 ([1, 2] ++ replicate 18 3),
        smallPages.chunkFrame hash twoFrames 0 9 (replicate 7 3)] := by
  have hpack := pack_twoFrames
  simp only [← pagePayload_smallPages] at hpack
  rw [chunkFrames, hpack smallPages.pagePayload_pos]
  rfl

lemma enqueueSpanChunked_twoFrames :
    smallPages.enqueueSpanChunked (fun _ => 5) twoFrames 0 9 = some
      [(0, smallPages.chunkFrame (fun _ => 5) twoFrames 0 9 ([1, 2] ++ replicate 18 3)),
        (0, smallPages.chunkFrame (fun _ => 5) twoFrames 0 9 (replicate 7 3))] := by
  rw [enqueueSpanChunked, chunkFrames_twoFrames]
  decide +kernel

theorem readChunk_roundTrip_twoFrames :
    ∃ acc, Holds (writtenParts (fun _ => 5) smallPages twoFrames 0) acc ∧
      answersOf 9 .new
        [smallPages.chunkFrame (fun _ => 5) twoFrames 0 9 ([1, 2] ++ replicate 18 3),
          smallPages.chunkFrame (fun _ => 5) twoFrames 0 9 (replicate 7 3)] =
        [.ok none, .ok (some acc)] :=
  readChunk_roundTrip enqueueSpanChunked_twoFrames not_mem_nil rfl (by decide +kernel)

end Wedb.Aof
