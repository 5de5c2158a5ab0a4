import Mathlib.Data.List.Nodup
import Wedb.Lib.Machine
import Wedb.Aof.Log

/-!
# The numbers of groups of frames

A record that is cut gets a number that all of its frames carry. A sublog counts its numbers up from
the address its tail had when the log was opened. The numbers of the time before are lower, it is
argued, because each of them has left a frame of at least 44 bytes behind: but a number that is
drawn for a record the sublog then refuses leaves nothing (`next_chunk_group_id`,
`enqueue_span_chunked`).

The sublogs share nothing of this, so one of them is enough.
-/

namespace Wedb.Aof

open UInt64 List GarnetLog

open Wedb.Wal (recordHeaderLen)

/-- A record of which at least the first frame is in the sublog, and where that frame ends. -/
structure StoredGroup where
  objectId : UInt64
  firstStop : Nat
deriving DecidableEq

structure GroupState where
  tailAddress : Nat
  chunkGroupSeq : UInt64
  /-- Numbers whose records are still to be handed to the sublog. -/
  drawn : List UInt64
  stored : List StoredGroup

inductive GroupAction where
  | draw
  /-- The frames of a record go to the sublog. -/
  | enqueue (objectId : UInt64) (record : RecordShape) (sequenceNumber : Int64)
  /-- The sublog gives up because it cannot write to its device. -/
  | flushFailed (objectId : UInt64)
  /-- Anything else is written. -/
  | plain (len : Nat)
  /-- The log is opened anew with what has been recovered. -/
  | restart (recoveredTail : Nat)

/-- The state of a sublog that has just been opened. -/
def GroupState.opened (tailAddress : Nat) (stored : List StoredGroup) : GroupState :=
  ⟨tailAddress, ofNat (max tailAddress 1), [], stored⟩

/-- Addresses are words with a sign. -/
def addressLimit : Nat := 2 ^ 63

variable {n : Nat}

namespace GroupAction

variable (hash : List UInt8 → Int64) (log : GarnetLog)

def step (s : GroupState) : GroupAction → Option GroupState
  | draw => some { s with
      chunkGroupSeq := s.chunkGroupSeq + 1
      drawn := s.chunkGroupSeq :: s.drawn }
  | enqueue objectId record sequenceNumber =>
    if objectId ∈ s.drawn ∧
        isChunkable record.key.length record.value.length record.input.length then
      match log.enqueueSpanChunked hash record sequenceNumber objectId with
      | none => some { s with drawn := s.drawn.erase objectId }
      | some [] => none
      | some (first :: others) =>
        let total := totalLen ((first :: others).map Prod.snd)
        if s.tailAddress + total < addressLimit then some { s with
            tailAddress := s.tailAddress + total
            drawn := s.drawn.erase objectId
            stored := ⟨objectId, s.tailAddress + frameLen first.2⟩ :: s.stored }
        else none
    else none
  | flushFailed objectId =>
    if objectId ∈ s.drawn then some { s with drawn := s.drawn.erase objectId } else none
  | plain len =>
    if s.tailAddress + len < addressLimit then some { s with tailAddress := s.tailAddress + len }
    else none
  | restart recoveredTail =>
    if recoveredTail ≤ s.tailAddress then
      some (.opened recoveredTail (s.stored.filter fun group => group.firstStop ≤ recoveredTail))
    else none

/-- The least that a frame of a record that has been cut takes. -/
def minFrameLen : Nat := recordHeaderLen + AofHeader.totalSize + AofChunkHeader.totalSize

/-- A number is only drawn while fewer numbers are ahead of the tail than a frame has bytes. -/
def keepsUp (s : GroupState) : GroupAction → Bool
  | draw => s.chunkGroupSeq.toNat < s.tailAddress + minFrameLen
  | _ => true

/-! ### What a step does -/

/-- The steps of a sublog. -/
inductive Move (s : GroupState) : GroupAction → GroupState → Prop
  | draw : Move s .draw { s with
      chunkGroupSeq := s.chunkGroupSeq + 1, drawn := s.chunkGroupSeq :: s.drawn }
  | drop {a : GroupAction} {objectId : UInt64} (ha : a ≠ .draw) :
      Move s a { s with drawn := s.drawn.erase objectId }
  | store {a : GroupAction} {objectId : UInt64} {first total : Nat} (ha : a ≠ .draw)
      (hdrawn : objectId ∈ s.drawn) (hfirst : minFrameLen ≤ first) (htotal : first ≤ total)
      (hlimit : s.tailAddress + total < addressLimit) :
      Move s a { s with
        tailAddress := s.tailAddress + total
        drawn := s.drawn.erase objectId
        stored := ⟨objectId, s.tailAddress + first⟩ :: s.stored }
  | plain {len : Nat} (hlimit : s.tailAddress + len < addressLimit) :
      Move s (.plain len) { s with tailAddress := s.tailAddress + len }
  | restart {recoveredTail : Nat} (hle : recoveredTail ≤ s.tailAddress) :
      Move s (.restart recoveredTail) (.opened recoveredTail
        (s.stored.filter fun group => group.firstStop ≤ recoveredTail))

lemma minFrameLen_le_of_enqueueSpanChunked {hash : List UInt8 → Int64} {log : GarnetLog}
    {record : RecordShape} {sequenceNumber : Int64} {objectId : UInt64} {written : List Entry}
    (h : log.enqueueSpanChunked hash record sequenceNumber objectId = some written) {e : Entry}
    (he : e ∈ written) : minFrameLen ≤ frameLen e.2 := by
  simp only [enqueueSpanChunked, enqueueFrames, Option.pure_def,
    Option.bind_eq_bind, Option.bind_eq_some_iff, Option.ite_none_right_eq_some,
    Option.some.injEq] at h
  obtain ⟨_, ⟨-, rfl⟩, rfl⟩ := h
  obtain ⟨_, hframe, rfl⟩ := mem_map.1 he
  obtain ⟨data, -, rfl⟩ := mem_map.1 hframe
  have hsize : AofHeader.totalSize ≤ log.headerSize := by
    unfold headerSize AofShardedHeader.totalSize
    split <;> omega
  rw [frameLen, length_chunkFrame, minFrameLen]
  omega

lemma Move.of_step {s s' : GroupState} {a : GroupAction} (h : step hash log s a = some s') :
    Move s a s' := by
  cases a with
  | draw =>
    cases h
    exact .draw
  | enqueue =>
    simp only [step] at h
    split at h
    · next hready =>
      split at h
      · cases h
        exact .drop (by rintro ⟨⟩)
      · cases h
      · next first others hwritten =>
        split at h
        · next hlimit =>
          cases h
          refine .store (by rintro ⟨⟩) hready.1
            (minFrameLen_le_of_enqueueSpanChunked hwritten mem_cons_self) ?_ hlimit
          simp [totalLen]
        · cases h
    · cases h
  | flushFailed =>
    simp only [step] at h
    split at h
    · cases h
      exact .drop (by rintro ⟨⟩)
    · cases h
  | plain =>
    simp only [step] at h
    split at h
    · next hlimit =>
      cases h
      exact .plain hlimit
    · cases h
  | restart =>
    simp only [step] at h
    split at h
    · next hle =>
      cases h
      exact .restart hle
    · cases h

/-! ### The numbers of the records -/

/-- The numbers in the sublog are all different, below the counter and below the addresses of their
own frames; those still to be used are different from them and not far above the tail. -/
structure Inv (s : GroupState) : Prop where
  limit : s.tailAddress < addressLimit
  nodup : (s.stored.map StoredGroup.objectId).Nodup
  stop : ∀ group ∈ s.stored, group.objectId.toNat < group.firstStop ∧
    group.firstStop ≤ s.tailAddress
  stored_lt : ∀ group ∈ s.stored, group.objectId.toNat < s.chunkGroupSeq.toNat
  drawn_nodup : s.drawn.Nodup
  drawn_lt : ∀ id ∈ s.drawn, id.toNat < s.chunkGroupSeq.toNat
  drawn_tail : ∀ id ∈ s.drawn, id.toNat < s.tailAddress + minFrameLen
  drawn_fresh : ∀ id ∈ s.drawn, id ∉ s.stored.map StoredGroup.objectId

variable {hash log} {s s' : GroupState} {a : GroupAction}

/-- A log that is opened counts on from its tail, which is above every number it has. -/
lemma inv_opened {tailAddress : Nat} {stored : List StoredGroup}
    (hlimit : tailAddress < addressLimit) (hnodup : (stored.map StoredGroup.objectId).Nodup)
    (hstop : ∀ group ∈ stored, group.objectId.toNat < group.firstStop ∧
      group.firstStop ≤ tailAddress) : Inv (.opened tailAddress stored) where
  limit := hlimit
  nodup := hnodup
  stop := hstop
  stored_lt := by
    intro group hgroup
    have hlt := hstop group hgroup
    have hseq : (ofNat (max tailAddress 1)).toNat = max tailAddress 1 := by
      refine Nat.mod_eq_of_lt ?_
      unfold addressLimit at hlimit
      omega
    change _ < (ofNat (max tailAddress 1)).toNat
    omega
  drawn_nodup := nodup_nil
  drawn_lt := nofun
  drawn_tail := nofun
  drawn_fresh := nofun

lemma Inv.draw (hi : Inv s) (hkeeps : s.chunkGroupSeq.toNat < s.tailAddress + minFrameLen) :
    Inv { s with chunkGroupSeq := s.chunkGroupSeq + 1, drawn := s.chunkGroupSeq :: s.drawn } := by
  have hlimit := hi.limit
  have hseq : (s.chunkGroupSeq + 1).toNat = s.chunkGroupSeq.toNat + 1 := by
    rw [UInt64.toNat_add]
    refine Nat.mod_eq_of_lt ?_
    simp only [addressLimit, minFrameLen, recordHeaderLen, AofHeader.totalSize,
      AofChunkHeader.totalSize] at hlimit hkeeps
    simp only [toNat_one]
    omega
  refine ⟨hi.limit, hi.nodup, hi.stop, ?_, ?_, ?_, ?_, ?_⟩
  · intro group hgroup
    have := hi.stored_lt group hgroup
    change _ < (s.chunkGroupSeq + 1).toNat
    omega
  · exact nodup_cons.2 ⟨fun hmem => absurd (hi.drawn_lt _ hmem) (lt_irrefl _), hi.drawn_nodup⟩
  · intro id hid
    change _ < (s.chunkGroupSeq + 1).toNat
    rcases mem_cons.1 hid with rfl | hid
    · omega
    · have := hi.drawn_lt id hid
      omega
  · intro id hid
    rcases mem_cons.1 hid with rfl | hid
    · exact hkeeps
    · exact hi.drawn_tail id hid
  · intro id hid hmem
    rcases mem_cons.1 hid with rfl | hid
    · -- the counter is above every number in the sublog
      obtain ⟨group, hgroup, heq⟩ := mem_map.1 hmem
      exact absurd (hi.stored_lt group hgroup) (by rw [heq]; exact lt_irrefl _)
    · exact hi.drawn_fresh id hid hmem

lemma Inv.drop (hi : Inv s) (objectId : UInt64) :
    Inv { s with drawn := s.drawn.erase objectId } where
  limit := hi.limit
  nodup := hi.nodup
  stop := hi.stop
  stored_lt := hi.stored_lt
  drawn_nodup := hi.drawn_nodup.erase _
  drawn_lt := fun id hid => hi.drawn_lt id (mem_of_mem_erase hid)
  drawn_tail := fun id hid => hi.drawn_tail id (mem_of_mem_erase hid)
  drawn_fresh := fun id hid => hi.drawn_fresh id (mem_of_mem_erase hid)

lemma Inv.store (hi : Inv s) {objectId : UInt64} {first total : Nat} (hdrawn : objectId ∈ s.drawn)
    (hfirst : minFrameLen ≤ first) (htotal : first ≤ total)
    (hlimit : s.tailAddress + total < addressLimit) :
    Inv { s with
      tailAddress := s.tailAddress + total
      drawn := s.drawn.erase objectId
      stored := ⟨objectId, s.tailAddress + first⟩ :: s.stored } where
  limit := hlimit
  nodup := nodup_cons.2 ⟨hi.drawn_fresh _ hdrawn, hi.nodup⟩
  stop := by
    intro group hgroup
    dsimp only
    rcases mem_cons.1 hgroup with rfl | hgroup
    · have := hi.drawn_tail _ hdrawn
      dsimp only
      omega
    · have := hi.stop group hgroup
      omega
  stored_lt := by
    intro group hgroup
    rcases mem_cons.1 hgroup with rfl | hgroup
    · exact hi.drawn_lt _ hdrawn
    · exact hi.stored_lt group hgroup
  drawn_nodup := hi.drawn_nodup.erase _
  drawn_lt := fun id hid => hi.drawn_lt id (mem_of_mem_erase hid)
  drawn_tail := by
    intro id hid
    have := hi.drawn_tail id (mem_of_mem_erase hid)
    dsimp only
    omega
  drawn_fresh := by
    intro id hid hmem
    obtain ⟨hne, hold⟩ := (hi.drawn_nodup.mem_erase_iff).1 hid
    rcases mem_cons.1 hmem with rfl | hmem
    · exact hne rfl
    · exact hi.drawn_fresh id hold hmem

lemma Inv.plain (hi : Inv s) {len : Nat} (hlimit : s.tailAddress + len < addressLimit) :
    Inv { s with tailAddress := s.tailAddress + len } where
  limit := hlimit
  nodup := hi.nodup
  stop := fun group hgroup => ⟨(hi.stop group hgroup).1,
    (hi.stop group hgroup).2.trans (Nat.le_add_right _ _)⟩
  stored_lt := hi.stored_lt
  drawn_nodup := hi.drawn_nodup
  drawn_lt := hi.drawn_lt
  drawn_tail := by
    intro id hid
    have := hi.drawn_tail id hid
    dsimp only
    omega
  drawn_fresh := hi.drawn_fresh

lemma Inv.step (hi : Inv s) (hkeeps : keepsUp s a = true) (h : step hash log s a = some s') :
    Inv s' := by
  cases Move.of_step hash log h with
  | draw => exact hi.draw (of_decide_eq_true hkeeps)
  | drop => exact hi.drop _
  | store _ hdrawn hfirst htotal hlimit => exact hi.store hdrawn hfirst htotal hlimit
  | plain hlimit => exact hi.plain hlimit
  | restart hle =>
    refine inv_opened (lt_of_le_of_lt hle hi.limit) ?_ ?_
    · exact hi.nodup.sublist (filter_sublist.map _)
    · intro group hgroup
      obtain ⟨hmem, hkept⟩ := mem_filter.1 hgroup
      exact ⟨(hi.stop group hmem).1, of_decide_eq_true hkept⟩

/-- The numbers of the records in a sublog are all different as long as no number is drawn while the
counter is a frame or more ahead of the tail, over any restarts. -/
theorem nodup_objectId_of_reaches {hash : List UInt8 → Int64} {log : GarnetLog} {tailAddress : Nat}
    (htail : tailAddress < addressLimit) {s : GroupState}
    (h : Machine.Reaches (GroupAction.step hash log) (fun s a => keepsUp s a = true)
      (.opened tailAddress []) s) : (s.stored.map StoredGroup.objectId).Nodup := by
  have hinv : Inv s := h.invariant (inv_opened htail nodup_nil nofun)
    fun hi hkeeps hs => hi.step hkeeps hs
  exact hinv.nodup

/-! ### Numbers that leave nothing behind -/

/-- One sublog, with pages and a buffer of two megabytes. -/
def twoMegabytes : GarnetLog := ⟨1, 1, 21, 2 ^ 21, Nat.one_pos, Nat.le_add_left 1 63, Nat.one_pos⟩

/-- A value of so many bytes under a key of one. -/
def recordOf (n : Nat) : RecordShape where
  opType := .storeUpsert
  version := 1
  sessionId := 1
  key := [1]
  value := replicate n 0
  input := []
  databaseId := 0
  keyed := rfl

lemma pagePayload_twoMegabytes : twoMegabytes.pagePayload = 2 ^ 21 - 44 := by decide

lemma length_components_recordOf (n : Nat) : (components (recordOf n)).flatten.length = n + 1 := by
  simp [components, recordOf, AofEntryType.hasChunkValue, AofEntryType.hasChunkInput]

lemma isChunkable_recordOf (h : 2 ^ 20 ≤ n) :
    isChunkable (recordOf n).key.length (recordOf n).value.length
      (recordOf n).input.length = true := by
  simp [isChunkable, minPartialAllocSize, recordOf]
  omega

/-- A record larger than the buffer is refused, after its number has been drawn. -/
lemma enqueueSpanChunked_recordOf_eq_none (h : 2 ^ 21 ≤ n) (sequenceNumber : Int64)
    (objectId : UInt64) :
    twoMegabytes.enqueueSpanChunked hash (recordOf n) sequenceNumber objectId = none := by
  obtain ⟨pieces, last, hpack, hflatten, -⟩ :=
    pack_spec twoMegabytes.pagePayload_pos (components (recordOf n)) [] []
  have hlen : (pieces ++ [last]).flatten.length = n + 1 := by
    rw [hflatten]
    exact length_components_recordOf n
  have hcheck : twoMegabytes.checkRecordLen (totalLen
      (twoMegabytes.chunkFrames hash (recordOf n) sequenceNumber objectId)) = false := by
    rw [chunkFrames, hpack, totalLen_map_chunkFrame]
    refine Bool.and_eq_false_imp.2 fun _ => decide_eq_false ?_
    change ¬ _ ≤ 2 ^ 21
    omega
  simp [enqueueSpanChunked, enqueueFrames, hcheck]

/-- One that fits a page is one frame. -/
lemma enqueueSpanChunked_recordOf (hash : List UInt8 → Int64) (h : n + 53 ≤ 2 ^ 21)
    (sequenceNumber : Int64) (objectId : UInt64) :
    ∃ entry, twoMegabytes.enqueueSpanChunked hash (recordOf n) sequenceNumber objectId =
      some [(0, entry)] ∧ frameLen entry = n + 53 := by
  have hfits : ([] : List UInt8).length + (components (recordOf n)).flatten.length ≤
      twoMegabytes.pagePayload := by
    rw [length_components_recordOf, pagePayload_twoMegabytes, length_nil]
    omega
  have hpack := pack_of_le twoMegabytes.pagePayload_pos [] hfits
  have hlen : frameLen (twoMegabytes.chunkFrame hash (recordOf n) sequenceNumber objectId
      (components (recordOf n)).flatten) = n + 53 := by
    rw [frameLen, length_chunkFrame, length_components_recordOf]
    change 8 + (16 + 28 + (n + 1)) = _
    omega
  have hcheck : twoMegabytes.checkRecordLen (n + 53) = true := by
    refine Bool.and_eq_true_iff.2 ⟨decide_eq_true ?_, decide_eq_true h⟩
    omega
  refine ⟨_, ?_, hlen⟩
  simp only [enqueueSpanChunked, enqueueFrames, chunkFrames, hpack,
    nil_append, map_cons, map_nil, totalLen, hlen, all_cons, sum_cons, sum_nil, add_zero, hcheck]
  rfl

/-- The state after a record of `n` bytes has been stored under the next number. -/
def afterStore (s : GroupState) (n : Nat) : GroupState :=
  ⟨s.tailAddress + (n + 53), s.chunkGroupSeq + 1, s.drawn,
    ⟨s.chunkGroupSeq, s.tailAddress + (n + 53)⟩ :: s.stored⟩

lemma step_draw (s : GroupState) : step hash log s .draw = some { s with
    chunkGroupSeq := s.chunkGroupSeq + 1, drawn := s.chunkGroupSeq :: s.drawn } := rfl

lemma step_enqueue_refused (s : GroupState) (h : 2 ^ 21 ≤ n) :
    step hash twoMegabytes { s with
      chunkGroupSeq := s.chunkGroupSeq + 1, drawn := s.chunkGroupSeq :: s.drawn }
        (.enqueue s.chunkGroupSeq (recordOf n) 0) =
      some { s with chunkGroupSeq := s.chunkGroupSeq + 1 } := by
  have hlow : 2 ^ 20 ≤ n := by omega
  simp [step, isChunkable_recordOf hlow, enqueueSpanChunked_recordOf_eq_none h]

lemma step_enqueue_stored (s : GroupState) (hlow : 2 ^ 20 ≤ n) (hhigh : n + 53 ≤ 2 ^ 21)
    (hlimit : s.tailAddress + (n + 53) < addressLimit) :
    step hash twoMegabytes { s with
      chunkGroupSeq := s.chunkGroupSeq + 1, drawn := s.chunkGroupSeq :: s.drawn }
        (.enqueue s.chunkGroupSeq (recordOf n) 0) = some (afterStore s n) := by
  have hchunkable := isChunkable_recordOf hlow
  obtain ⟨entry, hentry, hlen⟩ := enqueueSpanChunked_recordOf hash hhigh 0 s.chunkGroupSeq
  simp [step, hchunkable, hentry, totalLen, hlen, hlimit, afterStore]

/-- Two records with a restart between them. -/
theorem nodup_objectId_restarted :
    ∃ s, Machine.Reaches (step (fun _ => 0) twoMegabytes) (fun s a => keepsUp s a = true)
        (.opened 0 []) s ∧ s.stored.length = 2 ∧ (s.stored.map StoredGroup.objectId).Nodup := by
  let zero : List UInt8 → Int64 := fun _ => 0
  let second : GroupState := .opened 1048629 [⟨1, 1048629⟩]
  have hstored : Machine.Reaches (step zero twoMegabytes) (fun s a => keepsUp s a = true)
      (.opened 0 []) (afterStore (.opened 0 []) (2 ^ 20)) :=
    .step (.step .refl (by decide) (step_draw _)) rfl
      (step_enqueue_stored (.opened 0 []) (by decide) (by decide) (by decide))
  have hrestart : step zero twoMegabytes (afterStore (.opened 0 []) (2 ^ 20)) (.restart 1048629) =
      some second := by
    simp [step, afterStore, second, GroupState.opened]
  have hsecond := hstored.step rfl hrestart
  have hagain : Machine.Reaches (step zero twoMegabytes) (fun s a => keepsUp s a = true)
      (.opened 0 []) (afterStore second (2 ^ 20)) :=
    .step (.step hsecond (by decide) (step_draw _)) rfl
      (step_enqueue_stored second (by decide) (by decide) (by decide))
  exact ⟨_, hagain, rfl, nodup_objectId_of_reaches (by decide) hagain⟩

/-- Refused records move the counter and nothing else. -/
lemma reachable_refused (s : GroupState) (k : Nat) :
    Machine.Reachable (step hash twoMegabytes) s
      { s with chunkGroupSeq := s.chunkGroupSeq + ofNat k } := by
  induction k with
  | zero =>
    rw [show s.chunkGroupSeq + ofNat 0 = s.chunkGroupSeq by simp]
    exact .refl
  | succ k ih =>
    rw [show s.chunkGroupSeq + ofNat (k + 1) = s.chunkGroupSeq + ofNat k + 1 by
      rw [ofNat_add, ← UInt64.add_assoc]; rfl]
    exact .step (.step ih trivial (step_draw _)) trivial (step_enqueue_refused
      { s with chunkGroupSeq := s.chunkGroupSeq + ofNat k } (le_refl (2 ^ 21)))

/-- A refused record costs the counter one and the tail nothing. After enough of them the counter is
where the tail will be, and the next number that is stored is given out again after a restart. -/
theorem not_nodup_objectId_refused :
    ¬ ∀ (hash : List UInt8 → Int64) (log : GarnetLog) (tailAddress : Nat) (s : GroupState),
      tailAddress < addressLimit →
      Machine.Reachable (GroupAction.step hash log) (.opened tailAddress []) s →
        (s.stored.map StoredGroup.objectId).Nodup := by
  intro h
  let zero : List UInt8 → Int64 := fun _ => 0
  let first : GroupState := { GroupState.opened 0 [] with chunkGroupSeq := 1048629 }
  let second : GroupState := .opened 1048629 [⟨1048629, 1048629⟩]
  have hfirst : Machine.Reachable (step zero twoMegabytes) (.opened 0 []) first :=
    reachable_refused (.opened 0 []) 1048628
  have hstored : Machine.Reachable (step zero twoMegabytes) (.opened 0 [])
      (afterStore first (2 ^ 20)) :=
    .step (.step hfirst trivial (step_draw _)) trivial
      (step_enqueue_stored first (by decide) (by decide) (by decide))
  have hrestart : step zero twoMegabytes (afterStore first (2 ^ 20)) (.restart 1048629) =
      some second := by
    simp [step, afterStore, first, second, GroupState.opened]
  have hsecond := hstored.step trivial hrestart
  have hagain : Machine.Reachable (step zero twoMegabytes) (.opened 0 [])
      (afterStore second (2 ^ 20)) :=
    .step (.step hsecond trivial (step_draw _)) trivial
      (step_enqueue_stored second (by decide) (by decide) (by decide))
  have hnodup := h zero twoMegabytes 0 _ (by decide) hagain
  exact absurd hnodup (by decide)

end GroupAction

end Wedb.Aof
