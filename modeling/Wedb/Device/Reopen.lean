import Wedb.Device.FlatArray

/-!
# Reading and reopening the device

What a read gives, what an opening over the files finds, and the guarantees of the device in every
run of calls, stops and restarts.
-/

namespace Wedb.Segmented

open List Prog

variable {shift : Nat} {m : Memory}

/-! ## Reading -/

/-- A read of `len` bytes from an address: the bytes stored there, up to the first one missing. -/
def Memory.Reads (m : Memory) (address len : Nat) (got : List Byte) : Prop :=
  (∀ i < got.length, m.flat (address + i) = got[i]?) ∧
    (got.length = len ∨ m.flat (address + got.length) = none)

lemma Memory.Reads.append {address len : Nat} {got rest : List Byte}
    (h : ∀ i < got.length, m.flat (address + i) = got[i]?)
    (hrest : m.Reads (address + got.length) len rest) :
    m.Reads address (got.length + len) (got ++ rest) := by
  obtain ⟨hbytes, hend⟩ := hrest
  constructor
  · intro i hi
    rw [length_append] at hi
    rcases lt_or_ge i got.length with hlt | hge
    · rw [getElem?_append_left hlt]
      exact h i hlt
    · rw [getElem?_append_right hge, ← hbytes (i - got.length) (by omega)]
      congr 1
      omega
  · rw [length_append, ← Nat.add_assoc]
    exact hend.imp_left (congrArg _)

/-- The bytes of one file are those of the flat array. -/
lemma Inv.flat_chunk (h : Inv shift m) {address n i : Nat} (hseg : segmentOf shift address ∈ m.dir)
    (hn : offInSeg shift address + n ≤ segmentSize shift) (hi : i < n) :
    m.flat (address + i) = (m.content (segmentOf shift address))[offInSeg shift address + i]? := by
  have hplace := segmentOf_mul_add shift address
  have haddr : address + i = segmentOf shift address * segmentSize shift +
      (offInSeg shift address + i) := by omega
  have hoff : offInSeg shift address + i < segmentSize shift := by omega
  rw [h.bytes, Memory.byteAt, haddr, (segmentOf_place hoff).1, (segmentOf_place hoff).2, if_pos hseg]

lemma readChunks_reads {fuel address len : Nat} (h : Inv shift m) (hfuel : len ≤ fuel)
    (hborder : m.startSegment * segmentSize shift ≤ address) :
    m.Reads address len (readChunks shift m fuel address len).1 := by
  induction fuel generalizing address len with
  | zero => exact ⟨fun _ hi => absurd hi (Nat.not_lt_zero _), .inl (Nat.le_zero.1 hfuel).symm⟩
  | succ fuel ih =>
    unfold readChunks
    split
    · rename_i hlen
      exact ⟨fun _ hi => absurd hi (Nat.not_lt_zero _), .inl hlen.symm⟩
    · dsimp only
      have hlt := offInSeg_lt shift address
      generalize hchunk : min (segmentSize shift - offInSeg shift address) len = chunkLen
      split
      · -- no file has so high a segment
        refine ⟨fun _ hi => absurd hi (Nat.not_lt_zero _), .inr ?_⟩
        rw [length_nil, Nat.add_zero, h.bytes, Memory.byteAt, if_neg]
        intro hmem
        have hsmall := h.small _ hmem
        unfold i32Max at hsmall
        omega
      · split
        · rename_i hmissing
          refine ⟨fun _ hi => absurd hi (Nat.not_lt_zero _), .inr ?_⟩
          rcases hmissing with hbelow | hmissing
          · exact absurd (segmentOf_lt_iff.1 hbelow) (by omega)
          · rw [length_nil, Nat.add_zero, h.bytes, Memory.byteAt, if_neg hmissing]
        · rename_i hthere
          have hseg : segmentOf shift address ∈ m.dir := by
            by_contra hmissing
            exact hthere (.inr hmissing)
          generalize hgot : ((m.content (segmentOf shift address)).drop
            (offInSeg shift address)).take chunkLen = got
          have hlength : got.length =
              min chunkLen ((m.content (segmentOf shift address)).length - offInSeg shift address) := by
            rw [← hgot, length_take, length_drop]
          have hbytes : ∀ i < got.length, m.flat (address + i) = got[i]? := by
            intro i hi
            rw [h.flat_chunk hseg (n := chunkLen) (by omega) (by omega), ← hgot,
              getElem?_take_of_lt (by omega), getElem?_drop]
          split
          · rename_i hshort
            refine ⟨hbytes, .inr ?_⟩
            rw [h.flat_chunk hseg (by omega) hshort]
            exact getElem?_eq_none (by omega)
          · have hfull' : got.length = chunkLen := by omega
            have hrest : m.Reads (address + got.length) (len - chunkLen)
                (readChunks shift m fuel (address + got.length) (len - chunkLen)).1 :=
              ih (by omega) (by omega)
            have happend := Memory.Reads.append hbytes hrest
            rw [hfull'] at happend
            rwa [show chunkLen + (len - chunkLen) = len by omega] at happend

/-! ## Recovering -/

section Recovering

/-- An unbroken stretch of segments moves the end mark to its last one. -/
lemma recoverLoop_range' (k n recoveredStart : Nat) (endSegment : Int)
    (hsmall : (k : Int) + n ≤ i32Max + 1) :
    recoverLoop (range' k n) ((k : Int) - 1) recoveredStart endSegment =
      .ok (recoveredStart, if n = 0 then endSegment else max endSegment (k + n - 1)) := by
  induction n generalizing k endSegment with
  | zero => rfl
  | succ n ih =>
    have htoI32 : toI32 k = k := min_eq_left (by omega)
    have hrest := ih (k + 1) (max endSegment (toI32 k)) (by push_cast; omega)
    rw [show ((k + 1 : Nat) : Int) - 1 = k by push_cast; omega] at hrest
    rw [range'_succ, recoverLoop, if_neg (by omega), hrest, htoI32]
    congr 2
    split
    · rename_i hn
      omega
    · push_cast
      omega

/-- The loop over the stretch that is there. A single segment above zero would leave the end mark
where it was. -/
lemma recoverLoop_found {lo n : Nat} (hsmall : n ≠ 0 → (lo : Int) + n ≤ i32Max + 1)
    (hlone : n ≠ 1 ∨ lo = 0) :
    recoverLoop (range' lo n) (-1) 0 (-1) =
      .ok (if n = 0 then 0 else lo, if n = 0 then -1 else (lo : Int) + n - 1) := by
  rcases Nat.eq_zero_or_pos n with rfl | hpos
  · rfl
  · have hsmall' := hsmall (by omega)
    rcases Nat.eq_zero_or_pos lo with rfl | hlo
    · have hrange := recoverLoop_range' 0 n 0 (-1) hsmall'
      rw [show ((0 : Nat) : Int) - 1 = -1 from rfl] at hrange
      rw [hrange, if_neg (by omega), if_neg (by omega)]
      congr 2
      omega
    · obtain ⟨n, rfl⟩ : ∃ n', n = n' + 1 := ⟨n - 1, by omega⟩
      have hrange := recoverLoop_range' (lo + 1) n lo (-1) (by push_cast at hsmall' ⊢; omega)
      rw [show ((lo + 1 : Nat) : Int) - 1 = lo by push_cast; omega] at hrange
      rw [range'_succ, recoverLoop, if_pos (by omega), hrange, if_neg (by omega)]
      congr 2
      omega

/-- The marks stand at the lowest and the highest segment with a file. -/
structure Memory.Bounds (m : Memory) : Prop where
  lowest : ∀ id, m.dir.min? = some id → m.startSegment = id
  highest : ∀ id, m.dir.max? = some id → m.endSegment = id

/-- The directory holds one stretch of segments. -/
lemma Inv.sorted (h : Inv shift m) : ∃ lo n, (∀ id, id ∈ m.dir ↔ lo ≤ id ∧ id < lo + n) ∧
    m.dir.insertionSort (· ≤ ·) = range' lo n ∧ m.dir.length = n := by
  obtain ⟨lo, hi, -, hle, hmem⟩ := h.spans
  have hmem' : ∀ id, id ∈ m.dir ↔ lo ≤ id ∧ id < lo + (hi - lo) := fun id => by
    rw [hmem]
    omega
  have hsorted := insertionSort_eq_range' h.nodup hmem'
  refine ⟨lo, hi - lo, hmem', hsorted, ?_⟩
  rw [← length_insertionSort (· ≤ ·), hsorted, length_range']

/-- The files found are recovered, unless a single one above zero is all there is. -/
lemma recover_ok (h : Inv shift m) (hlone : m.dir.length ≠ 1 ∨ 0 ∈ m.dir) :
    ∃ m', recover shift m = .ok m' ∧ Inv shift m' ∧ m'.Bounds := by
  obtain ⟨lo, n, hmem, hsorted, hlength⟩ := h.sorted
  have hsize : (m.dir.find? fun id => segmentSize shift < (m.content id).length) = none := by
    rw [find?_eq_none]
    intro id hid
    simpa using h.sized id hid
  have hsmall : n ≠ 0 → (lo : Int) + n ≤ i32Max + 1 := by
    intro hn
    have := h.small (lo + n - 1) ((hmem _).2 (by omega))
    omega
  have hlone' : n ≠ 1 ∨ lo = 0 := by
    rcases hlone with hlone | hzero
    · exact .inl (hlength ▸ hlone)
    · exact .inr (Nat.le_zero.1 ((hmem 0).1 hzero).1)
  have hloop := recoverLoop_found hsmall hlone'
  rw [← hsorted] at hloop
  refine ⟨{ m with
      startSegment := if n = 0 then 0 else lo
      endSegment := if n = 0 then -1 else (lo : Int) + n - 1
      purgedSegment := if n = 0 then 0 else lo },
    by rw [recover, hsize]; simp only [hloop], ?_, ?_, ?_⟩
  · refine { h with
      spans := ⟨if n = 0 then 0 else lo, (if n = 0 then 0 else lo) + n, le_rfl, by omega,
        fun id => ?_⟩
      purged_le := le_rfl
      clean := fun id hid => ?_
      top := fun id hid => ?_ }
    · rw [hmem]
      split <;> omega
    all_goals
      have hid := (hmem id).1 hid
      dsimp only
      split <;> omega
  · intro id hid
    obtain ⟨hmin, hle⟩ := List.min?_eq_some_iff.1 hid
    have hin := (hmem id).1 hmin
    have hfirst := hle lo ((hmem lo).2 (by omega))
    dsimp only
    split <;> omega
  · intro id hid
    obtain ⟨hmax, hle⟩ := max?_eq_some_iff.1 hid
    have hin := (hmem id).1 hmax
    have hlast := hle (lo + n - 1) ((hmem _).2 (by omega))
    dsimp only
    split <;> omega

end Recovering

/-! ## Runs -/

/-- What the device guarantees. -/
structure IsFlatArray (shift : Nat) (s : State) : Prop where
  /-- a read above the border gives the bytes stored there, up to the first one missing -/
  read : ∀ offset len, s.memory.startSegment * segmentSize shift ≤ offset →
    offset + len < 2 ^ 64 → s.memory.Reads offset len (readImpl shift s.memory offset len).1
  /-- no truncation removes a file at or above the border -/
  kept : ∀ p ∈ s.memory.truncated, p.2 < p.1
  /-- a truncation that has succeeded leaves no file below it -/
  truncated : ∀ segment, s.task = some (.ret (.truncate segment (.ok ()))) →
    ∀ id ∈ s.memory.dir, segment ≤ id
  /-- no opening fails -/
  recovers : s.failure = none
  /-- an opening finds the lowest and the highest segment -/
  bounds : s.opened = true → s.memory.Bounds

/-- What a caller has to respect. A write starts inside its segment's file or right at its end, and
stays below segment `2 ^ 31`; an erasure starts above the border; the device is not reopened over a
single file that is not segment zero. -/
def careful (shift : Nat) (s : State) : Action → Bool
  | .write offset bytes =>
    offInSeg shift offset ≤ s.memory.fileLen (segmentOf shift offset) &&
      offset + bytes.length ≤ 2 ^ 31 * segmentSize shift
  | .erase fromAddress => s.memory.startSegment ≤ segmentOf shift fromAddress
  | .restart => s.memory.dir.length ≠ 1 || 0 ∈ s.memory.dir
  | _ => true

section Runs

variable {s s' : State} {a : Action}

/-- What a call leaves when it returns. -/
def Post (shift : Nat) (m : Memory) (o : Outcome) : Prop :=
  Inv shift m ∧ ∀ segment, o = .truncate segment (.ok ()) → ∀ id ∈ m.dir, segment ≤ id

/-- The files are in order now and at every place where the call may stop. -/
structure Sound (shift : Nat) (s : State) : Prop where
  inv : Inv shift s.memory
  task : ∀ p, s.task = some p → Keeps (exec shift) (Inv shift) (Post shift) s.memory p
  failure : s.failure = none
  bounds : s.opened = true → s.memory.Bounds

lemma Inv.next_of_le_frontier (h : Inv shift m) {offset : Nat}
    (hle : offset ≤ m.frontier shift) (hstart : m.startSegment ≤ segmentOf shift offset) :
    m.Next (segmentOf shift offset) := by
  have hsize := segmentSize_pos shift
  obtain ⟨lo, hi, hlo, hlohi, hmem⟩ := h.spans
  unfold Memory.frontier at hle
  split at hle
  · rename_i highest hmax
    obtain ⟨hin, hall⟩ := max?_eq_some_iff.1 hmax
    have hin' := (hmem highest).1 hin
    have hseg : segmentOf shift offset ≤ highest + 1 := by
      rw [segmentOf_eq]
      exact (Nat.div_le_div_right hle).trans (by rw [Nat.mul_div_cancel _ hsize])
    rcases lt_or_ge (segmentOf shift offset) hi with hlt | hge
    · exact .inl ((hmem _).2 ⟨by omega, hlt⟩)
    · have heq : segmentOf shift offset = hi := by omega
      exact .inr ⟨lo, hlo, by omega, by rw [heq]; exact hmem⟩
  · rename_i hnone
    have hdir : m.dir = [] := by simpa using hnone
    have hseg : segmentOf shift offset = m.startSegment := by
      refine le_antisymm ?_ hstart
      rw [segmentOf_eq]
      exact (Nat.div_le_div_right hle).trans (by rw [Nat.mul_div_cancel _ hsize])
    refine .inr ⟨m.startSegment, le_rfl, hstart, fun id => ?_⟩
    simp [hdir, hseg]

lemma Sound.step (h : Sound shift s) (ha : careful shift s a = true)
    (hs : step shift s a = some s') : Sound shift s' := by
  unfold Segmented.step at hs
  rw [h.failure] at hs
  simp only [Option.isSome_none, Bool.false_eq_true, if_false] at hs
  split at hs
  · rename_i offset bytes _
    obtain ⟨hle, ⟨⟩⟩ := Option.ite_none_right_eq_some.1 hs
    simp only [careful, Bool.and_eq_true, decide_eq_true_eq] at ha
    refine ⟨h.inv, ?_, rfl, nofun⟩
    rintro _ ⟨⟩
    have hwrite : Keeps (exec shift) (Inv shift) (fun m' _ => Inv shift m') s.memory
        (writeImpl shift offset bytes) := by
      unfold writeImpl
      split
      · exact h.inv
      · exact writeChunks_keeps h.inv (h.inv.next_of_le_frontier hle) ha.1 ha.2
    exact hwrite.bind fun m' _ hinv => ⟨hinv, nofun⟩
  · cases hs
    refine ⟨h.inv, ?_, rfl, nofun⟩
    rintro _ ⟨⟩
    refine (truncateUntilSegment_keeps h.inv).bind fun m' r ⟨hinv, hclean⟩ => ⟨hinv, ?_⟩
    rintro _ ⟨⟩
    exact hclean rfl
  · cases hs
    refine ⟨h.inv, ?_, rfl, nofun⟩
    rintro _ ⟨⟩
    exact (eraseTailAfter_keeps h.inv (of_decide_eq_true ha)).bind fun m' _ hinv => ⟨hinv, nofun⟩
  · rename_i n o k htask
    split at hs
    · rename_i m' r he
      cases hs
      obtain ⟨hinv, hkeeps⟩ := h.task _ htask n m' r he
      refine ⟨hinv, ?_, rfl, nofun⟩
      rintro _ ⟨⟩
      exact hkeeps
    · cases hs
  · cases hs
    exact ⟨h.inv, nofun, rfl, nofun⟩
  · have hlone : s.memory.dir.length ≠ 1 ∨ 0 ∈ s.memory.dir := by
      simpa [careful] using ha
    obtain ⟨m', hrecover, hinv, hbounds⟩ := recover_ok h.inv hlone
    rw [hrecover] at hs
    cases hs
    exact ⟨hinv, nofun, rfl, fun _ => hbounds⟩
  · cases hs

lemma sound_start : Sound shift start where
  inv :=
    { nodup := nodup_nil
      spans := ⟨0, 0, le_rfl, le_rfl, by simp [start]⟩
      sized := nofun
      bytes := fun a => by simp [start, Memory.byteAt]
      purged_le := le_rfl
      clean := nofun
      top := nofun
      small := nofun
      kept := nofun }
  task := nofun
  failure := rfl
  bounds _ := ⟨nofun, nofun⟩

lemma Sound.isFlatArray (h : Sound shift s) : IsFlatArray shift s where
  read offset len hborder hlen := by
    rw [readImpl, if_neg (not_le.2 hlen)]
    exact readChunks_reads h.inv le_rfl hborder
  kept := h.inv.kept
  truncated segment htask := (h.task _ htask).2 segment rfl
  recovers := h.failure
  bounds := h.bounds

/-- In every run of writes, truncations, erasures, stops and restarts that respect the conditions,
the device is a flat byte array. -/
theorem isFlatArray_of_careful
    (h : Machine.Reaches (step shift) (fun s a => careful shift s a = true) start s) :
    IsFlatArray shift s :=
  (h.invariant (I := Sound shift) sound_start fun hi ha hs => hi.step ha hs).isFlatArray

end Runs

/-- Three bytes over two segments of two bytes. -/
def twoSegments : List Action :=
  [.write 0 [1, 2, 3], .run 1, .run 1, .run 1, .run 1, .run 1, .run 2, .run 1, .run 1, .run 1,
    .run 1, .run 1, .run 1, .stop]

/-- A write, a truncation that stops after its deletion, a restart, and the truncation again. -/
theorem isFlatArray_retried_truncation :
    ∃ s, IsFlatArray 1 s ∧ s.memory.dir = [1] ∧ readImpl 1 s.memory 2 2 = ([3], none) := by
  obtain ⟨s, hs, hobs⟩ := Machine.exists_reaches_of_run (step 1)
    (fun s a => careful 1 s a = true) start
    (twoSegments ++ [.restart, .truncate 1, .run 1, .run 1, .run 1, .run 1, .stop,
      .truncate 1, .run 1, .run 1, .run 1, .run 1, .run 1])
    (fun s => (s.memory.dir, readImpl 1 s.memory 2 2)) ([1], ([3], none)) (by decide +kernel)
  exact ⟨s, isFlatArray_of_careful hs, congrArg Prod.fst hobs, congrArg Prod.snd hobs⟩

/-- After a truncation leaves one file, an opening does not find the end of the device. -/
theorem exists_not_isFlatArray : ∃ s, Machine.Reachable (step 1) start s ∧ ¬ IsFlatArray 1 s := by
  obtain ⟨s, hs, hobs⟩ := Machine.exists_reachable_of_run (step 1) start
    (twoSegments ++ [.truncate 1, .run 1, .run 1, .run 1, .run 1, .run 1, .run 1, .stop, .restart])
    (fun s => (s.opened, s.memory.dir, s.memory.endSegment)) (true, [1], -1) (by decide +kernel)
  simp only [Prod.mk.injEq] at hobs
  refine ⟨s, hs, fun hflat => ?_⟩
  have hend := (hflat.bounds hobs.1).highest 1 (by rw [hobs.2.1]; rfl)
  rw [hobs.2.2] at hend
  cases hend

end Wedb.Segmented
