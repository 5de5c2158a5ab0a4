import Wedb.Device.Segments

/-!
# The device is a flat byte array

After every file operation of every call the files hold the flat array, their segments form one
stretch, and the marks bound it. A call can therefore be stopped anywhere.
-/

namespace Wedb.Segmented

open Nat List Function Prog Memory

variable {shift : Nat} {m m' : Memory}

/-! ## Addresses -/

lemma segmentSize_pos (shift : Nat) : 0 < segmentSize shift := Nat.two_pow_pos shift

lemma segmentOf_eq (a : Nat) : segmentOf shift a = a / segmentSize shift :=
  shiftRight_eq_div_pow a shift

lemma offInSeg_eq (a : Nat) : offInSeg shift a = a % segmentSize shift :=
  and_two_pow_sub_one_eq_mod a shift

lemma offInSeg_lt (shift a : Nat) : offInSeg shift a < segmentSize shift := by
  rw [offInSeg_eq]
  exact mod_lt a (segmentSize_pos shift)

lemma segmentOf_mul_add (shift a : Nat) :
    segmentOf shift a * segmentSize shift + offInSeg shift a = a := by
  rw [segmentOf_eq, offInSeg_eq, Nat.mul_comm]
  exact div_add_mod a _

/-- An address is its segment and the place in it. -/
lemma segmentOf_place {segment off : Nat} (h : off < segmentSize shift) :
    segmentOf shift (segment * segmentSize shift + off) = segment ∧
      offInSeg shift (segment * segmentSize shift + off) = off := by
  rw [segmentOf_eq, offInSeg_eq, Nat.mul_comm]
  exact ⟨by rw [mul_add_div (segmentSize_pos shift), div_eq_of_lt h, Nat.add_zero],
    by rw [mul_add_mod, mod_eq_of_lt h]⟩

lemma segmentOf_lt_iff {a segment : Nat} :
    segmentOf shift a < segment ↔ a < segment * segmentSize shift := by
  rw [segmentOf_eq]
  exact div_lt_iff_lt_mul (segmentSize_pos shift)

/-! ## The invariant -/

/-- The byte the files hold at an address. -/
def Memory.byteAt (shift : Nat) (m : Memory) (a : Nat) : Option Byte :=
  if segmentOf shift a ∈ m.dir then (m.content (segmentOf shift a))[offInSeg shift a]? else none

/-- The segments that have a file are those from `lo` up to `hi`. -/
def Memory.Spans (m : Memory) (lo hi : Nat) : Prop :=
  lo ≤ m.startSegment ∧ lo ≤ hi ∧ ∀ id, id ∈ m.dir ↔ lo ≤ id ∧ id < hi

structure Inv (shift : Nat) (m : Memory) : Prop where
  nodup : m.dir.Nodup
  spans : ∃ lo hi, m.Spans lo hi
  sized : ∀ id ∈ m.dir, (m.content id).length ≤ segmentSize shift
  bytes : ∀ a, m.flat a = m.byteAt shift a
  purged_le : m.purgedSegment ≤ m.startSegment
  clean : ∀ id ∈ m.dir, m.purgedSegment ≤ id
  top : ∀ id ∈ m.dir, (id : Int) ≤ m.endSegment
  small : ∀ id ∈ m.dir, (id : Int) ≤ i32Max
  kept : ∀ p ∈ m.truncated, p.2 < p.1

/-! ## One operation -/

section Operations

variable {segment off : Nat} {bytes : List Byte}

/-- A place where a file can be added without leaving a gap. -/
def Memory.Next (m : Memory) (segment : Nat) : Prop :=
  segment ∈ m.dir ∨ ∃ lo, m.Spans lo segment

section

variable (h : Inv shift m)
include h

lemma Inv.next_succ (hseg : segment ∈ m.dir) : m.Next (segment + 1) := by
  obtain ⟨lo, hi, hlo, hle, hmem⟩ := h.spans
  have hseg' := (hmem segment).1 hseg
  rcases lt_or_ge (segment + 1) hi with hlt | hge
  · exact .inl ((hmem _).2 ⟨by omega, hlt⟩)
  · obtain rfl : hi = segment + 1 := by omega
    exact .inr ⟨lo, hlo, hle, hmem⟩

lemma Inv.maxEnd (e : Int) : Inv shift { m with endSegment := max m.endSegment e } :=
  { h with top := fun id hid => (h.top id hid).trans (le_max_left _ _) }

lemma Inv.create (hnext : m.Next segment) (hnew : segment ∉ m.dir)
    (hsmall : (segment : Int) ≤ i32Max) (htop : (segment : Int) ≤ m.endSegment)
    (hstart : m.startSegment ≤ segment) :
    Inv shift { m with
      dir := segment :: m.dir
      content := update m.content segment [] } where
  nodup := nodup_cons.2 ⟨hnew, h.nodup⟩
  spans := by
    obtain hmem | ⟨lo, hlo, hle, hmem⟩ := hnext
    · exact absurd hmem hnew
    · refine ⟨lo, segment + 1, hlo, by omega, fun id => ?_⟩
      simp only [mem_cons, hmem]
      omega
  sized id hid := by
    rcases eq_or_ne id segment with rfl | hne
    · simp
    · simpa [hne] using h.sized id (by simpa [hne] using hid)
  bytes a := by
    rw [h.bytes a]
    unfold byteAt
    rcases eq_or_ne (segmentOf shift a) segment with rfl | hne
    · simp [hnew]
    · simp [hne]
  purged_le := h.purged_le
  clean id hid := by
    rcases mem_cons.1 hid with rfl | hid
    · exact h.purged_le.trans hstart
    · exact h.clean id hid
  top id hid := by
    rcases mem_cons.1 hid with rfl | hid
    · exact htop
    · exact h.top id hid
  small id hid := by
    rcases mem_cons.1 hid with rfl | hid
    · exact hsmall
    · exact h.small id hid
  kept := h.kept

/-- Bytes written at a place of a segment are the bytes of the flat array at its address. -/
lemma Inv.pwrite (bytes : List Byte) (hseg : segment ∈ m.dir)
    (hoff : off ≤ (m.content segment).length) (hfit : off + bytes.length ≤ segmentSize shift) :
    Inv shift { m with
      content := update m.content segment (ByteFile.writeAllAt (m.content segment) bytes off)
      flat := store m.flat (segment * segmentSize shift + off) bytes } where
  nodup := h.nodup
  spans := h.spans
  sized id hid := by
    rcases eq_or_ne id segment with rfl | hne
    · simp only [update_self, ByteFile.length_writeAllAt hoff]
      exact max_le (h.sized id hid) hfit
    · simpa [hne] using h.sized id hid
  bytes a := by
    have hplace := segmentOf_mul_add shift a
    unfold store
    dsimp only
    rcases eq_or_ne (segmentOf shift a) segment with hsame | hne
    · rw [hsame] at hplace
      rw [byteAt, hsame, if_pos hseg]
      simp only [update_self, ByteFile.getElem?_writeAllAt hoff]
      rw [h.bytes a, byteAt, hsame, if_pos hseg]
      have hiff : (segment * segmentSize shift + off ≤ a ∧
          a < segment * segmentSize shift + off + bytes.length) ↔
          (off ≤ offInSeg shift a ∧ offInSeg shift a < off + bytes.length) := by omega
      have hsub : a - (segment * segmentSize shift + off) = offInSeg shift a - off := by omega
      simp only [hiff, hsub]
    · have hout : ¬(segment * segmentSize shift + off ≤ a ∧
          a < segment * segmentSize shift + off + bytes.length) := by
        rintro ⟨hge, hlt'⟩
        have ha : a = segment * segmentSize shift + (a - segment * segmentSize shift) := by omega
        rw [ha] at hne
        exact hne (segmentOf_place (by omega)).1
      rw [if_neg hout, h.bytes a, byteAt, byteAt]
      simp only [update_of_ne hne]
  purged_le := h.purged_le
  clean := h.clean
  top := h.top
  small := h.small
  kept := h.kept

/-- The file of a segment is cut, and the flat array with it. -/
lemma Inv.setLen (segment len : Nat) :
    Inv shift { m with
      content := update m.content segment ((m.content segment).take len)
      flat := fun a =>
        if segmentOf shift a = segment ∧ len ≤ offInSeg shift a then none else m.flat a } where
  nodup := h.nodup
  spans := h.spans
  sized id hid := by
    rcases eq_or_ne id segment with rfl | hne
    · simpa using .inr (h.sized id hid)
    · simpa [hne] using h.sized id hid
  bytes a := by
    dsimp only
    rcases eq_or_ne (segmentOf shift a) segment with rfl | hne
    · rw [h.bytes a, byteAt, byteAt]
      simp only [update_self, true_and, getElem?_take]
      split_ifs <;> first | rfl | omega
    · rw [if_neg (fun hc => hne hc.1), h.bytes a, byteAt, byteAt]
      simp only [update_of_ne hne]
  purged_le := h.purged_le
  clean := h.clean
  top := h.top
  small := h.small
  kept := h.kept

/-- A file goes, with its bytes; what is left has to be one stretch. -/
lemma Inv.removeFile (segment : Nat) (truncation : Bool)
    (hspans : ∃ lo hi, Memory.Spans { m with dir := m.dir.filter (· ≠ segment) } lo hi)
    (hkept : truncation = true → segment < m.startSegment) :
    Inv shift { m with
      dir := m.dir.filter (· ≠ segment)
      flat := fun a => if segmentOf shift a = segment then none else m.flat a
      truncated :=
        if truncation then (m.startSegment, segment) :: m.truncated else m.truncated } where
  nodup := h.nodup.filter _
  spans := hspans
  sized id hid := h.sized id (mem_of_mem_filter hid)
  bytes a := by
    dsimp only
    rw [h.bytes a, byteAt, byteAt]
    rcases eq_or_ne (segmentOf shift a) segment with hsame | hne
    · simp [hsame]
    · simp [hne]
  purged_le := h.purged_le
  clean id hid := h.clean id (mem_of_mem_filter hid)
  top id hid := h.top id (mem_of_mem_filter hid)
  small id hid := h.small id (mem_of_mem_filter hid)
  kept p hp := by
    split at hp
    · rename_i htrunc
      rcases mem_cons.1 hp with rfl | hp
      · exact hkept htrunc
      · exact h.kept p hp
    · exact h.kept p hp

omit h in
lemma Memory.Spans.removeFirst {lo hi : Nat} (h : m.Spans lo hi) (hlt : lo < hi)
    (hstart : lo < m.startSegment) :
    Memory.Spans { m with dir := m.dir.filter (· ≠ lo) } (lo + 1) hi := by
  obtain ⟨-, -, hmem⟩ := h
  refine ⟨hstart, hlt, fun id => ?_⟩
  simp only [mem_filter, hmem, decide_eq_true_eq]
  omega

omit h in
lemma Memory.Spans.removeLast {lo hi : Nat} (h : m.Spans lo (hi + 1)) (hle : lo ≤ hi) :
    Memory.Spans { m with dir := m.dir.filter (· ≠ hi) } lo hi := by
  obtain ⟨hlo, -, hmem⟩ := h
  refine ⟨hlo, hle, fun id => ?_⟩
  simp only [mem_filter, hmem, decide_eq_true_eq]
  omega

lemma Inv.maxStart (segment : Nat) :
    Inv shift { m with startSegment := max m.startSegment segment } :=
  { h with
    spans := by
      obtain ⟨lo, hi, hlo, hle, hmem⟩ := h.spans
      exact ⟨lo, hi, hlo.trans (le_max_left _ _), hle, hmem⟩
    purged_le := h.purged_le.trans (le_max_left _ _) }

lemma Inv.maxPurged (hclean : ∀ id ∈ m.dir, segment ≤ id) (hstart : segment ≤ m.startSegment) :
    Inv shift { m with purgedSegment := max m.purgedSegment segment } :=
  { h with
    purged_le := max_le h.purged_le hstart
    clean := fun id hid => max_le (h.clean id hid) (hclean id hid) }

/-- The end mark comes down once nothing is left above it. -/
lemma Inv.minEnd (segment : Nat) {address : Nat} (htop : ∀ id ∈ m.dir, id ≤ segment)
    (hnone : ∀ a, address ≤ a → m.flat a = none) :
    Inv shift { m with
      endSegment := min m.endSegment segment
      flat := fun a => if address ≤ a then none else m.flat a } where
  nodup := h.nodup
  spans := h.spans
  sized := h.sized
  bytes a := by
    dsimp only
    split
    · rename_i ha
      exact (hnone a ha).symm.trans (h.bytes a)
    · exact h.bytes a
  purged_le := h.purged_le
  clean := h.clean
  top id hid := le_min (h.top id hid) (by exact_mod_cast htop id hid)
  small := h.small
  kept := h.kept

end

end Operations

/-! ## Rules for the operations that change nothing -/

section Rules

variable {α : Type} {final : Memory → α → Prop} {segment : Nat}

section

variable (h : Inv shift m)
include h

lemma metadata_keeps {f : Option Nat → Code α} (hsome : segment ∈ m.dir →
      Keeps (exec shift) (Inv shift) final m (f (some (m.content segment).length)))
    (hnone : segment ∉ m.dir → Keeps (exec shift) (Inv shift) final m (f none)) :
    Keeps (exec shift) (Inv shift) final m (perform (Op.metadata segment) >>= f) := by
  refine .perform (fun _ => rfl) h ?_
  change Keeps (exec shift) (Inv shift) final m
    (f (if segment ∈ m.dir then some (m.content segment).length else none))
  split
  · exact hsome ‹_›
  · exact hnone ‹_›

/-- A directory sync may fail. -/
lemma syncDir_keeps {f : Bool → Code α}
    (hf : ∀ synced, Keeps (exec shift) (Inv shift) final m (f synced)) :
    Keeps (exec shift) (Inv shift) final m (perform Op.syncDir >>= f) := by
  rintro _ _ _ ⟨⟩
  exact ⟨h, hf _⟩

end

end Rules

/-! ## Writing -/

section Writing

variable {segment off address : Nat} {bytes : List Byte}

/-- Length of a segment's file, zero if there is none. -/
def Memory.fileLen (m : Memory) (segment : Nat) : Nat :=
  if segment ∈ m.dir then (m.content segment).length else 0

lemma getOrOpenFile_keeps (h : Inv shift m)
    (hnext : m.startSegment ≤ segment → m.Next segment) (hsmall : (segment : Int) ≤ i32Max)
    (htop : (segment : Int) ≤ m.endSegment) (hoff : off ≤ m.fileLen segment) :
    Keeps (exec shift) (Inv shift)
      (fun m' r => Inv shift m' ∧
        (r = .ok () → segment ∈ m'.dir ∧ off ≤ (m'.content segment).length)) m
      (getOrOpenFile segment) := by
  refine .perform (fun _ => rfl) h ?_
  split
  · exact ⟨h, nofun⟩
  · rename_i hstart
    have hstart' : m.startSegment ≤ segment := Nat.le_of_not_lt hstart
    refine metadata_keeps h (fun hmem => ?_) fun hmem => ?_
    · rw [fileLen, if_pos hmem] at hoff
      exact ⟨h, fun _ => ⟨hmem, hoff⟩⟩
    · rw [fileLen, if_neg hmem] at hoff
      have hcreate := h.create (hnext hstart') hmem hsmall htop hstart'
      rintro _ _ _ ⟨⟩
      refine ⟨hcreate, syncDir_keeps hcreate fun synced => ?_⟩
      cases synced with
      | true => exact ⟨hcreate, fun _ => ⟨mem_cons_self, by simpa using hoff⟩⟩
      | false =>
        -- the new file is the last one, and goes again
        have hspans : ∃ lo hi, Spans
            { m with
              dir := (segment :: m.dir).filter (· ≠ segment)
              content := update m.content segment [] } lo hi := by
          obtain ⟨lo, hi, hlo, hle, hdir⟩ := h.spans
          refine ⟨lo, hi, hlo, hle, fun id => ?_⟩
          simp only [mem_filter, mem_cons, decide_eq_true_eq, ← hdir id]
          constructor
          · rintro ⟨rfl | hid, hne⟩
            · exact absurd rfl hne
            · exact hid
          · intro hid
            exact ⟨.inr hid, fun he => hmem (he ▸ hid)⟩
        have hremove := hcreate.removeFile _ false hspans nofun
        rintro _ _ _ ⟨⟩
        exact ⟨hremove, hremove, nofun⟩

/-- The bytes of one chunk, however they are split up, go to their addresses. -/
lemma pwriteLoop_keeps {fuel : Nat} (h : Inv shift m) (hseg : segment ∈ m.dir)
    (hoff : off ≤ (m.content segment).length) (hfit : off + bytes.length ≤ segmentSize shift)
    (haddress : address = segment * segmentSize shift + off) :
    Keeps (exec shift) (Inv shift) (fun m' _ => Inv shift m' ∧ m'.dir = m.dir) m
      (pwriteLoop segment fuel off bytes address) := by
  induction fuel generalizing m off bytes address with
  | zero => exact ⟨h, rfl⟩
  | succ fuel ih =>
    subst haddress
    rintro n m' r he
    obtain ⟨hn, ⟨⟩⟩ := Option.ite_none_right_eq_some.1 he
    have hlen : (bytes.take n).length = n := length_take_of_le hn
    have hwrite := h.pwrite (bytes.take n) hseg hoff (by omega)
    refine ⟨hwrite, ?_⟩
    change Keeps _ _ _ _ (if n = 0 then _ else if n = bytes.length then _ else _)
    split
    · exact ⟨hwrite, rfl⟩
    · split
      · exact ⟨hwrite, rfl⟩
      · refine (ih hwrite hseg ?_ ?_ ?_).mono fun _ _ hfinal => hfinal
        · simp only [update_self, ByteFile.length_writeAllAt hoff, hlen]
          exact le_max_right _ _
        · rw [length_drop]
          omega
        · rw [Nat.add_assoc]

/-- Where the next chunk starts. -/
lemma next_chunk {currOffset chunkLen len : Nat}
    (hchunk : chunkLen = min (segmentSize shift - offInSeg shift currOffset) len) (hlt : chunkLen < len) :
    segmentOf shift (currOffset + chunkLen) = segmentOf shift currOffset + 1 ∧
      offInSeg shift (currOffset + chunkLen) = 0 := by
  have hoff := offInSeg_lt shift currOffset
  have hplace := segmentOf_mul_add shift currOffset
  have haddr : currOffset + chunkLen =
      (segmentOf shift currOffset + 1) * segmentSize shift + 0 := by
    rw [Nat.add_mul]
    omega
  rw [haddr]
  exact segmentOf_place (segmentSize_pos shift)

lemma writeChunks_keeps {fuel currOffset : Nat} (h : Inv shift m)
    (hnext : m.startSegment ≤ segmentOf shift currOffset → m.Next (segmentOf shift currOffset))
    (hoff : offInSeg shift currOffset ≤ m.fileLen (segmentOf shift currOffset))
    (hbound : currOffset + bytes.length ≤ 2 ^ 31 * segmentSize shift) :
    Keeps (exec shift) (Inv shift) (fun m' _ => Inv shift m') m
      (writeChunks shift fuel currOffset bytes) := by
  induction fuel generalizing m currOffset bytes with
  | zero => exact h
  | succ fuel ih =>
    unfold writeChunks
    split
    · exact h
    · dsimp only
      have hsegment : segmentOf shift currOffset < 2 ^ 31 := segmentOf_lt_iff.2 (by omega)
      have hsmall : (segmentOf shift currOffset : Int) ≤ i32Max := by
        unfold i32Max
        omega
      have hplace := segmentOf_mul_add shift currOffset
      have hlt := offInSeg_lt shift currOffset
      generalize hchunk : min (segmentSize shift - offInSeg shift currOffset) bytes.length = chunkLen
      split
      · exact h
      · have hend := h.maxEnd (toI32 (segmentOf shift currOffset))
        refine .perform (fun _ => rfl) hend ?_
        refine .bind (getOrOpenFile_keeps hend hnext hsmall ?_ hoff) ?_
        · exact (le_min le_rfl hsmall).trans (le_max_right _ _)
        intro m₁ r ⟨hinv, hopen⟩
        match r with
        | .error e => exact hinv
        | .ok () =>
          obtain ⟨hseg, hoff'⟩ := hopen rfl
          have htake : (bytes.take chunkLen).length = chunkLen := length_take_of_le (by omega)
          refine .bind (pwriteLoop_keeps hinv hseg hoff' (by omega) hplace.symm) ?_
          intro m₂ r ⟨hinv₂, hdir⟩
          match r with
          | .error e => exact hinv₂
          | .ok () =>
            rcases lt_or_ge chunkLen bytes.length with hmore | hdone
            · obtain ⟨hseg', hzero⟩ := next_chunk hchunk.symm hmore
              refine ih hinv₂ (fun _ => ?_) ?_ ?_
              · rw [hseg']
                exact hinv₂.next_succ (hdir ▸ hseg)
              · rw [hzero]
                exact zero_le _
              · rw [length_drop]
                omega
            · have hnil : bytes.drop chunkLen = [] := drop_eq_nil_of_le hdone
              rw [hnil]
              cases fuel with
              | zero | succ fuel => exact hinv₂

end Writing

/-! ## Truncating -/

section Truncating

variable {segment lo hi : Nat}

/-- The segments of a stretch, in ascending order. -/
lemma insertionSort_eq_range' {l : List Nat} {lo n : Nat} (hnodup : l.Nodup)
    (hmem : ∀ id, id ∈ l ↔ lo ≤ id ∧ id < lo + n) :
    l.insertionSort (· ≤ ·) = range' lo n := by
  have hperm : l.insertionSort (· ≤ ·) |>.Perm (range' lo n) := by
    refine (perm_insertionSort _ l).trans ?_
    refine (perm_ext_iff_of_nodup hnodup nodup_range').2 fun id => ?_
    rw [hmem, mem_range'_1]
  exact hperm.eq_of_pairwise' (pairwise_insertionSort _ l) pairwise_le_range'

/-- The deletions take the stretch away from below, one file at a time. -/
lemma removeFiles_keeps {n : Nat} (h : Inv shift m) (hspans : m.Spans lo hi) (hn : lo + n ≤ hi)
    (hstart : lo + n ≤ m.startSegment) :
    Keeps (exec shift) (Inv shift)
      (fun m' _ => Inv shift m' ∧ m'.Spans (lo + n) hi ∧ m'.startSegment = m.startSegment) m
      (removeFiles (range' lo n)) := by
  induction n generalizing m lo with
  | zero => exact ⟨h, hspans, rfl⟩
  | succ n ih =>
    have hfirst := hspans.removeFirst (by omega) (by omega)
    have hremove := h.removeFile lo true ⟨_, _, hfirst⟩ fun _ => by omega
    rintro _ _ _ ⟨⟩
    refine ⟨hremove, (ih hremove hfirst (by omega) ?_).mono fun m' _ hfinal => ?_⟩
    · change lo + 1 + n ≤ m.startSegment
      omega
    · rwa [show lo + (n + 1) = lo + 1 + n by omega]

lemma truncateUntilSegment_keeps (h : Inv shift m) :
    Keeps (exec shift) (Inv shift)
      (fun m' r => Inv shift m' ∧ (r = .ok () → ∀ id ∈ m'.dir, segment ≤ id)) m
      (truncateUntilSegment segment) := by
  refine .perform (fun _ => rfl) h ?_
  split
  · rename_i hle
    exact ⟨h, fun _ id hid => hle.trans (h.clean id hid)⟩
  · have hstart := h.maxStart segment
    refine .perform (fun _ => rfl) hstart (.perform (fun _ => rfl) hstart ?_)
    obtain ⟨lo, hi, hspans⟩ := hstart.spans
    have hcount : lo + (min hi segment - lo) ≤ hi ∧ lo + (min hi segment - lo) ≤ max lo segment := by
      have := hspans.2.1
      omega
    have hsorted : (m.dir.filter (· < segment)).insertionSort (· ≤ ·) =
        range' lo (min hi segment - lo) := by
      refine insertionSort_eq_range' (h.nodup.filter _) fun id => ?_
      have hid := hspans.2.2 id
      simp only [mem_filter, hid, decide_eq_true_eq]
      omega
    have hlo : lo ≤ max m.startSegment segment := hspans.1
    rw [hsorted]
    refine .bind (removeFiles_keeps hstart hspans hcount.1 ?_) ?_
    · change _ ≤ max m.startSegment segment
      omega
    rintro m₁ _ ⟨hinv, ⟨-, -, hmem⟩, hsame⟩
    have hclean : ∀ id ∈ m₁.dir, segment ≤ id := by
      intro id hid
      have := (hmem id).1 hid
      omega
    refine syncDir_keeps hinv fun synced => ?_
    cases synced with
    | true =>
      have hpurged := hinv.maxPurged hclean (by rw [hsame]; exact le_max_right _ _)
      rintro _ _ _ ⟨⟩
      exact ⟨hpurged, hpurged, fun _ => hclean⟩
    | false => exact ⟨hinv, nofun⟩

end Truncating

/-! ## Erasing -/

section Erasing

variable {segment off next : Nat}

section

variable (h : Inv shift m)
include h

lemma removeSegment_keeps (hlast : ∀ id ∈ m.dir, id ≤ segment) :
    Keeps (exec shift) (Inv shift)
      (fun m' r => Inv shift m' ∧ (r = .ok () → ∀ id ∈ m'.dir, id < segment) ∧
        ∀ a, m.flat a = none → m'.flat a = none) m
      (removeSegment segment) := by
  refine metadata_keeps h (fun hmem => ?_) fun hmem => ?_
  · have hspans : ∃ lo hi, Spans { m with dir := m.dir.filter (· ≠ segment) } lo hi := by
      obtain ⟨lo, hi, hspans⟩ := h.spans
      have hin := (hspans.2.2 segment).1 hmem
      obtain rfl : hi = segment + 1 := by
        by_contra hne
        have := hlast (segment + 1) ((hspans.2.2 _).2 (by omega))
        omega
      exact ⟨lo, segment, hspans.removeLast hin.1⟩
    have hremove := h.removeFile segment false hspans nofun
    have hbelow : ∀ id ∈ m.dir.filter (· ≠ segment), id < segment := by
      intro id hid
      obtain ⟨hid, hne⟩ := mem_filter.1 hid
      have := hlast id hid
      simp only [decide_eq_true_eq] at hne
      omega
    have hnone : ∀ a, m.flat a = none →
        (if segmentOf shift a = segment then none else m.flat a) = none := by
      intro a ha
      rw [ha, ite_self]
    rintro _ _ _ ⟨⟩
    refine ⟨hremove, syncDir_keeps hremove fun synced => ?_⟩
    cases synced with
    | true => exact ⟨hremove, fun _ => hbelow, hnone⟩
    | false => exact ⟨hremove, nofun, hnone⟩
  · refine ⟨h, fun _ id hid => ?_, fun _ => id⟩
    exact lt_of_le_of_ne (hlast id hid) fun he => hmem (he ▸ hid)

/-- The deletions take the stretch away from above, one file at a time. -/
lemma removeSegments_keeps {count : Nat} (hlast : ∀ id ∈ m.dir, id < next + count) :
    Keeps (exec shift) (Inv shift)
      (fun m' r => Inv shift m' ∧ (r = .ok () → ∀ id ∈ m'.dir, id < next) ∧
        ∀ a, m.flat a = none → m'.flat a = none) m
      (removeSegments next count) := by
  induction count generalizing m with
  | zero => exact ⟨h, fun _ => hlast, fun _ => id⟩
  | succ count ih =>
    refine (removeSegment_keeps h fun id hid => le_of_lt_succ (hlast id hid)).bind ?_
    rintro m₁ r ⟨hinv, hbelow, hnone⟩
    match r with
    | .error e => exact ⟨hinv, nofun, hnone⟩
    | .ok () =>
      refine (ih hinv (hbelow rfl)).mono fun m₂ r ⟨hinv₂, hbelow₂, hnone₂⟩ => ?_
      exact ⟨hinv₂, hbelow₂, fun a ha => hnone₂ a (hnone a ha)⟩

lemma getFileSize_keeps (hstart : m.startSegment ≤ segment) :
    Keeps (exec shift) (Inv shift) (fun m' size => m' = m ∧ size = m.fileLen segment) m
      (getFileSize segment) := by
  refine .perform (fun _ => rfl) h ?_
  rw [if_neg (not_lt.2 hstart)]
  refine metadata_keeps h (fun hmem => ⟨rfl, ?_⟩) fun hmem => ⟨rfl, ?_⟩
  · rw [fileLen, if_pos hmem]
    rfl
  · rw [fileLen, if_neg hmem]
    rfl

/-- After the cut the segment of the address has no byte from the address on. -/
lemma shrink_keeps (hstart : m.startSegment ≤ segment) :
    Keeps (exec shift) (Inv shift)
      (fun m' _ => Inv shift m' ∧ m'.dir = m.dir ∧ m'.endSegment = m.endSegment ∧
        ∀ a, segmentOf shift a = segment → off ≤ offInSeg shift a → m'.flat a = none) m
      (shrink segment off) := by
  refine .bind (getFileSize_keeps h hstart) ?_
  rintro _ size ⟨rfl, rfl⟩
  split
  · have hset := h.setLen segment off
    rintro _ _ _ ⟨⟩
    refine ⟨hset, hset, rfl, rfl, fun a hseg hoff => ?_⟩
    exact if_pos ⟨hseg, hoff⟩
  · rename_i hshort
    refine ⟨h, rfl, rfl, fun a hseg hoff => ?_⟩
    rw [h.bytes a, byteAt, hseg]
    split
    · rename_i hmem
      rw [fileLen, if_pos hmem] at hshort
      exact getElem?_eq_none (by omega)
    · rfl

lemma eraseTailAfter_keeps {fromAddress : Nat}
    (hstart : m.startSegment ≤ segmentOf shift fromAddress) :
    Keeps (exec shift) (Inv shift) (fun m' _ => Inv shift m') m
      (eraseTailAfter shift fromAddress) := by
  unfold eraseTailAfter
  dsimp only
  split
  · exact h
  · refine (shrink_keeps h hstart).bind ?_
    rintro m₁ _ ⟨hinv, hdir, hend, hcut⟩
    split
    · exact hinv
    · refine .perform (fun _ => rfl) hinv ?_
      have hlast : ∀ id ∈ m₁.dir, id < segmentOf shift fromAddress + 1 +
          (m₁.endSegment - segmentOf shift fromAddress).toNat := by
        intro id hid
        have := hinv.top id hid
        omega
      refine .bind (removeSegments_keeps hinv hlast) ?_
      rintro m₂ r ⟨hinv₂, hbelow, hnone⟩
      match r with
      | .error e => exact hinv₂
      | .ok () =>
        have hgone : ∀ a, fromAddress ≤ a → m₂.flat a = none := by
          intro a ha
          have hfrom := segmentOf_mul_add shift fromAddress
          have hplace := segmentOf_mul_add shift a
          rcases lt_or_ge (segmentOf shift fromAddress) (segmentOf shift a) with hgt | hle
          · rw [hinv₂.bytes a, byteAt, if_neg]
            intro hmem
            have := hbelow rfl _ hmem
            omega
          · have hsame : segmentOf shift a = segmentOf shift fromAddress := by
              refine le_antisymm hle ?_
              rw [segmentOf_eq, segmentOf_eq]
              exact Nat.div_le_div_right ha
            refine hnone a (hcut a hsame ?_)
            rw [hsame] at hplace
            omega
        have hmin := hinv₂.minEnd (segmentOf shift fromAddress)
          (fun id hid => le_of_lt_succ (hbelow rfl id hid)) hgone
        rintro _ _ _ ⟨⟩
        exact ⟨hmin, hmin⟩

end

end Erasing

end Wedb.Segmented
