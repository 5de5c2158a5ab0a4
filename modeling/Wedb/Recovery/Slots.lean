import Mathlib.Data.List.Chain
import Wedb.Recovery.Kernel

/-!
# What recovery leaves in a slot

The scan touches the slot of a (bucket, tag) pair only through the records of that pair, so the
final slot is a fold over them (`recoverRecords_slot`). On a log whose records are linked to their
predecessors the fold has a closed form, which decides when the slot ends on the highest live
record of its chain.
-/

namespace Wedb.Recovery

open HashBucketEntry HashIndex

variable {hashKey : List UInt8 → Nat} {bd : Bounds}

/-- The record belongs to the chain of the (bucket, tag) pair. -/
def InSlot (hashKey : List UInt8 → Nat) (idx : HashIndex) (b tag : Nat) (r : LogRecord) : Prop :=
  r.key ≠ [] ∧ idx.bucketIdx (hashKey r.key) = b ∧ tagFromHash (hashKey r.key) = tag

instance (idx : HashIndex) (b tag : Nat) : DecidablePred (InSlot hashKey idx b tag) := fun _ =>
  inferInstanceAs (Decidable (_ ∧ _ ∧ _))

/-- The effect of one record of the chain on its slot, as far as addresses from the begin address
on are concerned. -/
def slotStep (bd : Bounds) (s : Nat) (r : LogRecord) : Nat :=
  if isUndone bd true r then
    if r.prev < bd.indexStart then visible bd.beginAddress r.prev else s
  else if bd.indexStart ≤ r.addr ∧ s ≤ r.addr then r.addr
  else s

/-! ### One record -/

lemma bucketIdx_eq {idx idx' : HashIndex} (h : idx'.bits = idx.bits) (hash : Nat) :
    idx'.bucketIdx hash = idx.bucketIdx hash := by
  simp [bucketIdx, mask, size, h]

/-- The index after a record: the slot of its own chain has changed, by `slotStep`. -/
structure TookIn (hashKey : List UInt8 → Nat) (bd : Bounds) (idx idx' : HashIndex)
    (r : LogRecord) : Prop where
  bits : idx'.bits = idx.bits
  unique : idx'.TagsUnique
  slot : ∀ b t, t < tagSpace → visible bd.beginAddress (idx'.slotAddress b t) =
    if InSlot hashKey idx b t r then
      slotStep bd (visible bd.beginAddress (idx.slotAddress b t)) r
    else visible bd.beginAddress (idx.slotAddress b t)

variable {r : LogRecord}

/-- A write to the slot of a record is seen by the slots of its chain only. -/
lemma TookIn.of_wrote {idx idx' : HashIndex} {b t a : Nat}
    (h : Wrote bd.beginAddress idx idx' b t a) (hkey : r.key ≠ [])
    (hb : b = idx.bucketIdx (hashKey r.key)) (ht : t = tagFromHash (hashKey r.key))
    (ha : visible bd.beginAddress a =
      slotStep bd (visible bd.beginAddress (idx.slotAddress b t)) r) :
    TookIn hashKey bd idx idx' r := by
  subst hb ht
  refine ⟨h.bits, h.unique, fun b t htag => ?_⟩
  split_ifs with hin
  · obtain ⟨-, rfl, rfl⟩ := hin
    exact h.self.trans ha
  · refine h.other b t htag ?_
    by_contra hc
    push Not at hc
    exact hin ⟨hkey, hc.1.symm, hc.2.symm⟩

/-- A record which does not move the slot of its chain leaves the index as it is. -/
lemma TookIn.refl {idx : HashIndex} (hu : idx.TagsUnique)
    (h : r.key ≠ [] → ∀ s, slotStep bd s r = s) : TookIn hashKey bd idx idx r := by
  refine ⟨rfl, hu, fun b t _ => ?_⟩
  split_ifs with hin
  · exact (h hin.1 _).symm
  · rfl

variable {st st' : ScanState}

lemma undoRecord_slot (h : undoRecord hashKey bd st r = .ok st') (hu : st.index.TagsUnique)
    (hr : r.addr < addressSpace) (hp : r.key ≠ [] → r.prev < r.addr)
    (hund : isUndone bd true r = true) :
    TookIn hashKey bd st.index st'.index r ∧ st'.undoSeals = st.undoSeals ++ [r.addr] := by
  unfold undoRecord at h
  by_cases hcond : r.prev < bd.indexStart ∧ r.key ≠ []
  · rw [if_pos hcond] at h
    obtain ⟨hprev, hkey⟩ := hcond
    cases hfc : st.index.findOrCreateTag (hashKey r.key) bd.beginAddress with
    | error => simp [hfc] at h
    | ok p =>
      obtain ⟨index, hei⟩ := p
      obtain ⟨hb, htag, hloc⟩ := findOrCreateTag_located hfc hu
      have htlt : hei.tag < tagSpace := htag ▸ tagFromHash_lt _
      -- both arms write the predecessor into the slot
      have hwrote : Wrote bd.beginAddress st.index st'.index hei.bucket hei.tag r.prev ∧
          st'.undoSeals = st.undoSeals ++ [r.addr] := by
        rw [hfc] at h
        simp only at h
        by_cases h0 : r.prev = 0
        · rw [if_pos h0] at h
          cases h
          exact ⟨h0 ▸ hloc.trySetInvalid hu htlt, rfl⟩
        · rw [if_neg h0] at h
          cases h
          have := hp hkey
          exact ⟨hloc.tryCas hu htlt (by omega) (by omega), rfl⟩
      refine ⟨.of_wrote hwrote.1 hkey hb htag ?_, hwrote.2⟩
      simp only [slotStep, hund, hprev, if_true]
  · rw [if_neg hcond] at h
    cases h
    refine ⟨.refl hu fun hkey s => ?_, rfl⟩
    have : ¬ r.prev < bd.indexStart := fun hlt => hcond ⟨hlt, hkey⟩
    simp only [slotStep, hund, this, if_true, if_false]

lemma replayRecord_slot (h : replayRecord hashKey bd st r = .ok st') (hu : st.index.TagsUnique)
    (hr : r.addr < addressSpace) (hpos : r.key ≠ [] → 0 < r.addr)
    (hbegin : bd.beginAddress ≤ r.addr)
    (hund : isUndone bd true r = false) :
    TookIn hashKey bd st.index st'.index r ∧ st'.undoSeals = st.undoSeals := by
  unfold replayRecord at h
  by_cases hcond : bd.indexStart ≤ r.addr ∧ r.key ≠ []
  · rw [if_pos hcond] at h
    obtain ⟨hstart, hkey⟩ := hcond
    cases hfc : st.index.findOrCreateTag (hashKey r.key) bd.beginAddress with
    | error => simp [hfc] at h
    | ok p =>
      obtain ⟨index, hei⟩ := p
      obtain ⟨hb, htag, hloc⟩ := findOrCreateTag_located hfc hu
      have htlt : hei.tag < tagSpace := htag ▸ tagFromHash_lt _
      have hseen := hloc.seen
      have hstep : ∀ s, slotStep bd s r = if s ≤ r.addr then r.addr else s := by
        intro s
        simp only [slotStep, hund, hstart, true_and, Bool.false_eq_true, if_false]
      rw [hfc] at h
      simp only at h
      by_cases hahead : r.addr < hei.address
      · -- the slot is already ahead of the record
        have hfound : hei.isFound = true := by
          simp only [HashEntryInfo.isFound, bne_iff_ne]
          intro h0
          simp [HashEntryInfo.address, h0] at hahead
        rw [if_neg (by simp [hfound, hahead])] at h
        cases h
        refine ⟨.of_wrote (hloc.wrote_self hu) hkey hb htag ?_, rfl⟩
        have hv : visible bd.beginAddress hei.address = hei.address := by
          rw [visible, if_neg (by omega)]
        rw [hstep, ← hseen, if_neg (by omega)]
      · rw [if_pos (by simp [hahead])] at h
        cases h
        refine ⟨.of_wrote (hloc.tryCas hu htlt (hpos hkey) hr) hkey hb htag ?_, rfl⟩
        have hle : visible bd.beginAddress hei.address ≤ r.addr := by
          rw [visible]
          split_ifs <;> omega
        rw [hstep, ← hseen, if_pos hle, visible, if_neg (by omega)]
  · rw [if_neg hcond] at h
    cases h
    refine ⟨.refl hu fun hkey s => ?_, rfl⟩
    have : ¬ bd.indexStart ≤ r.addr := fun hle => hcond ⟨hle, hkey⟩
    simp only [slotStep, hund, this, false_and, Bool.false_eq_true, if_false]

/-- The addresses a record of the log may have. -/
def InRange (bd : Bounds) (r : LogRecord) : Prop :=
  (r.key ≠ [] → r.prev < r.addr) ∧ bd.beginAddress ≤ r.addr ∧ r.addr < bd.tail

/-- One record of the scan changes the slot of its own chain, by `slotStep`. -/
lemma recoverRecord_slot
    (h : recoverRecord hashKey bd true st r = .ok st') (hu : st.index.TagsUnique)
    (hr : InRange bd r) :
    TookIn hashKey bd st.index st'.index r ∧
      st'.undoSeals = st.undoSeals ++ (if isUndone bd true r then [r.addr] else []) := by
  obtain ⟨hprev, hbegin, htail⟩ := hr
  have haddr : r.addr < addressSpace := Bounds.lt_addressSpace htail
  unfold recoverRecord at h
  cases hund : isUndone bd true r with
  | true =>
    rw [hund] at h
    simpa using undoRecord_slot h hu haddr hprev hund
  | false =>
    rw [hund, if_neg (by simp)] at h
    split at h
    · rename_i st'' hrep
      cases h
      simpa using replayRecord_slot hrep hu haddr (fun hk => (hprev hk).trans_le' (Nat.zero_le _))
        hbegin hund
    · cases h

/-- The scan folds the records of a chain into its slot and collects the undone addresses. -/
lemma recoverRecords_slot {log : List LogRecord}
    (h : recoverRecords hashKey bd true st log = .ok st') (hu : st.index.TagsUnique)
    (hr : ∀ r ∈ log, InRange bd r) :
    st'.undoSeals = st.undoSeals ++ (log.filter (isUndone bd true)).map LogRecord.addr ∧
      ∀ b t, t < tagSpace → visible bd.beginAddress (st'.index.slotAddress b t) =
        (log.filter fun r => decide (InSlot hashKey st.index b t r)).foldl (slotStep bd)
          (visible bd.beginAddress (st.index.slotAddress b t)) := by
  induction log generalizing st with
  | nil =>
    cases h
    simp
  | cons r rs ih =>
    unfold recoverRecords at h
    cases hrec : recoverRecord hashKey bd true st r with
    | error => simp [hrec] at h
    | ok st₁ =>
      rw [hrec] at h
      obtain ⟨⟨hbits, hu₁, hslot⟩, hseals⟩ := recoverRecord_slot hrec hu (hr r (by simp))
      obtain ⟨hseals', hslot'⟩ := ih h hu₁ fun x hx => hr x (by simp [hx])
      constructor
      · rw [hseals', hseals, List.filter_cons]
        split_ifs <;> simp
      · intro b t ht
        have hin : ∀ x, InSlot hashKey st₁.index b t x ↔ InSlot hashKey st.index b t x := fun x => by
          simp [InSlot, bucketIdx_eq hbits]
        simp only [hslot' b t ht, hslot b t ht, hin]
        by_cases hr' : InSlot hashKey st.index b t r <;> simp [hr']

end Wedb.Recovery
