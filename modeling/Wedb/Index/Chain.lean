import Mathlib.Data.List.Forall2
import Wedb.Index.Entry

/-!
# Scanning one bucket chain

The data slots of a bucket and of its overflow buckets, in walk order, are one list of words.
This is what a single session computes on it while nobody else writes: classify each slot, clear
the stale ones on the way, stop at the first hit and remember the first free slot.
-/

namespace Wedb

open List HashBucketEntry

/-- The verdict of `classify_slot`. -/
inductive SlotScan where
  | hit (raw : Nat)
  | free
  | occupied
  deriving DecidableEq, Repr

/-- A committed main-log entry whose address lies below the smallest valid address. -/
def isStale (minValidAddr raw : Nat) : Bool :=
  decide (0 < minValidAddr) && !isTentative raw && !isReadCache raw &&
    decide (address raw < minValidAddr)

/-- `classify_slot` when no other session writes: the clearing exchange succeeds and the second
load sees the first one's word. -/
def classifySlot (tag minValidAddr raw : Nat) : SlotScan :=
  if raw = 0 then .free
  else if isStale minValidAddr raw then .free
  else if matchesTag raw tag then .hit raw
  else .occupied

/-- The word `classify_slot` leaves in the slot. -/
def clearStale (minValidAddr raw : Nat) : Nat :=
  if isStale minValidAddr raw then 0 else raw

/-- What the scan of a chain leaves behind and reports. -/
structure ChainScan where
  slots : List Nat
  found : Option (Nat × Nat)
  firstFree : Option Nat
  deriving DecidableEq, Repr

/-- The slot loop of `find_or_create_tag`, from slot number `i` on. -/
def scanChain (tag minValidAddr : Nat) : List Nat → Nat → Option Nat → ChainScan
  | [], _, firstFree => ⟨[], none, firstFree⟩
  | raw :: rest, i, firstFree =>
    match classifySlot tag minValidAddr raw with
    | .hit r => ⟨raw :: rest, some (i, r), firstFree⟩
    | .free =>
      let scan := scanChain tag minValidAddr rest (i + 1) (firstFree.or (some i))
      { scan with slots := clearStale minValidAddr raw :: scan.slots }
    | .occupied =>
      let scan := scanChain tag minValidAddr rest (i + 1) firstFree
      { scan with slots := raw :: scan.slots }

/-- The word of the first entry that matches the tag, or the empty word: what a lookup that stops
at the first matching slot reads. -/
def headWord (chain : List Nat) (tag : Nat) : Nat :=
  (chain.find? (matchesTag · tag)).getD 0

/-- No two entries of the chain are committed for the same tag. -/
def TagUnique (chain : List Nat) : Prop :=
  chain.Pairwise fun v w => ∀ t, ¬(matchesTag v t = true ∧ matchesTag w t = true)

/-- The address as seen by a reader that ignores everything below `minValidAddr`. -/
def visible (minValidAddr a : Nat) : Nat := if a < minValidAddr then 0 else a

/-! ### Heads of a chain -/

variable {m : Nat}

lemma visible_of_stale {raw : Nat} (h : isStale m raw = true) : visible m (address raw) = 0 := by
  simp only [isStale, Bool.and_eq_true, decide_eq_true_eq] at h
  simp [visible, h.2]

@[simp] lemma visible_zero (m : Nat) : visible m 0 = 0 := by simp [visible]

variable {w t : Nat} {l : List Nat}

lemma headWord_cons_of_match (h : matchesTag w t = true) :
    headWord (w :: l) t = w := by simp [headWord, h]

lemma headWord_cons_of_not (h : matchesTag w t = false) :
    headWord (w :: l) t = headWord l t := by simp [headWord, h]

lemma headWord_eq_zero (h : ∀ w ∈ l, matchesTag w t = false) : headWord l t = 0 := by
  have : l.find? (matchesTag · t) = none := by
    rw [find?_eq_none]
    intro w hw
    simp [h w hw]
  simp [headWord, this]

lemma headWord_append {r : List Nat} (h : ∀ w ∈ l, matchesTag w t = false) :
    headWord (l ++ r) t = headWord r t := by
  induction l with
  | nil => rfl
  | cons w l ih =>
    rw [cons_append, headWord_cons_of_not (h w (by simp)), ih fun v hv => h v (by simp [hv])]

lemma headWord_append_right {r : List Nat} (h : ∀ w ∈ r, matchesTag w t = false) :
    headWord (l ++ r) t = headWord l t := by
  induction l with
  | nil => simpa [headWord] using headWord_eq_zero h
  | cons w l ih =>
    cases hw : matchesTag w t with
    | true => simp [headWord_cons_of_match hw]
    | false => rw [cons_append, headWord_cons_of_not hw, headWord_cons_of_not hw, ih]

lemma TagUnique.tail (h : TagUnique (w :: l)) : TagUnique l := (pairwise_cons.1 h).2

lemma TagUnique.not_match_of_head (h : TagUnique (w :: l))
    (hw : matchesTag w t = true) : ∀ v ∈ l, matchesTag v t = false := by
  intro v hv
  have := (pairwise_cons.1 h).1 v hv t
  simpa [hw] using this

/-- How a scan and a write for another tag may change a slot, as far as the tag `u` can see: not at
all, by clearing a stale word, or between two words of other tags. -/
def SameFor (m u : Nat) (w w' : Nat) : Prop :=
  w' = w ∨ (isStale m w = true ∧ w' = 0) ∨ (matchesTag w u = false ∧ matchesTag w' u = false)

lemma SameFor.not_match {u w' : Nat} (h : SameFor m u w w') (hw : matchesTag w u = false) :
    matchesTag w' u = false := by
  rcases h with rfl | ⟨-, rfl⟩ | ⟨-, h⟩
  · exact hw
  · simp
  · exact h

/-- The visible head of a tag survives every change that is none of its business. -/
lemma visible_headWord_congr {u : Nat} {l' : List Nat} (h : List.Forall₂ (SameFor m u) l l')
    (hu : TagUnique l) :
    visible m (address (headWord l' u)) = visible m (address (headWord l u)) := by
  induction h with
  | nil => rfl
  | @cons w w' l l' hw hl ih =>
    cases hm : matchesTag w u with
    | false =>
      rw [headWord_cons_of_not hm, headWord_cons_of_not (hw.not_match hm), ih hu.tail]
    | true =>
      rw [headWord_cons_of_match hm]
      rcases hw with rfl | ⟨hs, rfl⟩ | ⟨h0, -⟩
      · rw [headWord_cons_of_match hm]
      · -- the head itself was stale: behind it nothing of the tag is left
        have hrest : ∀ v ∈ l', matchesTag v u = false := by
          intro v hv
          obtain ⟨i, hi, rfl⟩ := mem_iff_getElem.1 hv
          have hi' : i < l.length := by rw [hl.length_eq]; exact hi
          exact (forall₂_iff_get.1 hl |>.2 i hi' hi).not_match
            (hu.not_match_of_head hm _ (getElem_mem hi'))
        rw [headWord_cons_of_not (by simp), headWord_eq_zero hrest, visible_of_stale hs]
        simp
      · rw [hm] at h0
        cases h0

/-! ### What a scan reports -/

lemma clearStale_eq_self_or (m w : Nat) :
    clearStale m w = w ∨ (isStale m w = true ∧ clearStale m w = 0) := by
  cases h : isStale m w <;> simp [clearStale, h]

@[simp] lemma clearStale_zero (m : Nat) : clearStale m 0 = 0 := by
  rcases clearStale_eq_self_or m 0 with h | h
  · exact h
  · exact h.2

lemma sameFor_clearStale (m u w : Nat) : SameFor m u w (clearStale m w) :=
  (clearStale_eq_self_or m w).imp_right Or.inl

lemma sameFor_self (m u w : Nat) : SameFor m u w w := Or.inl rfl

lemma not_match_clearStale (h : matchesTag w t = true → isStale m w = true) :
    matchesTag (clearStale m w) t = false := by
  cases hs : isStale m w with
  | true => simp [clearStale, hs]
  | false =>
    cases hm : matchesTag w t with
    | true => rw [h hm] at hs; cases hs
    | false => simpa [clearStale, hs] using hm

/-- Slots that lose their entry, or keep its tag, leave a chain without duplicates. -/
lemma TagUnique.of_forall₂ {l' : List Nat} (h : TagUnique l)
    (hl : List.Forall₂ (fun w w' => ∀ t, matchesTag w' t = true → matchesTag w t = true) l l') :
    TagUnique l' := by
  induction hl with
  | nil => exact h
  | @cons w w' l l' hw hl ih =>
    refine pairwise_cons.2 ⟨?_, ih h.tail⟩
    rintro v hv t ⟨hwt, hvt⟩
    obtain ⟨i, hi, rfl⟩ := mem_iff_getElem.1 hv
    have hi' : i < l.length := by rw [hl.length_eq]; exact hi
    have hl' := (forall₂_iff_get.1 hl).2 i hi' hi t hvt
    have := h.not_match_of_head (hw t hwt) _ (getElem_mem hi')
    simp only [get_eq_getElem] at hl'
    rw [hl'] at this
    cases this

lemma matchesTag_of_clearStale (h : matchesTag (clearStale m w) t = true) :
    matchesTag w t = true := by
  rcases clearStale_eq_self_or m w with hw | ⟨-, hw⟩
  · rwa [hw] at h
  · simp [hw] at h

lemma exists_split_of_getElem? {j : Nat} (h : l[j]? = some w) :
    ∃ pre post, l = pre ++ w :: post ∧ j = pre.length := by
  obtain ⟨hlt, rfl⟩ := List.getElem?_eq_some_iff.1 h
  refine ⟨l.take j, l.drop (j + 1), ?_, by simp [hlt.le]⟩
  rw [← drop_eq_getElem_cons hlt, take_append_drop]

/-- A hit splits the chain: everything before it was passed over and stale words there are gone. -/
lemma scanChain_found {i j r : Nat} {ff : Option Nat}
    (h : (scanChain t m l i ff).found = some (j, r)) :
    ∃ pre post, l = pre ++ r :: post ∧ j = i + pre.length ∧
      (scanChain t m l i ff).slots = pre.map (clearStale m) ++ r :: post ∧
      matchesTag r t = true ∧ isStale m r = false ∧
      ∀ w ∈ pre.map (clearStale m), matchesTag w t = false := by
  induction l generalizing i ff with
  | nil => simp [scanChain] at h
  | cons raw rest ih =>
    -- a slot that is passed over goes in front of the split of the rest
    have pass : ∀ {ff' : Option Nat} {w : Nat},
        (scanChain t m rest (i + 1) ff').found = some (j, r) → w = clearStale m raw →
        matchesTag w t = false →
        ∃ pre post, raw :: rest = pre ++ r :: post ∧ j = i + pre.length ∧
          w :: (scanChain t m rest (i + 1) ff').slots = pre.map (clearStale m) ++ r :: post ∧
          matchesTag r t = true ∧ isStale m r = false ∧
          ∀ w ∈ pre.map (clearStale m), matchesTag w t = false := by
      intro ff' w hf hw hnm
      obtain ⟨pre, post, hl, hj, hs, hr, hst, hpre⟩ := ih hf
      refine ⟨raw :: pre, post, by simp [hl], by simp [hj]; omega, by simp [hs, hw], hr, hst, ?_⟩
      rw [map_cons, forall_mem_cons]
      exact ⟨hw ▸ hnm, hpre⟩
    unfold scanChain at h ⊢
    unfold classifySlot at h ⊢
    by_cases h0 : raw = 0
    · subst h0
      exact pass h rfl (by simp)
    by_cases hst : isStale m raw = true
    · simp only [h0, hst] at h ⊢
      exact pass h rfl (not_match_clearStale fun _ => hst)
    by_cases hmt : matchesTag raw t = true
    · simp only [h0, hst, hmt] at h ⊢
      obtain ⟨rfl, rfl⟩ := Prod.mk.injEq .. ▸ Option.some.inj h
      exact ⟨[], rest, rfl, by simp, by simp, hmt, by simpa using hst, by simp⟩
    · simp only [h0, hst, hmt] at h ⊢
      exact pass h (by simp [clearStale, hst]) (by simpa using hmt)

/-- A miss has passed over every slot; the free slot it remembers is empty. -/
lemma scanChain_miss {i : Nat} {ff : Option Nat} (h : (scanChain t m l i ff).found = none) :
    (scanChain t m l i ff).slots = l.map (clearStale m) ∧
      (∀ w ∈ l.map (clearStale m), matchesTag w t = false) ∧
      ∀ j, (scanChain t m l i ff).firstFree = some j →
        ff = some j ∨ (i ≤ j ∧ (l.map (clearStale m))[j - i]? = some 0) := by
  induction l generalizing i ff with
  | nil =>
    refine ⟨rfl, by simp, fun j hj => .inl ?_⟩
    simpa [scanChain] using hj
  | cons raw rest ih =>
    have later : ∀ {j : Nat}, (i + 1 ≤ j ∧ (rest.map (clearStale m))[j - (i + 1)]? = some 0) →
        i ≤ j ∧ ((raw :: rest).map (clearStale m))[j - i]? = some 0 := by
      rintro j ⟨hij, hj⟩
      obtain ⟨k, rfl⟩ := Nat.exists_eq_add_of_le hij
      refine ⟨by omega, ?_⟩
      rw [show i + 1 + k - i = k + 1 by omega, map_cons]
      rwa [Nat.add_sub_cancel_left] at hj
    -- the two arms that pass a free slot over
    have freed : clearStale m raw = 0 →
        (scanChain t m rest (i + 1) (ff.or (some i))).found = none →
        ∀ j, (scanChain t m rest (i + 1) (ff.or (some i))).firstFree = some j →
          ff = some j ∨ (i ≤ j ∧ ((raw :: rest).map (clearStale m))[j - i]? = some 0) := by
      intro hc hf j hj
      rcases (ih hf).2.2 j hj with hor | hlater
      · cases ff with
        | some => exact .inl (by simpa using hor)
        | none =>
          have : i = j := by simpa using hor
          exact .inr ⟨by omega, by simp [← this, hc]⟩
      · exact .inr (later hlater)
    unfold scanChain at h ⊢
    unfold classifySlot at h ⊢
    by_cases h0 : raw = 0
    · subst h0
      simp only [if_true] at h ⊢
      refine ⟨by rw [map_cons, (ih h).1], ?_, freed (clearStale_zero m) h⟩
      rw [map_cons, forall_mem_cons]
      exact ⟨by simp, (ih h).2.1⟩
    by_cases hst : isStale m raw = true
    · have hc : clearStale m raw = 0 := by simp [clearStale, hst]
      simp only [h0, hst, if_true, if_false] at h ⊢
      refine ⟨by rw [map_cons, (ih h).1], ?_, freed hc h⟩
      rw [map_cons, forall_mem_cons]
      exact ⟨by simp [hc], (ih h).2.1⟩
    by_cases hmt : matchesTag raw t = true
    · simp [h0, hst, hmt] at h
    · have hc : clearStale m raw = raw := by simp [clearStale, hst]
      simp only [h0, hst, hmt] at h ⊢
      refine ⟨by simp [(ih h).1, hc], ?_, fun j hj => ((ih h).2.2 j hj).imp_right later⟩
      rw [map_cons, forall_mem_cons]
      exact ⟨by simpa [hc] using hmt, (ih h).2.1⟩

end Wedb
