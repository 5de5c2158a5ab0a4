import Wedb.Index.Chain

/-!
# The hash index

The table of bucket chains and the slot handles over it, as one session sees them: locating or
creating the slot of a tag, and the compare-exchange writes through the handle. The main result,
`HashIndex.findOrCreateTag_located`, says what a located slot is; the effect of the writes on every
slot of the table follows from it.
-/

namespace Wedb

open List HashBucketEntry

/-- The data slots of one bucket (`DATA_ENTRIES`). -/
abbrev dataEntries : Nat := 7

/-- The walk limit of a chain (`MAX_CHAIN_STEPS`). -/
abbrev maxChainSteps : Nat := 2 ^ 22

/-- The errors of the index primitives. -/
inductive IndexError where
  | invalidAddress (a : Nat)
  | addressOverflow (a : Nat)
  | overflowPoolExhausted
  | overflowCycleDetected
  deriving DecidableEq, Repr

/-- The hash index: `2 ^ bits` buckets, for each of them the data slots of its chain in walk order,
and the number of overflow buckets the pool can still hand out. -/
structure HashIndex where
  bits : Nat
  chains : Nat → List Nat
  pool : Nat

/-- A located slot (`HashEntryInfo`): its chain, its position there and the word that was seen. -/
structure HashEntryInfo where
  bucket : Nat
  slot : Nat
  raw : Nat
  tag : Nat
  deriving DecidableEq, Repr

namespace HashEntryInfo

def isFound (hei : HashEntryInfo) : Bool := hei.raw != 0

def address (hei : HashEntryInfo) : Nat := HashBucketEntry.address hei.raw

end HashEntryInfo

namespace HashIndex

def size (idx : HashIndex) : Nat := 2 ^ idx.bits

def mask (idx : HashIndex) : Nat := idx.size - 1

/-- The bucket of a hash. -/
def bucketIdx (idx : HashIndex) (hash : Nat) : Nat := hash &&& idx.mask

/-- Replace the slots of one chain. -/
def setChain (idx : HashIndex) (b : Nat) (slots : List Nat) : HashIndex :=
  { idx with chains := Function.update idx.chains b slots }

/-- Link one more overflow bucket to a chain (`advance_or_extend` at the end of the chain). -/
def extend (idx : HashIndex) (b : Nat) : Except IndexError HashIndex :=
  if idx.pool = 0 then .error .overflowPoolExhausted
  else if maxChainSteps ≤ (idx.chains b).length / dataEntries then .error .overflowCycleDetected
  else .ok { idx.setChain b (idx.chains b ++ replicate dataEntries 0) with pool := idx.pool - 1 }

/-- `find_or_create_tag_by_hash_with_min_addr` -/
def findOrCreateTag (idx : HashIndex) (hash minValidAddr : Nat) :
    Except IndexError (HashIndex × HashEntryInfo) :=
  let tag := tagFromHash hash
  let b := idx.bucketIdx hash
  let scan := scanChain tag minValidAddr (idx.chains b) 0 none
  let idx' := idx.setChain b scan.slots
  match scan.found with
  | some (slot, raw) => .ok (idx', ⟨b, slot, raw, tag⟩)
  | none =>
    match scan.firstFree with
    | some slot => .ok (idx', ⟨b, slot, 0, tag⟩)
    | none =>
      -- every slot is taken: the first slot of the newly linked bucket is the free one
      match idx'.extend b with
      | .ok idx'' => .ok (idx'', ⟨b, scan.slots.length, 0, tag⟩)
      | .error e => .error e

/-- The slot's compare-exchange, from the word the handle saw to `new`. -/
def compareExchange (idx : HashIndex) (hei : HashEntryInfo) (new : Nat) : Option HashIndex :=
  let chain := idx.chains hei.bucket
  if chain[hei.slot]? = some hei.raw then some (idx.setChain hei.bucket (chain.set hei.slot new))
  else none

/-- `HashEntryInfo::try_cas` -/
def tryCas (idx : HashIndex) (hei : HashEntryInfo) (newAddress : Nat) : HashIndex × Bool :=
  if newAddress = 0 ∨ addressSpace ≤ newAddress then (idx, false)
  else
    match idx.compareExchange hei (new newAddress hei.tag false) with
    | some idx' => (idx', true)
    | none => (idx, false)

/-- `HashEntryInfo::cas_to_zero` -/
def casToZero (idx : HashIndex) (hei : HashEntryInfo) (foundOnly : Bool) : HashIndex × Bool :=
  if hei.raw = 0 then (idx, !foundOnly)
  else
    match idx.compareExchange hei 0 with
    | some idx' => (idx', true)
    | none => (idx, false)

/-- `HashEntryInfo::try_set_invalid` -/
def trySetInvalid (idx : HashIndex) (hei : HashEntryInfo) : HashIndex × Bool :=
  idx.casToZero hei false

/-- The address a lookup of the tag in the bucket's chain finds, `0` when there is no entry
(`find_tag` and the read path stop at the first match). -/
def slotAddress (idx : HashIndex) (b tag : Nat) : Nat := address (headWord (idx.chains b) tag)

/-- No chain holds two committed entries of one tag. -/
def TagsUnique (idx : HashIndex) : Prop := ∀ b, TagUnique (idx.chains b)

/-! ### Located slots -/

@[simp] lemma setChain_chains_self (idx : HashIndex) (b : Nat) (l : List Nat) :
    (idx.setChain b l).chains b = l := by simp [setChain]

variable {idx : HashIndex}

lemma setChain_chains_of_ne {b c : Nat} {l : List Nat} (h : c ≠ b) :
    (idx.setChain b l).chains c = idx.chains c := by simp [setChain, h]

variable {idx' : HashIndex}

lemma extend_ok {b : Nat} (h : idx.extend b = .ok idx') :
    idx'.bits = idx.bits ∧ (∀ c, c ≠ b → idx'.chains c = idx.chains c) ∧
      idx'.chains b = idx.chains b ++ replicate dataEntries 0 := by
  unfold extend at h
  split_ifs at h
  cases h
  exact ⟨rfl, fun c hc => setChain_chains_of_ne hc, by simp [setChain]⟩

/-- The handle `hei`, found in `idx'`, is *the* slot of its tag: no other slot of its chain matches
the tag, the slot is empty or holds a fresh entry of the tag, and for a reader that ignores
addresses below `m` nothing else changed since `idx`. -/
structure Located (m : Nat) (idx idx' : HashIndex) (hei : HashEntryInfo) : Prop where
  bits : idx'.bits = idx.bits
  other : ∀ c, c ≠ hei.bucket → idx'.chains c = idx.chains c
  split : ∃ pre post, idx'.chains hei.bucket = pre ++ hei.raw :: post ∧ hei.slot = pre.length ∧
    (∀ w ∈ pre, matchesTag w hei.tag = false) ∧ ∀ w ∈ post, matchesTag w hei.tag = false
  unique : TagUnique (idx'.chains hei.bucket)
  raw : hei.raw = 0 ∨ matchesTag hei.raw hei.tag = true
  frame : ∀ u, visible m (idx'.slotAddress hei.bucket u) = visible m (idx.slotAddress hei.bucket u)

variable {m : Nat} {hei : HashEntryInfo}

lemma Located.slotAddress
    (h : Located m idx idx' hei) : idx'.slotAddress hei.bucket hei.tag = hei.address := by
  obtain ⟨pre, post, hc, -, hpre, hpost⟩ := h.split
  unfold HashIndex.slotAddress HashEntryInfo.address
  rw [hc, headWord_append hpre]
  rcases h.raw with h0 | hm
  · rw [headWord_cons_of_not (by simp [h0]), headWord_eq_zero hpost, h0]
  · rw [headWord_cons_of_match hm]

lemma Located.seen (h : Located m idx idx' hei) :
    visible m hei.address = visible m (idx.slotAddress hei.bucket hei.tag) := by
  rw [← h.slotAddress, h.frame]

/-- A successful probe locates the slot of the hash. -/
lemma findOrCreateTag_located {hash : Nat}
    (h : idx.findOrCreateTag hash m = .ok (idx', hei)) (hu : idx.TagsUnique) :
    hei.bucket = idx.bucketIdx hash ∧ hei.tag = tagFromHash hash ∧ Located m idx idx' hei := by
  unfold findOrCreateTag at h
  simp only at h
  have hchain := hu (idx.bucketIdx hash)
  cases hf : (scanChain (tagFromHash hash) m (idx.chains (idx.bucketIdx hash)) 0 none).found with
  | some =>
    rw [hf] at h
    obtain ⟨rfl, rfl⟩ := h
    obtain ⟨pre, post, hl, hj, hs, hr, -, hpre⟩ := scanChain_found hf
    have hrest : ∀ w ∈ post, matchesTag w (tagFromHash hash) = false := by
      rw [hl, TagUnique, pairwise_append] at hchain
      exact TagUnique.not_match_of_head hchain.2.1 hr
    refine ⟨rfl, rfl, rfl, fun c hc => setChain_chains_of_ne hc,
      ⟨_, post, by rw [setChain_chains_self, hs], by simp [hj], hpre, hrest⟩, ?_, .inr hr, ?_⟩
    · rw [setChain_chains_self, hs]
      rw [hl] at hchain
      refine hchain.of_forall₂ (rel_append ?_ ?_)
      · exact forall₂_map_right_iff.2 (forall₂_same.2 fun w _ t => matchesTag_of_clearStale)
      · exact forall₂_same.2 fun w _ t => id
    · intro u
      unfold slotAddress
      rw [setChain_chains_self, hs]
      rw [hl] at hchain ⊢
      refine visible_headWord_congr (rel_append ?_ ?_) hchain
      · exact forall₂_map_right_iff.2 (forall₂_same.2 fun w _ => sameFor_clearStale m u w)
      · exact forall₂_same.2 fun w _ => sameFor_self m u w
  | none =>
    rw [hf] at h
    obtain ⟨hs, hno, hfree⟩ := scanChain_miss hf
    have hunique : TagUnique ((idx.chains (idx.bucketIdx hash)).map (clearStale m)) :=
      hchain.of_forall₂ (forall₂_map_right_iff.2
        (forall₂_same.2 fun w _ t => matchesTag_of_clearStale))
    have hframe : ∀ u, visible m
        (address (headWord ((idx.chains (idx.bucketIdx hash)).map (clearStale m)) u)) =
          visible m (idx.slotAddress (idx.bucketIdx hash) u) := fun u =>
      visible_headWord_congr (forall₂_map_right_iff.2
        (forall₂_same.2 fun w _ => sameFor_clearStale m u w)) hchain
    cases hff : (scanChain (tagFromHash hash) m (idx.chains (idx.bucketIdx hash)) 0 none).firstFree
      with
    | some j =>
      rw [hff] at h
      obtain ⟨rfl, rfl⟩ := h
      obtain ⟨-, hj⟩ := (hfree j hff).resolve_left (by simp)
      obtain ⟨pre, post, hl, hjl⟩ := exists_split_of_getElem? hj
      refine ⟨rfl, rfl, rfl, fun c hc => setChain_chains_of_ne hc,
        ⟨pre, post, by rw [setChain_chains_self, hs, hl], hjl, ?_, ?_⟩, ?_, .inl rfl, ?_⟩
      · exact fun w hw => hno w (hl ▸ mem_append_left _ hw)
      · exact fun w hw => hno w (hl ▸ mem_append_right _ (mem_cons_of_mem 0 hw))
      · rw [setChain_chains_self, hs]
        exact hunique
      · intro u
        unfold slotAddress
        rw [setChain_chains_self, hs]
        exact hframe u
    | none =>
      rw [hff] at h
      simp only at h
      split at h
      · rename_i idx'' hext
        obtain ⟨rfl, rfl⟩ := h
        obtain ⟨hbits, hother, hnew⟩ := extend_ok hext
        rw [setChain_chains_self, hs] at hnew
        have hzero : ∀ t, ∀ w ∈ replicate dataEntries 0, matchesTag w t = false := by
          intro t w hw
          rw [eq_of_mem_replicate hw]
          simp
        refine ⟨rfl, rfl, hbits, fun c hc => (hother c hc).trans (setChain_chains_of_ne hc),
          ⟨_, replicate 6 0, hnew, by simp [hs], hno, ?_⟩, ?_, .inl rfl, ?_⟩
        · exact fun w hw => hzero _ w (mem_cons_of_mem 0 hw)
        · rw [hnew, TagUnique, pairwise_append]
          refine ⟨hunique, ?_, fun v _ w hw t hvw => ?_⟩
          · exact pairwise_replicate.2 (.inr fun t ht => by simp at ht)
          · simp [hzero t w hw] at hvw
        · intro u
          unfold slotAddress
          rw [hnew, headWord_append_right (hzero u)]
          exact hframe u
      · cases h

/-! ### Writes through a located slot -/

/-- `idx'` is `idx` with the slot of the tag set to the address, for a reader that ignores
addresses below `m`. -/
structure Wrote (m : Nat) (idx idx' : HashIndex) (b tag a : Nat) : Prop where
  bits : idx'.bits = idx.bits
  unique : idx'.TagsUnique
  self : visible m (idx'.slotAddress b tag) = visible m a
  other : ∀ c u, u < tagSpace → c ≠ b ∨ u ≠ tag →
    visible m (idx'.slotAddress c u) = visible m (idx.slotAddress c u)

section

variable (h : Located m idx idx' hei)
include h

section

variable (hu : idx.TagsUnique)
include hu

lemma Located.tagsUnique : idx'.TagsUnique := by
  intro c
  by_cases hc : c = hei.bucket
  · exact hc ▸ h.unique
  · exact h.other c hc ▸ hu c

/-- Leaving a located slot alone writes what is there. -/
lemma Located.wrote_self :
    Wrote m idx idx' hei.bucket hei.tag (idx.slotAddress hei.bucket hei.tag) := by
  refine ⟨h.bits, h.tagsUnique hu, h.frame _, fun c u _ _ => ?_⟩
  by_cases hc : c = hei.bucket
  · exact hc ▸ h.frame u
  · simp [HashIndex.slotAddress, h.other c hc]

/-- The exchange on a located slot succeeds and changes the slot of its tag only. -/
lemma Located.compareExchange {w : Nat} (ht : hei.tag < tagSpace)
    (hw : w = 0 ∨ matchesTag w hei.tag = true) :
    ∃ idx'', idx'.compareExchange hei w = some idx'' ∧
      Wrote m idx idx'' hei.bucket hei.tag (address w) := by
  obtain ⟨pre, post, hc, hslot, hpre, hpost⟩ := h.split
  have hget : (idx'.chains hei.bucket)[hei.slot]? = some hei.raw := by
    rw [hc, hslot]
    simp
  have hset : (idx'.chains hei.bucket).set hei.slot w = pre ++ w :: post := by
    rw [hc, hslot]
    simp
  -- to the other tags the old word and the new one look alike
  have hnot : ∀ {v u : Nat}, u < tagSpace → u ≠ hei.tag →
      v = 0 ∨ matchesTag v hei.tag = true → matchesTag v u = false := by
    intro v u hlt hne hv
    rcases hv with rfl | hv
    · simp
    · by_contra hm
      have := tag_eq_of_matchesTag hv (by simpa using hm)
      rw [Nat.mod_eq_of_lt ht, Nat.mod_eq_of_lt hlt] at this
      exact hne this.symm
  refine ⟨idx'.setChain hei.bucket (pre ++ w :: post), ?_, h.bits, ?_, ?_, ?_⟩
  · simp only [HashIndex.compareExchange, hget, if_true, hset]
  · intro c
    by_cases hcb : c = hei.bucket
    · subst hcb
      have hpw := h.unique
      rw [hc, TagUnique, pairwise_append] at hpw
      obtain ⟨hp1, hp2, hp3⟩ := hpw
      have hsame : ∀ {t : Nat}, matchesTag w t = true → matchesTag w hei.tag = true := by
        intro t hwt
        exact hw.resolve_left fun h0 => by simp [h0] at hwt
      have htag : ∀ {t v : Nat}, matchesTag w t = true → matchesTag v hei.tag = false →
          matchesTag v t = false := by
        intro t v hwt hv
        have := tag_eq_of_matchesTag hwt (hsame hwt)
        simpa [matchesTag, this] using hv
      rw [setChain_chains_self, TagUnique, pairwise_append]
      refine ⟨hp1, pairwise_cons.2 ⟨?_, (pairwise_cons.1 hp2).2⟩, ?_⟩
      · rintro v hv t ⟨hwt, hvt⟩
        rw [htag hwt (hpost v hv)] at hvt
        cases hvt
      · intro v hv x hx t hvx
        rcases mem_cons.1 hx with rfl | hx
        · rw [htag hvx.2 (hpre v hv)] at hvx
          exact absurd hvx.1 (by simp)
        · exact hp3 v hv x (mem_cons_of_mem _ hx) t hvx
    · rw [setChain_chains_of_ne hcb, h.other c hcb]
      exact hu c
  · unfold HashIndex.slotAddress
    rw [setChain_chains_self, headWord_append hpre]
    rcases hw with rfl | hw
    · rw [headWord_cons_of_not (by simp), headWord_eq_zero hpost]
    · rw [headWord_cons_of_match hw]
  · intro c u hlt hcu
    by_cases hcb : c = hei.bucket
    · subst hcb
      have hne : u ≠ hei.tag := by simpa using hcu
      rw [← h.frame u]
      unfold HashIndex.slotAddress
      rw [setChain_chains_self, hc]
      refine visible_headWord_congr (rel_append ?_ (Forall₂.cons ?_ ?_)) (hc ▸ h.unique)
      · exact forall₂_same.2 fun v _ => sameFor_self m u v
      · exact .inr (.inr ⟨hnot hlt hne h.raw, hnot hlt hne hw⟩)
      · exact forall₂_same.2 fun v _ => sameFor_self m u v
    · simp only [HashIndex.slotAddress, setChain_chains_of_ne hcb, h.other c hcb]

lemma Located.tryCas {a : Nat} (ht : hei.tag < tagSpace) (ha : 0 < a) (ha' : a < addressSpace) :
    Wrote m idx (idx'.tryCas hei a).1 hei.bucket hei.tag a := by
  have hmod : a % addressSpace = a := Nat.mod_eq_of_lt ha'
  obtain ⟨idx'', hx, hwrote⟩ := h.compareExchange hu ht (w := new a hei.tag false)
    (.inr ((matchesTag_new (by omega)).2 rfl))
  rw [address_new, hmod] at hwrote
  unfold HashIndex.tryCas
  rw [if_neg (by omega), hx]
  exact hwrote

lemma Located.trySetInvalid (ht : hei.tag < tagSpace) :
    Wrote m idx (idx'.trySetInvalid hei).1 hei.bucket hei.tag 0 := by
  unfold HashIndex.trySetInvalid casToZero
  by_cases h0 : hei.raw = 0
  · rw [if_pos h0]
    have hself := h.wrote_self hu
    refine ⟨hself.bits, hself.unique, ?_, hself.other⟩
    rw [h.slotAddress, HashEntryInfo.address, h0, address_zero]
  · obtain ⟨idx'', hx, hwrote⟩ := h.compareExchange hu ht (.inl rfl)
    rw [if_neg h0, hx]
    exact hwrote

end

end

end HashIndex

end Wedb
