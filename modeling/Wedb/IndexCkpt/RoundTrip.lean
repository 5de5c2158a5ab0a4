import Wedb.IndexCkpt.Snapshot
import Mathlib.Data.List.Forall2

/-!
# The round trip of an index checkpoint

An index at rest that is written and read back with a cut tail: every data slot holds what the cut
leaves of its entry, where an entry of the read cache stands for the entry of the main log at the end
of its chain, and every overflow link is gone or leads to the bucket it led to.
-/

namespace Wedb.IndexCkpt

open HashBucketEntry

/-- The read cache at rest: `prev` is the address behind a record of it, which may be another record
of the read cache or one of the main log. Addresses of the read cache carry bit 47 and chains go
downwards in them, so every address is above the one behind it. -/
structure ReadCache where
  isEnabled : Bool
  prev : Nat → Option Nat
  prev_lt : ∀ {a p}, prev a = some p → p < a
  prev_eq_none : isEnabled = false → ∀ a, prev a = none

namespace ReadCache

/-- The address where a chain leaves the read cache, or 0 if it ends inside. -/
def skipReadCache (rc : ReadCache) (addr : Nat) : Nat :=
  if isReadCache addr then
    match hprev : rc.prev addr with
    | some p =>
      have : p < addr := rc.prev_lt hprev
      rc.skipReadCache p
    | none => 0
  else addr

/-- At rest nothing is being evicted, so the walk never starts over. -/
def skipReadCacheWithWait (rc : ReadCache) (slot : UInt64) : Nat :=
  if rc.isEnabled then rc.skipReadCache (address slot.toNat) else address slot.toNat

/-- The address of the main log at the end of a chain of the read cache. -/
inductive ChainEnd (rc : ReadCache) : Nat → Nat → Prop
  | main {a : Nat} (h : isReadCache a = false) : ChainEnd rc a a
  | next {a p e : Nat} (h : isReadCache a = true) (hp : rc.prev a = some p) (he : ChainEnd rc p e) :
      ChainEnd rc a e

variable {rc : ReadCache} {a e : Nat}

lemma skipReadCache_eq (h : rc.ChainEnd a e) : rc.skipReadCache a = e := by
  induction h with
  | main h => rw [skipReadCache, if_neg (by simp [h])]
  | next h hp _ ih =>
    rw [skipReadCache, if_pos h]
    split
    · rename_i p' hp'
      obtain rfl := Option.some.inj (hp.symm.trans hp')
      exact ih
    · rename_i hnone
      cases hp.symm.trans hnone

/-- The walk ends at an address of the main log or finds nothing. -/
lemma chainEnd_skipReadCache (rc : ReadCache) (a : Nat) :
    rc.skipReadCache a = 0 ∨ rc.ChainEnd a (rc.skipReadCache a) := by
  fun_induction rc.skipReadCache a with
  | case1 a h p hp _ ih => exact ih.imp_right (.next h hp)
  | case2 => exact .inl rfl
  | case3 a h => exact .inr (.main (by simpa using h))

lemma ChainEnd.le (h : rc.ChainEnd a e) : e ≤ a := by
  induction h with
  | main => exact le_refl _
  | next _ hp _ ih => exact ih.trans (rc.prev_lt hp).le

lemma ChainEnd.not_readCache (h : rc.ChainEnd a e) : isReadCache e = false := by
  induction h with
  | main h => exact h
  | next _ _ _ ih => exact ih

end ReadCache

/-! ### One slot -/

lemma isReadCache_address (raw : Nat) : isReadCache (address raw) = isReadCache raw := by
  have hbit : raw % 2 ^ 48 / 2 ^ 47 % 2 = raw / 2 ^ 47 % 2 := by omega
  simp only [isReadCache, address, hbit]

/-- What is left of the data slot `raw` in `raw'`. -/
structure SlotRestored (rc : ReadCache) (tail : Option Nat) (raw raw' : UInt64) : Prop where
  /-- An entry of the main log below the cut. -/
  main : Committed raw → BelowTail tail (address raw.toNat) → raw' = raw
  /-- An entry of the read cache has the address at the end of its chain. -/
  readCache : isReadCache raw.toNat = true → isTentative raw.toNat = false →
    ∀ {e}, rc.ChainEnd (address raw.toNat) e → e ≠ 0 → BelowTail tail e →
      address raw'.toNat = e ∧ tag raw'.toNat = tag raw.toNat
  tentative : isTentative raw.toNat = true → raw' = 0
  committed : raw' ≠ 0 → Committed raw'
  /-- Nothing is made up. -/
  chainEnd : raw' ≠ 0 → rc.ChainEnd (address raw.toNat) (address raw'.toNat) ∧
    tag raw'.toNat = tag raw.toNat ∧ BelowTail tail (address raw'.toNat)

/-- A word with another address. -/
structure Readdressed (raw raw' : UInt64) (e : Nat) : Prop where
  address_eq : address raw'.toNat = e
  tag_eq : tag raw'.toNat = tag raw.toNat
  tentative_eq : isTentative raw'.toNat = isTentative raw.toNat

lemma readdressed (raw : UInt64) {e : Nat} (he : e < addressSpace) :
    Readdressed raw
      (UInt64.ofNat (raw.toNat / addressSpace * addressSpace + e % addressSpace)) e := by
  have hraw : raw.toNat < 2 ^ 64 := raw.toNat_lt
  have hword : raw.toNat / 2 ^ 48 * 2 ^ 48 + e % 2 ^ 48 < 2 ^ 64 := by omega
  have hof : (UInt64.ofNat (raw.toNat / addressSpace * addressSpace + e % addressSpace)).toNat =
      raw.toNat / 2 ^ 48 * 2 ^ 48 + e := by
    rw [UInt64.toNat_ofNat_of_lt' hword, Nat.mod_eq_of_lt he]
  change e < 2 ^ 48 at he
  have htent : (raw.toNat / 2 ^ 48 * 2 ^ 48 + e) / 2 ^ 63 % 2 = raw.toNat / 2 ^ 63 % 2 := by omega
  constructor
  · rw [hof]
    change (raw.toNat / 2 ^ 48 * 2 ^ 48 + e) % 2 ^ 48 = e
    omega
  · rw [hof]
    change (raw.toNat / 2 ^ 48 * 2 ^ 48 + e) / 2 ^ 48 % 2 ^ 15 = raw.toNat / 2 ^ 48 % 2 ^ 15
    omega
  · rw [hof, isTentative, isTentative, htent]

variable {rc : ReadCache} {raw : UInt64}

/-- No address of the main log is at the end of the chain and the slot is cleared, or the slot gets
the address at the end. -/
lemma resolveReadCache_cases (rc : ReadCache) (hrc : isReadCache raw.toNat = true) :
    (¬Committed (resolveReadCache rc.skipReadCacheWithWait raw) ∧
      ∀ e, rc.ChainEnd (address raw.toNat) e → e = 0) ∨
    ∃ e, rc.ChainEnd (address raw.toNat) e ∧
      Readdressed raw (resolveReadCache rc.skipReadCacheWithWait raw) e := by
  have haddr : isReadCache (address raw.toNat) = true := by rwa [isReadCache_address]
  have hne : raw ≠ 0 := by
    rintro rfl
    cases hrc
  have hlt : address raw.toNat < addressSpace := Nat.mod_lt _ (by decide)
  have hresolve : resolveReadCache rc.skipReadCacheWithWait raw =
      if rc.skipReadCacheWithWait raw = 0 then 0
      else .ofNat (raw.toNat / addressSpace * addressSpace +
        rc.skipReadCacheWithWait raw % addressSpace) :=
    if_neg (by simp [hne, hrc])
  rw [hresolve]
  unfold ReadCache.skipReadCacheWithWait
  split
  · -- the read cache is in use
    rcases rc.chainEnd_skipReadCache (address raw.toNat) with hzero | hend
    · refine .inl ⟨fun h => h.ne_zero (if_pos hzero), fun e he => ?_⟩
      rw [← ReadCache.skipReadCache_eq he, hzero]
    · by_cases hzero : rc.skipReadCache (address raw.toNat) = 0
      · refine .inl ⟨fun h => h.ne_zero (if_pos hzero), fun e he => ?_⟩
        rw [← ReadCache.skipReadCache_eq he, hzero]
      · rw [if_neg hzero]
        exact .inr ⟨_, hend, readdressed raw (hend.le.trans_lt hlt)⟩
  · -- without it the slot keeps its bit of the read cache
    rename_i henabled
    have hnone := rc.prev_eq_none (by simpa using henabled)
    have hzero : address raw.toNat ≠ 0 := by
      intro hzero
      rw [hzero] at haddr
      cases haddr
    refine .inl ⟨fun h => ?_, fun e he => ?_⟩
    · rw [if_neg hzero] at h
      have hbit := h.not_readCache
      rw [← isReadCache_address, (readdressed raw hlt).address_eq, haddr] at hbit
      cases hbit
    · cases he with
      | main hmain => rw [haddr] at hmain; cases hmain
      | next _ hp => rw [hnone] at hp; cases hp

lemma slotRestored (rc : ReadCache) (tail : Option Nat) (raw : UInt64) :
    SlotRestored rc tail raw
      (sanitizeDataSlot (resolveReadCache rc.skipReadCacheWithWait raw) tail) := by
  cases hrc : isReadCache raw.toNat with
  | false =>
    rw [resolveReadCache_of_not hrc]
    refine ⟨sanitizeDataSlot_eq_self, fun h => ?_, fun h => ?_, committed_sanitizeDataSlot, ?_⟩
    · rw [hrc] at h
      cases h
    · by_contra hne
      rw [(committed_of_sanitizeDataSlot hne).1.not_tentative] at h
      cases h
    · intro hne
      obtain ⟨hraw, hbelow⟩ := committed_of_sanitizeDataSlot hne
      rw [sanitizeDataSlot_eq_self hraw hbelow]
      exact ⟨.main (by rwa [isReadCache_address]), rfl, hbelow⟩
  | true =>
    refine ⟨fun h => ?_, fun _ htent e he hne hbelow => ?_, fun h => ?_, committed_sanitizeDataSlot,
      fun hne => ?_⟩
    · rw [h.not_readCache] at hrc
      cases hrc
    · obtain ⟨-, hnone⟩ | ⟨e', he', hword⟩ := resolveReadCache_cases rc hrc
      · exact absurd (hnone e he) hne
      · obtain rfl : e' = e := (ReadCache.skipReadCache_eq he').symm.trans (ReadCache.skipReadCache_eq he)
        have hraw : Committed (resolveReadCache rc.skipReadCacheWithWait raw) := by
          refine ⟨fun hzero => hne ?_, hword.tentative_eq.trans htent, ?_⟩
          · rw [← hword.address_eq, hzero]
            rfl
          · rw [← isReadCache_address, hword.address_eq, he'.not_readCache]
        rw [sanitizeDataSlot_eq_self hraw (hword.address_eq ▸ hbelow)]
        exact ⟨hword.address_eq, hword.tag_eq⟩
    · by_contra hne
      obtain ⟨hraw, -⟩ := committed_of_sanitizeDataSlot hne
      obtain ⟨hnot, -⟩ | ⟨e, -, hword⟩ := resolveReadCache_cases rc hrc
      · exact hnot hraw
      · rw [← hword.tentative_eq, hraw.not_tentative] at h
        cases h
    · obtain ⟨hraw, hbelow⟩ := committed_of_sanitizeDataSlot hne
      rw [sanitizeDataSlot_eq_self hraw hbelow]
      obtain ⟨hnot, -⟩ | ⟨e, he, hword⟩ := resolveReadCache_cases rc hrc
      · exact absurd hraw hnot
      · exact ⟨hword.address_eq.symm ▸ he, hword.tag_eq, hbelow⟩

/-! ### The whole index -/

/-- The data slots of a bucket. -/
def DataRestored (rc : ReadCache) (tail : Option Nat) (b b' : HashBucket) : Prop :=
  ∀ i, i ≠ HashBucket.overflowIndex → SlotRestored rc tail (b.entries i) (b'.entries i)

/-- An overflow link without latch bits. It leads where it led. -/
structure LinkRestored (rc : ReadCache) (tail : Option Nat) (index index' : HashIndex)
    (raw raw' : UInt64) : Prop where
  kept : address raw.toNat ≤ index.overflowPool.allocatedCount → raw'.toNat = address raw.toNat
  leads : raw' ≠ 0 → raw'.toNat = address raw.toNat ∧ 1 ≤ raw'.toNat ∧
    raw'.toNat ≤ index.overflowPool.allocatedCount ∧
    ∃ b b', index.overflowPool.get raw'.toNat = some b ∧
      index'.overflowPool.get raw'.toNat = some b' ∧ DataRestored rc tail b b'

structure BucketRestored (rc : ReadCache) (tail : Option Nat) (index index' : HashIndex)
    (b b' : HashBucket) : Prop where
  data : DataRestored rc tail b b'
  link : LinkRestored rc tail index index' (b.entries HashBucket.overflowIndex)
    (b'.entries HashBucket.overflowIndex)

/-- The index `index'` is what a cut leaves of `index`. -/
structure IndexRestored (rc : ReadCache) (tail : Option Nat) (index index' : HashIndex) : Prop where
  size_eq : index'.size = index.size
  main : List.Forall₂ (BucketRestored rc tail index index') index.buckets index'.buckets
  overflow : List.Forall₂ (BucketRestored rc tail index index') index.overflowPool.buckets
    index'.overflowPool.buckets

lemma dataRestored (rc : ReadCache) (tail : Option Nat) (n : Nat) (b : HashBucket) :
    DataRestored rc tail b (recovered rc.skipReadCacheWithWait n tail b) := by
  intro i hi
  simp only [recovered, HashBucket.mapSlots, if_neg hi]
  exact slotRestored rc tail _

lemma OverflowPool.exists_get (p : OverflowPool) {id : Nat} (hpos : 1 ≤ id)
    (hle : id ≤ p.allocatedCount) : ∃ b, p.get id = some b := by
  rw [get, if_neg (by omega)]
  exact ⟨_, List.getElem?_eq_getElem (by rw [allocatedCount] at hle; omega)⟩

variable {tail : Option Nat} {index index' : HashIndex}

section

variable (h : Recovers rc.skipReadCacheWithWait tail index index')
include h

lemma Recovers.get (id : Nat) :
    index'.overflowPool.get id = (index.overflowPool.get id).map
      (recovered rc.skipReadCacheWithWait index.overflowPool.allocatedCount tail) := by
  rw [OverflowPool.get, OverflowPool.get]
  split
  · rfl
  · rw [h.overflow, List.getElem?_map]

lemma Recovers.linkRestored (raw : UInt64) :
    LinkRestored rc tail index index' raw
      (sanitizeOverflowSlot raw index.overflowPool.allocatedCount) := by
  have hid := toNat_sanitizeOverflowSlot raw index.overflowPool.allocatedCount
  constructor
  · intro hle
    rw [hid, if_neg (not_lt.2 hle)]
  · intro hne
    have hpos : (sanitizeOverflowSlot raw index.overflowPool.allocatedCount).toNat ≠ 0 :=
      fun hzero => hne (UInt64.toNat.inj hzero)
    split at hid
    · exact absurd hid hpos
    · obtain ⟨b, hb⟩ := index.overflowPool.exists_get (Nat.one_le_iff_ne_zero.2 hpos) (by omega)
      refine ⟨hid, Nat.one_le_iff_ne_zero.2 hpos, by omega, b, _, hb, ?_,
        dataRestored rc tail index.overflowPool.allocatedCount b⟩
      rw [h.get, hb]
      rfl

lemma Recovers.bucketRestored (bs : List HashBucket) :
    List.Forall₂ (BucketRestored rc tail index index') bs (bs.map
      (recovered rc.skipReadCacheWithWait index.overflowPool.allocatedCount tail)) := by
  rw [List.forall₂_map_right_iff, List.forall₂_same]
  intro b _
  exact ⟨dataRestored rc tail _ b, h.linkRestored _⟩

end

/-- Every index that was written is read back, and the cut leaves every entry below it. -/
theorem indexCheckpoint_roundTrip (c : Crc32Hasher) (rc : ReadCache) (index : HashIndex)
    (entryCount : UInt64) (token : BitVec 128) (tail : Option Nat) :
    let file := (writeIndexCheckpoint c index entryCount token rc.skipReadCacheWithWait).1
    ∃ index', readIndexCheckpointTruncated c (some file) token tail =
        .ok (index', ⟨index.size, index.overflowPool.allocatedCount, entryCount.toNat⟩) ∧
      IndexRestored rc tail index index' := by
  obtain ⟨index', hread, hrec⟩ := readIndexCheckpointTruncated_eq c index entryCount token
    rc.skipReadCacheWithWait tail
  refine ⟨index', hread, ?_, ?_, ?_⟩
  · rw [HashIndex.size, hrec.buckets, List.length_map]
    rfl
  · rw [hrec.buckets]
    exact hrec.bucketRestored _
  · rw [hrec.overflow]
    exact hrec.bucketRestored _

end Wedb.IndexCkpt
