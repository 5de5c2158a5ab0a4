import Mathlib.Data.Finset.Card
import Wedb.Index.Split

/-!
# Growth keeps every record reachable

Splitting one slot puts an entry of the same tag into every half that has a record on the slot's
chain, and insertions never remove an entry. So a bucket that has been split stays covered, and when
no chunk is pending every bucket is.
-/

namespace Wedb.Split

open List HashBucketEntry HashIndex Links

variable {log : LogView} {old : HashIndex}

/-- A log as growth finds it: links lead to smaller addresses, a record of the main log is linked
to the main log, and `0` is no address. -/
structure LogView.WellLinked (log : LogView) : Prop where
  descending : Descending log.next
  prev_main : ∀ {a h p}, log.read a = some (h, p) → isReadCache p = false
  zero : log.read 0 = none

/-! ### Buckets of the two tables -/

lemma bucketIdx_mod (idx : HashIndex) (hash : Nat) : hash &&& idx.mask = hash % 2 ^ idx.bits := by
  rw [mask, size, Nat.and_two_pow_sub_one_eq_mod]

/-- The bucket of a hash in the doubled table: the old one, or its sibling. -/
lemma mod_doubled (bits hash : Nat) :
    hash % 2 ^ (bits + 1) = hash % 2 ^ bits + 2 ^ bits * halfOf bits hash := by
  rw [halfOf, pow_succ, Nat.mod_mul]

lemma halfOf_lt_two (bits hash : Nat) : halfOf bits hash < 2 := Nat.mod_lt _ (by decide)

/-- The test of the trace and the test of the split agree. -/
lemma traceBit_eq (bits hash : Nat) :
    (if 2 ^ bits ≤ hash &&& (2 ^ (bits + 1) - 1) then 1 else 0) = halfOf bits hash := by
  rw [Nat.and_two_pow_sub_one_eq_mod, mod_doubled]
  have := halfOf_lt_two bits hash
  rcases lt_or_ge (halfOf bits hash) 1 with h | h
  · have : halfOf bits hash = 0 := by omega
    rw [this, if_neg (by omega)]
  · have : halfOf bits hash = 1 := by omega
    rw [this, if_pos (by omega)]

/-! ### Insertions -/

/-- `idx'` has every entry of `idx`. -/
def Keeps (idx idx' : HashIndex) : Prop :=
  idx'.bits = idx.bits ∧ ∀ c w, w ≠ 0 → w ∈ idx.chains c → w ∈ idx'.chains c

lemma Keeps.refl (idx : HashIndex) : Keeps idx idx := ⟨rfl, fun _ _ _ h => h⟩

lemma Keeps.trans {a b c : HashIndex} (h₁ : Keeps a b) (h₂ : Keeps b c) : Keeps a c :=
  ⟨h₂.1.trans h₁.1, fun i w hw h => h₂.2 i w hw (h₁.2 i w hw h)⟩

variable {b : Nat} {idx : HashIndex}

lemma keeps_setChain {l : List Nat}
    (h : ∀ w, w ≠ 0 → w ∈ idx.chains b → w ∈ l) : Keeps idx (idx.setChain b l) := by
  refine ⟨rfl, fun c w hw hc => ?_⟩
  by_cases hcb : c = b
  · subst hcb
    rw [setChain_chains_self]
    exact h w hw hc
  · rwa [setChain_chains_of_ne hcb]

/-- Overwriting an empty slot loses no entry. -/
lemma mem_set_of_getElem?_zero {l : List Nat} {i v w : Nat} (hi : l[i]? = some 0) (hw : w ≠ 0)
    (h : w ∈ l) : w ∈ l.set i v := by
  obtain ⟨j, hj⟩ := mem_iff_getElem?.1 h
  have hij : i ≠ j := by
    rintro rfl
    rw [hi] at hj
    exact hw (Option.some.inj hj).symm
  exact mem_iff_getElem?.2 ⟨j, by rw [getElem?_set_ne hij, hj]⟩

/-- An insertion keeps every entry, and one that succeeds adds its own. -/
lemma insertToBucket_spec (idx : HashIndex) (b t a : Nat) :
    Keeps idx (insertToBucket idx b t a).1 ∧
      ((insertToBucket idx b t a).2 = none → a ≠ 0 ∧ a < addressSpace ∧
        new a t false ∈ (insertToBucket idx b t a).1.chains (b &&& idx.mask)) := by
  unfold insertToBucket
  split_ifs with h0 hlt
  · exact ⟨.refl _, nofun⟩
  · exact ⟨.refl _, nofun⟩
  simp only
  split
  · rename_i slot hslot
    obtain ⟨hlen, hzero, -⟩ := findIdx?_eq_some_iff_getElem.1 hslot
    have hget : (idx.chains (b &&& idx.mask))[slot]? = some 0 := by
      rw [getElem?_eq_getElem hlen]
      simpa using hzero
    refine ⟨keeps_setChain fun w hw h => mem_set_of_getElem?_zero hget hw h, fun _ => ?_⟩
    rw [setChain_chains_self]
    exact ⟨h0, by omega, mem_set hlen _⟩
  · split
    · rename_i idx' hext
      obtain ⟨hbits, hother, hnew⟩ := extend_ok hext
      have hlen : (idx.chains (b &&& idx.mask)).length < (idx'.chains (b &&& idx.mask)).length := by
        simp [hnew]
      have hget : (idx'.chains (b &&& idx.mask))[(idx.chains (b &&& idx.mask)).length]? = some 0 := by
        simp [hnew]
      have hkeep : Keeps idx idx' := by
        refine ⟨hbits, fun c w hw h => ?_⟩
        by_cases hc : c = b &&& idx.mask
        · rw [hc] at h ⊢
          rw [hnew]
          exact mem_append_left _ h
        · rwa [hother c hc]
      refine ⟨hkeep.trans (keeps_setChain fun w hw h => mem_set_of_getElem?_zero hget hw h),
        fun _ => ?_⟩
      rw [setChain_chains_self]
      exact ⟨h0, by omega, mem_set hlen _⟩
    · exact ⟨.refl _, nofun⟩

variable {f : HashIndex → HashIndex × Option IndexError} {r : HashIndex × Option IndexError}

lemma keeps_andThen
    (hr : Keeps idx r.1)
    (hf : ∀ idx', Keeps idx' (f idx').1) : Keeps idx (andThen r f).1 := by
  obtain ⟨idx', _ | e⟩ := r
  · exact hr.trans (hf idx')
  · exact hr

lemma andThen_ok
    (h : (andThen r f).2 = none) :
    r.2 = none ∧ (f r.1).2 = none ∧ (andThen r f).1 = (f r.1).1 := by
  obtain ⟨idx', _ | e⟩ := r
  · exact ⟨rfl, h, rfl⟩
  · simp [andThen] at h

/-! ### Following a chain -/

lemma LogView.WellLinked.ne_zero (hl : log.WellLinked) {a h p : Nat}
    (hr : log.read a = some (h, p)) : a ≠ 0 := by
  rintro rfl
  rw [hl.zero] at hr
  cases hr

lemma next_of_main {a h p : Nat} (ha : isReadCache a = false) (hr : log.read a = some (h, p)) :
    log.next a = some p := by
  simp [LogView.next, ha, hr]

/-- Skipping the read cache meets the main log where the chain does. -/
lemma skipReadCache_spec {fuel a m : Nat} (h : skipReadCache log fuel a = some m) :
    isReadCache m = false ∧
      ∀ x, isReadCache x = false → Follows log.next a x → Follows log.next m x := by
  induction fuel generalizing a with
  | zero => simp [skipReadCache] at h
  | succ fuel ih =>
    unfold skipReadCache at h
    split_ifs at h with ha
    · cases hp : log.rcPrev a with
      | none => simp [hp] at h
      | some =>
        rw [hp] at h
        obtain ⟨hm, hfollow⟩ := ih h
        refine ⟨hm, fun x hx hax => hfollow x hx (hax.next_of_ne ?_ (by simp [LogView.next, ha, hp]))⟩
        rintro rfl
        rw [ha] at hx
        cases hx
    · cases h
      exact ⟨by simpa using ha, fun _ _ hax => hax⟩

/-- The locator reads the main-log record through which the rest of the chain is reached. -/
lemma recordLocator_spec (hl : log.WellLinked) {a h p : Nat}
    (hloc : recordLocator log a = some (h, p)) :
    ∃ m, isReadCache m = false ∧ log.read m = some (h, p) ∧
      ∀ x, isReadCache x = false → Follows log.next a x → Follows log.next m x := by
  unfold recordLocator at hloc
  simp only at hloc
  split_ifs at hloc with hrc hhead hhead
  · cases hs : skipReadCache log (a + 1) a with
    | none =>
      simp [hs, hl.zero] at hloc
    | some m =>
      obtain ⟨hm, hfollow⟩ := skipReadCache_spec hs
      rw [hs] at hloc
      exact ⟨m, hm, hloc, hfollow⟩
  · exact ⟨a, by simpa using hrc, hloc, fun _ _ hax => hax⟩

/-- The trace finds an entry point of the other half for every record of that half on the chain. -/
lemma traceBack_spec (hl : log.WellLinked) {bits target x hx px : Nat} (hxrc : isReadCache x = false)
    (hread : log.read x = some (hx, px)) (hhalf : halfOf bits hx = target)
    (hbegin : log.beginAddress ≤ x) :
    ∀ {fuel curr : Nat}, curr < fuel → isReadCache curr = false → Follows log.next curr x →
      ∃ o, traceBack log bits target fuel curr = some o ∧ Follows log.next o x := by
  intro fuel
  induction fuel with
  | zero => exact fun h => absurd h (by simp)
  | succ fuel ih =>
    intro curr hfuel hrc hfollow
    have hx0 := hl.ne_zero hread
    have hle := hfollow.le hl.descending
    unfold traceBack
    by_cases hhead : log.head ≤ curr
    · -- the chain goes on to `x`, so the record at `curr` is there
      obtain ⟨h, p, hcurr⟩ : ∃ h p, log.read curr = some (h, p) := by
        rcases follows_iff.1 hfollow with rfl | ⟨b, hb, -⟩
        · exact ⟨hx, px, hread⟩
        · simp only [LogView.next, hrc, Bool.false_eq_true, if_false, Option.map_eq_some_iff] at hb
          obtain ⟨⟨h, p⟩, hr, -⟩ := hb
          exact ⟨h, p, hr⟩
      have hloc : recordLocator log curr = some (h, p) := by
        simp [recordLocator, hrc, hhead, hcurr]
      rw [hloc]
      simp only [traceBit_eq]
      split_ifs with hbit
      · exact ⟨curr, rfl, hfollow⟩
      · have hnext := next_of_main hrc hcurr
        have hne : curr ≠ x := by
          rintro rfl
          rw [hread] at hcurr
          obtain ⟨rfl, rfl⟩ := Prod.mk.injEq .. ▸ Option.some.inj hcurr
          exact hbit hhalf
        have hlt := hl.descending curr p hnext
        exact ih (by omega) (hl.prev_main hcurr) (hfollow.next_of_ne hne hnext)
    · rw [if_neg hhead, if_pos ⟨by omega, by omega, by omega⟩]
      exact ⟨curr, rfl, hfollow⟩

/-! ### A split bucket -/

/-- `x` is a record of the main log that growth must not lose, with hash `hash`. -/
structure LiveAt (log : LogView) (x hash : Nat) : Prop where
  main : isReadCache x = false
  record : ∃ p, log.read x = some (hash, p)
  begin_le : log.beginAddress ≤ x

/-- The record is reached from an entry of the tag in the bucket of its hash. -/
def ReachedIn (log : LogView) (idx : HashIndex) (x hash tag : Nat) : Prop :=
  ∃ w ∈ idx.chains (hash &&& idx.mask), matchesTag w tag = true ∧ Follows log.next (address w) x

variable {hash : Nat}

lemma ReachedIn.mono {idx' : HashIndex} {x tag : Nat} (hk : Keeps idx idx')
    (h : ReachedIn log idx x hash tag) : ReachedIn log idx' x hash tag := by
  obtain ⟨w, hw, hm, hf⟩ := h
  have h0 : w ≠ 0 := by
    rintro rfl
    simp at hm
  refine ⟨w, ?_, hm, hf⟩
  rw [bucketIdx_mod, hk.1, ← bucketIdx_mod]
  exact hk.2 _ w h0 hw

/-- An entry inserted for the half of a hash reaches what its address reaches. -/
lemma reachedIn_insert {raw t a x : Nat}
    (hok : (insertToBucket idx b (tag raw) a).2 = none) (hm : matchesTag raw t = true)
    (hb : b &&& idx.mask = hash &&& idx.mask) (hf : Follows log.next a x) :
    ReachedIn log (insertToBucket idx b (tag raw) a).1 x hash t := by
  obtain ⟨hkeep, hspec⟩ := insertToBucket_spec idx b (tag raw) a
  obtain ⟨h0, hlt, hmem⟩ := hspec hok
  have hmod : a % addressSpace = a := Nat.mod_eq_of_lt hlt
  refine ⟨new a (tag raw) false, ?_, ?_, by rwa [address_new, hmod]⟩
  · rw [bucketIdx_mod, hkeep.1, ← bucketIdx_mod, ← hb]
    exact hmem
  · rw [matchesTag_new (by omega)]
    have := (matchesTag_iff.1 hm).1
    simp only [tag, this, Nat.mod_mod]

lemma left_bucket (hbits : idx.bits = old.bits + 1) (hhalf : halfOf old.bits hash = 0) :
    (hash &&& old.mask) &&& old.mask &&& idx.mask = hash &&& idx.mask := by
  simp only [bucketIdx_mod, hbits, mod_doubled, hhalf]
  have := Nat.mod_lt hash (Nat.two_pow_pos old.bits)
  simp [halfOf]

lemma right_bucket (hbits : idx.bits = old.bits + 1) (hhalf : halfOf old.bits hash = 1) :
    ((hash &&& old.mask) &&& old.mask) + old.size &&& idx.mask = hash &&& idx.mask := by
  simp only [bucketIdx_mod, hbits, Nat.mod_mod, size]
  rw [mod_doubled old.bits hash, hhalf, mul_one]
  exact Nat.mod_eq_of_lt (by rw [pow_succ]; omega)

lemma insertOther_keeps (log : LogView) (bits other bit t p : Nat) (idx : HashIndex) :
    Keeps idx (insertOther log bits other bit t p idx).1 := by
  unfold insertOther
  split_ifs
  · exact .refl _
  · split
    · exact (insertToBucket_spec ..).1
    · exact .refl _

lemma splitSlot_keeps (log : LogView) (old : HashIndex) (b raw : Nat) (idx : HashIndex) :
    Keeps idx (splitSlot log old b raw idx).1 := by
  unfold splitSlot
  simp only
  split_ifs
  · exact .refl _
  · exact .refl _
  · split
    · split_ifs <;>
        exact keeps_andThen (insertToBucket_spec ..).1 fun _ => insertOther_keeps ..
    · exact keeps_andThen (insertToBucket_spec ..).1 fun idx' => (insertToBucket_spec ..).1

/-- The head of the chain goes to bucket `near`, an entry of the other half to bucket `far`. -/
lemma insertBoth_covers {raw t x near far half p : Nat} (hbits : idx.bits = old.bits + 1)
    (hok : (andThen (insertToBucket idx near (tag raw) (address raw))
      (insertOther log old.bits far half (tag raw) p)).2 = none)
    (hm : matchesTag raw t = true) (hf : Follows log.next (address raw) x)
    (hside : near &&& idx.mask = hash &&& idx.mask ∨
      (∀ {idx' : HashIndex}, idx'.bits = old.bits + 1 → far &&& idx'.mask = hash &&& idx'.mask) ∧
      p ≠ 0 ∧ ∃ o, traceBack log old.bits half (p + 1) p = some o ∧ Follows log.next o x) :
    ReachedIn log (andThen (insertToBucket idx near (tag raw) (address raw))
      (insertOther log old.bits far half (tag raw) p)).1 x hash t := by
  obtain ⟨hok₁, hok₂, heq⟩ := andThen_ok hok
  rw [heq]
  rcases hside with hnear | ⟨hfar, hp, o, ho, hof⟩
  · exact (reachedIn_insert hok₁ hm hnear hf).mono (insertOther_keeps ..)
  · simp only [insertOther, hp, ho] at hok₂ ⊢
    exact reachedIn_insert hok₂ hm (hfar ((insertToBucket_spec ..).1.1.trans hbits)) hof

/-- A slot that was split reaches, from the bucket of their hash, all live records of the old
bucket that its chain reached. -/
lemma splitSlot_covers (hl : log.WellLinked) {raw t x : Nat} (hbits : idx.bits = old.bits + 1)
    (hok : (splitSlot log old (hash &&& old.mask) raw idx).2 = none)
    (hm : matchesTag raw t = true) (hx : LiveAt log x hash)
    (hf : Follows log.next (address raw) x) :
    ReachedIn log (splitSlot log old (hash &&& old.mask) raw idx).1 x hash t := by
  obtain ⟨px, hread⟩ := hx.record
  have hx0 := hl.ne_zero hread
  have hle := hf.le hl.descending
  obtain ⟨htag, ha0⟩ := matchesTag_iff.1 hm
  have hraw : raw ≠ 0 := by
    rintro rfl
    simp at hm
  have hvalid : isValid raw = true := by
    simp only [isValid, isTentative, bne_iff_ne, Bool.and_eq_true, Bool.not_eq_true',
      beq_eq_false_iff_ne]
    simp only [addressSpace, tagSpace] at htag
    exact ⟨hraw, by omega⟩
  unfold splitSlot at hok ⊢
  rw [if_neg (by simp [hraw, hvalid, ha0])] at hok ⊢
  rw [if_neg (by have := hx.begin_le; omega)] at hok ⊢
  have hhalf2 := halfOf_lt_two old.bits hash
  cases hloc : recordLocator log (address raw) with
  | none =>
    simp only [hloc] at hok ⊢
    obtain ⟨hok₁, hok₂, heq⟩ := andThen_ok hok
    rw [heq]
    rcases lt_or_ge (halfOf old.bits hash) 1 with h0 | h1
    · exact (reachedIn_insert hok₁ hm (left_bucket hbits (by omega)) hf).mono
        (insertToBucket_spec ..).1
    · have hbits' := (insertToBucket_spec idx ((hash &&& old.mask) &&& old.mask) (tag raw)
        (address raw)).1.1.trans hbits
      exact reachedIn_insert hok₂ hm (right_bucket hbits' (by omega)) hf
  | some hp =>
    obtain ⟨h, p⟩ := hp
    obtain ⟨m, hmrc, hmread, hmf⟩ := recordLocator_spec hl hloc
    have hfm := hmf x hx.main hf
    simp only [hloc] at hok ⊢
    -- a record of the other half lies behind the head, and the trace meets it
    have hother : halfOf old.bits hash ≠ halfOf old.bits h → p ≠ 0 ∧
        ∃ o, traceBack log old.bits (halfOf old.bits hash) (p + 1) p = some o ∧
          Follows log.next o x := by
      intro hne
      have hmx : m ≠ x := by
        rintro rfl
        rw [hmread] at hread
        obtain ⟨rfl, rfl⟩ := Prod.mk.injEq .. ▸ Option.some.inj hread
        exact hne rfl
      have hpx := hfm.next_of_ne hmx (next_of_main hmrc hmread)
      have hle' := hpx.le hl.descending
      exact ⟨by omega, traceBack_spec hl hx.main hread rfl hx.begin_le (Nat.lt_succ_self p)
        (hl.prev_main hmread) hpx⟩
    by_cases hh : halfOf old.bits h = 0
    · simp only [hh] at hok hother ⊢
      apply insertBoth_covers hbits hok hm hf
      by_cases hsame : halfOf old.bits hash = 0
      · exact .inl (left_bucket hbits hsame)
      · have hone : halfOf old.bits hash = 1 := by omega
        exact .inr ⟨fun hbits' => right_bucket hbits' hone, hone ▸ hother hsame⟩
    · simp only [hh] at hok ⊢
      apply insertBoth_covers hbits hok hm hf
      by_cases hsame : halfOf old.bits hash = 1
      · exact .inl (right_bucket hbits hsame)
      · have hzero : halfOf old.bits hash = 0 := by omega
        exact .inr ⟨fun hbits' => left_bucket hbits' hzero, hzero ▸ hother (by omega)⟩

lemma splitSlots_keeps (log : LogView) (old : HashIndex) (b : Nat) (slots : List Nat)
    (idx : HashIndex) : Keeps idx (splitSlots log old b slots idx).1 := by
  induction slots generalizing idx with
  | nil => exact .refl _
  | cons raw rest ih => exact keeps_andThen (splitSlot_keeps log old b raw idx) ih

/-- The live records of an old bucket are reached in the new table. -/
def Covered (log : LogView) (old idx : HashIndex) (b : Nat) : Prop :=
  ∀ raw ∈ old.chains b, ∀ t x hash, matchesTag raw t = true → LiveAt log x hash →
    hash &&& old.mask = b → Follows log.next (address raw) x → ReachedIn log idx x hash t

lemma Covered.mono {idx' : HashIndex} (hk : Keeps idx idx')
    (h : Covered log old idx b) : Covered log old idx' b :=
  fun raw hraw t x hash hm hx hb hf => (h raw hraw t x hash hm hx hb hf).mono hk

/-- A bucket whose split succeeded is covered. -/
lemma splitSingleBucket_covers (hl : log.WellLinked)
    (hb : b < old.size) (hbits : idx.bits = old.bits + 1)
    (hok : (splitSingleBucket log old b idx).2 = none) :
    Covered log old (splitSingleBucket log old b idx).1 b := by
  have hb' : b &&& old.mask = b := by
    rw [bucketIdx_mod]
    exact Nat.mod_eq_of_lt hb
  unfold splitSingleBucket at hok ⊢
  rw [hb'] at hok ⊢
  have key : ∀ (slots : List Nat) (idx : HashIndex), idx.bits = old.bits + 1 →
      (splitSlots log old b slots idx).2 = none → ∀ raw ∈ slots, ∀ t x hash,
      matchesTag raw t = true → LiveAt log x hash → hash &&& old.mask = b →
      Follows log.next (address raw) x →
      ReachedIn log (splitSlots log old b slots idx).1 x hash t := by
    intro slots
    induction slots with
    | nil => exact fun _ _ _ raw hraw => absurd hraw (by simp)
    | cons v rest ih =>
      intro idx hbits hok raw hraw t x hash hm hx hxb hf
      obtain ⟨hok₁, hok₂, heq⟩ := andThen_ok hok
      unfold splitSlots
      rw [heq]
      rcases mem_cons.1 hraw with rfl | hraw
      · subst hxb
        exact (splitSlot_covers hl hbits hok₁ hm hx hf).mono (splitSlots_keeps ..)
      · exact ih _ ((splitSlot_keeps log old b v idx).1.trans hbits) hok₂ raw hraw t x hash hm hx
          hxb hf
  exact key _ idx hbits hok

/-! ### Chunks -/

lemma chunk_shape (old : HashIndex) :
    ∃ j ≤ old.bits, chunkCount old.size = 2 ^ j ∧ chunkSize old = 2 ^ (old.bits - j) := by
  unfold chunkSize chunkCount
  rcases lt_or_ge old.bits 14 with h | h
  · have h0 : old.size / chunkBuckets = 0 := Nat.div_eq_of_lt (Nat.pow_lt_pow_right (by decide) h)
    refine ⟨0, Nat.zero_le _, by rw [if_pos h0, pow_zero], ?_⟩
    rw [if_pos h0, Nat.div_one, Nat.sub_zero, size]
  · have h1 : old.size / chunkBuckets = 2 ^ (old.bits - 14) := Nat.pow_div h (by decide)
    have hne : old.size / chunkBuckets ≠ 0 := by
      rw [h1]
      exact (Nat.two_pow_pos _).ne'
    refine ⟨old.bits - 14, by omega, by rw [if_neg hne, h1], ?_⟩
    rw [if_neg hne, h1, size, Nat.pow_div (by omega) (by decide)]

lemma chunkSize_pos (old : HashIndex) : 0 < chunkSize old := by
  obtain ⟨j, -, -, hs⟩ := chunk_shape old
  rw [hs]
  exact Nat.two_pow_pos _

variable {c : Nat}

lemma chunkStart_eq (hc : c < chunkCount old.size) : chunkStart old c = chunkSize old * c := by
  obtain ⟨j, -, hcount, -⟩ := chunk_shape old
  rw [chunkStart, hcount, Nat.and_two_pow_sub_one_eq_mod, Nat.mod_eq_of_lt (hcount ▸ hc)]

lemma chunkSize_mul_count (old : HashIndex) : chunkSize old * chunkCount old.size = old.size := by
  obtain ⟨j, hj, hcount, hs⟩ := chunk_shape old
  rw [hs, hcount, size, ← pow_add, Nat.sub_add_cancel hj]

/-- The bucket lies in the chunk. -/
def InChunk (old : HashIndex) (c b : Nat) : Prop :=
  chunkStart old c ≤ b ∧ b < chunkStart old c + chunkSize old

lemma InChunk.lt_size (hc : c < chunkCount old.size) (h : InChunk old c b) : b < old.size := by
  have h1 := h.2
  rw [chunkStart_eq hc] at h1
  calc b < chunkSize old * (c + 1) := by rw [mul_add, mul_one]; exact h1
    _ ≤ chunkSize old * chunkCount old.size := Nat.mul_le_mul_left _ hc
    _ = old.size := chunkSize_mul_count old

/-- Every bucket lies in one chunk, the one its number is divided into. -/
lemma inChunk_iff (hc : c < chunkCount old.size) : InChunk old c b ↔ b / chunkSize old = c := by
  rw [InChunk, chunkStart_eq hc, Nat.div_eq_iff (chunkSize_pos old)]
  have := chunkSize_pos old
  rw [mul_comm]
  omega

/-- The chunks that are not completed. -/
def pendingChunks (old : HashIndex) (st : State) : Finset Nat :=
  (Finset.range (chunkCount old.size)).filter fun c => st.status c ≠ .completed

structure Inv (log : LogView) (old : HashIndex) (st : State) : Prop where
  bits : st.table.bits = old.bits + 1
  claimed : ∀ c, st.status c ≠ .unstarted → c < chunkCount old.size
  progress : ∀ c n, st.status c = .inProgress n → chunkStart old c ≤ n ∧
    n ≤ chunkStart old c + chunkSize old ∧
    ∀ b, chunkStart old c ≤ b → b < n → Covered log old st.table b
  completed : ∀ c b, st.status c = .completed → InChunk old c b → Covered log old st.table b
  pending : st.pending = (pendingChunks old st).card
  splits : ∀ b, b < old.size → st.splitBuckets.count b =
    if st.status (b / chunkSize old) = .completed then 1 else 0

lemma inv_start (log : LogView) (old : HashIndex) (pool : Nat) : Inv log old (start old pool) where
  bits := rfl
  claimed c h := absurd rfl h
  progress c n h := by simp [start] at h
  completed c b h := by simp [start] at h
  pending := by simp [start, pendingChunks]
  splits b _ := by simp [start]

variable {st : State}

/-- A chunk that changes hands without being completed, over a table that has kept its entries. -/
lemma Inv.retarget {s : ChunkStatus} {table : HashIndex} (h : Inv log old st)
    (hkeep : Keeps st.table table) (hc : c < chunkCount old.size) (hs : s ≠ .completed)
    (hold : st.status c ≠ .completed)
    (hprog : ∀ n, s = .inProgress n → chunkStart old c ≤ n ∧ n ≤ chunkStart old c + chunkSize old ∧
      ∀ b, chunkStart old c ≤ b → b < n → Covered log old table b) :
    Inv log old { st with table, status := Function.update st.status c s } where
  bits := hkeep.1.trans h.bits
  claimed d hd := by
    by_cases hdc : d = c
    · exact hdc ▸ hc
    · exact h.claimed d (by simpa [hdc] using hd)
  progress d n hd := by
    by_cases hdc : d = c
    · subst hdc
      exact hprog n (by simpa using hd)
    · obtain ⟨h1, h2, h3⟩ := h.progress d n (by simpa [hdc] using hd)
      exact ⟨h1, h2, fun b hb hbn => (h3 b hb hbn).mono hkeep⟩
  completed d b hd hb := by
    by_cases hdc : d = c
    · subst hdc
      exact absurd (by simpa using hd) hs
    · exact (h.completed d b (by simpa [hdc] using hd) hb).mono hkeep
  pending := by
    refine h.pending.trans (congrArg Finset.card (Finset.filter_congr fun d _ => ?_))
    by_cases hd : d = c
    · simp [hd, hs, hold]
    · simp [hd]
  splits b hb := by
    rw [h.splits b hb]
    by_cases hbc : b / chunkSize old = c
    · simp [hbc, hs, hold]
    · simp [hbc]

/-- Every step of the split keeps the invariant. -/
lemma Inv.step (hl : log.WellLinked) {st' : State} {a : Action} (h : Inv log old st)
    (hs : Split.step log old st a = some st') : Inv log old st' := by
  cases a with
  | claim =>
    simp only [Split.step] at hs
    split_ifs at hs with hc
    cases hs
    refine h.retarget (.refl _) hc.1 (by simp) (by simp [hc.2]) fun n hn => ?_
    cases hn
    exact ⟨le_rfl, Nat.le_add_right _ _, fun b hb hbn => absurd hb (by omega)⟩
  | work c =>
    simp only [Split.step] at hs
    cases hst : st.status c with
    | unstarted | completed => simp [hst] at hs
    | inProgress n =>
      obtain ⟨hn1, hn2, hcov⟩ := h.progress c n hst
      have hc := h.claimed c (by simp [hst])
      simp only [hst] at hs
      by_cases hlt : n < chunkStart old c + chunkSize old
      · rw [if_pos hlt] at hs
        have hsize : n < old.size := InChunk.lt_size hc ⟨hn1, hlt⟩
        have hkeep : Keeps st.table (splitSingleBucket log old n st.table).1 := splitSlots_keeps ..
        cases hsplit : splitSingleBucket log old n st.table with
        | mk table e =>
          rw [hsplit] at hkeep
          cases e with
          | none =>
            simp only [hsplit] at hs
            cases hs
            have hn : Covered log old table n := by
              have := splitSingleBucket_covers hl hsize h.bits (by rw [hsplit])
              rwa [hsplit] at this
            refine h.retarget hkeep hc (by simp) (by simp [hst]) fun m hm => ?_
            cases hm
            refine ⟨by omega, by omega, fun b hb hbn => ?_⟩
            rcases Nat.lt_succ_iff_lt_or_eq.1 hbn with hbn | rfl
            · exact (hcov b hb hbn).mono hkeep
            · exact hn
          | some =>
            simp only [hsplit] at hs
            cases hs
            exact h.retarget hkeep hc (by simp) (by simp [hst]) fun m hm => by simp at hm
      · -- the loop over the chunk is through
        rw [if_neg hlt] at hs
        cases hs
        have hn : n = chunkStart old c + chunkSize old := by omega
        refine ⟨h.bits, fun d hd => ?_, fun d m hd => ?_, fun d b hd hb => ?_, ?_, fun b hb => ?_⟩
        · by_cases hdc : d = c
          · exact hdc ▸ hc
          · exact h.claimed d (by simpa [hdc] using hd)
        · by_cases hdc : d = c
          · simp [hdc] at hd
          · exact h.progress d m (by simpa [hdc] using hd)
        · by_cases hdc : d = c
          · subst hdc
            exact hcov b hb.1 (hn ▸ hb.2)
          · exact h.completed d b (by simpa [hdc] using hd) hb
        · have herase : pendingChunks old
              { st with
                status := Function.update st.status c .completed
                pending := st.pending - 1
                splitBuckets := st.splitBuckets ++ range' (chunkStart old c) (chunkSize old) } =
              (pendingChunks old st).erase c := by
            ext d
            by_cases hdc : d = c <;> simp [pendingChunks, hdc]
          have hmem : c ∈ pendingChunks old st := by simp [pendingChunks, hc, hst]
          rw [herase, Finset.card_erase_of_mem hmem, h.pending]
        · have hin := inChunk_iff (b := b) hc
          rw [InChunk] at hin
          rw [count_append, h.splits b hb, count_range_1']
          by_cases hd : b / chunkSize old = c
          · rw [if_neg (by simp [hd, hst]), if_pos (hin.2 hd)]
            simp [hd]
          · rw [if_neg (mt hin.1 hd)]
            simp [hd]

end Wedb.Split
