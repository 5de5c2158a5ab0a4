import Wedb.Index.Probe

/-!
# One entry for each tag

A probe that goes on while slots behind it are emptied can miss a slot that another probe takes, so
two entries of one tag can be committed. When no slot is emptied behind a probe, the slots in front
of a probe's free slot stay taken by other tags, and the chain never holds two entries of one tag.
-/

namespace Wedb.Probe

open Nat List HashBucketEntry Function

/-- The scan of a session whose probe is under way. -/
def Session.scan? : Session → Option Scan
  | .load s | .clear s _ | .confirm s | .bucketEnd s | .advance s | .recheck s | .link s
  | .advanceLinked s => some s
  | .idle | .hold _ | .emptied _ => none

/-- The session's probe has passed the slot, or has ended on an empty slot that is still to be
filled. -/
def Session.HasPassed (k : Nat) (s : Session) : Prop :=
  (∃ sc, s.scan? = some sc ∧ k < sc.pos) ∨ ∃ h, s = .hold h ∧ h.raw = 0

/-- The slot that the step of session `i` empties, if it does. -/
def empties (st : State) (i : Nat) : Op → Option Nat
  | .next =>
    match st.sessions i with
    | .clear s raw => if slotAt st.slots s.pos = raw then some s.pos else none
    | _ => none
  | .casToZero _ =>
    match st.sessions i with
    | .hold h => if h.raw ≠ 0 ∧ slotAt st.slots h.slot = h.raw then some h.slot else none
    | _ => none
  | _ => none

/-- The discipline under which probes are safe. No slot is emptied while another probe has passed it
or waits to fill its own empty slot; a handle that has emptied its slot is not written through; and
an address written over a stale word is not stale itself for the probe that is about to clear it. -/
structure Careful (st : State) (a : Nat × Op) : Prop where
  empty_ahead : ∀ k, empties st a.1 a.2 = some k → ∀ i, i ≠ a.1 → ¬ (st.sessions i).HasPassed k
  no_reuse : ∀ n, a.2 = .tryCas n → ∀ h, st.sessions a.1 ≠ .emptied h
  fresh : ∀ n, a.2 = .tryCas n → ∀ h, st.sessions a.1 = .hold h →
    ∀ i s raw, st.sessions i = .clear s raw → s.pos = h.slot → s.minValidAddr ≤ n

/-! ### Slots after an exchange -/

variable {slots : List Nat} {k w : Nat}

lemma slotAt_set (hk : k < slots.length) (j : Nat) :
    slotAt (slots.set k w) j = if j = k then w else slotAt slots j := by
  unfold slotAt
  by_cases h : j = k
  · simp [h, hk]
  · simp [h, getElem?_set_ne (symm h)]

lemma slotAt_of_length_le {j : Nat} (h : slots.length ≤ j) : slotAt slots j = 0 := by
  simp [slotAt, getElem?_eq_none h]

lemma lt_length_of_slotAt_ne {j : Nat} (h : slotAt slots j ≠ 0) : j < slots.length := by
  by_contra hj
  exact h (slotAt_of_length_le (by omega))

lemma slotAt_set_zero (slots : List Nat) (k : Nat) :
    slotAt (slots.set k 0) = update (slotAt slots) k 0 := by
  funext j
  rcases lt_or_ge k slots.length with hk | hk
  · rw [slotAt_set hk, update_apply]
  · rw [set_eq_of_length_le hk]
    by_cases hj : j = k
    · rw [hj, update_self, slotAt_of_length_le hk]
    · rw [update_of_ne hj]

lemma slotAt_append_zeros (slots : List Nat) (n j : Nat) :
    slotAt (slots ++ replicate n 0) j = slotAt slots j := by
  unfold slotAt
  rcases lt_or_ge j slots.length with h | h
  · simp [getElem?_append_left h]
  · rw [getD, getElem?_append_right h, getD, getElem?_eq_none h]
    rcases lt_or_ge (j - slots.length) n with h' | h'
    · simp [h']
    · simp [getElem?_eq_none (show (replicate n 0).length ≤ j - slots.length by simpa)]

/-- No duplicates, slot by slot. -/
def UniqueAt (slot : Nat → Nat) : Prop :=
  ∀ i j t, i ≠ j → matchesTag (slot i) t = true → matchesTag (slot j) t = false

lemma tagUnique_iff : TagUnique slots ↔ UniqueAt (slotAt slots) := by
  rw [TagUnique, pairwise_iff_getElem]
  constructor
  · intro h i j t hij hi
    by_contra hj
    have hj' : matchesTag (slotAt slots j) t = true := by simpa using hj
    have ne0 : ∀ {k}, matchesTag (slotAt slots k) t = true → slotAt slots k ≠ 0 := by
      intro k hk h0
      simp [h0] at hk
    have hli := lt_length_of_slotAt_ne (ne0 hi)
    have hlj := lt_length_of_slotAt_ne (ne0 hj')
    have gi : slotAt slots i = slots[i] := by simp [slotAt, hli]
    have gj : slotAt slots j = slots[j] := by simp [slotAt, hlj]
    rw [gi] at hi
    rw [gj] at hj'
    rcases lt_or_gt_of_ne hij with hlt | hlt
    · exact h i j hli hlj hlt t ⟨hi, hj'⟩
    · exact h j i hlj hli hlt t ⟨hj', hi⟩
  · rintro h i j hi hj hlt t ⟨hi', hj'⟩
    have gi : slotAt slots i = slots[i] := by simp [slotAt, hi]
    have gj : slotAt slots j = slots[j] := by simp [slotAt, hj]
    have := h i j t hlt.ne (gi ▸ hi')
    rw [gj, hj'] at this
    cases this

/-! ### What a session knows about the slots -/

/-- What a probe under way can rely on: the slots it passed before its free slot are taken by other
tags, and an entry of its tag that appeared behind the free slot means that the free slot is gone. -/
structure ScanOk (slot : Nat → Nat) (s : Scan) : Prop where
  taken : ∀ j, j < s.pos → (∀ f, s.firstFree = some f → j < f) →
    slot j ≠ 0 ∧ matchesTag (slot j) s.tag = false
  free_lt : ∀ f, s.firstFree = some f → f < s.pos
  lost : ∀ f, s.firstFree = some f → ∀ j, f ≤ j → j < s.pos →
    matchesTag (slot j) s.tag = true → slot f ≠ 0

/-- The same for the handle of an empty slot, whose probe has passed the whole chain. -/
def FreeOk (slot : Nat → Nat) (h : Handle) : Prop :=
  ∀ n, h.slot < n → ScanOk slot ⟨h.tag, 0, n, some h.slot⟩

/-- A word that the probe would not clear. -/
def Fresh (minValidAddr raw : Nat) : Prop := isReadCache raw = true ∨ minValidAddr ≤ address raw

def SessionOk (slot : Nat → Nat) : Session → Prop
  | .idle | .emptied _ => True
  | .clear s raw => ScanOk slot s ∧ (slot s.pos = raw ∨ slot s.pos = 0 ∨ Fresh s.minValidAddr (slot s.pos))
  | .load s | .confirm s | .bucketEnd s | .advance s | .recheck s | .link s
  | .advanceLinked s => ScanOk slot s
  | .hold h => (h.raw = 0 → FreeOk slot h) ∧ (h.raw ≠ 0 → matchesTag h.raw h.tag = true)

/-- The chain has no duplicates and every session's knowledge is right. -/
structure Inv (st : State) : Prop where
  unique : TagUnique st.slots
  sessions : ∀ i, SessionOk (slotAt st.slots) (st.sessions i)

/-! ### Steps of the probe itself -/

variable {slot : Nat → Nat} {s : Scan}

lemma ScanOk.pass (h : ScanOk slot s) (h0 : slot s.pos ≠ 0)
    (hm : matchesTag (slot s.pos) s.tag = false) : SessionOk slot (s.pass s.firstFree) := by
  have key : ScanOk slot { s with pos := s.pos + 1, firstFree := s.firstFree } := by
    refine ⟨fun j hj hf => ?_, fun f hf => ?_, fun f hf j hfj hj hmj => ?_⟩
    · rcases Nat.lt_succ_iff_lt_or_eq.1 hj with hj | rfl
      · exact h.taken j hj hf
      · exact ⟨h0, hm⟩
    · exact (h.free_lt f hf).trans (lt_succ_self _)
    · rcases Nat.lt_succ_iff_lt_or_eq.1 hj with hj | rfl
      · exact h.lost f hf j hfj hj hmj
      · rw [hm] at hmj
        cases hmj
  unfold Scan.pass
  simp only
  split_ifs <;> exact key

lemma ScanOk.passFree (h : ScanOk slot s) (h0 : slot s.pos = 0) : SessionOk slot s.passFree := by
  have key : ScanOk slot { s with pos := s.pos + 1, firstFree := s.firstFree.or (some s.pos) } := by
    cases hff : s.firstFree with
    | none =>
      refine ⟨fun j hj hf => ?_, fun f hf => ?_, fun f hf j hfj hj hmj => ?_⟩
      · have : j < s.pos := hf s.pos (by simp)
        exact h.taken j this (by simp [hff])
      · simp only [Option.none_or, Option.some.injEq] at hf
        exact hf ▸ lt_succ_self _
      · simp only [Option.none_or, Option.some.injEq] at hf
        have : j = s.pos := by
          have : j < s.pos + 1 := hj
          omega
        rw [this, h0] at hmj
        simp at hmj
    | some g =>
      refine ⟨fun j hj hf => ?_, fun f hf => ?_, fun f hf j hfj hj hmj => ?_⟩
      · have hjg : j < g := hf g (by simp)
        exact h.taken j (hjg.trans (h.free_lt g hff)) (by simpa [hff] using hjg)
      · exact (h.free_lt f (hf ▸ hff)).trans (lt_succ_self _)
      · rcases Nat.lt_succ_iff_lt_or_eq.1 hj with hj | rfl
        · exact h.lost f (hf ▸ hff) j hfj hj hmj
        · simp [h0] at hmj
  unfold Scan.passFree Scan.pass
  simp only
  split_ifs <;> exact key

lemma ScanOk.enter (h : ScanOk slot s) : SessionOk slot s.enter := by
  unfold Scan.enter
  split_ifs
  · trivial
  · exact h

/-- The chain ends behind the slots the scan has passed: its free slot becomes the handle. -/
lemma ScanOk.hold {f : Nat} (h : ScanOk (slotAt slots) s)
    (hf : s.firstFree = some f) (hend : slots.length ≤ s.pos) :
    SessionOk (slotAt slots) (.hold ⟨f, 0, s.tag⟩) := by
  refine ⟨fun _ n hn => ⟨fun j _ hj => ?_, ?_, ?_⟩, fun h0 => absurd rfl h0⟩
  · have hjf : j < f := hj f rfl
    exact h.taken j (hjf.trans (h.free_lt f hf)) fun g hg => by
      rw [hf] at hg
      exact Option.some.inj hg ▸ hjf
  · rintro _ ⟨⟩
    exact hn
  · rintro _ ⟨⟩ j hj - hm
    rcases lt_or_ge j s.pos with hlt | hge
    · exact h.lost f hf j hj hlt hm
    · rw [slotAt_of_length_le (hend.trans hge)] at hm
      simp at hm

lemma sessionOk_hold_of_match {raw t : Nat} (h : matchesTag raw t = true) :
    SessionOk slot (.hold ⟨k, raw, t⟩) := by
  refine ⟨fun h0 => ?_, fun _ => h⟩
  simp only at h0
  simp [h0] at h

/-- Emptying a slot that a scan has not passed leaves its knowledge right. -/
lemma ScanOk.update_zero (h : ScanOk slot s) (hk : s.pos ≤ k) : ScanOk (update slot k 0) s := by
  refine ⟨fun j hj hf => ?_, h.free_lt, fun f hf j hfj hj hm => ?_⟩
  · rw [update_of_ne (by omega)]
    exact h.taken j hj hf
  · rw [update_of_ne (by omega)] at hm ⊢
    exact h.lost f hf j hfj hj hm

/-- A step of a probe leaves the slots as they are, or clears the stale slot it stands on; the
session's knowledge is right again. -/
lemma advanceProbe_ok {slots' : List Nat} {pool pool' : Nat} {s s' : Session}
    (h : advanceProbe slots pool s = some (slots', pool', s')) (hs : SessionOk (slotAt slots) s) :
    SessionOk (slotAt slots') s' ∧
      (slotAt slots' = slotAt slots ∨
        ∃ sc raw, s = .clear sc raw ∧ slotAt slots sc.pos = raw ∧ slots' = slots.set sc.pos 0) := by
  cases s with
  | idle | hold h' | emptied h' => simp [advanceProbe] at h
  | load =>
    simp only [advanceProbe] at h
    split_ifs at h with h0 hst hm <;> cases h
    · exact ⟨ScanOk.passFree hs h0, Or.inl rfl⟩
    · exact ⟨⟨hs, Or.inl rfl⟩, Or.inl rfl⟩
    · exact ⟨hs, Or.inl rfl⟩
    · exact ⟨ScanOk.pass hs h0 (by simpa using hm), Or.inl rfl⟩
  | clear sc raw =>
    obtain ⟨hs, hword⟩ := hs
    simp only [advanceProbe] at h
    split_ifs at h with hraw h0 hm <;> cases h
    · refine ⟨?_, .inr ⟨sc, raw, rfl, hraw, rfl⟩⟩
      rw [slotAt_set_zero]
      exact (hs.update_zero le_rfl).passFree (by simp)
    · exact ⟨hs.passFree h0, Or.inl rfl⟩
    · rw [Bool.and_eq_true] at hm
      exact ⟨sessionOk_hold_of_match hm.1, Or.inl rfl⟩
    · -- the exchange failed on a word that was written meanwhile: it is not stale
      have hfresh := (hword.resolve_left hraw).resolve_left h0
      exact ⟨hs.pass h0 (by simpa [show _ ∨ _ from hfresh] using hm), Or.inl rfl⟩
  | confirm =>
    simp only [advanceProbe] at h
    split_ifs at h with hm h0 <;> cases h
    · exact ⟨sessionOk_hold_of_match hm, Or.inl rfl⟩
    · exact ⟨ScanOk.passFree hs h0, Or.inl rfl⟩
    · exact ⟨ScanOk.pass hs h0 (by simpa using hm), Or.inl rfl⟩
  | bucketEnd sc =>
    simp only [advanceProbe] at h
    cases hff : sc.firstFree with
    | none =>
      simp only [hff] at h
      cases h
      exact ⟨hs, Or.inl rfl⟩
    | some =>
      simp only [hff] at h
      split_ifs at h with hend <;> cases h
      · exact ⟨ScanOk.hold hs hff hend, Or.inl rfl⟩
      · exact ⟨hs, Or.inl rfl⟩
  | advance =>
    simp only [advanceProbe] at h
    split_ifs at h <;> cases h
    · exact ⟨hs, Or.inl rfl⟩
    · exact ⟨ScanOk.enter hs, Or.inl rfl⟩
  | recheck =>
    simp only [advanceProbe] at h
    split_ifs at h <;> cases h
    · exact ⟨trivial, Or.inl rfl⟩
    · exact ⟨hs, Or.inl rfl⟩
    · exact ⟨hs, Or.inl rfl⟩
  | link =>
    simp only [advanceProbe] at h
    split_ifs at h <;> cases h
    · have := funext (slotAt_append_zeros slots dataEntries)
      exact ⟨this ▸ hs, Or.inl this⟩
    · exact ⟨hs, Or.inl rfl⟩
  | advanceLinked =>
    simp only [advanceProbe] at h
    split_ifs at h <;> cases h
    · exact ⟨trivial, Or.inl rfl⟩
    · exact ⟨ScanOk.enter hs, Or.inl rfl⟩

/-! ### Steps of the other sessions -/

/-- A session that has not passed the slot does not mind its being emptied. -/
lemma SessionOk.update_zero {s : Session} (h : SessionOk slot s)
    (hk : ¬ s.HasPassed k) : SessionOk (update slot k 0) s := by
  have hscan : ∀ {sc : Scan}, s.scan? = some sc → ScanOk slot sc →
      ScanOk (update slot k 0) sc := fun hsc hok =>
    hok.update_zero (Nat.le_of_not_lt fun hlt => hk (.inl ⟨_, hsc, hlt⟩))
  cases s with
  | idle | emptied h' => trivial
  | hold h' => exact ⟨fun h0 => absurd (.inr ⟨h', rfl, h0⟩) hk, h.2⟩
  | clear sc =>
    refine ⟨hscan rfl h.1, ?_⟩
    by_cases hp : sc.pos = k
    · exact .inr (.inl (by rw [hp, update_self]))
    · rw [update_of_ne hp]
      exact h.2
  | load sc | confirm sc | bucketEnd sc | advance sc | recheck sc | link sc | advanceLinked sc =>
    exact hscan rfl h

/-- A write that respects the probes: it keeps the tag of the entry it replaces, or it fills an
empty slot with no empty slot in front. -/
structure GoodWrite (slot : Nat → Nat) (k w : Nat) : Prop where
  ne_zero : w ≠ 0
  keeps : slot k ≠ 0 → ∀ t, matchesTag w t = matchesTag (slot k) t
  fills : slot k = 0 → ∀ j, j < k → slot j ≠ 0

lemma ScanOk.write (h : ScanOk slot s) (hw : GoodWrite slot k w) : ScanOk (update slot k w) s := by
  refine ⟨fun j hj hf => ?_, h.free_lt, fun f hf j hfj hj hm => ?_⟩
  · have hold := h.taken j hj hf
    by_cases hjk : j = k
    · subst hjk
      rw [update_self]
      exact ⟨hw.ne_zero, by rw [hw.keeps hold.1]; exact hold.2⟩
    · rwa [update_of_ne hjk]
  · by_cases hfk : f = k
    · rw [hfk, update_self]
      exact hw.ne_zero
    · rw [update_of_ne hfk]
      by_cases hjk : j = k
      · subst hjk
        rw [update_self] at hm
        by_cases h0 : slot j = 0
        · exact hw.fills h0 f (by omega)
        · exact h.lost f hf j hfj hj (by rwa [hw.keeps h0] at hm)
      · rw [update_of_ne hjk] at hm
        exact h.lost f hf j hfj hj hm

lemma SessionOk.write {s : Session} (h : SessionOk slot s) (hw : GoodWrite slot k w)
    (hfresh : ∀ sc raw, s = .clear sc raw → sc.pos = k → Fresh sc.minValidAddr w) :
    SessionOk (update slot k w) s := by
  cases s with
  | idle | emptied h' => trivial
  | hold => exact ⟨fun h0 n hn => (h.1 h0 n hn).write hw, h.2⟩
  | clear sc raw =>
    refine ⟨h.1.write hw, ?_⟩
    by_cases hp : sc.pos = k
    · exact .inr (.inr (by rw [hp, update_self]; exact hfresh sc raw rfl hp))
    · rw [update_of_ne hp]
      exact h.2
  | load sc | confirm sc | bucketEnd sc | advance sc | recheck sc | link sc | advanceLinked sc =>
    exact ScanOk.write h hw

/-! ### The invariant -/

/-- Writing an entry keeps the tags apart when no other slot holds its tag. -/
lemma UniqueAt.write (h : UniqueAt slot)
    (hw : ∀ j t, j ≠ k → matchesTag w t = true → matchesTag (slot j) t = false) :
    UniqueAt (update slot k w) := by
  intro i j t hij hi
  by_cases hik : i = k
  · subst hik
    rw [update_self] at hi
    rw [update_of_ne hij.symm]
    exact hw j t hij.symm hi
  · rw [update_of_ne hik] at hi
    by_cases hjk : j = k
    · subst hjk
      by_contra hm
      rw [hw i t hij (by simpa using hm)] at hi
      cases hi
    · rw [update_of_ne hjk]
      exact h i j t hij hi

lemma UniqueAt.update_zero (h : UniqueAt slot) (k : Nat) : UniqueAt (update slot k 0) :=
  h.write fun _ _ _ hm => by simp at hm

variable {st : State}

lemma Inv.put {i : Nat} {pool : Nat} {s : Session}
    (hu : UniqueAt (slotAt slots)) (hself : SessionOk (slotAt slots) s)
    (hother : ∀ j, j ≠ i → SessionOk (slotAt slots) (st.sessions j)) :
    Inv ⟨slots, pool, update st.sessions i s⟩ := by
  refine ⟨tagUnique_iff.2 hu, fun j => ?_⟩
  by_cases hj : j = i
  · simpa [hj] using hself
  · simpa [hj] using hother j hj

/-- A slot is emptied that no other probe has passed. -/
lemma Inv.empty {i k pool : Nat} {s : Session} (hinv : Inv st)
    (hself : SessionOk (slotAt (st.slots.set k 0)) s)
    (hahead : ∀ j, j ≠ i → ¬ (st.sessions j).HasPassed k) :
    Inv ⟨st.slots.set k 0, pool, update st.sessions i s⟩ := by
  refine put ?_ hself fun j hj => ?_
  · rw [slotAt_set_zero]
    exact (tagUnique_iff.1 hinv.unique).update_zero k
  · rw [slotAt_set_zero]
    exact (hinv.sessions j).update_zero (hahead j hj)

/-- A successful `try_cas` through a handle in good standing. -/
lemma Inv.tryCas {i newAddress : Nat} {h h' : Handle} (hinv : Inv st)
    (hsess : st.sessions i = .hold h)
    (hfresh : ∀ j s raw, st.sessions j = .clear s raw → s.pos = h.slot → s.minValidAddr ≤ newAddress)
    (hcas : h.tryCas st.slots newAddress = some (slots, h')) :
    Inv ⟨slots, st.pool, update st.sessions i (.hold h')⟩ := by
  unfold Handle.tryCas at hcas
  split_ifs at hcas with hrange hword
  obtain ⟨rfl, rfl⟩ := Prod.mk.injEq .. ▸ Option.some.inj hcas
  have hmod : newAddress % addressSpace = newAddress := mod_eq_of_lt (by omega)
  have hmatch : ∀ t, matchesTag (new newAddress h.tag false) t = true ↔
      h.tag % tagSpace = t % tagSpace := fun t => matchesTag_new (by omega)
  have hself : matchesTag (new newAddress h.tag false) h.tag = true := (hmatch h.tag).2 rfl
  have hne : new newAddress h.tag false ≠ 0 := fun h0 => by simp [h0] at hself
  have hknow := hinv.sessions i
  rw [hsess] at hknow
  have huniq := tagUnique_iff.1 hinv.unique
  rcases lt_or_ge h.slot st.slots.length with hlt | hge
  · have hslots : slotAt (st.slots.set h.slot (new newAddress h.tag false)) =
        update (slotAt st.slots) h.slot (new newAddress h.tag false) := by
      funext j
      rw [slotAt_set hlt, update_apply]
    -- the write keeps the tag of a found entry, or fills the first free slot of the tag
    have hgood : GoodWrite (slotAt st.slots) h.slot (new newAddress h.tag false) ∧
        ∀ j t, j ≠ h.slot → matchesTag (new newAddress h.tag false) t = true →
          matchesTag (slotAt st.slots j) t = false := by
      by_cases hraw : h.raw = 0
      · have hfree := hknow.1 hraw
        rw [hraw] at hword
        refine ⟨⟨hne, fun h0 => absurd hword h0, fun _ j hj => ?_⟩, fun j t hj ht => ?_⟩
        · exact ((hfree (h.slot + 1) (lt_succ_self _)).taken j (by simp only; omega)
            (by rintro _ ⟨⟩; exact hj)).1
        · have htag : ∀ {v}, matchesTag v t = matchesTag v h.tag := fun {v} => by
            simp only [matchesTag, (hmatch t).1 ht]
          rw [htag]
          rcases lt_or_gt_of_ne hj with hlt' | hgt
          · exact ((hfree (h.slot + 1) (lt_succ_self _)).taken j (by simp only; omega)
              (by rintro _ ⟨⟩; exact hlt')).2
          · by_contra hm
            exact (hfree (j + 1) (by omega)).lost h.slot rfl j hgt.le (lt_succ_self _)
              (by simpa using hm) hword
      · have hold := hknow.2 hraw
        have htag : ∀ t, matchesTag (new newAddress h.tag false) t =
            matchesTag (slotAt st.slots h.slot) t := by
          intro t
          rw [hword, Bool.eq_iff_iff, hmatch]
          constructor
          · intro ht
            simpa only [matchesTag, ht] using hold
          · exact fun ht => tag_eq_of_matchesTag hold ht
        refine ⟨⟨hne, fun _ => htag, fun h0 => absurd (hword ▸ h0) hraw⟩, fun j t hj ht => ?_⟩
        rw [htag] at ht
        exact huniq h.slot j t hj.symm ht
    refine put ?_ (sessionOk_hold_of_match hself) fun j hj => ?_
    · rw [hslots]
      exact huniq.write hgood.2
    · rw [hslots]
      refine (hinv.sessions j).write hgood.1 fun s raw hs hp => .inr ?_
      rw [address_new, hmod]
      exact hfresh j s raw hs hp
  · rw [set_eq_of_length_le hge]
    exact put huniq (sessionOk_hold_of_match hself) fun j _ => hinv.sessions j

/-- Every careful step keeps the invariant. -/
lemma Inv.step {st' : State} {a : Nat × Op} (hinv : Inv st) (hc : Careful st a)
    (hs : Probe.step st a = some st') : Inv st' := by
  obtain ⟨i, op⟩ := a
  have huniq := tagUnique_iff.1 hinv.unique
  have hothers : ∀ j, j ≠ i → SessionOk (slotAt st.slots) (st.sessions j) := fun j _ =>
    hinv.sessions j
  unfold Probe.step at hs
  cases op with
  | probe =>
    cases hsess : st.sessions i <;> simp only [hsess] at hs <;> cases hs
    exact put huniq ⟨by simp, by simp, by simp⟩ hothers
  | next =>
    simp only at hs
    split at hs
    · rename_i slots pool s' hadv
      cases hs
      obtain ⟨hok, hsame | ⟨sc, raw, hcl, hraw, rfl⟩⟩ := advanceProbe_ok hadv (hinv.sessions i)
      · rw [← hsame] at huniq hothers
        exact put huniq hok hothers
      · -- the scan clears the stale slot it stands on
        have hempty : empties st i .next = some sc.pos := by
          simp only [empties, hcl, hraw, if_true]
        exact hinv.empty hok (hc.empty_ahead sc.pos hempty)
    · cases hs
  | tryCas newAddress =>
    cases hsess : st.sessions i with
    | hold h =>
      simp only [hsess] at hs
      split at hs
      · rename_i slots h' hcas
        cases hs
        exact hinv.tryCas hsess (fun j s raw => hc.fresh newAddress rfl h hsess j s raw) hcas
      · cases hs
        exact hinv
    | emptied h => exact absurd hsess (hc.no_reuse newAddress rfl h)
    | _ => simp [hsess] at hs
  | casToZero foundOnly =>
    cases hsess : st.sessions i with
    | hold h =>
      simp only [hsess] at hs
      split at hs
      · rename_i slots h' hcas
        cases hs
        unfold Handle.casToZero at hcas
        split_ifs at hcas with h0 hword
        obtain ⟨rfl, rfl⟩ := Prod.mk.injEq .. ▸ Option.some.inj hcas
        have hempty : empties st i (.casToZero foundOnly) = some h.slot := by
          simp only [empties, hsess]
          rw [if_pos ⟨h0, hword⟩]
        exact hinv.empty trivial (hc.empty_ahead h.slot hempty)
      · cases hs
        exact hinv
    | emptied =>
      simp only [hsess] at hs
      cases hs
      exact hinv
    | _ => simp [hsess] at hs
  | drop =>
    cases hsess : st.sessions i <;> simp only [hsess] at hs <;> cases hs
    · exact put huniq trivial hothers
    · exact put huniq trivial hothers

lemma firstMatchComplete_of_tagUnique (h : TagUnique slots) : FirstMatchComplete slots := by
  refine ⟨h, ?_⟩
  induction slots with
  | nil => simp
  | cons v l ih =>
    intro w hw t hm
    rcases mem_cons.1 hw with rfl | hw
    · exact headWord_cons_of_match hm
    · have hv : matchesTag v t = false := by
        by_contra hv
        rw [h.not_match_of_head (by simpa using hv) w hw] at hm
        cases hm
      rw [headWord_cons_of_not hv]
      exact ih h.tail w hw t hm

/-- In every run of careful steps the chain never holds two committed entries of one tag, so a
lookup that stops at the first match misses none. -/
theorem firstMatchComplete_of_careful {st₀ st : State} (hinit : Initial st₀)
    (hreach : Machine.Reaches step Careful st₀ st) : FirstMatchComplete st.slots := by
  have hinv : Inv st := by
    refine hreach.invariant ⟨hinit.2.1, fun i => ?_⟩ fun hinv hc hs => hinv.step hc hs
    rw [hinit.2.2 i]
    trivial
  exact firstMatchComplete_of_tagUnique hinv.unique

/-! ### Two probes around an emptied slot -/

/-- One bucket with an entry of tag 9 in its first slot. -/
def oneEntry : State := ⟨[new 64 9 false, 0, 0, 0, 0, 0, 0], 0, fun _ => .idle⟩

lemma initial_oneEntry : Initial oneEntry := by
  refine ⟨⟨0, rfl⟩, ?_, fun _ => rfl⟩
  simp [oneEntry, TagUnique]

/-- Session 0 probes for tag 5 and finds the second slot free. Session 1, which holds the entry of
tag 9, empties the first slot; session 2 probes for tag 5 and finds that one free. Both write. -/
def duel : List (Nat × Op) :=
  [(1, .probe (9 * 2 ^ 49) 0), (1, .next), (1, .next)] ++
  (0, .probe (5 * 2 ^ 49) 0) :: replicate 8 (0, .next) ++
  [(1, .casToZero true)] ++
  (2, .probe (5 * 2 ^ 49) 0) :: replicate 8 (2, .next) ++
  [(0, .tryCas 128), (2, .tryCas 192)]

/-- Two sessions commit an entry of the same tag. -/
theorem exists_duplicate_tag :
    ∃ st₀ st, Initial st₀ ∧ Machine.Reachable step st₀ st ∧
      st.slots = [new 192 5 false, new 128 5 false, 0, 0, 0, 0, 0] ∧
      ¬ FirstMatchComplete st.slots := by
  obtain ⟨st, hreach, hslots⟩ := Machine.exists_reachable_of_run step oneEntry duel State.slots
    [new 192 5 false, new 128 5 false, 0, 0, 0, 0, 0] (by decide)
  refine ⟨oneEntry, st, initial_oneEntry, hreach, hslots, fun h => ?_⟩
  rw [hslots] at h
  have := h.2 (new 128 5 false) (by simp) 5 (by decide)
  exact absurd this (by decide)

/-- A careful run: one session moves the entry of tag 9 to a new address. -/
theorem firstMatchComplete_moved :
    ∃ st, Machine.Reaches step Careful oneEntry st ∧
      st.slots = [new 128 9 false, 0, 0, 0, 0, 0, 0] ∧ FirstMatchComplete st.slots := by
  have hreach : ∃ st, Machine.Reaches step Careful oneEntry st ∧
      st.slots = [new 128 9 false, 0, 0, 0, 0, 0, 0] := by
    refine ⟨_, .step (a := (0, .tryCas 128)) (.step (a := (0, .next)) (.step (a := (0, .next))
      (.step (a := (0, .probe (9 * 2 ^ 49) 0)) .refl ?_ rfl) ?_ rfl) ?_ rfl) ?_ rfl, rfl⟩
    iterate 3 exact ⟨by simp [empties], by simp, by simp⟩
    · refine ⟨by simp [empties], fun n _ h => ?_, fun n _ h _ j s raw hj _ => ?_⟩
      · simp
      · by_cases h0 : j = 0
        · subst h0
          simp at hj
        · simp [oneEntry, h0] at hj
  obtain ⟨st, hst, hslots⟩ := hreach
  exact ⟨st, hst, hslots, firstMatchComplete_of_careful initial_oneEntry hst⟩

end Wedb.Probe
