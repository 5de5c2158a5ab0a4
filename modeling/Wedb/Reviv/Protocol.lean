import Mathlib.Algebra.Order.Group.Int
import Wedb.Reviv.Pool

/-!
# The protocol of a thread in the pool

Each thread of the pool is held to a protocol with two counts: what it owes to the active counter of
a bin, and which record sizes it has read. An exchange is permitted only at a word the thread has
seen to fit, and the counter is settled after it.
-/

namespace Wedb.Reviv

open List Prog

/-! ## The protocol of one thread -/

/-- What a thread owes to the active counters, and the sizes it has read from record headers. -/
structure Local where
  debt : Nat → Int
  seen : Nat → Nat

/-- A thread that has done nothing yet. -/
def Local.fresh : Local := ⟨fun _ => 0, fun _ => 0⟩

def Local.owe (g : Local) (b : Nat) (d : Int) : Local :=
  { g with debt := Function.update g.debt b (g.debt b + d) }

def Local.see (g : Local) (address size : Nat) : Local :=
  { g with seen := Function.update g.seen address (max (g.seen address) size) }

/-- The size the thread knows a word to stand for. -/
def Local.size (g : Local) (shape : BinShape) (word : Nat) : Nat :=
  if shape.isOversize then g.seen (rawAddress word) else rawSize word

/-- What a word counts for the active counter of its bin. -/
def occupied (word : Nat) : Int := if word = emptyWord then 0 else 1

@[simp]
lemma occupied_emptyWord : occupied emptyWord = 0 := if_pos rfl

lemma occupied_of_ne {word : Nat} (h : word ≠ emptyWord) : occupied word = 1 := if_neg h

@[simp]
lemma Local.owe_zero (g : Local) (b : Nat) : g.owe b 0 = g := by
  simp [owe]

@[simp]
lemma Local.owe_owe (g : Local) (b : Nat) (d e : Int) : (g.owe b d).owe b e = g.owe b (d + e) := by
  simp [owe, add_assoc]

/-- When an exchange may be tried. -/
def Permits (c : Config) (g : Local) (b expected new : Nat) : Purpose → Prop
  | .store => new ≠ emptyWord
  | .grant r =>
    new = emptyWord ∧ expected ≠ emptyWord ∧ r.minRevivAddr ≤ rawAddress expected ∧
      r.minEligibleAddr ≤ rawAddress expected ∧ r.requiredSize ≤ g.size (c.bin b) expected
  | .evict => new = emptyWord ∧ expected ≠ emptyWord
  | .purge bound => new = emptyWord ∧ expected ≠ emptyWord ∧ rawAddress expected < bound

/-- What an operation does to the thread's own counts. -/
def Follows (c : Config) (g : Local) : (o : Op) → o.Res → Local → Prop
  | .load _ _, _, g' => g' = g
  | .compareExchange b i expected new _ why, found, g' =>
    (b < c.bins.length ∧ i < (c.bin b).capacity ∧ Permits c g b expected new why) ∧
      g' = match (show Option Nat from found) with
        | none => g.owe b (occupied new - occupied expected)
        | some _ => g
  | .loadActive _, _, g' => g' = g
  | .addActive b d, _, g' => g' = g.owe b (-d)
  | .nextCursor _, _, g' => g' = g
  | .readSize address, size, g' =>
    g' = match (show Option Nat from size) with
      | none => g
      | some n => g.see address n
  | .loadSuspend, _, g' => g' = g
  | .stall, _, _ => True

/-- A thread is through with its counters. -/
def Settled (g : Local) (_ : Outcome) : Prop := g.debt = fun _ => 0

/-! ## Rules for the operations -/

section Rules

variable {c : Config} {g : Local} {α : Type} {final : Local → α → Prop} {b i : Nat}

lemma conforms_load {f : Nat → Code α} (h : ∀ w, Conforms (Follows c) final g (f w)) :
    Conforms (Follows c) final g (load b i >>= f) :=
  fun w => ⟨g, rfl, h w⟩

lemma conforms_isEmpty {f : Bool → Code α} (h : ∀ e, Conforms (Follows c) final g (f e)) :
    Conforms (Follows c) final g (isEmpty b >>= f) :=
  fun _ => ⟨g, rfl, h _⟩

lemma conforms_isEnabled {f : Bool → Code α} (h : ∀ e, Conforms (Follows c) final g (f e)) :
    Conforms (Follows c) final g (isEnabled >>= f) :=
  fun _ => ⟨g, rfl, h _⟩

lemma conforms_nextCursor {f : Nat → Code α} (h : ∀ n, Conforms (Follows c) final g (f n)) :
    Conforms (Follows c) final g (nextCursor b >>= f) :=
  fun n => ⟨g, rfl, h n⟩

lemma conforms_addActive {d : Int} {f : Unit → Code α}
    (h : Conforms (Follows c) final (g.owe b (-d)) (f ())) :
    Conforms (Follows c) final g (addActive b d >>= f) :=
  fun _ => ⟨g.owe b (-d), rfl, h⟩

lemma conforms_compareExchange {expected new : Nat} {weak : Bool} {why : Purpose}
    {f : Option Nat → Code α} (hb : b < c.bins.length) (hi : i < (c.bin b).capacity)
    (hp : Permits c g b expected new why)
    (hdone : Conforms (Follows c) final (g.owe b (occupied new - occupied expected)) (f none))
    (hfail : ∀ w, Conforms (Follows c) final g (f (some w))) :
    Conforms (Follows c) final g (compareExchange b i expected new weak why >>= f) := by
  intro found
  match found with
  | none => exact ⟨_, ⟨⟨hb, hi, hp⟩, rfl⟩, hdone⟩
  | some w => exact ⟨_, ⟨⟨hb, hi, hp⟩, rfl⟩, hfail w⟩

/-- A word taken out leaves the thread one record in debt; the counter is settled next. -/
lemma conforms_tryTakeExact {expected : Nat} {why : Purpose} {f : Bool → Code α}
    (hb : b < c.bins.length) (hi : i < (c.bin b).capacity) (hne : expected ≠ emptyWord)
    (hp : Permits c g b expected emptyWord why)
    (hdone : Conforms (Follows c) final (g.owe b (-1)) (f true))
    (hfail : Conforms (Follows c) final g (f false)) :
    Conforms (Follows c) final g (tryTakeExact b i expected why >>= f) := by
  refine conforms_compareExchange hb hi hp ?_ fun _ => hfail
  rw [occupied_of_ne hne]
  exact hdone

lemma conforms_decCount {f : Unit → Code α} (h : Conforms (Follows c) final g (f ())) :
    Conforms (Follows c) final (g.owe b (-1)) (decCount b >>= f) := by
  refine conforms_addActive ?_
  simpa using h

end Rules

/-! ## Putting -/

variable {slots bins : List Nat}

section Put

variable {c : Config} {g : Local} {b i address size minAddress : Nat}

lemma pack_ne_emptyWord (h : validateAddr address minAddress = true) :
    pack address size ≠ emptyWord := by
  simp only [validateAddr, Bool.not_eq_true', Bool.or_eq_false_iff, decide_eq_false_iff_not] at h
  unfold addressMask at h
  unfold pack emptyWord
  omega

section

variable (hb : b < c.bins.length)
include hb

/-- A stored record is owed to the counter when its slot was empty. -/
lemma casStore_conforms {newVal : Nat} (hi : i < (c.bin b).capacity) (hne : newVal ≠ emptyWord) :
    Conforms (Follows c) (fun g' st => g' = if st = .insertedEmpty then g.owe b 1 else g) g
      (casStore b i newVal minAddress) := by
  refine conforms_load fun current => ?_
  split
  · rfl
  · refine conforms_compareExchange hb hi hne ?_ fun _ => rfl
    rw [occupied_of_ne hne]
    by_cases hc : current = emptyWord
    · simp [hc]
    · simp [hc, occupied_of_ne]

lemma setSlot_conforms {shape : BinShape} (hi : i < (c.bin b).capacity) :
    Conforms (Follows c) (fun g' st => g' = if st = .insertedEmpty then g.owe b 1 else g) g
      (setSlot shape b i address size minAddress) := by
  unfold setSlot setAddr set
  split
  · split
    · exact casStore_conforms hb hi (pack_ne_emptyWord ‹_›)
    · rfl
  · split
    · rename_i hv
      simp only [validate, Bool.and_eq_true] at hv
      exact casStore_conforms hb hi (pack_ne_emptyWord hv.1.1)
    · rfl

lemma putSlots_conforms {shape : BinShape} (hslots : ∀ i ∈ slots, i < (c.bin b).capacity) :
    Conforms (Follows c) (fun g' _ => g' = g) g
      (putSlots shape b address size minAddress slots) := by
  induction slots with
  | nil => rfl
  | cons i slots ih =>
    have hi := hslots i mem_cons_self
    have hrest := ih fun j hj => hslots j (mem_cons_of_mem _ hj)
    refine (setSlot_conforms hb hi).bind fun g' st hg' => ?_
    cases st with
    | insertedEmpty =>
      subst hg'
      refine conforms_addActive ?_
      simp
    | replacedExpired => exact hg'
    | occupied =>
      obtain rfl : g' = g := hg'
      exact hrest

lemma putBin_conforms :
    Conforms (Follows c) (fun g' _ => g' = g) g (putBin (c.bin b) b address size minAddress) := by
  unfold putBin
  split
  · rfl
  · split
    · rfl
    · refine conforms_nextCursor fun cursor => putSlots_conforms hb fun i hi => ?_
      rcases mem_append.1 hi with h | h
      · exact mem_range.1 (mem_of_mem_drop h)
      · exact mem_range.1 (mem_of_mem_take h)

end

lemma putWindow_conforms (hbins : ∀ b ∈ bins, b < c.bins.length) :
    Conforms (Follows c) (fun g' _ => g' = g) g (putWindow c address size minAddress bins) := by
  induction bins with
  | nil => rfl
  | cons b bins ih =>
    refine (putBin_conforms (hbins b mem_cons_self)).bind fun g' st hg' => ?_
    subst hg'
    cases st with
    | insertedEmpty | replacedExpired => rfl
    | occupied => exact ih fun b hb => hbins b (mem_cons_of_mem _ hb)

end Put

/-! ## Taking -/

variable {s : Best}

section Take

variable {c : Config} {g : Local} {b i : Nat} {r : Request} {read : Bool}

/-- Nothing is owed, and no size is forgotten. -/
def Local.Later (g g' : Local) : Prop := g'.debt = g.debt ∧ ∀ a, g.seen a ≤ g'.seen a

lemma Local.Later.refl (g : Local) : g.Later g := ⟨rfl, fun _ => le_rfl⟩

lemma Local.Later.trans {g₁ g₂ g₃ : Local} (h : g₁.Later g₂) (h' : g₂.Later g₃) : g₁.Later g₃ :=
  ⟨h'.1.trans h.1, fun a => (h.2 a).trans (h'.2 a)⟩

lemma Local.Later.size_le {g' : Local} (h : g.Later g') (shape : BinShape) (word : Nat) :
    g.size shape word ≤ g'.size shape word := by
  unfold size
  split
  · exact h.2 _
  · rfl

lemma Local.later_see (g : Local) (address size : Nat) : g.Later (g.see address size) := by
  refine ⟨rfl, fun a => ?_⟩
  rcases eq_or_ne a address with rfl | ha
  · simp [see]
  · simp [see, ha]

/-- The size found is one the thread has seen the word to stand for. -/
lemma sizeAt_conforms {current : Nat} (hread : read = (c.bin b).isOversize) :
    Conforms (Follows c) (fun g' size => g.Later g' ∧ size ≤ g'.size (c.bin b) current) g
      (sizeAt read current) := by
  unfold sizeAt
  split
  · intro size
    match size with
    | none => exact ⟨g, rfl, .refl g, Nat.zero_le _⟩
    | some n =>
      refine ⟨g.see (rawAddress current) n, rfl, g.later_see _ _, ?_⟩
      simp_all [Local.size, Local.see]
  · exact ⟨.refl g, by simp_all [Local.size]⟩

section

variable (hb : b < c.bins.length)
include hb

section

variable (hread : read = (c.bin b).isOversize)
include hread

lemma firstFitRound_conforms (hslots : ∀ i ∈ slots, i < (c.bin b).capacity) (found : Bool) :
    Conforms (Follows c) (fun g' _ => g.Later g') g (firstFitRound b r read slots found) := by
  induction slots generalizing g found with
  | nil => exact .refl g
  | cons i slots ih =>
    have hi := hslots i mem_cons_self
    have hrest : ∀ {g' : Local} (found : Bool), g.Later g' →
        Conforms (Follows c) (fun g'' _ => g.Later g'') g' (firstFitRound b r read slots found) :=
      fun found hg' => (ih (fun j hj => hslots j (mem_cons_of_mem _ hj)) found).mono
        fun _ _ h => hg'.trans h
    refine conforms_load fun current => ?_
    split
    · exact hrest _ (.refl g)
    · rename_i hne
      split
      · refine conforms_tryTakeExact hb hi hne ⟨rfl, hne⟩ ?_ (hrest _ (.refl g))
        exact conforms_decCount (hrest _ (.refl g))
      · rename_i hreviv
        split
        · exact hrest _ (.refl g)
        · rename_i heligible
          refine (sizeAt_conforms hread).bind fun g' size ⟨hlater, hsize⟩ => ?_
          split
          · rename_i hfit
            have hp : Permits c g' b current emptyWord (.grant r) :=
              ⟨rfl, hne, Nat.le_of_not_lt hreviv, Nat.le_of_not_lt heligible, hfit.trans hsize⟩
            refine conforms_tryTakeExact hb hi hne hp ?_ (hrest _ hlater)
            exact conforms_decCount hlater
          · exact hrest _ hlater

lemma firstFitRounds_conforms (rounds : Nat) :
    Conforms (Follows c) (fun g' _ => g.Later g') g (firstFitRounds (c.bin b) b r read rounds) := by
  induction rounds generalizing g with
  | zero => exact .refl g
  | succ rounds ih =>
    refine (firstFitRound_conforms hb hread (fun i => mem_range.1) false).bind fun g' out hg' => ?_
    obtain ⟨res, found⟩ := out
    cases res with
    | some => exact hg'
    | none =>
      cases found with
      | true => exact ih.mono fun _ _ h => hg'.trans h
      | false => exact hg'

lemma firstFit_conforms :
    Conforms (Follows c) (fun g' _ => g.Later g') g (firstFit (c.bin b) b r read) := by
  refine conforms_isEmpty fun e => ?_
  split
  · exact .refl g
  · split
    · exact .refl g
    · exact firstFitRounds_conforms hb hread takeRetryRounds

end

/-- The best slot so far lies in the bin and was seen to fit. -/
def Best.Fits (s : Best) (c : Config) (g : Local) (b : Nat) (r : Request) : Prop :=
  ∀ idx raw, s.best = some (idx, raw) →
    idx < (c.bin b).capacity ∧ raw ≠ emptyWord ∧ Permits c g b raw emptyWord (.grant r)

omit hb in
lemma Best.Fits.later {g' : Local} (h : s.Fits c g b r) (hg : g.Later g') : s.Fits c g' b r := by
  intro idx raw hbest
  obtain ⟨hidx, hne, hnew, hne', hreviv, heligible, hsize⟩ := h idx raw hbest
  exact ⟨hidx, hne, hnew, hne', hreviv, heligible, hsize.trans (hg.size_le _ _)⟩

omit hb in
lemma Best.Fits.fits {current size : Nat} (h : s.Fits c g b r)
    (hi : i < (c.bin b).capacity) (hp : Permits c g b current emptyWord (.grant r)) :
    (s.fits r i current size).Fits c g b r := by
  intro idx raw hbest
  simp only [Best.fits] at hbest
  split at hbest
  · cases hbest
    exact ⟨hi, hp.2.1, hp⟩
  · exact h idx raw hbest

section

variable (hread : read = (c.bin b).isOversize)
include hread

lemma bestFitSlot_conforms (hi : i < (c.bin b).capacity) (hs : s.Fits c g b r) :
    Conforms (Follows c) (fun g' out => g.Later g' ∧ out.1.Fits c g' b r) g
      (bestFitSlot b r read i s) := by
  refine conforms_load fun current => ?_
  split
  · exact ⟨.refl g, hs⟩
  · rename_i hne
    split
    · refine conforms_tryTakeExact hb hi hne ⟨rfl, hne⟩ ?_ ⟨.refl g, hs⟩
      exact conforms_decCount ⟨.refl g, hs⟩
    · rename_i hreviv
      split
      · exact ⟨.refl g, hs⟩
      · rename_i heligible
        refine (sizeAt_conforms hread).bind fun g' size ⟨hlater, hsize⟩ => ?_
        split
        · rename_i hfit
          exact ⟨hlater, (hs.later hlater).fits hi ⟨rfl, hne, Nat.le_of_not_lt hreviv,
            Nat.le_of_not_lt heligible, hfit.trans hsize⟩⟩
        · exact ⟨hlater, hs.later hlater⟩

lemma bestFitScan_conforms {limit : Nat} (hslots : ∀ i ∈ slots, i < (c.bin b).capacity)
    (hs : s.Fits c g b r) :
    Conforms (Follows c) (fun g' s' => g.Later g' ∧ s'.Fits c g' b r) g
      (bestFitScan b r read limit slots s) := by
  induction slots generalizing g s with
  | nil => exact ⟨.refl g, hs⟩
  | cons i slots ih =>
    refine (bestFitSlot_conforms hb hread (hslots i mem_cons_self) hs).bind
      fun g' out ⟨hlater, hs'⟩ => ?_
    dsimp only
    split
    · exact ⟨hlater, hs'⟩
    · exact (ih (fun j hj => hslots j (mem_cons_of_mem _ hj)) hs').mono
        fun _ _ h => ⟨hlater.trans h.1, h.2⟩

lemma bestFitLoop_conforms (rounds limit : Nat) :
    Conforms (Follows c) (fun g' _ => g.Later g') g
      (bestFitLoop (c.bin b) b r read rounds limit) := by
  induction rounds generalizing g limit with
  | zero => exact .refl g
  | succ rounds ih =>
    have hstart : Best.start.Fits c g b r := nofun
    refine (bestFitScan_conforms hb hread (fun i => mem_range.1) hstart).bind
      fun g' s ⟨hlater, hs⟩ => ?_
    rcases hbest : s.best with _ | ⟨idx, raw⟩
    · exact hlater
    · obtain ⟨hidx, hne, hp⟩ := hs idx raw hbest
      refine conforms_tryTakeExact hb hidx hne hp (conforms_decCount hlater) ?_
      simp only [Bool.false_eq_true, if_false]
      split
      · exact (firstFit_conforms hb hread).mono fun _ _ h => hlater.trans h
      · exact (ih _).mono fun _ _ h => hlater.trans h

lemma bestFit_conforms :
    Conforms (Follows c) (fun g' _ => g.Later g') g (bestFit (c.bin b) b r read) := by
  refine conforms_isEmpty fun e => ?_
  split
  · exact .refl g
  · split
    · exact .refl g
    · split
      · exact firstFit_conforms hb hread
      · exact bestFitLoop_conforms hb hread _ _

end

end

lemma takeWindow_conforms (hbins : ∀ b ∈ bins, b < c.bins.length ∧ (c.bin b).isOversize = false) :
    Conforms (Follows c) (fun g' _ => g.Later g') g (takeWindow c r bins) := by
  induction bins generalizing g with
  | nil => exact .refl g
  | cons b bins ih =>
    obtain ⟨hb, hinline⟩ := hbins b mem_cons_self
    refine (bestFit_conforms hb hinline.symm).bind fun g' hit hg' => ?_
    cases hit with
    | some => exact hg'
    | none =>
      exact (ih fun b hb => hbins b (mem_cons_of_mem _ hb)).mono fun _ _ h => hg'.trans h

end Take

/-! ## The bins of a pool -/

section Bins

variable {c : Config} {g : Local}

lemma Config.bin_ladder {b : Nat} (h : b < c.ladder.length) :
    b < c.bins.length ∧ (c.bin b).isOversize = false := by
  have hbins : c.bins[b]? = some c.ladder[b] := by
    rw [bins, getElem?_append_left h, getElem?_eq_getElem h]
  refine ⟨(List.getElem?_eq_some_iff.1 hbins).1, ?_⟩
  rw [bin, getD_eq_getElem?_getD, hbins]
  exact c.inline _ (getElem_mem h)

lemma Config.bin_arm {arm : BinShape} (h : c.oversize = some arm) :
    c.ladder.length < c.bins.length ∧ c.bin c.ladder.length = arm := by
  simp [bins, bin, h]

lemma Config.mem_searchWindow {b start : Nat} (h : b ∈ c.searchWindow start) :
    b < c.ladder.length :=
  mem_range.1 (mem_of_mem_drop (mem_of_mem_take h))

lemma put_conforms {address size minAddress : Nat} :
    Conforms (Follows c) (fun g' _ => g' = g) g (put c address size minAddress) := by
  unfold put
  split
  · unfold putOversize
    split
    · rfl
    · rename_i arm harm
      obtain ⟨hb, rfl⟩ := Config.bin_arm harm
      refine (putBin_conforms hb).bind fun g' st hg' => ?_
      cases st <;> exact hg'
  · split
    · rfl
    · split
      · rfl
      · exact putWindow_conforms fun b hb => (Config.bin_ladder (Config.mem_searchWindow hb)).1

lemma takeOversize_conforms {r : Request} :
    Conforms (Follows c) (fun g' _ => g.Later g') g (takeOversize c r) := by
  unfold takeOversize
  split
  · exact .refl g
  · rename_i arm harm
    split
    · exact .refl g
    · have hover := c.arm arm (Option.mem_def.2 harm)
      obtain ⟨hb, rfl⟩ := Config.bin_arm harm
      exact bestFit_conforms hb hover.symm

lemma take_conforms {r : Request} : Conforms (Follows c) (fun g' _ => g.Later g') g (take c r) := by
  refine conforms_isEnabled fun enabled => ?_
  split
  · exact .refl g
  · split
    · exact .refl g
    · split
      · exact takeOversize_conforms
      · refine (takeWindow_conforms fun b hb =>
          Config.bin_ladder (Config.mem_searchWindow hb)).bind fun g' hit hg' => ?_
        cases hit with
        | some => exact hg'
        | none =>
          dsimp only
          split
          · exact takeOversize_conforms.mono fun _ _ h => hg'.trans h
          · exact hg'

end Bins

/-! ## Purging -/

section Purge

variable {c : Config} {g : Local} {b i minAddress fuel : Nat}

lemma tryPurgeLoop_conforms (hb : b < c.bins.length) (hi : i < (c.bin b).capacity) (current : Nat) :
    Conforms (Follows c) (fun g' out => g' = if out then g.owe b (-1) else g) g
      (tryPurgeLoop b i minAddress fuel current) := by
  induction fuel generalizing current with
  | zero => exact nofun
  | succ fuel ih =>
    unfold tryPurgeLoop
    split
    · rfl
    · rename_i hne
      split
      · rfl
      · rename_i hlt
        refine conforms_compareExchange hb hi ⟨rfl, hne, Nat.lt_of_not_le hlt⟩ ?_ ih
        rw [occupied_of_ne hne]
        rfl

lemma purgeSlots_conforms (hb : b < c.bins.length) (hslots : ∀ i ∈ slots, i < (c.bin b).capacity) :
    Conforms (Follows c) (fun g' _ => g' = g) g (purgeSlots b minAddress fuel slots) := by
  induction slots with
  | nil => rfl
  | cons i slots ih =>
    have hrest := ih fun j hj => hslots j (mem_cons_of_mem _ hj)
    have hslot : Conforms (Follows c) (fun g' out => g' = if out then g.owe b (-1) else g) g
        (tryPurgeBelow b i minAddress fuel) :=
      conforms_load fun current =>
        tryPurgeLoop_conforms hb (hslots i mem_cons_self) current
    refine hslot.bind fun g' out hg' => ?_
    subst hg'
    cases out with
    | true => exact conforms_decCount hrest
    | false => exact hrest

lemma purgeBins_conforms (hbins : ∀ b ∈ bins, b < c.bins.length) :
    Conforms (Follows c) (fun g' _ => g' = g) g (purgeBins c minAddress fuel bins) := by
  induction bins with
  | nil => rfl
  | cons b bins ih =>
    have hb := hbins b mem_cons_self
    have hbin : Conforms (Follows c) (fun g' _ => g' = g) g
        (purgeBin (c.bin b) b minAddress fuel) := by
      refine conforms_isEmpty fun e => ?_
      split
      · rfl
      · exact purgeSlots_conforms hb fun i => mem_range.1
    refine hbin.bind fun g' _ hg' => ?_
    subst hg'
    exact ih fun b hb => hbins b (mem_cons_of_mem _ hb)

end Purge

end Wedb.Reviv
