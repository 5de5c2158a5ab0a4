import Mathlib.Algebra.BigOperators.Ring.Finset
import Mathlib.Algebra.Order.BigOperators.Group.Finset
import Mathlib.Tactic.Ring
import Wedb.Reviv.Protocol

/-!
# Accounting of the free record pool

Over all threads that keep the protocol: records handed out and records in the slots are never more
than the records stored, and the active counter of a bin differs from its slots by what the threads
still owe it.
-/

namespace Wedb.Reviv

open Function List Prog

/-! ## The invariant -/

/-- Sum of `f` over the slots of a bin. -/
def Memory.sum (m : Memory) (c : Config) (f : Nat → Int) (b : Nat) : Int :=
  ∑ i ∈ Finset.range (c.bin b).capacity, f (m.slots b i)

/-- One if the word holds a record at the address. -/
def holds (address word : Nat) : Int :=
  if word ≠ emptyWord ∧ rawAddress word = address then 1 else 0

structure Inv (c : Config) (m : Memory) (gs : List Local) : Prop where
  seen : ∀ g ∈ gs, ∀ a, g.seen a ≤ m.sizes a
  active : ∀ b < c.bins.length, m.active b + (gs.map (·.debt b)).sum = m.sum c occupied b
  stored : ∀ a, (m.grants.countP (·.address = a) : Int) +
    ∑ b ∈ Finset.range c.bins.length, m.sum c (holds a) b ≤ m.puts.count a
  fits : ∀ t ∈ m.grants, t.request.minRevivAddr ≤ t.address ∧
    t.request.minEligibleAddr ≤ t.address ∧ t.request.requiredSize ≤ t.storedSize
  purged : ∀ p ∈ m.purged, p.2 < p.1

variable {g' : Local}

section Exchange

variable {c : Config} {m : Memory} {gs : List Local} {g : Local} {b i k new : Nat}
  {why : Purpose} {f : Nat → Int}

lemma sum_range_change (F F' : Nat → Int) {n : Nat} (hi : i < n) (h : ∀ j, j ≠ i → F' j = F j) :
    ∑ j ∈ Finset.range n, F' j = ∑ j ∈ Finset.range n, F j - F i + F' i := by
  have hmem := mem_range.2 hi
  have hrest : ∑ j ∈ (Finset.range n).erase i, F' j = ∑ j ∈ (Finset.range n).erase i, F j :=
    Finset.sum_congr rfl fun j hj => h j (Finset.ne_of_mem_erase hj)
  rw [← Finset.add_sum_erase _ F' hmem, ← Finset.add_sum_erase _ F hmem, hrest]
  ring

@[simp]
lemma exchange_slots : (m.exchange c b i new why).slots =
    update m.slots b (update (m.slots b) i new) := by
  cases why <;> rfl

@[simp]
lemma exchange_sizes : (m.exchange c b i new why).sizes = m.sizes := by
  cases why <;> rfl

@[simp]
lemma exchange_active : (m.exchange c b i new why).active = m.active := by
  cases why <;> rfl

lemma sum_exchange_self (hi : i < (c.bin b).capacity) :
    (m.exchange c b i new why).sum c f b = m.sum c f b - f (m.slots b i) + f new := by
  unfold Memory.sum
  rw [sum_range_change (fun j => f (m.slots b j))
    (fun j => f ((m.exchange c b i new why).slots b j)) hi]
  · simp
  · intro j hj
    simp [hj]

lemma sum_exchange_of_ne {b' : Nat} (h : b' ≠ b) :
    (m.exchange c b i new why).sum c f b' = m.sum c f b' := by
  simp [Memory.sum, h]

lemma sum_debt_set (hk : gs[k]? = some g) (b : Nat) :
    ((gs.set k g').map (·.debt b)).sum = (gs.map (·.debt b)).sum - g.debt b + g'.debt b := by
  obtain ⟨hlt, rfl⟩ := List.getElem?_eq_some_iff.1 hk
  rw [map_set, sum_set', dif_pos (by simpa using hlt), getElem_map]
  ring

end Exchange

section Steps

variable {c : Config} {m : Memory} {gs : List Local} {g : Local} {b i k expected new : Nat}
  {why : Purpose}

lemma holds_nonneg (a word : Nat) : 0 ≤ holds a word := by
  unfold holds
  split <;> omega

@[simp]
lemma holds_emptyWord (a : Nat) : holds a emptyWord = 0 := if_neg fun h => h.1 rfl

section

variable (h : Inv c m gs)
include h

/-- The size a thread knows is at most the one the pool holds. -/
lemma Inv.size_le (hg : g ∈ gs) (shape : BinShape) (word : Nat) :
    g.size shape word ≤ m.storedSize shape word := by
  unfold Local.size Memory.storedSize
  split
  · exact h.seen g hg _
  · rfl

section

variable (hk : gs[k]? = some g)
include hk

/-- What a local state becomes matters to the counters and to the sizes read only. -/
lemma Inv.set_local (hdebt : g'.debt = g.debt) (hseen : ∀ a, g'.seen a ≤ m.sizes a) :
    Inv c m (gs.set k g') where
  seen g'' hg'' := by
    rcases mem_or_eq_of_mem_set hg'' with hmem | rfl
    · exact h.seen g'' hmem
    · exact hseen
  active b hb := by
    rw [sum_debt_set hk, hdebt, sub_add_cancel]
    exact h.active b hb
  stored := h.stored
  fits := h.fits
  purged := h.purged

lemma Inv.add_active (b : Nat) (d : Int) :
    Inv c { m with active := update m.active b (m.active b + d) } (gs.set k (g.owe b (-d))) where
  seen g'' hg'' := by
    rcases mem_or_eq_of_mem_set hg'' with hmem | rfl
    · exact h.seen g'' hmem
    · exact h.seen g (mem_of_getElem? hk)
  active b' hb' := by
    refine trans ?_ (h.active b' hb')
    rw [sum_debt_set hk]
    rcases eq_or_ne b' b with rfl | hne
    · simp only [update_self, Local.owe]
      ring
    · simp only [update_of_ne hne, Local.owe]
      ring
  stored := h.stored
  fits := h.fits
  purged := h.purged

omit hk in
/-- The records in the slots and the records handed out never outnumber those stored. -/
lemma Inv.stored_exchange (hb : b < c.bins.length)
    (hi : i < (c.bin b).capacity) (hp : Permits c g b (m.slots b i) new why) (a : Nat) :
    ((m.exchange c b i new why).grants.countP (·.address = a) : Int) +
      ∑ b' ∈ Finset.range c.bins.length, (m.exchange c b i new why).sum c (holds a) b' ≤
        (m.exchange c b i new why).puts.count a := by
  have hold := h.stored a
  have hnonneg := holds_nonneg a (m.slots b i)
  rw [sum_range_change _ _ hb fun b' hb' => sum_exchange_of_ne hb', sum_exchange_self hi]
  cases why with
  | store =>
    have hnew : holds a new ≤ if rawAddress new = a then 1 else 0 := by
      unfold holds
      split <;> split <;> simp_all
    simp only [Memory.exchange, count_cons, beq_iff_eq]
    split at hnew <;> rename_i ha <;> simp only [ha, if_true] <;> omega
  | grant =>
    obtain ⟨rfl, hne, -⟩ := hp
    have hword : holds a (m.slots b i) = if rawAddress (m.slots b i) = a then 1 else 0 := by
      simp [holds, hne]
    simp only [Memory.exchange, countP_cons, decide_eq_true_eq, holds_emptyWord]
    split at hword <;> rename_i ha <;> push_cast <;> omega
  | evict | purge =>
    obtain ⟨rfl, -⟩ := hp
    simp only [Memory.exchange, holds_emptyWord]
    omega

lemma Inv.exchange (hb : b < c.bins.length)
    (hi : i < (c.bin b).capacity) (hp : Permits c g b (m.slots b i) new why) :
    Inv c (m.exchange c b i new why)
      (gs.set k (g.owe b (occupied new - occupied (m.slots b i)))) where
  seen g'' hg'' := by
    rw [exchange_sizes]
    rcases mem_or_eq_of_mem_set hg'' with hmem | rfl
    · exact h.seen g'' hmem
    · exact h.seen g (mem_of_getElem? hk)
  active b' hb' := by
    have hact := h.active b' hb'
    rw [exchange_active, sum_debt_set hk]
    rcases eq_or_ne b' b with rfl | hne
    · rw [sum_exchange_self hi, ← hact]
      simp only [Local.owe, update_self]
      ring
    · rw [sum_exchange_of_ne hne, ← hact]
      simp only [Local.owe, update_of_ne hne]
      ring
  stored := h.stored_exchange hb hi hp
  fits := by
    cases why with
    | grant =>
      intro t ht
      rcases mem_cons.1 ht with rfl | ht
      · obtain ⟨-, -, hreviv, heligible, hsize⟩ := hp
        exact ⟨hreviv, heligible, hsize.trans (h.size_le (mem_of_getElem? hk) _ _)⟩
      · exact h.fits t ht
    | store | evict | purge bound => exact h.fits
  purged := by
    cases why with
    | purge =>
      intro p hmem
      rcases mem_cons.1 hmem with rfl | hmem
      · exact hp.2.2
      · exact h.purged p hmem
    | store | evict | grant r => exact h.purged

/-- Every operation a thread is permitted keeps the accounts. -/
lemma Inv.exec {o : Op} {oracle : Bool} {m' : Memory} {r : o.Res} (he : exec c m o oracle = some (m', r))
    (hf : Follows c g o r g') : Inv c m' (gs.set k g') := by
  have hseen := h.seen g (mem_of_getElem? hk)
  have hsame : Inv c m (gs.set k g) := h.set_local hk rfl hseen
  cases o with
  | load | loadActive | loadSuspend =>
    cases he
    obtain rfl : g' = g := hf
    exact hsame
  | compareExchange =>
    obtain ⟨⟨hb, hi, hp⟩, rfl⟩ := hf
    simp only [Reviv.exec] at he
    split at he
    · rename_i heq
      cases he
      obtain ⟨rfl, -⟩ := heq
      exact h.exchange hk hb hi hp
    · cases he
      exact hsame
  | addActive b d =>
    cases he
    obtain rfl : g' = g.owe b (-d) := hf
    exact h.add_active hk b d
  | nextCursor =>
    cases he
    obtain rfl : g' = g := hf
    exact ⟨hsame.seen, hsame.active, hsame.stored, hsame.fits, hsame.purged⟩
  | readSize address =>
    cases he
    cases oracle with
    | true =>
      obtain rfl : g' = g := hf
      exact hsame
    | false =>
      obtain rfl : g' = g.see address (m.sizes address) := hf
      refine h.set_local hk rfl fun a => ?_
      rcases eq_or_ne a address with rfl | ha
      · simpa [Local.see] using hseen a
      · simpa [Local.see, ha] using hseen a
  | stall => cases he

end

end

end Steps

/-! ## Runs of the pool -/

/-- What the pool owes its callers. -/
structure Sound (c : Config) (s : State) : Prop where
  /-- no address is handed out more often than it was stored -/
  handedOut : ∀ a, s.shared.grants.countP (·.address = a) ≤ s.shared.puts.count a
  /-- a record handed out lies above the caller's bounds and is as large as required -/
  fits : ∀ t ∈ s.shared.grants, t.request.minRevivAddr ≤ t.address ∧
    t.request.minEligibleAddr ≤ t.address ∧ t.request.requiredSize ≤ t.storedSize
  /-- `purge_below` clears nothing at or above its bound -/
  purged : ∀ p ∈ s.shared.purged, p.2 < p.1
  /-- with no operation in flight the active counters are exact -/
  active : s.Quiet → ∀ b < c.bins.length, s.shared.active b =
    ((Finset.range (c.bin b).capacity).filter fun i => s.shared.slots b i ≠ emptyWord).card

/-- A record outside the pool is not laid out smaller than it was. -/
def neverShrinks (s : State) : Action → Bool
  | .rewrite address size => s.shared.sizes address ≤ size
  | _ => true

section Runs

variable {c : Config} {s s' : State} {a : Action}

/-- The threads keep the protocol and the accounts are in order. -/
abbrev Balanced (c : Config) (s : State) : Prop :=
  Threads.Conforming (Follows c) Settled (Inv c) s

lemma balanced_start (suspend : Int) (sizes : Nat → Nat) : Balanced c (start suspend sizes) := by
  refine ⟨[], .nil, ⟨by simp, ?_, ?_, by simp [start], by simp [start]⟩⟩
  · intro b _
    simp [start, Memory.sum]
  · intro a
    simp [start, Memory.sum]

lemma Inv.spawn {m : Memory} {gs : List Local} (h : Inv c m gs) :
    Inv c m (gs ++ [Local.fresh]) where
  seen g hg a := by
    rcases mem_append.1 hg with hg | hg
    · exact h.seen g hg a
    · cases mem_singleton.1 hg
      exact Nat.zero_le _
  active b hb := by
    simpa [Local.fresh] using h.active b hb
  stored := h.stored
  fits := h.fits
  purged := h.purged

lemma Balanced.spawn {p : Code Outcome} (hs : Balanced c s)
    (hp : Conforms (Follows c) Settled Local.fresh p) : Balanced c (s.spawn p) :=
  Threads.Conforming.spawn hs hp fun _ => Inv.spawn

lemma Balanced.step (hs : Balanced c s) (ha : neverShrinks s a = true)
    (h : step c s a = some s') : Balanced c s' := by
  cases a with
  | put =>
    cases h
    refine hs.spawn (put_conforms.map fun g' _ hg' => ?_)
    rw [hg']
    rfl
  | take =>
    cases h
    exact hs.spawn (take_conforms.map fun g' _ hg' => hg'.1)
  | purgeBelow =>
    cases h
    refine hs.spawn ((purgeBins_conforms fun b => mem_range.1).map fun g' _ hg' => ?_)
    rw [hg']
    rfl
  | pause | resume =>
    cases h
    exact Threads.Conforming.outside hs fun gs h =>
      ⟨h.seen, h.active, h.stored, h.fits, h.purged⟩
  | rewrite address size =>
    obtain ⟨-, ⟨⟩⟩ := Option.ite_none_right_eq_some.1 h
    have hgrow : s.shared.sizes address ≤ size := of_decide_eq_true ha
    refine Threads.Conforming.outside hs fun gs hinv =>
      ⟨fun g hg a => ?_, hinv.active, hinv.stored, hinv.fits, hinv.purged⟩
    -- a size already read stays below the size of the record
    rcases eq_or_ne a address with rfl | hne
    · simpa using (hinv.seen g hg a).trans hgrow
    · simpa [hne] using hinv.seen g hg a
  | run =>
    exact Threads.Conforming.runTask hs (fun hinv hk he hf => .exec hinv hk he hf) h

lemma Memory.sum_occupied (m : Memory) (b : Nat) : m.sum c occupied b =
    ((Finset.range (c.bin b).capacity).filter fun i => m.slots b i ≠ emptyWord).card := by
  rw [Finset.card_filter]
  push_cast
  exact Finset.sum_congr rfl fun i _ => by
    unfold occupied
    split <;> simp_all

lemma Balanced.sound (hs : Balanced c s) : Sound c s := by
  obtain ⟨gs, hgs, hinv⟩ := hs
  refine ⟨fun a => ?_, hinv.fits, hinv.purged, fun hquiet b hb => ?_⟩
  · have hstored := hinv.stored a
    have hnonneg : 0 ≤ ∑ b ∈ .range c.bins.length, s.shared.sum c (holds a) b :=
      Finset.sum_nonneg fun b _ => Finset.sum_nonneg fun i _ => holds_nonneg a _
    omega
  · have hdebt : (gs.map (·.debt b)).sum = 0 := by
      refine sum_eq_zero fun d hd => ?_
      obtain ⟨g, hg, rfl⟩ := mem_map.1 hd
      obtain ⟨_, hfinal⟩ := Threads.forall_final_of_quiet hgs hquiet g hg
      rw [show g.debt = fun _ => 0 from hfinal]
    rw [← Memory.sum_occupied, ← hinv.active b hb, hdebt, add_zero]

/-- In every run in which no record outside the pool is laid out smaller than it was, the pool keeps
what it owes. -/
theorem sound_of_neverShrinks {suspend : Int} {sizes : Nat → Nat}
    (h : Machine.Reaches (step c) (fun s a => neverShrinks s a = true) (start suspend sizes) s) :
    Sound c s :=
  (h.invariant (I := Balanced c) (balanced_start suspend sizes) fun hi ha hs => hi.step ha hs).sound

end Runs

/-! ## A size read too early -/

/-- One small bin and an arm for large records, with one slot each. -/
def tiny : Config where
  ladder := [⟨16, 1, 1⟩]
  oversize := some ⟨1000000, 1, 1⟩
  sorted := by decide
  inline := by decide
  arm := by decide

/-- A large record is stored and taken again. -/
theorem sound_put_and_take : ∃ s, Sound tiny s ∧ s.shared.grants.map Grant.address = [64] := by
  obtain ⟨s, hs, hgrants⟩ := Machine.exists_reaches_of_run (step tiny)
    (fun s a => neverShrinks s a = true) (start 0 fun _ => 200000)
    ([.put 64 200000 0] ++ replicate 4 (.run 0 false) ++ [.take ⟨150000, 0, 0⟩] ++
      replicate 6 (.run 1 false))
    (fun s => s.shared.grants.map Grant.address) [64] (by decide +kernel)
  exact ⟨s, sound_of_neverShrinks hs, hgrants⟩

/-- A thread reads the size of a large record; before its exchange another thread takes the record,
lays a smaller one out in its place and stores it again. The word is the same, so the exchange
succeeds and hands out a record smaller than required. -/
theorem exists_not_sound : ∃ s, Machine.Reachable (step tiny) (start 0 fun _ => 200000) s ∧
    ¬ Sound tiny s := by
  obtain ⟨s, hs, hgrants⟩ := Machine.exists_reachable_of_run (step tiny) (start 0 fun _ => 200000)
    ([.put 64 200000 0] ++ replicate 4 (.run 0 false) ++
      [.take ⟨150000, 0, 0⟩] ++ replicate 4 (.run 1 false) ++
      [.take ⟨150000, 0, 0⟩] ++ replicate 6 (.run 2 false) ++
      [.rewrite 64 100000, .put 64 100000 0] ++ replicate 4 (.run 3 false) ++
      [.run 1 false])
    (fun s => s.shared.grants.head?) (some ⟨64, 100000, ⟨150000, 0, 0⟩⟩) (by decide +kernel)
  refine ⟨s, hs, fun hsound => ?_⟩
  exact absurd (hsound.fits _ (mem_of_head? hgrants)).2.2 (by decide)

end Wedb.Reviv
