import Wedb.Latch.Bucket

/-!
# Exclusion by the latch word

Every change of the word is a move of one thread: it takes or gives back a latch, sets the link once,
or touches one of the advisory bits. The counter then counts the shared holders, the exclusive bit
has one owner, and an owner that has seen the counter at zero is alone.
-/

namespace Wedb.Latch

open List Prog

/-! ## The protocol of one thread -/

/-- How far a thread is with its latch. -/
inductive Phase
  | free
  | shared
  /-- the exclusive bit is set, readers may still be there -/
  | draining
  /-- the exclusive bit is set and the counter was seen at zero -/
  | drained
  deriving DecidableEq

/-- The thread has set the exclusive bit. -/
def Phase.owns : Phase → Bool
  | draining | drained => true
  | free | shared => false

/-- The changes of the word, with what the thread knows of the word it replaces. -/
inductive Move : Phase → Word → Word → Phase → Prop
  | acquireShared {w : Word} (hexclusive : exclusive w = false) (hroom : (shared w).toNat ≠ 8191) :
      Move .free w (w + sharedLatchInc) .shared
  | releaseShared (w : Word) : Move .shared w (w - sharedLatchInc) .free
  | acquireExclusive {w : Word} (hexclusive : exclusive w = false) :
      Move .free w (w ||| exclusiveLatchMask) .draining
  | releaseExclusive {g : Phase} (w : Word) (howns : g.owns = true) :
      Move g w (w &&& ~~~exclusiveLatchMask) .free
  | install {w : Word} (g : Phase) (overflowIdx : Word) (hlink : link w = 0#48) :
      Move g w (w ||| overflowIdx &&& addressMask) g
  | setFlag {v : Word} (g : Phase) (w : Word) (hv : v = handoffMask ∨ v = releaseNotifyMask) :
      Move g w (w ||| v) g
  | clearFlag {v : Word} (g : Phase) (w : Word) (hv : v = handoffMask ∨ v = releaseNotifyMask) :
      Move g w (w &&& ~~~v) g

/-- What an operation does to the phase of its thread. A thread that holds a shared latch is in no
call. -/
def Follows (g : Phase) (o : Op) (r : o.Res) (g' : Phase) : Prop :=
  g ≠ .shared ∧
    match o, r with
    | .load, w => g' = g ∨ g = .draining ∧ Latch.shared w = 0#13 ∧ g' = .drained
    | .compareExchangeWeak expected new, found =>
      ∃ g₁, Move g expected new g₁ ∧
        g' = match (show Option Word from found) with
          | none => g₁
          | some _ => g
    | .fetchSub x, _ => ∀ w, Move g w (w - x) g'
    | .fetchAnd x, _ => ∀ w, Move g w (w &&& x) g'
    | .fetchOr x, _ => ∀ w, Move g w (w ||| x) g'
    | .stall, _ => True

/-- The phase in which a call leaves its thread. -/
def Held.phase : Held → Phase
  | nothing => .free
  | shared => .shared
  | exclusive => .drained

def Settled (g : Phase) (h : Held) : Prop := g = h.phase

/-! ## The calls keep the protocol -/

section Calls

variable {g : Phase} {α : Type} {final : Phase → α → Prop}

lemma conforms_load {f : Word → Code α} (hg : g ≠ .shared)
    (h : ∀ w, Conforms Follows final g (f w)) : Conforms Follows final g (load >>= f) :=
  fun w => ⟨g, ⟨hg, .inl rfl⟩, h w⟩

/-- A thread that sees the counter at zero has drained the readers. -/
lemma conforms_load_draining {f : Word → Code α} (h : ∀ w, Conforms Follows final .draining (f w) ∨
      shared w = 0#13 ∧ Conforms Follows final .drained (f w)) :
    Conforms Follows final .draining (load >>= f) := by
  intro w
  rcases h w with h | ⟨hw, h⟩
  · exact ⟨.draining, ⟨nofun, .inl rfl⟩, h⟩
  · exact ⟨.drained, ⟨nofun, .inr ⟨rfl, hw, rfl⟩⟩, h⟩

lemma conforms_compareExchangeWeak {expected new : Word} {f : Option Word → Code α} {g₁ : Phase}
    (hg : g ≠ .shared) (hmove : Move g expected new g₁)
    (hdone : Conforms Follows final g₁ (f none))
    (hfail : ∀ w, Conforms Follows final g (f (some w))) :
    Conforms Follows final g (compareExchangeWeak expected new >>= f) := by
  intro found
  match found with
  | none => exact ⟨g₁, ⟨hg, g₁, hmove, rfl⟩, hdone⟩
  | some w => exact ⟨g, ⟨hg, g₁, hmove, rfl⟩, hfail w⟩

/-- A call that goes on for ever may leave its thread anywhere. -/
lemma conforms_stall {f : Unit → Code α} (hg : g ≠ .shared) (g₁ : Phase)
    (h : Conforms Follows final g₁ (f ())) : Conforms Follows final g (stall >>= f) :=
  fun _ => ⟨g₁, ⟨hg, trivial⟩, h⟩

lemma tryLockSharedSpin_conforms (spins : Nat) :
    Conforms Follows (fun g' ok => g' = if ok then .shared else .free) .free
      (tryLockSharedSpin spins) := by
  induction spins with
  | zero => rfl
  | succ spins ih =>
    refine conforms_load nofun fun curr => ?_
    split
    · rename_i hcurr
      exact conforms_compareExchangeWeak nofun
        (.acquireShared (exclusive_eq_false hcurr.1) (shared_ne_allOnes hcurr.2)) rfl fun _ => ih
    · exact ih

lemma drain_conforms (spins : Nat) :
    Conforms Follows (fun g' ok => g' = if ok then .drained else .draining) .draining
      (drain spins) := by
  induction spins with
  | zero => rfl
  | succ spins ih =>
    refine conforms_load_draining fun curr => ?_
    split
    · rename_i hcurr
      exact .inr ⟨shared_eq_zero hcurr, rfl⟩
    · exact .inl ih

lemma rollback_conforms (fuel : Nat) :
    Conforms Follows (fun g' _ => g' = .free) .draining (rollback fuel) := by
  induction fuel with
  | zero => exact conforms_stall nofun .free rfl
  | succ fuel ih =>
    refine conforms_load nofun fun curr => ?_
    exact conforms_compareExchangeWeak nofun (.releaseExclusive curr rfl) rfl fun _ => ih

lemma drainOrRollback_conforms (fuel : Nat) :
    Conforms Follows (fun g' ok => g' = if ok then .drained else .free) .draining
      (drainOrRollback fuel) := by
  refine (drain_conforms maxReaderDrainSpins).bind fun g' ok hg' => ?_
  subst hg'
  cases ok with
  | true => rfl
  | false =>
    exact (rollback_conforms fuel).bind fun g' _ hg' => hg'

lemma setExclusiveBit_conforms (spins : Nat) :
    Conforms Follows (fun g' ok => g' = if ok then .draining else .free) .free
      (setExclusiveBit spins) := by
  induction spins with
  | zero => rfl
  | succ spins ih =>
    refine conforms_load nofun fun curr => ?_
    split
    · rename_i hcurr
      exact conforms_compareExchangeWeak nofun (.acquireExclusive (exclusive_eq_false hcurr)) rfl
        fun _ => ih
    · exact ih

lemma tryLockExclusiveNow_conforms (fuel : Nat) :
    Conforms Follows (fun g' ok => g' = if ok then .drained else .free) .free
      (tryLockExclusiveNow fuel) := by
  refine (setExclusiveBit_conforms maxLockSpins).bind fun g' ok hg' => ?_
  subst hg'
  cases ok with
  | true => exact drainOrRollback_conforms fuel
  | false => rfl

lemma tryLockExclusive_conforms (fuel : Nat) :
    Conforms Follows (fun g' ok => g' = if ok then .drained else .free) .free
      (tryLockExclusive fuel) := by
  refine conforms_load nofun fun curr => ?_
  beta_reduce
  split
  · rfl
  · exact tryLockExclusiveNow_conforms fuel

lemma acquireShared_conforms : Conforms Follows Settled .free acquireShared := by
  refine (tryLockSharedSpin_conforms maxLockSpins).bind fun g' ok hg' => ?_
  subst hg'
  cases ok <;> rfl

lemma acquireExclusive_conforms (registered : Bool) (fuel : Nat) :
    Conforms Follows Settled .free (acquireExclusive registered fuel) := by
  have hlock : Conforms Follows (fun g' ok => g' = if ok then .drained else .free) .free
      (if registered then tryLockExclusiveNow fuel else tryLockExclusive fuel) := by
    split
    · exact tryLockExclusiveNow_conforms fuel
    · exact tryLockExclusive_conforms fuel
  refine hlock.bind fun g' ok hg' => ?_
  subst hg'
  cases ok <;> rfl

lemma consumeLoop_conforms (fuel : Nat) (curr : Word) :
    Conforms Follows (fun g' _ => g' = .free) .free (consumeLoop fuel curr) := by
  induction fuel generalizing curr with
  | zero => exact conforms_stall nofun .free rfl
  | succ fuel ih =>
    refine conforms_compareExchangeWeak nofun (.clearFlag .free curr (.inr rfl)) rfl
      fun actual => ?_
    dsimp only
    split
    · rfl
    · exact ih actual

lemma installLoop_conforms (overflowIdx : Word) (fuel : Nat) (curr : Word) :
    Conforms Follows (fun g' _ => g' = .free) .free
      (installLoop (overflowIdx &&& addressMask) fuel curr) := by
  induction fuel generalizing curr with
  | zero => exact conforms_stall nofun .free rfl
  | succ fuel ih =>
    unfold installLoop
    split
    · rfl
    · rename_i hcurr
      exact conforms_compareExchangeWeak nofun
        (.install .free overflowIdx (link_eq_zero (not_not.1 hcurr))) rfl ih

lemma consumeReleaseNotify_conforms (fuel : Nat) :
    Conforms Follows (fun g' _ => g' = .free) .free (consumeReleaseNotify fuel) := by
  refine conforms_load nofun fun curr => ?_
  split
  · rfl
  · exact consumeLoop_conforms fuel curr

lemma setOverflowIndex_conforms (overflowIdx : Word) (fuel : Nat) :
    Conforms Follows (fun g' _ => g' = .free) .free (setOverflowIndex overflowIdx fuel) := by
  unfold setOverflowIndex
  split
  · rfl
  · exact conforms_load nofun fun curr => installLoop_conforms overflowIdx fuel curr

end Calls

/-! ## The invariant -/

structure Inv (w : Word) (gs : List Phase) : Prop where
  counter : (shared w).toNat = gs.countP (· = .shared)
  owner : gs.countP Phase.owns = (exclusive w).toNat
  alone : Phase.drained ∈ gs → shared w = 0#13

section Moves

variable {w w' : Word} {g g' : Phase} {gs : List Phase} {k : Nat}

lemma mem_set_drained (h : Phase.drained ∈ gs.set k g') (hne : g' ≠ .drained) :
    Phase.drained ∈ gs := by
  rcases mem_or_eq_of_mem_set h with hmem | rfl
  · exact hmem
  · exact absurd rfl hne

section

variable (h : Inv w gs)
include h

/-- While the bit is clear nobody is alone. -/
lemma Inv.not_drained (hw : exclusive w = false) : Phase.drained ∉ gs := by
  intro hmem
  have hpos : 0 < gs.countP Phase.owns := countP_pos_iff.2 ⟨_, hmem, rfl⟩
  rw [h.owner, hw] at hpos
  cases hpos

/-- A shared holder keeps the counter above zero, and the owner from being alone. -/
lemma Inv.shared_ne_zero (hk : gs[k]? = some .shared) : (shared w).toNat ≠ 0 := by
  have hpos : 0 < gs.countP (· = .shared) := countP_pos_iff.2 ⟨_, mem_of_getElem? hk, by simp⟩
  rw [← h.counter] at hpos
  omega

section

variable (hk : gs[k]? = some g)
include hk

lemma Inv.same : Inv w (gs.set k g) := by
  obtain ⟨hlt, rfl⟩ := List.getElem?_eq_some_iff.1 hk
  rwa [set_getElem_self]

omit hk in
/-- A word with the same counter and the same owner. -/
lemma Inv.keep (hshared : shared w' = shared w)
    (hexclusive : exclusive w' = exclusive w) : Inv w' gs :=
  ⟨hshared ▸ h.counter, hexclusive ▸ h.owner, fun hmem => hshared ▸ h.alone hmem⟩

lemma Inv.move (hm : Move g w w' g') : Inv w' (gs.set k g') := by
  cases hm with
  | acquireShared hexclusive hroom =>
    obtain ⟨hf, -, hs⟩ := parts_add_inc hroom
    have hcount := Threads.countP_set_add (· = .shared) .shared hk
    have howner := Threads.countP_set_add Phase.owns .shared hk
    refine ⟨?_, ?_, fun hmem => absurd (mem_set_drained hmem nofun) (h.not_drained hexclusive)⟩
    · rw [hs, h.counter]
      simpa using hcount.symm
    · rw [show exclusive _ = exclusive w from congrArg (·.getLsbD 2) hf, ← h.owner]
      exact howner
  | releaseShared =>
    obtain ⟨hf, -, hs⟩ := parts_sub_inc (h.shared_ne_zero hk)
    have hcount := Threads.countP_set_add (· = .shared) .free hk
    have howner := Threads.countP_set_add Phase.owns .free hk
    refine ⟨?_, ?_, fun hmem => ?_⟩
    · have hcounter := h.counter
      change _ + 1 = _ + 0 at hcount
      omega
    · rw [show exclusive _ = exclusive w from congrArg (·.getLsbD 2) hf, ← h.owner]
      exact howner
    · have halone := h.alone (mem_set_drained hmem nofun)
      exact absurd (by rw [halone]; rfl) (h.shared_ne_zero hk)
  | acquireExclusive hexclusive =>
    have hs : shared (w ||| exclusiveLatchMask) = shared w := shared_or_of_eq_zero w (by decide)
    have hcount := Threads.countP_set_add (· = .shared) .draining hk
    have howner := Threads.countP_set_add Phase.owns .draining hk
    refine ⟨?_, ?_, fun hmem => absurd (mem_set_drained hmem nofun) (h.not_drained hexclusive)⟩
    · rw [hs, h.counter]
      simpa using hcount.symm
    · rw [exclusive_or, show exclusive exclusiveLatchMask = true from by decide]
      rw [h.owner, hexclusive] at howner
      simpa [Phase.owns] using howner
  | releaseExclusive _ howns =>
    have hs : shared (w &&& ~~~exclusiveLatchMask) = shared w :=
      shared_and_of_eq_allOnes w (by decide)
    have hcount := Threads.countP_set_add (· = .shared) .free hk
    have howner := Threads.countP_set_add Phase.owns .free hk
    have hne : g ≠ .shared := by
      rintro rfl
      cases howns
    refine ⟨?_, ?_, fun hmem => ?_⟩
    · rw [hs, h.counter]
      simpa [hne] using hcount.symm
    · rw [exclusive_and, show exclusive (~~~exclusiveLatchMask) = false from by decide,
        Bool.and_false]
      have hle : (exclusive w).toNat ≤ 1 := Bool.toNat_le _
      rw [howns, h.owner] at howner
      change _ + 1 = _ + 0 at howner
      change _ = 0
      omega
    · rw [hs]
      exact h.alone (mem_set_drained hmem nofun)
  | install =>
    refine (h.same hk).keep ?_ ?_
    · rw [shared_or, shared_and, show shared addressMask = 0#13 from by decide, BitVec.and_zero,
        BitVec.or_zero]
    · rw [exclusive_or, exclusive_and, show exclusive addressMask = false from by decide,
        Bool.and_false, Bool.or_false]
  | setFlag _ _ hv =>
    refine (h.same hk).keep (shared_or_of_eq_zero w ?_) ?_
    · rcases hv with rfl | rfl <;> decide
    · rw [exclusive_or]
      rcases hv with rfl | rfl <;> exact Bool.or_false _
  | clearFlag _ _ hv =>
    refine (h.same hk).keep (shared_and_of_eq_allOnes w ?_) ?_
    · rcases hv with rfl | rfl <;> decide
    · rw [exclusive_and]
      rcases hv with rfl | rfl <;> exact Bool.and_true _

/-- A move that changes the counter changes nothing else. -/
lemma Inv.noCarry (hm : Move g w w' g') (hne : numLatchedShared w' ≠ numLatchedShared w) :
    w' &&& ~~~sharedLatchMask = w &&& ~~~sharedLatchMask := by
  rw [numLatchedShared_eq, numLatchedShared_eq] at hne
  cases hm with
  | acquireShared hexclusive hroom =>
    obtain ⟨hf, hl, -⟩ := parts_add_inc hroom
    exact and_not_sharedLatchMask_eq _ _ hf hl
  | releaseShared =>
    obtain ⟨hf, hl, -⟩ := parts_sub_inc (h.shared_ne_zero hk)
    exact and_not_sharedLatchMask_eq _ _ hf hl
  | acquireExclusive =>
    exact absurd (congrArg _ (shared_or_of_eq_zero w (by decide))) hne
  | releaseExclusive =>
    exact absurd (congrArg _ (shared_and_of_eq_allOnes w (by decide))) hne
  | install =>
    refine absurd (congrArg _ (shared_or_of_eq_zero w ?_)) hne
    rw [shared_and, show shared addressMask = 0#13 from by decide, BitVec.and_zero]
  | setFlag _ _ hv =>
    refine absurd (congrArg _ (shared_or_of_eq_zero w ?_)) hne
    rcases hv with rfl | rfl <;> decide
  | clearFlag _ _ hv =>
    refine absurd (congrArg _ (shared_and_of_eq_allOnes w ?_)) hne
    rcases hv with rfl | rfl <;> decide

/-- No move alters a link that is set. -/
lemma Inv.link_eq (hm : Move g w w' g') (hlink : link w ≠ 0#48) : link w' = link w := by
  cases hm with
  | acquireShared hexclusive hroom => exact (parts_add_inc hroom).2.1
  | releaseShared => exact (parts_sub_inc (h.shared_ne_zero hk)).2.1
  | acquireExclusive => exact link_or_of_eq_zero w (by decide)
  | releaseExclusive => exact link_and_of_eq_allOnes w (by decide)
  | install _ _ hzero => exact absurd hzero hlink
  | setFlag _ _ hv =>
    refine link_or_of_eq_zero w ?_
    rcases hv with rfl | rfl <;> decide
  | clearFlag _ _ hv =>
    refine link_and_of_eq_allOnes w ?_
    rcases hv with rfl | rfl <;> decide

end

end

end Moves

/-! ## Runs -/

/-- What the latch word guarantees. -/
structure Exclusion (s : State) : Prop where
  /-- whoever holds the exclusive latch is the only one to hold a latch -/
  alone : ∀ (i : Nat) (p : Code Held), s.tasks[i]? = some p → holdsExclusive p = true →
    ∀ (j : Nat) (q : Code Held), j ≠ i → s.tasks[j]? = some q →
      holdsExclusive q = false ∧ holdsShared q = false
  /-- the counter is the number of shared latches held -/
  counter : numLatchedShared s.shared = s.tasks.countP holdsShared
  /-- a step that changes the counter changes no other bit -/
  noCarry : ∀ a s', step s a = some s' → numLatchedShared s'.shared ≠ numLatchedShared s.shared →
    s'.shared &&& ~~~sharedLatchMask = s.shared &&& ~~~sharedLatchMask
  /-- a link that is set stays -/
  link : ∀ a s', step s a = some s' → overflowIndex s.shared ≠ 0#64 →
    overflowIndex s'.shared = overflowIndex s.shared

variable {gs : List Phase} {g : Phase} {p : Code Held} {w : Word}

section Runs

variable {s s' : State} {a : Action}

/-- The threads keep the protocol, and the word counts their latches. -/
abbrev Balanced (s : State) : Prop := Threads.Conforming Follows Settled Inv s

/-- Which word an action may make of the word it finds. -/
def Steps (s s' : State) : Prop :=
  s'.shared = s.shared ∨
    ∃ (gs : List Phase) (k : Nat) (g g' : Phase), Inv s.shared gs ∧ gs[k]? = some g ∧
      Move g s.shared s'.shared g'

/-- A permitted operation leaves the word alone or is a move. -/
lemma exec_move {w' : Word} {o : Op} {spurious : Bool} {r : o.Res} {g' : Phase}
    (he : exec w o spurious = some (w', r)) (hf : Follows g o r g') :
    (w' = w ∧ (g' = g ∨ g = .draining ∧ shared w = 0#13 ∧ g' = .drained)) ∨ Move g w w' g' := by
  obtain ⟨-, hf⟩ := hf
  cases o with
  | load =>
    cases he
    exact .inl ⟨rfl, hf⟩
  | compareExchangeWeak =>
    obtain ⟨g₁, hmove, rfl⟩ := hf
    simp only [exec] at he
    split at he
    · rename_i heq
      cases he
      obtain ⟨rfl, -⟩ := heq
      exact .inr hmove
    · cases he
      exact .inl ⟨rfl, .inl rfl⟩
  | fetchSub | fetchAnd | fetchOr =>
    cases he
    exact .inr (hf w)
  | stall => cases he

lemma Inv.exec {w' : Word} {k : Nat} {o : Op} {spurious : Bool} {r : o.Res}
    {g' : Phase} (h : Inv w gs) (hk : gs[k]? = some g) (he : exec w o spurious = some (w', r))
    (hf : Follows g o r g') : Inv w' (gs.set k g') := by
  rcases exec_move he hf with ⟨rfl, rfl | ⟨rfl, hzero, rfl⟩⟩ | hmove
  · exact h.same hk
  · -- the counter is at zero, so the owner is alone from here on
    have hcount := Threads.countP_set_add (· = .shared) .drained hk
    have howner := Threads.countP_set_add Phase.owns .drained hk
    refine ⟨?_, ?_, fun _ => hzero⟩
    · rw [h.counter]
      exact hcount.symm
    · rw [← h.owner]
      exact Nat.add_right_cancel howner
  · exact h.move hk hmove

lemma Inv.spawn (h : Inv w gs) : Inv w (gs ++ [.free]) where
  counter := by simpa using h.counter
  owner := by simpa [Phase.owns] using h.owner
  alone hmem := h.alone (by simpa using hmem)

lemma Balanced.spawn (hs : Balanced s)
    (hp : Conforms Follows Settled .free p) : Balanced (s.spawn p) :=
  Threads.Conforming.spawn hs hp fun _ => Inv.spawn

lemma Balanced.step (hs : Balanced s) (h : step s a = some s') : Balanced s' ∧ Steps s s' := by
  cases a with
  | acquireShared =>
    cases h
    exact ⟨hs.spawn acquireShared_conforms, .inl rfl⟩
  | acquireExclusive registered fuel =>
    cases h
    exact ⟨hs.spawn (acquireExclusive_conforms registered fuel), .inl rfl⟩
  | setHandoff =>
    cases h
    refine ⟨hs.spawn fun _ => ?_, .inl rfl⟩
    exact ⟨.free, ⟨nofun, fun w => .setFlag .free w (.inl rfl)⟩, rfl⟩
  | clearHandoff =>
    cases h
    refine ⟨hs.spawn fun _ => ?_, .inl rfl⟩
    exact ⟨.free, ⟨nofun, fun w => .clearFlag .free w (.inl rfl)⟩, rfl⟩
  | consumeReleaseNotify fuel =>
    cases h
    exact ⟨hs.spawn ((consumeReleaseNotify_conforms fuel).map fun _ _ hg => hg), .inl rfl⟩
  | setOverflowIndex overflowIdx fuel =>
    cases h
    exact ⟨hs.spawn ((setOverflowIndex_conforms overflowIdx fuel).map fun _ _ hg => hg), .inl rfl⟩
  | unlockShared i =>
    simp only [step] at h
    split at h
    · rename_i hi
      cases h
      refine ⟨Threads.Conforming.replace hs hi fun hinv hk hg => ?_, ?_⟩
      · cases hg
        exact ⟨.free, hinv.move hk (.releaseShared _), rfl⟩
      · obtain ⟨gs, g, hk, hinv, hg⟩ := hs.settled hi
        cases hg
        exact .inr ⟨gs, i, _, _, hinv, hk, .releaseShared _⟩
    · cases h
  | unlockExclusive i =>
    simp only [step] at h
    split at h
    · rename_i hi
      cases h
      refine ⟨Threads.Conforming.replace hs hi fun hinv hk hg => ?_, ?_⟩
      · cases hg
        refine ⟨.free, hinv.move hk (.releaseExclusive _ rfl), fun _ => ?_⟩
        exact ⟨.free, ⟨nofun, fun w => .setFlag .free w (.inr rfl)⟩, rfl⟩
      · obtain ⟨gs, g, hk, hinv, hg⟩ := hs.settled hi
        cases hg
        exact .inr ⟨gs, i, _, _, hinv, hk, .releaseExclusive _ rfl⟩
    · cases h
  | run i =>
    refine ⟨Threads.Conforming.runTask hs (fun hinv hk he hf => hinv.exec hk he hf) h, ?_⟩
    obtain ⟨gs, g, g', o, r, hinv, hk, he, hf⟩ := Threads.Conforming.permitted hs h
    rcases exec_move he hf with ⟨hw, -⟩ | hmove
    · exact .inl hw
    · exact .inr ⟨gs, i, g, g', hinv, hk, hmove⟩

instance (o : Op) : Nonempty o.Res := by
  cases o
  case load => exact ⟨0#64⟩
  case compareExchangeWeak => exact ⟨none⟩
  all_goals exact ⟨()⟩

/-- A thread is in the phase of a shared holder exactly when its call has returned the latch. -/
lemma shared_iff_holdsShared (h : Conforms Follows Settled g p) :
    g = .shared ↔ holdsShared p = true := by
  cases p with
  | ret held =>
    obtain rfl : g = held.phase := h
    cases held <;> simp [holdsShared, Held.phase]
  | call o =>
    obtain ⟨r⟩ := (inferInstance : Nonempty o.Res)
    obtain ⟨g', ⟨hne, -⟩, -⟩ := h r
    simpa [holdsShared] using hne

lemma drained_of_holdsExclusive (h : Conforms Follows Settled g p)
    (hp : holdsExclusive p = true) : g = .drained := by
  cases p with
  | ret held =>
    obtain rfl : g = held.phase := h
    cases held <;> simp_all [holdsExclusive, Held.phase]
  | call => cases hp

lemma countP_holdsShared {ps : List (Code Held)}
    (h : List.Forall₂ (Conforms Follows Settled) gs ps) :
    gs.countP (· = .shared) = ps.countP holdsShared := by
  induction h with
  | nil => rfl
  | cons hp _ ih =>
    simp only [countP_cons, decide_eq_true_eq, shared_iff_holdsShared hp, ih]

/-- A drained owner has no other owner and no shared holder beside it. -/
lemma Inv.only {i j : Nat} (h : Inv w gs)
    (hi : gs[i]? = some .drained) (hj : gs[j]? = some g) (hne : j ≠ i) :
    g.owns = false ∧ g ≠ .shared := by
  constructor
  · have hset := Threads.countP_set_add Phase.owns .free hi
    have hle : (exclusive w).toNat ≤ 1 := Bool.toNat_le _
    rw [h.owner] at hset
    change _ + 1 = _ + 0 at hset
    have hzero : (gs.set i .free).countP Phase.owns = 0 := by omega
    have hmem : g ∈ gs.set i .free := mem_of_getElem? (by rw [getElem?_set_ne hne.symm]; exact hj)
    simpa using countP_eq_zero.1 hzero g hmem
  · rintro rfl
    have hzero := h.alone (mem_of_getElem? hi)
    exact h.shared_ne_zero hj (by rw [hzero]; rfl)

lemma Balanced.alone (hs : Balanced s) {i j : Nat} {q : Code Held}
    (hi : s.tasks[i]? = some p) (hp : holdsExclusive p = true) (hne : j ≠ i)
    (hj : s.tasks[j]? = some q) : holdsExclusive q = false ∧ holdsShared q = false := by
  obtain ⟨gs, hgs, hinv⟩ := hs
  obtain ⟨hi', rfl⟩ := List.getElem?_eq_some_iff.1 hi
  obtain ⟨hj', rfl⟩ := List.getElem?_eq_some_iff.1 hj
  have hlt : i < gs.length := by rwa [hgs.length_eq]
  have hlt' : j < gs.length := by rwa [hgs.length_eq]
  have hdrained := drained_of_holdsExclusive (hgs.get hlt hi') hp
  obtain ⟨howns, hshared⟩ := hinv.only
    (by rw [getElem?_eq_getElem hlt]; exact congrArg some hdrained)
    (getElem?_eq_getElem hlt') hne
  constructor
  · by_contra hq
    have hother := drained_of_holdsExclusive (hgs.get hlt' hj') (by simpa using hq)
    exact absurd howns (by rw [show gs[j] = .drained from hother]; decide)
  · by_contra hq
    exact hshared ((shared_iff_holdsShared (hgs.get hlt' hj')).2 (by simpa using hq))

lemma Balanced.counter (hs : Balanced s) :
    numLatchedShared s.shared = s.tasks.countP holdsShared := by
  obtain ⟨gs, hgs, hinv⟩ := hs
  rw [numLatchedShared_eq, hinv.counter, countP_holdsShared hgs]

lemma Balanced.exclusion (hs : Balanced s) : Exclusion s where
  alone _ _ hi hp _ _ hne hj := hs.alone hi hp hne hj
  counter := hs.counter
  noCarry a s' h hne := by
    rcases (hs.step h).2 with heq | ⟨gs, k, g, g', hinv, hk, hmove⟩
    · rw [heq]
    · exact hinv.noCarry hk hmove hne
  link a s' h hne := by
    rcases (hs.step h).2 with heq | ⟨gs, k, g, g', hinv, hk, hmove⟩
    · rw [heq]
    · refine (overflowIndex_eq_iff _ _).2 (hinv.link_eq hk hmove fun hzero => hne ?_)
      exact (overflowIndex_eq_iff s.shared 0#64).2 hzero

lemma balanced_start (overflowIdx : Word) : Balanced (start overflowIdx) := by
  refine ⟨[], .nil, ⟨?_, ?_, by simp⟩⟩
  · rw [start, shared_and, show shared addressMask = 0#13 from by decide, BitVec.and_zero]
    rfl
  · rw [start, exclusive_and, show exclusive addressMask = false from by decide, Bool.and_false]
    rfl

/-- In every interleaving of any number of threads the latch word keeps its guarantees. -/
theorem exclusion_of_reachable {overflowIdx : Word}
    (h : Machine.Reachable step (start overflowIdx) s) : Exclusion s :=
  (h.invariant (I := Balanced) (balanced_start overflowIdx) fun hi _ hs => (hi.step hs).1).exclusion

end Runs

/-- A reader leaves while a writer drains; the writer then holds the latch. -/
theorem exclusion_after_drain : ∃ s, Exclusion s ∧ s.tasks.countP holdsExclusive = 1 := by
  obtain ⟨s, hs, hcount⟩ := Machine.exists_reachable_of_run step (start 5#64)
    [.acquireShared, .run 0 false, .run 0 false, .acquireExclusive false 3, .run 1 false,
      .run 1 false, .run 1 false, .run 1 false, .unlockShared 0, .run 1 false]
    (fun s => s.tasks.countP holdsExclusive) 1 (by decide +kernel)
  exact ⟨s, exclusion_of_reachable hs, hcount⟩

end Wedb.Latch
