import Wedb.Checkpoint.Window

/-!
# Every surviving write has one effect

The invariant ties the three tests of recovery together: a stamp of the old version belongs to a
record below the cut tail, a stamp of the open window to a flagged record at or above the floor, a
stamp of the closed window to a record at or above the cut tail. Writers keep it as long as no one
of them is between its tail move and its read of the word when the word changes.
-/

namespace Wedb.Checkpoint

open Nat Phase Option Function

variable {n : Nat} {r : Round} {s s' : State n} {t : Fin n} {k : Task} {a : Nat} {w : Word}

namespace Task

/-- The address at which a writer still has to encode or publish its record. -/
def pin : Task → Option Nat
  | .reserved addr | .stamped addr _ | .encoded addr _ => some addr
  | _ => none

/-- The address at which a writer has not encoded its record yet. -/
def blank : Task → Option Nat
  | .reserved addr | .stamped addr _ => some addr
  | _ => none

/-- The address of a writer that has not read the version word yet. -/
def unread : Task → Option Nat
  | .reserved addr => some addr
  | _ => none

end Task

/-- The word that writers see in a phase. -/
def Round.wordAt (r : Round) (p : Phase) : Word :=
  if closed ≤ p then ⟨false, r.newVersion⟩
  else if opened ≤ p then ⟨true, r.newVersion⟩
  else ⟨false, r.oldVersion⟩

/-- Which record a version word may be stamped on. -/
inductive Stamp (r : Round) (p : Phase) (c : Snapshot) (a : Nat) : Word → Prop
  | old (h : cut ≤ p → a < c.cutTail) : Stamp r p c a ⟨false, r.oldVersion⟩
  | window (hp : opened ≤ p) (h : c.floor ≤ a) : Stamp r p c a ⟨true, r.newVersion⟩
  | next (hp : closed ≤ p) (h : c.cutTail ≤ a) : Stamp r p c a ⟨false, r.newVersion⟩

/-- A record in the log with its stamp; once the log is flushed it is on the device. -/
structure Written (r : Round) (s : State n) (a : Nat) (w : Word) : Prop where
  lt_tail : a < s.tail
  stamp : Stamp r s.phase s.toSnapshot a w
  record : s.records a = some w.isOpen
  onDisk : flushed ≤ s.phase → a < s.cutTail → s.disk a = some w.isOpen

/-- A record that the index leads to; below the floor the index snapshot does so, too. -/
structure InIndex (s : State n) (a : Nat) : Prop where
  reachable : a ∈ s.reachable
  snapshot : indexed ≤ s.phase → a < s.floor → a ∈ s.index

def TaskOk (r : Round) (s : State n) : Task → Prop
  | .idle => True
  | .reserved a => a < s.tail ∧ s.records a = none ∧ (opened ≤ s.phase → s.floor ≤ a) ∧
      (closed ≤ s.phase → s.cutTail ≤ a)
  | .stamped a w => a < s.tail ∧ s.records a = none ∧ Stamp r s.phase s.toSnapshot a w
  | .encoded a w => Written r s a w
  | .published a w => Written r s a w ∧ InIndex s a

/-- An entry of the AOF at position `p`. -/
def EntryOk (r : Round) (s : State n) (p : Nat) (e : AofEntry) : Prop :=
  ∃ w, e.storeVersion = w.version ∧ Written r s e.record w ∧ InIndex s e.record ∧
    (p < s.coveredAddr → w.version = r.oldVersion)

/-- The border that the drained epochs have passed. -/
def Snapshot.drainedTo (c : Snapshot) (p : Phase) : Nat :=
  if sealed ≤ p then c.cutTail else if Phase.drained ≤ p then c.floor else 0

/-- The border whose fence the checkpoint waits for. -/
def Snapshot.fenceAt (c : Snapshot) : Phase → Option Nat
  | .fencing => some c.floor
  | .sealing => some c.cutTail
  | _ => none

structure Inv (r : Round) (s : State n) : Prop where
  word : s.word = r.wordAt s.phase
  floor_le : loaded ≤ s.phase → s.floor ≤ s.tail
  cutTail_le : cut ≤ s.phase → s.floor ≤ s.cutTail ∧ s.cutTail ≤ s.tail
  fresh : ∀ a, s.tail ≤ a → s.records a = none
  disk : ∀ a f, s.disk a = some f → s.records a = some f
  covered_le : s.coveredAddr ≤ s.aof.length
  tasks : ∀ t, TaskOk r s (s.task t)
  disjoint : ∀ t t' a, (s.task t).blank = some a → (s.task t').blank = some a → t = t'
  entries : ∀ p e, s.aof[p]? = some e → EntryOk r s p e
  fences : ∀ p ∈ s.epochs.deferred, p.2 ≤ s.tail
  waiting : ∀ v ∈ s.fenceAt s.phase, ∃ e, (e, v) ∈ s.epochs.deferred
  guarded : Epoch.Guarded id s.epochs (s.drainedTo s.phase) (Task.pin ∘ s.task)

/-- The conditions on a step: a writer moves the tail inside an epoch, and when the word changes no
writer has moved the tail below the floor, or below the cut tail, without having read it. -/
def careful (s : State n) : Action n → Bool
  | .moveTail t _ => (s.epochs.announced t).isSome
  | .openWindow => ∀ t, ∀ a ∈ (s.task t).unread, s.floor ≤ a
  | .closeWindow => ∀ t, ∀ a ∈ (s.task t).unread, s.cutTail ≤ a
  | _ => true

/-! ## Steps of the writers -/

/-- A writer's step leaves the checkpoint alone and only adds to the log and to the index. -/
structure Grows (s s' : State n) : Prop where
  phase_eq : s'.phase = s.phase
  snapshot_eq : s'.toSnapshot = s.toSnapshot
  tail_le : s.tail ≤ s'.tail
  records : ∀ {a f}, s.records a = some f → s'.records a = some f
  reachable : s.reachable ⊆ s'.reachable

lemma Written.grow (h : Written r s a w) (hg : Grows s s') : Written r s' a w where
  lt_tail := h.lt_tail.trans_le hg.tail_le
  stamp := by
    rw [hg.phase_eq, hg.snapshot_eq]
    exact h.stamp
  record := hg.records h.record
  onDisk := by
    rw [hg.phase_eq, hg.snapshot_eq]
    exact h.onDisk

lemma InIndex.grow (h : InIndex s a) (hg : Grows s s') : InIndex s' a where
  reachable := hg.reachable h.reachable
  snapshot := by
    rw [hg.phase_eq, hg.snapshot_eq]
    exact h.snapshot

lemma TaskOk.grow (h : TaskOk r s k) (hg : Grows s s')
    (hb : ∀ a, k.blank = some a → s'.records a = none) : TaskOk r s' k := by
  cases k with
  | idle => trivial
  | reserved a =>
    obtain ⟨htail, -, hopen, hclosed⟩ := h
    refine ⟨htail.trans_le hg.tail_le, hb a rfl, ?_, ?_⟩ <;> rw [hg.phase_eq, hg.snapshot_eq]
    · exact hopen
    · exact hclosed
  | stamped a =>
    obtain ⟨htail, -, hstamp⟩ := h
    refine ⟨htail.trans_le hg.tail_le, hb a rfl, ?_⟩
    rw [hg.phase_eq, hg.snapshot_eq]
    exact hstamp
  | encoded => exact .grow h hg
  | published => exact ⟨h.1.grow hg, h.2.grow hg⟩

lemma EntryOk.grow {p : Nat} {e : AofEntry} (h : EntryOk r s p e) (hg : Grows s s') :
    EntryOk r s' p e := by
  obtain ⟨w, hv, hw, hi, hc⟩ := h
  refine ⟨w, hv, hw.grow hg, hi.grow hg, ?_⟩
  rw [hg.snapshot_eq]
  exact hc

section

variable (h : Inv r s)
include h

/-- Thread `t` goes on with `k`, whatever it added to the log, the index or the AOF. -/
lemma Inv.write (hg : Grows s s') (hword : s'.word = s.word)
    (hepochs : s'.epochs = s.epochs) (htask : s'.task = update s.task t k)
    (hfresh : ∀ a, s'.tail ≤ a → s'.records a = none)
    (hsub : ∀ a f, s.disk a = some f → s'.records a = some f)
    (hlength : s.aof.length ≤ s'.aof.length) (hk : TaskOk r s' k)
    (hblank : ∀ t' ≠ t, ∀ a, (s.task t').blank = some a → s'.records a = none)
    (hown : ∀ a, k.blank = some a → (s.task t).blank = some a ∨ a = s.tail)
    (hentries : ∀ p e, s'.aof[p]? = some e → EntryOk r s' p e)
    (hpin : ∀ x, k.pin = some x → (∃ y ≤ x, (s.task t).pin = some y) ∨
      (x = s.tail ∧ (s.epochs.announced t).isSome)) : Inv r s' := by
  have htail : ∀ t' a, (s.task t').blank = some a → a < s.tail := by
    intro t' a ha
    have ht := h.tasks t'
    cases hk : s.task t' <;> rw [hk] at ha ht <;> cases ha
    · exact ht.1
    · exact ht.1
  have hsafe : s.drainedTo s.phase ≤ s.tail := by
    rw [Snapshot.drainedTo]
    split_ifs with h₁ h₂
    · exact (h.cutTail_le (le_trans (by decide) h₁)).2
    · exact h.floor_le (le_trans (by decide) h₂)
    · exact zero_le _
  refine ⟨?_, ?_, ?_, hfresh, ?_, ?_, ?_, ?_, hentries, ?_, ?_, ?_⟩
  · rw [hword, hg.phase_eq]
    exact h.word
  · rw [hg.phase_eq, hg.snapshot_eq]
    exact fun hp => (h.floor_le hp).trans hg.tail_le
  · rw [hg.phase_eq, hg.snapshot_eq]
    exact fun hp => ⟨(h.cutTail_le hp).1, (h.cutTail_le hp).2.trans hg.tail_le⟩
  · rw [hg.snapshot_eq]
    exact hsub
  · rw [hg.snapshot_eq]
    exact h.covered_le.trans hlength
  · intro t'
    rw [htask]
    by_cases ht : t' = t
    · rw [ht, update_self]
      exact hk
    · rw [update_of_ne ht]
      exact (h.tasks t').grow hg (hblank t' ht)
  · -- a new blank address is the old tail, above every address in use
    have hold : ∀ t' a, (s'.task t').blank = some a → (s.task t').blank = some a ∨ t' = t ∧ a = s.tail := by
      intro t' a ha
      rw [htask] at ha
      by_cases ht : t' = t
      · subst ht
        rw [update_self] at ha
        exact (hown a ha).imp_right fun ha => ⟨rfl, ha⟩
      · rw [update_of_ne ht] at ha
        exact .inl ha
    intro t₁ t₂ a h₁ h₂
    rcases hold t₁ a h₁ with h₁ | ⟨h₁, ha⟩ <;> rcases hold t₂ a h₂ with h₂ | ⟨h₂, ha⟩
    · exact h.disjoint t₁ t₂ a h₁ h₂
    · exact absurd ha (htail t₁ a h₁).ne
    · exact absurd ha (htail t₂ a h₂).ne
    · exact h₁.trans h₂.symm
  · rw [hepochs]
    exact fun p hp => (h.fences p hp).trans hg.tail_le
  · rw [hepochs, hg.phase_eq, hg.snapshot_eq]
    exact h.waiting
  · rw [hepochs, hg.phase_eq, hg.snapshot_eq, htask]
    apply h.guarded.update
    intro x hx
    rcases hpin x hx with hx | ⟨rfl, ha⟩
    · exact .inl hx
    · exact .inr ⟨hsafe, ha, h.fences⟩

lemma Inv.entries_grow (hg : Grows s s') (haof : s'.aof = s.aof) :
    ∀ p e, s'.aof[p]? = some e → EntryOk r s' p e := by
  intro p e he
  rw [haof] at he
  exact (h.entries p e he).grow hg

lemma Inv.blank_eq_none (ha : (s.task t).blank = some a) : s.records a = none := by
  have ht := h.tasks t
  cases hk : s.task t <;> rw [hk] at ha ht <;> cases ha
  · exact ht.2.1
  · exact ht.2.1

lemma Inv.moveTail {size : Nat} (hsize : 0 < size)
    (hinside : (s.epochs.announced t).isSome) : Inv r (s.moveTail t size) := by
  have hg : Grows s (s.moveTail t size) := ⟨rfl, rfl, le_add_right _ _, id, List.Subset.refl _⟩
  have hk : TaskOk r (s.moveTail t size) (.reserved s.tail) := by
    refine ⟨Nat.lt_add_of_pos_right hsize, h.fresh _ le_rfl, fun hp => ?_, fun hp => ?_⟩
    · exact h.floor_le (le_trans (by decide) hp)
    · exact (h.cutTail_le (le_trans (by decide) hp)).2
  apply h.write hg rfl rfl rfl _ h.disk le_rfl hk
  · exact fun t' _ a ha => h.blank_eq_none ha
  · exact fun a ha => .inr (some.inj ha).symm
  · exact h.entries_grow hg rfl
  · exact fun x hx => .inr ⟨(some.inj hx).symm, hinside⟩
  · exact fun a ha => h.fresh a ((le_add_right _ _).trans ha)

/-- The word that a writer reads fits its address, since the word did not change without it. -/
lemma Inv.stamp (ht : s.task t = .reserved a) : Stamp r s.phase s.toSnapshot a s.word := by
  have hk := h.tasks t
  rw [ht] at hk
  obtain ⟨-, -, hopen, hclosed⟩ := hk
  rw [h.word, Round.wordAt]
  split_ifs with h₁ h₂
  · exact .next h₁ (hclosed h₁)
  · exact .window h₂ (hopen h₂)
  · exact .old fun hp => absurd (le_trans (by decide) hp) h₂

lemma Inv.readWord (ht : s.task t = .reserved a) : Inv r (s.become t (.stamped a s.word)) := by
  have hg : Grows s (s.become t (.stamped a s.word)) := ⟨rfl, rfl, le_rfl, id, List.Subset.refl _⟩
  have hk := h.tasks t
  rw [ht] at hk
  apply h.write hg rfl rfl rfl h.fresh h.disk le_rfl ⟨hk.1, hk.2.1, h.stamp ht⟩
  · exact fun t' _ a ha => h.blank_eq_none ha
  · exact fun x hx => .inl (ht ▸ hx)
  · exact h.entries_grow hg rfl
  · exact fun x hx => .inl ⟨x, le_rfl, ht ▸ hx⟩

lemma Inv.encode (ht : s.task t = .stamped a w) : Inv r (s.encode t a w) := by
  have hk := h.tasks t
  rw [ht] at hk
  obtain ⟨htail, hnone, hstamp⟩ := hk
  have hself : (s.encode t a w).records a = some w.isOpen := update_self ..
  have hother : ∀ x, x ≠ a → (s.encode t a w).records x = s.records x :=
    fun x hx => update_of_ne hx ..
  have hrec : ∀ {x f}, s.records x = some f → (s.encode t a w).records x = some f := by
    intro x f hx
    rw [hother x (by rintro rfl; rw [hnone] at hx; cases hx)]
    exact hx
  have hg : Grows s (s.encode t a w) := ⟨rfl, rfl, le_rfl, hrec, List.Subset.refl _⟩
  have hk : TaskOk r (s.encode t a w) (.encoded a w) := by
    refine ⟨htail, hstamp, hself, fun hp hlt => ?_⟩
    -- the flush came after the drain, which waited for this writer
    have hsafe := h.guarded.safe_le (by rw [comp_apply, ht]; rfl)
    have hsealed : sealed ≤ s.phase := le_trans (by decide) hp
    rw [Snapshot.drainedTo, if_pos hsealed] at hsafe
    exact absurd hlt (not_lt_of_ge hsafe)
  apply h.write hg rfl rfl rfl _ (fun x f hx => hrec (h.disk x f hx)) le_rfl hk
  · intro t' hne x hx
    rw [hother x]
    · exact h.blank_eq_none hx
    · rintro rfl
      exact hne (h.disjoint t' t x hx (by rw [ht]; rfl))
  · exact nofun
  · exact h.entries_grow hg rfl
  · exact fun x hx => .inl ⟨x, le_rfl, ht ▸ hx⟩
  · intro x hx
    rw [hother x (by rintro rfl; exact absurd htail (not_lt_of_ge hx))]
    exact h.fresh x hx

lemma Inv.publish (ht : s.task t = .encoded a w) : Inv r (s.publish t a w) := by
  have hg : Grows s (s.publish t a w) := ⟨rfl, rfl, le_rfl, id, List.subset_cons_self _ _⟩
  have hk := h.tasks t
  rw [ht] at hk
  have hi : InIndex (s.publish t a w) a := by
    refine ⟨List.mem_cons_self, fun hp hlt => ?_⟩
    -- the snapshot came after the first drain
    have hsafe := h.guarded.safe_le (by rw [comp_apply, ht]; rfl)
    have hfloor : s.floor ≤ s.drainedTo s.phase := by
      rw [Snapshot.drainedTo]
      split_ifs with h₁ h₂
      · exact (h.cutTail_le (le_trans (by decide) h₁)).1
      · exact le_rfl
      · exact absurd (le_trans (by decide) hp) h₂
    exact absurd hlt (not_lt_of_ge (hfloor.trans hsafe))
  apply h.write hg rfl rfl rfl h.fresh h.disk le_rfl ⟨.grow hk hg, hi⟩
  · exact fun t' _ a ha => h.blank_eq_none ha
  · exact nofun
  · exact h.entries_grow hg rfl
  · exact nofun

lemma Inv.enqueue (ht : s.task t = .published a w) : Inv r (s.enqueue t a w) := by
  have hg : Grows s (s.enqueue t a w) := ⟨rfl, rfl, le_rfl, id, List.Subset.refl _⟩
  have hk := h.tasks t
  rw [ht] at hk
  apply h.write hg rfl rfl rfl h.fresh h.disk _ trivial
  · exact fun t' _ a ha => h.blank_eq_none ha
  · exact nofun
  · intro p e he
    change (s.aof ++ [AofEntry.mk w.version a])[p]? = some e at he
    rw [List.getElem?_append] at he
    split_ifs at he with hp
    · exact (h.entries p e he).grow hg
    · obtain ⟨-, rfl⟩ := getElem?_eq_some_iff.mp he
      rw [List.getElem_singleton]
      exact ⟨w, rfl, hk.1.grow hg, hk.2.grow hg, fun hlt => absurd (hlt.trans_le h.covered_le) hp⟩
  · exact nofun
  · show s.aof.length ≤ (s.aof ++ [_]).length
    rw [List.length_append]
    exact le_add_right _ _

end

/-! ## Steps of the checkpoint -/

/-- A checkpoint's step goes on from phase `p` to `q`; what it captured before stays, and what it
captures now it reads off the store. -/
structure Advances (p q : Phase) (s s' : State n) : Prop where
  phase_eq : s.phase = p
  phase_eq' : s'.phase = q
  phase_le : p ≤ q
  tail_eq : s'.tail = s.tail
  records_eq : s'.records = s.records
  reachable_eq : s'.reachable = s.reachable
  floor_eq : loaded ≤ p → s'.floor = s.floor
  cutTail_eq : cut ≤ q → cut ≤ p ∧ s'.cutTail = s.cutTail ∨ ¬ cut ≤ p ∧ s'.cutTail = s.tail
  index_eq : indexed ≤ q → indexed ≤ p ∧ s'.index = s.index ∨ s'.index = s.reachable
  disk_eq : flushed ≤ q → flushed ≤ p ∧ s'.disk = s.disk ∨ s'.disk = s.records

variable {p q : Phase}

lemma Advances.cutTail_kept (h : Advances p q s s') (hp : cut ≤ p) : s'.cutTail = s.cutTail := by
  rcases h.cutTail_eq (hp.trans h.phase_le) with ⟨-, h⟩ | ⟨hn, -⟩
  · exact h
  · exact absurd hp hn

lemma Stamp.advance (h : Stamp r s.phase s.toSnapshot a w) (hlt : a < s.tail)
    (ha : Advances p q s s') : Stamp r s'.phase s'.toSnapshot a w := by
  rw [ha.phase_eq] at h
  rw [ha.phase_eq']
  cases h with
  | old h =>
    refine .old fun hp => ?_
    rcases ha.cutTail_eq hp with ⟨hp, heq⟩ | ⟨-, heq⟩
    · rw [heq]
      exact h hp
    · rw [heq]
      exact hlt
  | window hp h =>
    refine .window (hp.trans ha.phase_le) ?_
    rw [ha.floor_eq (le_trans (by decide) hp)]
    exact h
  | next hp h =>
    refine .next (hp.trans ha.phase_le) ?_
    rw [ha.cutTail_kept (le_trans (by decide) hp)]
    exact h

lemma Written.advance (h : Written r s a w) (ha : Advances p q s s') : Written r s' a w where
  lt_tail := ha.tail_eq ▸ h.lt_tail
  stamp := h.stamp.advance h.lt_tail ha
  record := ha.records_eq ▸ h.record
  onDisk := by
    intro hq hlt
    rw [ha.phase_eq'] at hq
    rcases ha.disk_eq hq with ⟨hp, heq⟩ | heq
    · rw [ha.cutTail_kept (le_trans (by decide) hp)] at hlt
      rw [heq]
      exact h.onDisk (ha.phase_eq ▸ hp) hlt
    · rw [heq]
      exact h.record

lemma InIndex.advance (h : InIndex s a) (ha : Advances p q s s') : InIndex s' a where
  reachable := ha.reachable_eq ▸ h.reachable
  snapshot := by
    intro hq hlt
    rw [ha.phase_eq'] at hq
    rcases ha.index_eq hq with ⟨hp, heq⟩ | heq
    · rw [ha.floor_eq (le_trans (by decide) hp)] at hlt
      rw [heq]
      exact h.snapshot (ha.phase_eq ▸ hp) hlt
    · rw [heq]
      exact h.reachable

lemma TaskOk.advance (h : TaskOk r s k) (ha : Advances p q s s')
    (hopen : opened ≤ q → ∀ a ∈ k.unread, s'.floor ≤ a)
    (hclosed : closed ≤ q → ∀ a ∈ k.unread, s'.cutTail ≤ a) : TaskOk r s' k := by
  cases k with
  | idle => trivial
  | reserved a =>
    refine ⟨ha.tail_eq ▸ h.1, ha.records_eq ▸ h.2.1, ?_, ?_⟩ <;> rw [ha.phase_eq']
    · exact fun hq => hopen hq a rfl
    · exact fun hq => hclosed hq a rfl
  | stamped => exact ⟨ha.tail_eq ▸ h.1, ha.records_eq ▸ h.2.1, h.2.2.advance h.1 ha⟩
  | encoded => exact .advance h ha
  | published => exact ⟨h.1.advance ha, h.2.advance ha⟩

/-- Before the window opens every stamp is old. -/
lemma Stamp.version_eq (h : Stamp r s.phase s.toSnapshot a w) (hn : ¬ opened ≤ s.phase) :
    w.version = r.oldVersion := by
  cases h with
  | old => rfl
  | window hp => exact absurd hp hn
  | next hp => exact absurd (le_trans (by decide) hp) hn

lemma Inv.advance (h : Inv r s) (ha : Advances p q s s') (htask : s'.task = s.task)
    (haof : s'.aof = s.aof) (hword : s'.word = r.wordAt q)
    (hfloor : loaded ≤ q → loaded ≤ p ∨ s'.floor = s.tail)
    (hdisk : s'.disk = s.disk ∨ s'.disk = s.records)
    (hcovered : s'.coveredAddr = s.coveredAddr ∨ s'.coveredAddr = s.aof.length ∧ ¬ opened ≤ p)
    (hopen : opened ≤ q → ∀ t, ∀ a ∈ (s.task t).unread, s'.floor ≤ a)
    (hclosed : closed ≤ q → ∀ t, ∀ a ∈ (s.task t).unread, s'.cutTail ≤ a)
    (hfences : ∀ o ∈ s'.epochs.deferred, o.2 ≤ s.tail)
    (hwaiting : ∀ v ∈ s'.fenceAt q, ∃ e, (e, v) ∈ s'.epochs.deferred)
    (hguarded : Epoch.Guarded id s'.epochs (s'.drainedTo q) (Task.pin ∘ s.task)) : Inv r s' := by
  obtain rfl := ha.phase_eq
  obtain rfl := ha.phase_eq'
  have hfloor_le : loaded ≤ s'.phase → s'.floor ≤ s.tail := by
    intro hp
    rcases hfloor hp with hp | heq
    · rw [ha.floor_eq hp]
      exact h.floor_le hp
    · exact heq.le
  refine ⟨hword, ?_, ?_, ?_, ?_, ?_, ?_, ?_, ?_, ?_, hwaiting, ?_⟩
  · rw [ha.tail_eq]
    exact hfloor_le
  · intro hp
    rw [ha.tail_eq]
    rcases ha.cutTail_eq hp with ⟨hp, heq⟩ | ⟨-, heq⟩
    · rw [heq, ha.floor_eq (le_trans (by decide) hp)]
      exact h.cutTail_le hp
    · rw [heq]
      exact ⟨hfloor_le (le_trans (by decide) hp), le_rfl⟩
  · rw [ha.tail_eq, ha.records_eq]
    exact h.fresh
  · intro a f hf
    rw [ha.records_eq]
    rcases hdisk with heq | heq
    · exact h.disk a f (heq ▸ hf)
    · exact heq ▸ hf
  · rw [haof]
    rcases hcovered with heq | ⟨heq, -⟩
    · exact heq ▸ h.covered_le
    · exact heq.le
  · rw [htask]
    exact fun t => (h.tasks t).advance ha (fun hq => hopen hq t) (fun hq => hclosed hq t)
  · rw [htask]
    exact h.disjoint
  · intro i e he
    rw [haof] at he
    obtain ⟨w, hv, hw, hi, hc⟩ := h.entries i e he
    refine ⟨w, hv, hw.advance ha, hi.advance ha, fun hlt => ?_⟩
    rcases hcovered with heq | ⟨-, hn⟩
    · exact hc (heq ▸ hlt)
    · exact hw.stamp.version_eq hn
  · rw [ha.tail_eq]
    exact hfences
  · rw [htask]
    exact hguarded

lemma Inv.floor_le_unread (h : Inv r s) (hp : opened ≤ s.phase) :
    ∀ t, ∀ a ∈ (s.task t).unread, s.floor ≤ a := by
  intro t a ha
  have ht := h.tasks t
  cases hk : s.task t <;> rw [hk] at ha ht <;> cases ha
  exact ht.2.2.1 hp

lemma Inv.cutTail_le_unread (h : Inv r s) (hp : closed ≤ s.phase) :
    ∀ t, ∀ a ∈ (s.task t).unread, s.cutTail ≤ a := by
  intro t a ha
  have ht := h.tasks t
  cases hk : s.task t <;> rw [hk] at ha ht <;> cases ha
  exact ht.2.2.2 hp

lemma Inv.at_phase (h : Inv r s) (hp : s.phase = p) :
    s.word = r.wordAt p ∧ Epoch.Guarded id s.epochs (s.drainedTo p) (Task.pin ∘ s.task) :=
  hp ▸ ⟨h.word, h.guarded⟩

/-- The phases in which the checkpoint captures something of the log or of the index. -/
def capturing : List Phase := [.loaded, .indexed, .cut, .flushed]

variable {epochs : Epoch.Table n Nat}

section

variable (h : Inv r s)
include h

/-- A step that captures nothing. -/
lemma Inv.pass {word : Word} {aofBegin : Nat}
    (hp : s.phase = p) (hle : p ≤ q) (hcap : ∀ o ∈ capturing, o ≤ q → o ≤ p)
    (hword : word = r.wordAt q)
    (hopen : opened ≤ q → ∀ t, ∀ a ∈ (s.task t).unread, s.floor ≤ a)
    (hclosed : closed ≤ q → ∀ t, ∀ a ∈ (s.task t).unread, s.cutTail ≤ a)
    (hfences : ∀ o ∈ epochs.deferred, o.2 ≤ s.tail)
    (hwaiting : ∀ v ∈ s.fenceAt q, ∃ e, (e, v) ∈ epochs.deferred)
    (hguarded : Epoch.Guarded id epochs (s.drainedTo q) (Task.pin ∘ s.task)) :
    Inv r { s with word, aofBegin, epochs, phase := q } := by
  have ha : Advances p q s { s with word, aofBegin, epochs, phase := q } :=
    ⟨hp, rfl, hle, rfl, rfl, rfl, fun _ => rfl, fun hq => .inl ⟨hcap _ (by decide) hq, rfl⟩,
      fun hq => .inl ⟨hcap _ (by decide) hq, rfl⟩, fun hq => .inl ⟨hcap _ (by decide) hq, rfl⟩⟩
  exact h.advance ha rfl rfl hword (fun hq => .inl (hcap _ (by decide) hq)) (.inl rfl) (.inl rfl)
    hopen hclosed hfences hwaiting hguarded

/-- Somebody enters or leaves, or the epoch advances. -/
lemma Inv.epoch (hdeferred : epochs.deferred = s.epochs.deferred)
    (hguarded : Epoch.Guarded id epochs (s.drainedTo s.phase) (Task.pin ∘ s.task)) :
    Inv r { s with epochs } :=
  h.pass rfl le_rfl (fun _ _ => id) h.word h.floor_le_unread h.cutTail_le_unread
    (hdeferred ▸ h.fences) (hdeferred ▸ h.waiting) hguarded

/-- A step that captures nothing and leaves the word alone. -/
lemma Inv.proceed {aofBegin : Nat} (hp : s.phase = p)
    (hq : opened ≤ p ∧ p ≤ q ∧ ∀ o ∈ closed :: capturing, o ≤ q → o ≤ p)
    (hword : r.wordAt p = r.wordAt q)
    (hfences : ∀ o ∈ epochs.deferred, o.2 ≤ s.tail)
    (hwaiting : ∀ v ∈ s.fenceAt q, ∃ e, (e, v) ∈ epochs.deferred)
    (hguarded : Epoch.Guarded id epochs (s.drainedTo q) (Task.pin ∘ s.task)) :
    Inv r { s with aofBegin, epochs, phase := q } := by
  subst hp
  obtain ⟨hopen, hle, hcap⟩ := hq
  exact h.pass rfl hle (fun o ho => hcap o (.tail _ ho)) (h.word.trans hword)
    (fun _ => h.floor_le_unread hopen) (fun hq => h.cutTail_le_unread (hcap _ (.head _) hq))
    hfences hwaiting hguarded

lemma Inv.sampleCovered (hp : s.phase = .rest) :
    Inv r { s with coveredAddr := s.aof.length, phase := .sampled } := by
  obtain ⟨hw, hg⟩ := h.at_phase hp
  have ha : Advances .rest .sampled s { s with coveredAddr := s.aof.length, phase := .sampled } :=
    ⟨hp, rfl, by decide, rfl, rfl, rfl, fun _ => rfl, (absurd · (by decide)),
      (absurd · (by decide)), (absurd · (by decide))⟩
  exact h.advance ha rfl rfl hw (absurd · (by decide)) (.inl rfl)
    (.inr ⟨rfl, by decide⟩) (absurd · (by decide)) (absurd · (by decide)) h.fences nofun hg

lemma Inv.loadFloor (hp : s.phase = .sampled) :
    Inv r { s with floor := s.tail, phase := .loaded } := by
  obtain ⟨hw, hg⟩ := h.at_phase hp
  have ha : Advances .sampled .loaded s { s with floor := s.tail, phase := .loaded } :=
    ⟨hp, rfl, by decide, rfl, rfl, rfl, (absurd · (by decide)), (absurd · (by decide)),
      (absurd · (by decide)), (absurd · (by decide))⟩
  exact h.advance ha rfl rfl hw (fun _ => .inr rfl) (.inl rfl) (.inl rfl)
    (absurd · (by decide)) (absurd · (by decide)) h.fences nofun hg

lemma Inv.writeIndex (hp : s.phase = .drained) :
    Inv r { s with index := s.reachable, phase := .indexed } := by
  obtain ⟨hw, hg⟩ := h.at_phase hp
  have ha : Advances .drained .indexed s { s with index := s.reachable, phase := .indexed } :=
    ⟨hp, rfl, by decide, rfl, rfl, rfl, fun _ => rfl, (absurd · (by decide)), fun _ => .inr rfl,
      (absurd · (by decide))⟩
  exact h.advance ha rfl rfl hw (fun _ => .inl (by decide)) (.inl rfl) (.inl rfl)
    (fun _ => h.floor_le_unread (by rw [hp]; decide)) (absurd · (by decide)) h.fences nofun hg

lemma Inv.cutTail (hp : s.phase = .indexed) :
    Inv r { s with cutTail := s.tail, phase := .cut } := by
  obtain ⟨hw, hg⟩ := h.at_phase hp
  have ha : Advances .indexed .cut s { s with cutTail := s.tail, phase := .cut } :=
    ⟨hp, rfl, by decide, rfl, rfl, rfl, fun _ => rfl, fun _ => .inr ⟨by decide, rfl⟩,
      fun _ => .inl ⟨by decide, rfl⟩, (absurd · (by decide))⟩
  exact h.advance ha rfl rfl hw (fun _ => .inl (by decide)) (.inl rfl) (.inl rfl)
    (fun _ => h.floor_le_unread (by rw [hp]; decide)) (absurd · (by decide)) h.fences nofun hg

lemma Inv.flushAll (hp : s.phase = .sealed) :
    Inv r { s with disk := s.records, phase := .flushed } := by
  obtain ⟨hw, hg⟩ := h.at_phase hp
  have ha : Advances .sealed .flushed s { s with disk := s.records, phase := .flushed } :=
    ⟨hp, rfl, by decide, rfl, rfl, rfl, fun _ => rfl, fun _ => .inl ⟨by decide, rfl⟩,
      fun _ => .inl ⟨by decide, rfl⟩, fun _ => .inr rfl⟩
  exact h.advance ha rfl rfl hw (fun _ => .inl (by decide)) (.inr rfl) (.inl rfl)
    (fun _ => h.floor_le_unread (by rw [hp]; decide)) (absurd · (by decide)) h.fences nofun hg

/-- A fence at an address below the tail. -/
lemma Inv.fences_fence (ha : a ≤ s.tail) : ∀ o ∈ (s.epochs.fence a).deferred, o.2 ≤ s.tail := by
  intro o ho
  rcases Epoch.Table.mem_of_mem_fence ho with ho | rfl
  · exact h.fences o ho
  · exact ha

lemma Inv.fence (hp : s.phase = .opened) :
    Inv r { s with epochs := s.epochs.fence s.floor, phase := .fencing } := by
  obtain ⟨-, hg⟩ := h.at_phase hp
  have hfloor := h.floor_le (by rw [hp]; decide)
  refine h.proceed hp (by decide) rfl (h.fences_fence hfloor) ?_ (hg.fence _)
  rintro _ ⟨rfl⟩
  exact ⟨_, Epoch.Table.mem_fence⟩

lemma Inv.fenceTail (hp : s.phase = .cut) :
    Inv r { s with epochs := s.epochs.fence s.cutTail, phase := .sealing } := by
  obtain ⟨-, hg⟩ := h.at_phase hp
  have hcut := (h.cutTail_le (by rw [hp])).2
  refine h.proceed hp (by decide) rfl (h.fences_fence hcut) ?_ (hg.fence _)
  rintro _ ⟨rfl⟩
  exact ⟨_, Epoch.Table.mem_fence⟩

/-- Every fence has been passed by all that were inside, so the border is safe. -/
lemma Inv.drained {v safe : Nat} (hp : s.phase = p) (hv : s.fenceAt p = some v)
    (hready : ∀ o ∈ s.epochs.deferred, s.epochs.Ready o.1) (hsafe : safe ≤ v) :
    Epoch.Guarded id (s.epochs.drop 0) safe (Task.pin ∘ s.task) := by
  subst hp
  obtain ⟨e, he⟩ := h.waiting v hv
  exact h.guarded.drained he (hready _ he) (hsafe.trans (le_max_right _ _))

lemma Inv.awaitDrain (hp : s.phase = .fencing)
    (hready : ∀ o ∈ s.epochs.deferred, s.epochs.Ready o.1) :
    Inv r { s with epochs := s.epochs.drop 0, phase := .drained } :=
  h.proceed hp (by decide) rfl (fun o ho => h.fences o (Epoch.Table.mem_of_mem_drop ho)) nofun
    (h.drained hp rfl hready le_rfl)

lemma Inv.awaitSealed (hp : s.phase = .sealing)
    (hready : ∀ o ∈ s.epochs.deferred, s.epochs.Ready o.1) :
    Inv r { s with epochs := s.epochs.drop 0, phase := .sealed } :=
  h.proceed hp (by decide) rfl (fun o ho => h.fences o (Epoch.Table.mem_of_mem_drop ho)) nofun
    (h.drained hp rfl hready le_rfl)

end

/-! ## Every careful run -/

lemma Inv.new (r : Round) (tail : Nat) : Inv r (State.new (n := n) r tail) where
  word := rfl
  floor_le := fun _ => zero_le _
  cutTail_le := fun _ => ⟨le_rfl, zero_le _⟩
  fresh := fun _ _ => rfl
  disk := nofun
  covered_le := le_rfl
  tasks := fun _ => trivial
  disjoint := nofun
  entries := nofun
  fences := nofun
  waiting := nofun
  guarded := ⟨nofun, nofun⟩

lemma Inv.step {a : Action n} (h : Inv r s) (hs : Checkpoint.step r s a = some s')
    (ha : careful s a) : Inv r s' := by
  cases a
  case enter =>
    obtain ⟨⟨ht, -⟩, ⟨⟩⟩ := ite_none_right_eq_some.mp hs
    exact h.epoch rfl (h.guarded.enter (by rw [comp_apply, ht]; rfl))
  case exit =>
    obtain ⟨ht, ⟨⟩⟩ := ite_none_right_eq_some.mp hs
    exact h.epoch rfl (h.guarded.exit (by rw [comp_apply, ht]; rfl))
  case bump =>
    cases hs
    exact h.epoch rfl h.guarded.bump
  case moveTail =>
    obtain ⟨⟨-, hsize⟩, ⟨⟩⟩ := ite_none_right_eq_some.mp hs
    exact h.moveTail hsize ha
  case readWord t =>
    cases ht : s.task t <;> simp only [Checkpoint.step, ht] at hs <;> cases hs
    exact h.readWord ht
  case encode t =>
    cases ht : s.task t <;> simp only [Checkpoint.step, ht] at hs <;> cases hs
    exact h.encode ht
  case publish t =>
    cases ht : s.task t <;> simp only [Checkpoint.step, ht] at hs <;> cases hs
    exact h.publish ht
  case enqueue t =>
    cases ht : s.task t <;> simp only [Checkpoint.step, ht] at hs <;> cases hs
    exact h.enqueue ht
  case awaitDrain =>
    obtain ⟨⟨hp, hready⟩, ⟨⟩⟩ := ite_none_right_eq_some.mp hs
    exact h.awaitDrain hp hready
  case awaitSealed =>
    obtain ⟨⟨hp, hready⟩, ⟨⟩⟩ := ite_none_right_eq_some.mp hs
    exact h.awaitSealed hp hready
  -- the other steps of the checkpoint only wait for their phase
  all_goals
    obtain ⟨hp, ⟨⟩⟩ := ite_none_right_eq_some.mp hs
    obtain ⟨hw, hg⟩ := h.at_phase hp
  case sampleCovered => exact h.sampleCovered hp
  case loadFloor => exact h.loadFloor hp
  case openWindow =>
    exact h.pass hp (by decide) (by decide) rfl (fun _ => of_decide_eq_true ha)
      (absurd · (by decide)) h.fences nofun hg
  case fence => exact h.fence hp
  case writeIndex => exact h.writeIndex hp
  case cutTail => exact h.cutTail hp
  case fenceTail => exact h.fenceTail hp
  case flushAll => exact h.flushAll hp
  case closeWindow =>
    exact h.pass hp (by decide) (by decide) (by rw [hw]; rfl)
      (fun _ => h.floor_le_unread (by rw [hp]; decide)) (fun _ => of_decide_eq_true ha) h.fences
      nofun hg
  case publishMeta | publishCovered | truncateAof =>
    exact h.proceed hp (by decide) rfl h.fences nofun hg

/-- A record with an old stamp is kept: the index snapshot leads to it or the scan puts it back. -/
lemma Written.kept (hw : Written r s a w) (hi : InIndex s a) (hp : Phase.published ≤ s.phase)
    (hflag : w.isOpen = false) (hcut : a < s.cutTail) : Kept s.toSnapshot a := by
  have hdisk := hw.onDisk (le_trans (by decide) hp) hcut
  rw [hflag] at hdisk
  refine ⟨hcut, ?_⟩
  split_ifs with hfloor
  · exact hdisk
  · exact ⟨hi.snapshot (le_trans (by decide) hp) (lt_of_not_ge hfloor), by rw [hdisk]; rfl⟩

/-- A flagged record at or above the floor is undone. -/
lemma Written.not_kept (hw : Written r s a w) (h : Inv r s) (hflag : w.isOpen = true)
    (hfloor : s.floor ≤ a) : ¬ Kept s.toSnapshot a := by
  rintro ⟨-, hkept⟩
  rw [if_pos hfloor] at hkept
  have hrecord := h.disk a false hkept
  rw [hw.record, hflag] at hrecord
  cases hrecord

/-- An entry of the new version lies behind the covered address. -/
lemma Inv.aofFloor_le {i : Nat} (hversion : w.version = r.newVersion)
    (hcovered : i < s.coveredAddr → w.version = r.oldVersion) : s.aofFloor ≤ i := by
  have hlt := r.lt
  rw [State.aofFloor]
  split_ifs
  · apply Nat.le_of_not_lt
    intro hi
    omega
  · exact zero_le _

lemma Inv.exactlyOnce (h : Inv r s) : ExactlyOnce r s := by
  intro hp i e _ he
  obtain ⟨w, hversion, hw, hi, hcovered⟩ := h.entries i e he
  rw [Replayed, hversion]
  cases hstamp : hw.stamp with
  | old hcut =>
    have hkept := hw.kept hi hp rfl (hcut (le_trans (by decide) hp))
    exact iff_of_true hkept fun hr => absurd hr.2 (not_le_of_gt r.lt)
  | window _ hfloor =>
    have hr : s.aofFloor ≤ i := aofFloor_le rfl hcovered
    exact iff_of_false (hw.not_kept h rfl hfloor) (not_not_intro ⟨hr, le_rfl⟩)
  | next _ hcut =>
    have hr : s.aofFloor ≤ i := aofFloor_le rfl hcovered
    exact iff_of_false (fun hk => absurd hk.1 (not_lt_of_ge hcut)) (not_not_intro ⟨hr, le_rfl⟩)

/-- In every run whose steps are all careful, a crash finds every surviving write exactly once. -/
theorem exactlyOnce_of_careful (r : Round) (tail : Nat) {s : State n}
    (h : Machine.Reaches (step r) (fun s a => careful s a) (State.new r tail) s) :
    ExactlyOnce r s := by
  have hinv : Inv r s := h.invariant (.new r tail) fun hs ha hstep => hs.step hstep ha
  exact hinv.exactlyOnce

/-! ## A write across the opening of the window -/

/-- The first checkpoint of a store. -/
def firstRound : Round := ⟨0, 1, Nat.one_pos⟩

/-- The checkpoint from the drain to the truncation of the AOF. -/
def finishCheckpoint : List (Action 1) :=
  [.fence, .awaitDrain, .writeIndex, .cutTail, .fenceTail, .awaitSealed, .flushAll, .publishMeta,
    .closeWindow, .publishCovered, .truncateAof]

/-- A writer moves the tail, the checkpoint loads the new tail as floor and opens the window, and
only then the writer reads the word. -/
def acrossOpening : List (Action 1) :=
  [.enter 0, .moveTail 0 24, .sampleCovered, .loadFloor, .openWindow, .readWord 0, .encode 0,
    .publish 0, .enqueue 0, .exit 0] ++ finishCheckpoint

/-- The same writer reads the word before it opens. -/
def beforeOpening : List (Action 1) :=
  [.enter 0, .moveTail 0 24, .sampleCovered, .loadFloor, .readWord 0, .openWindow, .encode 0,
    .publish 0, .enqueue 0, .exit 0] ++ finishCheckpoint

/-- The first surviving AOF entry, whether its record is kept and whether it is replayed. -/
def firstWrite (s : State 1) : Bool × Option (Nat × Bool × Bool) :=
  (Phase.published ≤ s.phase ∧ s.aofBegin = 0,
    s.aof[0]?.map fun e => (e.record, Kept s.toSnapshot e.record, Replayed firstRound s 0 e))

/-- The record lies below the floor, so its flag does not undo it, and the entry has the new
version: the write is kept and replayed. -/
theorem exists_kept_and_replayed :
    ¬ ∀ s : State 1, Machine.Reachable (step firstRound) (State.new firstRound 0) s →
      ExactlyOnce firstRound s := by
  intro h
  obtain ⟨s, hs, hwrite⟩ := Machine.exists_reachable_of_run (step firstRound)
    (.new firstRound 0) acrossOpening firstWrite (true, some (0, true, true))
    (by decide +kernel)
  simp only [firstWrite, Prod.mk.injEq, decide_eq_true_eq, map_eq_some_iff] at hwrite
  obtain ⟨⟨hp, hbegin⟩, e, he, -, hkept, hreplayed⟩ := hwrite
  exact (h s hs hp 0 e hbegin.le he).mp hkept hreplayed

/-- The theorem on the run in which the writer reads the word in time: its record is kept and its
entry is skipped. -/
theorem exactlyOnce_beforeOpening :
    ∃ s : State 1, Machine.Reaches (step firstRound) (fun s a => careful s a)
        (State.new firstRound 0) s ∧ firstWrite s = (true, some (0, true, false)) ∧
      ExactlyOnce firstRound s := by
  obtain ⟨s, hs, hwrite⟩ := Machine.exists_reaches_of_run (step firstRound)
    (fun s a => careful s a) (.new firstRound 0) beforeOpening firstWrite
    (true, some (0, true, false)) (by decide +kernel)
  exact ⟨s, hs, hwrite, exactlyOnce_of_careful firstRound 0 hs⟩

end Wedb.Checkpoint
