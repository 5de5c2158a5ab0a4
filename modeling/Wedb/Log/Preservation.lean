import Wedb.Log.Invariant

/-!
# The steps of the log keep the invariant
-/

namespace Wedb.Log

open Config Function

variable {n : Nat} {c : Config} {ev ev' : Nat} {s s' : State n} {t t' : Fin n} {k : Task}
  {size tail v : Nat}

/-! ## Pins -/

/-- A thread may pin an address at or above the head. -/
lemma Inv.readers_become (h : Inv c ev s) (k : Task) (hk : ∀ x, k.readPin = some x →
      (∃ y ≤ x, (s.task t).readPin = some y) ∨ s.Inside t ∧ s.head ≤ x) :
    Epoch.Guarded Border.headValue s.epochs ev (Task.readPin ∘ update s.task t k) := by
  apply h.readers.update
  intro x hx
  rcases hk x hx with hp | ⟨hi, hle⟩
  · exact .inl hp
  · refine .inr ⟨h.ev_le.trans hle, hi, fun p hp => ?_⟩
    exact ((h.borders p hp).value_le h.toCore).2.trans hle

/-- A thread may reserve an address at or above the read-only border. -/
lemma Inv.writers_become (h : Inv c ev s) (k : Task) (hk : ∀ x, k.writePin = some x →
      (∃ y ≤ x, (s.task t).writePin = some y) ∨ s.Inside t ∧ s.readOnly ≤ x) :
    Epoch.Guarded Border.value s.epochs s.safeReadOnly (Task.writePin ∘ update s.task t k) := by
  apply h.writers.update
  intro x hx
  rcases hk x hx with hp | ⟨hi, hle⟩
  · exact .inl hp
  · refine .inr ⟨h.ordered.safeReadOnly_le.trans hle, hi, fun p hp => ?_⟩
    exact ((h.borders p hp).value_le h.toCore).1.trans hle

lemma Core.head_le_tail (h : Core c ev s) : s.head ≤ s.tail :=
  have ho := h.ordered
  ho.head_le.trans (ho.flushed_le.trans (ho.safeReadOnly_le.trans ho.readOnly_le))

/-! ## Steps that no other thread notices -/

lemma Keeps.of_frames_eq (hev : ev ≤ ev') (htail : s'.tail = s.tail)
    (hro : s.readOnly ≤ s'.readOnly) (hsro : s.safeReadOnly ≤ s'.safeReadOnly)
    (hhead : s.head ≤ s'.head) (hbegin : s.begin ≤ s'.begin) (hf : s'.frames = s.frames) :
    Keeps c ev ev' s s' :=
  ⟨hev, htail.ge, hro, hsro, hhead, hbegin, hf ▸ KeepsPages.refl, .inl htail⟩

/-- Borders and frames stay as they are. -/
lemma Keeps.of_same (ha : s'.toAddressSnapshot = s.toAddressSnapshot) (hf : s'.frames = s.frames) :
    Keeps c ev ev s s' := by
  refine .of_frames_eq le_rfl ?_ ?_ ?_ ?_ ?_ hf <;> rw [ha]

lemma Core.same (h : Core c ev s) (ha : s'.toAddressSnapshot = s.toAddressSnapshot)
    (hf : s'.frames = s.frames) (hc : s'.completed = s.completed) (hr : s'.reserved = s.reserved)
    (hd : s'.epochs.deferred = s.epochs.deferred) : Core c ev s' :=
  ⟨ha ▸ h.ordered, ha ▸ h.safeHead_le_ev, ha ▸ h.ev_le, hd ▸ ha ▸ h.borders, hf ▸ ha ▸ h.frames,
    hf ▸ ha ▸ h.tailPage, hc ▸ ha ▸ h.completed, hr ▸ ha ▸ h.reserved, hr ▸ h.disjoint⟩

lemma Spares.of_eq (hi : s.Inside t → s'.Inside t) (hg : s'.gate = s.gate)
    (hl : s'.turnLock = s.turnLock) (hf : s'.frames = s.frames) : Spares s s' t :=
  ⟨hi, fun h => hg.trans h, fun h => ⟨hl.trans h, fun _ hk => hf ▸ hk⟩⟩

/-- Only frames change, and the pages above `ev` keep theirs. -/
lemma Keeps.of_pages (ha : s'.toAddressSnapshot = s.toAddressSnapshot)
    (hp : KeepsPages c ev s.frames s'.frames) : Keeps c ev ev s s' := by
  refine ⟨le_rfl, ?_, ?_, ?_, ?_, ?_, hp, .inl ?_⟩ <;> rw [ha]

lemma Core.withFrames {f : Frames} (h : Core c ev s) (hf : FramesOk c ev s.tail f)
    (hp : KeepsPages c ev s.frames f) : Core c ev { s with frames := f } :=
  { h with
    frames := hf
    tailPage := h.tailPage.imp_left
      fun hl => hp _ hl (h.ev_le_tail.trans_lt lt_pageStart_pageId_succ) }

/-- A thread without the page-turn lock has no frame to keep blank. -/
lemma Spares.of_lock_ne (hi : s.Inside t → s'.Inside t) (hg : s'.gate = s.gate)
    (hl : s.turnLock ≠ some t) : Spares s s' t :=
  ⟨hi, fun h => hg.trans h, fun h => absurd h hl⟩

lemma State.lock_ne {t' : Fin n} (hlock : s.turnLock = some t) (ht' : t' ≠ t) :
    s.turnLock ≠ some t' := by
  rw [hlock]
  exact fun h => ht' (Option.some.inj h).symm

variable {b : Border}

section

variable (h : Inv c ev s)
include h

/-- A step that is nobody's: all threads keep what they know. -/
lemma Inv.passive {e : Nat} (hcore : Core c e s') (hk : Keeps c ev e s s')
    (hs : ∀ t, Spares s s' t) (htask : s'.task = s.task)
    (hr : Epoch.Guarded Border.headValue s'.epochs e (Task.readPin ∘ s'.task))
    (hw : Epoch.Guarded Border.value s'.epochs s'.safeReadOnly (Task.writePin ∘ s'.task)) :
    Inv c e s' where
  toCore := hcore
  readers := hr
  writers := hw
  tasks := by
    intro t
    rw [htask]
    exact (h.tasks t).keep h.ev_le_tail (fun x hx => h.readers.safe_le hx) hk (hs t)

/-- One step of thread `t` that leaves the epochs and goes on with a task that pins nothing. -/
lemma Inv.next_unpinned (hcore : Core c ev s') (hk : Keeps c ev ev s s')
    (hs : ∀ t' ≠ t, Spares s s' t') (htask : s'.task = update s.task t k)
    (he : s'.epochs = s.epochs) (hsr : s'.safeReadOnly = s.safeReadOnly)
    (hok : TaskOk c ev s' t k) (hr : k.readPin = none) (hw : k.writePin = none) :
    Inv c ev s' := by
  apply h.next hcore hk hs htask hok
  · rw [he, htask]
    exact h.readers_become k fun x hx => by rw [hr] at hx; cases hx
  · rw [he, hsr, htask]
    exact h.writers_become k fun x hx => by rw [hw] at hx; cases hx

lemma Inv.become (hok : TaskOk c ev (s.become t k) t k) (hr : ∀ x, k.readPin = some x →
      (∃ y ≤ x, (s.task t).readPin = some y) ∨ s.Inside t ∧ s.head ≤ x)
    (hw : ∀ x, k.writePin = some x →
      (∃ y ≤ x, (s.task t).writePin = some y) ∨ s.Inside t ∧ s.readOnly ≤ x) :
    Inv c ev (s.become t k) := by
  apply h.next
  · exact h.toCore.same rfl rfl rfl rfl rfl
  · exact .of_same rfl rfl
  · exact fun t' _ => .of_eq id rfl rfl rfl
  · rfl
  · exact hok
  · exact h.readers_become k hr
  · exact h.writers_become k hw

/-- Going on with a task that pins nothing. -/
lemma Inv.become_unpinned (hok : TaskOk c ev (s.become t k) t k)
    (hr : k.readPin = none) (hw : k.writePin = none) : Inv c ev (s.become t k) :=
  h.become hok (fun x hx => by rw [hr] at hx; cases hx) (fun x hx => by rw [hw] at hx; cases hx)

lemma Inv.become_idle : Inv c ev (s.become t .idle) := h.become_unpinned trivial rfl rfl

lemma Inv.moveReadOnly (hv : v ≤ s.tail) : Inv c ev { s with readOnly := max s.readOnly v } := by
  have hk : Keeps c ev ev s { s with readOnly := max s.readOnly v } :=
    .of_frames_eq le_rfl rfl (le_max_left _ _) le_rfl le_rfl le_rfl rfl
  apply h.passive _ hk (fun t => .of_eq id rfl rfl rfl) rfl h.readers h.writers
  have ho := h.ordered
  exact { h.toCore with
    ordered := { ho with
      safeReadOnly_le := ho.safeReadOnly_le.trans (le_max_left _ _)
      readOnly_le := Nat.max_le.mpr ⟨ho.readOnly_le, hv⟩ }
    borders := fun p hp => hk.below (h.borders p hp) }

lemma Inv.moveHead (hv : v ≤ s.flushedUntil) : Inv c ev (s.moveHead v) := by
  have hk : Keeps c ev ev s (s.moveHead v) :=
    .of_frames_eq le_rfl rfl (le_max_left _ _) le_rfl (le_max_left _ _) le_rfl rfl
  apply h.passive _ hk (fun t => .of_eq id rfl rfl rfl) rfl h.readers h.writers
  obtain ⟨h₁, h₂, h₃, h₄, h₅, h₆⟩ := h.ordered
  exact { h.toCore with
    ordered := {
      begin_le := h₁.trans (le_max_left _ _)
      safeHead_le := h₂.trans (le_max_left _ _)
      head_le := Nat.max_le.mpr ⟨h₃, hv⟩
      flushed_le := h₄
      safeReadOnly_le := h₅.trans (le_max_left _ _)
      readOnly_le := Nat.max_le.mpr ⟨h₆, by show v ≤ s.tail; omega⟩ }
    ev_le := h.ev_le.trans (le_max_left _ _)
    borders := fun p hp => hk.below (h.borders p hp) }

lemma Inv.register (hb : b.Below s.toAddressSnapshot)
    (hr : (s.task t).readPin = none) (hw : (s.task t).writePin = none) :
    Inv c ev (s.register t b) := by
  apply h.passive
  · refine { h.toCore with borders := fun p hp => ?_ }
    rcases Epoch.Table.mem_register hp with hp | rfl
    · exact h.borders p hp
    · exact hb
  · exact .of_same rfl rfl
  · intro t'
    refine .of_eq (fun hi => ?_) rfl rfl rfl
    show ((s.epochs.register t b).announced t').isSome
    rw [Epoch.Table.announced_isSome_register]
    exact hi
  · rfl
  · exact h.readers.register hr b
  · exact h.writers.register hw b

lemma Inv.bump : Inv c ev { s with epochs := s.epochs.bump } := by
  apply h.passive
  · exact h.toCore.same rfl rfl rfl rfl rfl
  · exact .of_same rfl rfl
  · exact fun t => .of_eq id rfl rfl rfl
  · rfl
  · exact h.readers.bump
  · exact h.writers.bump

lemma Inv.enter (ht : s.task t = .idle) : Inv c ev { s with epochs := s.epochs.enter t } := by
  apply h.passive
  · exact h.toCore.same rfl rfl rfl rfl rfl
  · exact .of_same rfl rfl
  · intro t'
    refine .of_eq (fun hi => ?_) rfl rfl rfl
    show (update s.epochs.announced t _ t').isSome
    by_cases he : t' = t
    · rw [he, update_self]
      rfl
    · rw [update_of_ne he]
      exact hi
  · rfl
  · exact h.readers.enter (by rw [comp_apply, ht]; rfl)
  · exact h.writers.enter (by rw [comp_apply, ht]; rfl)

lemma Inv.exit (ht : s.task t = .idle) : Inv c ev { s with epochs := s.epochs.exit t } := by
  apply h.next (k := .idle)
  · exact h.toCore.same rfl rfl rfl rfl rfl
  · exact .of_same rfl rfl
  · intro t' ht'
    refine .of_eq (fun hi => ?_) rfl rfl rfl
    show (update s.epochs.announced t _ t').isSome
    rw [update_of_ne ht']
    exact hi
  · rw [← ht, update_eq_self]
  · trivial
  · exact h.readers.exit (by rw [comp_apply, ht]; rfl)
  · exact h.writers.exit (by rw [comp_apply, ht]; rfl)

/-- A deferred action moves a safe border; a safe head moves `ev` along. -/
lemma Inv.drain {i e : Nat} (hm : (e, b) ∈ s.epochs.deferred)
    (hready : s.epochs.Ready e) :
    Inv c (max ev b.headValue) { s.apply b with epochs := s.epochs.drop i } := by
  obtain ⟨h₁, h₂, h₃, h₄, h₅, h₆⟩ := h.ordered
  have hev := h.ev_le
  have hsh := h.safeHead_le_ev
  have hframes := h.frames.mono (le_max_left ev b.headValue) (le_refl s.tail)
  have hbelow := h.borders _ hm
  have hr := h.readers.drained (i := i) hm hready (le_refl (max ev b.headValue))
  have hw := h.writers.drained (i := i) hm hready (le_refl (max s.safeReadOnly b.value))
  have hborders : ∀ p ∈ (s.epochs.drop i).deferred, p.2.Below s.toAddressSnapshot :=
    fun p hp => h.borders p (Epoch.Table.mem_of_mem_drop hp)
  have hcompleted : ∀ r ∈ s.completed, r.untilAddress ≤ max s.safeReadOnly b.value :=
    fun r hr => (h.completed r hr).trans (le_max_left _ _)
  cases b with
  | safeReadOnly u =>
    have hu : u ≤ s.readOnly := hbelow
    refine h.passive ?_ ?_ (fun t => .of_eq id rfl rfl rfl) rfl hr hw
    · exact ⟨⟨h₁, h₂, h₃, h₄.trans (le_max_left _ _), Nat.max_le.mpr ⟨h₅, hu⟩, h₆⟩,
        hsh.trans (le_max_left _ _), Nat.max_le.mpr ⟨hev, Nat.zero_le _⟩, hborders, hframes,
        h.tailPage, hcompleted, h.reserved, h.disjoint⟩
    · exact .of_frames_eq (le_max_left _ _) rfl le_rfl (le_max_left _ _) le_rfl le_rfl rfl
  | safeHead u =>
    have hu : u ≤ s.head := hbelow
    refine h.passive ?_ ?_ (fun t => .of_eq id rfl rfl rfl) rfl hr hw
    · exact ⟨⟨h₁, Nat.max_le.mpr ⟨h₂, hu⟩, h₃, h₄.trans (le_max_left _ _),
          Nat.max_le.mpr ⟨h₅, by show u ≤ s.readOnly; omega⟩, h₆⟩,
        Nat.max_le.mpr ⟨hsh.trans (le_max_left _ _), le_max_right _ _⟩,
        Nat.max_le.mpr ⟨hev, hu⟩, hborders, hframes, h.tailPage, hcompleted, h.reserved,
        h.disjoint⟩
    · exact .of_frames_eq (le_max_left _ _) rfl le_rfl (le_max_left _ _) le_rfl le_rfl rfl

end

/-! ## Appending -/

lemma State.become_become (s : State n) (t : Fin n) (k k' : Task) :
    (s.become t k).become t k' = s.become t k' := by
  simp only [become, update_idem]

lemma State.become_pushHead (s : State n) (t : Fin n) (k : Task) (m : Nat) :
    (s.become t k).pushHead t m = (s.pushHead t m).become t k := by
  show (if m ≤ s.flushedUntil ∧ s.head < m then _ else _) = _
  rw [pushHead]
  split_ifs <;> rfl

lemma State.become_pushEpoch (s : State n) (t : Fin n) (k : Task) (m : Nat) :
    (s.become t k).pushEpoch m = (s.pushEpoch m).become t k := by
  show (if s.safeHead < m ∧ s.epochs.deferred ≠ [] then _ else _) = _
  rw [pushEpoch]
  split_ifs <;> rfl

lemma State.become_ensurePageReady (s : State n) (t : Fin n) (k : Task) (p : Nat) :
    (s.become t k).ensurePageReady c t p =
      ((s.ensurePageReady c t p).1.become t k, (s.ensurePageReady c t p).2) := by
  simp only [ensurePageReady, become_pushHead, become_pushEpoch]
  split_ifs <;> rfl

/-- `ensure_page_ready` touches only the head, the read-only border and the epochs, and no thread
leaves its epoch by it. -/
lemma State.ensurePageReady_eq (s : State n) (t : Fin n) (p : Nat) :
    ∃ ro hd ep, (s.ensurePageReady c t p).1 = { s with readOnly := ro, head := hd, epochs := ep } ∧
      ∀ t', (ep.announced t').isSome = (s.epochs.announced t').isSome := by
  simp only [ensurePageReady, pushHead, pushEpoch]
  split_ifs <;> refine ⟨_, _, _, rfl, fun _ => ?_⟩
  any_goals rfl
  · exact Epoch.Table.announced_isSome_register (a := .safeHead (minEvictedAddr c p))
  · exact Epoch.Table.announced_isSome_register

section

variable (h : Inv c ev s)
include h

lemma Inv.pushHead {m : Nat} (ht : s.task t = .idle) : Inv c ev (s.pushHead t m) := by
  rw [State.pushHead]
  split_ifs with hm
  · apply (h.moveHead hm.1).register
    · exact le_max_right _ _
    all_goals
      rw [State.moveHead, ht]
      rfl
  · exact h

lemma Inv.pushEpoch {m : Nat} : Inv c ev (s.pushEpoch m) := by
  rw [State.pushEpoch]
  split_ifs
  · exact h.bump
  · exact h

lemma Inv.ensurePageReady {p : Nat} (ht : s.task t = .idle) :
    Inv c ev (s.ensurePageReady c t p).1 ∧
      ((s.ensurePageReady c t p).2 = true → Reusable c ev p) := by
  by_cases hp : p < c.numPages
  · rw [State.ensurePageReady, if_pos hp]
    exact ⟨h, fun _ hle => absurd hle (not_le_of_gt hp)⟩
  · rw [State.ensurePageReady, if_neg hp]
    have hnext := (h.pushHead ht (m := State.minEvictedAddr c p)).pushEpoch
      (m := State.minEvictedAddr c p)
    refine ⟨hnext, fun hready _ => ?_⟩
    simp only [Bool.and_eq_true, decide_eq_true_eq] at hready
    exact hready.1.2.trans hnext.safeHead_le_ev

/-- A thread makes a page ready between two tasks; if it succeeds the frame may be reused. -/
lemma Inv.ensured (t : Fin n) (p : Nat) :
    ∃ ro hd ep ready,
      s.ensurePageReady c t p = ({ s with readOnly := ro, head := hd, epochs := ep }, ready) ∧
      Inv c ev ({ s with readOnly := ro, head := hd, epochs := ep }.become t .idle) ∧
      (ready = true → Reusable c ev p) ∧
      ∀ t', (ep.announced t').isSome = (s.epochs.announced t').isSome := by
  obtain ⟨hs, hre⟩ := (h.become_idle).ensurePageReady (update_self _ _ _)
  obtain ⟨ro, hd, ep, heq, hin⟩ := s.ensurePageReady_eq t p
  rw [State.become_ensurePageReady, heq] at hs
  rw [State.become_ensurePageReady] at hre
  exact ⟨ro, hd, ep, _, Prod.ext heq rfl, hs, hre, hin⟩

lemma Inv.load (hz : SizeOk c size) (hi : s.Inside t) :
    Inv c ev (s.become t (.loaded size s.tail)) := by
  apply h.become
  · exact ⟨hz, hi, le_rfl, h.tailPage.imp id fun ho => ⟨rfl, ho⟩⟩
  · intro x hx
    cases hx
    exact .inr ⟨hi, h.head_le_tail⟩
  · intro x hx
    cases hx

lemma Inv.probe (ht : s.task t = .loaded size tail) : Inv c ev (s.probe c t size tail) := by
  obtain ⟨hz, hi, hle, hp⟩ := h.task ht
  have hpin : ∀ x, some tail = some x → (∃ y ≤ x, (s.task t).readPin = some y) ∨
      s.Inside t ∧ s.head ≤ x := fun x hx => .inl ⟨x, le_rfl, by rw [ht]; exact hx⟩
  rw [State.probe]
  split_ifs with hl hf
  · exact h.become ⟨hz, hi, hle, hl, hf⟩ hpin fun x hx => by cases hx
  · obtain ⟨ro, hd, ep, ready, heq, hs₁, hre, hin⟩ := h.ensured t (c.pageId tail + 1)
    rw [heq]
    cases ready with
    | false => exact hs₁
    | true =>
      have hnext := hs₁.become_unpinned (k := .preclear size tail)
        ⟨hz, (hin t).trans hi, hle, Nat.lt_of_not_le hf, hre rfl⟩ rfl rfl
      rw [State.become_become] at hnext
      exact hnext
  · exact h.become ⟨hz, hi, hle, hp⟩ hpin fun x hx => by cases hx

lemma Inv.lockPage (ht : s.task t = .awaitPage size tail)
    (hlock : s.turnLock = none) : Inv c ev (s.lockPage c t size tail) := by
  obtain ⟨hz, hi, hle, hp⟩ := h.task ht
  rw [State.lockPage]
  split_ifs with hl
  · exact h.become_unpinned ⟨hz, hi⟩ rfl rfl
  · -- the page of a pinned tail has lost no frame, so the tail is still at its start
    obtain ⟨rfl, hoff⟩ := hp.resolve_left hl
    obtain ⟨ro, hd, ep, ready, heq, hs₁, hre, hin⟩ := h.ensured t (c.pageId s.tail)
    rw [heq]
    cases ready with
    | false => exact hs₁
    | true =>
      refine hs₁.next_unpinned (t := t) (k := .clearing size s.tail) ?_ ?_ ?_ ?_ rfl rfl ?_ rfl rfl
      · exact { hs₁.toCore with frames := hs₁.frames.invalidate _, tailPage := .inr hoff }
      · exact .of_pages rfl (KeepsFrames.invalidate hs₁.frames (hre rfl)
          (hs₁.ev_le_tail.trans_lt lt_pageStart_pageId_succ) hl).pages
      · exact fun t' _ => .of_lock_ne id rfl (by rw [hlock]; nofun)
      · simp only [State.become, update_idem]
      · refine ⟨hz, (hin t).trans hi, rfl, rfl, hoff, fun q hq => ?_, hre rfl⟩
        have hq : (s.frames.invalidate c (c.pageId s.tail) _).label = .page q := hq
        rw [Frames.label_invalidate, if_pos rfl] at hq
        cases hq

lemma Inv.clearPage (ht : s.task t = .clearing size tail) :
    Inv c ev (s.clearPage c t size tail) := by
  obtain ⟨hz, hi, hlock, rfl, hoff, hbl, hre⟩ := h.task ht
  refine h.next_unpinned ?_ ?_ ?_ rfl rfl rfl ⟨hz, hi⟩ rfl rfl
  · refine { h.toCore with frames := ?_, tailPage := .inr hoff }
    show FramesOk c ev s.tail (s.frames.fillFromOffset c _ (c.pageOffset s.tail))
    rw [hoff]
    exact h.frames.fill hre
  · exact .of_pages rfl (KeepsFrames.fill hbl).pages
  · exact fun t' ht' => .of_lock_ne id rfl (State.lock_ne hlock ht')

omit h in
/-- Taking `size` bytes at `addr`, at or above the tail, from the tail. -/
lemma Core.reserve {addr : Nat} (h : Core c ev s) (hz : SizeOk c size) (ha : s.tail ≤ addr)
    (hf : c.pageOffset addr + size ≤ c.pageSize) (hp : s.frames.IsPageLoaded c (c.pageId addr)) :
    Core c ev { s with tail := addr + size, reserved := (addr, size) :: s.reserved } := by
  have hle : s.tail ≤ addr + size := ha.trans (Nat.le_add_right _ _)
  refine { h with
    ordered := { h.ordered with readOnly_le := h.ordered.readOnly_le.trans hle }
    frames := h.frames.mono le_rfl hle
    tailPage := ?_
    reserved := ?_
    disjoint := ?_ }
  · rcases add_size_cases hf with he | he
    · exact .inl (by rw [he]; exact hp)
    · exact .inr he
  · intro r hr
    rcases List.mem_cons.mp hr with rfl | hr
    · exact ⟨hz.1, hf, le_rfl⟩
    · obtain ⟨h₁, h₂, h₃⟩ := h.reserved r hr
      exact ⟨h₁, h₂, h₃.trans hle⟩
  · refine List.pairwise_cons.mpr ⟨fun q hq => ?_, h.disjoint⟩
    exact (h.reserved q hq).2.2.trans ha

lemma Inv.casTail (ht : s.task t = .fast size tail) : Inv c ev (s.casTail t size tail) := by
  obtain ⟨hz, hi, hle, hp, hf⟩ := h.task ht
  rw [State.casTail]
  split_ifs with hmask heq
  · exact h.become_idle
  · subst heq
    apply h.next
    · exact { h.toCore.reserve hz le_rfl hf hp with }
    · exact ⟨le_rfl, Nat.le_add_right _ _, le_rfl, le_rfl, le_rfl, le_rfl, .refl, .inr hp⟩
    · exact fun t' _ => .of_eq id rfl rfl rfl
    · rfl
    · exact ⟨hp, hf, le_rfl⟩
    · apply h.readers_become
      intro x hx
      exact .inl ⟨x, le_rfl, by rw [ht]; exact hx⟩
    · apply h.writers_become
      intro x hx
      cases hx
      exact .inr ⟨hi, h.ordered.readOnly_le⟩
  · exact h.become_unpinned ⟨hz, hi⟩ rfl rfl

lemma Inv.preclearNext (ht : s.task t = .preclear size tail) :
    Inv c ev (s.preclearNext c t size tail) := by
  have hok := h.task ht
  rw [State.preclearNext]
  split_ifs
  · exact h.become_unpinned hok rfl rfl
  · obtain ⟨hz, hi, hle, hf, hre⟩ := hok
    have hpages : KeepsPages c ev s.frames (s.frames.preclearPage c (c.pageId tail + 1)) :=
      (KeepsFrames.preclear hre).pages
    refine h.next_unpinned
      { h.toCore.withFrames (h.frames.preclear _) hpages with } (.of_pages rfl hpages) ?_
      rfl rfl rfl ⟨hz, hi, hle, hf, hre⟩ rfl rfl
    intro t' _
    refine ⟨id, id, fun hl => ⟨hl, fun k hk q hq => ?_⟩⟩
    rcases Frames.preclearPage_cases (f := s.frames)
      with he | ⟨-, he, -⟩
    · exact hk q (by rw [← he]; exact hq)
    · have hq : (s.frames.preclearPage c (c.pageId tail + 1) k).label = .page q := hq
      rw [he] at hq
      cases hq

lemma Inv.lockTurn (ht : s.task t = .awaitTurn size tail)
    (hlock : s.turnLock = none) : Inv c ev (s.lockTurn c t size tail) := by
  obtain ⟨hz, hi, hle, hf, hre⟩ := h.task ht
  rw [State.lockTurn]
  split_ifs with heq
  · exact h.become_unpinned ⟨hz, hi⟩ rfl rfl
  · obtain rfl := not_not.mp heq
    have hev : ev < c.pageStart (c.pageId s.tail + 1 + 1) := by
      have h₁ := lt_pageStart_pageId_succ (c := c) (x := s.tail)
      have h₂ := pageStart_succ (c := c) (p := c.pageId s.tail + 1)
      have h₃ := h.ev_le_tail
      omega
    have hpages : KeepsPages c ev s.frames (s.frames.sealPage c (c.pageId s.tail + 1)) :=
      (KeepsFrames.sealPage h.frames hre hev).pages
    refine h.next_unpinned
      { h.toCore.withFrames (h.frames.sealPage hre) hpages with } (.of_pages rfl hpages) ?_
      rfl rfl rfl ?_ rfl rfl
    · exact fun t' _ => .of_lock_ne id rfl (by rw [hlock]; nofun)
    · exact ⟨hz, hi, le_rfl, hf, rfl, fun _ => Frames.isPageLoaded_sealPage⟩

/-- Releasing the page-turn lock and going on with a task that pins nothing. -/
lemma Inv.unlock (hlock : s.turnLock = some t)
    (hok : TaskOk c ev ({ s with turnLock := none }.become t k) t k)
    (hr : k.readPin = none) (hw : k.writePin = none) :
    Inv c ev ({ s with turnLock := none }.become t k) :=
  h.next_unpinned (h.toCore.same rfl rfl rfl rfl rfl) (.of_same rfl rfl)
    (fun _ ht' => .of_lock_ne id rfl (State.lock_ne hlock ht')) rfl rfl rfl hok hr hw

lemma Inv.casTurn (ht : s.task t = .turning size tail) : Inv c ev (s.casTurn c t size tail) := by
  obtain ⟨hz, hi, hle, hf, hlock, hp⟩ := h.task ht
  simp only [State.casTurn]
  split_ifs with hmask heq
  · exact h.unlock hlock trivial rfl rfl
  · subst heq
    have hnext : s.frames.IsPageLoaded c (c.pageId s.tail + 1) := hp rfl
    have hcur : s.frames.IsPageLoaded c (c.pageId s.tail) := by
      refine h.tailPage.resolve_right fun hoff => ?_
      have := hz.2
      omega
    have hlt := lt_pageStart_pageId_succ (c := c) (x := s.tail)
    apply h.next
    · have hcore := h.toCore.reserve hz hlt.le
        (by rw [pageOffset_pageStart]; have := hz.2; omega)
        (by rw [pageId_pageStart]; exact hnext)
      exact { hcore with }
    · refine ⟨le_rfl, ?_, le_rfl, le_rfl, le_rfl, le_rfl, .refl, .inr hcur⟩
      show s.tail ≤ c.pageStart (c.pageId s.tail + 1) + size
      omega
    · exact fun t' ht' => .of_lock_ne id rfl (State.lock_ne hlock ht')
    · rfl
    · exact ⟨hz, hlock, hcur, hnext, le_rfl⟩
    · apply h.readers_become
      intro x hx
      cases hx
      exact .inr ⟨hi, h.head_le_tail⟩
    · apply h.writers_become
      intro x hx
      cases hx
      exact .inr ⟨hi, h.ordered.readOnly_le⟩
  · exact h.unlock hlock ⟨hz, hi⟩ rfl rfl

lemma Inv.writePad (ht : s.task t = .padding size tail) : Inv c ev (s.writePad c t size tail) := by
  obtain ⟨hz, hlock, hp, hp', hle⟩ := h.task ht
  have hlt := lt_pageStart_pageId_succ (c := c) (x := tail)
  have hadd := c.pageStart_pageId_add (x := tail)
  have hsucc := c.pageStart_succ (p := c.pageId tail)
  have hlabel : ∀ k, (s.frames.writePadTail c tail (c.pageSize - c.pageOffset tail) k).label =
      (s.frames k).label := fun _ => Frames.label_writePadTail
  have hpages : KeepsPages c ev s.frames
      (s.frames.writePadTail c tail (c.pageSize - c.pageOffset tail)) := .of_label hlabel
  have hpin : ∀ x, some (c.pageStart (c.pageId tail + 1)) = some x → ∃ y ≤ x, some tail = some y := by
    intro x hx
    cases hx
    exact ⟨tail, hlt.le, rfl⟩
  apply h.next
  · exact { h.toCore.withFrames (h.frames.writePadTail hp
      (by have := c.pageOffset_lt (x := tail); omega)) hpages with }
  · exact .of_pages rfl hpages
  · exact fun t' ht' => .of_lock_ne id rfl (State.lock_ne hlock ht')
  · rfl
  · refine ⟨?_, ?_, hle⟩
    · rw [pageId_pageStart]
      exact (hlabel _).trans hp'
    · rw [pageOffset_pageStart]
      have := hz.2
      omega
  · exact h.readers_become _ fun x hx => .inl (by rw [ht]; exact hpin x hx)
  · exact h.writers_become _ fun x hx => .inl (by rw [ht]; exact hpin x hx)

lemma Inv.encode {addr : Nat} {bytes : Nat → UInt8}
    (ht : s.task t = .encoding size addr) : Inv c ev (s.encode c t size addr bytes) := by
  obtain ⟨hp, hf, hle⟩ := h.task ht
  have hlabel : ∀ k, (s.frames.write c addr size bytes k).label = (s.frames k).label :=
    fun _ => Frames.label_write
  have hpages : KeepsPages c ev s.frames (s.frames.write c addr size bytes) := .of_label hlabel
  refine h.next_unpinned
    { h.toCore.withFrames (h.frames.write hp hle) hpages with } (.of_pages rfl hpages) ?_
    rfl rfl rfl trivial rfl rfl
  intro t' ht'
  refine ⟨id, id, fun hl => ⟨?_, fun k hk q hq => hk q ((hlabel k).symm.trans hq)⟩⟩
  show (if s.turnLock = some t then none else s.turnLock) = some t'
  rw [hl, if_neg (fun he => ht' (Option.some.inj he))]

end

/-! ## Borders and flush rounds -/

variable {next : Next}

section

variable (h : Inv c ev s)
include h

/-- The invariant does not speak of the device, the pending ranges and the contents. -/
lemma Inv.congr (ha : s'.toAddressSnapshot = s.toAddressSnapshot)
    (hf : s'.frames = s.frames) (hc : s'.completed = s.completed) (he : s'.epochs = s.epochs)
    (hl : s'.turnLock = s.turnLock) (hg : s'.gate = s.gate) (ht : s'.task = s.task)
    (hr : s'.reserved = s.reserved) : Inv c ev s' := by
  obtain ⟨a', f', d', p', co', e', l', g', tk', ct', r'⟩ := s'
  subst ha hf hc he hl hg ht hr
  exact h.passive { h.toCore with } (.of_same rfl rfl) (fun t => .of_eq id rfl rfl rfl) rfl
    h.readers h.writers

lemma Inv.shiftReadOnly {now : Task} (hv : v ≤ s.tail)
    (hnow : ∀ s' : State n, s'.readOnly = max s.readOnly v → TaskOk c ev s' t now)
    (hnext : ∀ s' : State n, s'.readOnly = max s.readOnly v →
      TaskOk c ev s' t (.registering (.safeReadOnly v) next))
    (hr : now.readPin = none) (hw : now.writePin = none) :
    Inv c ev (s.shiftReadOnly t v next now) := by
  have hs := h.moveReadOnly hv
  rw [State.shiftReadOnly]
  split_ifs
  · exact hs.become_unpinned (hnext _ rfl) rfl rfl
  · exact hs.become_unpinned (hnow _ rfl) hr hw

lemma Inv.shiftHead {now : Task}
    (hnow : ∀ s' : State n, s'.head = max s.head (min v s.flushedUntil) → TaskOk c ev s' t now)
    (hnext : ∀ s' : State n, s'.head = max s.head (min v s.flushedUntil) →
      TaskOk c ev s' t (.registering (.safeHead (min v s.flushedUntil)) next))
    (hr : now.readPin = none) (hw : now.writePin = none) :
    Inv c ev (s.shiftHead t v next now) := by
  have hs := h.moveHead (min_le_right v s.flushedUntil)
  simp only [State.shiftHead]
  split_ifs
  · exact hs.become_unpinned (hnext _ rfl) rfl rfl
  · exact hs.become_unpinned (hnow _ rfl) hr hw

lemma Inv.registered (ht : s.task t = .registering b next) : Inv c ev (s.registered t b next) := by
  obtain ⟨hb, hnext⟩ := h.task ht
  have hs : Inv c ev (s.register t b) := by
    apply h.register hb
    · rw [ht]
      rfl
    · rw [ht]
      rfl
  cases next with
  | done => exact hs.become_idle
  | «seal» merged u | begin v => exact hs.become_unpinned hnext rfl rfl

lemma Inv.shiftBegin : Inv c ev (s.shiftBegin t v) := by
  rw [State.shiftBegin]
  split_ifs with hv
  · exact h
  · apply h.shiftHead
    · intro s' hs'
      show v ≤ s'.head
      omega
    · intro s' hs'
      exact ⟨by show min v s.flushedUntil ≤ s'.head; omega, by show v ≤ s'.head; omega⟩
    · rfl
    · rfl

lemma Inv.moveBegin (ht : s.task t = .movingBegin v) : Inv c ev (s.moveBegin t v) := by
  have hok := h.task ht
  have hv : v ≤ s.head := hok
  have hk : Keeps c ev ev s { s with begin := max s.begin v } :=
    .of_frames_eq le_rfl rfl le_rfl le_rfl le_rfl (le_max_left _ _) rfl
  have hs : Inv c ev { s with begin := max s.begin v } := by
    apply h.passive _ hk (fun t => .of_eq id rfl rfl rfl) rfl h.readers h.writers
    have ho := h.ordered
    exact { h.toCore with ordered := { ho with begin_le := Nat.max_le.mpr ⟨ho.begin_le, hv⟩ } }
  apply become_unpinned
  · apply hs.register
    · exact hv
    · rw [ht]
      rfl
    · rw [ht]
      rfl
  · exact le_max_right _ _
  · rfl
  · rfl

lemma Inv.flush {fromAddr untilAddr : Nat} : Inv c ev (s.flush c t fromAddr untilAddr) := by
  simp only [State.flush]
  split_ifs
  · exact h
  · exact h.congr rfl rfl rfl rfl rfl rfl rfl rfl
  · have hs : Inv c ev { s with
        pending := (coalesce s.pending ⟨c.pageStart (c.pageId fromAddr),
          c.pageStart (c.pageId (untilAddr - 1) + 1)⟩ s.flushedUntil).2 } :=
      h.congr rfl rfl rfl rfl rfl rfl rfl rfl
    apply hs.shiftReadOnly
    · exact min_le_right _ _
    · intro s' hs'
      show min untilAddr s.tail ≤ s'.readOnly
      rw [hs']
      exact le_max_right _ _
    · intro s' hs'
      have hle : min untilAddr s.tail ≤ s'.readOnly := by
        rw [hs']
        exact le_max_right _ _
      exact ⟨hle, hle⟩
    · rfl
    · rfl

lemma Inv.lockGate {merged : PageFlushRange} {u : Nat}
    (ht : s.task t = .awaitGate merged u) (hgate : s.gate = none) :
    Inv c ev (s.lockGate c t merged u) := by
  have hok := h.task ht
  have hu : u ≤ s.safeReadOnly := hok
  simp only [State.lockGate]
  -- both continuations know the same about the sealed bound
  have hnext : ∀ k : Task, k.readPin = none → k.writePin = none →
      TaskOk c ev ({ s with gate := some t }.become t k) t k →
      Inv c ev ({ s with gate := some t }.become t k) := by
    intro k hr hw hok
    refine h.next_unpinned (h.toCore.same rfl rfl rfl rfl rfl) (.of_same rfl rfl) ?_
      rfl rfl rfl hok hr hw
    intro t' _
    refine ⟨id, fun hg => ?_, fun hl => ⟨hl, fun _ hb => hb⟩⟩
    rw [hgate] at hg
    cases hg
  split_ifs
  · exact h.become_idle
  all_goals exact hnext _ rfl rfl ⟨rfl, hu⟩

lemma Inv.copyPage {job : FlushJob} {p : Nat} {buf : Nat → UInt8}
    (ht : s.task t = .copying job p buf) : Inv c ev (s.copyPage c t job p buf) := by
  have hok := h.task ht
  rw [State.copyPage]
  split_ifs <;> exact h.become_unpinned hok rfl rfl

lemma Inv.writeDevice {job : FlushJob} {buf : Nat → UInt8} {count : Nat} {ok : Bool} (ht : s.task t = .writing job buf) :
    Inv c ev (s.writeDevice c t job buf count ok) := by
  have hok := h.task ht
  have hs : Inv c ev (s.become t (.finishing job ok)) := h.become_unpinned hok rfl rfl
  exact hs.congr rfl rfl rfl rfl rfl rfl rfl rfl

end

lemma State.addDeferred_eq (s : State n) (r : Option PageFlushRange) :
    ∃ pending, s.addDeferred r = { s with pending } := by
  cases r with
  | none => exact ⟨s.pending, rfl⟩
  | some =>
    rw [addDeferred, addPending]
    split_ifs
    · exact ⟨s.pending, rfl⟩
    · exact ⟨_, rfl⟩

end Wedb.Log
