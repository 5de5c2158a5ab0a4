import Wedb.Log.Preservation

/-!
# Frames and addresses in every interleaving

While every append runs inside an epoch, the addresses stay in order, reserved ranges are disjoint
and lie on one page, a page is published with zeros beyond the tail, and no frame is taken from a
reader. `exists_frame_taken_from_reader` is what an append outside of any epoch can do: it comes
back to a page that was filled, evicted and replaced in the meantime.
-/

namespace Wedb.Log

open Frames Config

variable {n : Nat} {c : Config} {ev : Nat} {s s' : State n} {t : Fin n}

/-- The bytes that a thread has reserved and not yet written. -/
def Task.InFlight (c : Config) (x : Nat) : Task → Prop
  | .padding size tail => tail ≤ x ∧ x < c.pageStart (c.pageId tail + 1) + size
  | .encoding size addr => addr ≤ x ∧ x < addr + size
  | _ => False

/-- The bytes of a range that is complete: below the tail and in no thread's hands. -/
def State.Complete (c : Config) (s : State n) (x : Nat) : Prop :=
  x < s.tail ∧ ∀ t, ¬ (s.task t).InFlight c x

open State

/-- What holds of the log in every state. -/
structure Sound (c : Config) (s : State n) : Prop where
  ordered : s.toAddressSnapshot.Ordered
  onePage : ∀ r ∈ s.reserved, c.pageId r.1 = c.pageId (r.1 + r.2 - 1)
  disjoint : s.reserved.Pairwise fun r q => r.1 + r.2 ≤ q.1 ∨ q.1 + q.2 ≤ r.1
  reading : ∀ t addr, s.task t = .reading addr → s.frames.IsPageLoaded c (c.pageId addr)

/-- A step publishes pages with zeros beyond the tail. -/
def PublishesZero (c : Config) (s s' : State n) : Prop :=
  ∀ x, ¬ s.frames.IsPageLoaded c (c.pageId x) → s'.frames.IsPageLoaded c (c.pageId x) →
    s'.tail ≤ x → s'.frames.byteAt c x = 0

/-- A step neither relabels nor clears a frame that a thread reads. -/
def LeavesReaders (c : Config) (s s' : State n) : Prop :=
  ∀ t addr, s.task t = .reading addr → s'.frames.IsPageLoaded c (c.pageId addr) ∧
    ∀ x, c.pageId x = c.pageId addr → s.Complete c x → s'.frames.byteAt c x = s.frames.byteAt c x

/-- The steps of a running log: anything but a restart. -/
def Action.isLive : Action n → Bool
  | .recover _ => false
  | _ => true

/-- An append begins inside an epoch; it cannot leave it before its record is encoded. -/
def appendsInside (s : State n) : Action n → Bool
  | .load t _ => (s.epochs.announced t).isSome
  | _ => true

lemma State.finishFlush_eq (s : State n) (t : Fin n) (job : FlushJob) (written : Bool) :
    ∃ pending, s.finishFlush t job written =
      { s with
        flushedUntil := (if written then
          completeFlushRange job.range s.tail s.flushedUntil s.completed
          else (s.flushedUntil, s.completed)).1
        completed := (if written then
          completeFlushRange job.range s.tail s.flushedUntil s.completed
          else (s.flushedUntil, s.completed)).2
        pending, gate := none }.become t .idle := by
  cases written with
  | true =>
    obtain ⟨pending, hp⟩ := addDeferred_eq
      { s with
        flushedUntil := (completeFlushRange job.range s.tail s.flushedUntil s.completed).1
        completed := (completeFlushRange job.range s.tail s.flushedUntil s.completed).2 }
      job.deferredTail
    refine ⟨pending, ?_⟩
    simp only [finishFlush, if_true, hp]
  | false =>
    simp only [finishFlush, Bool.false_eq_true, if_false]
    split_ifs
    · obtain ⟨pending, hp⟩ := s.addDeferred_eq job.deferredTail
      exact ⟨pending, by rw [hp]⟩
    · obtain ⟨pending₁, hp₁⟩ := s.addDeferred_eq (some (job.range.clamp s.flushedUntil))
      obtain ⟨pending, hp⟩ := addDeferred_eq { s with pending := pending₁ } job.deferredTail
      refine ⟨pending, ?_⟩
      rw [addDeferred] at hp₁
      rw [hp₁, hp]

lemma Inv.finishFlush {job : FlushJob} {written : Bool} (h : Inv c ev s)
    (ht : s.task t = .finishing job written) : Inv c ev (s.finishFlush t job written) := by
  obtain ⟨hgate, hu⟩ := h.task ht
  obtain ⟨pending, hp⟩ := s.finishFlush_eq t job written
  rw [hp]
  have hbound := completeFlushRange_bounded s.tail h.ordered.flushed_le hu h.completed
  have hle := le_completeFlushRange s.tail job.range s.flushedUntil s.completed
  generalize hr : (if written then completeFlushRange job.range s.tail s.flushedUntil s.completed
    else (s.flushedUntil, s.completed)) = r
  have hr' : s.flushedUntil ≤ r.1 ∧ r.1 ≤ s.safeReadOnly ∧
      ∀ q ∈ r.2, q.untilAddress ≤ s.safeReadOnly := by
    subst hr
    split_ifs
    · exact ⟨hle, hbound⟩
    · exact ⟨le_rfl, h.ordered.flushed_le, h.completed⟩
  refine h.next_unpinned ?_ ?_ ?_ rfl rfl rfl trivial rfl rfl
  · exact { h.toCore with
      ordered := { h.ordered with
        head_le := h.ordered.head_le.trans hr'.1
        flushed_le := hr'.2.1 }
      completed := hr'.2.2 }
  · exact .of_frames_eq le_rfl rfl le_rfl le_rfl le_rfl le_rfl rfl
  · intro t' ht'
    refine ⟨id, fun hg => ?_, fun hl => ⟨hl, fun _ hb => hb⟩⟩
    rw [hgate] at hg
    cases hg
    exact absurd rfl ht'

/-- Every step of a running log keeps the invariant, as long as appends begin inside an epoch. -/
lemma Inv.step {a : Action n} (h : Inv c ev s) (hs : step c s a = some s') (hlive : a.isLive)
    (ha : appendsInside s a) : ∃ ev', ev ≤ ev' ∧ Inv c ev' s' := by
  cases fires_of_step hs with
  | enter ht => exact ⟨ev, le_rfl, h.enter ht⟩
  | exit ht => exact ⟨ev, le_rfl, h.exit ht⟩
  | bump => exact ⟨ev, le_rfl, h.bump⟩
  | drain hm hr => exact ⟨_, le_max_left _ _, h.drain hm hr⟩
  | load ht hz => exact ⟨ev, le_rfl, h.load hz ha⟩
  | reload ht =>
    have hok := h.task ht
    exact ⟨ev, le_rfl, h.load hok.1 hok.2⟩
  | probe ht => exact ⟨ev, le_rfl, h.probe ht⟩
  | lockPage ht hl => exact ⟨ev, le_rfl, h.lockPage ht hl⟩
  | clearPage ht => exact ⟨ev, le_rfl, h.clearPage ht⟩
  | casTail ht => exact ⟨ev, le_rfl, h.casTail ht⟩
  | preclear ht => exact ⟨ev, le_rfl, h.preclearNext ht⟩
  | lockTurn ht hl => exact ⟨ev, le_rfl, h.lockTurn ht hl⟩
  | casTurn ht => exact ⟨ev, le_rfl, h.casTurn ht⟩
  | writePad ht => exact ⟨ev, le_rfl, h.writePad ht⟩
  | encode ht => exact ⟨ev, le_rfl, h.encode ht⟩
  | checkHead ht hi hh hlt =>
    refine ⟨ev, le_rfl, h.become hlt ?_ fun x hx => by cases hx⟩
    intro x hx
    cases hx
    exact .inr ⟨hi, hh⟩
  | checkFrame ht =>
    have hok := h.task ht
    split_ifs with hp
    · exact ⟨ev, le_rfl, h.become ⟨hok, hp⟩ (fun x hx => .inl ⟨x, le_rfl, by rw [ht]; exact hx⟩)
        fun x hx => by cases hx⟩
    · exact ⟨ev, le_rfl, h.become_idle⟩
  | finishRead => exact ⟨ev, le_rfl, h.become_idle⟩
  | shiftReadOnly ht hv =>
    refine ⟨ev, le_rfl, h.shiftReadOnly hv (fun _ _ => trivial) (fun s' hs' => ⟨?_, trivial⟩)
      rfl rfl⟩
    show _ ≤ s'.readOnly
    rw [hs']
    exact le_max_right _ _
  | shiftHead =>
    refine ⟨ev, le_rfl, h.shiftHead (fun _ _ => trivial) (fun s' hs' => ⟨?_, trivial⟩) rfl rfl⟩
    show _ ≤ s'.head
    rw [hs']
    exact le_max_right _ _
  | register ht => exact ⟨ev, le_rfl, h.registered ht⟩
  | shiftBegin => exact ⟨ev, le_rfl, h.shiftBegin⟩
  | moveBegin ht => exact ⟨ev, le_rfl, h.moveBegin ht⟩
  | truncate =>
    exact ⟨ev, le_rfl, h.become_idle.congr rfl rfl rfl rfl rfl rfl rfl rfl⟩
  | flush => exact ⟨ev, le_rfl, h.flush⟩
  | awaitSealed ht hu => exact ⟨ev, le_rfl, h.become_unpinned hu rfl rfl⟩
  | lockGate ht hg => exact ⟨ev, le_rfl, h.lockGate ht hg⟩
  | copyPage ht => exact ⟨ev, le_rfl, h.copyPage ht⟩
  | writeDevice ht => exact ⟨ev, le_rfl, h.writeDevice ht⟩
  | finishFlush ht => exact ⟨ev, le_rfl, h.finishFlush ht⟩
  | recover => cases hlive

/-! ## Complete bytes stay where they are -/

/-- Pages that `f` has and the log does not lie above the tail. -/
def NewAbove (c : Config) (tail : Nat) (g f : Frames) : Prop :=
  ∀ q, f.IsPageLoaded c q → g.IsPageLoaded c q ∨ tail ≤ c.pageStart q

/-- Every frame change of a step is one of these: the frames of pages above `ev` are kept, or one
thread writes bytes that it has reserved, on a page that has its frame. -/
inductive FrameChange (c : Config) (ev : Nat) (s : State n) (f : Frames) : Prop
  | keep (h : KeepsFrames c ev s.frames f) (hnew : NewAbove c s.tail s.frames f)
  | pad (t : Fin n) (size tail : Nat) (ht : s.task t = .padding size tail)
      (hp : s.frames.IsPageLoaded c (c.pageId tail))
      (hf : f = s.frames.writePadTail c tail (c.pageSize - c.pageOffset tail))
  | encode (t : Fin n) (size addr : Nat) (bytes : Nat → UInt8)
      (ht : s.task t = .encoding size addr) (hp : s.frames.IsPageLoaded c (c.pageId addr))
      (hf : f = s.frames.write c addr size bytes)

variable {f : Frames}

lemma FrameChange.of_eq (h : f = s.frames) : FrameChange c ev s f :=
  .keep (h ▸ KeepsFrames.refl) (h ▸ fun _ => .inl)

/-- A byte below the tail whose page has its frame after the step had it before. -/
lemma FrameChange.isPageLoaded {x : Nat} (h : FrameChange c ev s f)
    (hl : f.IsPageLoaded c (c.pageId x)) (hx : x < s.tail) :
    s.frames.IsPageLoaded c (c.pageId x) := by
  cases h with
  | keep _ hnew =>
    rcases hnew _ hl with h | h
    · exact h
    · exact absurd (h.trans pageStart_pageId_le) (not_le_of_gt hx)
  | pad t size tail ht hp hf =>
    subst hf
    exact label_writePadTail.symm.trans hl
  | encode t size addr bytes ht hp hf =>
    subst hf
    exact label_write.symm.trans hl

/-- A complete byte above `ev` keeps its frame and its value. -/
lemma FrameChange.stable {x : Nat} (h : FrameChange c ev s f)
    (hx : s.Complete c x) (hl : s.frames.IsPageLoaded c (c.pageId x))
    (hev : ev < c.pageStart (c.pageId x + 1)) :
    f.IsPageLoaded c (c.pageId x) ∧ f.byteAt c x = s.frames.byteAt c x := by
  cases h with
  | keep h => exact ⟨h.pages _ hl hev, h.byteAt hl hev⟩
  | pad t size tail ht hp hf =>
    subst hf
    refine ⟨label_writePadTail.trans hl, ?_⟩
    apply byteAt_writePadTail_of_not_mem hl hp
    intro hmem
    have hin := hx.2 t
    rw [ht] at hin
    apply hin
    refine ⟨hmem.1, ?_⟩
    have h₁ := c.pageStart_pageId_add (x := tail)
    have h₂ := c.pageStart_succ (p := c.pageId tail)
    omega
  | encode t size addr bytes ht hp hf =>
    subst hf
    refine ⟨label_write.trans hl, ?_⟩
    apply byteAt_write_of_not_mem hl hp
    intro hmem
    have hin := hx.2 t
    rw [ht] at hin
    exact hin hmem

lemma Inv.reusable_of_ensurePageReady {p : Nat} (h : Inv c ev s)
    (hready : (s.ensurePageReady c t p).2 = true) : Reusable c ev p := by
  apply (h.become_idle.ensurePageReady (Function.update_self _ _ _)).2
  rw [become_ensurePageReady]
  exact hready

lemma State.ensurePageReady_frames (s : State n) (t : Fin n) (p : Nat) :
    (s.ensurePageReady c t p).1.frames = s.frames := by
  obtain ⟨ro, hd, ep, heq, -⟩ := s.ensurePageReady_eq t p
  rw [heq]

lemma State.probe_frames (s : State n) (t : Fin n) (size tail : Nat) :
    (s.probe c t size tail).frames = s.frames := by
  have hframes := s.ensurePageReady_frames (c := c) t (c.pageId tail + 1)
  rw [probe]
  generalize s.ensurePageReady c t (c.pageId tail + 1) = r at hframes
  obtain ⟨s₁, _ | _⟩ := r <;> split_ifs
  any_goals rfl
  all_goals exact hframes

lemma Inv.lockPage_frameChange {size tail : Nat} (h : Inv c ev s)
    (ht : s.task t = .awaitPage size tail) :
    FrameChange c ev s (s.lockPage c t size tail).frames := by
  obtain ⟨-, -, -, hp⟩ := h.task ht
  rw [State.lockPage]
  by_cases hl : s.frames.IsPageLoaded c (c.pageId tail)
  · rw [if_pos hl]
    exact .of_eq rfl
  · rw [if_neg hl]
    obtain ⟨rfl, -⟩ := hp.resolve_left hl
    have hframes := s.ensurePageReady_frames (c := c) t (c.pageId s.tail)
    have hre := h.reusable_of_ensurePageReady (t := t) (p := c.pageId s.tail)
    generalize s.ensurePageReady c t (c.pageId s.tail) = r at hframes hre
    obtain ⟨s₁, _ | _⟩ := r
    · exact .of_eq hframes
    · show FrameChange c ev s (s₁.frames.invalidate c _)
      rw [show s₁.frames = s.frames from hframes]
      refine .keep (.invalidate h.frames (hre rfl)
        (h.ev_le_tail.trans_lt lt_pageStart_pageId_succ) hl) fun q hq => .inl ?_
      rw [IsPageLoaded, label_invalidate] at hq
      split_ifs at hq
      exact hq

lemma Inv.frameChange {a : Action n} (h : Inv c ev s) (hs : Log.step c s a = some s')
    (hlive : a.isLive) : FrameChange c ev s s'.frames := by
  cases fires_of_step hs with
  | enter | exit | bump | load | reload | checkHead | checkFrame | finishRead | shiftReadOnly
  | shiftHead | register | moveBegin | truncate | awaitSealed | copyPage | writeDevice =>
    exact .of_eq rfl
  | @drain i e b hm hr => cases b <;> exact .of_eq rfl
  | probe => exact .of_eq (s.probe_frames _ _ _)
  | lockPage ht => exact h.lockPage_frameChange ht
  | clearPage ht =>
    obtain ⟨-, -, -, rfl, hoff, hbl, -⟩ := h.task ht
    refine .keep (.fill hbl) fun q hq => ?_
    by_cases hk : c.pageIdx q = c.pageIdx (c.pageId s.tail)
    · have hq : (s.frames.fillFromOffset c _ _ (c.pageIdx q)).label = .page q := hq
      rw [hk, fillFromOffset_self] at hq
      cases hq
      have := c.pageStart_pageId_add (x := s.tail)
      exact .inr (by omega)
    · have hq : (s.frames.fillFromOffset c _ _ (c.pageIdx q)).label = .page q := hq
      rw [fillFromOffset_of_ne hk] at hq
      exact .inl hq
  | casTail | casTurn | shiftBegin | flush | lockGate =>
    simp only [State.casTail, State.casTurn, State.shiftBegin, State.flush, State.lockGate]
    split_ifs <;> exact .of_eq rfl
  | preclear ht =>
    obtain ⟨-, -, -, -, hre⟩ := h.task ht
    rw [State.preclearNext]
    split_ifs
    · exact .of_eq rfl
    · refine .keep (.preclear hre) fun q hq => .inl ?_
      rcases preclearPage_cases (f := s.frames) with
        he | ⟨-, he, -⟩
      · rw [IsPageLoaded, ← he]
        exact hq
      · have hq : (s.frames.preclearPage c _ (c.pageIdx q)).label = .page q := hq
        rw [he] at hq
        cases hq
  | @lockTurn t size tail ht hl =>
    obtain ⟨-, -, -, -, hre⟩ := h.task ht
    rw [State.lockTurn]
    split_ifs with htail
    · exact .of_eq rfl
    · have h₁ := lt_pageStart_pageId_succ (c := c) (x := tail)
      have h₂ := pageStart_succ (c := c) (p := c.pageId tail + 1)
      have h₃ := h.ev_le_tail
      refine .keep (.sealPage h.frames hre (by omega)) fun q hq => ?_
      rcases sealPage_cases (f := s.frames) with
        he | ⟨-, -, he, -⟩
      · exact .inl (by rw [IsPageLoaded, ← he]; exact hq)
      · have hq : (s.frames.sealPage c _ (c.pageIdx q)).label = .page q := hq
        rw [he] at hq
        cases hq
        exact .inr (by omega)
  | writePad ht => exact .pad _ _ _ ht (h.task ht).2.2.1 rfl
  | encode ht => exact .encode _ _ _ _ ht (h.task ht).1 rfl
  | @finishFlush t job written ht =>
    obtain ⟨pending, hp⟩ := s.finishFlush_eq t job written
    exact .of_eq (by rw [hp]; rfl)
  | recover => cases hlive

/-! ## The start -/

section Recovered

variable {a : AddressSnapshot} {device : Nat → UInt8} {k p : Nat}

/-- The first page that `recover` puts into the buffer. -/
def firstPage (c : Config) (a : AddressSnapshot) : Nat :=
  if a.head < a.tail then c.pageId a.head else c.pageId a.tail

lemma label_recoveredFrames (h : (recoveredFrames c device a k).label = .page p) :
    k = c.pageIdx p ∧ firstPage c a ≤ p ∧ p ≤ c.pageId a.tail ∧
      ∀ i, (recoveredFrames c device a k).bytes i =
        if a.head < a.tail ∧ c.pageStart p + i < a.flushedUntil then device (c.pageStart p + i)
        else 0 := by
  simp only [recoveredFrames] at h ⊢
  generalize hf : (List.range' (if a.head < a.tail then c.pageId a.head else c.pageId a.tail)
    _).find? _ = r at h ⊢
  cases r with
  | none => cases h
  | some =>
    cases h
    have hmem := List.mem_range'_1.mp (List.mem_of_find?_eq_some hf)
    have hk := List.find?_some hf
    simp only [decide_eq_true_eq] at hk
    exact ⟨hk.symm, hmem.1, by omega, fun _ => rfl⟩

lemma label_recoveredFrames_ne_claimed : (recoveredFrames c device a k).label ≠ .claimed := by
  simp only [recoveredFrames]
  split <;> exact Label.noConfusion

/-- The pages from head to tail lie in one ring. -/
lemma pageId_tail_lt (ha : State.Recoverable c a) : c.pageId a.tail < firstPage c a + c.numPages := by
  rw [firstPage]
  split_ifs with h
  · exact ha.2 h
  · have := c.two_le_numPages
    omega

lemma firstPage_le (ho : a.Ordered) :
    firstPage c a ≤ c.pageId a.tail ∧ c.pageStart (firstPage c a) ≤ a.head := by
  have hle : a.head ≤ a.tail := ho.head_le.trans
    (ho.flushed_le.trans (ho.safeReadOnly_le.trans ho.readOnly_le))
  rw [firstPage]
  split_ifs with h
  · exact ⟨pageId_mono hle, pageStart_pageId_le⟩
  · rw [show a.head = a.tail by omega]
    exact ⟨le_rfl, pageStart_pageId_le⟩

lemma isPageLoaded_recoveredFrames (ha : State.Recoverable c a)
    (hp : firstPage c a ≤ p) (hp' : p ≤ c.pageId a.tail) :
    (recoveredFrames c device a).IsPageLoaded c p := by
  have hmem : p ∈ List.range' (firstPage c a) (c.pageId a.tail + 1 - firstPage c a) :=
    List.mem_range'_1.mpr ⟨hp, by omega⟩
  have hsome : ((List.range' (firstPage c a) (c.pageId a.tail + 1 - firstPage c a)).find?
      (c.pageIdx · = c.pageIdx p)).isSome := List.find?_isSome.mpr ⟨p, hmem, by simp⟩
  obtain ⟨q, hq⟩ := Option.isSome_iff_exists.mp hsome
  have hqmem := List.mem_range'_1.mp (List.mem_of_find?_eq_some hq)
  have hqidx := List.find?_some hq
  simp only [decide_eq_true_eq] at hqidx
  have hlt := pageId_tail_lt ha
  have heq : q = p := by
    rcases lt_trichotomy q p with h | h | h
    · have := add_numPages_le hqidx h
      omega
    · exact h
    · have := add_numPages_le hqidx.symm h
      omega
  subst heq
  rw [firstPage] at hq
  simp only [IsPageLoaded, recoveredFrames, hq]

lemma Inv.recovered (ha : State.Recoverable c a) (ho : a.Ordered) :
    Inv c a.head (State.recovered (n := n) c device a) where
  ordered := ho
  safeHead_le_ev := ho.safeHead_le
  ev_le := le_rfl
  borders := nofun
  frames := by
    refine ⟨fun {k q} hl => ?_, fun {k q i} hl hi ht => ?_, fun hl => ?_⟩
    · obtain ⟨hk, -, hle, -⟩ := label_recoveredFrames hl
      refine ⟨hk, fun hq => ?_⟩
      have h₁ := pageId_tail_lt ha
      have h₂ := (firstPage_le (c := c) ho).2
      have h₃ : c.pageStart (q - c.numPages + 1) ≤ c.pageStart (firstPage c a) :=
        pageStart_mono (by omega)
      exact h₃.trans h₂
    · obtain ⟨-, -, -, hb⟩ := label_recoveredFrames hl
      refine (hb i).trans (if_neg fun hlt => ?_)
      have h₁ : a.tail ≤ c.pageStart q + i := ht
      have h₂ := ho.flushed_le
      have h₃ := ho.safeReadOnly_le
      have h₄ := ho.readOnly_le
      omega
    · exact absurd hl label_recoveredFrames_ne_claimed
  tailPage := .inl (isPageLoaded_recoveredFrames ha (firstPage_le ho).1 le_rfl)
  completed := nofun
  reserved := nofun
  disjoint := .nil
  readers := ⟨nofun, nofun⟩
  writers := ⟨nofun, nofun⟩
  tasks := fun _ => trivial

end Recovered

/-! ## Every run -/

lemma Inv.new (c : Config) (initial : Nat) : Inv c initial (State.new (n := n) c initial) := by
  apply recovered (a := .new initial)
  · refine ⟨?_, fun h => absurd h (lt_irrefl _)⟩
    simp only [AddressSnapshot.validate, AddressSnapshot.new, le_refl, decide_true, Bool.and_self]
  · exact .new initial

lemma Inv.sound (h : Inv c ev s) : Sound c s where
  ordered := h.ordered
  onePage := by
    intro r hr
    obtain ⟨h₁, h₂, -⟩ := h.reserved r hr
    have h₃ := c.pageStart_pageId_add (x := r.1)
    have h₄ := c.pageStart_succ (p := c.pageId r.1)
    exact (pageId_eq_of_bounds (by omega) (by omega)).symm
  disjoint := h.disjoint.imp fun hle => .inr hle
  reading := fun t addr ht => (h.task ht).2

lemma Inv.publishesZero (h : Inv c ev s') : PublishesZero c s s' := by
  intro x _ hl hx
  apply h.frames.zero hl pageOffset_lt
  rw [pageStart_pageId_add]
  exact hx

lemma Inv.leavesReaders {a : Action n} (h : Inv c ev s) (hs : Log.step c s a = some s')
    (hlive : a.isLive) : LeavesReaders c s s' := by
  intro t addr ht
  have hchange := h.frameChange hs hlive
  have hl := (h.task ht).2
  have hpin : ev ≤ addr := h.readers.safe_le (by rw [Function.comp_apply, ht]; rfl)
  have hev : ev < c.pageStart (c.pageId addr + 1) := hpin.trans_lt lt_pageStart_pageId_succ
  constructor
  · cases hchange with
    | keep hk => exact hk.pages _ hl hev
    | pad t size tail ht hp hf => exact hf ▸ label_writePadTail.trans hl
    | encode t size addr bytes ht hp hf => exact hf ▸ label_write.trans hl
  · intro x hx hcomplete
    exact (hchange.stable hcomplete (hx ▸ hl) (hx ▸ hev)).2

/-- In every run of a log whose appends all begin inside an epoch, every state is sound, and no
step takes a frame from a reader or publishes a page with bytes beyond the tail. -/
theorem sound_of_appendsInside (c : Config) (initial : Nat) {s : State n}
    (h : Machine.Reaches (step c) (fun s a => a.isLive ∧ appendsInside s a)
      (State.new c initial) s) :
    Sound c s ∧ ∀ a s', a.isLive → appendsInside s a → step c s a = some s' →
      PublishesZero c s s' ∧ LeavesReaders c s s' := by
  have hinv : ∃ ev, Inv c ev s := by
    apply h.invariant ⟨initial, .new c initial⟩
    intro s s' a hs ha hstep
    obtain ⟨ev, hev⟩ := hs
    obtain ⟨ev', -, hev'⟩ := hev.step hstep ha.1 ha.2
    exact ⟨ev', hev'⟩
  obtain ⟨ev, hev⟩ := hinv
  refine ⟨hev.sound, fun a s' hlive ha hstep => ?_⟩
  obtain ⟨ev', -, hev'⟩ := hev.step hstep hlive ha
  exact ⟨hev'.publishesZero, hev.leavesReaders hstep hlive⟩

/-! ## An append outside of any epoch -/

/-- A record of a whole page at a tail whose page has no frame yet. -/
def appendPage (t : Fin 3) : List (Action 3) :=
  [.load t 4096, .probe t, .lockPage t, .clearPage t, .reload t, .probe t, .casTail t,
    .encode t fun _ => 7]

/-- A flush of the bytes below `u` with two pages to copy. -/
def flushTwoPages (t : Fin 3) (u : Nat) : List (Action 3) :=
  [.flush t 0 u, .register t, .drain 0, .awaitSealed t, .lockGate t, .copyPage t, .copyPage t,
    .copyPage t, .writeDevice t u true, .finishFlush t]

/-- Thread 0 loads the tail at the start of page 1 and stalls. Thread 1 fills page 1, flushes and
evicts both pages and fills pages 2 and 3 in their frames; thread 2 reads a record of page 3. -/
def staleAppend : List (Action 3) :=
  [.load 1 4096, .probe 1, .casTail 1, .encode 1 fun _ => 7, .load 0 4096, .probe 0] ++
    appendPage 1 ++ flushTwoPages 1 8192 ++ [.shiftHead 1 8192, .register 1, .drain 0] ++
    appendPage 1 ++ appendPage 1 ++ [.enter 2, .checkHead 2 12288, .checkFrame 2]

/-- What thread 2 reads and whether its page has its frame. -/
def readerView (s : State 3) : Option Nat × Bool :=
  (match s.task 2 with
    | .reading addr => some addr
    | _ => none,
    s.frames.IsPageLoaded twoFrames 3)

/-- The stalled append goes on: it takes the frame of page 3, which thread 2 is reading, for
page 1. -/
theorem exists_frame_taken_from_reader :
    ¬ ∀ s, Machine.Reaches (step twoFrames) (fun _ a => a.isLive) (State.new twoFrames 0) s →
      Sound twoFrames (n := 3) s := by
  intro h
  obtain ⟨s, hs, hview⟩ := Machine.exists_reaches_of_run (step twoFrames) (fun _ a => a.isLive)
    (new twoFrames 0) (staleAppend ++ [.lockPage 0]) readerView (some 12288, false)
    (by decide +kernel)
  simp only [readerView, Prod.mk.injEq, decide_eq_false_iff_not] at hview
  obtain ⟨htask, hframe⟩ := hview
  split at htask
  · next addr ht =>
    cases htask
    exact hframe ((h s hs).reading 2 12288 ht)
  · cases htask

/-- The theorem on the run in which every append is inside an epoch up to the read of page 3. -/
theorem sound_protected_run :
    ∃ s : State 3, Machine.Reaches (step twoFrames) (fun s a => a.isLive ∧ appendsInside s a)
        (State.new twoFrames 0) s ∧ readerView s = (some 12288, true) ∧ Sound twoFrames s := by
  obtain ⟨s, hs, hview⟩ := Machine.exists_reaches_of_run (step twoFrames)
    (fun s a => a.isLive ∧ appendsInside s a) (new twoFrames 0)
    ([.enter 1, .load 1 4096, .probe 1, .casTail 1, .encode 1 fun _ => 7] ++ appendPage 1 ++
      flushTwoPages 1 8192 ++ [.shiftHead 1 8192, .register 1, .drain 0] ++ appendPage 1 ++
      appendPage 1 ++ [.enter 2, .checkHead 2 12288, .checkFrame 2])
    readerView (some 12288, true) (by decide +kernel)
  exact ⟨s, hs, hview, (sound_of_appendsInside twoFrames 0 hs).1⟩

end Wedb.Log
