import Wedb.Lib.Machine
import Wedb.Log.Frames

/-!
# The invariant of the hybrid log

Every thread inside an epoch pins an address: the tail it has loaded, the record it encodes or the
record it reads. `readers` says that nothing a thread has pinned is evicted, `writers` that nothing
below the safe read-only border is still being encoded. Both hold as long as every append runs
inside an epoch (`Inside`).
-/

namespace Wedb.Log

variable {n : Nat} {c : Config} {ev ev' : Nat} {s s' : State n} {t t' : Fin n} {k : Task}

namespace Border

def value : Border → Nat
  | .safeReadOnly v | .safeHead v => v

/-- How far a deferred action moves the safe head. -/
def headValue : Border → Nat
  | .safeReadOnly _ => 0
  | .safeHead v => v

/-- A deferred action never moves a safe border past the border itself. -/
def Below (a : AddressSnapshot) : Border → Prop
  | .safeReadOnly v => v ≤ a.readOnly
  | .safeHead v => v ≤ a.head

end Border

namespace Task

/-- The lowest address whose frame the thread relies on. -/
def readPin : Task → Option Nat
  | .loaded _ a | .awaitPage _ a | .fast _ a | .padding _ a | .encoding _ a | .checked a
  | .reading a => some a
  | _ => none

/-- The lowest address that the thread has reserved and not yet encoded. -/
def writePin : Task → Option Nat
  | .padding _ a | .encoding _ a => some a
  | _ => none

end Task

/-- Thread `t` is inside an epoch. -/
def State.Inside (s : State n) (t : Fin n) : Prop := (s.epochs.announced t).isSome

def SizeOk (c : Config) (size : Nat) : Prop := 0 < size ∧ size ≤ c.pageSize

/-- The page of a loaded tail has its frame, unless the tail is still there and begins a page. -/
def OnPage (c : Config) (s : State n) (tail : Nat) : Prop :=
  s.frames.IsPageLoaded c (c.pageId tail) ∨ s.tail = tail ∧ c.pageOffset tail = 0

/-- What a thread knows while it is at task `k`. -/
def TaskOk (c : Config) (ev : Nat) (s : State n) (t : Fin n) : Task → Prop
  | .idle => True
  | .retry size => SizeOk c size ∧ s.Inside t
  | .loaded size tail | .awaitPage size tail =>
    SizeOk c size ∧ s.Inside t ∧ tail ≤ s.tail ∧ OnPage c s tail
  | .clearing size tail =>
    SizeOk c size ∧ s.Inside t ∧ s.turnLock = some t ∧ s.tail = tail ∧ c.pageOffset tail = 0 ∧
      s.frames.Blank (c.pageIdx (c.pageId tail)) ∧ Reusable c ev (c.pageId tail)
  | .fast size tail =>
    SizeOk c size ∧ s.Inside t ∧ tail ≤ s.tail ∧ s.frames.IsPageLoaded c (c.pageId tail) ∧
      c.pageOffset tail + size ≤ c.pageSize
  | .preclear size tail | .awaitTurn size tail =>
    SizeOk c size ∧ s.Inside t ∧ tail ≤ s.tail ∧ c.pageSize < c.pageOffset tail + size ∧
      Reusable c ev (c.pageId tail + 1)
  | .turning size tail =>
    SizeOk c size ∧ s.Inside t ∧ tail ≤ s.tail ∧ c.pageSize < c.pageOffset tail + size ∧
      s.turnLock = some t ∧ (s.tail = tail → s.frames.IsPageLoaded c (c.pageId tail + 1))
  | .padding size tail =>
    SizeOk c size ∧ s.turnLock = some t ∧ s.frames.IsPageLoaded c (c.pageId tail) ∧
      s.frames.IsPageLoaded c (c.pageId tail + 1) ∧ c.pageStart (c.pageId tail + 1) + size ≤ s.tail
  | .encoding size addr =>
    s.frames.IsPageLoaded c (c.pageId addr) ∧ c.pageOffset addr + size ≤ c.pageSize ∧
      addr + size ≤ s.tail
  | .checked addr => addr < s.tail
  | .reading addr => addr < s.tail ∧ s.frames.IsPageLoaded c (c.pageId addr)
  | .registering b next => b.Below s.toAddressSnapshot ∧
    match next with
    | .done => True
    | .seal _ sealedUntil => sealedUntil ≤ s.readOnly
    | .begin v => v ≤ s.head
  | .sealing _ sealedUntil => sealedUntil ≤ s.readOnly
  | .awaitGate _ sealedUntil => sealedUntil ≤ s.safeReadOnly
  | .copying job _ _ | .writing job _ | .finishing job _ =>
    s.gate = some t ∧ job.range.untilAddress ≤ s.safeReadOnly
  | .movingBegin v => v ≤ s.head
  | .draining v => v ≤ s.begin

/-- A reserved range lies on one page and below the tail. -/
def Fits (c : Config) (tail : Nat) (r : Nat × Nat) : Prop :=
  0 < r.2 ∧ c.pageOffset r.1 + r.2 ≤ c.pageSize ∧ r.1 + r.2 ≤ tail

/-- The part of the invariant that is not about threads. -/
structure Core (c : Config) (ev : Nat) (s : State n) : Prop where
  ordered : s.toAddressSnapshot.Ordered
  safeHead_le_ev : s.safeHead ≤ ev
  ev_le : ev ≤ s.head
  borders : ∀ p ∈ s.epochs.deferred, p.2.Below s.toAddressSnapshot
  frames : FramesOk c ev s.tail s.frames
  tailPage : s.frames.IsPageLoaded c (c.pageId s.tail) ∨ c.pageOffset s.tail = 0
  completed : ∀ r ∈ s.completed, r.untilAddress ≤ s.safeReadOnly
  reserved : ∀ r ∈ s.reserved, Fits c s.tail r
  disjoint : s.reserved.Pairwise fun r q => q.1 + q.2 ≤ r.1

structure Inv (c : Config) (ev : Nat) (s : State n) : Prop extends Core c ev s where
  readers : Epoch.Guarded Border.headValue s.epochs ev (Task.readPin ∘ s.task)
  writers : Epoch.Guarded Border.value s.epochs s.safeReadOnly (Task.writePin ∘ s.task)
  tasks : ∀ t, TaskOk c ev s t (s.task t)

lemma Inv.task (h : Inv c ev s) (ht : s.task t = k) : TaskOk c ev s t k := ht ▸ h.tasks t

lemma Core.ev_le_tail (h : Core c ev s) : ev ≤ s.tail := by
  have h₁ := h.ev_le
  have h₂ := h.ordered
  have h₃ := h₂.head_le
  have h₄ := h₂.flushed_le
  have h₅ := h₂.safeReadOnly_le
  have h₆ := h₂.readOnly_le
  omega

lemma Border.Below.value_le {b : Border} (hb : b.Below s.toAddressSnapshot) (h : Core c ev s) :
    b.value ≤ s.readOnly ∧ b.headValue ≤ s.head := by
  have h₁ := h.ordered.head_le
  have h₂ := h.ordered.flushed_le
  have h₃ := h.ordered.safeReadOnly_le
  cases b with
  | safeReadOnly => exact ⟨hb, Nat.zero_le _⟩
  | safeHead v =>
    have hv : v ≤ s.head := hb
    exact ⟨by show v ≤ _; omega, hv⟩

/-! ## What a step leaves to the other threads -/

/-- No step moves an address back or takes the frame of a page above `ev`, and the tail moves only
from a page that has its frame. -/
structure Keeps (c : Config) (ev ev' : Nat) (s s' : State n) : Prop where
  ev_le : ev ≤ ev'
  tail_le : s.tail ≤ s'.tail
  readOnly_le : s.readOnly ≤ s'.readOnly
  safeReadOnly_le : s.safeReadOnly ≤ s'.safeReadOnly
  head_le : s.head ≤ s'.head
  begin_le : s.begin ≤ s'.begin
  pages : KeepsPages c ev s.frames s'.frames
  moved : s'.tail = s.tail ∨ s.frames.IsPageLoaded c (c.pageId s.tail)

/-- A step of another thread leaves thread `t` inside its epoch and in possession of its locks; a
frame without page stays one while `t` turns the page. -/
structure Spares (s s' : State n) (t : Fin n) : Prop where
  inside : s.Inside t → s'.Inside t
  gate : s.gate = some t → s'.gate = some t
  lock : s.turnLock = some t → s'.turnLock = some t ∧ ∀ k, s.frames.Blank k → s'.frames.Blank k

lemma Keeps.page (hk : Keeps c ev ev' s s') {a : Nat} (ha : ev ≤ a)
    (h : s.frames.IsPageLoaded c (c.pageId a)) : s'.frames.IsPageLoaded c (c.pageId a) :=
  hk.pages _ h (ha.trans_lt Config.lt_pageStart_pageId_succ)

lemma Keeps.onPage (hk : Keeps c ev ev' s s') {a : Nat} (ha : ev ≤ a) (h : OnPage c s a) :
    OnPage c s' a := by
  rcases h with h | ⟨rfl, h⟩
  · exact .inl (hk.page ha h)
  · rcases hk.moved with hm | hm
    · exact .inr ⟨hm, h⟩
    · exact .inl (hk.page ha hm)

lemma Keeps.below (hk : Keeps c ev ev' s s') {b : Border} (h : b.Below s.toAddressSnapshot) :
    b.Below s'.toAddressSnapshot := by
  cases b with
  | safeReadOnly => exact le_trans h hk.readOnly_le
  | safeHead => exact le_trans h hk.head_le

lemma TaskOk.keep (h : TaskOk c ev s t k) (hc : ev ≤ s.tail)
    (hpin : ∀ x, k.readPin = some x → ev ≤ x)
    (hk : Keeps c ev ev' s s') (hs : Spares s s' t) : TaskOk c ev' s' t k := by
  have hr := hk.readOnly_le
  have hsr := hk.safeReadOnly_le
  have hh := hk.head_le
  have hb := hk.begin_le
  have ht := hk.tail_le
  cases k with
  | idle => trivial
  | retry => exact ⟨h.1, hs.inside h.2⟩
  | loaded size tail | awaitPage size tail =>
    obtain ⟨hz, hi, hle, hp⟩ := h
    exact ⟨hz, hs.inside hi, hle.trans ht, hk.onPage (hpin tail rfl) hp⟩
  | clearing =>
    obtain ⟨hz, hi, hl, rfl, ho, hbl, hre⟩ := h
    have hsame : s'.tail = s.tail := by
      rcases hk.moved with hm | hm
      · exact hm
      · exact absurd hm (hbl _)
    exact ⟨hz, hs.inside hi, (hs.lock hl).1, hsame, ho, (hs.lock hl).2 _ hbl, hre.mono hk.ev_le⟩
  | fast size tail =>
    obtain ⟨hz, hi, hle, hp, hf⟩ := h
    exact ⟨hz, hs.inside hi, hle.trans ht, hk.page (hpin tail rfl) hp, hf⟩
  | preclear size tail | awaitTurn size tail =>
    obtain ⟨hz, hi, hle, hf, hre⟩ := h
    exact ⟨hz, hs.inside hi, hle.trans ht, hf, hre.mono hk.ev_le⟩
  | turning size tail =>
    obtain ⟨hz, hi, hle, hf, hl, hp⟩ := h
    refine ⟨hz, hs.inside hi, hle.trans ht, hf, (hs.lock hl).1, fun he => ?_⟩
    have hsame : s.tail = tail := by omega
    refine hk.pages _ (hp hsame) ?_
    have h₁ := Config.lt_pageStart_pageId_succ (c := c) (x := tail)
    have h₂ := Config.pageStart_succ (c := c) (p := c.pageId tail + 1)
    omega
  | padding size tail =>
    obtain ⟨hz, hl, hp, hp', hle⟩ := h
    have hev := hpin tail rfl
    refine ⟨hz, (hs.lock hl).1, hk.page hev hp, hk.pages _ hp' ?_, hle.trans ht⟩
    have h₁ := Config.lt_pageStart_pageId_succ (c := c) (x := tail)
    have h₂ := Config.pageStart_succ (c := c) (p := c.pageId tail + 1)
    omega
  | encoding size addr =>
    obtain ⟨hp, hf, hle⟩ := h
    exact ⟨hk.page (hpin addr rfl) hp, hf, hle.trans ht⟩
  | checked => exact lt_of_lt_of_le h ht
  | reading addr => exact ⟨lt_of_lt_of_le h.1 ht, hk.page (hpin addr rfl) h.2⟩
  | registering b next =>
    refine ⟨hk.below h.1, ?_⟩
    cases next with
    | done => trivial
    | «seal» => exact le_trans h.2 hr
    | begin => exact le_trans h.2 hh
  | sealing => exact le_trans h hr
  | awaitGate => exact le_trans h hsr
  | copying job _ _ | writing job _ | finishing job _ => exact ⟨hs.gate h.1, h.2.trans hsr⟩
  | movingBegin => exact le_trans h hh
  | draining => exact le_trans h hb

/-- One step of thread `t`: the other threads keep what they know. -/
lemma Inv.next {e : Nat} (h : Inv c ev s) (hcore : Core c e s') (hk : Keeps c ev e s s')
    (hs : ∀ t' ≠ t, Spares s s' t') (htask : s'.task = Function.update s.task t k)
    (hok : TaskOk c e s' t k)
    (hr : Epoch.Guarded Border.headValue s'.epochs e (Task.readPin ∘ s'.task))
    (hw : Epoch.Guarded Border.value s'.epochs s'.safeReadOnly (Task.writePin ∘ s'.task)) :
    Inv c e s' where
  toCore := hcore
  readers := hr
  writers := hw
  tasks := by
    intro t'
    by_cases ht : t' = t
    · subst ht
      rw [htask, Function.update_self]
      exact hok
    · rw [htask, Function.update_of_ne ht]
      exact (h.tasks t').keep h.ev_le_tail (fun x hx => h.readers.safe_le hx) hk (hs t' ht)

end Wedb.Log
