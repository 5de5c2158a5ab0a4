import Wedb.Log.Steps

/-!
# What the frames of the buffer hold

A page may take a frame once everything below `minEvictedAddr` is evicted, that is below a border
`ev` that no thread inside an epoch works under. Pages above `ev` then keep their frames, and
the bytes of a frame above the tail are zero.
-/

namespace Wedb.Log

variable {c : Config} {ev tail p q k : Nat} {f : Frames}

/-- The page that used the frame of page `p` one ring before lies below `ev`. -/
def Reusable (c : Config) (ev p : Nat) : Prop := c.numPages ≤ p → State.minEvictedAddr c p ≤ ev

lemma Reusable.mono {ev' : Nat} (h : Reusable c ev p) (hle : ev ≤ ev') : Reusable c ev' p :=
  fun hp => (h hp).trans hle

/-- The frame holds no page. -/
def Frames.Blank (f : Frames) (k : Nat) : Prop := ∀ q, (f k).label ≠ .page q

open Frames

structure FramesOk (c : Config) (ev tail : Nat) (f : Frames) : Prop where
  label : ∀ {k q}, (f k).label = .page q → k = c.pageIdx q ∧ Reusable c ev q
  zero : ∀ {k q i}, (f k).label = .page q → i < c.pageSize → tail ≤ c.pageStart q + i →
    (f k).bytes i = 0
  claimed : ∀ {k i}, (f k).label = .claimed → (f k).bytes i = 0

variable {f' : Frames} {addr : Nat}

namespace FramesOk

section

variable (h : FramesOk c ev tail f)
include h

lemma mono {ev' tail' : Nat} (hev : ev ≤ ev') (htail : tail ≤ tail') : FramesOk c ev' tail' f where
  label hl := ⟨(h.label hl).1, (h.label hl).2.mono hev⟩
  zero hl hi ht := h.zero hl hi (htail.trans ht)
  claimed := h.claimed

/-- Two pages above `ev` that may both use a frame do not share it, unless they are the same. -/
lemma pageIdx_ne (hq : f.IsPageLoaded c q)
    (hqev : ev < c.pageStart (q + 1)) (hp : Reusable c ev p) (hpev : ev < c.pageStart (p + 1))
    (hne : ¬ f.IsPageLoaded c p) : c.pageIdx q ≠ c.pageIdx p := by
  intro he
  rcases lt_trichotomy q p with hlt | rfl | hlt
  · have hle := Config.add_numPages_le he hlt
    have hmin : c.pageStart (p - c.numPages + 1) ≤ ev := hp (by omega)
    have hpage : c.pageStart (q + 1) ≤ c.pageStart (p - c.numPages + 1) :=
      Config.pageStart_mono (by omega)
    omega
  · exact hne hq
  · have hle := Config.add_numPages_le he.symm hlt
    have hmin : c.pageStart (q - c.numPages + 1) ≤ ev := (h.label hq).2 (by omega)
    have hpage : c.pageStart (p + 1) ≤ c.pageStart (q - c.numPages + 1) :=
      Config.pageStart_mono (by omega)
    omega

lemma invalidate (p : Nat) : FramesOk c ev tail (f.invalidate c p) := by
  have hlabel : ∀ {k l}, (f.invalidate c p k).label = l → l ≠ .invalid → (f k).label = l := by
    intro k l hl hne
    rw [label_invalidate] at hl
    by_cases hk : k = c.pageIdx p
    · rw [if_pos hk] at hl
      exact absurd hl.symm hne
    · rwa [if_neg hk] at hl
  refine ⟨fun hl => h.label (hlabel hl nofun), fun hl hi ht => ?_, fun hl => ?_⟩
  · rw [bytes_invalidate]
    exact h.zero (hlabel hl nofun) hi ht
  · rw [bytes_invalidate]
    exact h.claimed (hlabel hl nofun)

/-- A frame that changes is zeroed, and a page that it takes may use it. -/
lemma of_zeroed (hf : ∀ k, f' k = f k ∨ (∀ i, (f' k).bytes i = 0) ∧
      ∀ q, (f' k).label = .page q → k = c.pageIdx q ∧ Reusable c ev q) : FramesOk c ev tail f' where
  label hl := by
    rcases hf _ with he | ⟨-, hpage⟩
    · rw [he] at hl
      exact h.label hl
    · exact hpage _ hl
  zero hl hi ht := by
    rcases hf _ with he | ⟨hzero, -⟩
    · rw [he] at hl ⊢
      exact h.zero hl hi ht
    · exact hzero _
  claimed hl := by
    rcases hf _ with he | ⟨hzero, -⟩
    · rw [he] at hl ⊢
      exact h.claimed hl
    · exact hzero _

lemma fill (hp : Reusable c ev p) : FramesOk c ev tail (f.fillFromOffset c p 0) := by
  refine h.of_zeroed fun k => ?_
  by_cases hk : k = c.pageIdx p
  · subst hk
    rw [fillFromOffset_self]
    exact .inr ⟨by simp, by rintro q ⟨⟩; exact ⟨rfl, hp⟩⟩
  · exact .inl (fillFromOffset_of_ne hk)

lemma preclear (p : Nat) : FramesOk c ev tail (f.preclearPage c p) := by
  refine h.of_zeroed fun k => preclearPage_cases.imp_right ?_
  rintro ⟨-, he, -⟩
  rw [he]
  exact ⟨fun _ => rfl, nofun⟩

lemma sealPage (hp : Reusable c ev p) : FramesOk c ev tail (f.sealPage c p) := by
  refine h.of_zeroed fun k => sealPage_cases.imp_right ?_
  rintro ⟨hk, -, he, hbytes⟩
  refine ⟨fun i => ?_, fun q hl => ?_⟩
  · rcases hbytes with ⟨hc, hb⟩ | hb <;> rw [hb]
    exact h.claimed hc
  · rw [he] at hl
    cases hl
    exact ⟨hk, hp⟩

/-- Bytes change only below the tail and on a frame that holds its page. -/
lemma of_bytes
    (hl : ∀ k, (f' k).label = (f k).label) (hp : f.IsPageLoaded c (c.pageId addr))
    (hb : ∀ k i, (k ≠ c.pageIdx (c.pageId addr) ∨ tail ≤ c.pageStart (c.pageId addr) + i) →
      i < c.pageSize → (f' k).bytes i = (f k).bytes i)
    (hc : ∀ k i, k ≠ c.pageIdx (c.pageId addr) → (f' k).bytes i = (f k).bytes i) :
    FramesOk c ev tail f' where
  label := by
    intro k q hl'
    rw [hl k] at hl'
    exact h.label hl'
  zero := by
    intro k q i hl' hi ht
    rw [hl k] at hl'
    rw [hb k i _ hi]
    · exact h.zero hl' hi ht
    · by_cases hk : k = c.pageIdx (c.pageId addr)
      · rw [hk, hp] at hl'
        cases hl'
        exact .inr ht
      · exact .inl hk
  claimed := by
    intro k i hl'
    rw [hl k] at hl'
    rw [hc k i]
    · exact h.claimed hl'
    · rintro rfl
      rw [hp] at hl'
      cases hl'

lemma write {size : Nat} {bytes : Nat → UInt8}
    (hp : f.IsPageLoaded c (c.pageId addr)) (hs : addr + size ≤ tail) :
    FramesOk c ev tail (f.write c addr size bytes) := by
  have ha := c.pageStart_pageId_add (x := addr)
  apply h.of_bytes (fun _ => label_write) hp
  · intro k i hk _
    exact bytes_write_of_ne (by omega)
  · intro k i hk
    exact bytes_write_of_ne (.inl hk)

lemma writePadTail {remaining : Nat}
    (hp : f.IsPageLoaded c (c.pageId addr)) (hs : addr + remaining ≤ tail) :
    FramesOk c ev tail (f.writePadTail c addr remaining) := by
  have ha := c.pageStart_pageId_add (x := addr)
  apply h.of_bytes (fun _ => label_writePadTail) hp
  · intro k i hk _
    exact bytes_writePadTail_of_ne (by omega)
  · intro k i hk
    exact bytes_writePadTail_of_ne (.inl hk)

end

end FramesOk

/-! ## Pages above `ev` keep their frames -/

/-- Every page above `ev` that `f` holds, `f'` holds too. -/
def KeepsPages (c : Config) (ev : Nat) (f f' : Frames) : Prop :=
  ∀ q, f.IsPageLoaded c q → ev < c.pageStart (q + 1) → f'.IsPageLoaded c q

/-- The frames of the pages above `ev` are the same in `f` and `f'`. -/
def KeepsFrames (c : Config) (ev : Nat) (f f' : Frames) : Prop :=
  ∀ q, f.IsPageLoaded c q → ev < c.pageStart (q + 1) → f' (c.pageIdx q) = f (c.pageIdx q)

lemma KeepsPages.of_label (h : ∀ k, (f' k).label = (f k).label) : KeepsPages c ev f f' :=
  fun q hq _ => (h (c.pageIdx q)).trans hq

lemma KeepsPages.refl : KeepsPages c ev f f := fun _ hq _ => hq

namespace KeepsFrames

lemma pages (h : KeepsFrames c ev f f') : KeepsPages c ev f f' := by
  intro q hq hqev
  rw [IsPageLoaded, h q hq hqev]
  exact hq

lemma byteAt {x : Nat} (h : KeepsFrames c ev f f')
    (hl : f.IsPageLoaded c (c.pageId x)) (hev : ev < c.pageStart (c.pageId x + 1)) :
    f'.byteAt c x = f.byteAt c x := by
  rw [Frames.byteAt, h _ hl hev]
  rfl

lemma refl : KeepsFrames c ev f f := fun _ _ _ => rfl

lemma invalidate (h : FramesOk c ev tail f) (hp : Reusable c ev p)
    (hpev : ev < c.pageStart (p + 1)) (hne : ¬ f.IsPageLoaded c p) :
    KeepsFrames c ev f (f.invalidate c p) := by
  intro q hq hqev
  exact Function.update_of_ne (h.pageIdx_ne hq hqev hp hpev hne) _ _

lemma preclear (hp : Reusable c ev p) : KeepsFrames c ev f (f.preclearPage c p) := by
  intro q hq hqev
  rcases preclearPage_cases with
    he | ⟨-, -, hl | ⟨hle, hl⟩⟩
  · exact he
  · rw [hq] at hl
    cases hl
  · rw [hq] at hl
    cases hl
    exact absurd (hp hle) (not_le_of_gt hqev)

lemma sealPage (h : FramesOk c ev tail f) (hp : Reusable c ev p)
    (hpev : ev < c.pageStart (p + 1)) : KeepsFrames c ev f (f.sealPage c p) := by
  intro q hq hqev
  rcases sealPage_cases with
    he | ⟨hk, hl, -, -⟩
  · exact he
  · refine absurd hk (h.pageIdx_ne hq hqev hp hpev ?_)
    intro hp'
    rw [hk] at hl
    exact hl hp'

/-- Filling a frame that holds no page takes none away. -/
lemma fill {offset : Nat} (hb : f.Blank (c.pageIdx p)) :
    KeepsFrames c ev f (f.fillFromOffset c p offset) := by
  intro q hq _
  apply fillFromOffset_of_ne
  intro he
  rw [IsPageLoaded, he] at hq
  exact hb q hq

end KeepsFrames

end Wedb.Log
