import Wedb.Log.Geometry

/-!
# The circular page buffer

A frame carries a label beside its bytes: the page it holds, nothing (`INVALID_PAGE_ID`), or the
claim of a page turn that has cleared the frame ahead of its page (`CLAIMED_PAGE_ID`).
-/

namespace Wedb.Log

open Function

inductive Label where
  | invalid
  | claimed
  | page (id : Nat)
  deriving DecidableEq, Repr

structure Frame where
  label : Label
  bytes : Nat → UInt8

abbrev Frames := Nat → Frame

namespace Frames

variable (c : Config)

/-- `is_page_loaded`. -/
def IsPageLoaded (f : Frames) (p : Nat) : Prop := (f (c.pageIdx p)).label = .page p

instance (f : Frames) (p : Nat) : Decidable (f.IsPageLoaded c p) :=
  inferInstanceAs (Decidable ((f (c.pageIdx p)).label = .page p))

/-- The byte that the buffer has for address `x`, whatever page its frame holds. -/
def byteAt (f : Frames) (x : Nat) : UInt8 := (f (c.pageIdx (c.pageId x))).bytes (c.pageOffset x)

/-- The first half of `clear_page_from_offset`: the label is withdrawn before the page lock. -/
def invalidate (f : Frames) (p : Nat) : Frames :=
  update f (c.pageIdx p) { f (c.pageIdx p) with label := .invalid }

/-- The second half of `clear_page_from_offset`: under the page lock the bytes from `offset` on are
zeroed and the label is set. -/
def fillFromOffset (f : Frames) (p offset : Nat) : Frames :=
  update f (c.pageIdx p) ⟨.page p, fun i => if offset ≤ i then 0 else (f (c.pageIdx p)).bytes i⟩

/-- `preclear_page`: only a frame without page or with the page one ring before is claimed. -/
def preclearPage (f : Frames) (p : Nat) : Frames :=
  if (f (c.pageIdx p)).label = .invalid ∨
      c.numPages ≤ p ∧ (f (c.pageIdx p)).label = .page (p - c.numPages) then
    update f (c.pageIdx p) ⟨.claimed, fun _ => 0⟩
  else f

/-- `seal_page`: a claimed frame is already zero. -/
def sealPage (f : Frames) (p : Nat) : Frames :=
  if (f (c.pageIdx p)).label = .page p then f
  else if (f (c.pageIdx p)).label = .claimed then
    update f (c.pageIdx p) { f (c.pageIdx p) with label := .page p }
  else update f (c.pageIdx p) ⟨.page p, fun _ => 0⟩

/-- `load_page`, with `data` already extended by zeros. -/
def loadPage (f : Frames) (p : Nat) (data : Nat → UInt8) : Frames :=
  update f (c.pageIdx p) ⟨.page p, data⟩

/-- Raw writes of `size` bytes at address `addr`, on the frame of its page. -/
def write (f : Frames) (addr size : Nat) (bytes : Nat → UInt8) : Frames :=
  update f (c.pageIdx (c.pageId addr))
    { f (c.pageIdx (c.pageId addr)) with
      bytes := fun i =>
        if c.pageOffset addr ≤ i ∧ i < c.pageOffset addr + size then bytes (i - c.pageOffset addr)
        else (f (c.pageIdx (c.pageId addr))).bytes i }

/-- `write_pad_tail`: the header of a pad, or `0xFF` bytes where no header fits. -/
def writePadTail (f : Frames) (addr remaining : Nat) : Frames :=
  if headerSize ≤ remaining then f.write c addr headerSize (c.padHeader remaining)
  else f.write c addr remaining fun _ => 0xFF

variable {c} {f : Frames} {p q k : Nat}

variable {addr size : Nat} {bytes : Nat → UInt8}

lemma label_write : (f.write c addr size bytes k).label = (f k).label := by
  by_cases h : k = c.pageIdx (c.pageId addr)
  · subst h
    simp only [write, update_self]
  · simp only [write, update_of_ne h]

variable {remaining : Nat}

lemma label_writePadTail : (f.writePadTail c addr remaining k).label = (f k).label := by
  by_cases h : headerSize ≤ remaining
  · rw [writePadTail, if_pos h, label_write]
  · rw [writePadTail, if_neg h, label_write]

/-- A raw write inside one page changes only bytes of its range. -/
lemma bytes_write_of_ne {i : Nat}
    (h : k ≠ c.pageIdx (c.pageId addr) ∨ i < c.pageOffset addr ∨ c.pageOffset addr + size ≤ i) :
    (f.write c addr size bytes k).bytes i = (f k).bytes i := by
  by_cases hk : k = c.pageIdx (c.pageId addr)
  · subst hk
    simp only [write, update_self]
    exact if_neg fun hi => by omega
  · simp only [write, update_of_ne hk]

lemma bytes_writePadTail_of_ne {i : Nat}
    (h : k ≠ c.pageIdx (c.pageId addr) ∨ i < c.pageOffset addr ∨
      c.pageOffset addr + remaining ≤ i) :
    (f.writePadTail c addr remaining k).bytes i = (f k).bytes i := by
  by_cases hr : headerSize ≤ remaining
  · rw [writePadTail, if_pos hr]
    exact bytes_write_of_ne (by omega)
  · rw [writePadTail, if_neg hr]
    exact bytes_write_of_ne h

lemma byteAt_write {x : Nat} (hp : c.pageId x = c.pageId addr)
    (h₁ : addr ≤ x) (h₂ : x < addr + size) :
    (f.write c addr size bytes).byteAt c x = bytes (x - addr) := by
  have hx := c.pageStart_pageId_add (x := x)
  have ha := c.pageStart_pageId_add (x := addr)
  rw [hp] at hx
  simp only [byteAt, write, hp, update_self]
  rw [if_pos (by omega)]
  congr 1
  omega

/-- A write into a loaded page leaves the bytes of loaded pages outside its range. -/
lemma byteAt_write_of_not_mem {x : Nat}
    (hx : f.IsPageLoaded c (c.pageId x)) (ha : f.IsPageLoaded c (c.pageId addr))
    (hne : ¬ (addr ≤ x ∧ x < addr + size)) :
    (f.write c addr size bytes).byteAt c x = f.byteAt c x := by
  apply bytes_write_of_ne
  by_cases hk : c.pageIdx (c.pageId x) = c.pageIdx (c.pageId addr)
  · have hp : c.pageId x = c.pageId addr := by
      rw [IsPageLoaded, hk, ha] at hx
      exact (Label.page.inj hx).symm
    have hx' := c.pageStart_pageId_add (x := x)
    have ha' := c.pageStart_pageId_add (x := addr)
    rw [hp] at hx'
    omega
  · exact .inl hk

lemma byteAt_writePadTail_of_not_mem {x : Nat}
    (hx : f.IsPageLoaded c (c.pageId x)) (ha : f.IsPageLoaded c (c.pageId addr))
    (hne : ¬ (addr ≤ x ∧ x < addr + remaining)) :
    (f.writePadTail c addr remaining).byteAt c x = f.byteAt c x := by
  by_cases hr : headerSize ≤ remaining
  · rw [writePadTail, if_pos hr]
    exact byteAt_write_of_not_mem hx ha (by omega)
  · rw [writePadTail, if_neg hr]
    exact byteAt_write_of_not_mem hx ha hne

lemma label_invalidate :
    (f.invalidate c p k).label = if k = c.pageIdx p then .invalid else (f k).label := by
  by_cases h : k = c.pageIdx p
  · rw [if_pos h, h, invalidate, update_self]
  · rw [if_neg h, invalidate, update_of_ne h]

lemma bytes_invalidate : (f.invalidate c p k).bytes = (f k).bytes := by
  by_cases h : k = c.pageIdx p
  · rw [h, invalidate, update_self]
  · rw [invalidate, update_of_ne h]

lemma fillFromOffset_of_ne {offset : Nat} (h : k ≠ c.pageIdx p) :
    f.fillFromOffset c p offset k = f k :=
  update_of_ne h _ _

@[simp] lemma fillFromOffset_self {offset : Nat} :
    f.fillFromOffset c p offset (c.pageIdx p) =
      ⟨.page p, fun i => if offset ≤ i then 0 else (f (c.pageIdx p)).bytes i⟩ :=
  update_self _ _ _

/-- What pre-clearing can do to a frame. -/
lemma preclearPage_cases :
    f.preclearPage c p k = f k ∨
      k = c.pageIdx p ∧ f.preclearPage c p k = ⟨.claimed, fun _ => 0⟩ ∧
        ((f k).label = .invalid ∨ c.numPages ≤ p ∧ (f k).label = .page (p - c.numPages)) := by
  by_cases h : (f (c.pageIdx p)).label = .invalid ∨
      c.numPages ≤ p ∧ (f (c.pageIdx p)).label = .page (p - c.numPages)
  · by_cases hk : k = c.pageIdx p
    · subst hk
      exact .inr ⟨rfl, by rw [preclearPage, if_pos h, update_self], h⟩
    · exact .inl (by rw [preclearPage, if_pos h, update_of_ne hk])
  · exact .inl (by rw [preclearPage, if_neg h])

/-- What sealing can do to a frame. -/
lemma sealPage_cases :
    f.sealPage c p k = f k ∨
      k = c.pageIdx p ∧ (f k).label ≠ .page p ∧ (f.sealPage c p k).label = .page p ∧
        ((f k).label = .claimed ∧ (f.sealPage c p k).bytes = (f k).bytes ∨
          (f.sealPage c p k).bytes = fun _ => 0) := by
  by_cases h : (f (c.pageIdx p)).label = .page p
  · exact .inl (by rw [sealPage, if_pos h])
  · by_cases hk : k = c.pageIdx p
    · subst hk
      refine .inr ⟨rfl, h, ?_⟩
      by_cases hc : (f (c.pageIdx p)).label = .claimed
      · rw [sealPage, if_neg h, if_pos hc, update_self]
        exact ⟨rfl, .inl ⟨hc, rfl⟩⟩
      · rw [sealPage, if_neg h, if_neg hc, update_self]
        exact ⟨rfl, .inr rfl⟩
    · refine .inl ?_
      by_cases hc : (f (c.pageIdx p)).label = .claimed
      · rw [sealPage, if_neg h, if_pos hc, update_of_ne hk]
      · rw [sealPage, if_neg h, if_neg hc, update_of_ne hk]

lemma isPageLoaded_sealPage : (f.sealPage c p).IsPageLoaded c p := by
  rcases sealPage_cases with h | ⟨-, -, h, -⟩
  · by_cases hl : (f (c.pageIdx p)).label = .page p
    · rw [IsPageLoaded, h]
      exact hl
    · by_cases hc : (f (c.pageIdx p)).label = .claimed
      · rw [IsPageLoaded, sealPage, if_neg hl, if_pos hc, update_self]
      · rw [IsPageLoaded, sealPage, if_neg hl, if_neg hc, update_self]
  · exact h

end Frames

end Wedb.Log
