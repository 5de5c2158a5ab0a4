import Mathlib.Algebra.Group.Nat.Defs
import Mathlib.Order.MinMax

/-!
# Pages, sectors and the addresses of the hybrid log

Logical addresses are divided into pages of a fixed size; page `p` occupies the frame
`p % numPages` of the circular buffer. The device rounds to sectors, whose size divides the page
size (`verify_compatible_sector_size`).
-/

namespace Wedb.Log

/-- The configuration of a hybrid log and of the device under it. `padHeader r` are the sixteen
bytes of the header that marks `r` unused bytes at the end of a page (`RecordHeader::pad`). -/
structure Config where
  pageSize : Nat
  numPages : Nat
  sectorSize : Nat
  directIo : Bool
  padHeader : Nat → Nat → UInt8
  pageSize_pos : 0 < pageSize
  two_le_numPages : 2 ≤ numPages
  sectorSize_pos : 0 < sectorSize
  sectorSize_dvd : sectorSize ∣ pageSize

/-- Two frames for pages of 4096 bytes. -/
def twoFrames : Config where
  pageSize := 4096
  numPages := 2
  sectorSize := 512
  directIo := false
  padHeader := fun _ _ => 0
  pageSize_pos := by decide
  two_le_numPages := by decide
  sectorSize_pos := by decide
  sectorSize_dvd := by decide

/-- The largest logical address, `ADDRESS_MASK`. -/
def addressMask : Nat := 2 ^ 48 - 1

/-- The size of a record header, `HEADER_SIZE`. -/
def headerSize : Nat := 16

namespace Config

variable (c : Config)

def pageId (x : Nat) : Nat := x / c.pageSize

def pageOffset (x : Nat) : Nat := x % c.pageSize

def pageStart (p : Nat) : Nat := p * c.pageSize

/-- The frame that carries page `p` (`page_idx`). -/
def pageIdx (p : Nat) : Nat := p % c.numPages

def alignDown (x : Nat) : Nat := x / c.sectorSize * c.sectorSize

def alignUp (x : Nat) : Nat := (x + c.sectorSize - 1) / c.sectorSize * c.sectorSize

variable {c} {p q x y : Nat}

lemma pageStart_succ : c.pageStart (p + 1) = c.pageStart p + c.pageSize := Nat.succ_mul _ _

lemma pageStart_mono (h : p ≤ q) : c.pageStart p ≤ c.pageStart q := Nat.mul_le_mul_right _ h

lemma pageStart_pageId_add : c.pageStart (c.pageId x) + c.pageOffset x = x :=
  Nat.div_add_mod' x c.pageSize

lemma pageStart_pageId_le : c.pageStart (c.pageId x) ≤ x := Nat.div_mul_le_self x c.pageSize

lemma pageOffset_lt : c.pageOffset x < c.pageSize := Nat.mod_lt _ c.pageSize_pos

lemma lt_pageStart_pageId_succ : x < c.pageStart (c.pageId x + 1) := by
  have h₁ := c.pageStart_pageId_add (x := x)
  have h₂ := c.pageOffset_lt (x := x)
  rw [pageStart_succ]
  omega

lemma pageStart_le_iff_le_pageId : c.pageStart p ≤ x ↔ p ≤ c.pageId x :=
  (Nat.le_div_iff_mul_le c.pageSize_pos).symm

lemma lt_pageStart_iff : x < c.pageStart p ↔ c.pageId x < p :=
  (Nat.div_lt_iff_lt_mul c.pageSize_pos).symm

lemma pageId_mono (h : x ≤ y) : c.pageId x ≤ c.pageId y := Nat.div_le_div_right h

lemma pageId_eq_of_bounds (h₁ : c.pageStart p ≤ x) (h₂ : x < c.pageStart (p + 1)) :
    c.pageId x = p := by
  have h₃ := pageStart_le_iff_le_pageId.mp h₁
  have h₄ := lt_pageStart_iff.mp h₂
  omega

@[simp] lemma pageId_pageStart : c.pageId (c.pageStart p) = p :=
  Nat.mul_div_cancel _ c.pageSize_pos

@[simp] lemma pageOffset_pageStart : c.pageOffset (c.pageStart p) = 0 := Nat.mul_mod_left _ _

/-- Where the tail is after a record that fits: still on the page, or at the start of the next. -/
lemma add_size_cases {size : Nat} (h : c.pageOffset x + size ≤ c.pageSize) :
    c.pageId (x + size) = c.pageId x ∨ c.pageOffset (x + size) = 0 := by
  have hx := c.pageStart_pageId_add (x := x)
  have hs := c.pageStart_succ (p := c.pageId x)
  rcases lt_or_ge (c.pageOffset x + size) c.pageSize with hlt | hge
  · exact .inl (pageId_eq_of_bounds (by omega) (by omega))
  · right
    rw [show x + size = c.pageStart (c.pageId x + 1) by omega]
    exact pageOffset_pageStart

/-- Two pages of one frame are a whole ring apart. -/
lemma add_numPages_le (h : c.pageIdx p = c.pageIdx q) (hlt : p < q) : p + c.numPages ≤ q := by
  have hd : c.numPages ∣ q - p := Nat.dvd_of_mod_eq_zero (Nat.sub_mod_eq_zero_of_mod_eq h.symm)
  have hle : c.numPages ≤ q - p := Nat.le_of_dvd (Nat.sub_pos_of_lt hlt) hd
  omega

lemma alignDown_le : c.alignDown x ≤ x := Nat.div_mul_le_self x c.sectorSize

lemma alignDown_mono (h : x ≤ y) : c.alignDown x ≤ c.alignDown y :=
  Nat.mul_le_mul_right _ (Nat.div_le_div_right h)

lemma le_alignUp : x ≤ c.alignUp x := by
  show x ≤ (x + c.sectorSize - 1) / c.sectorSize * c.sectorSize
  have h₁ := Nat.div_add_mod' (x + c.sectorSize - 1) c.sectorSize
  have h₂ := Nat.mod_lt (x + c.sectorSize - 1) c.sectorSize_pos
  omega

lemma alignDown_eq_self (h : c.sectorSize ∣ x) : c.alignDown x = x := Nat.div_mul_cancel h

/-- Rounding down to a sector stays on the page. -/
lemma pageStart_pageId_le_alignDown : c.pageStart (c.pageId x) ≤ c.alignDown x := by
  have hd : c.sectorSize ∣ c.pageStart (c.pageId x) := Nat.dvd_mul_left_of_dvd c.sectorSize_dvd _
  calc c.pageStart (c.pageId x)
      = c.alignDown (c.pageStart (c.pageId x)) := (alignDown_eq_self hd).symm
    _ ≤ c.alignDown x := Nat.mul_le_mul_right _ (Nat.div_le_div_right c.pageStart_pageId_le)

end Config

/-- The addresses of a log: those that `AddressManager` keeps and `AddressSnapshot` saves. -/
structure AddressSnapshot where
  tail : Nat
  readOnly : Nat
  safeReadOnly : Nat
  head : Nat
  safeHead : Nat
  begin : Nat
  flushedUntil : Nat
  deriving DecidableEq, Repr

namespace AddressSnapshot

/-- `AddressSnapshot::validate`. -/
def validate (a : AddressSnapshot) : Bool :=
  a.begin ≤ a.safeHead && a.safeHead ≤ a.head && a.head ≤ a.safeReadOnly &&
    a.safeReadOnly ≤ a.readOnly && a.readOnly ≤ a.tail && a.flushedUntil ≤ a.tail &&
    a.head ≤ a.flushedUntil

/-- `AddressManager::new`. -/
def new (initial : Nat) : AddressSnapshot :=
  ⟨initial, initial, initial, initial, initial, initial, initial⟩

/-- `AddressManager::shift_head_address`: the read-only border is never below the head. -/
def shiftHeadAddress (a : AddressSnapshot) (v : Nat) : AddressSnapshot :=
  { a with readOnly := max a.readOnly v, head := max a.head v }

/-- `AddressManager::shift_safe_head_address`. -/
def shiftSafeHeadAddress (a : AddressSnapshot) (v : Nat) : AddressSnapshot :=
  { a with safeReadOnly := max a.safeReadOnly v, safeHead := max a.safeHead v }

/-- The order of the addresses. -/
structure Ordered (a : AddressSnapshot) : Prop where
  begin_le : a.begin ≤ a.head
  safeHead_le : a.safeHead ≤ a.head
  head_le : a.head ≤ a.flushedUntil
  flushed_le : a.flushedUntil ≤ a.safeReadOnly
  safeReadOnly_le : a.safeReadOnly ≤ a.readOnly
  readOnly_le : a.readOnly ≤ a.tail

lemma Ordered.of_validate {a : AddressSnapshot} (h : a.validate)
    (hf : a.flushedUntil ≤ a.safeReadOnly) : a.Ordered := by
  simp only [validate, Bool.and_eq_true, decide_eq_true_eq] at h
  obtain ⟨⟨⟨⟨⟨⟨h₁, h₂⟩, h₃⟩, h₄⟩, h₅⟩, h₆⟩, h₇⟩ := h
  exact ⟨h₁.trans h₂, h₂, h₇, hf, h₄, h₅⟩

lemma Ordered.new (initial : Nat) : (AddressSnapshot.new initial).Ordered :=
  ⟨le_rfl, le_rfl, le_rfl, le_rfl, le_rfl, le_rfl⟩

end AddressSnapshot

end Wedb.Log
