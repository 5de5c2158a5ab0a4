import Wedb.Lib.Positional

/-!
# Strict integers

One scan reads an optional sign and the digits for every width. It accumulates in 64 bits and gives up at the
first digit with which the number does not fit. What has been read never shrinks, so it gives up exactly when the
whole number does not fit.
-/

namespace Wedb.Num

open List Positional

def isAsciiDigit (b : UInt8) : Bool := 48 ≤ b && b ≤ 57

/-- What `checked_mul` and `checked_add` make of a product or a sum. -/
def checked (n : Nat) : Option UInt64 := if n < 2 ^ 64 then some (.ofNat n) else none

/-- One turn of the loop of `scan_digits`. -/
def scanDigit (number : UInt64) (d : UInt8) : Option UInt64 :=
  if isAsciiDigit d then
    (checked (number.toNat * 10)).bind fun tens => checked (tens.toNat + (d - 48).toNat)
  else none

/-- The digits, and whether `-` stands before them. -/
def splitSign : List UInt8 → List UInt8 × Bool
  | 43 :: rest => (rest, false)
  | 45 :: rest => (rest, true)
  | rest => (rest, false)

def scanDigits (raw : List UInt8) : Option (UInt64 × Bool) :=
  let (digits, negative) := splitSign raw
  if digits = [] ∨ 1 < digits.length ∧ digits.head? = some 48 then none
  else (digits.foldlM scanDigit 0).map (·, negative)

/-- `i64::try_from`. -/
def tryFrom (number : UInt64) : Option Int64 :=
  if number.toNat < 2 ^ 63 then some (.ofNat number.toNat) else none

def strictI64 (raw : List UInt8) : Option Int64 :=
  (scanDigits raw).bind fun (number, negative) =>
    if negative then
      if number.toNat = 2 ^ 63 then some Int64.minValue else (tryFrom number).map (-·)
    else tryFrom number

def strictU64 (raw : List UInt8) : Option UInt64 :=
  (scanDigits raw).bind fun (number, negative) => if !negative || number = 0 then some number else none

/-! ### The grammar -/

/-- Digits that do not start with a zero, or the zero. -/
structure Numeral (digits : List UInt8) : Prop where
  ne_nil : digits ≠ []
  zero : ¬(1 < digits.length ∧ digits.head? = some 48)
  isDigit : ∀ d ∈ digits, isAsciiDigit d

def magnitude (digits : List UInt8) : Nat := value 10 0 (digits.map fun d => (d - 48).toNat)

inductive Denotes : List UInt8 → Int → Prop
  | unsigned {digits : List UInt8} : Numeral digits → Denotes digits (magnitude digits)
  | plus {digits : List UInt8} : Numeral digits → Denotes (43 :: digits) (magnitude digits)
  | minus {digits : List UInt8} : Numeral digits → Denotes (45 :: digits) (-magnitude digits)

variable {raw digits : List UInt8} {n : Int} {number : UInt64} {negative : Bool}

lemma splitSign_of_numeral (h : Numeral digits) : splitSign digits = (digits, false) := by
  obtain ⟨d, ds, rfl⟩ := exists_cons_of_ne_nil h.ne_nil
  -- a sign is no digit
  have hdigit := h.isDigit d mem_cons_self
  rw [splitSign] <;> rintro _ ⟨⟩ <;> cases hdigit

/-- A text is read in one way only. -/
lemma denotes_iff : Denotes raw n ↔ Numeral (splitSign raw).1 ∧
    n = if (splitSign raw).2 then -(magnitude (splitSign raw).1 : Int) else magnitude (splitSign raw).1 := by
  constructor
  · rintro (h | h | h)
    · rw [splitSign_of_numeral h]
      exact ⟨h, rfl⟩
    · exact ⟨h, rfl⟩
    · exact ⟨h, rfl⟩
  · fun_cases splitSign raw <;> rintro ⟨h, rfl⟩
    · exact .plus h
    · exact .minus h
    · exact .unsigned h

/-! ### The scan -/

lemma exists_toNat_eq {m : Nat} (h : m < 2 ^ 64) : ∃ r : UInt64, m = r.toNat :=
  ⟨.ofNat m, (UInt64.toNat_ofNat_of_lt' h).symm⟩

lemma checked_eq_some {m : Nat} {r : UInt64} : checked m = some r ↔ m = r.toNat := by
  rw [checked, Option.ite_none_right_eq_some]
  constructor
  · rintro ⟨hlt, ⟨⟩⟩
    exact (UInt64.toNat_ofNat_of_lt' hlt).symm
  · rintro rfl
    exact ⟨r.toNat_lt, by rw [UInt64.ofNat_toNat]⟩

lemma bind_checked (a b : Nat) : ((checked a).bind fun m => checked (m.toNat + b)) = checked (a + b) := by
  unfold checked
  split
  · next ha => rw [Option.bind_some, UInt64.toNat_ofNat_of_lt' ha]
  · rw [Option.bind_none, if_neg (by omega)]

lemma le_value (acc : Nat) (ds : List Nat) : acc ≤ value 10 acc ds := by
  induction ds generalizing acc with
  | nil => exact le_rfl
  | cons d ds ih => exact le_trans (by omega) (ih (acc * 10 + d))

lemma foldlM_scanDigit {r : UInt64} : digits.foldlM scanDigit number = some r ↔
    (∀ d ∈ digits, isAsciiDigit d) ∧ value 10 number.toNat (digits.map fun d => (d - 48).toNat) = r.toNat := by
  induction digits generalizing number with
  | nil => simp [value, UInt64.toNat_inj]
  | cons d ds ih =>
    simp only [foldlM_cons, Option.bind_eq_bind, Option.bind_eq_some_iff, scanDigit, Option.ite_none_right_eq_some,
      bind_checked, checked_eq_some, ih, forall_mem_cons]
    constructor
    · rintro ⟨m, ⟨hd, hm⟩, hds, hvalue⟩
      exact ⟨⟨hd, hds⟩, by rwa [← hm] at hvalue⟩
    · rintro ⟨⟨hd, hds⟩, hvalue⟩
      -- the digits that are left do not make the number smaller
      have hle : number.toNat * 10 + (d - 48).toNat ≤ r.toNat := (le_value _ _).trans_eq hvalue
      obtain ⟨m, hm⟩ := exists_toNat_eq (hle.trans_lt r.toNat_lt)
      exact ⟨m, ⟨hd, hm⟩, hds, by rwa [← hm]⟩

lemma scanDigits_eq_some : scanDigits raw = some (number, negative) ↔ Numeral (splitSign raw).1 ∧
    magnitude (splitSign raw).1 = number.toNat ∧ (splitSign raw).2 = negative := by
  simp only [scanDigits, Option.ite_none_left_eq_some, not_or, Option.map_eq_some_iff, foldlM_scanDigit, Prod.mk.injEq]
  constructor
  · rintro ⟨⟨hne, hzero⟩, _, ⟨hall, hvalue⟩, rfl, rfl⟩
    exact ⟨⟨hne, hzero, hall⟩, hvalue, rfl⟩
  · rintro ⟨⟨hne, hzero, hall⟩, hvalue, rfl⟩
    exact ⟨⟨hne, hzero⟩, number, ⟨hall, hvalue⟩, rfl, rfl⟩

/-- A parser that takes the scanned number when its signed value is a value of the width. -/
lemma bind_scanDigits {α : Type} {f : UInt64 × Bool → Option α} {v : α} (toInt : α → Int)
    (hf : ∀ number negative, f (number, negative) = some v ↔
      toInt v = if negative then -(number.toNat : Int) else number.toNat)
    (hwidth : |toInt v| < 2 ^ 64) : (scanDigits raw).bind f = some v ↔ Denotes raw (toInt v) := by
  rw [Option.bind_eq_some_iff, denotes_iff]
  constructor
  · rintro ⟨⟨number, negative⟩, hscan, h⟩
    obtain ⟨hnumeral, hmagnitude, rfl⟩ := scanDigits_eq_some.1 hscan
    exact ⟨hnumeral, by rw [(hf _ _).1 h, hmagnitude]⟩
  · rintro ⟨hnumeral, hv⟩
    obtain ⟨number, hnumber⟩ := exists_toNat_eq (m := magnitude (splitSign raw).1) (by
      rw [abs_lt] at hwidth
      split at hv <;> omega)
    exact ⟨_, scanDigits_eq_some.2 ⟨hnumeral, hnumber, rfl⟩, (hf _ _).2 (by rw [hv, hnumber])⟩

lemma tryFrom_eq_some {v : Int64} : tryFrom number = some v ↔ v.toInt = number.toNat := by
  rw [tryFrom, Option.ite_none_right_eq_some]
  constructor
  · rintro ⟨hlt, ⟨⟩⟩
    exact Int64.toInt_ofNat_of_lt hlt
  · intro hv
    have hlt : number.toNat < 2 ^ 63 := by
      have := v.toInt_lt
      omega
    exact ⟨hlt, congrArg some (Int64.toInt_inj.1 (by rw [Int64.toInt_ofNat_of_lt hlt, hv]))⟩

/-- Only the smallest number has no negative. -/
lemma toInt_neg {v : Int64} (h : v.toInt ≠ -2 ^ 63) : (-v).toInt = -v.toInt := by
  have hle := v.le_toInt
  have hlt := v.toInt_lt
  rw [Int64.toInt_neg]
  exact Int.bmod_eq_of_le (by omega) (by omega)

lemma strictI64_eq_some (v : Int64) : strictI64 raw = some v ↔ Denotes raw v.toInt := by
  have hle := v.le_toInt
  have hlt := v.toInt_lt
  refine bind_scanDigits Int64.toInt (fun number negative => ?_) (abs_lt.2 (by omega))
  cases negative
  · exact tryFrom_eq_some
  dsimp only
  rw [if_pos rfl, if_pos rfl]
  split
  · next hnumber =>
    rw [hnumber, Option.some.injEq, ← Int64.toInt_inj, Int64.toInt_minValue, eq_comm]
    rfl
  · next hnumber =>
    simp only [Option.map_eq_some_iff, tryFrom_eq_some]
    constructor
    · rintro ⟨w, hw, rfl⟩
      rw [toInt_neg (by omega), hw]
    · intro hv
      exact ⟨-v, by rw [toInt_neg (by omega), hv, neg_neg], Int64.neg_neg⟩

lemma strictU64_eq_some (v : UInt64) : strictU64 raw = some v ↔ Denotes raw v.toNat := by
  have hlt := v.toNat_lt
  refine bind_scanDigits (fun v : UInt64 => v.toNat) (fun number negative => ?_) (abs_lt.2 (by omega))
  dsimp only
  cases negative
  · simp [← UInt64.toNat_inj, eq_comm]
  · simp only [Bool.not_true, Bool.false_or, decide_eq_true_eq, Option.ite_none_right_eq_some, if_true]
    constructor
    · rintro ⟨rfl, ⟨⟩⟩
      rfl
    · intro hv
      exact ⟨UInt64.toNat_inj.1 (by simp; omega), congrArg some (UInt64.toNat_inj.1 (by omega))⟩

/-- Both parsers accept exactly the numbers of their width in the grammar, and read them as they are. -/
theorem strict_exact (raw : List UInt8) :
    (∀ v, strictI64 raw = some v ↔ Denotes raw v.toInt) ∧
    (∀ v, strictU64 raw = some v ↔ Denotes raw v.toNat) ∧
    (∀ v w, strictI64 raw = some v → strictU64 raw = some w → v.toInt = w.toNat) ∧
    ∀ n < 2 ^ 63, strictI64 raw = some (.ofNat n) ↔ strictU64 raw = some (.ofNat n) := by
  refine ⟨strictI64_eq_some, strictU64_eq_some, fun v w hv hw => ?_, fun n hn => ?_⟩
  · rw [(denotes_iff.1 ((strictI64_eq_some v).1 hv)).2, ← (denotes_iff.1 ((strictU64_eq_some w).1 hw)).2]
  · rw [strictI64_eq_some, strictU64_eq_some, Int64.toInt_ofNat_of_lt hn, UInt64.toNat_ofNat_of_lt' (hn.trans (by decide))]

end Wedb.Num
