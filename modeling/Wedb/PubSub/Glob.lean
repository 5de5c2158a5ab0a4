import Mathlib.Data.List.Infix

/-!
# Glob matching

The matcher walks a pattern and a target with two cursors and remembers the last star: on a mismatch it goes
back to it and lets the star take one byte more. A cursor is kept here as what it has not passed yet.

Bytes of the pattern that are no metacharacter are matched as they are. At the front of a pattern, where no
star has been seen, a mismatch ends the search; so a target matches only when it starts with them, and what
follows is matched as if they were not there.
-/

namespace Wedb.Glob

open List

def star : UInt8 := 42      -- `*`
def question : UInt8 := 63  -- `?`
def openBracket : UInt8 := 91
def backslash : UInt8 := 92
def closeBracket : UInt8 := 93
def caret : UInt8 := 94
def dash : UInt8 := 45

def toAsciiLowercase (b : UInt8) : UInt8 := if 65 ≤ b ∧ b ≤ 90 then b + 32 else b

def byteEq (a b : UInt8) (ignoreCase : Bool) : Bool :=
  if ignoreCase then toAsciiLowercase a == toAsciiLowercase b else a == b

/-- The endpoints are swapped before they are lowered, as the source does it. -/
def inRange (ch low high : UInt8) (ignoreCase : Bool) : Bool :=
  let (low, high) := if low ≤ high then (low, high) else (high, low)
  if ignoreCase then
    let ch := toAsciiLowercase ch
    toAsciiLowercase low ≤ ch && ch ≤ toAsciiLowercase high
  else
    ch - low ≤ high - low

/-- The loop of `match_bracket` from index `i`: whether a member matched, and where it stopped. -/
def bracketLoop (pat : List UInt8) (targetByte : UInt8) (ignoreCase : Bool) (i : Nat)
    (matched : Bool) : Bool × Nat :=
  if i < pat.length ∧ pat.getD i 0 ≠ closeBracket then
    if pat.getD i 0 = backslash ∧ i + 1 < pat.length then
      -- an escaped byte is compared as it is, also when case is ignored
      bracketLoop pat targetByte ignoreCase (i + 2) (matched || pat.getD (i + 1) 0 == targetByte)
    else if 3 ≤ pat.length - i ∧ pat.getD (i + 1) 0 = dash then
      bracketLoop pat targetByte ignoreCase (i + 3)
        (matched || inRange targetByte (pat.getD i 0) (pat.getD (i + 2) 0) ignoreCase)
    else
      bracketLoop pat targetByte ignoreCase (i + 1)
        (matched || byteEq (pat.getD i 0) targetByte ignoreCase)
  else
    (matched, i)
termination_by pat.length - i

/-- Matches a set `[...]` at the front of `pat`: the verdict and how many bytes of `pat` it takes. A set that
is not closed takes all of them. -/
def matchBracket (pat : List UInt8) (targetByte : UInt8) (ignoreCase : Bool) : Bool × Nat :=
  let invert := decide (1 < pat.length) && pat.getD 1 0 == caret
  let (matched, i) := bracketLoop pat targetByte ignoreCase (if invert then 2 else 1) false
  (matched != invert, if pat.length ≤ i then pat.length else i + 1)

/-- One turn of the matcher at a pattern that does not start with a star: what is left of the pattern when its
first item takes the byte `b`. -/
def matchItem (ignoreCase : Bool) (pat : List UInt8) (b : UInt8) : Option (List UInt8) :=
  match pat with
  | [] => none
  | c :: rest =>
    if c = question then
      some rest
    else if c = openBracket then
      if (matchBracket pat b ignoreCase).1 then some (pat.drop (matchBracket pat b ignoreCase).2)
      else none
    else if c = backslash then
      match rest with
      | [] => if byteEq backslash b ignoreCase then some [] else none
      | escaped :: rest => if byteEq escaped b ignoreCase then some rest else none
    else
      if byteEq c b ignoreCase then some rest else none

lemma one_le_consumed {pat : List UInt8} (h : pat ≠ []) (b : UInt8) (ignoreCase : Bool) :
    1 ≤ (matchBracket pat b ignoreCase).2 := by
  have hlen : 0 < pat.length := length_pos_iff.2 h
  have hcount (i : Nat) : 1 ≤ if pat.length ≤ i then pat.length else i + 1 := by
    split <;> omega
  exact hcount _

lemma length_lt_of_matchItem {ignoreCase : Bool} {pat rest : List UInt8} {b : UInt8}
    (h : matchItem ignoreCase pat b = some rest) : rest.length < pat.length := by
  unfold matchItem at h
  split at h
  · cases h
  · rename_i c tail
    split at h
    · obtain ⟨⟩ := h
      exact Nat.lt_succ_self _
    split at h
    · obtain ⟨-, ⟨⟩⟩ := Option.ite_none_right_eq_some.1 h
      have := one_le_consumed (cons_ne_nil c tail) b ignoreCase
      rw [length_drop]
      have : 0 < (c :: tail).length := Nat.succ_pos _
      omega
    split at h
    · split at h
      · obtain ⟨-, ⟨⟩⟩ := Option.ite_none_right_eq_some.1 h
        exact Nat.succ_pos _
      · obtain ⟨-, ⟨⟩⟩ := Option.ite_none_right_eq_some.1 h
        simp only [length_cons]
        omega
    · obtain ⟨-, ⟨⟩⟩ := Option.ite_none_right_eq_some.1 h
      exact Nat.lt_succ_self _

lemma length_dropWhile_lt {pat : List UInt8} (h : pat.head? = some star) :
    (pat.dropWhile (· == star)).length < pat.length := by
  obtain ⟨tail, rfl⟩ := head?_eq_some_iff.1 h
  rw [dropWhile_cons_of_pos (by exact beq_self_eq_true star)]
  exact Nat.lt_succ_of_le (dropWhile_suffix _).length_le

/-- The loop of `glob_match_opt`. `lastStar` holds what follows the last star in the pattern and what was left
of the target when the star last tried to end. -/
def globLoop (ignoreCase : Bool) (pat target : List UInt8)
    (lastStar : Option (List UInt8 × List UInt8)) : Bool :=
  match target with
  | [] => (pat.dropWhile (· == star)).isEmpty
  | b :: target' =>
    if _hstar : pat.head? = some star then
      -- a run of stars is one star; at the end of the pattern it takes all that is left
      let rest := pat.dropWhile (· == star)
      if rest.isEmpty then true else globLoop ignoreCase rest (b :: target') (some (rest, b :: target'))
    else
      match _hitem : matchItem ignoreCase pat b with
      | some rest => globLoop ignoreCase rest target' lastStar
      | none =>
        match lastStar with
        | some (afterStar, _ :: left) => globLoop ignoreCase afterStar left (some (afterStar, left))
        | _ => false
termination_by (max ((lastStar.map fun r => r.2.length).getD 0) target.length, pat.length)
decreasing_by
  · have := length_dropWhile_lt _hstar
    simp only [Option.map_some, Option.getD_some, Prod.lex_def]
    omega
  · have := length_lt_of_matchItem _hitem
    simp only [Prod.lex_def, length_cons]
    omega
  · simp only [Option.map_some, Option.getD_some, Prod.lex_def, length_cons]
    omega

def globMatchOpt (pattern target : List UInt8) (ignoreCase : Bool) : Bool :=
  if target.isEmpty then pattern.isEmpty else globLoop ignoreCase pattern target none

/-- Whether `pattern` matches `target`, case taken into account. -/
def globMatch (pattern target : List UInt8) : Bool := globMatchOpt pattern target false

/-- A byte the matcher takes for itself. -/
def Literal (b : UInt8) : Prop :=
  b ≠ star ∧ b ≠ question ∧ b ≠ openBracket ∧ b ≠ backslash

instance : DecidablePred Literal := fun _ => inferInstanceAs (Decidable (_ ∧ _))

lemma matchItem_literal {c : UInt8} (hc : Literal c) (rest : List UInt8) (b : UInt8) :
    matchItem false (c :: rest) b = if c = b then some rest else none := by
  obtain ⟨-, hquestion, hbracket, hbackslash⟩ := hc
  simp [matchItem, hquestion, hbracket, hbackslash, byteEq]

/-- Before any star, a literal byte decides the match by itself. -/
lemma globLoop_literal {c : UInt8} (hc : Literal c) (b : UInt8) (rest target : List UInt8) :
    globLoop false (c :: rest) (b :: target) none =
      if c = b then globLoop false rest target none else false := by
  have hstar : (c :: rest).head? ≠ some star := fun h => hc.1 (Option.some.inj h)
  rw [globLoop, dif_neg hstar]
  split
  · next hitem =>
    rw [matchItem_literal hc] at hitem
    obtain ⟨hcb, ⟨⟩⟩ := Option.ite_none_right_eq_some.1 hitem
    rw [if_pos hcb]
  · next hitem =>
    rw [matchItem_literal hc] at hitem
    rw [if_neg fun hcb => by simp [hcb] at hitem]
  · nofun

section Literals

variable {lit pat target : List UInt8}

section

variable (hlit : ∀ b ∈ lit, Literal b)
include hlit

/-- Literal bytes that the target starts with are walked over, with no star to go back to. -/
lemma globLoop_append :
    globLoop false (lit ++ pat) (lit ++ target) none = globLoop false pat target none := by
  induction lit with
  | nil => rfl
  | cons c lit ih =>
    rw [cons_append, cons_append, globLoop_literal (hlit c mem_cons_self), if_pos rfl]
    exact ih fun b hb => hlit b (mem_cons_of_mem c hb)

/-- A target that does not start with the literal bytes is not matched: the first byte that differs meets no
star, and a target that ends inside them leaves one of them over. -/
lemma isPrefix_of_globLoop
    (h : globLoop false (lit ++ pat) target none = true) : lit <+: target := by
  induction lit generalizing target with
  | nil => exact nil_prefix
  | cons c lit ih =>
    have hc : Literal c := hlit c mem_cons_self
    cases target with
    | nil =>
      rw [cons_append, globLoop, dropWhile_cons_of_neg (by simpa using hc.1)] at h
      cases h
    | cons b =>
      rw [cons_append, globLoop_literal hc] at h
      split at h
      · next hcb =>
        rw [cons_prefix_cons]
        exact ⟨hcb, ih (fun b hb => hlit b (mem_cons_of_mem c hb)) h⟩
      · cases h

lemma globMatch_append (htarget : target ≠ []) :
    globMatch (lit ++ pat) (lit ++ target) = globMatch pat target := by
  have happend : lit ++ target ≠ [] := fun h => htarget (append_eq_nil_iff.1 h).2
  simp only [globMatch, globMatchOpt, List.isEmpty_iff, htarget, happend]
  exact globLoop_append hlit

lemma isPrefix_of_globMatch (h : globMatch (lit ++ pat) target = true) : lit <+: target := by
  unfold globMatch globMatchOpt at h
  split at h
  · rw [List.isEmpty_iff, append_eq_nil_iff] at h
    rw [h.1]
    exact nil_prefix
  · exact isPrefix_of_globLoop hlit h

end

end Literals

end Wedb.Glob
