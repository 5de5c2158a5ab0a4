import Mathlib.Data.List.Perm.Basic

/-!
# BITOP

The sources of a BITOP are folded one after the other into one buffer (`wbitmap::bit_op`). The buffer
is as long as the longest source so far; what an AND leaves behind the shortest one is cleared at the
end.
-/

namespace Wedb.Bitmap

inductive BitmapOperation where
  | and | or | xor | not | diff
  deriving DecidableEq, Repr

namespace BitmapOperation

/-- One byte of the buffer and the byte of the next source. -/
def combine : BitmapOperation → UInt8 → UInt8 → UInt8
  | and, d, s => d &&& s
  | or, d, s => d ||| s
  | xor, d, s => d ^^^ s
  | diff, d, s => d &&& ~~~s
  | not, d, _ => d

/-- The byte of a source that is longer than the buffer. -/
def extend : BitmapOperation → UInt8 → UInt8
  | or, s | xor, s => s
  | _, _ => 0

/-- The operation on one byte of each source. -/
def apply (op : BitmapOperation) : List UInt8 → UInt8
  | [] => 0
  | b :: bytes => if op = not then ~~~b else bytes.foldl op.combine b

/-- The common part is folded in place; what a longer source has more is added to the buffer. -/
def foldInto (op : BitmapOperation) : List UInt8 → List UInt8 → List UInt8
  | d :: dst, s :: src => op.combine d s :: foldInto op dst src
  | dst, [] => dst
  | [], src => src.map op.extend

end BitmapOperation

open BitmapOperation

/-- `shortestSrcLength` is `none` before the first source: `usize::MAX` is above every length. -/
structure BitOpAccumulator where
  op : BitmapOperation
  dst : List UInt8 := []
  shortestSrcLength : Option Nat := none
  keysFound : Nat := 0

namespace BitOpAccumulator

def fold (acc : BitOpAccumulator) (src : List UInt8) : BitOpAccumulator where
  op := acc.op
  keysFound := acc.keysFound + 1
  shortestSrcLength := some (min (acc.shortestSrcLength.getD src.length) src.length)
  dst :=
    if acc.keysFound + 1 = 1 then if acc.op = .not then src.map (~~~ ·) else src
    else if acc.op = .not then acc.dst
    else acc.op.foldInto acc.dst src

def finish (acc : BitOpAccumulator) : Except String (List UInt8) :=
  if acc.op = .diff ∧ acc.keysFound = 1 then
    .error "BITOP DIFF operation requires at least two source bitmaps"
  else if acc.op = .and ∧ 0 < acc.keysFound then
    let shortest := acc.shortestSrcLength.getD 0
    .ok (acc.dst.take shortest ++ List.replicate (acc.dst.length - shortest) 0)
  else .ok acc.dst

end BitOpAccumulator

open BitOpAccumulator

/-- The bytes of the sources at one place; a source that is too short has a zero there. -/
def column (sources : List (List UInt8)) (i : Nat) : List UInt8 := sources.map (·.getD i 0)

def longest (sources : List (List UInt8)) : Nat := (sources.map List.length).foldr max 0

/-- The string the sources stand for, byte by byte. -/
def bytewise (op : BitmapOperation) (sources : List (List UInt8)) : List UInt8 :=
  (List.range (longest sources)).map fun i => op.apply (column sources i)

variable {op : BitmapOperation} {sources : List (List UInt8)} {acc : BitOpAccumulator}

lemma length_foldInto (op : BitmapOperation) (dst src : List UInt8) :
    (op.foldInto dst src).length = max dst.length src.length := by
  induction dst, src using foldInto.induct <;> simp [foldInto, *]

/-- A missing byte is as good as a zero, unless the operation is AND. -/
lemma getD_foldInto (hnot : op ≠ .not) {dst src : List UInt8} {i : Nat}
    (h : op = .and → i < dst.length ∧ i < src.length) :
    (op.foldInto dst src).getD i 0 = op.combine (dst.getD i 0) (src.getD i 0) := by
  induction dst, src using foldInto.induct generalizing i with
  | case1 d dst s src ih =>
    cases i with
    | zero => rfl
    | succ => exact ih fun hop => (h hop).imp Nat.lt_of_succ_lt_succ Nat.lt_of_succ_lt_succ
  | case2 => cases op <;> simp_all [foldInto, combine]
  | case3 src =>
    rcases Nat.lt_or_ge i src.length with hi | hi <;> cases op <;>
      simp_all [foldInto, combine, extend]

lemma longest_concat (sources : List (List UInt8)) (src : List UInt8) :
    longest (sources ++ [src]) = max (longest sources) src.length := by
  induction sources with
  | nil => simp [longest]
  | cons => simp_all [longest, Nat.max_assoc]

/-- What is in the accumulator after the sources. -/
structure Folded (op : BitmapOperation) (sources : List (List UInt8)) (acc : BitOpAccumulator) :
    Prop where
  op_eq : acc.op = op
  keysFound : acc.keysFound = sources.length
  length : acc.dst.length = longest sources
  shortest : ∃ m, acc.shortestSrcLength = some m ∧ ∀ i, i < m ↔ ∀ src ∈ sources, i < src.length
  bytes (i : Nat) : (op = .and → ∀ src ∈ sources, i < src.length) →
    acc.dst.getD i 0 = op.apply (column sources i)

lemma Folded.concat (h : Folded op sources acc) (hne : sources ≠ []) (hop : op ≠ .not)
    (src : List UInt8) : Folded op (sources ++ [src]) (fold acc src) := by
  obtain ⟨rfl, hkeys, hlength, ⟨m, hm, hshort⟩, hbytes⟩ := h
  obtain ⟨first, sources, rfl⟩ := List.exists_cons_of_ne_nil hne
  have hdst : (fold acc src).dst = acc.op.foldInto acc.dst src := by simp [fold, hkeys, hop]
  refine ⟨rfl, by simp [fold, hkeys], ?_, ⟨_, rfl, fun i => ?_⟩, fun i hi => ?_⟩
  · rw [hdst, length_foldInto, longest_concat, hlength]
  · simp only [hm, Option.getD_some, Nat.lt_min, hshort, List.forall_mem_append,
      List.forall_mem_singleton]
  · simp only [List.forall_mem_append, List.forall_mem_singleton] at hi
    rw [hdst, getD_foldInto hop, hbytes i fun hand => (hi hand).1]
    · simp [apply, column, hop]
    · intro hand
      refine ⟨?_, (hi hand).2⟩
      rw [hlength]
      exact Nat.lt_of_lt_of_le ((hi hand).1 first (by simp)) (Nat.le_max_left ..)

/-- Over all sources, by what one more source does. -/
lemma Folded.append {rest : List (List UInt8)} (h : Folded op sources acc) (hne : sources ≠ [])
    (hop : op ≠ .not) : Folded op (sources ++ rest) (rest.foldl fold acc) := by
  induction rest generalizing sources acc with
  | nil => simpa using h
  | cons src rest ih =>
    rw [List.append_cons]
    exact ih (h.concat hne hop src) (by simp)

lemma apply_perm (hop : op = .and ∨ op = .or ∨ op = .xor) {bytes bytes' : List UInt8}
    (h : bytes.Perm bytes') : op.apply bytes = op.apply bytes' := by
  have hnot : op ≠ .not := by rcases hop with rfl | rfl | rfl <;> nofun
  have hcomm (a b : UInt8) : op.combine a b = op.combine b a := by
    rcases hop with rfl | rfl | rfl <;> simp only [combine] <;> ac_rfl
  have hright (a b c : UInt8) : op.combine (op.combine a b) c = op.combine (op.combine a c) b := by
    rcases hop with rfl | rfl | rfl <;> simp only [combine] <;> ac_rfl
  induction h with
  | nil => rfl
  | cons b h => simpa [apply, hnot] using h.foldl_eq' (fun x _ y _ z => hright z x y) b
  | swap b c => simp [apply, hnot, hcomm b c]
  | trans _ _ ih₁ ih₂ => exact ih₁.trans ih₂

lemma and_of_zero_mem {bytes : List UInt8} (h : 0 ∈ bytes) :
    BitmapOperation.and.apply bytes = 0 := by
  rw [apply_perm (.inl rfl) (List.perm_cons_erase h), apply]
  induction bytes.erase 0 <;> simp_all [combine]

lemma eq_bytewise {out : List UInt8} (hlength : out.length = longest sources)
    (h : ∀ i (hi : i < out.length), out[i] = op.apply (column sources i)) :
    out = bytewise op sources :=
  List.ext_getElem (by simp [bytewise, hlength]) fun i hi _ => by simp [bytewise, h i hi]

lemma Folded.finish (h : Folded op sources acc) (hop : op = .diff → sources.length ≠ 1)
    (hne : sources ≠ []) : acc.finish = .ok (bytewise op sources) := by
  obtain ⟨rfl, hkeys, hlength, ⟨m, hm, hshort⟩, hbytes⟩ := h
  have hget (i : Nat) (hi : i < acc.dst.length) : acc.dst[i] = acc.dst.getD i 0 := by simp [hi]
  simp only [BitOpAccumulator.finish, hm, Option.getD_some]
  split_ifs with hdiff hand
  · exact absurd (hkeys ▸ hdiff.2) (hop hdiff.1)
  · congr 1
    apply eq_bytewise
    · rw [← hlength, List.length_append, List.length_take, List.length_replicate]
      omega
    · intro i hi
      rw [List.getElem_append]
      split_ifs with hlt
      · rw [List.getElem_take, hget, hbytes i fun _ => (hshort i).mp (by grind)]
      · have hshorter : ¬∀ src ∈ sources, i < src.length := by
          rw [← hshort]
          grind
        push Not at hshorter
        obtain ⟨src, hsrc, hle⟩ := hshorter
        rw [List.getElem_replicate, hand.1]
        exact (and_of_zero_mem (List.mem_map.mpr ⟨src, hsrc, by simp [hle]⟩)).symm
  · congr 1
    apply eq_bytewise hlength
    intro i hi
    rw [hget, hbytes i fun hop => absurd ⟨hop, ?_⟩ hand]
    rw [hkeys]
    exact List.length_pos_iff.mpr hne

end Wedb.Bitmap
