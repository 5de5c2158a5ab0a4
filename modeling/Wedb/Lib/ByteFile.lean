import Wedb.Lib.Slice

/-!
# Files

A file as the list of its bytes, written and read at a position. A write past the end fills the
gap with zeros; an exact read fails when the file is too short for it.
-/

abbrev ByteFile := List UInt8

namespace ByteFile

open List

variable {file data : ByteFile} {pos n : Nat}

def writeAllAt (file data : ByteFile) (pos : Nat) : ByteFile :=
  Slice.overwrite (file ++ replicate (pos - file.length) 0) pos data

def readExactAt (file : ByteFile) (pos n : Nat) : Option (List UInt8) :=
  if pos + n ≤ file.length then some ((file.drop pos).take n) else none

lemma writeAllAt_end (file data : ByteFile) : writeAllAt file data file.length = file ++ data := by
  rw [writeAllAt, Nat.sub_self, replicate_zero, append_nil, Slice.overwrite,
    take_length, drop_eq_nil_of_le (Nat.le_add_right _ _), append_nil]

lemma writeAllAt_middle (xs ys : ByteFile) {mid mid' : ByteFile} (h : mid'.length = mid.length) :
    writeAllAt (xs ++ (mid ++ ys)) mid' xs.length = xs ++ (mid' ++ ys) := by
  have hgap : xs.length - (xs ++ (mid ++ ys)).length = 0 := by
    rw [length_append]
    omega
  rw [writeAllAt, hgap, replicate_zero, append_nil, Slice.overwrite_middle xs ys h]

lemma readExactAt_of_le (h : pos + n ≤ file.length) :
    readExactAt file pos n = some ((file.drop pos).take n) :=
  if_pos h

/-- What a write inside the file or at its end leaves at each position. -/
lemma getElem?_writeAllAt (h : pos ≤ file.length) (i : Nat) :
    (writeAllAt file data pos)[i]? =
      if pos ≤ i ∧ i < pos + data.length then data[i - pos]? else file[i]? := by
  have htake : (file.take pos).length = pos := length_take_of_le h
  rw [writeAllAt, Nat.sub_eq_zero_of_le h, replicate_zero, append_nil, Slice.overwrite]
  split
  · rw [append_assoc, getElem?_append_right (by omega), htake, getElem?_append_left (by omega)]
  · rcases Nat.lt_or_ge i pos with hlt | hge
    · rw [append_assoc, getElem?_append_left (by omega), getElem?_take_of_lt hlt]
    · rw [getElem?_append_right (by simp; omega), getElem?_drop]
      congr 1
      simp
      omega

lemma length_writeAllAt (h : pos ≤ file.length) :
    (writeAllAt file data pos).length = max file.length (pos + data.length) := by
  rw [writeAllAt, Nat.sub_eq_zero_of_le h, replicate_zero, Slice.overwrite]
  simp
  omega

end ByteFile
