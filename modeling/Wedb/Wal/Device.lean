import Wedb.Wal.Frame

/-!
# The segmented device

A log on a device is cut into segment files of one size. Files below the first segment have been
removed; all files but the last one are full. A read that runs past the end of the last file comes
back short, and one that needs a file that does not exist is an error.
-/

namespace Wedb.Wal

open Nat List

inductive DeviceError
  | unexpectedEof (expected actual : Nat)
  | segmentNotFound (segment : Nat)
  deriving DecidableEq, Repr

/-- The files from the first segment on. -/
structure Device where
  segmentSize : Nat
  startSegment : Nat
  files : List (List Byte)
  segment_pos : 0 < segmentSize
  full : ∀ file ∈ files.dropLast, file.length = segmentSize
  le_size : ∀ file ∈ files, file.length ≤ segmentSize

variable {i size fuel : Nat}

namespace Device

variable (d : Device)

/-- `log_begin_address`. -/
def begin : Nat := d.startSegment * d.segmentSize

def file? (segment : Nat) : Option (List Byte) :=
  if segment < d.startSegment then none else d.files[segment - d.startSegment]?

/-- `get_file_size`. -/
def fileSize (segment : Nat) : Nat := ((d.file? segment).map List.length).getD 0

/-- The chunks of a read, one for each segment it touches. -/
def readChunks : Nat → Nat → Nat → Except DeviceError (List Byte)
  | 0, _, _ => .ok []
  | fuel + 1, offset, len =>
    if len = 0 then .ok []
    else
      let offInSeg := offset % d.segmentSize
      let chunkLen := min len (d.segmentSize - offInSeg)
      match d.file? (offset / d.segmentSize) with
      | none => .error (.segmentNotFound (offset / d.segmentSize))
      | some file =>
        let got := (file.drop offInSeg).take chunkLen
        -- the end of the file
        if got.length < chunkLen then .ok got
        else (readChunks fuel (offset + chunkLen) (len - chunkLen)).map (got ++ ·)

/-- `read_range`. A chunk has at least one byte. -/
def readRange (offset len : Nat) : Except DeviceError (List Byte) :=
  match d.readChunks len offset len with
  | .error e => .error e
  | .ok buf => if buf.length < len then .error (.unexpectedEof len buf.length) else .ok buf

/-- `dropped_bytes_after`. -/
def droppedBytesAfter (addr : Nat) : Nat :=
  let segment := addr / d.segmentSize
  (d.fileSize segment - addr % d.segmentSize) +
    ((d.files.drop (segment + 1 - d.startSegment)).map List.length).sum

variable {files : List (List Byte)}

lemma full_take
    (h : ∀ file ∈ files.dropLast, file.length = size) (hi : i < files.length) :
    ∀ file ∈ files.take i, file.length = size := by
  intro file hfile
  refine h file ?_
  rw [dropLast_eq_take]
  exact (take_subset_take_left _ (by omega)) hfile

/-- The files up to a place in one of them. -/
def keep (i off : Nat) : List (List Byte) :=
  d.files.take i ++ (d.files[i]?.map (take off)).toList

/-- `erase_tail_after`: the file of the address shrinks, the later ones are removed. -/
def eraseTailAfter (addr : Nat) : Device where
  segmentSize := d.segmentSize
  startSegment := d.startSegment
  files :=
    if addr / d.segmentSize < d.startSegment then []
    else d.keep (addr / d.segmentSize - d.startSegment) (addr % d.segmentSize)
  segment_pos := d.segment_pos
  full := by
    split
    · nofun
    · intro file hfile
      unfold keep at hfile
      generalize addr / d.segmentSize - d.startSegment = i at hfile
      rcases lt_or_ge i d.files.length with hi | hi
      · rw [getElem?_eq_getElem hi, Option.map_some, Option.toList_some, dropLast_concat] at hfile
        exact full_take d.full hi file hfile
      · rw [getElem?_eq_none hi, Option.map_none, Option.toList_none, append_nil,
          take_of_length_le hi] at hfile
        exact d.full file hfile
  le_size := by
    split
    · nofun
    · intro file hfile
      rcases mem_append.1 hfile with hfile | hfile
      · exact d.le_size file (mem_of_mem_take hfile)
      · obtain ⟨old, hold, rfl⟩ := Option.map_eq_some_iff.1 (Option.mem_toList.1 hfile)
        exact (length_take_le' ..).trans (d.le_size old (mem_of_getElem? hold))

/-! ### The device as one stretch of bytes -/

def data : List Byte := d.files.flatten

def dataEnd : Nat := d.begin + d.data.length

/-- The end of the last segment. -/
def limit : Nat := d.begin + d.files.length * d.segmentSize

/-- The last file could take more. -/
def Open : Prop := d.dataEnd < d.limit

instance : Decidable d.Open := inferInstanceAs (Decidable (_ < _))

lemma drop_flatten
    (hfull : ∀ file ∈ files.dropLast, file.length = size) (hi : i < files.length) :
    files.flatten.drop (i * size) = files[i] ++ (files.drop (i + 1)).flatten := by
  induction i generalizing files with
  | zero =>
    cases files with
    | nil => cases hi
    | cons => simp
  | succ i ih =>
    cases files with
    | nil => cases hi
    | cons file files =>
      have hi : i < files.length := lt_of_succ_lt_succ hi
      have hne : files ≠ [] := ne_nil_of_length_pos (by omega)
      rw [dropLast_cons_of_ne_nil hne] at hfull
      have hfile : file.length = size := hfull file mem_cons_self
      rw [flatten_cons, succ_mul, add_comm, ← drop_drop, ← hfile, drop_left, hfile,
        ih (fun f hf => hfull f (mem_cons_of_mem _ hf)) hi]
      rfl

variable {x : Nat}

/-- What is on the device from a place in one of its files on. -/
lemma drop_data (hi : x / d.segmentSize < d.files.length) :
    d.data.drop x = (d.files[x / d.segmentSize]).drop (x % d.segmentSize) ++
      (d.files.drop (x / d.segmentSize + 1)).flatten.drop
        (x % d.segmentSize - (d.files[x / d.segmentSize]).length) := by
  have hx : x = x / d.segmentSize * d.segmentSize + x % d.segmentSize := by
    rw [mul_comm, div_add_mod]
  conv_lhs => rw [hx, ← drop_drop, data, drop_flatten d.full hi, drop_append]

/-- A file before the last one is full; the last one ends where the data does. -/
lemma file_full_or_last (hi : i < d.files.length) :
    (d.files[i]).length = d.segmentSize ∨ d.files.drop (i + 1) = [] := by
  rcases lt_or_ge (i + 1) d.files.length with hlt | hge
  · refine .inl (d.full _ ?_)
    rw [dropLast_eq_take]
    exact mem_take_iff_getElem.2 ⟨i, by omega, rfl⟩
  · exact .inr (drop_eq_nil_of_le hge)

lemma length_flatten_le
    (h : ∀ file ∈ files, file.length ≤ size) : files.flatten.length ≤ files.length * size := by
  induction files with
  | nil => simp
  | cons file files ih =>
    have hfile := h file mem_cons_self
    have hfiles := ih fun f hf => h f (mem_cons_of_mem _ hf)
    rw [flatten_cons, length_append, length_cons, succ_mul]
    omega

lemma data_length_le : d.data.length ≤ d.files.length * d.segmentSize := length_flatten_le d.le_size

/-! ### Reads -/

lemma begin_add_div (x : Nat) : (d.begin + x) / d.segmentSize = d.startSegment + x / d.segmentSize := by
  rw [begin, add_comm, add_mul_div_right _ _ d.segment_pos, add_comm]

lemma file?_add (x : Nat) : d.file? ((d.begin + x) / d.segmentSize) = d.files[x / d.segmentSize]? := by
  rw [file?, begin_add_div, if_neg (not_lt.2 (le_add_right ..)), Nat.add_sub_cancel_left]

lemma begin_add_mod (x : Nat) : (d.begin + x) % d.segmentSize = x % d.segmentSize := by
  rw [begin, add_comm, add_mul_mod_self_right]

variable {d}

lemma readChunks_zero (fuel offset : Nat) : d.readChunks fuel offset 0 = .ok [] := by
  cases fuel <;> rfl

variable {len : Nat}

/-- One chunk and the rest of a read. -/
lemma readChunks_succ (hlen : len ≠ 0) :
    d.readChunks (fuel + 1) (d.begin + x) len =
      match d.files[x / d.segmentSize]? with
      | none => .error (.segmentNotFound ((d.begin + x) / d.segmentSize))
      | some file =>
        let chunkLen := min len (d.segmentSize - x % d.segmentSize)
        let got := (file.drop (x % d.segmentSize)).take chunkLen
        if got.length < chunkLen then .ok got
        else (d.readChunks fuel (d.begin + (x + chunkLen)) (len - chunkLen)).map (got ++ ·) := by
  rw [readChunks, if_neg hlen]
  simp only [file?_add, begin_add_mod, add_assoc]

/-- A read gives what is on the device, as far as there is any. -/
lemma readChunks_ok (hfuel : len ≤ fuel)
    (h : x + len ≤ d.data.length ∨ d.Open ∧ x < d.files.length * d.segmentSize) :
    d.readChunks fuel (d.begin + x) len = .ok ((d.data.drop x).take len) := by
  induction fuel generalizing x len with
  | zero =>
    obtain rfl : len = 0 := by omega
    rfl
  | succ fuel ih =>
    by_cases hlen : len = 0
    · subst hlen
      rw [readChunks_zero, take_zero]
    have hdata := d.data_length_le
    have hi : x / d.segmentSize < d.files.length := by
      rw [div_lt_iff_lt_mul d.segment_pos]
      omega
    have hmod := mod_lt x d.segment_pos
    have hdiv := div_add_mod x d.segmentSize
    rw [readChunks_succ hlen, getElem?_eq_getElem hi]
    dsimp only
    generalize hoff : x % d.segmentSize = off at *
    generalize hchunk : min len (d.segmentSize - off) = chunk
    have hdrop := d.drop_data hi
    rw [hoff] at hdrop
    split
    · rename_i hshort
      rw [length_take, length_drop] at hshort
      -- a short file is the last one
      have hlast : d.files.drop (x / d.segmentSize + 1) = [] :=
        (d.file_full_or_last hi).resolve_left (by omega)
      rw [hlast, flatten_nil, drop_nil, append_nil] at hdrop
      rw [hdrop, take_of_length_le (by rw [length_drop]; omega),
        take_of_length_le (by rw [length_drop]; omega)]
    · rename_i hlong
      rw [length_take, length_drop] at hlong
      have hgot : ((d.files[x / d.segmentSize]).drop off).take chunk = (d.data.drop x).take chunk := by
        rw [hdrop, take_append_of_le_length (by rw [length_drop]; omega)]
      have hrest : d.readChunks fuel (d.begin + (x + chunk)) (len - chunk) =
          .ok ((d.data.drop (x + chunk)).take (len - chunk)) := by
        refine ih (by omega) (h.imp (by omega) fun ⟨hopen, _⟩ => ⟨hopen, ?_⟩)
        have hlength := congrArg length hdrop
        rw [length_append, length_drop, length_drop] at hlength
        have hend : x + chunk ≤ d.data.length := by omega
        exact hend.trans_lt (lt_of_add_lt_add_left hopen)
      rw [hrest, hgot]
      conv_rhs => rw [show len = chunk + (len - chunk) by omega, take_add, drop_drop]
      rfl

/-- A file that is not the last one, or any file when the last one is full. -/
lemma file_full (h : ¬d.Open) (hi : x / d.segmentSize < d.files.length) :
    (d.files[x / d.segmentSize]).length = d.segmentSize := by
  refine (d.file_full_or_last hi).elim id fun hlast => ?_
  have hlength := congrArg length (drop_flatten d.full hi)
  rw [hlast, flatten_nil, append_nil, length_drop] at hlength
  have hle := d.le_size _ (getElem_mem hi)
  have hcount : d.files.length = x / d.segmentSize + 1 := by
    have := drop_eq_nil_iff.1 hlast
    omega
  have hclosed : d.files.length * d.segmentSize ≤ d.files.flatten.length :=
    le_of_add_le_add_left (Nat.le_of_not_lt h)
  have hmul : d.files.length * d.segmentSize = x / d.segmentSize * d.segmentSize + d.segmentSize := by
    rw [hcount, succ_mul]
  omega

/-- A read that needs a file behind the last one. -/
lemma readChunks_error (hlen : len ≠ 0) (hfuel : len ≤ fuel)
    (h : d.data.length < x + len) (hend : ¬d.Open ∨ d.files.length * d.segmentSize ≤ x) :
    ∃ segment, d.readChunks fuel (d.begin + x) len = .error (.segmentNotFound segment) := by
  induction fuel generalizing x len with
  | zero => exact absurd (le_zero.1 hfuel) hlen
  | succ fuel ih =>
    rw [readChunks_succ hlen]
    rcases lt_or_ge (x / d.segmentSize) d.files.length with hi | hi
    · have hlt : x < d.files.length * d.segmentSize := (div_lt_iff_lt_mul d.segment_pos).1 hi
      have hclosed : ¬d.Open := hend.resolve_right (not_le.2 hlt)
      have hsize := file_full hclosed hi
      have hmod := mod_lt x d.segment_pos
      have hdiv := div_add_mod x d.segmentSize
      have hdata : d.files.length * d.segmentSize ≤ d.data.length :=
        Nat.le_of_add_le_add_left (Nat.le_of_not_lt hclosed)
      have hnext := mul_le_mul_right d.segmentSize (succ_le_of_lt hi)
      rw [succ_mul, mul_comm] at hnext
      obtain ⟨segment, hrest⟩ : ∃ segment, d.readChunks fuel
          (d.begin + (x + (d.segmentSize - x % d.segmentSize)))
          (len - (d.segmentSize - x % d.segmentSize)) = .error (.segmentNotFound segment) :=
        ih (by omega) (by omega) (by omega) (.inl hclosed)
      refine ⟨segment, ?_⟩
      rw [getElem?_eq_getElem hi]
      dsimp only
      rw [min_eq_right (by omega), if_neg (by rw [length_take, length_drop]; omega), hrest]
      rfl
    · rw [getElem?_eq_none hi]
      exact ⟨_, rfl⟩

/-- The three outcomes of a read. -/
lemma readRange_ok (h : x + len ≤ d.data.length) :
    d.readRange (d.begin + x) len = .ok ((d.data.drop x).take len) := by
  rw [readRange, readChunks_ok le_rfl (.inl h)]
  dsimp only
  rw [if_neg]
  rw [length_take, length_drop]
  omega

lemma readRange_eof (hlen : len ≠ 0) (h : d.data.length < x + len) (hopen : d.Open)
    (hx : x < d.files.length * d.segmentSize) :
    d.readRange (d.begin + x) len = .error (.unexpectedEof len (d.data.length - x)) := by
  have hlength : ((d.data.drop x).take len).length = d.data.length - x := by
    rw [length_take, length_drop]
    omega
  rw [readRange, readChunks_ok le_rfl (.inr ⟨hopen, hx⟩)]
  dsimp only
  rw [hlength, if_pos (by omega)]

lemma readRange_missing (hlen : len ≠ 0) (h : d.data.length < x + len)
    (hend : ¬d.Open ∨ d.files.length * d.segmentSize ≤ x) :
    ∃ segment, d.readRange (d.begin + x) len = .error (.segmentNotFound segment) := by
  obtain ⟨segment, hread⟩ := readChunks_error hlen le_rfl h hend
  exact ⟨segment, by rw [readRange, hread]⟩

/-! ### Erasing the tail -/

lemma length_flatten_take (hi : i < d.files.length) :
    (d.files.take i).flatten.length = i * d.segmentSize := by
  have hfull := full_take d.full hi
  have hlength : (d.files.take i).length = i := by
    rw [length_take]
    omega
  rw [length_flatten, map_congr_left hfull, map_const', sum_replicate_nat, hlength]

lemma take_data (hi : x / d.segmentSize < d.files.length) (hx : x ≤ d.data.length) :
    d.data.take x = (d.files.take (x / d.segmentSize)).flatten ++
      (d.files[x / d.segmentSize]).take (x % d.segmentSize) := by
  have hlength := length_flatten_take hi
  have hmod := mod_lt x d.segment_pos
  have hsplit : d.data = (d.files.take (x / d.segmentSize)).flatten ++
      (d.files[x / d.segmentSize] ++ (d.files.drop (x / d.segmentSize + 1)).flatten) := by
    conv_lhs => rw [data, ← take_append_drop (x / d.segmentSize) d.files, flatten_append,
      drop_eq_getElem_cons hi, flatten_cons]
  have hdiv : x = x / d.segmentSize * d.segmentSize + x % d.segmentSize := by
    rw [mul_comm, div_add_mod]
  have hoff : x % d.segmentSize ≤ (d.files[x / d.segmentSize]).length := by
    rcases d.file_full_or_last hi with hfull | hlast
    · omega
    · rw [hlast, flatten_nil, append_nil] at hsplit
      rw [hsplit, length_append] at hx
      omega
  conv_lhs => rw [hdiv, ← hlength, hsplit, take_length_add_append, take_append_of_le_length hoff]

lemma files_eraseTailAfter (x : Nat) :
    (d.eraseTailAfter (d.begin + x)).files = d.keep (x / d.segmentSize) (x % d.segmentSize) := by
  simp only [eraseTailAfter, begin_add_div, begin_add_mod, Nat.add_sub_cancel_left]
  rw [if_neg (not_lt.2 (le_add_right ..))]

lemma data_eraseTailAfter (hx : x ≤ d.data.length) :
    (d.eraseTailAfter (d.begin + x)).data = d.data.take x := by
  rw [data, files_eraseTailAfter, keep]
  rcases lt_or_ge (x / d.segmentSize) d.files.length with hi | hi
  · rw [take_data hi hx, getElem?_eq_getElem hi]
    simp
  · have hlimit := (le_div_iff_mul_le d.segment_pos).1 hi
    have hle := d.data_length_le
    rw [take_of_length_le hi, getElem?_eq_none hi, take_of_length_le (by omega)]
    simp [data]

/-- What is left after the tail is erased can take more. -/
lemma open_eraseTailAfter (hx : x < d.data.length) : (d.eraseTailAfter (d.begin + x)).Open := by
  have hi : x / d.segmentSize < d.files.length :=
    (div_lt_iff_lt_mul d.segment_pos).2 (hx.trans_le d.data_length_le)
  have hcount : (d.eraseTailAfter (d.begin + x)).files.length = x / d.segmentSize + 1 := by
    rw [files_eraseTailAfter, keep, getElem?_eq_getElem hi]
    simp only [Option.map_some, Option.toList_some, length_append, length_take, length_cons,
      length_nil]
    omega
  have hdata : (d.eraseTailAfter (d.begin + x)).data.length = x := by
    rw [data_eraseTailAfter hx.le, length_take]
    omega
  refine Nat.add_lt_add_left ?_ _
  rw [hdata, hcount, mul_comm]
  exact lt_mul_div_succ x d.segment_pos

/-! ### What is behind an address -/

lemma droppedBytesAfter_add (hx : x ≤ d.data.length) :
    d.droppedBytesAfter (d.begin + x) = d.data.length - x := by
  have hindex : (d.begin + x) / d.segmentSize + 1 - d.startSegment = x / d.segmentSize + 1 := by
    rw [begin_add_div, add_assoc, Nat.add_sub_cancel_left]
  simp only [droppedBytesAfter, fileSize, file?_add, begin_add_mod, hindex, ← length_flatten]
  rcases lt_or_ge (x / d.segmentSize) d.files.length with hi | hi
  · have hlength := congrArg length (d.drop_data hi)
    rw [length_drop, length_append, length_drop, length_drop] at hlength
    rw [getElem?_eq_getElem hi, Option.map_some, Option.getD_some, hlength]
    have hmod := mod_lt x d.segment_pos
    rcases d.file_full_or_last hi with hfull | hlast
    · omega
    · rw [hlast, flatten_nil, length_nil]
      omega
  · have hlimit := (le_div_iff_mul_le d.segment_pos).1 hi
    have hle := d.data_length_le
    rw [getElem?_eq_none hi, drop_eq_nil_of_le (by omega)]
    simp only [Option.map_none, Option.getD_none, flatten_nil, length_nil]
    omega

end Device

end Wedb.Wal
