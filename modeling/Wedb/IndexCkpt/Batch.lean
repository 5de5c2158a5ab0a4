import Wedb.IndexCkpt.Codec
import Mathlib.Data.List.OfFn

/-!
# Batched streams of buckets

Buckets are written and read through a buffer of 512 of them. The writer flushes the buffer when it
is full and once at the end; the reader refills it when it is used up. Both feed what passes the
buffer to a checksum.
-/

namespace Wedb.IndexCkpt

open LittleEndian Nat List

/-- A checksum of 32 bits that takes its input byte by byte. -/
structure Crc32Hasher where
  State : Type
  new : State
  push : State → UInt8 → State
  finalize : State → UInt32

def Crc32Hasher.update (c : Crc32Hasher) (s : c.State) (bytes : List UInt8) : c.State :=
  bytes.foldl c.push s

lemma Crc32Hasher.update_append (c : Crc32Hasher) (s : c.State) (xs ys : List UInt8) :
    c.update s (xs ++ ys) = c.update (c.update s xs) ys :=
  foldl_append

/-- Seven data slots and the slot of the overflow link. -/
structure HashBucket where
  entries : Fin 8 → UInt64

namespace HashBucket

/-- `OVERFLOW_INDEX`. -/
def overflowIndex : Fin 8 := ⟨7, by decide⟩

def zero : HashBucket := ⟨fun _ => 0⟩

/-- One function for the data slots and one for the overflow slot. -/
def mapSlots (b : HashBucket) (data overflow : UInt64 → UInt64) : HashBucket :=
  ⟨fun i => if i = overflowIndex then overflow (b.entries i) else data (b.entries i)⟩

/-- The words, least significant byte first. -/
def toBytes (b : HashBucket) : List UInt8 :=
  (ofFn fun i => encode 8 (b.entries i).toNat).flatten

def ofBytes (src : List UInt8) : HashBucket :=
  ⟨fun i => UInt64.ofNat (decode ((src.drop (8 * i)).take 8))⟩

lemma mapSlots_mapSlots (b : HashBucket) (data data' overflow overflow' : UInt64 → UInt64) :
    (b.mapSlots data overflow).mapSlots data' overflow' =
      b.mapSlots (data' ∘ data) (overflow' ∘ overflow) := by
  simp only [mapSlots, mk.injEq]
  funext i
  split <;> rfl

lemma length_toBytes (b : HashBucket) : b.toBytes.length = bucketBytes := by
  simp [toBytes, bucketBytes]

lemma ofBytes_toBytes (b : HashBucket) : ofBytes b.toBytes = b := by
  obtain ⟨entries⟩ := b
  simp only [ofBytes, mk.injEq]
  funext i
  have hlen : ∀ block ∈ ofFn fun i => encode 8 (entries i).toNat, block.length = 8 := by
    intro block hblock
    obtain ⟨j, rfl⟩ := mem_ofFn.1 hblock
    exact length_encode _ _
  have hword := Slice.take_drop_flatten hlen (i := i) (by simp)
  rw [List.getElem_ofFn] at hword
  rw [toBytes, hword, decode_encode_of_lt (entries i).toNat_lt, UInt64.ofNat_toNat]

end HashBucket

/-! ### Writing -/

structure BatchWriter (c : Crc32Hasher) where
  file : ByteFile
  hasher : c.State
  buf : List UInt8
  cursor : Nat
  /-- Where the next batch goes in the file. -/
  pos : Nat
  maxOverflow : Nat
  rcResolve : UInt64 → Nat

namespace BatchWriter

variable {c : Crc32Hasher}

def new (file : ByteFile) (hasher : c.State) (startPos maxOverflow : Nat)
    (rcResolve : UInt64 → Nat) : BatchWriter c :=
  ⟨file, hasher, replicate batchBytes 0, 0, startPos, maxOverflow, rcResolve⟩

def flushBatch (w : BatchWriter c) : BatchWriter c :=
  if 0 < w.cursor then
    { w with
      hasher := c.update w.hasher (w.buf.take w.cursor)
      file := w.file.writeAllAt (w.buf.take w.cursor) w.pos
      pos := w.pos + w.cursor
      cursor := 0 }
  else w

/-- The bytes of a bucket go into the buffer, and a full buffer goes to the file. -/
def push (w : BatchWriter c) (bytes : List UInt8) : BatchWriter c :=
  let w := { w with buf := Slice.overwrite w.buf w.cursor bytes, cursor := w.cursor + bucketBytes }
  if w.cursor = batchBytes then w.flushBatch else w

/-- What is written for a bucket. -/
def sanitized (w : BatchWriter c) (b : HashBucket) : HashBucket :=
  b.mapSlots (fun raw => sanitizeDataSlot (resolveReadCache w.rcResolve raw) none)
    (fun raw => sanitizeOverflowSlot raw w.maxOverflow)

def writeBucket (w : BatchWriter c) (b : HashBucket) : BatchWriter c :=
  w.push (w.sanitized b).toBytes

def writeZeroBucket (w : BatchWriter c) : BatchWriter c :=
  w.push (replicate bucketBytes 0)

def finish (w : BatchWriter c) : BatchWriter c := w.flushBatch

/-- The file and the filled part of the buffer are `start` and then `bytes`, and the checksum is on
its way to that of `bytes`. -/
structure Holds (w : BatchWriter c) (start bytes : List UInt8) : Prop where
  content : w.file ++ w.buf.take w.cursor = start ++ bytes
  pos_eq : w.pos = w.file.length
  length_buf : w.buf.length = batchBytes
  cursor_le : w.cursor ≤ batchBytes
  hasher_eq : c.update w.hasher (w.buf.take w.cursor) = c.update c.new bytes

/-- There is room for another bucket. -/
structure Ready (w : BatchWriter c) : Prop where
  dvd : bucketBytes ∣ w.cursor
  lt : w.cursor < batchBytes

variable {w : BatchWriter c} {start bytes chunk : List UInt8}

lemma holds_new (file : ByteFile) (maxOverflow : Nat) (rcResolve : UInt64 → Nat) :
    (new (c := c) file c.new file.length maxOverflow rcResolve).Holds file [] where
  content := by simp [new]
  pos_eq := rfl
  length_buf := length_replicate
  cursor_le := zero_le _
  hasher_eq := rfl

lemma Ready.room (h : w.Ready) : w.cursor + bucketBytes ≤ batchBytes := by
  obtain ⟨k, hk⟩ := h.dvd
  have hlt := h.lt
  simp only [bucketBytes, batchBytes] at *
  omega

@[simp] lemma cursor_flushBatch (w : BatchWriter c) : w.flushBatch.cursor = 0 := by
  unfold flushBatch
  split
  · rfl
  · omega

section

variable (h : w.Holds start bytes)
include h

lemma Holds.flushBatch : w.flushBatch.Holds start bytes := by
  unfold BatchWriter.flushBatch
  split
  · have hfile : w.file.writeAllAt (w.buf.take w.cursor) w.pos = w.file ++ w.buf.take w.cursor := by
      rw [h.pos_eq, ByteFile.writeAllAt_end]
    have htake : (w.buf.take w.cursor).length = w.cursor := by
      rw [length_take, h.length_buf, min_eq_left h.cursor_le]
    refine ⟨?_, ?_, h.length_buf, zero_le _, ?_⟩
    · simpa [hfile] using h.content
    · rw [hfile, length_append, htake, h.pos_eq]
    · simpa [Crc32Hasher.update] using h.hasher_eq
  · exact h

/-- The bytes that are copied behind the cursor are held too. -/
lemma Holds.fill (chunk : List UInt8) (hroom : w.cursor + chunk.length ≤ batchBytes) :
    Holds
      { w with buf := Slice.overwrite w.buf w.cursor chunk, cursor := w.cursor + chunk.length }
      start (bytes ++ chunk) := by
  have hbuf : w.cursor + chunk.length ≤ w.buf.length := by rwa [h.length_buf]
  have htake := Slice.take_overwrite hbuf
  refine ⟨?_, h.pos_eq, (Slice.length_overwrite hbuf).trans h.length_buf, hroom, ?_⟩
  · rw [htake, ← append_assoc, h.content, append_assoc]
  · rw [htake, Crc32Hasher.update_append, h.hasher_eq, ← Crc32Hasher.update_append]

lemma holds_push (hready : w.Ready) (hchunk : chunk.length = bucketBytes) :
    (w.push chunk).Holds start (bytes ++ chunk) ∧ (w.push chunk).Ready := by
  have hfill := h.fill chunk (hchunk ▸ hready.room)
  rw [hchunk] at hfill
  unfold push
  dsimp only
  split
  · exact ⟨hfill.flushBatch, by simp, by simp [batchBytes, batchBuckets, bucketBytes]⟩
  · have hroom := hready.room
    exact ⟨hfill, Nat.dvd_add hready.dvd (dvd_refl _), by dsimp only; omega⟩

/-- Bytes of whole buckets are pushed one after the other. -/
lemma holds_foldl_push (hready : w.Ready) {chunks : List (List UInt8)}
    (hchunks : ∀ chunk ∈ chunks, chunk.length = bucketBytes) :
    (chunks.foldl push w).Holds start (bytes ++ chunks.flatten) := by
  induction chunks generalizing w bytes with
  | nil => simpa using h
  | cons chunk chunks ih =>
    obtain ⟨hpush, hready'⟩ := holds_push h hready (hchunks chunk mem_cons_self)
    rw [foldl_cons, flatten_cons, ← append_assoc]
    exact ih hpush hready' fun chunk hchunk => hchunks chunk (mem_cons_of_mem _ hchunk)

end

/-- How buckets are written does not change on the way. -/
@[simp] lemma sanitized_push (w : BatchWriter c) (chunk : List UInt8) :
    (w.push chunk).sanitized = w.sanitized := by
  unfold push flushBatch
  dsimp only
  split
  · split <;> rfl
  · rfl

lemma foldl_writeBucket (w : BatchWriter c) (bs : List HashBucket) :
    bs.foldl writeBucket w = (bs.map fun b => (w.sanitized b).toBytes).foldl push w := by
  induction bs generalizing w with
  | nil => rfl
  | cons b bs ih =>
    rw [foldl_cons, ih, writeBucket, sanitized_push, map_cons, foldl_cons]

/-- The file and the checksum after all buckets. -/
lemma finish_foldl_writeBucket (h : w.Holds start []) (hready : w.Ready) (bs : List HashBucket) :
    let w' := (bs.foldl writeBucket w).finish
    let data := (bs.map fun b => (w.sanitized b).toBytes).flatten
    w'.file = start ++ data ∧ w'.hasher = c.update c.new data := by
  have hchunks : ∀ chunk ∈ bs.map fun b => (w.sanitized b).toBytes, chunk.length = bucketBytes := by
    intro chunk hchunk
    obtain ⟨b, -, rfl⟩ := mem_map.1 hchunk
    exact HashBucket.length_toBytes _
  have hall := (holds_foldl_push h hready hchunks).flushBatch
  rw [← foldl_writeBucket] at hall
  have hempty : ((bs.foldl writeBucket w).flushBatch.buf.take
      (bs.foldl writeBucket w).flushBatch.cursor) = [] := by
    rw [cursor_flushBatch, take_zero]
  have hcontent := hall.content
  have hhasher := hall.hasher_eq
  rw [hempty] at hcontent hhasher
  rw [append_nil] at hcontent
  exact ⟨hcontent, hhasher⟩

end BatchWriter

/-! ### Reading -/

inductive Error where
  | indexCkptNotFound
  | io
  | invalidIndexCkpt (msg : String)
  | tokenMismatch (expected actual : BitVec 128)
  | checksumMismatch (expected actual : UInt32)
  | invalidBucketCount (numBuckets : Nat)
  | overflowPoolExhausted
  deriving DecidableEq, Repr

structure BatchReader (c : Crc32Hasher) where
  file : ByteFile
  hasher : c.State
  buf : List UInt8
  validBytes : Nat
  cursor : Nat
  remainingBytes : Nat
  /-- Where the next batch comes from in the file. -/
  pos : Nat
  maxOverflow : Nat

namespace BatchReader

variable {c : Crc32Hasher}

def new (file : ByteFile) (hasher : c.State) (startPos totalDataBytes maxOverflow : Nat) :
    BatchReader c :=
  ⟨file, hasher, replicate batchBytes 0, 0, 0, totalDataBytes, startPos, maxOverflow⟩

/-- The reader after a batch came from the file. -/
def loaded (r : BatchReader c) (data : List UInt8) (toRead : Nat) : BatchReader c :=
  let buf := Slice.overwrite r.buf 0 data
  { r with
    buf
    pos := r.pos + toRead
    remainingBytes := r.remainingBytes - toRead
    hasher := c.update r.hasher (buf.take toRead)
    validBytes := toRead
    cursor := 0 }

def refill (r : BatchReader c) : Except Error (BatchReader c) :=
  let toRead := min r.remainingBytes batchBytes
  if toRead = 0 then .error (.invalidIndexCkpt "意外到达文件尾部")
  else
    match r.file.readExactAt r.pos toRead with
    | none => .error .io
    | some data => .ok (r.loaded data toRead)

/-- A used up buffer is filled again. -/
def fetch (r : BatchReader c) : Except Error (BatchReader c) :=
  if r.cursor = r.validBytes then r.refill else .ok r

/-- What is restored from the bytes of a bucket. -/
def restored (maxOverflow : Nat) (tail : Option Nat) (src : List UInt8) : HashBucket :=
  (HashBucket.ofBytes src).mapSlots (fun raw => sanitizeDataSlot raw tail)
    (fun raw => sanitizeOverflowSlot raw maxOverflow)

/-- All slots of the bucket are stored, so what it held before does not matter. -/
def readBucketInto (r : BatchReader c) (tail : Option Nat) :
    Except Error (HashBucket × BatchReader c) := do
  let r ← r.fetch
  let src := (r.buf.drop r.cursor).take bucketBytes
  .ok (restored r.maxOverflow tail src, { r with cursor := r.cursor + bucketBytes })

/-- The rest of the buffer and the rest of the file are `rest`, and the checksum is on its way to
that of `data`. -/
structure Unread (r : BatchReader c) (data rest : List UInt8) : Prop where
  content : (r.buf.take r.validBytes).drop r.cursor ++ r.file.drop r.pos = rest
  remaining : r.remainingBytes = r.file.length - r.pos
  pos_le : r.pos ≤ r.file.length
  length_buf : r.buf.length = batchBytes
  valid_le : r.validBytes ≤ batchBytes
  cursor_le : r.cursor ≤ r.validBytes
  cursor_dvd : bucketBytes ∣ r.cursor
  valid_dvd : bucketBytes ∣ r.validBytes
  remaining_dvd : bucketBytes ∣ r.remainingBytes
  hasher_eq : c.update r.hasher (r.file.drop r.pos) = c.update c.new data

variable {r : BatchReader c} {data rest chunk : List UInt8}

lemma unread_new (start data : List UInt8) (hdata : bucketBytes ∣ data.length) (maxOverflow : Nat) :
    (new (c := c) (start ++ data) c.new start.length data.length maxOverflow).Unread data data where
  content := by simp [new]
  remaining := by simp [new]
  pos_le := by simp [new]
  length_buf := length_replicate
  valid_le := zero_le _
  cursor_le := le_refl _
  cursor_dvd := dvd_zero _
  valid_dvd := dvd_zero _
  remaining_dvd := hdata
  hasher_eq := by simp [new]

/-- A batch that stands in the file at the reader's place is unread as before. -/
lemma Unread.loaded (h : r.Unread data (r.file.drop r.pos)) {toRead : Nat}
    (hle : r.pos + toRead ≤ r.file.length) (hbatch : toRead ≤ batchBytes)
    (hdvd : bucketBytes ∣ toRead) :
    (r.loaded ((r.file.drop r.pos).take toRead) toRead).Unread data (r.file.drop r.pos) := by
  have hsplit : (r.file.drop r.pos).take toRead ++ r.file.drop (r.pos + toRead) =
      r.file.drop r.pos := by
    rw [← drop_drop, take_append_drop]
  have hread : ((r.file.drop r.pos).take toRead).length = toRead := by
    rw [length_take, length_drop]
    omega
  have hroom : 0 + ((r.file.drop r.pos).take toRead).length ≤ r.buf.length := by
    rwa [hread, h.length_buf, zero_add]
  have htake : (Slice.overwrite r.buf 0 ((r.file.drop r.pos).take toRead)).take toRead =
      (r.file.drop r.pos).take toRead := by
    have htake := Slice.take_overwrite hroom
    rwa [hread, zero_add, take_zero] at htake
  constructor
  case content =>
    dsimp only [BatchReader.loaded]
    rw [htake, drop_zero, hsplit]
  case remaining =>
    dsimp only [BatchReader.loaded]
    rw [h.remaining, Nat.sub_sub]
  case pos_le => exact hle
  case length_buf => exact (Slice.length_overwrite hroom).trans h.length_buf
  case valid_le => exact hbatch
  case cursor_le => exact zero_le _
  case cursor_dvd => exact dvd_zero _
  case valid_dvd => exact hdvd
  case remaining_dvd => exact dvd_sub h.remaining_dvd hdvd
  case hasher_eq =>
    dsimp only [BatchReader.loaded]
    rw [htake, ← Crc32Hasher.update_append, hsplit, h.hasher_eq]

/-- As long as there is something to read, a bucket comes into the buffer. -/
lemma Unread.fetch (h : r.Unread data rest) (hrest : rest ≠ []) :
    ∃ r', r.fetch = .ok r' ∧ r'.Unread data rest ∧ r'.cursor < r'.validBytes ∧
      r'.maxOverflow = r.maxOverflow := by
  unfold BatchReader.fetch
  split
  · rename_i hused
    have hfile : r.file.drop r.pos = rest := by
      have hempty : (r.buf.take r.validBytes).drop r.cursor = [] := by
        rw [hused]
        exact drop_eq_nil_of_le (length_take_le _ _)
      simpa [hempty] using h.content
    subst hfile
    have hremaining : 0 < r.remainingBytes := by
      rw [h.remaining, ← length_drop]
      exact length_pos_iff.2 hrest
    have hpos : 0 < min r.remainingBytes batchBytes := Nat.lt_min.2 ⟨hremaining, by decide⟩
    have hle : r.pos + min r.remainingBytes batchBytes ≤ r.file.length := by
      have hrem := h.remaining
      omega
    have hdvd : bucketBytes ∣ min r.remainingBytes batchBytes := by
      rcases le_total r.remainingBytes batchBytes with hmin | hmin
      · rw [min_eq_left hmin]
        exact h.remaining_dvd
      · rw [min_eq_right hmin]
        exact dvd_mul_left _ _
    refine ⟨_, ?_, h.loaded hle (min_le_right _ _) hdvd, hpos, rfl⟩
    rw [refill, if_neg hpos.ne', ByteFile.readExactAt_of_le hle]
  · exact ⟨r, rfl, h, lt_of_le_of_ne h.cursor_le ‹_›, rfl⟩

/-- A bucket of the buffer is the next of what is to be read. -/
lemma Unread.take (h : r.Unread data (chunk ++ rest)) (hchunk : chunk.length = bucketBytes)
    (hlt : r.cursor < r.validBytes) :
    (r.buf.drop r.cursor).take bucketBytes = chunk ∧
      Unread { r with cursor := r.cursor + bucketBytes } data rest := by
  have hroom : r.cursor + bucketBytes ≤ r.validBytes := by
    obtain ⟨k, hk⟩ := h.cursor_dvd
    obtain ⟨m, hm⟩ := h.valid_dvd
    simp only [bucketBytes] at *
    omega
  have hlen : chunk.length ≤ ((r.buf.take r.validBytes).drop r.cursor).length := by
    rw [length_drop, length_take, h.length_buf, min_eq_left h.valid_le]
    omega
  have hfront : ((r.buf.take r.validBytes).drop r.cursor).take bucketBytes = chunk := by
    rw [← hchunk, ← take_append_of_le_length hlen, h.content, take_left]
  have hback : (r.buf.take r.validBytes).drop (r.cursor + bucketBytes) ++ r.file.drop r.pos =
      rest := by
    rw [← drop_drop, ← hchunk, ← drop_append_of_le_length hlen, h.content, drop_left]
  constructor
  · rw [← hfront, drop_take, take_take, min_eq_left (by omega)]
  · exact { h with
      content := hback
      cursor_le := hroom
      cursor_dvd := Nat.dvd_add h.cursor_dvd (dvd_refl _) }

lemma Unread.readBucketInto (h : r.Unread data (chunk ++ rest))
    (hchunk : chunk.length = bucketBytes) (tail : Option Nat) :
    ∃ r', r.readBucketInto tail = .ok (restored r.maxOverflow tail chunk, r') ∧
      r'.Unread data rest ∧ r'.maxOverflow = r.maxOverflow := by
  have hne : chunk ++ rest ≠ [] := by
    intro hnil
    rw [(append_eq_nil_iff.1 hnil).1] at hchunk
    cases hchunk
  obtain ⟨r', hfetch, hunread, hlt, hmax⟩ := h.fetch hne
  obtain ⟨htake, hnext⟩ := hunread.take hchunk hlt
  refine ⟨_, ?_, hnext, hmax⟩
  rw [BatchReader.readBucketInto, hfetch, ← hmax, ← htake]
  rfl

/-- When everything is read the checksum is that of the data. -/
lemma Unread.hasher_of_nil (h : r.Unread data []) : r.hasher = c.update c.new data := by
  have hfile : r.file.drop r.pos = [] := (append_eq_nil_iff.1 h.content).2
  have hhasher := h.hasher_eq
  rwa [hfile] at hhasher

end BatchReader

end Wedb.IndexCkpt
