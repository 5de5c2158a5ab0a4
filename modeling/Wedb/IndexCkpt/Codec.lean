import Wedb.Index.Entry
import Wedb.Lib.LittleEndian
import Wedb.Lib.ByteFile

/-!
# Format of an index checkpoint

The header of 64 bytes, and what becomes of the words of a bucket on their way to the file and
back: tentative entries and entries of the read cache are cleared, entries at or above the cut tail
are cleared, and the overflow slot loses its latch bits.
-/

namespace Wedb.IndexCkpt

open HashBucketEntry

/-- `HEADER_SIZE`. -/
def headerSize : Nat := 64

/-- `BUCKET_BYTES`. -/
def bucketBytes : Nat := 64

/-- `BATCH_BUCKETS`. -/
def batchBuckets : Nat := 512

/-- `BATCH_BYTES`. -/
def batchBytes : Nat := batchBuckets * bucketBytes

/-- `INDEX_VERSION`. -/
def indexVersion : UInt32 := 1

/-- `HEADER_CRC_OFFSET`. -/
def headerCrcOffset : Nat := 12

/-- `INDEX_MAGIC`, the text `WEDB_IDX`. -/
def indexMagic : List UInt8 := [0x57, 0x45, 0x44, 0x42, 0x5F, 0x49, 0x44, 0x58]

structure IndexCkptHeader where
  version : UInt32
  crc : UInt32
  token : BitVec 128
  numBuckets : UInt64
  overflowCount : UInt64
  entryCount : UInt64
  deriving DecidableEq, Repr

namespace IndexCkptHeader

/-- The fields that stand behind the checksum, and eight reserved bytes. -/
def encodeTail (h : IndexCkptHeader) : List UInt8 :=
  LittleEndian.encode 16 h.token.toNat ++ (LittleEndian.encode 8 h.numBuckets.toNat ++
    (LittleEndian.encode 8 h.overflowCount.toNat ++
      (LittleEndian.encode 8 h.entryCount.toNat ++ List.replicate 8 0)))

def encode (h : IndexCkptHeader) : List UInt8 :=
  (indexMagic ++ LittleEndian.encode 4 h.version.toNat) ++
    (LittleEndian.encode 4 h.crc.toNat ++ h.encodeTail)

/-- The number in the `n` bytes from `off` on. -/
def field (src : List UInt8) (off n : Nat) : Nat :=
  LittleEndian.decode ((src.drop off).take n)

/-- Only the length and the magic are checked. -/
def decodeOpt (src : List UInt8) : Option IndexCkptHeader :=
  if headerSize ≤ src.length then
    if field src 0 8 = LittleEndian.decode indexMagic then
      some
        { version := UInt32.ofNat (field src 8 4)
          crc := UInt32.ofNat (field src 12 4)
          token := BitVec.ofNat 128 (field src 16 16)
          numBuckets := UInt64.ofNat (field src 32 8)
          overflowCount := UInt64.ofNat (field src 40 8)
          entryCount := UInt64.ofNat (field src 48 8) }
    else none
  else none

lemma length_encode (h : IndexCkptHeader) : h.encode.length = headerSize := by
  simp [encode, encodeTail, indexMagic, headerSize]

/-- A number that fits is read back from where it was put. -/
lemma field_eq {src ys : List UInt8} {off width n : Nat}
    (hsrc : src.drop off = LittleEndian.encode width n ++ ys) (hn : n < 256 ^ width) :
    field src off width = n := by
  rw [field, hsrc, List.take_left' (LittleEndian.length_encode _ _),
    LittleEndian.decode_encode_of_lt hn]

lemma decodeOpt_encode (h : IndexCkptHeader) : decodeOpt h.encode = some h := by
  have hmagic : field h.encode 0 8 = LittleEndian.decode indexMagic := rfl
  have hversion : field h.encode 8 4 = h.version.toNat := field_eq rfl h.version.toNat_lt
  have hcrc : field h.encode 12 4 = h.crc.toNat := field_eq rfl h.crc.toNat_lt
  have htoken : field h.encode 16 16 = h.token.toNat := field_eq rfl h.token.isLt
  have hbuckets : field h.encode 32 8 = h.numBuckets.toNat := field_eq rfl h.numBuckets.toNat_lt
  have hoverflow : field h.encode 40 8 = h.overflowCount.toNat :=
    field_eq rfl h.overflowCount.toNat_lt
  have hentries : field h.encode 48 8 = h.entryCount.toNat := field_eq rfl h.entryCount.toNat_lt
  rw [decodeOpt, if_pos (length_encode h).ge, if_pos hmagic, hversion, hcrc, htoken, hbuckets,
    hoverflow, hentries]
  simp

/-- The checksum is written into the header after the buckets. -/
lemma writeAllAt_crc (h : IndexCkptHeader) (crc : UInt32) (data : List UInt8) :
    ByteFile.writeAllAt (h.encode ++ data) (LittleEndian.encode 4 crc.toNat) headerCrcOffset =
      { h with crc }.encode ++ data := by
  have hlen : (LittleEndian.encode 4 crc.toNat).length =
      (LittleEndian.encode 4 h.crc.toNat).length := by
    rw [LittleEndian.length_encode, LittleEndian.length_encode]
  have hwrite := ByteFile.writeAllAt_middle (indexMagic ++ LittleEndian.encode 4 h.version.toNat)
    (h.encodeTail ++ data) hlen
  have hoff : (indexMagic ++ LittleEndian.encode 4 h.version.toNat).length = headerCrcOffset := rfl
  rw [hoff] at hwrite
  simpa only [encode, encodeTail, List.append_assoc] using hwrite

end IndexCkptHeader

/-- A word of a data slot on its way to the file or back. -/
def sanitizeDataSlot (raw : UInt64) (tail : Option Nat) : UInt64 :=
  if raw = 0 ∨ isTentative raw.toNat ∨ isReadCache raw.toNat then 0
  else
    match tail with
    | some t => if t ≤ address raw.toNat then 0 else raw
    | none => raw

/-- An entry of the read cache takes the address of the main log that `rcResolve` finds for the
slot, and keeps its other bits. Without such an address it is cleared. -/
def resolveReadCache (rcResolve : UInt64 → Nat) (raw : UInt64) : UInt64 :=
  if raw = 0 ∨ ¬isReadCache raw.toNat then raw
  else
    let real := rcResolve raw
    if real = 0 then 0
    else UInt64.ofNat (raw.toNat / addressSpace * addressSpace + real % addressSpace)

/-- The link to an overflow bucket without the latch bits; a bucket that is not in the file is no
link. -/
def sanitizeOverflowSlot (raw : UInt64) (maxOverflow : Nat) : UInt64 :=
  let id := address raw.toNat
  if maxOverflow < id then 0 else UInt64.ofNat id

/-- An address is below the cut tail. -/
def BelowTail (tail : Option Nat) (a : Nat) : Prop := ∀ t ∈ tail, a < t

/-- A committed entry of the main log. -/
structure Committed (raw : UInt64) : Prop where
  ne_zero : raw ≠ 0
  not_tentative : isTentative raw.toNat = false
  not_readCache : isReadCache raw.toNat = false

variable {raw : UInt64} {tail : Option Nat}

/-- A committed entry below the cut is kept. -/
lemma sanitizeDataSlot_eq_self (h : Committed raw)
    (hbelow : BelowTail tail (address raw.toNat)) : sanitizeDataSlot raw tail = raw := by
  have hflags : ¬(raw = 0 ∨ isTentative raw.toNat = true ∨ isReadCache raw.toNat = true) := by
    simp [h.ne_zero, h.not_tentative, h.not_readCache]
  cases tail with
  | none => exact if_neg hflags
  | some t =>
    have hcut : ¬t ≤ address raw.toNat := not_le.2 (hbelow t rfl)
    exact (if_neg hflags).trans (if_neg hcut)

/-- Nothing else is. -/
lemma committed_of_sanitizeDataSlot
    (h : sanitizeDataSlot raw tail ≠ 0) : Committed raw ∧ BelowTail tail (address raw.toNat) := by
  unfold sanitizeDataSlot at h
  split at h
  · exact absurd rfl h
  · rename_i hflags
    simp only [not_or, Bool.not_eq_true] at hflags
    refine ⟨⟨hflags.1, hflags.2.1, hflags.2.2⟩, ?_⟩
    rintro t ⟨⟩
    exact Nat.lt_of_not_le fun hcut => h (if_pos hcut)

/-- The reader's pass over a word does what the writer's left to do. -/
lemma sanitizeDataSlot_sanitizeDataSlot (raw : UInt64) (tail : Option Nat) :
    sanitizeDataSlot (sanitizeDataSlot raw none) tail = sanitizeDataSlot raw tail := by
  by_cases h : Committed raw
  · rw [sanitizeDataSlot_eq_self h (show BelowTail none _ from nofun)]
  · have hzero : ∀ tail, sanitizeDataSlot raw tail = 0 := fun tail =>
      by_contra fun hne => h (committed_of_sanitizeDataSlot hne).1
    rw [hzero none, hzero tail]
    rfl

/-- What is left of a slot is no read-cache entry and not tentative. -/
lemma committed_sanitizeDataSlot
    (h : sanitizeDataSlot raw tail ≠ 0) : Committed (sanitizeDataSlot raw tail) := by
  obtain ⟨hraw, hbelow⟩ := committed_of_sanitizeDataSlot h
  rwa [sanitizeDataSlot_eq_self hraw hbelow]

lemma resolveReadCache_of_not {rcResolve : UInt64 → Nat}
    (h : isReadCache raw.toNat = false) : resolveReadCache rcResolve raw = raw :=
  if_pos (.inr (by simp [h]))

lemma toNat_sanitizeOverflowSlot (raw : UInt64) (maxOverflow : Nat) :
    (sanitizeOverflowSlot raw maxOverflow).toNat =
      if maxOverflow < address raw.toNat then 0 else address raw.toNat := by
  have hlt : address raw.toNat < 2 ^ 64 := (Nat.mod_lt _ (by decide)).trans (by decide)
  unfold sanitizeOverflowSlot
  dsimp only
  split
  · rfl
  · rw [UInt64.toNat_ofNat', Nat.mod_eq_of_lt hlt]

lemma sanitizeOverflowSlot_sanitizeOverflowSlot (raw : UInt64) (maxOverflow : Nat) :
    sanitizeOverflowSlot (sanitizeOverflowSlot raw maxOverflow) maxOverflow =
      sanitizeOverflowSlot raw maxOverflow := by
  have hmod : address (address raw.toNat) = address raw.toNat := Nat.mod_mod _ _
  apply UInt64.toNat.inj
  rw [toNat_sanitizeOverflowSlot, toNat_sanitizeOverflowSlot]
  by_cases h : maxOverflow < address raw.toNat
  · simp [h]
  · simp [h, hmod]

end Wedb.IndexCkpt
