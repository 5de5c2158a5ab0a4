import Wedb.Lib.LittleEndian

/-!
# Record headers

A record of the log starts with two words of 64 bits. The first holds the address of the previous
version and the flags. The second holds the number of filler words, the length of the key and the
length of the value, so that it alone gives the bytes that the record occupies: header, key and
value rounded up to eight bytes, and the filler.

Sizes are of the source's type `usize`; arithmetic on them wraps around as in a release build, or
saturates where the source says so.
-/

namespace Wedb.RecordSlot

open LittleEndian

/-- `HEADER_SIZE`. -/
def headerSize : Nat := 16

/-- `RDH_WORD_OFFSET`. -/
def rdhWordOffset : Nat := 8

/-- `PAD_KEY_LEN`, the length that marks padding. -/
def padKeyLen : Nat := 2 ^ 24 - 1

/-- `MAX_KEY_LEN`. -/
def maxKeyLen : Nat := padKeyLen - 1

/-- `MAX_FILLER_BYTES`. -/
def maxFillerBytes : Nat := 255 * 8

/-- `SEALED_BIT`. -/
def sealedBit : UInt64 := 0x1000000000000000

/-- `IN_NEW_VERSION_BIT`. -/
def inNewVersionBit : UInt64 := 0x2000000000000000

/-- `TOMBSTONE_BIT`. -/
def tombstoneBit : UInt64 := 0x8000000000000000

inductive Error where
  | bufferTooShort (expected actual : Nat)
  | addressOverflow (addr : UInt64)
  | keyLengthOverflow (len : Nat)
  | valueLengthOverflow (len : Nat)
  | recordSizeOverflow
  | valueLengthMismatch (expected actual : Nat)
  | tombstoneUpdate
  deriving DecidableEq, Repr

/-- `saturating_add`. -/
def saturatingAdd (a b : Nat) : Nat := min (a + b) (2 ^ 64 - 1)

/-- Round up to eight bytes; the addition wraps around. -/
def alignRecordSize (size : Nat) : Nat := (size + 7) % 2 ^ 64 / 8 * 8

/-- Set or clear bits of a word. -/
def withBit (word mask : UInt64) (on : Bool) : UInt64 :=
  if on then word ||| mask else word &&& ~~~mask

/-- Filler, length of the key and length of the value in one word. -/
def packRdhWord (fillerWords keyLen valLen : Nat) : UInt64 :=
  .ofNat (fillerWords % 2 ^ 8 + keyLen % 2 ^ 24 * 2 ^ 8 + valLen % 2 ^ 32 * 2 ^ 32)

structure RecordHeader where
  /-- The record info word. -/
  prevAddress : UInt64
  /-- The record data header word. -/
  rdhWord : UInt64
  deriving DecidableEq, Repr

namespace RecordHeader

def fillerWords (h : RecordHeader) : Nat := h.rdhWord.toNat % 2 ^ 8

def fillerBytes (h : RecordHeader) : Nat := h.fillerWords * 8

def keyLen (h : RecordHeader) : Nat := h.rdhWord.toNat / 2 ^ 8 % 2 ^ 24

def valLen (h : RecordHeader) : Nat := h.rdhWord.toNat / 2 ^ 32

def setFillerWords (h : RecordHeader) (words : Nat) : RecordHeader :=
  { h with rdhWord := .ofNat (h.rdhWord.toNat / 2 ^ 8 * 2 ^ 8 + words % 2 ^ 8) }

def setValLen (h : RecordHeader) (valLen : Nat) : RecordHeader :=
  { h with rdhWord := .ofNat (h.rdhWord.toNat % 2 ^ 32 + valLen % 2 ^ 32 * 2 ^ 32) }

/-- Another length of the value and another filler. The length is cut to 32 bits and the number of
filler words to 8. -/
def withLayout (h : RecordHeader) (newValLen remainingSlack : Nat) : RecordHeader :=
  (h.setValLen (newValLen % 2 ^ 32)).setFillerWords (remainingSlack / 8 % 2 ^ 8)

def isTombstone (h : RecordHeader) : Bool := h.prevAddress &&& tombstoneBit != 0

/-- `new`: the address has to fit in 48 bits. -/
def new (prevAddr : UInt64) (keyLen valLen : Nat) (isTombstone : Bool) :
    Except Error RecordHeader :=
  if 2 ^ 48 ≤ prevAddr.toNat then .error (.addressOverflow prevAddr)
  else .ok ⟨withBit prevAddr tombstoneBit isTombstone, packRdhWord 0 keyLen valLen⟩

/-- Header, key and value. -/
def kvSize (h : RecordHeader) : Nat := saturatingAdd (saturatingAdd headerSize h.keyLen) h.valLen

def recordSize (h : RecordHeader) : Nat := alignRecordSize h.kvSize

/-- The bytes that the record occupies. -/
def physicalSize (h : RecordHeader) : Nat := saturatingAdd h.recordSize h.fillerBytes

/-- The filler that is left when the value gets another length, if the slot can take it. -/
def slackForValLen (h : RecordHeader) (newValLen : Nat) : Option Nat :=
  let physical := h.physicalSize
  let newAligned := alignRecordSize (saturatingAdd (saturatingAdd headerSize h.keyLen) newValLen)
  if newAligned ≤ physical ∧ physical - newAligned ≤ maxFillerBytes then
    some (physical - newAligned)
  else none

def toBytes (h : RecordHeader) : List UInt8 :=
  encode 8 h.prevAddress.toNat ++ encode 8 h.rdhWord.toNat

def fromBytes (bytes : List UInt8) : RecordHeader :=
  ⟨.ofNat (decode (bytes.take 8)), .ofNat (decode ((bytes.drop 8).take 8))⟩

def fromSlice (src : List UInt8) : Except Error RecordHeader :=
  if headerSize ≤ src.length then .ok (fromBytes src)
  else .error (.bufferTooShort headerSize src.length)

/-! ### The second word -/

variable (h : RecordHeader)

lemma toNat_setFillerWords (words : Nat) :
    (h.setFillerWords words).rdhWord.toNat = h.rdhWord.toNat / 2 ^ 8 * 2 ^ 8 + words % 2 ^ 8 := by
  have hlt := h.rdhWord.toNat_lt
  exact UInt64.toNat_ofNat_of_lt' (show _ < 2 ^ 64 by omega)

lemma toNat_setValLen (n : Nat) :
    (h.setValLen n).rdhWord.toNat = h.rdhWord.toNat % 2 ^ 32 + n % 2 ^ 32 * 2 ^ 32 :=
  UInt64.toNat_ofNat_of_lt' (show _ < 2 ^ 64 by omega)

@[simp] lemma fillerWords_setFillerWords (words : Nat) :
    (h.setFillerWords words).fillerWords = words % 2 ^ 8 := by
  rw [fillerWords, toNat_setFillerWords]
  omega

@[simp] lemma keyLen_setFillerWords (words : Nat) :
    (h.setFillerWords words).keyLen = h.keyLen := by
  rw [keyLen, keyLen, toNat_setFillerWords]
  omega

@[simp] lemma valLen_setFillerWords (words : Nat) :
    (h.setFillerWords words).valLen = h.valLen := by
  rw [valLen, valLen, toNat_setFillerWords]
  omega

@[simp] lemma keyLen_setValLen (n : Nat) : (h.setValLen n).keyLen = h.keyLen := by
  rw [keyLen, keyLen, toNat_setValLen]
  omega

@[simp] lemma valLen_setValLen (n : Nat) : (h.setValLen n).valLen = n % 2 ^ 32 := by
  rw [valLen, toNat_setValLen]
  omega

@[simp] lemma prevAddress_withLayout (n slack : Nat) :
    (h.withLayout n slack).prevAddress = h.prevAddress := by
  rw [withLayout, setFillerWords, setValLen]

@[simp] lemma keyLen_withLayout (n slack : Nat) : (h.withLayout n slack).keyLen = h.keyLen := by
  rw [withLayout, keyLen_setFillerWords, keyLen_setValLen]

@[simp] lemma valLen_withLayout (n slack : Nat) :
    (h.withLayout n slack).valLen = n % 2 ^ 32 := by
  rw [withLayout, valLen_setFillerWords, valLen_setValLen, Nat.mod_mod]

@[simp] lemma fillerWords_withLayout (n slack : Nat) :
    (h.withLayout n slack).fillerWords = slack / 8 % 2 ^ 8 := by
  rw [withLayout, fillerWords_setFillerWords, Nat.mod_mod]

lemma toNat_packRdhWord (f k v : Nat) : (packRdhWord f k v).toNat =
    f % 2 ^ 8 + k % 2 ^ 24 * 2 ^ 8 + v % 2 ^ 32 * 2 ^ 32 :=
  UInt64.toNat_ofNat_of_lt' (show _ < 2 ^ 64 by omega)

lemma keyLen_lt : h.keyLen < 2 ^ 24 := Nat.mod_lt _ (by decide)

lemma valLen_lt : h.valLen < 2 ^ 32 := by
  have hlt := h.rdhWord.toNat_lt
  rw [valLen]
  omega

lemma fillerWords_lt : h.fillerWords < 2 ^ 8 := Nat.mod_lt _ (by decide)

/-- Lengths that fit in the header do not wrap around. -/
lemma align_kvSize {k n : Nat} (hk : k < 2 ^ 24) (hn : n < 2 ^ 32) :
    alignRecordSize (saturatingAdd (saturatingAdd headerSize k) n) =
      (headerSize + k + n + 7) / 8 * 8 := by
  simp only [alignRecordSize, saturatingAdd, headerSize]
  omega

lemma physicalSize_eq :
    h.physicalSize = (headerSize + h.keyLen + h.valLen + 7) / 8 * 8 + h.fillerWords * 8 := by
  have hk := h.keyLen_lt
  have hv := h.valLen_lt
  have hf := h.fillerWords_lt
  rw [physicalSize, recordSize, kvSize, align_kvSize hk hv, fillerBytes, saturatingAdd, headerSize]
  omega

/-- What the slot can take, for a length that fits in the header. -/
lemma slackForValLen_eq_some {h : RecordHeader} {n slack : Nat} (hn : n < 2 ^ 32)
    (hs : h.slackForValLen n = some slack) :
    (headerSize + h.keyLen + n + 7) / 8 * 8 + slack = h.physicalSize ∧ slack ≤ maxFillerBytes := by
  unfold slackForValLen at hs
  rw [align_kvSize h.keyLen_lt hn] at hs
  obtain ⟨hg, ⟨⟩⟩ := Option.ite_none_right_eq_some.1 hs
  exact ⟨by omega, hg.2⟩

/-- The new layout occupies the same bytes. -/
lemma physicalSize_withLayout {h : RecordHeader} {n slack : Nat} (hn : n < 2 ^ 32)
    (hs : h.slackForValLen n = some slack) :
    (h.withLayout n slack).physicalSize = h.physicalSize := by
  obtain ⟨hsize, hmax⟩ := slackForValLen_eq_some hn hs
  have hphys := h.physicalSize_eq
  rw [maxFillerBytes] at hmax
  rw [physicalSize_eq, keyLen_withLayout, valLen_withLayout, fillerWords_withLayout]
  omega

lemma fromBytes_toBytes_append (rest : List UInt8) : fromBytes (h.toBytes ++ rest) = h := by
  have hlen : (encode 8 h.prevAddress.toNat).length = 8 := length_encode _ _
  have hlen' : (encode 8 h.rdhWord.toNat).length = 8 := length_encode _ _
  rw [fromBytes, toBytes, List.append_assoc, List.take_left' hlen, List.drop_left' hlen,
    List.take_left' hlen', decode_encode_of_lt h.prevAddress.toNat_lt,
    decode_encode_of_lt h.rdhWord.toNat_lt, UInt64.ofNat_toNat, UInt64.ofNat_toNat]

lemma length_toBytes : h.toBytes.length = headerSize := by
  rw [toBytes, List.length_append, length_encode, length_encode, headerSize]

lemma fromSlice_toBytes_append (rest : List UInt8) : fromSlice (h.toBytes ++ rest) = .ok h := by
  have hlen : headerSize ≤ (h.toBytes ++ rest).length := by
    rw [List.length_append]
    exact Nat.le_add_right _ _
  rw [fromSlice, if_pos hlen, fromBytes_toBytes_append]

/-- The size of a record does not overflow. -/
lemma recordSize_add_lt : h.recordSize + h.fillerBytes < 2 ^ 64 := by
  have hk := h.keyLen_lt
  have hv := h.valLen_lt
  have hf := h.fillerWords_lt
  rw [recordSize, kvSize, align_kvSize hk hv, fillerBytes, headerSize]
  omega

lemma recordSize_le_physicalSize : h.recordSize ≤ h.physicalSize := by
  have hlt := h.recordSize_add_lt
  rw [physicalSize, saturatingAdd]
  omega

end RecordHeader

end Wedb.RecordSlot
