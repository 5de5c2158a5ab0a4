import Wedb.Lib.LittleEndian

/-!
# Frames of the write-ahead log

A record of the log is a header of eight bytes, the length and the checksum of the payload, followed
by the payload. Commit frames are ordinary records whose payload starts with a magic number. The
checksum function is a parameter: nothing here depends on which one it is.
-/

namespace Wedb.Wal

open List LittleEndian

abbrev Byte := UInt8

/-- `RECORD_HEADER_LEN`. -/
def recordHeaderLen : Nat := 8

/-- `EMPTY_PAYLOAD_CRC`, so that the header of an empty record is not all zero. -/
def emptyPayloadCrc : Nat := 0xFFFFFFFF

/-- `COMMIT_FRAME_MAGIC`. -/
def commitFrameMagic : Nat := 0x4D4D4954434F4DFF

/-- `COMMIT_FRAME_PAYLOAD_LEN`. -/
def commitFramePayloadLen : Nat := 24

/-- `COMMIT_FRAME_TOTAL_LEN`. -/
def commitFrameTotalLen : Nat := recordHeaderLen + commitFramePayloadLen

/-- A checksum of 32 bits. -/
structure Checksum where
  crc32 : List Byte → Nat
  lt : ∀ payload, crc32 payload < 2 ^ 32

/-- Both fields are words of 32 bits. -/
structure WalFrameHeader where
  entryLen : Nat
  crc32 : Nat
  deriving DecidableEq, Repr

namespace WalFrameHeader

def isZero (h : WalFrameHeader) : Bool := h.entryLen == 0 && h.crc32 == 0

def payloadLen (h : WalFrameHeader) : Nat := h.entryLen

/-- One word of 64 bits, the length in its lower half. -/
def toBytes (h : WalFrameHeader) : List Byte :=
  encode 8 (h.entryLen + h.crc32 * 2 ^ 32)

def fromBytes (src : List Byte) : WalFrameHeader :=
  let packed := decode src
  ⟨packed % 2 ^ 32, packed / 2 ^ 32 % 2 ^ 32⟩

def decodeOpt (src : List Byte) : Option WalFrameHeader :=
  if recordHeaderLen ≤ src.length then some (fromBytes (src.take recordHeaderLen)) else none

end WalFrameHeader

namespace Checksum

variable (c : Checksum)

def payloadCrc (payload : List Byte) : Nat :=
  if payload.isEmpty then emptyPayloadCrc else c.crc32 payload

/-- The checksum of the parts one after the other. -/
def forPayloadParts (parts : List (List Byte)) : WalFrameHeader :=
  let totalLen := (parts.map List.length).sum
  if totalLen = 0 then ⟨0, emptyPayloadCrc⟩ else ⟨totalLen % 2 ^ 32, c.crc32 parts.flatten⟩

def verify (h : WalFrameHeader) (payload : List Byte) : Bool :=
  payload.length == h.entryLen && c.payloadCrc payload == h.crc32

/-- The bytes of a record. -/
def frame (payload : List Byte) : List Byte :=
  (c.forPayloadParts [payload]).toBytes ++ payload

/-- The bytes of records one after the other. -/
def frames (payloads : List (List Byte)) : List Byte :=
  payloads.flatMap c.frame

end Checksum

structure CommitMeta where
  begin : Nat
  cookie : Int
  deriving DecidableEq, Repr

/-- `NO_COOKIE`. -/
def noCookie : Int := -2 ^ 63

/-- A word of 64 bits that is read as a signed number. -/
def signed (n : Nat) : Int := if n < 2 ^ 63 then n else (n : Int) - 2 ^ 64

def unsigned (n : Int) : Nat := (n % 2 ^ 64).toNat

namespace CommitMeta

def encodePayload (m : CommitMeta) : List Byte :=
  encode 8 commitFrameMagic ++ encode 8 m.begin ++ encode 8 (unsigned m.cookie)

def decodePayload (payload : List Byte) : Option CommitMeta :=
  if commitFramePayloadLen ≤ payload.length then
    if decode (payload.take 8) = commitFrameMagic then
      some ⟨decode ((payload.drop 8).take 8), signed (decode ((payload.drop 16).take 8))⟩
    else none
  else none

end CommitMeta

/-- A record that recovery takes for a commit frame. -/
def isCommit (payload : List Byte) : Bool :=
  payload.length == commitFramePayloadLen && (CommitMeta.decodePayload payload).isSome

/-! ### The codecs -/

namespace WalFrameHeader

variable {h : WalFrameHeader}

@[simp]
lemma length_toBytes : h.toBytes.length = recordHeaderLen := length_encode ..

lemma fromBytes_toBytes (hlen : h.entryLen < 2 ^ 32) (hcrc : h.crc32 < 2 ^ 32) :
    fromBytes h.toBytes = h := by
  obtain ⟨entryLen, crc32⟩ := h
  have hlen : entryLen < 2 ^ 32 := hlen
  have hcrc : crc32 < 2 ^ 32 := hcrc
  have hlt : entryLen + crc32 * 2 ^ 32 < 256 ^ 8 := by omega
  simp only [fromBytes, toBytes, decode_encode_of_lt hlt, mk.injEq]
  omega

lemma decodeOpt_toBytes (hlen : h.entryLen < 2 ^ 32) (hcrc : h.crc32 < 2 ^ 32) (rest : List Byte) :
    decodeOpt (h.toBytes ++ rest) = some h := by
  rw [decodeOpt, if_pos (by simp), ← length_toBytes, take_left, fromBytes_toBytes hlen hcrc]

end WalFrameHeader

namespace Checksum

variable (c : Checksum)

lemma payloadCrc_lt (payload : List Byte) : c.payloadCrc payload < 2 ^ 32 := by
  unfold payloadCrc
  split
  · decide
  · exact c.lt payload

/-- The header of a record, one part or many. -/
lemma forPayloadParts_eq {parts : List (List Byte)} (h : parts.flatten.length < 2 ^ 32) :
    c.forPayloadParts parts = ⟨parts.flatten.length, c.payloadCrc parts.flatten⟩ := by
  simp only [forPayloadParts, payloadCrc]
  split
  · rename_i hzero
    have hnil : parts.flatten = [] := eq_nil_of_length_eq_zero (by rw [length_flatten, hzero])
    simp [hnil]
  · rename_i hne
    have hcons : parts.flatten.isEmpty = false := by
      rw [isEmpty_eq_false_iff]
      rintro hnil
      exact hne (by rw [← length_flatten, hnil, length_nil])
    simpa [hcons] using h

lemma forPayloadParts_singleton {payload : List Byte} (h : payload.length < 2 ^ 32) :
    c.forPayloadParts [payload] = ⟨payload.length, c.payloadCrc payload⟩ := by
  have hflat : [payload].flatten = payload := by simp
  have := c.forPayloadParts_eq (hflat.symm ▸ h)
  rwa [hflat] at this

/-- Splitting a payload into parts changes no byte of the record. -/
lemma frame_flatten (parts : List (List Byte)) :
    c.frame parts.flatten = (c.forPayloadParts parts).toBytes ++ parts.flatten := by
  simp [frame, forPayloadParts]

lemma length_frame (payload : List Byte) :
    (c.frame payload).length = recordHeaderLen + payload.length := by
  simp [frame]

@[simp]
lemma frames_nil : c.frames [] = [] := rfl

lemma frames_cons (payload : List Byte) (payloads : List (List Byte)) :
    c.frames (payload :: payloads) = c.frame payload ++ c.frames payloads := rfl

lemma frames_append (as bs : List (List Byte)) :
    c.frames (as ++ bs) = c.frames as ++ c.frames bs := flatMap_append

/-- The header at the front of a record. -/
lemma decodeOpt_frame {payload : List Byte} (h : payload.length < 2 ^ 32) (rest : List Byte) :
    WalFrameHeader.decodeOpt (c.frame payload ++ rest) =
      some ⟨payload.length, c.payloadCrc payload⟩ := by
  rw [frame, c.forPayloadParts_singleton h, append_assoc,
    WalFrameHeader.decodeOpt_toBytes h (c.payloadCrc_lt payload)]

lemma verify_frame (payload : List Byte) :
    c.verify ⟨payload.length, c.payloadCrc payload⟩ payload = true := by
  simp [verify]

/-- No record has a header of zeros. -/
lemma isZero_frame (payload : List Byte) :
    WalFrameHeader.isZero ⟨payload.length, c.payloadCrc payload⟩ = false := by
  cases payload with
  | nil => rfl
  | cons => simp [WalFrameHeader.isZero]

end Checksum

namespace CommitMeta

variable {m : CommitMeta}

lemma isSome_decodePayload : (decodePayload m.encodePayload).isSome = true := by
  have hmagic : decode (m.encodePayload.take 8) = commitFrameMagic := by
    rw [encodePayload, append_assoc, take_left' (length_encode ..)]
    exact decode_encode_of_lt (by decide)
  rw [decodePayload, if_pos hmagic]
  rfl

end CommitMeta

/-- The frame that a commit writes is one. -/
lemma isCommit_encodePayload (m : CommitMeta) : isCommit m.encodePayload = true := by
  rw [isCommit, CommitMeta.isSome_decodePayload]
  rfl

end Wedb.Wal
