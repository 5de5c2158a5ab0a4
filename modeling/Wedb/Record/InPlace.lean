import Wedb.Record.Header
import Wedb.Lib.Slice

/-!
# Records in place

A record is encoded at the front of a piece of memory and then changed where it stands. The views of
the source keep the header next to the bytes; what they write goes to the memory itself, which also
holds what comes after the record.
-/

namespace Wedb.RecordSlot

open LittleEndian Slice

abbrev Bytes := List UInt8

/-! ### Encoding -/

def buildHeader (prevAddr : UInt64) (key : Bytes) (valLen : Nat)
    (isTombstone inNewVersion : Bool) : Except Error (RecordHeader × Nat) :=
  if maxKeyLen < key.length then .error (.keyLengthOverflow key.length)
  else if 2 ^ 32 - 1 < valLen then .error (.valueLengthOverflow valLen)
  else do
    let header ← RecordHeader.new prevAddr key.length valLen isTombstone
    let prevAddress := withBit header.prevAddress inNewVersionBit inNewVersion
    let totalSize := alignRecordSize (saturatingAdd (saturatingAdd headerSize key.length) valLen)
    .ok ({ header with prevAddress }, totalSize)

/-- Key and value first. The words of the header are stored one by one if the record starts at a
multiple of eight, else copied. -/
def writeRecordUnchecked (aligned : Bool) (page : Bytes) (header : RecordHeader)
    (key val : Bytes) : Bytes :=
  let page := overwrite page headerSize key
  let page := overwrite page (headerSize + key.length) val
  if aligned then
    let page := overwrite page 0 (encode 8 header.prevAddress.toNat)
    overwrite page rdhWordOffset (encode 8 header.rdhWord.toNat)
  else overwrite page 0 header.toBytes

/-- The memory afterwards, and the number of bytes of the record. -/
def encodeToSlice (aligned : Bool) (dst : Bytes) (prevAddr : UInt64) (key val : Bytes)
    (isTombstone inNewVersion : Bool) : Bytes × Except Error Nat :=
  match buildHeader prevAddr key val.length isTombstone inNewVersion with
  | .error e => (dst, .error e)
  | .ok (header, totalSize) =>
    if totalSize ≤ dst.length then
      (writeRecordUnchecked aligned dst header key val, .ok totalSize)
    else (dst, .error (.bufferTooShort totalSize dst.length))

/-! ### Reading -/

structure RecordRef where
  header : RecordHeader
  key : Bytes
  value : Bytes
  deriving DecidableEq, Repr

def RecordRef.fromSlice (slice : Bytes) : Except Error RecordRef := do
  let header ← RecordHeader.fromSlice slice
  if slice.length < header.recordSize then
    throw (.bufferTooShort header.recordSize slice.length)
  return {
    header
    key := (slice.drop headerSize).take header.keyLen
    value := (slice.drop (headerSize + header.keyLen)).take header.valLen }

/-! ### Changing -/

/-- A view for changes: the cached header, the memory from the first byte of the record on and the
number of its bytes that are the record's. -/
structure RecordMut where
  header : RecordHeader
  page : Bytes
  size : Nat
  deriving DecidableEq, Repr

namespace RecordMut

def fromSliceMut (page : Bytes) : Except Error RecordMut := do
  let header ← RecordHeader.fromSlice page
  if 2 ^ 64 ≤ header.recordSize + header.fillerBytes then
    throw .recordSizeOverflow
  if page.length < header.physicalSize then
    throw (.bufferTooShort header.physicalSize page.length)
  return ⟨header, page, header.physicalSize⟩

def keyEnd (r : RecordMut) : Nat := headerSize + r.header.keyLen

/-- The record info word in the memory. -/
def infoWord (r : RecordMut) : UInt64 := .ofNat (decode (r.page.take 8))

/-- The word in the memory and the cached one are changed each for itself. -/
def updateInfo (r : RecordMut) (f : UInt64 → UInt64) : RecordMut :=
  { r with
    page := overwrite r.page 0 (encode 8 (f r.infoWord).toNat)
    header := { r.header with prevAddress := f r.header.prevAddress } }

def publishRdh (r : RecordMut) : RecordMut :=
  { r with
    page := overwrite r.page rdhWordOffset (encode 8 r.header.rdhWord.toNat) }

def publishValLayout (r : RecordMut) (newValLen remainingSlack : Nat) (clearTombstone : Bool) :
    RecordMut :=
  let r := { r with header := r.header.withLayout newValLen remainingSlack }.publishRdh
  if clearTombstone then r.updateInfo fun word => word &&& ~~~(tombstoneBit ||| sealedBit) else r

def writeValWithSlack (r : RecordMut) (newVal : Bytes) (clearTombstone : Bool) :
    RecordMut × Except Error Unit :=
  if r.header.isTombstone && !clearTombstone then (r, .error .tombstoneUpdate)
  else
    match r.header.slackForValLen newVal.length with
    | none => (r, .error (.valueLengthMismatch r.header.physicalSize newVal.length))
    | some remainingSlack =>
      let r := { r with page := overwrite r.page r.keyEnd newVal }
      (r.publishValLayout newVal.length remainingSlack clearTombstone, .ok ())

def updateValueWithSlack (r : RecordMut) (newVal : Bytes) : RecordMut × Except Error Unit :=
  r.writeValWithSlack newVal false

/-- Only the layout changes. -/
def resizeValWithSlack (r : RecordMut) (newValLen : Nat) : RecordMut × Except Error Unit :=
  if r.header.isTombstone then (r, .error .tombstoneUpdate)
  else
    match r.header.slackForValLen newValLen with
    | none => (r, .error (.valueLengthMismatch r.header.physicalSize newValLen))
    | some remainingSlack => (r.publishValLayout newValLen remainingSlack false, .ok ())

def revivifyWithSlack (r : RecordMut) (newVal : Bytes) : RecordMut × Except Error Unit :=
  r.writeValWithSlack newVal true

def setTombstone (r : RecordMut) (isTombstone : Bool) : RecordMut :=
  r.updateInfo fun word => withBit word tombstoneBit isTombstone

/-- A sealed record is left alone. -/
def trySeal (r : RecordMut) : RecordMut :=
  if r.infoWord &&& sealedBit != 0 then r else r.updateInfo fun word => word ||| sealedBit

/-- Bytes are put into the space for the value, as `value_capacity_mut` allows. -/
def fillCapacity (r : RecordMut) (off : Nat) (bytes : Bytes) : RecordMut :=
  { r with page := overwrite r.page (r.keyEnd + off) bytes }

end RecordMut

/-- An operation on a record in place. -/
inductive Op where
  | fillCapacity (off : Nat) (bytes : Bytes)
  | updateValue (newVal : Bytes)
  | resizeVal (newValLen : Nat)
  | revivify (newVal : Bytes)
  | setTombstone (isTombstone : Bool)
  | trySeal
  deriving DecidableEq, Repr

def RecordMut.apply (r : RecordMut) : Op → RecordMut × Except Error Unit
  | .fillCapacity off bytes => (r.fillCapacity off bytes, .ok ())
  | .updateValue newVal => r.updateValueWithSlack newVal
  | .resizeVal newValLen => r.resizeValWithSlack newValLen
  | .revivify newVal => r.revivifyWithSlack newVal
  | .setTombstone isTombstone => (r.setTombstone isTombstone, .ok ())
  | .trySeal => (r.trySeal, .ok ())

/-! ### What the user of a record wrote -/

/-- The space for the value and the length of the value at its front. -/
structure Content where
  area : Bytes
  len : Nat
  deriving DecidableEq, Repr

namespace Content

def value (c : Content) : Bytes := c.area.take c.len

/-- A value is written to the front of the space, or the value becomes as much of the space as its
new length says. -/
def write (c : Content) : Op → Content
  | .fillCapacity off bytes => { c with area := overwrite c.area off bytes }
  | .updateValue newVal => ⟨overwrite c.area 0 newVal, newVal.length⟩
  | .resizeVal newValLen => { c with len := newValLen }
  | .revivify newVal => ⟨overwrite c.area 0 newVal, newVal.length⟩
  | .setTombstone _ | .trySeal => c

end Content

/-- A record and what was written to it. -/
structure State where
  record : RecordMut
  content : Content
  deriving DecidableEq, Repr

/-- The space for the value is a slice: bytes outside of it are refused by its bounds check. -/
def Op.inBounds (r : RecordMut) : Op → Bool
  | .fillCapacity off bytes => r.keyEnd + off + bytes.length ≤ r.size
  | _ => true

/-- What was written changes when the operation succeeds. -/
def step (s : State) (op : Op) : Option State :=
  if op.inBounds s.record then
    some
      { record := (s.record.apply op).1
        content :=
          match (s.record.apply op).2 with
          | .ok () => s.content.write op
          | .error _ => s.content }
  else none

/-- A record that was just encoded. -/
def start (aligned : Bool) (dst : Bytes) (prevAddr : UInt64) (key val : Bytes)
    (isTombstone inNewVersion : Bool) : Except Error State := do
  let (page, size) := encodeToSlice aligned dst prevAddr key val isTombstone inNewVersion
  let size ← size
  let record ← RecordMut.fromSliceMut page
  return ⟨record, ⟨(page.take size).drop (headerSize + key.length), val.length⟩⟩

end Wedb.RecordSlot
