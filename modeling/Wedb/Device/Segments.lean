import Mathlib.Algebra.Group.Int.Even
import Mathlib.Data.List.Sort
import Wedb.Lib.ByteFile
import Wedb.Lib.Machine
import Wedb.Lib.Program

/-!
# The segmented device

`wdev::segmented_device`: a byte-addressed device cut into segment files of one size, a power of
two. Each call is a program of file operations and of operations on the device's three marks; it may
be stopped after any of them. Beside the files runs the flat array of bytes that the device stands
for.
-/

namespace Wedb.Segmented

open Prog

abbrev Byte := UInt8

inductive Error
  | outOfBounds (offset len : Nat)
  | segmentExceeded (segment : Nat)
  | segmentNotFound (segment : Nat)
  | segmentSizeMismatch (segment fileSize segmentSize : Nat)
  | segmentGap (gap : Nat)
  | io
  deriving DecidableEq, Repr

/-! ## Files, marks and the flat array -/

structure Memory where
  /-- segments that have a file -/
  dir : List Nat
  content : Nat → List Byte
  startSegment : Nat
  /-- `-1` before anything was written -/
  endSegment : Int
  purgedSegment : Nat
  /-- the bytes the callers have stored and not erased -/
  flat : Nat → Option Byte
  /-- border and segment of each file that a truncation removed -/
  truncated : List (Nat × Nat)

def i32Max : Int := 2 ^ 31 - 1

/-- `i32::try_from(segment).unwrap_or(i32::MAX)`. -/
def toI32 (segment : Nat) : Int := min segment i32Max

/-- The bytes at and after an address, as they are stored one after the other. -/
def store (flat : Nat → Option Byte) (address : Nat) (bytes : List Byte) : Nat → Option Byte :=
  fun a => if address ≤ a ∧ a < address + bytes.length then bytes[a - address]? else flat a

section Device

-- segment files have `2 ^ shift` bytes
variable (shift : Nat)

def segmentSize : Nat := 2 ^ shift

/-- `segment_mask`. -/
def segmentMask : Nat := segmentSize shift - 1

def segmentOf (address : Nat) : Nat := address >>> shift

def offInSeg (address : Nat) : Nat := address &&& segmentMask shift

/-! ## Operations -/

inductive Op
  | loadStart
  | maxStart (segment : Nat)
  | loadEnd
  | maxEnd (segment : Int)
  /-- the last operation of an erasure of everything from `address` on -/
  | minEnd (segment : Int) (address : Nat)
  | loadPurged
  | maxPurged (segment : Nat)
  /-- size of a segment's file, if there is one -/
  | metadata (segment : Nat)
  | create (segment : Nat)
  /-- fsync of the directory, which may fail -/
  | syncDir
  /-- writes bytes of a caller's buffer that are meant for `address`; gives how many -/
  | pwrite (segment off : Nat) (bytes : List Byte) (address : Nat)
  | setLen (segment len : Nat)
  | removeFile (segment : Nat) (truncation : Bool)
  | readDir

def Op.Res : Op → Type
  | loadStart => Nat
  | maxStart _ => Unit
  | loadEnd => Int
  | maxEnd _ | minEnd _ _ => Unit
  | loadPurged => Nat
  | maxPurged _ => Unit
  | metadata _ => Option Nat
  | create _ => Unit
  | syncDir => Bool
  | pwrite .. => Nat
  | setLen _ _ | removeFile _ _ => Unit
  | readDir => List Nat

/-- One operation. `n` is how many bytes a write takes, and makes a directory sync fail at zero. -/
def exec (m : Memory) (o : Op) (n : Nat) : Option (Memory × o.Res) :=
  match o with
  | .loadStart => some (m, m.startSegment)
  | .maxStart segment => some ({ m with startSegment := max m.startSegment segment }, ())
  | .loadEnd => some (m, m.endSegment)
  | .maxEnd segment => some ({ m with endSegment := max m.endSegment segment }, ())
  | .minEnd segment address =>
    some ({ m with
      endSegment := min m.endSegment segment
      flat := fun a => if address ≤ a then none else m.flat a }, ())
  | .loadPurged => some (m, m.purgedSegment)
  | .maxPurged segment => some ({ m with purgedSegment := max m.purgedSegment segment }, ())
  | .metadata segment =>
    some (m, if segment ∈ m.dir then some (m.content segment).length else none)
  | .create segment =>
    some ({ m with
      dir := segment :: m.dir
      content := Function.update m.content segment [] }, ())
  | .syncDir => some (m, decide (n ≠ 0))
  | .pwrite segment off bytes address =>
    if n ≤ bytes.length then
      some ({ m with
        content := Function.update m.content segment
          (ByteFile.writeAllAt (m.content segment) (bytes.take n) off)
        flat := store m.flat address (bytes.take n) }, n)
    else none
  | .setLen segment len =>
    some ({ m with
      content := Function.update m.content segment ((m.content segment).take len)
      flat := fun a =>
        if segmentOf shift a = segment ∧ len ≤ offInSeg shift a then none else m.flat a }, ())
  | .removeFile segment truncation =>
    some ({ m with
      dir := m.dir.filter (· ≠ segment)
      flat := fun a => if segmentOf shift a = segment then none else m.flat a
      truncated :=
        if truncation then (m.startSegment, segment) :: m.truncated else m.truncated }, ())
  | .readDir => some (m, m.dir)

abbrev Code := Prog Op Op.Res

/-! ## Writing -/

/-- `handle_capacity` of a device without a capacity. -/
def handleCapacity (segment : Nat) : Code Unit := .perform (Op.maxEnd (toI32 segment))

/-- The file of a segment is there for writing (`get_or_open_file` with `create`): a segment below
the border is refused, a missing file is created, and removed again if the directory does not sync. -/
def getOrOpenFile (segment : Nat) : Code (Except Error Unit) := do
  let start : Nat ← perform Op.loadStart
  if segment < start then
    return .error (.segmentNotFound segment)
  else
    let size : Option Nat ← perform (Op.metadata segment)
    match size with
    | some _ => return .ok ()
    | none => do
      perform (Op.create segment)
      let synced : Bool ← perform Op.syncDir
      if synced then return .ok ()
      else do
        perform (Op.removeFile segment false)
        return .error .io

/-- The `pwrite` loop over one chunk; a write of no bytes is an error. -/
def pwriteLoop (segment : Nat) : Nat → Nat → List Byte → Nat → Code (Except Error Unit)
  | 0, _, _, _ => return .ok ()
  | fuel + 1, off, bytes, address => do
    let n : Nat ← perform (Op.pwrite segment off bytes address)
    if n = 0 then return .error .io
    else if n = bytes.length then return .ok ()
    else pwriteLoop segment fuel (off + n) (bytes.drop n) (address + n)

/-- The chunks of a write: `SegmentChunks` cuts the buffer where a segment ends. -/
def writeChunks : Nat → Nat → List Byte → Code (Except Error Unit)
  | 0, _, _ => return .ok ()
  | fuel + 1, currOffset, bytes => do
    if bytes.length = 0 then return .ok ()
    else
      let segment := segmentOf shift currOffset
      let off := offInSeg shift currOffset
      let chunkLen := min (segmentSize shift - off) bytes.length
      if 2 ^ 32 ≤ segment then return .error (.segmentExceeded segment)
      else
        handleCapacity segment
        match ← getOrOpenFile segment with
        | .error e => return .error e
        | .ok () =>
          match ← pwriteLoop segment chunkLen off (bytes.take chunkLen) currOffset with
          | .error e => return .error e
          | .ok () => writeChunks fuel (currOffset + chunkLen) (bytes.drop chunkLen)

/-- `write_impl`. -/
def writeImpl (offset : Nat) (bytes : List Byte) : Code (Except Error Unit) :=
  if 2 ^ 64 ≤ offset + bytes.length then return .error (.outOfBounds offset bytes.length)
  else writeChunks shift bytes.length offset bytes

/-! ## Truncating -/

/-- The deletions of `truncate_until_segment_impl`, in ascending order. -/
def removeFiles : List Nat → Code Unit
  | [] => return ()
  | segment :: segments => do
    perform (Op.removeFile segment true)
    removeFiles segments

/-- `truncate_until_segment_impl`: the border moves first, the mark of finished deletions last. -/
def truncateUntilSegment (segment : Nat) : Code (Except Error Unit) := do
  let purged : Nat ← perform Op.loadPurged
  if segment ≤ purged then return .ok ()
  else
    perform (Op.maxStart segment)
    let entries : List Nat ← perform Op.readDir
    removeFiles ((entries.filter (· < segment)).insertionSort (· ≤ ·))
    let synced : Bool ← perform Op.syncDir
    if synced then do
      perform (Op.maxPurged segment)
      return .ok ()
    else return .error .io

/-! ## Erasing -/

/-- `get_file_size`. -/
def getFileSize (segment : Nat) : Code Nat := do
  let start : Nat ← perform Op.loadStart
  if segment < start then return 0
  else
    let size : Option Nat ← perform (Op.metadata segment)
    return size.getD 0

/-- `remove_segment`. -/
def removeSegment (segment : Nat) : Code (Except Error Unit) := do
  let size : Option Nat ← perform (Op.metadata segment)
  match size with
  | none => return .ok ()
  | some _ => do
    perform (Op.removeFile segment false)
    let synced : Bool ← perform Op.syncDir
    if synced then return .ok () else return .error .io

/-- The segments `next ..= end`, from the last one down. -/
def removeSegments (next : Nat) : Nat → Code (Except Error Unit)
  | 0 => return .ok ()
  | count + 1 => do
    match ← removeSegment (next + count) with
    | .error e => return .error e
    | .ok () => removeSegments next count

def setLen (segment len : Nat) : Code Unit := .perform (Op.setLen segment len)

/-- The file of the address is cut at the address. -/
def shrink (segment off : Nat) : Code Unit := do
  let fileSize ← getFileSize segment
  if off < fileSize then setLen segment off
  else return ()

/-- `erase_tail_after`. -/
def eraseTailAfter (fromAddress : Nat) : Code (Except Error Unit) := do
  let segment := segmentOf shift fromAddress
  if 2 ^ 32 ≤ segment then return .error (.segmentExceeded segment)
  else
    shrink segment (offInSeg shift fromAddress)
    -- the next segment has to fit into an `i32` as well
    if i32Max ≤ segment then return .error (.segmentExceeded segment)
    else
      let endSegment : Int ← perform Op.loadEnd
      match ← removeSegments (segment + 1) (endSegment - segment).toNat with
      | .error e => return .error e
      | .ok () => do
        perform (Op.minEnd segment fromAddress)
        return .ok ()

/-! ## Recovering -/

/-- The loop of `recover` over the segments found, in ascending order: the first segment and the
last one of an unbroken stretch. -/
def recoverLoop : List Nat → Int → Nat → Int → Except Error (Nat × Int)
  | [], _, recoveredStart, endSegment => .ok (recoveredStart, endSegment)
  | id :: segids, prev, recoveredStart, endSegment =>
    if (id : Int) ≠ prev + 1 then
      if prev ≠ -1 then .error (.segmentGap (prev + 1).toNat)
      else recoverLoop segids id id endSegment
    else recoverLoop segids id recoveredStart (max endSegment (toI32 id))

/-- `recover` of a device that was just opened. -/
def recover (m : Memory) : Except Error Memory :=
  match m.dir.find? fun id => segmentSize shift < (m.content id).length with
  | some id => .error (.segmentSizeMismatch id (m.content id).length (segmentSize shift))
  | none =>
    match recoverLoop (m.dir.insertionSort (· ≤ ·)) (-1) 0 (-1) with
    | .error e => .error e
    | .ok (recoveredStart, endSegment) =>
      .ok { m with
        startSegment := recoveredStart
        endSegment := endSegment
        purgedSegment := recoveredStart }

/-! ## Reading -/

/-- The chunks of a read: the bytes that came back, and the error that ended it. -/
def readChunks (m : Memory) : Nat → Nat → Nat → List Byte × Option Error
  | 0, _, _ => ([], none)
  | fuel + 1, currOffset, len =>
    if len = 0 then ([], none)
    else
      let segment := segmentOf shift currOffset
      let off := offInSeg shift currOffset
      let chunkLen := min (segmentSize shift - off) len
      if 2 ^ 32 ≤ segment then ([], some (.segmentExceeded segment))
      else if segment < m.startSegment ∨ segment ∉ m.dir then
        ([], some (.segmentNotFound segment))
      else
        let got := ((m.content segment).drop off).take chunkLen
        -- a short read is the end of the file
        if got.length < chunkLen then (got, none)
        else
          let rest := readChunks m fuel (currOffset + chunkLen) (len - chunkLen)
          (got ++ rest.1, rest.2)

/-- `read_impl`. -/
def readImpl (m : Memory) (offset len : Nat) : List Byte × Option Error :=
  if 2 ^ 64 ≤ offset + len then ([], some (.outOfBounds offset len))
  else readChunks shift m len offset len

/-! ## Runs -/

inductive Outcome
  | write
  /-- a truncation has returned -/
  | truncate (segment : Nat) (result : Except Error Unit)
  | erase

structure State where
  memory : Memory
  /-- the call in progress -/
  task : Option (Code Outcome)
  /-- the device was opened and recovered by the last step -/
  opened : Bool
  /-- an opening that failed -/
  failure : Option Error

inductive Action
  | write (offset : Nat) (bytes : List Byte)
  | truncate (segment : Nat)
  | erase (fromAddress : Nat)
  /-- the next operation of the call -/
  | run (n : Nat)
  /-- the call ends where it is, by an error or by itself -/
  | stop
  /-- the process ends, and the device is opened and recovered -/
  | restart
  deriving DecidableEq, Repr

/-- The first byte after the highest segment; with no file there, the border. -/
def Memory.frontier (m : Memory) : Nat :=
  match m.dir.max? with
  | some highest => (highest + 1) * segmentSize shift
  | none => m.startSegment * segmentSize shift

def step (s : State) (a : Action) : Option State :=
  if s.failure.isSome then none
  else
    match a, s.task with
    | .write offset bytes, none =>
      if offset ≤ s.memory.frontier shift then
        some { s with
          task := some (do
            let _ ← writeImpl shift offset bytes
            return .write)
          opened := false }
      else none
    | .truncate segment, none =>
      some { s with
        task := some (do return .truncate segment (← truncateUntilSegment segment))
        opened := false }
    | .erase fromAddress, none =>
      some { s with
        task := some (do
          let _ ← eraseTailAfter shift fromAddress
          return .erase)
        opened := false }
    | .run n, some (.call o k) =>
      match exec shift s.memory o n with
      | some (m, r) => some { s with memory := m, task := some (k r), opened := false }
      | none => none
    | .stop, some _ => some { s with task := none, opened := false }
    | .restart, _ =>
      match recover shift s.memory with
      | .ok m => some { s with memory := m, task := none, opened := true }
      | .error e => some { s with task := none, failure := some e }
    | _, _ => none

/-- A device opened over an empty directory. -/
def start : State where
  memory :=
    { dir := []
      content := fun _ => []
      startSegment := 0
      endSegment := -1
      purgedSegment := 0
      flat := fun _ => none
      truncated := [] }
  task := none
  opened := true
  failure := none

end Device

end Wedb.Segmented
