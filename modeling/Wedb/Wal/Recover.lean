import Wedb.Wal.Device

/-!
# Recovery of the write-ahead log

`recover` reads the records from the begin of the log through a window of 64 KiB, stops at the first
place that does not hold a record and takes the end of the last commit frame for the end of the log.
When segments have been removed it first looks for a record, byte by byte. Loops run on fuel; without
fuel there is no result.
-/

namespace Wedb.Wal

/-- `RECOVER_CHUNK_SIZE`. -/
def recoverChunkSize : Nat := 64 * 1024

/-- `TRUNCATE_PROBE_MAX`. -/
def truncateProbeMax : Nat := 2 ^ 20

structure DiskWindow where
  buf : Option (List Byte)
  offset : Nat
  deriving DecidableEq, Repr

namespace DiskWindow

def new : DiskWindow := ⟨none, 0⟩

def covers (w : DiskWindow) (offset need : Nat) : Bool :=
  match w.buf with
  | some buf => w.offset ≤ offset && offset + need ≤ w.offset + buf.length
  | none => false

def slice (w : DiskWindow) : List Byte := w.buf.getD []

def payload (w : DiskWindow) (addr : Nat) (hdr : WalFrameHeader) (off : Nat) : Option (List Byte) :=
  if addr < w.offset then none
  else
    let start := off + recordHeaderLen
    if start + hdr.payloadLen ≤ w.slice.length then some ((w.slice.drop start).take hdr.payloadLen)
    else none

end DiskWindow

/-- The end of a scan. `truncatedAt` and `droppedBytes` are what `note_recover_truncation` leaves
behind, zero when there is nothing to report. -/
structure Scan where
  cur : Nat
  lastCommit : Option (CommitMeta × Nat)
  truncatedAt : Nat
  droppedBytes : Nat
  deriving DecidableEq, Repr

structure Recovered where
  device : Device
  beginAddress : Nat
  committed : Nat
  lastCommit : Option (CommitMeta × Nat)
  truncatedAt : Nat
  droppedBytes : Nat
  preload : List Byte

section

variable (c : Checksum) (bufferSize : Nat) (d : Device)

/-- `has_nonzero_after`. -/
def hasNonzeroAfter (addr len : Nat) : Bool :=
  let probeLen := min len truncateProbeMax
  if probeLen = 0 then false
  else
    match d.readRange addr probeLen with
    | .ok buf => buf.any (· ≠ 0)
    | .error _ => false

/-- `note_recover_truncation`, and the scan ends. -/
def stopNoted (cur : Nat) (lastCommit : Option (CommitMeta × Nat)) : Scan :=
  let dropped := d.droppedBytesAfter cur
  if hasNonzeroAfter d cur dropped then ⟨cur, lastCommit, cur, dropped⟩ else ⟨cur, lastCommit, 0, 0⟩

/-- `fetch_tail`. -/
def fetchTail (offset requestedLen minLen : Nat) : Except DeviceError (List Byte) :=
  match d.readRange offset requestedLen with
  | .ok buf => .ok buf
  | .error (.unexpectedEof expected actual) =>
    if minLen ≤ actual then d.readRange offset actual else .error (.unexpectedEof expected actual)
  | .error e => .error e

/-- `read_recover_payload`. -/
def readRecoverPayload (hdrAddr : Nat) (hdr : WalFrameHeader) (win : DiskWindow) (off : Nat) :
    Except DeviceError (List Byte) :=
  match win.payload hdrAddr hdr off with
  | some payload => .ok payload
  | none => d.readRange (hdrAddr + recordHeaderLen) hdr.payloadLen

/-- `verify_candidate`. -/
def verifyCandidate (hdrAddr : Nat) (hdr : WalFrameHeader) (win : DiskWindow) (off : Nat) :
    Except DeviceError Bool :=
  match readRecoverPayload d hdrAddr hdr win off with
  | .ok payload => .ok (c.verify hdr payload)
  | .error (.unexpectedEof ..) => .ok false
  | .error e => .error e

/-- The window with a header at `cur`. -/
def loadWindow (cur : Nat) (win : DiskWindow) : Except DeviceError DiskWindow :=
  if win.covers cur recordHeaderLen then .ok win
  else (fetchTail d cur recoverChunkSize recordHeaderLen).map fun buf => ⟨some buf, cur⟩

/-- The main loop of `recover`. -/
def scan : Nat → Nat → DiskWindow → Option (CommitMeta × Nat) → Option (Except DeviceError Scan)
  | 0, _, _, _ => none
  | fuel + 1, cur, win, lastCommit =>
    match loadWindow d cur win with
    | .error (.unexpectedEof _ actual) =>
      some (.ok (if 0 < actual then stopNoted d cur lastCommit else ⟨cur, lastCommit, 0, 0⟩))
    | .error e => some (.error e)
    | .ok win =>
      let relOff := cur - win.offset
      match WalFrameHeader.decodeOpt (win.slice.drop relOff) with
      | none => some (.ok (stopNoted d cur lastCommit))
      | some header =>
        let entryLen := header.payloadLen
        if header.isZero || bufferSize < entryLen then some (.ok (stopNoted d cur lastCommit))
        else
          match verifyCandidate c d cur header win relOff with
          | .error e => some (.error e)
          | .ok false => some (.ok (stopNoted d cur lastCommit))
          | .ok true =>
            if entryLen = commitFramePayloadLen then
              match readRecoverPayload d cur header win relOff with
              | .error e => some (.error e)
              | .ok payload =>
                scan fuel (cur + (recordHeaderLen + entryLen)) win
                  (((CommitMeta.decodePayload payload).map fun m => (m, cur + commitFrameTotalLen)).or
                    lastCommit)
            else scan fuel (cur + (recordHeaderLen + entryLen)) win lastCommit

/-- The offsets of one window of `frame_sync`. -/
def probeWindow (win : DiskWindow) : List Nat → Except DeviceError (Option Nat)
  | [] => .ok none
  | off :: offs =>
    match WalFrameHeader.decodeOpt (win.slice.drop off) with
    | none => .ok none
    | some hdr =>
      if hdr.isZero || bufferSize < hdr.payloadLen then probeWindow win offs
      else
        match verifyCandidate c d (win.offset + off) hdr win off with
        | .error e => .error e
        | .ok true => .ok (some (win.offset + off))
        | .ok false => probeWindow win offs

/-- `frame_sync`. -/
def frameSync : Nat → Nat → Option (Except DeviceError (Option Nat))
  | 0, _ => none
  | fuel + 1, winStart =>
    match fetchTail d winStart recoverChunkSize recordHeaderLen with
    | .error (.unexpectedEof ..) => some (.ok none)
    | .error e => some (.error e)
    | .ok probe =>
      match probeWindow c bufferSize d ⟨some probe, winStart⟩ (List.range probe.length) with
      | .error e => some (.error e)
      | .ok (some addr) => some (.ok (some addr))
      | .ok none => frameSync fuel (winStart + max (probe.length - recordHeaderLen) 1)

/-- The end of `recover`: the tail behind what is committed is erased, and the end of the log is read
back. -/
def settleScan (beginAddress : Nat) (s : Scan) : Except DeviceError Recovered :=
  let committed := s.lastCommit.elim s.cur fun last => min last.2 s.cur
  let device :=
    if committed < s.cur ∨ s.truncatedAt ≠ 0 then d.eraseTailAfter committed else d
  let preloadStart := max (committed - bufferSize) beginAddress
  let preload :=
    if preloadStart < committed then device.readRange preloadStart (committed - preloadStart) else .ok []
  preload.map fun preload =>
    { device, beginAddress, committed, lastCommit := s.lastCommit, truncatedAt := s.truncatedAt
      droppedBytes := s.droppedBytes, preload }

/-- A step past each byte of the device, and one to see its end. -/
def recoverFuel : Nat := (d.files.map List.length).sum + 1

/-- `recover`. -/
def recover : Option (Except DeviceError Recovered) := do
  let sync ← if 0 < d.startSegment then frameSync c bufferSize d (recoverFuel d) d.begin
    else some (.ok none)
  match sync with
  | .error e => some (.error e)
  | .ok sync =>
    let beginAddress := sync.getD d.begin
    let result ← scan c bufferSize d (recoverFuel d) beginAddress .new none
    match result with
    | .error e => some (.error e)
    | .ok s => some (settleScan bufferSize d beginAddress s)

end

end Wedb.Wal
