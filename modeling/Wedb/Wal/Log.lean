import Wedb.Lib.Machine
import Wedb.Lib.Ring
import Wedb.Wal.Frame

/-!
# The write-ahead log at work

Any number of writers reserve address ranges and write their frames into the ring; readers fold the
in-flight slots to the safe tail; the leader of the commit pipeline writes commit frames, flushes the
ring to the device and publishes the committed address. Every access to a shared word is a step of its
own, the copy of a frame into the ring and the fill of the flush buffer are one step each.

Addresses are natural numbers. The ghost fields record which frames have been reserved, at which
addresses, and which addresses have been written.
-/

namespace Wedb.Wal

/-- `align_down`, `align_up`. -/
def alignDown (v align : Nat) : Nat := v / align * align

def alignUp (v align : Nat) : Nat := (v + (align - 1)) / align * align

/-- The parameters of a log, with what `RingBuffer::new` asks of them. -/
structure Config where
  checksum : Checksum
  sectorSize : Nat
  bufferSize : Nat
  inflightSlots : Nat
  begin : Nat
  sector_pos : 0 < sectorSize
  buffer_pos : 0 < bufferSize
  buffer_aligned : sectorSize ∣ bufferSize

/-! ### The ring -/

section RingBuffer

variable (cap : Nat)

/-- `copy_to_ring`: in one piece, or in two around the end of the buffer. -/
def copyToRing (ring : Nat → Byte) (logicalOffset : Nat) (src : List Byte) : Nat → Byte :=
  let ringOff := logicalOffset % cap
  if ringOff + src.length ≤ cap then Ring.copy ring ringOff src
  else
    let part1 := cap - ringOff
    Ring.copy (Ring.copy ring ringOff (src.take part1)) 0 (src.drop part1)

/-- `copy_ring_to`. -/
def copyRingTo (ring : Nat → Byte) (logicalOffset len : Nat) : List Byte :=
  let ringOff := logicalOffset % cap
  if ringOff + len ≤ cap then Ring.load ring ringOff len
  else
    let part1 := cap - ringOff
    Ring.load ring ringOff part1 ++ Ring.load ring 0 (len - part1)

/-- The parts of a record one after the other, each with its own wrap. -/
def writeParts (ring : Nat → Byte) : Nat → List (List Byte) → Nat → Byte
  | _, [] => ring
  | offset, part :: parts =>
    writeParts (if part.isEmpty then ring else copyToRing cap ring offset part) (offset + part.length)
      parts

/-- `write_record_parts`. -/
def writeRecordParts (ring : Nat → Byte) (logicalOffset : Nat) (header : List Byte)
    (parts : List (List Byte)) : Nat → Byte :=
  let totalLen := recordHeaderLen + (parts.map List.length).sum
  let ringOff := logicalOffset % cap
  if ringOff + totalLen ≤ cap then Ring.copy ring ringOff (header ++ parts.flatten)
  else writeParts cap (copyToRing cap ring logicalOffset header) (logicalOffset + recordHeaderLen) parts

end RingBuffer

/-! ### The parties -/

/-- The payload of a record, in parts. -/
abbrev Parts := List (List Byte)

def frameLen (parts : Parts) : Nat := recordHeaderLen + (parts.map List.length).sum

inductive Writer
  | idle
  /-- the tail is read, no slot is claimed yet -/
  | loaded (frames : List Parts) (tail : Nat)
  | claimed (frames : List Parts) (slot tail : Nat)
  /-- there is room up to the end of the range -/
  | checked (frames : List Parts) (slot tail : Nat)
  /-- the exchange of the tail has failed and the slot still holds the older value -/
  | lost (frames : List Parts) (slot published tail : Nat)
  /-- the frames still to be written, the first one at `addr` -/
  | writing (frames : List Parts) (slot reserved addr : Nat)
  | done (reserved : Nat)
  | full
  deriving DecidableEq, Repr

/-- A new call may begin. -/
def Writer.free : Writer → Bool
  | .idle | .done _ | .full => true
  | _ => false

/-- `safe_tail_address` between two loads. -/
inductive Reader
  | idle
  | folding (next least : Nat)
  | done (safeTail : Nat)
  deriving DecidableEq, Repr

inductive FlushStage
  | start
  | filled (buf : List Byte)
  | written
  deriving DecidableEq, Repr

/-- Where the leader goes on after a flush. -/
inductive After
  | stop
  | retryFrame (committedIn goal spins : Nat) (cookie : Int)
  | publish (commitTo goal : Nat)
  deriving DecidableEq, Repr

/-- The holder of the commit lock: `WalCommitStep::step`, or a flush by itself. -/
inductive Leader
  | idle
  | framing (committedIn goal spins : Nat) (cookie : Int)
  /-- the ring is full: reading the safe tail to make room -/
  | evicting (committedIn goal spins : Nat) (cookie : Int)
  | clamping (committedIn goal : Nat)
  | sampling
  | flushing (upto : Nat) (stage : FlushStage) (after : After)
  | publishing (commitTo goal : Nat)
  deriving DecidableEq, Repr

/-- The leader has a writer and a reader of its own, `none`. -/
structure State (W R : Type*) where
  tail : Nat
  flushed : Nat
  committed : Nat
  lastCommitFrame : Nat
  lastCommitCookie : Int
  lastCommitBegin : Nat
  pendingCookie : Int
  /-- `none` is the free slot -/
  slots : Nat → Option Nat
  ring : Nat → Byte
  device : Nat → Byte
  writer : Option W → Writer
  reader : Option R → Reader
  leader : Leader
  /-- the payloads of the log, in address order -/
  records : List (List Byte)
  /-- the reservations since the log was opened, the last one first -/
  reservations : List (Nat × List Parts)
  written : Nat → Bool

/-- `COMMIT_FRAME_SPIN_LIMIT`. -/
def commitFrameSpinLimit : Nat := 1024

inductive WriterAction
  /-- all slots were taken: the tail is read again -/
  | reload
  /-- the exchange of one free slot -/
  | claim (slot : Nat)
  /-- the flushed address is read and compared -/
  | check
  | cas
  /-- also without another writer: the exchange is a weak one -/
  | casFail
  | republish
  | write
  | release
  deriving DecidableEq, Repr

inductive ReaderAction
  | readTail
  | readSlot
  deriving DecidableEq, Repr

inductive LeaderAction
  /-- a round of the commit pipeline for a batch target -/
  | request (target : Nat)
  | enqueueCommit
  | frameDone
  | frameFull
  | evict
  | clamp
  /-- a flush by itself -/
  | sample
  | flushTo (upto : Nat)
  | fill
  | deviceWrite
  /-- the device takes some of the bytes and reports an error -/
  | deviceFail (taken : Nat → Bool)
  | syncFail
  | store
  | publish

inductive Action (W R : Type*)
  | enqueue (w : W) (frames : List Parts)
  | writer (w : Option W) (a : WriterAction)
  | reader (r : Option R) (a : ReaderAction)
  | setCookie (cookie : Int)
  | leader (a : LeaderAction)

variable {W R : Type*} [DecidableEq W] [DecidableEq R]

/-- `check_record_len`. -/
def checkRecordLen (cfg : Config) (recordLen : Nat) : Bool :=
  recordLen ≤ 2 ^ 32 - 1 + recordHeaderLen && recordLen ≤ cfg.bufferSize

def totalLen (frames : List Parts) : Nat := (frames.map frameLen).sum

/-- `enqueue_frames` looks at every frame and at all of them together. -/
def accepted (cfg : Config) (frames : List Parts) : Bool :=
  frames.all (fun parts => checkRecordLen cfg (frameLen parts)) && checkRecordLen cfg (totalLen frames)

/-- The test of `reserve_address`. -/
def fits (cfg : Config) (flushed tail recordLen : Nat) : Bool :=
  tail + recordLen - alignDown flushed cfg.sectorSize ≤ cfg.bufferSize

namespace State

def setWriter (s : State W R) (w : Option W) (writer : Writer) : State W R :=
  { s with writer := Function.update s.writer w writer }

def setReader (s : State W R) (r : Option R) (reader : Reader) : State W R :=
  { s with reader := Function.update s.reader r reader }

def setSlot (s : State W R) (slot : Nat) (value : Option Nat) : State W R :=
  { s with slots := Function.update s.slots slot value }

/-- The exchange of the tail. -/
def reserve (s : State W R) (w : Option W) (frames : List Parts) (slot : Nat) : State W R :=
  { s.setWriter w (.writing frames slot s.tail s.tail) with
    tail := s.tail + totalLen frames
    records := s.records ++ frames.map List.flatten
    reservations := (s.tail, frames) :: s.reservations }

/-- `should_commit_metadata`. -/
def shouldCommitMetadata (cfg : Config) (s : State W R) : Bool :=
  (s.pendingCookie ≠ noCookie && s.pendingCookie ≠ s.lastCommitCookie) ||
    s.lastCommitBegin < cfg.begin

/-- A frame goes into the ring. -/
def writeFrame (cfg : Config) (s : State W R) (parts : Parts) (addr : Nat) : State W R :=
  { s with
    ring := writeRecordParts cfg.bufferSize s.ring addr (cfg.checksum.forPayloadParts parts).toBytes parts
    written := fun a => s.written a || (addr ≤ a && a < addr + frameLen parts) }

/-- The start of the sectors a flush writes. -/
def flushStart (cfg : Config) (s : State W R) : Nat := alignDown s.flushed cfg.sectorSize

/-- The buffer of `flush_window`: the ring from the start of the sector, padded with zeros to the end
of a sector. -/
def flushBuffer (cfg : Config) (s : State W R) (upto : Nat) : List Byte :=
  copyRingTo cfg.bufferSize s.ring (s.flushStart cfg) (upto - s.flushStart cfg) ++
    List.replicate (alignUp upto cfg.sectorSize - upto) 0

end State

/-- The end of `WalCommitStep::step`, with the safe tail in hand: what to flush and what to publish. -/
def clampTo (s : State W R) (committedIn goal safeTail : Nat) : Leader :=
  let goal := min goal safeTail
  let frameCursor := s.lastCommitFrame
  let commitTo := if frameCursor ≤ goal ∧ committedIn < frameCursor then goal else min committedIn goal
  if s.flushed < goal then
    if s.flushed < commitTo then .flushing commitTo .start (.publish commitTo goal)
    else .flushing goal .start .stop
  else .idle

/-- The leader after the flushed address is stored. -/
def After.leader : After → Leader
  | .stop => .idle
  | .retryFrame committedIn goal spins cookie => .framing committedIn goal spins cookie
  | .publish commitTo goal => .publishing commitTo goal

/-- `enqueue_reserved`, from the slot to its release. -/
def writerStep (cfg : Config) (s : State W R) (w : Option W) (a : WriterAction) : Option (State W R) :=
  match a, s.writer w with
  | .reload, .loaded frames _ => some (s.setWriter w (.loaded frames s.tail))
  | .claim slot, .loaded frames tail =>
    if slot < cfg.inflightSlots ∧ s.slots slot = none then
      some ((s.setSlot slot (some tail)).setWriter w (.claimed frames slot tail))
    else none
  | .check, .claimed frames slot tail =>
    if fits cfg s.flushed tail (totalLen frames) then some (s.setWriter w (.checked frames slot tail))
    else some ((s.setSlot slot none).setWriter w .full)
  | .cas, .checked frames slot tail =>
    if s.tail = tail then some (s.reserve w frames slot) else none
  | .casFail, .checked frames slot tail => some (s.setWriter w (.lost frames slot tail s.tail))
  | .republish, .lost frames slot _ tail =>
    some ((s.setSlot slot (some tail)).setWriter w (.claimed frames slot tail))
  | .write, .writing (parts :: frames) slot reserved addr =>
    let frameLen := recordHeaderLen + (cfg.checksum.forPayloadParts parts).payloadLen
    some ((s.writeFrame cfg parts addr).setWriter w (.writing frames slot reserved (addr + frameLen)))
  | .release, .writing [] slot reserved _ => some ((s.setSlot slot none).setWriter w (.done reserved))
  | _, _ => none

/-- `safe_tail_address`: the tail, then the slots one after the other. -/
def readerStep (cfg : Config) (s : State W R) (r : Option R) (a : ReaderAction) : Option (State W R) :=
  match a, s.reader r with
  | .readTail, _ => some (s.setReader r (.folding 0 s.tail))
  | .readSlot, .folding next least =>
    if next < cfg.inflightSlots then
      some (s.setReader r (.folding (next + 1) ((s.slots next).elim least (min least))))
    else some (s.setReader r (.done least))
  | _, _ => none

/-- `WalCommitStep::step` and `flush_window`. -/
def leaderStep (cfg : Config) (s : State W R) (a : LeaderAction) : Option (State W R) :=
  match a, s.leader with
  | .request target, .idle =>
    -- a waiter's target was at most the tail when it asked, or one past the committed address for a
    -- commit of metadata
    if target ≤ s.tail ∨ target ≤ s.committed + 1 then
      if s.lastCommitFrame < target ∨ s.shouldCommitMetadata cfg then
        some { s with leader := .framing s.committed target 0 s.pendingCookie }
      else some { s.setReader none .idle with leader := .clamping s.committed target }
    else none
  | .enqueueCommit, .framing _ _ _ cookie =>
    if s.writer none = .idle then
      let frames := [[(CommitMeta.mk cfg.begin cookie).encodePayload]]
      if accepted cfg frames then some (s.setWriter none (.loaded frames s.tail))
      else some { s with leader := .idle }
    else none
  | .frameDone, .framing committedIn goal _ cookie =>
    match s.writer none with
    | .done frameAddr =>
      let frameEnd := frameAddr + commitFrameTotalLen
      some { (s.setWriter none .idle).setReader none .idle with
        lastCommitFrame := frameEnd
        lastCommitCookie := cookie
        lastCommitBegin := cfg.begin
        leader := .clamping committedIn (max goal frameEnd) }
    | _ => none
  | .frameFull, .framing committedIn goal spins cookie =>
    if s.writer none = .full then
      some { (s.setWriter none .idle).setReader none .idle with
        leader :=
          if commitFrameSpinLimit ≤ spins then .idle else .evicting committedIn goal (spins + 1) cookie }
    else none
  | .evict, .evicting committedIn goal spins cookie =>
    match s.reader none with
    | .done safeTail =>
      let after := After.retryFrame committedIn goal spins cookie
      some { s with
        leader := if s.flushed < safeTail then .flushing safeTail .start after else after.leader }
    | _ => none
  | .clamp, .clamping committedIn goal =>
    match s.reader none with
    | .done safeTail => some { s with leader := clampTo s committedIn goal safeTail }
    | _ => none
  | .sample, .idle => some { s.setReader none .idle with leader := .sampling }
  | .flushTo upto, .sampling =>
    match s.reader none with
    | .done safeTail =>
      some { s with
        leader := if s.flushed < upto ∧ upto ≤ safeTail then .flushing upto .start .stop else .idle }
    | _ => none
  | .fill, .flushing upto .start after =>
    some { s with leader := .flushing upto (.filled (s.flushBuffer cfg upto)) after }
  | .deviceWrite, .flushing upto (.filled buf) after =>
    some { s with
      device := Ring.copy s.device (s.flushStart cfg) buf
      leader := .flushing upto .written after }
  | .deviceFail taken, .flushing _ (.filled buf) _ =>
    some { s with
      device := fun a => if taken a then Ring.copy s.device (s.flushStart cfg) buf a else s.device a
      leader := .idle }
  | .syncFail, .flushing _ .written _ => some { s with leader := .idle }
  | .store, .flushing upto .written after => some { s with flushed := upto, leader := after.leader }
  | .publish, .publishing commitTo goal =>
    some { s with
      committed := commitTo
      leader := if commitTo < goal then .flushing goal .start .stop else .idle }
  | _, _ => none

def step (cfg : Config) (s : State W R) : Action W R → Option (State W R)
  | .enqueue w frames =>
    if (s.writer (some w)).free ∧ accepted cfg frames then
      some (s.setWriter (some w) (.loaded frames s.tail))
    else none
  | .writer w a => writerStep cfg s w a
  | .reader r a => readerStep cfg s r a
  | .setCookie cookie => some { s with pendingCookie := cookie }
  | .leader a => leaderStep cfg s a

/-- The bytes of the log from its begin on. -/
def State.bytes (cfg : Config) (s : State W R) : List Byte := cfg.checksum.frames s.records

/-- Reservations, the last one first, one behind the other from `lo` to `hi`. -/
def Contiguous (lo : Nat) : List (Nat × List Parts) → Nat → Prop
  | [], hi => hi = lo
  | (addr, frames) :: reservations, hi => hi = addr + totalLen frames ∧ Contiguous lo reservations addr

/-- A log that `recover` or a first start has just opened: nothing is in flight, what is on the device
has been read back into the ring as far as a flush will write it again, and the log is empty or what
is committed is all of it. -/
structure Opened (cfg : Config) (s : State W R) : Prop where
  tail : s.tail = cfg.begin + (s.bytes cfg).length
  flushed : s.flushed = s.tail
  committed : s.committed = s.tail
  lastCommitFrame : s.lastCommitFrame = s.tail
  slots : ∀ i, s.slots i = none
  writer : ∀ w, s.writer w = .idle
  reader : ∀ r, s.reader r = .idle
  leader : s.leader = .idle
  reservations : s.reservations = []
  written : ∀ a, s.written a = true ↔ a < s.tail
  accepted : ∀ payload ∈ s.records, payload.length < 2 ^ 32
  device : ∀ a, cfg.begin ≤ a → a < s.tail → (s.bytes cfg)[a - cfg.begin]? = some (s.device a)
  ring : ∀ a, cfg.begin ≤ a → alignDown s.tail cfg.sectorSize ≤ a → a < s.tail →
    s.ring (a % cfg.bufferSize) = s.device a

/-- A log that has never been written. -/
def State.fresh (cfg : Config) (W R : Type*) : State W R where
  tail := cfg.begin
  flushed := cfg.begin
  committed := cfg.begin
  lastCommitFrame := cfg.begin
  lastCommitCookie := noCookie
  lastCommitBegin := cfg.begin
  pendingCookie := noCookie
  slots := fun _ => none
  ring := fun _ => 0
  device := fun _ => 0
  writer := fun _ => .idle
  reader := fun _ => .idle
  leader := .idle
  records := []
  reservations := []
  written := fun a => a < cfg.begin

omit [DecidableEq W] [DecidableEq R] in
lemma opened_fresh (cfg : Config) : Opened cfg (State.fresh cfg W R) where
  tail := rfl
  flushed := rfl
  committed := rfl
  lastCommitFrame := rfl
  slots := fun _ => rfl
  writer := fun _ => rfl
  reader := fun _ => rfl
  leader := rfl
  reservations := rfl
  written := fun _ => decide_eq_true_iff
  accepted := nofun
  device := fun _ hge hlt => absurd hlt (Nat.not_lt.2 hge)
  ring := fun _ hge _ hlt => absurd hlt (Nat.not_lt.2 hge)

end Wedb.Wal
