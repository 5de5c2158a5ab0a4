import Wedb.Lib.Epoch
import Wedb.Log.Buffer
import Wedb.Log.FlushList

/-!
# The hybrid log as a state machine

Threads append, read, flush and move borders; each atomic access that another thread can come
between, each lock, wait and device write is a step of its own. A thread is inside an epoch
(`enter`, `exit`) or not: nothing in `append` itself asks for it.

`content` and `reserved` are not fields of the program. `content x` is the byte that was last
encoded at address `x`, and `reserved` are the ranges that appends have taken from the tail.
-/

namespace Wedb.Log

/-- A deferred epoch action: the safe border it moves. -/
inductive Border where
  | safeReadOnly (addr : Nat)
  | safeHead (addr : Nat)
  deriving DecidableEq, Repr

/-- What a thread does once its border action is registered. -/
inductive Next where
  | done
  | seal (merged : PageFlushRange) (sealedUntil : Nat)
  | begin (newBegin : Nat)
  deriving DecidableEq, Repr

/-- The device write of a flush round: the range written and the range left to later rounds. -/
structure FlushJob where
  range : PageFlushRange
  deferredTail : Option PageFlushRange
  deriving DecidableEq, Repr

/-- What a thread is about to do. `size` is the size of the record it appends and `tail` the tail
it has loaded. -/
inductive Task where
  | idle
  | retry (size : Nat)
  | loaded (size tail : Nat)
  | awaitPage (size tail : Nat)
  | clearing (size tail : Nat)
  | fast (size tail : Nat)
  | preclear (size tail : Nat)
  | awaitTurn (size tail : Nat)
  | turning (size tail : Nat)
  | padding (size tail : Nat)
  | encoding (size addr : Nat)
  | checked (addr : Nat)
  | reading (addr : Nat)
  | registering (border : Border) (next : Next)
  | sealing (merged : PageFlushRange) (sealedUntil : Nat)
  | awaitGate (merged : PageFlushRange) (sealedUntil : Nat)
  | copying (job : FlushJob) (page : Nat) (buf : Nat → UInt8)
  | writing (job : FlushJob) (buf : Nat → UInt8)
  | finishing (job : FlushJob) (written : Bool)
  | movingBegin (newBegin : Nat)
  | draining (newBegin : Nat)

/-- A hybrid log with `n` threads and the device under it. -/
structure State (n : Nat) extends AddressSnapshot where
  frames : Frames
  device : Nat → UInt8
  pending : List PageFlushRange
  completed : List PageFlushRange
  epochs : Epoch.Table n Border
  turnLock : Option (Fin n)
  gate : Option (Fin n)
  task : Fin n → Task
  content : Nat → UInt8
  reserved : List (Nat × Nat)

inductive Action (n : Nat) where
  | enter (t : Fin n)
  | exit (t : Fin n)
  | bump
  | drain (i : Nat)
  | load (t : Fin n) (size : Nat)
  | reload (t : Fin n)
  | probe (t : Fin n)
  | lockPage (t : Fin n)
  | clearPage (t : Fin n)
  | casTail (t : Fin n)
  | preclear (t : Fin n)
  | lockTurn (t : Fin n)
  | casTurn (t : Fin n)
  | writePad (t : Fin n)
  | encode (t : Fin n) (bytes : Nat → UInt8)
  | checkHead (t : Fin n) (addr : Nat)
  | checkFrame (t : Fin n)
  | finishRead (t : Fin n)
  | shiftReadOnly (t : Fin n) (newReadOnly : Nat)
  | shiftHead (t : Fin n) (newHead : Nat)
  | register (t : Fin n)
  | shiftBegin (t : Fin n) (newBegin : Nat)
  | moveBegin (t : Fin n)
  | truncate (t : Fin n) (deleteFloor : Nat)
  | flush (t : Fin n) (fromAddr untilAddr : Nat)
  | awaitSealed (t : Fin n)
  | lockGate (t : Fin n)
  | copyPage (t : Fin n)
  | writeDevice (t : Fin n) (count : Nat) (ok : Bool)
  | finishFlush (t : Fin n)
  | recover (snapshot : AddressSnapshot)

namespace State

variable {n : Nat} (c : Config)

/-- Thread `t` goes on with `k`. -/
def become (s : State n) (t : Fin n) (k : Task) : State n :=
  { s with task := Function.update s.task t k }

/-- `AddressManager::shift_head_address` on the log's addresses. -/
def moveHead (s : State n) (v : Nat) : State n :=
  { s with readOnly := max s.readOnly v, head := max s.head v }

def register (s : State n) (t : Fin n) (b : Border) : State n :=
  { s with epochs := s.epochs.register t b }

/-- The first address above the page that used the frame of page `p` one ring before. -/
def minEvictedAddr (p : Nat) : Nat := c.pageStart (p - c.numPages + 1)

/-- Where the prefix up to `m` is durable but not evicted, `ensure_page_ready` moves the head. -/
def pushHead (s : State n) (t : Fin n) (m : Nat) : State n :=
  if m ≤ s.flushedUntil ∧ s.head < m then (s.moveHead m).register t (.safeHead m) else s

/-- Where the safe head lags behind, `ensure_page_ready` bumps the epoch. -/
def pushEpoch (s : State n) (m : Nat) : State n :=
  if s.safeHead < m ∧ s.epochs.deferred ≠ [] then { s with epochs := s.epochs.bump } else s

/-- `ensure_page_ready`: the frame of page `p` may be reused if its old page is evicted, drained
and durable. -/
def ensurePageReady (s : State n) (t : Fin n) (p : Nat) : State n × Bool :=
  if p < c.numPages then (s, true)
  else
    let m := minEvictedAddr c p
    let s := (s.pushHead t m).pushEpoch m
    (s, m ≤ s.head && m ≤ s.safeHead && m ≤ s.flushedUntil)

/-- What a deferred action does when it runs. -/
def apply (s : State n) : Border → State n
  | .safeReadOnly v => { s with safeReadOnly := max s.safeReadOnly v }
  | .safeHead v =>
    { s with safeReadOnly := max s.safeReadOnly v, safeHead := max s.safeHead v }

/-- The part of `append` between the load of the tail and the first lock. -/
def probe (s : State n) (t : Fin n) (size tail : Nat) : State n :=
  if ¬ s.frames.IsPageLoaded c (c.pageId tail) then s.become t (.awaitPage size tail)
  else if c.pageOffset tail + size ≤ c.pageSize then s.become t (.fast size tail)
  else
    match s.ensurePageReady c t (c.pageId tail + 1) with
    | (s, true) => s.become t (.preclear size tail)
    | (s, false) => s.become t .idle

/-- Under the page-turn lock: the page of the loaded tail has no frame. The label is withdrawn
and the lock is kept until the frame is cleared. -/
def lockPage (s : State n) (t : Fin n) (size tail : Nat) : State n :=
  if s.frames.IsPageLoaded c (c.pageId tail) then s.become t (.retry size)
  else
    match s.ensurePageReady c t (c.pageId tail) with
    | (s, true) =>
      { s with turnLock := some t, frames := s.frames.invalidate c (c.pageId tail) }.become t
        (.clearing size tail)
    | (s, false) => s.become t .idle

def clearPage (s : State n) (t : Fin n) (size tail : Nat) : State n :=
  { s with
    turnLock := none
    frames := s.frames.fillFromOffset c (c.pageId tail) (c.pageOffset tail) }.become t (.retry size)

/-- The fast path: the record takes the bytes after the tail. -/
def casTail (s : State n) (t : Fin n) (size tail : Nat) : State n :=
  if addressMask < tail + size then s.become t .idle
  else if s.tail = tail then
    { s with tail := tail + size, reserved := (tail, size) :: s.reserved }.become t
      (.encoding size tail)
  else s.become t (.retry size)

def preclearNext (s : State n) (t : Fin n) (size tail : Nat) : State n :=
  (if s.frames.IsPageLoaded c (c.pageId tail + 1) then s
    else { s with frames := s.frames.preclearPage c (c.pageId tail + 1) }).become t
    (.awaitTurn size tail)

def lockTurn (s : State n) (t : Fin n) (size tail : Nat) : State n :=
  if s.tail ≠ tail then s.become t (.retry size)
  else
    { s with turnLock := some t, frames := s.frames.sealPage c (c.pageId tail + 1) }.become t
      (.turning size tail)

/-- The page turn: the record takes the first bytes of the next page. -/
def casTurn (s : State n) (t : Fin n) (size tail : Nat) : State n :=
  let next := c.pageStart (c.pageId tail + 1)
  if addressMask < next + size then { s with turnLock := none }.become t .idle
  else if s.tail = tail then
    { s with tail := next + size, reserved := (next, size) :: s.reserved }.become t
      (.padding size tail)
  else { s with turnLock := none }.become t (.retry size)

def writePad (s : State n) (t : Fin n) (size tail : Nat) : State n :=
  let frames := s.frames.writePadTail c tail (c.pageSize - c.pageOffset tail)
  { s with
    frames
    content := fun x =>
      if tail ≤ x ∧ x < c.pageStart (c.pageId tail + 1) then frames.byteAt c x
      else s.content x }.become t (.encoding size (c.pageStart (c.pageId tail + 1)))

def encode (s : State n) (t : Fin n) (size addr : Nat) (bytes : Nat → UInt8) : State n :=
  { s with
    frames := s.frames.write c addr size bytes
    content := fun x => if addr ≤ x ∧ x < addr + size then bytes (x - addr) else s.content x
    turnLock := if s.turnLock = some t then none else s.turnLock }.become t .idle

/-- `shift_read_only_address`, up to the registration of the deferred action. -/
def shiftReadOnly (s : State n) (t : Fin n) (v : Nat) (next : Next) (now : Task) : State n :=
  { s with readOnly := max s.readOnly v }.become t
    (if s.readOnly < v then .registering (.safeReadOnly v) next else now)

/-- `shift_head_address`, up to the registration of the deferred action. -/
def shiftHead (s : State n) (t : Fin n) (v : Nat) (next : Next) (now : Task) : State n :=
  let v := min v s.flushedUntil
  (s.moveHead v).become t (if s.head < v then .registering (.safeHead v) next else now)

def registered (s : State n) (t : Fin n) (b : Border) (next : Next) : State n :=
  (s.register t b).become t <|
    match next with
    | .done => .idle
    | .seal merged sealedUntil => .sealing merged sealedUntil
    | .begin v => .movingBegin v

/-- `shift_begin_address` once its range has been sealed and flushed: it fails if the prefix is
still below the new begin. -/
def shiftBegin (s : State n) (t : Fin n) (v : Nat) : State n :=
  if v ≤ s.begin ∨ s.tail < v ∨ s.flushedUntil < v then s
  else s.shiftHead t v (.begin v) (.movingBegin v)

def moveBegin (s : State n) (t : Fin n) (v : Nat) : State n :=
  ({ s with begin := max s.begin v }.register t (.safeHead v)).become t (.draining v)

/-- Deleting history: nothing at or above the new begin and the delete floor is touched. -/
def truncate (s : State n) (t : Fin n) (v deleteFloor : Nat) : State n :=
  { s with device := fun x => if x < min v deleteFloor then 0 else s.device x }.become t .idle

/-- `flush_addr_range` up to the seal: the range is rounded to pages, merged with pending ranges
and clamped to the durable prefix; its bound is sealed. -/
def flush (s : State n) (t : Fin n) (fromAddr untilAddr : Nat) : State n :=
  if untilAddr ≤ fromAddr then s
  else
    let (merged, pending) := coalesce s.pending
      ⟨c.pageStart (c.pageId fromAddr), c.pageStart (c.pageId (untilAddr - 1) + 1)⟩ s.flushedUntil
    let merged := merged.clamp s.flushedUntil
    let s := { s with pending }
    if merged.isEmpty then s
    else
      let sealedUntil := min untilAddr s.tail
      s.shiftReadOnly t sealedUntil (.seal merged sealedUntil) (.sealing merged sealedUntil)

/-- Under the write gate the range is clamped again. A bound below the sector of the range's
start makes the length computation of `flush_range_aligned` underflow: nothing is written. -/
def lockGate (s : State n) (t : Fin n) (merged : PageFlushRange) (sealedUntil : Nat) : State n :=
  let merged := merged.clamp s.flushedUntil
  if merged.isEmpty then s.become t .idle
  else
    let job : FlushJob := ⟨⟨merged.fromAddress, sealedUntil⟩, merged.deferTail sealedUntil s.tail⟩
    { s with gate := some t }.become t <|
      if sealedUntil < c.alignDown merged.fromAddress then .finishing job false
      else .copying job (c.pageId merged.fromAddress) fun _ => 0

/-- One page of the fill closure: the bytes of the page that the aligned write covers. -/
def copyPage (s : State n) (t : Fin n) (job : FlushJob) (p : Nat) (buf : Nat → UInt8) : State n :=
  s.become t <|
    if c.pageId (job.range.untilAddress - 1) < p then .writing job buf
    else if ¬ s.frames.IsPageLoaded c p then .finishing job false
    else .copying job (p + 1) fun x =>
      if max (c.pageStart p) (c.alignDown job.range.fromAddress) ≤ x ∧
          x < min (c.pageStart (p + 1)) job.range.untilAddress then s.frames.byteAt c x
      else buf x

/-- The end of the device write: rounded up to a sector for direct I/O. -/
def writeEnd (job : FlushJob) : Nat :=
  if c.directIo then c.alignUp job.range.untilAddress else job.range.untilAddress

/-- `write_aligned` puts the first `count` bytes on the device; bytes after the range are zero. -/
def writeDevice (s : State n) (t : Fin n) (job : FlushJob) (buf : Nat → UInt8) (count : Nat)
    (ok : Bool) : State n :=
  let start := c.alignDown job.range.fromAddress
  { s with
    device := fun x =>
      if start ≤ x ∧ x < start + count then
        if x < job.range.untilAddress then buf x else 0
      else s.device x }.become t (.finishing job ok)

/-- `PendingFlushList::add`. -/
def addPending (s : State n) (r : PageFlushRange) : State n :=
  if r.isEmpty then s else { s with pending := s.pending ++ [r] }

def addDeferred (s : State n) : Option PageFlushRange → State n
  | none => s
  | some r => s.addPending r

/-- The bookkeeping after the device write, under the gate. -/
def finishFlush (s : State n) (t : Fin n) (job : FlushJob) (written : Bool) : State n :=
  let s :=
    if written then
      let (flushedUntil, completed) :=
        completeFlushRange job.range s.tail s.flushedUntil s.completed
      { s with flushedUntil, completed }.addDeferred job.deferredTail
    else if job.range.untilAddress ≤ s.flushedUntil then s.addDeferred job.deferredTail
    else (s.addPending (job.range.clamp s.flushedUntil)).addDeferred job.deferredTail
  { s with gate := none }.become t .idle

/-- The pages that `recover` puts into the buffer: with a resident window the pages from head to
tail, with their durable bytes and zeros after them; otherwise the empty tail page. -/
def recoveredFrames (device : Nat → UInt8) (a : AddressSnapshot) : Frames :=
  let first := if a.head < a.tail then c.pageId a.head else c.pageId a.tail
  fun k =>
    match (List.range' first (c.pageId a.tail + 1 - first)).find? (c.pageIdx · = k) with
    | none => ⟨.invalid, fun _ => 0⟩
    | some p =>
      ⟨.page p, fun i =>
        if a.head < a.tail ∧ c.pageStart p + i < a.flushedUntil then device (c.pageStart p + i)
        else 0⟩

/-- `HybridLog::recover` after a crash: only the device survives. -/
def recovered (device : Nat → UInt8) (a : AddressSnapshot) : State n where
  toAddressSnapshot := a
  frames := recoveredFrames c device a
  device := device
  pending := []
  completed := []
  epochs := .start n Border
  turnLock := none
  gate := none
  task := fun _ => .idle
  content := fun x => if x < a.flushedUntil then device x else 0
  reserved := []

/-- The checks of `recover` on a snapshot. -/
def Recoverable (a : AddressSnapshot) : Prop :=
  a.validate ∧ (a.head < a.tail → c.pageId a.tail < c.pageId a.head + c.numPages)

instance (a : AddressSnapshot) : Decidable (Recoverable c a) :=
  inferInstanceAs (Decidable (_ ∧ _))

/-- `HybridLog::new` over an empty device. -/
def new (initial : Nat) : State n := recovered c (fun _ => 0) (.new initial)

end State

/-- One step of the log; `none` where the action is not enabled. -/
def step {n : Nat} (c : Config) (s : State n) : Action n → Option (State n)
  | .enter t =>
    match s.task t with
    | .idle => if (s.epochs.announced t).isSome then none
      else some { s with epochs := s.epochs.enter t }
    | _ => none
  | .exit t =>
    match s.task t with
    | .idle => some { s with epochs := s.epochs.exit t }
    | _ => none
  | .bump => some { s with epochs := s.epochs.bump }
  | .drain i =>
    match s.epochs.deferred[i]? with
    | none => none
    | some (k, b) =>
      if s.epochs.Ready k then some { s.apply b with epochs := s.epochs.drop i } else none
  | .load t size =>
    match s.task t with
    | .idle => if 0 < size ∧ size ≤ c.pageSize then some (s.become t (.loaded size s.tail)) else none
    | _ => none
  | .reload t =>
    match s.task t with
    | .retry size => some (s.become t (.loaded size s.tail))
    | _ => none
  | .probe t =>
    match s.task t with
    | .loaded size tail => some (s.probe c t size tail)
    | _ => none
  | .lockPage t =>
    match s.task t with
    | .awaitPage size tail => if s.turnLock.isSome then none else some (s.lockPage c t size tail)
    | _ => none
  | .clearPage t =>
    match s.task t with
    | .clearing size tail => some (s.clearPage c t size tail)
    | _ => none
  | .casTail t =>
    match s.task t with
    | .fast size tail => some (s.casTail t size tail)
    | _ => none
  | .preclear t =>
    match s.task t with
    | .preclear size tail => some (s.preclearNext c t size tail)
    | _ => none
  | .lockTurn t =>
    match s.task t with
    | .awaitTurn size tail => if s.turnLock.isSome then none else some (s.lockTurn c t size tail)
    | _ => none
  | .casTurn t =>
    match s.task t with
    | .turning size tail => some (s.casTurn c t size tail)
    | _ => none
  | .writePad t =>
    match s.task t with
    | .padding size tail => some (s.writePad c t size tail)
    | _ => none
  | .encode t bytes =>
    match s.task t with
    | .encoding size addr => some (s.encode c t size addr bytes)
    | _ => none
  | .checkHead t addr =>
    match s.task t with
    | .idle => if (s.epochs.announced t).isSome ∧ s.head ≤ addr ∧ addr < s.tail then
        some (s.become t (.checked addr)) else none
    | _ => none
  | .checkFrame t =>
    match s.task t with
    | .checked addr => some (s.become t
        (if s.frames.IsPageLoaded c (c.pageId addr) then .reading addr else .idle))
    | _ => none
  | .finishRead t =>
    match s.task t with
    | .reading _ => some (s.become t .idle)
    | _ => none
  | .shiftReadOnly t v =>
    match s.task t with
    | .idle => if v ≤ s.tail then some (s.shiftReadOnly t v .done .idle) else none
    | _ => none
  | .shiftHead t v =>
    match s.task t with
    | .idle => if v ≤ s.tail then some (s.shiftHead t v .done .idle) else none
    | _ => none
  | .register t =>
    match s.task t with
    | .registering b next => some (s.registered t b next)
    | _ => none
  | .shiftBegin t v =>
    match s.task t with
    | .idle => some (s.shiftBegin t v)
    | _ => none
  | .moveBegin t =>
    match s.task t with
    | .movingBegin v => some (s.moveBegin t v)
    | _ => none
  | .truncate t deleteFloor =>
    match s.task t with
    | .draining v => if v ≤ s.safeHead then some (s.truncate t v deleteFloor) else none
    | _ => none
  | .flush t fromAddr untilAddr =>
    match s.task t with
    | .idle => some (s.flush c t fromAddr untilAddr)
    | _ => none
  | .awaitSealed t =>
    match s.task t with
    | .sealing merged sealedUntil =>
      if sealedUntil ≤ s.safeReadOnly then some (s.become t (.awaitGate merged sealedUntil)) else none
    | _ => none
  | .lockGate t =>
    match s.task t with
    | .awaitGate merged sealedUntil =>
      if s.gate.isSome then none else some (s.lockGate c t merged sealedUntil)
    | _ => none
  | .copyPage t =>
    match s.task t with
    | .copying job p buf => some (s.copyPage c t job p buf)
    | _ => none
  | .writeDevice t count ok =>
    match s.task t with
    | .writing job buf =>
      let total := State.writeEnd c job - c.alignDown job.range.fromAddress
      if count ≤ total ∧ (ok → count = total) then some (s.writeDevice c t job buf count ok) else none
    | _ => none
  | .finishFlush t =>
    match s.task t with
    | .finishing job written => some (s.finishFlush t job written)
    | _ => none
  | .recover a => if State.Recoverable c a then some (.recovered c s.device a) else none

/-- What each action needs and does, one constructor for each: the inversion of `step`. -/
inductive Fires {n : Nat} (c : Config) (s : State n) : Action n → State n → Prop
  | enter {t} (ht : s.task t = .idle) : Fires c s (.enter t) { s with epochs := s.epochs.enter t }
  | exit {t} (ht : s.task t = .idle) : Fires c s (.exit t) { s with epochs := s.epochs.exit t }
  | bump : Fires c s .bump { s with epochs := s.epochs.bump }
  | drain {i e b} (hm : (e, b) ∈ s.epochs.deferred) (hr : s.epochs.Ready e) :
      Fires c s (.drain i) { s.apply b with epochs := s.epochs.drop i }
  | load {t size} (ht : s.task t = .idle) (hz : 0 < size ∧ size ≤ c.pageSize) :
      Fires c s (.load t size) (s.become t (.loaded size s.tail))
  | reload {t size} (ht : s.task t = .retry size) :
      Fires c s (.reload t) (s.become t (.loaded size s.tail))
  | probe {t size tail} (ht : s.task t = .loaded size tail) :
      Fires c s (.probe t) (s.probe c t size tail)
  | lockPage {t size tail} (ht : s.task t = .awaitPage size tail) (hl : s.turnLock = none) :
      Fires c s (.lockPage t) (s.lockPage c t size tail)
  | clearPage {t size tail} (ht : s.task t = .clearing size tail) :
      Fires c s (.clearPage t) (s.clearPage c t size tail)
  | casTail {t size tail} (ht : s.task t = .fast size tail) :
      Fires c s (.casTail t) (s.casTail t size tail)
  | preclear {t size tail} (ht : s.task t = .preclear size tail) :
      Fires c s (.preclear t) (s.preclearNext c t size tail)
  | lockTurn {t size tail} (ht : s.task t = .awaitTurn size tail) (hl : s.turnLock = none) :
      Fires c s (.lockTurn t) (s.lockTurn c t size tail)
  | casTurn {t size tail} (ht : s.task t = .turning size tail) :
      Fires c s (.casTurn t) (s.casTurn c t size tail)
  | writePad {t size tail} (ht : s.task t = .padding size tail) :
      Fires c s (.writePad t) (s.writePad c t size tail)
  | encode {t size addr bytes} (ht : s.task t = .encoding size addr) :
      Fires c s (.encode t bytes) (s.encode c t size addr bytes)
  | checkHead {t addr} (ht : s.task t = .idle) (hi : (s.epochs.announced t).isSome)
      (hh : s.head ≤ addr) (hlt : addr < s.tail) :
      Fires c s (.checkHead t addr) (s.become t (.checked addr))
  | checkFrame {t addr} (ht : s.task t = .checked addr) :
      Fires c s (.checkFrame t) (s.become t
        (if s.frames.IsPageLoaded c (c.pageId addr) then .reading addr else .idle))
  | finishRead {t addr} (ht : s.task t = .reading addr) :
      Fires c s (.finishRead t) (s.become t .idle)
  | shiftReadOnly {t v} (ht : s.task t = .idle) (hv : v ≤ s.tail) :
      Fires c s (.shiftReadOnly t v) (s.shiftReadOnly t v .done .idle)
  | shiftHead {t v} (ht : s.task t = .idle) :
      Fires c s (.shiftHead t v) (s.shiftHead t v .done .idle)
  | register {t b next} (ht : s.task t = .registering b next) :
      Fires c s (.register t) (s.registered t b next)
  | shiftBegin {t v} (ht : s.task t = .idle) : Fires c s (.shiftBegin t v) (s.shiftBegin t v)
  | moveBegin {t v} (ht : s.task t = .movingBegin v) : Fires c s (.moveBegin t) (s.moveBegin t v)
  | truncate {t v deleteFloor} (ht : s.task t = .draining v) (hv : v ≤ s.safeHead) :
      Fires c s (.truncate t deleteFloor) (s.truncate t v deleteFloor)
  | flush {t fromAddr untilAddr} (ht : s.task t = .idle) :
      Fires c s (.flush t fromAddr untilAddr) (s.flush c t fromAddr untilAddr)
  | awaitSealed {t merged u} (ht : s.task t = .sealing merged u) (hu : u ≤ s.safeReadOnly) :
      Fires c s (.awaitSealed t) (s.become t (.awaitGate merged u))
  | lockGate {t merged u} (ht : s.task t = .awaitGate merged u) (hg : s.gate = none) :
      Fires c s (.lockGate t) (s.lockGate c t merged u)
  | copyPage {t job p buf} (ht : s.task t = .copying job p buf) :
      Fires c s (.copyPage t) (s.copyPage c t job p buf)
  | writeDevice {t job buf count ok} (ht : s.task t = .writing job buf)
      (hle : count ≤ State.writeEnd c job - c.alignDown job.range.fromAddress)
      (hok : ok = true → count = State.writeEnd c job - c.alignDown job.range.fromAddress) :
      Fires c s (.writeDevice t count ok) (s.writeDevice c t job buf count ok)
  | finishFlush {t job written} (ht : s.task t = .finishing job written) :
      Fires c s (.finishFlush t) (s.finishFlush t job written)
  | recover {a} (ha : State.Recoverable c a) : Fires c s (.recover a) (.recovered c s.device a)

/-- A step of one task: the action fires from it and from no other. -/
lemma fires_of_step {n : Nat} {c : Config} {s s' : State n} {a : Action n}
    (h : step c s a = some s') : Fires c s a s' := by
  cases a with
  | bump =>
    cases h
    exact .bump
  | drain =>
    simp only [step] at h
    split at h
    · cases h
    · next hm =>
      split_ifs at h with hr
      cases h
      exact .drain (List.mem_of_getElem? hm) hr
  | exit t | reload t | probe t | clearPage t | casTail t | preclear t | casTurn t | writePad t
  | encode t bytes | checkFrame t | finishRead t | register t | shiftBegin t v | moveBegin t
  | flush t fromAddr untilAddr | copyPage t | finishFlush t =>
    -- the task decides alone
    simp only [step] at h
    split at h <;> cases h
    constructor
    assumption
  | enter t | load t size | shiftReadOnly t v | shiftHead t v | truncate t deleteFloor
  | awaitSealed =>
    simp only [step] at h
    split at h <;> try cases h
    split_ifs at h
    cases h
    constructor <;> assumption
  | lockPage t | lockTurn t | lockGate t =>
    simp only [step] at h
    split at h <;> try cases h
    split_ifs at h with hc
    cases h
    constructor
    · assumption
    · exact Option.not_isSome_iff_eq_none.mp hc
  | checkHead =>
    simp only [step] at h
    split at h
    · next ht =>
      split_ifs at h with hc
      cases h
      exact .checkHead ht hc.1 hc.2.1 hc.2.2
    · cases h
  | writeDevice =>
    simp only [step] at h
    split at h
    · next ht =>
      split_ifs at h with hc
      cases h
      exact .writeDevice ht hc.1 hc.2
    · cases h
  | recover =>
    simp only [step] at h
    split_ifs at h with ha
    cases h
    exact .recover ha

end Wedb.Log
