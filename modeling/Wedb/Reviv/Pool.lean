import Mathlib.Algebra.Group.Nat.Defs
import Wedb.Lib.Machine
import Wedb.Lib.Program

/-!
# The free record pool

`wreviv`: size-segregated bins of single-word slots that threads fill and empty by compare-exchange,
and one bin for records whose size does not fit into a slot's word. Every operation of the source is
a program of atomic operations on the slots, the active counters and the cursors.
-/

namespace Wedb.Reviv

/-! ## Slot words -/

def addressMask : Nat := 2 ^ 48 - 1

def maxInlineSize : Nat := 2 ^ 16 - 1

/-- `EMPTY_WORD`. -/
def emptyWord : Nat := 0

/-- `FreeRecord::pack`. -/
def pack (address size : Nat) : Nat := size % 2 ^ 16 * 2 ^ 48 + address % 2 ^ 48

def rawAddress (raw : Nat) : Nat := raw % 2 ^ 48

def rawSize (raw : Nat) : Nat := raw / 2 ^ 48

def validateAddr (address minAddress : Nat) : Bool :=
  !(address < minAddress || address = 0 || addressMask < address)

def validate (address size minAddress : Nat) : Bool :=
  validateAddr address minAddress && size ≠ 0 && size ≤ maxInlineSize

inductive SetStatus
  | insertedEmpty
  | replacedExpired
  | occupied
  deriving DecidableEq, Repr

/-! ## Shape of a pool -/

/-- What a bin is built with. -/
structure BinShape where
  maxSize : Nat
  capacity : Nat
  bestFitScanLimit : Nat
  deriving DecidableEq, Repr, Inhabited

def BinShape.isOversize (b : BinShape) : Bool := maxInlineSize < b.maxSize

/-- The ladder of bins and the oversize arm, as `build` and `with_oversize` accept them. -/
structure Config where
  ladder : List BinShape
  oversize : Option BinShape
  sorted : (ladder.map BinShape.maxSize).Pairwise (· < ·)
  inline : ∀ b ∈ ladder, b.isOversize = false
  arm : ∀ b ∈ oversize, b.isOversize = true

/-- Bins are numbered along the ladder; the oversize arm comes last. -/
def Config.bins (c : Config) : List BinShape := c.ladder ++ c.oversize.toList

def Config.bin (c : Config) (b : Nat) : BinShape := c.bins.getD b default

/-! ## Atomic operations -/

/-- What a `take` asks for. -/
structure Request where
  requiredSize : Nat
  minRevivAddr : Nat
  minEligibleAddr : Nat
  deriving DecidableEq, Repr

/-- Which place of the source makes an exchange. Only the history of the pool looks at it. -/
inductive Purpose
  /-- `cas_store` -/
  | store
  /-- `take` hands the record out -/
  | grant (r : Request)
  /-- `take` drops a record below the watermark -/
  | evict
  /-- `try_purge_below` -/
  | purge (minAddress : Nat)
  deriving DecidableEq, Repr

inductive Op
  | load (b i : Nat)
  | compareExchange (b i expected new : Nat) (weak : Bool) (why : Purpose)
  | loadActive (b : Nat)
  | addActive (b : Nat) (d : Int)
  | nextCursor (b : Nat)
  | readSize (address : Nat)
  | loadSuspend
  /-- a retry loop that goes on after the rounds the run has room for -/
  | stall

/-- A failed exchange gives the word found. -/
def Op.Res : Op → Type
  | load _ _ => Nat
  | compareExchange .. => Option Nat
  | loadActive _ => Int
  | addActive _ _ => Unit
  | nextCursor _ => Nat
  | readSize _ => Option Nat
  | loadSuspend => Int
  | stall => Empty

abbrev Code := Prog Op Op.Res

def load (b i : Nat) : Code Nat := .perform (Op.load b i)

def compareExchange (b i expected new : Nat) (weak : Bool) (why : Purpose) : Code (Option Nat) :=
  .perform (Op.compareExchange b i expected new weak why)

/-- `is_empty` of a bin. -/
def isEmpty (b : Nat) : Code Bool := do
  let active : Int ← Prog.perform (Op.loadActive b)
  return active ≤ 0

def addActive (b : Nat) (d : Int) : Code Unit := .perform (Op.addActive b d)

/-- `dec_count`. -/
def decCount (b : Nat) : Code Unit := addActive b (-1)

def nextCursor (b : Nat) : Code Nat := .perform (Op.nextCursor b)

/-- `read_size` of the oversize arm: the physical size in the record's header, if its page is
there. -/
def readSize (address : Nat) : Code (Option Nat) := .perform (Op.readSize address)

/-- `is_enabled`. -/
def isEnabled : Code Bool := do
  let suspend : Int ← Prog.perform Op.loadSuspend
  return suspend = 0

/-! ## One slot -/

/-- `cas_store`. -/
def casStore (b i newVal minAddress : Nat) : Code SetStatus := do
  let current ← load b i
  if current ≠ emptyWord ∧ minAddress ≤ rawAddress current then
    return .occupied
  match ← compareExchange b i current newVal false .store with
  | some _ => return .occupied
  | none => return if current = emptyWord then .insertedEmpty else .replacedExpired

/-- `set`. -/
def set (b i address size minAddress : Nat) : Code SetStatus :=
  if validate address size minAddress then
    casStore b i (pack address size) minAddress
  else return .occupied

/-- `set_addr`. -/
def setAddr (b i address minAddress : Nat) : Code SetStatus :=
  if validateAddr address minAddress then
    casStore b i (pack address 0) minAddress
  else return .occupied

/-- `try_take_exact`. -/
def tryTakeExact (b i expectedRaw : Nat) (why : Purpose) : Code Bool := do
  let found ← compareExchange b i expectedRaw emptyWord false why
  return found.isNone

/-- The loop of `try_purge_below`, from the word last seen. -/
def tryPurgeLoop (b i minAddress : Nat) : Nat → Nat → Code Bool
  | 0, _ => .call .stall nofun
  | fuel + 1, current => do
    if current = emptyWord then
      return false
    if minAddress ≤ rawAddress current then
      return false
    match ← compareExchange b i current emptyWord true (.purge minAddress) with
    | none => return true
    | some actual => tryPurgeLoop b i minAddress fuel actual

/-- `try_purge_below`. -/
def tryPurgeBelow (b i minAddress fuel : Nat) : Code Bool := do
  let current ← load b i
  tryPurgeLoop b i minAddress fuel current

/-! ## One bin -/

/-- A slot of the bin is set in the bin's own form. -/
def setSlot (shape : BinShape) (b i address size minAddress : Nat) : Code SetStatus :=
  if shape.isOversize then setAddr b i address minAddress
  else set b i address size minAddress

/-- The slot loop of `FreeRecordBin::put`. -/
def putSlots (shape : BinShape) (b address size minAddress : Nat) : List Nat → Code SetStatus
  | [] => return .occupied
  | i :: slots => do
    match ← setSlot shape b i address size minAddress with
    | .insertedEmpty => do
      addActive b 1
      return .insertedEmpty
    | .replacedExpired => return .replacedExpired
    | .occupied => putSlots shape b address size minAddress slots

/-- What `FreeRecordBin::put` lets into the bin. -/
def BinShape.admits (shape : BinShape) (address size minAddress : Nat) : Bool :=
  if shape.isOversize then validateAddr address minAddress && size ≠ 0 && size ≤ shape.maxSize
  else validate address size minAddress && size ≤ shape.maxSize

/-- `FreeRecordBin::put`. -/
def putBin (shape : BinShape) (b address size minAddress : Nat) : Code SetStatus := do
  if !shape.admits address size minAddress then
    return .occupied
  if shape.capacity = 0 then
    return .occupied
  let cursor ← nextCursor b
  let start := cursor % shape.capacity
  let slots := List.range shape.capacity
  putSlots shape b address size minAddress (slots.drop start ++ slots.take start)

/-- `size_at`: the oversize arm has a reader, the ladder has the size in the word. -/
def sizeAt (read : Bool) (current : Nat) : Code Nat := do
  if read then
    let size ← readSize (rawAddress current)
    return size.getD 0
  else return rawSize current

/-- One round of `first_fit` over the slots: what was taken, and whether a candidate was seen. -/
def firstFitRound (b : Nat) (r : Request) (read : Bool) :
    List Nat → Bool → Code (Option (Nat × Nat) × Bool)
  | [], foundCandidate => return (none, foundCandidate)
  | i :: slots, foundCandidate => do
    let current ← load b i
    if current = emptyWord then
      firstFitRound b r read slots foundCandidate
    else if rawAddress current < r.minRevivAddr then
      if ← tryTakeExact b i current .evict then
        decCount b
        firstFitRound b r read slots foundCandidate
      else firstFitRound b r read slots foundCandidate
    else if rawAddress current < r.minEligibleAddr then
      firstFitRound b r read slots foundCandidate
    else
      let size ← sizeAt read current
      if r.requiredSize ≤ size then
        if ← tryTakeExact b i current (.grant r) then
          decCount b
          return (some (rawAddress current, size), true)
        else firstFitRound b r read slots true
      else firstFitRound b r read slots foundCandidate

/-- `TAKE_RETRY_ROUNDS`. -/
def takeRetryRounds : Nat := 4

def firstFitRounds (shape : BinShape) (b : Nat) (r : Request) (read : Bool) :
    Nat → Code (Option (Nat × Nat))
  | 0 => return none
  | rounds + 1 => do
    let (res, foundCandidate) ← firstFitRound b r read (List.range shape.capacity) false
    match res with
    | some hit => return some hit
    | none => if foundCandidate then firstFitRounds shape b r read rounds else return none

/-- `first_fit`. -/
def firstFit (shape : BinShape) (b : Nat) (r : Request) (read : Bool) :
    Code (Option (Nat × Nat)) := do
  if ← isEmpty b then
    return none
  if shape.capacity = 0 then
    return none
  firstFitRounds shape b r read takeRetryRounds

/-- What the scan of `best_fit` has found so far. -/
structure Best where
  /-- `best_idx` with `best_raw` -/
  best : Option (Nat × Nat)
  bestSize : Nat
  firstFitIdx : Option Nat
  deriving DecidableEq, Repr

/-- Before the scan; `best_size` starts at `u32::MAX`. -/
def Best.start : Best := ⟨none, 2 ^ 32 - 1, none⟩

/-- A slot that fits: the first one is remembered, and the smallest size so far. -/
def Best.fits (s : Best) (r : Request) (i current size : Nat) : Best :=
  { best := if size = r.requiredSize ∨ size < s.bestSize then some (i, current) else s.best
    bestSize := if size = r.requiredSize ∨ size < s.bestSize then size else s.bestSize
    firstFitIdx := s.firstFitIdx.or (some i) }

/-- The scan has gone far enough beyond the first fit. -/
def Best.passed (s : Best) (i localScanLimit : Nat) : Bool :=
  match s.firstFitIdx with
  | some first => localScanLimit ≤ i - first
  | none => false

/-- What the scan of `best_fit` makes of one slot; an exact fit ends it. -/
def bestFitSlot (b : Nat) (r : Request) (read : Bool) (i : Nat) (s : Best) :
    Code (Best × Bool) := do
  let current ← load b i
  if current = emptyWord then
    return (s, false)
  else if rawAddress current < r.minRevivAddr then
    if ← tryTakeExact b i current .evict then
      decCount b
      return (s, false)
    else return (s, false)
  else if rawAddress current < r.minEligibleAddr then
    return (s, false)
  else
    let size ← sizeAt read current
    if r.requiredSize ≤ size then
      return (s.fits r i current size, decide (size = r.requiredSize))
    else return (s, false)

/-- The scan of `best_fit` over the slots that are left. -/
def bestFitScan (b : Nat) (r : Request) (read : Bool) (localScanLimit : Nat) :
    List Nat → Best → Code Best
  | [], s => return s
  | i :: slots, s => do
    let (s', exactFit) ← bestFitSlot b r read i s
    if exactFit || s'.passed i localScanLimit then
      return s'
    else bestFitScan b r read localScanLimit slots s'

/-- The loop of `best_fit`. The limit is halved in each round, so as many rounds as it has units
are enough. -/
def bestFitLoop (shape : BinShape) (b : Nat) (r : Request) (read : Bool) :
    Nat → Nat → Code (Option (Nat × Nat))
  | 0, _ => return none
  | rounds + 1, localScanLimit => do
    let s ← bestFitScan b r read localScanLimit (List.range shape.capacity) Best.start
    match s.best with
    | none => return none
    | some (idx, bestRaw) =>
      if ← tryTakeExact b idx bestRaw (.grant r) then
        decCount b
        return some (rawAddress bestRaw, s.bestSize)
      else if localScanLimit / 2 ≤ 1 then
        firstFit shape b r read
      else bestFitLoop shape b r read rounds (localScanLimit / 2)

/-- `best_fit` with the bin's own scan limit. -/
def bestFit (shape : BinShape) (b : Nat) (r : Request) (read : Bool) :
    Code (Option (Nat × Nat)) := do
  if ← isEmpty b then
    return none
  if shape.capacity = 0 then
    return none
  if shape.bestFitScanLimit = 0 then
    firstFit shape b r read
  else bestFitLoop shape b r read shape.bestFitScanLimit shape.bestFitScanLimit

/-- The slot loop of `FreeRecordBin::purge_below`. -/
def purgeSlots (b minAddress fuel : Nat) : List Nat → Code Unit
  | [] => return ()
  | i :: slots => do
    if ← tryPurgeBelow b i minAddress fuel then
      decCount b
      purgeSlots b minAddress fuel slots
    else purgeSlots b minAddress fuel slots

/-- `FreeRecordBin::purge_below`. -/
def purgeBin (shape : BinShape) (b minAddress fuel : Nat) : Code Unit := do
  if ← isEmpty b then
    return ()
  purgeSlots b minAddress fuel (List.range shape.capacity)

/-! ## The pool -/

/-- `BINS_TO_SEARCH`. -/
def binsToSearch : Nat := 1

/-- `find_bin_index`: the first bin of the ladder that is wide enough. -/
def Config.findBinIndex (c : Config) (size : Nat) : Option Nat :=
  c.ladder.findIdx? (size ≤ ·.maxSize)

/-- `search_window`. -/
def Config.searchWindow (c : Config) (start : Nat) : List Nat :=
  ((List.range c.ladder.length).drop start).take (1 + binsToSearch)

def putWindow (c : Config) (address size minAddress : Nat) : List Nat → Code Bool
  | [] => return false
  | b :: bins => do
    match ← putBin (c.bin b) b address size minAddress with
    | .insertedEmpty | .replacedExpired => return true
    | .occupied => putWindow c address size minAddress bins

/-- `put_oversize`. -/
def putOversize (c : Config) (address size minAddress : Nat) : Code Bool := do
  match c.oversize with
  | none => return false
  | some arm =>
    match ← putBin arm c.ladder.length address size minAddress with
    | .insertedEmpty | .replacedExpired => return true
    | .occupied => return false

/-- `FreeRecordPool::put`. -/
def put (c : Config) (address size minAddress : Nat) : Code Bool :=
  if maxInlineSize < size then putOversize c address size minAddress
  else if !validate address size minAddress then return false
  else
    match c.findBinIndex size with
    | none => return false
    | some start => putWindow c address size minAddress (c.searchWindow start)

def takeWindow (c : Config) (r : Request) : List Nat → Code (Option (Nat × Nat))
  | [] => return none
  | b :: bins => do
    match ← bestFit (c.bin b) b r false with
    | some hit => return some hit
    | none => takeWindow c r bins

/-- `take_oversize`. -/
def takeOversize (c : Config) (r : Request) : Code (Option (Nat × Nat)) :=
  match c.oversize with
  | none => return none
  | some arm =>
    if arm.maxSize < r.requiredSize then return none
    else bestFit arm c.ladder.length r true

/-- The lower bound of the request is never below the watermark. -/
def Request.raised (r : Request) : Request :=
  { r with minEligibleAddr := max r.minEligibleAddr r.minRevivAddr }

/-- `FreeRecordPool::take`. -/
def take (c : Config) (r : Request) : Code (Option (Nat × Nat)) := do
  if !(← isEnabled) then
    return none
  if r.requiredSize = 0 then
    return none
  match c.findBinIndex r.requiredSize with
  | none => takeOversize c r.raised
  | some start =>
    match ← takeWindow c r.raised (c.searchWindow start) with
    | some hit => return some hit
    | none =>
      if c.ladder.length ≤ start + 1 + binsToSearch then takeOversize c r.raised
      else return none

def purgeBins (c : Config) (minAddress fuel : Nat) : List Nat → Code Unit
  | [] => return ()
  | b :: bins => do
    purgeBin (c.bin b) b minAddress fuel
    purgeBins c minAddress fuel bins

/-- `FreeRecordPool::purge_below`: the ladder, then the oversize arm. -/
def purgeBelow (c : Config) (minAddress fuel : Nat) : Code Unit :=
  purgeBins c minAddress fuel (List.range c.bins.length)

/-! ## The shared memory -/

/-- A record handed out: its size is the one the pool holds for it at that moment. -/
structure Grant where
  address : Nat
  storedSize : Nat
  request : Request
  deriving DecidableEq, Repr

/-- The words of the pool, the record headers of the log, and the history of the pool. -/
structure Memory where
  slots : Nat → Nat → Nat
  active : Nat → Int
  cursor : Nat → Nat
  suspend : Int
  /-- physical size in the header of the record at an address -/
  sizes : Nat → Nat
  /-- addresses that a `put` stored -/
  puts : List Nat
  grants : List Grant
  /-- bound and address of each record that `purge_below` cleared -/
  purged : List (Nat × Nat)

/-- The size a slot's word stands for: the oversize arm keeps only the address. -/
def Memory.storedSize (m : Memory) (shape : BinShape) (word : Nat) : Nat :=
  if shape.isOversize then m.sizes (rawAddress word) else rawSize word

/-- A successful exchange, with its entry in the history. -/
def Memory.exchange (m : Memory) (c : Config) (b i new : Nat) (why : Purpose) : Memory :=
  let old := m.slots b i
  let m' := { m with slots := Function.update m.slots b (Function.update (m.slots b) i new) }
  match why with
  | .store => { m' with puts := rawAddress new :: m.puts }
  | .grant r => { m' with grants := ⟨rawAddress old, m.storedSize (c.bin b) old, r⟩ :: m.grants }
  | .evict => m'
  | .purge bound => { m' with purged := (bound, rawAddress old) :: m.purged }

/-- One atomic operation. `oracle` makes a weak exchange fail for no reason and a header's page be
absent. -/
def exec (c : Config) (m : Memory) (o : Op) (oracle : Bool) : Option (Memory × o.Res) :=
  match o with
  | .load b i => some (m, m.slots b i)
  | .compareExchange b i expected new weak why =>
    if m.slots b i = expected ∧ ¬(weak = true ∧ oracle = true) then
      some (m.exchange c b i new why, none)
    else some (m, some (m.slots b i))
  | .loadActive b => some (m, m.active b)
  | .addActive b d => some ({ m with active := Function.update m.active b (m.active b + d) }, ())
  | .nextCursor b =>
    some ({ m with cursor := Function.update m.cursor b ((m.cursor b + 1) % 2 ^ 64) }, m.cursor b)
  | .readSize address => some (m, if oracle then none else some (m.sizes address))
  | .loadSuspend => some (m, m.suspend)
  | .stall => none

/-! ## Threads over the pool -/

inductive Outcome
  | put (stored : Bool)
  | take (hit : Option (Nat × Nat))
  | purgeBelow
  deriving DecidableEq, Repr

abbrev State := Threads Memory Op Op.Res Outcome

inductive Action
  | put (address size minAddress : Nat)
  | take (r : Request)
  | purgeBelow (minAddress fuel : Nat)
  | pause
  | resume
  /-- whoever holds the record at an address outside the pool lays it out anew -/
  | rewrite (address size : Nat)
  /-- thread `i` performs its next operation -/
  | run (i : Nat) (oracle : Bool)
  deriving DecidableEq, Repr

/-- No slot of the pool holds the address. -/
def Memory.outside (m : Memory) (c : Config) (address : Nat) : Bool :=
  (List.range c.bins.length).all fun b =>
    (List.range (c.bin b).capacity).all fun i =>
      m.slots b i = emptyWord || rawAddress (m.slots b i) ≠ address

def step (c : Config) (s : State) : Action → Option State
  | .put address size minAddress =>
    some (s.spawn do return .put (← put c address size minAddress))
  | .take r => some (s.spawn do return .take (← take c r))
  | .purgeBelow minAddress fuel =>
    some (s.spawn do
      purgeBelow c minAddress fuel
      return .purgeBelow)
  | .pause => some { s with shared := { s.shared with suspend := s.shared.suspend - 1 } }
  | .resume => some { s with shared := { s.shared with suspend := s.shared.suspend + 1 } }
  | .rewrite address size =>
    if s.shared.outside c address then
      some { s with
        shared := { s.shared with sizes := Function.update s.shared.sizes address size } }
    else none
  | .run i oracle => s.runTask (exec c) i oracle

/-- A pool as it is built: every slot empty, no thread in it. -/
def start (suspend : Int) (sizes : Nat → Nat) : State where
  shared :=
    { slots := fun _ _ => emptyWord
      active := fun _ => 0
      cursor := fun _ => 0
      suspend := suspend
      sizes := sizes
      puts := []
      grants := []
      purged := [] }
  tasks := []

end Wedb.Reviv
