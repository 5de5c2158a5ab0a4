import Mathlib.Order.MinMax
import Wedb.Lib.Machine

/-!
# A key, its expiration record and the compactor

The expiration of a key is a record of its own beside the data record. A set writes the data and
then clears the expiration, a delete or a purge clears the data and then the expiration, a change of
the expiration first asks whether the key is there; all of them hold the latch of the key meanwhile.
A compaction run holds no latch and meets each of the two records on its own: it judges it, asks the
host to clean up and takes it out of its slot, or copies it to the tail. In lookup mode a record is
judged and applied before the next one, in scan mode all records are judged first. Time is in ticks
and only moves forward.
-/

namespace Wedb.Expiry

/-- A slot that leads to a record of the main log, with or without a read cache record in front. -/
structure Slot where
  addr : Nat
  cached : Bool
  deriving DecidableEq, Repr

/-- The slot of the expiration record and the ticks it holds. -/
structure Ttl extends Slot where
  exp : Int
  deriving DecidableEq, Repr

/-- What a run has found out about a record; in scan mode it is checked again before anything is
applied. -/
structure Verdict where
  addr : Nat
  dead : Bool
  checked : Bool
  deriving DecidableEq, Repr

inductive Mode
  | lookup
  | scan
  deriving DecidableEq, Repr

/-- A run with its clock, the address up to which it has scanned, the records that wait for their
verdict to be applied and the floor of the truncation. -/
structure Run where
  mode : Mode
  untilAddress : Nat
  now : Int
  pos : Nat
  data : Option Verdict
  ttl : Option Verdict
  retainFloor : Option Nat
  disposing : Bool
  deriving DecidableEq, Repr

/-- What the holder of the key's latch has done so far. -/
inductive Latch
  | set
  | delete
  | change
  deriving DecidableEq, Repr

/-- Where a reader is between its two looks: `read_tag_with` probes the expiration first, `contains_key`
looks for the data first. The flag says that the key was not expired at some moment of the read. -/
inductive Reader
  | probed (fresh : Bool)
  | found (fresh : Bool)
  | reported (fresh : Bool)
  deriving DecidableEq, Repr

/-- The key was written while the read is under way. -/
def Reader.refresh : Reader → Reader
  | .probed _ => .probed true
  | .found _ => .found true
  | .reported fresh => .reported fresh

/-- The store as far as one key is concerned. A reader writes nothing, so one stands for all of them.
`expired` says that an expiration of the key has passed and the key was not written since. -/
structure State where
  clock : Int
  begin : Nat
  safeReadOnly : Nat
  tail : Nat
  data : Option Slot
  ttl : Option Ttl
  latch : Option Latch
  reader : Option Reader
  run : Option Run
  expired : Bool
  deriving DecidableEq, Repr

inductive Action
  | tick (clock : Int)
  | grow (tail : Nat)
  | shiftSafeReadOnly (v : Nat)
  | write (inPlace : Bool)
  | strip
  | release
  | check
  | rewrite (inPlace : Bool)
  | expireAt (exp : Int) (inPlace : Bool)
  | persist
  | delete
  | delTtl
  | probe
  | readData
  | find
  | probeFound
  | cacheData (cached : Bool)
  | cacheTtl (cached : Bool)
  | start (mode : Mode) (untilAddress : Nat)
  | judgeData
  | judgeTtl
  | scanned
  | recheckData
  | recheckTtl
  | applyData (ok : Bool)
  | applyTtl (ok : Bool)
  | finish
  deriving DecidableEq, Repr

/-- A reader gets to the record. -/
def Slot.Reachable (begin : Nat) (slot : Slot) : Prop := slot.cached = true ∨ begin ≤ slot.addr

instance (begin : Nat) (slot : Slot) : Decidable (slot.Reachable begin) :=
  inferInstanceAs (Decidable (_ ∨ _))

namespace Run

/-- The record at an address is the next one of the range: it is not below the scan and the other
record, if there is one, does not come first. -/
def Next (run : Run) (addr : Nat) (other : Option Slot) : Prop :=
  run.disposing = false ∧ run.pos ≤ addr ∧ addr < run.untilAddress ∧
    (∀ o ∈ other, o.addr < run.pos ∨ addr < o.addr) ∧
    (run.mode = .lookup → run.data = none ∧ run.ttl = none)

instance (run : Run) (addr : Nat) (other : Option Slot) : Decidable (run.Next addr other) :=
  inferInstanceAs (Decidable (_ ∧ _ ∧ _ ∧ _ ∧ _))

/-- A verdict is applied at once in lookup mode, and in scan mode when all are checked. -/
def Applies (run : Run) : Prop :=
  run.mode = .lookup ∨ run.disposing = true ∧ (∀ v ∈ run.data, v.checked = true) ∧
    ∀ v ∈ run.ttl, v.checked = true

instance (run : Run) : Decidable run.Applies := inferInstanceAs (Decidable (_ ∨ _ ∧ _ ∧ _))

/-- The range is scanned as far as the slot is concerned. -/
def Past (run : Run) (slot : Option Slot) : Prop :=
  ∀ o ∈ slot, o.addr < run.pos ∨ run.untilAddress ≤ o.addr

instance (run : Run) (slot : Option Slot) : Decidable (run.Past slot) :=
  inferInstanceAs (Decidable (∀ o ∈ slot, _))

/-- `retain_record` -/
def retain (run : Run) (addr : Nat) : Run :=
  { run with retainFloor := some ((run.retainFloor.map (min · addr)).getD addr) }

/-- Where the begin address goes at the end. -/
def finalUntil (run : Run) : Nat :=
  (run.retainFloor.map (min run.untilAddress ·)).getD run.untilAddress

end Run

namespace State

/-- `is_expired` of the expiration record that a reader finds. -/
def TtlDue (s : State) (now : Int) : Prop := ∃ t ∈ s.ttl, t.Reachable s.begin ∧ t.exp < now

instance (s : State) (now : Int) : Decidable (s.TtlDue now) :=
  inferInstanceAs (Decidable (∃ t ∈ s.ttl, _))

def HasData (s : State) : Prop := ∃ d ∈ s.data, d.Reachable s.begin

instance (s : State) : Decidable s.HasData := inferInstanceAs (Decidable (∃ d ∈ s.data, _))

/-- What a reader reports (`probe_alive` over the data record). -/
def Exists (s : State) : Prop := s.HasData ∧ ¬ s.TtlDue s.clock

instance (s : State) : Decidable s.Exists := inferInstanceAs (Decidable (_ ∧ _))

/-- `is_deleted` for a data record: its expiration record is due. -/
def dataDead (s : State) (now : Int) : Bool := s.TtlDue now

/-- `is_deleted` for an expiration record: it is due itself, or the host record has no slot. -/
def ttlDead (s : State) (t : Ttl) (now : Int) : Bool := t.exp < now || s.data.isNone

/-- A record is written to the tail, or where it is if that part of the log is still mutable. -/
def place (s : State) (old : Option Slot) (inPlace : Bool) : Option (Slot × Nat) :=
  match inPlace, old with
  | true, some slot => if s.safeReadOnly ≤ slot.addr then some (slot, s.tail) else none
  | true, none => none
  | false, _ => some (⟨s.tail, false⟩, s.tail + 1)

/-- The data record is written: the key is not expired any more. -/
def putData (s : State) (latch : Option Latch) (inPlace : Bool) : Option State :=
  (s.place s.data inPlace).map fun p =>
    { s with
      data := some p.1
      tail := p.2
      latch
      reader := s.reader.map Reader.refresh
      expired := false }

/-- The verdict on the data record is applied. A dead record leaves its slot if the host has cleaned
up, the others are copied; otherwise the record is retained. -/
def applyData (s : State) (run : Run) (v : Verdict) (ok : Bool) : State :=
  let run := { run with data := none }
  if ok then
    if v.dead then
      { s with run := some run, data := if s.data = some ⟨v.addr, false⟩ then none else s.data }
    else
      { s with
        run := some run
        tail := s.tail + 1
        data := s.data.map fun d => if d.addr = v.addr then ⟨s.tail, false⟩ else d }
  else { s with run := some (run.retain v.addr) }

def applyTtl (s : State) (run : Run) (v : Verdict) (ok : Bool) : State :=
  let run := { run with ttl := none }
  if ok then
    if v.dead then
      { s with
        run := some run
        ttl := s.ttl.filter fun t => !(t.addr = v.addr && !t.cached) }
    else
      { s with
        run := some run
        tail := s.tail + 1
        ttl := s.ttl.map fun t =>
          if t.addr = v.addr then { t with addr := s.tail, cached := false } else t }
  else { s with run := some (run.retain v.addr) }

/-- A key that was never written. -/
def new (base : Nat) : State :=
  ⟨0, base, base, base, none, none, none, none, none, false⟩

end State

/-- One atomic step of a session, of the clock or of the run. -/
def step (s : State) : Action → Option State
  | .tick clock =>
    if s.clock ≤ clock then
      some { s with
        clock
        expired := s.expired ||
          (s.latch ≠ some .set && s.HasData && !s.TtlDue s.clock && s.TtlDue clock) }
    else none
  | .grow tail => if s.tail ≤ tail then some { s with tail } else none
  | .shiftSafeReadOnly v =>
    if s.safeReadOnly ≤ v ∧ v ≤ s.tail then some { s with safeReadOnly := v } else none
  | .write inPlace => if s.latch = none then s.putData (some .set) inPlace else none
  | .strip => if s.latch = some .set then some { s with ttl := none, latch := none } else none
  | .release => if s.latch ≠ none then some { s with latch := none } else none
  | .check => if s.latch = none ∧ s.Exists then some { s with latch := some .change } else none
  | .rewrite inPlace => if s.latch = some .change then s.putData none inPlace else none
  | .expireAt exp inPlace =>
    if s.latch = some .change ∧ s.clock < exp then
      (s.place (s.ttl.map Ttl.toSlot) inPlace).map fun p =>
        { s with ttl := some ⟨p.1, exp⟩, tail := p.2, latch := none }
    else none
  | .persist => if s.latch = some .change then some { s with ttl := none, latch := none } else none
  | .delete =>
    if s.latch = none ∨ s.latch = some .change then
      some { s with data := none, latch := some .delete }
    else none
  | .delTtl => if s.latch = some .delete then some { s with ttl := none, latch := none } else none
  | .probe =>
    if s.TtlDue s.clock then some { s with reader := none }
    else some { s with reader := some (.probed !s.expired) }
  | .readData =>
    match s.reader with
    | some (.probed fresh) =>
      some { s with reader := if s.HasData then some (.reported fresh) else none }
    | _ => none
  | .find => some { s with reader := if s.HasData then some (.found !s.expired) else none }
  | .probeFound =>
    match s.reader with
    | some (.found fresh) =>
      some { s with reader := if s.TtlDue s.clock then none else some (.reported fresh) }
    | _ => none
  | .cacheData cached =>
    if s.HasData then some { s with data := s.data.map fun d => { d with cached } } else none
  | .cacheTtl cached =>
    if ∃ t ∈ s.ttl, t.Reachable s.begin then
      some { s with ttl := s.ttl.map fun t => { t with cached } }
    else none
  | .start mode untilAddress =>
    if s.run = none ∧ untilAddress ≤ s.safeReadOnly ∧ s.begin < untilAddress then
      some { s with run := some ⟨mode, untilAddress, s.clock, s.begin, none, none, none, false⟩ }
    else none
  | .judgeData =>
    match s.run, s.data with
    | some run, some d =>
      if run.Next d.addr (s.ttl.map Ttl.toSlot) then
        some { s with
          run := some { run with
            pos := d.addr + 1
            data := some ⟨d.addr, s.dataDead run.now, run.mode = .lookup⟩ } }
      else none
    | _, _ => none
  | .judgeTtl =>
    match s.run, s.ttl with
    | some run, some t =>
      if run.Next t.addr s.data then
        some { s with
          run := some { run with
            pos := t.addr + 1
            ttl := some ⟨t.addr, s.ttlDead t run.now, run.mode = .lookup⟩ } }
      else none
    | _, _ => none
  | .scanned =>
    match s.run with
    | some run =>
      if run.mode = .scan ∧ run.disposing = false ∧ run.Past s.data ∧
          run.Past (s.ttl.map Ttl.toSlot) then
        some { s with run := some { run with now := s.clock, disposing := true } }
      else none
    | none => none
  | .recheckData =>
    match s.run with
    | some run =>
      if run.disposing ∧ ∃ v ∈ run.data, v.checked = false then
        some { s with
          run := some { run with
            data := run.data.map fun v =>
              { v with dead := v.dead || s.dataDead run.now, checked := true } } }
      else none
    | none => none
  | .recheckTtl =>
    match s.run with
    | some run =>
      if run.disposing ∧ ∃ v ∈ run.ttl, v.checked = false then
        some { s with
          run := some { run with
            ttl := run.ttl.map fun v =>
              { v with
                dead := v.dead || s.ttl.any fun t => t.addr = v.addr && s.ttlDead t run.now
                checked := true } } }
      else none
    | none => none
  | .applyData ok =>
    match s.run with
    | some run =>
      match run.data with
      | some v => if run.Applies then some (s.applyData run v ok) else none
      | none => none
    | none => none
  | .applyTtl ok =>
    match s.run with
    | some run =>
      match run.ttl with
      | some v => if run.Applies then some (s.applyTtl run v ok) else none
      | none => none
    | none => none
  | .finish =>
    match s.run with
    | some run =>
      if run.data = none ∧ run.ttl = none ∧ (run.mode = .lookup ∨ run.disposing = true) ∧
          run.Past s.data ∧ run.Past (s.ttl.map Ttl.toSlot) then
        some { s with run := none, begin := max s.begin run.finalUntil }
      else none
    | none => none

end Wedb.Expiry
