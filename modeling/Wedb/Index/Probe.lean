import Wedb.Index.Table
import Wedb.Lib.Machine

/-!
# Sessions probing one bucket chain

Any number of sessions run `find_or_create_tag` on one bucket chain and write through the handles
it returns. Every load and every compare-exchange of a slot or of an overflow pointer is one step,
so a probe is spread over many steps of the other sessions.
-/

namespace Wedb.Probe

open HashBucketEntry

/-- A probe under way: the tag it looks for, the smallest valid address, the number of slots it has
passed and the first free slot it has seen. -/
structure Scan where
  tag : Nat
  minValidAddr : Nat
  pos : Nat
  firstFree : Option Nat
  deriving DecidableEq, Repr

/-- A slot handle: position, the word that was seen there, and the tag it was located for. -/
structure Handle where
  slot : Nat
  raw : Nat
  tag : Nat
  deriving DecidableEq, Repr

/-- Where a session is. -/
inductive Session where
  | idle
  /-- about to load the slot at `pos` -/
  | load (s : Scan)
  /-- the slot held the stale word `raw`: about to exchange it for the empty word -/
  | clear (s : Scan) (raw : Nat)
  /-- the slot matched: about to load it again -/
  | confirm (s : Scan)
  /-- behind the last slot of a bucket, with a free slot at hand: about to ask whether the chain
  ends here -/
  | bucketEnd (s : Scan)
  /-- about to follow the overflow pointer -/
  | advance (s : Scan)
  /-- the pointer was empty: about to look again before allocating -/
  | recheck (s : Scan)
  /-- about to link a freshly allocated overflow bucket -/
  | link (s : Scan)
  /-- about to follow the overflow pointer that is now set -/
  | advanceLinked (s : Scan)
  /-- the probe has returned this handle -/
  | hold (h : Handle)
  /-- the handle after its own `cas_to_zero` -/
  | emptied (h : Handle)
  deriving DecidableEq, Repr

/-- The chain (its data slots in walk order), the pool and the sessions. -/
structure State where
  slots : List Nat
  pool : Nat
  sessions : Nat → Session

/-- What a session does next. -/
inductive Op where
  /-- call `find_or_create_tag` -/
  | probe (hash minValidAddr : Nat)
  /-- take the next step of the probe -/
  | next
  | tryCas (newAddress : Nat)
  | casToZero (foundOnly : Bool)
  /-- give the handle up -/
  | drop
  deriving DecidableEq, Repr

/-- The scan behind the slot at `pos`: the next slot of the bucket or, behind its last slot, the
test for the end of the chain (which only a scan with a free slot makes). -/
def Scan.pass (s : Scan) (firstFree : Option Nat) : Session :=
  let s' := { s with pos := s.pos + 1, firstFree := firstFree }
  if s'.pos % dataEntries = 0 then
    if firstFree.isSome then .bucketEnd s' else .advance s'
  else .load s'

/-- The slot is free: the first free slot is remembered. -/
def Scan.passFree (s : Scan) : Session := s.pass (s.firstFree.or (some s.pos))

/-- Walk into the next bucket; the walk limit guards against a cycle. -/
def Scan.enter (s : Scan) : Session :=
  if maxChainSteps ≤ s.pos / dataEntries then .idle else .load s

/-- The word of a slot; slots behind the end of the chain read as empty. -/
def slotAt (slots : List Nat) (j : Nat) : Nat := slots.getD j 0

/-- One step of a probe: the new slots, the new pool and where the session is then. A session that
gives up with an error is idle again. -/
def advanceProbe (slots : List Nat) (pool : Nat) : Session → Option (List Nat × Nat × Session)
  | .load s =>
    let raw := slotAt slots s.pos
    if raw = 0 then some (slots, pool, s.passFree)
    else if isStale s.minValidAddr raw then some (slots, pool, .clear s raw)
    else if matchesTag raw s.tag then some (slots, pool, .confirm s)
    else some (slots, pool, s.pass s.firstFree)
  | .clear s raw =>
    let actual := slotAt slots s.pos
    if actual = raw then some (slots.set s.pos 0, pool, s.passFree)
    else if actual = 0 then some (slots, pool, s.passFree)
    else if matchesTag actual s.tag &&
        (isReadCache actual || decide (s.minValidAddr ≤ address actual)) then
      some (slots, pool, .hold ⟨s.pos, actual, s.tag⟩)
    else some (slots, pool, s.pass s.firstFree)
  | .confirm s =>
    let synced := slotAt slots s.pos
    if matchesTag synced s.tag then some (slots, pool, .hold ⟨s.pos, synced, s.tag⟩)
    else if synced = 0 then some (slots, pool, s.passFree)
    else some (slots, pool, s.pass s.firstFree)
  | .bucketEnd s =>
    match s.firstFree with
    | some free =>
      if slots.length ≤ s.pos then some (slots, pool, .hold ⟨free, 0, s.tag⟩)
      else some (slots, pool, .advance s)
    | none => some (slots, pool, .advance s)
  | .advance s =>
    if slots.length ≤ s.pos then some (slots, pool, .recheck s) else some (slots, pool, s.enter)
  | .recheck s =>
    if slots.length ≤ s.pos then
      if pool = 0 then some (slots, pool, .idle) else some (slots, pool - 1, .link s)
    else some (slots, pool, .advanceLinked s)
  | .link s =>
    -- the loser of the race for the pointer returns its bucket to the pool
    if slots.length ≤ s.pos then
      some (slots ++ List.replicate dataEntries 0, pool, .advanceLinked s)
    else some (slots, pool + 1, .advanceLinked s)
  | .advanceLinked s =>
    if slots.length ≤ s.pos then some (slots, pool, .idle) else some (slots, pool, s.enter)
  | .idle | .hold _ | .emptied _ => none

/-- `try_cas` through a handle: the slots and the handle after a success. -/
def Handle.tryCas (h : Handle) (slots : List Nat) (newAddress : Nat) : Option (List Nat × Handle) :=
  if newAddress = 0 ∨ addressSpace ≤ newAddress then none
  else if slotAt slots h.slot = h.raw then
    some (slots.set h.slot (new newAddress h.tag false),
      { h with raw := new newAddress h.tag false })
  else none

/-- `cas_to_zero` through a handle: the slots and the handle after an exchange. On a handle of an
empty slot there is nothing to exchange. -/
def Handle.casToZero (h : Handle) (slots : List Nat) : Option (List Nat × Handle) :=
  if h.raw = 0 then none
  else if slotAt slots h.slot = h.raw then some (slots.set h.slot 0, { h with raw := 0 })
  else none

/-- One step of one session. -/
def step (st : State) (a : Nat × Op) : Option State :=
  let put (slots : List Nat) (pool : Nat) (s : Session) : State :=
    ⟨slots, pool, Function.update st.sessions a.1 s⟩
  match a.2, st.sessions a.1 with
  | .probe hash m, .idle => some (put st.slots st.pool (.load ⟨tagFromHash hash, m, 0, none⟩))
  | .next, s =>
    match advanceProbe st.slots st.pool s with
    | some (slots, pool, s') => some (put slots pool s')
    | none => none
  | .tryCas newAddress, .hold h =>
    match h.tryCas st.slots newAddress with
    | some (slots, h') => some (put slots st.pool (.hold h'))
    | none => some st
  | .tryCas newAddress, .emptied h =>
    match h.tryCas st.slots newAddress with
    | some (slots, h') => some (put slots st.pool (.hold h'))
    | none => some st
  | .casToZero _, .hold h =>
    match h.casToZero st.slots with
    | some (slots, h') => some (put slots st.pool (.emptied h'))
    | none => some st
  | .casToZero _, .emptied _ => some st
  | .drop, .hold _ | .drop, .emptied _ => some (put st.slots st.pool .idle)
  | _, _ => none

/-- A chain before any session has started: whole buckets, at most one entry for each tag. -/
def Initial (st : State) : Prop :=
  (∃ buckets, st.slots.length = dataEntries * (buckets + 1)) ∧ TagUnique st.slots ∧
    ∀ i, st.sessions i = .idle

/-- A lookup that stops at the first match sees every committed entry. -/
def FirstMatchComplete (slots : List Nat) : Prop :=
  TagUnique slots ∧ ∀ w ∈ slots, ∀ t, matchesTag w t = true → headWord slots t = w

end Wedb.Probe
