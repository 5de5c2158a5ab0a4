import Wedb.Lib.Machine
import Wedb.Migration.Sketch

/-!
# Migration of slots

The driver moves the keys of its slots in rounds (`execute_slots_migration`,
`migrate_range_index_keys_async`): it records the keys of a batch in the sketch, waits for the
commands that run, sends the values, closes the keys for reads too, waits again and deletes what the
target has acknowledged. Commands look each of their keys up (`can_access_key`), in two reads, before
they run.
-/

namespace Wedb.Migration

open List

variable {K V : Type}

/-- What a migration is about. -/
structure Scope (K : Type) where
  slots : List Nat
  slotOf : K → Nat
  hash : K → Nat

structure Command (K : Type) where
  slot : Nat
  keys : List K
  readOnly : Bool

/-- How far a command has come. -/
inductive Stage (K : Type) where
  /-- the keys that are still to be looked up -/
  | probing (rest : List K)
  /-- the bit of a key is set, the status has not been read -/
  | found (key : K) (rest : List K)
  | admitted

/-- The keys a command has not been let through for. -/
def Stage.pending : Stage K → List K
  | .probing rest => rest
  | .found key rest => key :: rest
  | .admitted => []

structure Running (K : Type) where
  command : Command K
  stage : Stage K

/-- Where the driver stands. Waits keep the number of commands that had started before. -/
inductive Phase (K V : Type) where
  | idle
  /-- the trees of a batch are recorded before the status is set -/
  | recording (batch todo : List K)
  | marking (batch todo : List K)
  | drainWriters (batch : List K) (before : Nat)
  | transmitting (batch todo : List K) (read sent : List (K × V))
  | closing (sent : List (K × V))
  | drainReaders (sent : List (K × V)) (before : Nat)
  | deleting (sent : List (K × V))
  | clearing
  | stopped

structure State (K V : Type) where
  store : K → Option V
  /-- the last value of each key the target has acknowledged -/
  target : K → Option V
  sketch : Sketch
  registered : Bool
  phase : Phase K V
  /-- commands are numbered as they start -/
  next : Nat
  commands : Nat → Option (Running K)

inductive Action (K V : Type) where
  | beginBatch (batch : List K)
  | beginTrees (batch : List K)
  | hashAndStore
  | setTransmitting
  | startWait
  | waited
  | read
  | skip
  | acknowledged
  | setDeleting
  | keep
  | delete
  | deleteFailed
  | clear
  | resetStatus
  | stop
  | unregister
  | start (command : Command K)
  | probe (id : Nat)
  | readStatus (id : Nat)
  | proceed (id : Nat)
  | write (id : Nat) (key : K) (value : Option V)
  | finish (id : Nat)

/-- Whether a command may go on with a recorded key. -/
def SketchStatus.admits (status : SketchStatus) (readOnly : Bool) : Bool :=
  match status with
  | .initializing | .migrated => true
  | .transmitting => readOnly
  | .deleting => false

section Step

variable [DecidableEq K] (scope : Scope K)

/-- The driver goes on. -/
def State.to (s : State K V) (phase : Phase K V) : State K V := { s with phase }

def State.markTo (s : State K V) (status : SketchStatus) (phase : Phase K V) : State K V :=
  { s with sketch := s.sketch.setStatus status, phase }

def State.record (s : State K V) (key : K) (phase : Phase K V) : State K V :=
  { s with sketch := s.sketch.hashAndStore (scope.hash key), phase }

/-- A command goes on, or leaves. -/
def State.setCommand (s : State K V) (id : Nat) (running : Option (Running K)) : State K V :=
  { s with commands := Function.update s.commands id running }

/-- A command starts. -/
def State.enter (s : State K V) (command : Command K) : State K V :=
  { s with
    next := s.next + 1
    commands := Function.update s.commands s.next (some ⟨command, .probing command.keys⟩) }

def State.writeKey (s : State K V) (key : K) (value : Option V) : State K V :=
  { s with store := Function.update s.store key value }

/-- The target takes the values in. -/
def imported (target : K → Option V) (values : List (K × V)) : K → Option V :=
  values.foldl (fun target p => Function.update target p.1 (some p.2)) target

/-- Every command that had started before has finished. -/
def State.quiet (s : State K V) (before : Nat) : Prop := ∀ id < before, (s.commands id).isNone

instance (s : State K V) (before : Nat) : Decidable (s.quiet before) :=
  inferInstanceAs (Decidable (∀ id < before, (s.commands id).isNone))

/-- The bit of a key is read and found set. -/
def State.blocks (s : State K V) (slot : Nat) (key : K) : Bool :=
  s.registered && scope.slots.contains slot && s.sketch.contains (scope.hash key)

def step (s : State K V) : Action K V → Option (State K V)
  | .beginBatch batch =>
    match s.phase with
    | .idle =>
      if ∀ key ∈ batch, scope.slotOf key ∈ scope.slots then
        some (s.markTo .transmitting (.marking batch batch))
      else none
    | _ => none
  | .beginTrees batch =>
    match s.phase with
    | .idle =>
      if ∀ key ∈ batch, scope.slotOf key ∈ scope.slots then
        some { s with
          sketch := s.sketch.clearBitmap.setStatus .initializing
          phase := .recording batch batch }
      else none
    | _ => none
  | .hashAndStore =>
    match s.phase with
    | .recording batch (key :: todo) => some (s.record scope key (.recording batch todo))
    | .marking batch (key :: todo) => some (s.record scope key (.marking batch todo))
    | _ => none
  | .setTransmitting =>
    match s.phase with
    | .recording batch [] => some (s.markTo .transmitting (.marking batch []))
    | _ => none
  | .startWait =>
    match s.phase with
    | .marking batch [] => some (s.to (.drainWriters batch s.next))
    | .closing sent => some (s.to (.drainReaders sent s.next))
    | _ => none
  | .waited =>
    match s.phase with
    | .drainWriters batch before =>
      if s.quiet before then some (s.to (.transmitting batch batch [] [])) else none
    | .drainReaders sent before => if s.quiet before then some (s.to (.deleting sent)) else none
    | _ => none
  | .read =>
    match s.phase with
    | .transmitting batch (key :: todo) read sent =>
      match s.store key with
      | some value => some (s.to (.transmitting batch todo (read ++ [(key, value)]) sent))
      | none => some (s.to (.transmitting batch todo read sent))
    | _ => none
  -- a value of another kind takes another way
  | .skip =>
    match s.phase with
    | .transmitting batch (_ :: todo) read sent => some (s.to (.transmitting batch todo read sent))
    | _ => none
  | .acknowledged =>
    match s.phase with
    | .transmitting batch todo read sent =>
      some { s with
        target := imported s.target read
        phase := .transmitting batch todo [] (sent ++ read) }
    | _ => none
  | .setDeleting =>
    match s.phase with
    | .transmitting _ [] [] sent => some (s.markTo .deleting (.closing sent))
    | _ => none
  -- the copy option
  | .keep =>
    match s.phase with
    | .transmitting _ [] [] _ => some { s with sketch := s.sketch.clearBitmap, phase := .clearing }
    | _ => none
  | .delete =>
    match s.phase with
    | .deleting ((key, _) :: sent) => some ((s.writeKey key none).to (.deleting sent))
    | _ => none
  | .deleteFailed =>
    match s.phase with
    | .deleting (_ :: sent) => some (s.to (.deleting sent))
    | _ => none
  | .clear =>
    match s.phase with
    | .deleting [] => some { s with sketch := s.sketch.clearBitmap, phase := .clearing }
    | _ => none
  | .resetStatus =>
    match s.phase with
    | .clearing => some (s.markTo .initializing .idle)
    | _ => none
  -- a wait or a transfer has failed, or there is nothing left to move
  | .stop => some (s.to .stopped)
  | .unregister =>
    match s.phase with
    | .stopped => some { s with registered := false }
    | _ => none
  | .start command =>
    if ∀ key ∈ command.keys, scope.slotOf key = command.slot then some (s.enter command) else none
  | .probe id =>
    match s.commands id with
    | some ⟨command, .probing (key :: rest)⟩ =>
      if s.blocks scope command.slot key then s.setCommand id (some ⟨command, .found key rest⟩)
      else s.setCommand id (some ⟨command, .probing rest⟩)
    | _ => none
  | .readStatus id =>
    match s.commands id with
    | some ⟨command, .found _ rest⟩ =>
      if s.sketch.status.admits command.readOnly then
        s.setCommand id (some ⟨command, .probing rest⟩)
      -- it waits outside and will be looked at anew
      else s.setCommand id none
    | _ => none
  | .proceed id =>
    match s.commands id with
    | some ⟨command, .probing []⟩ => s.setCommand id (some ⟨command, .admitted⟩)
    | _ => none
  | .write id key value =>
    match s.commands id with
    | some ⟨command, .admitted⟩ =>
      if command.readOnly = false ∧ key ∈ command.keys then some (s.writeKey key value) else none
    | _ => none
  | .finish id => some (s.setCommand id none)

end Step

/-- A migration that has just been registered. -/
def State.start (n : Nat) (store : K → Option V) : State K V where
  store
  target := fun _ => none
  sketch := .withKeyCount n
  registered := true
  phase := .idle
  next := 0
  commands := fun _ => none

section Fields

variable (s : State K V)

@[simp] lemma State.writeKey_store [DecidableEq K] (key : K) (value : Option V) :
    (s.writeKey key value).store = Function.update s.store key value := rfl

end Fields

/-! ### What the phases hold -/

section Phases

/-- The keys of the round. -/
def Phase.keys : Phase K V → List K
  | .recording batch _ | .marking batch _ | .drainWriters batch _ | .transmitting batch _ _ _ =>
    batch
  | .closing sent | .drainReaders sent _ | .deleting sent => sent.map Prod.fst
  | _ => []

/-- The keys of the round that are not in the sketch yet. -/
def Phase.unmarked : Phase K V → List K
  | .recording _ todo | .marking _ todo => todo
  | _ => []

/-- The status holds writes to recorded keys back. -/
def Phase.closed : Phase K V → Bool
  | .marking _ _ | .drainWriters _ _ | .transmitting _ _ _ _ | .closing _ | .drainReaders _ _
  | .deleting _ => true
  | _ => false

/-- Commands from this number on are held back at the keys of the round. -/
def Phase.heldFrom : Phase K V → Option Nat
  | .drainWriters _ before => some before
  | .transmitting _ _ _ _ | .closing _ | .drainReaders _ _ | .deleting _ => some 0
  | _ => none

/-- The keys whose values are still to be read. -/
def Phase.unread : Phase K V → List K
  | .transmitting _ todo _ _ => todo
  | _ => []

/-- The values that have been read and are not deleted yet. -/
def Phase.values : Phase K V → List (K × V)
  | .transmitting _ _ read sent => sent ++ read
  | .closing sent | .drainReaders sent _ | .deleting sent => sent
  | _ => []

/-- Those of them the target has acknowledged. -/
def Phase.sent : Phase K V → List (K × V)
  | .transmitting _ _ _ sent | .closing sent | .drainReaders sent _ | .deleting sent => sent
  | _ => []

end Phases

variable {p : K × V}

section Invariant

variable (scope : Scope K)

/-- The recorded keys are closed for writes. -/
structure Gate (s : State K V) : Prop where
  registered : s.phase.closed = true → s.registered = true
  governed : ∀ key ∈ s.phase.keys, scope.slotOf key ∈ scope.slots
  closed : s.phase.closed = true → s.sketch.status.admits false = false
  marked : ∀ key ∈ s.phase.keys, key ∈ s.phase.unmarked ∨ s.sketch.contains (scope.hash key) = true

/-- A command that writes and has not been waited for has not come past a key of the round. -/
structure Held (s : State K V) : Prop where
  started : ∀ id r, s.commands id = some r →
    id < s.next ∧ ∀ key ∈ r.command.keys, scope.slotOf key = r.command.slot
  held : ∀ from', s.phase.heldFrom = some from' → ∀ id r, from' ≤ id → s.commands id = some r →
    r.command.readOnly = false → ∀ key ∈ s.phase.keys, key ∈ r.command.keys → key ∈ r.stage.pending

/-- What has been read is what is there. -/
structure Copied (s : State K V) : Prop where
  listed : ∀ key ∈ s.phase.unread, key ∈ s.phase.keys
  taken : ∀ p ∈ s.phase.values, p.1 ∈ s.phase.keys
  kept : ∀ p ∈ s.phase.values, ∀ value, s.store p.1 = some value → value = p.2
  agree : ∀ p ∈ s.phase.values, ∀ q ∈ s.phase.values, p.1 = q.1 → p.2 = q.2
  delivered : ∀ p ∈ s.phase.sent, s.target p.1 = some p.2

structure Inv (s : State K V) : Prop where
  registered : s.registered = false → s.phase = .stopped
  gate : Gate scope s
  held : Held scope s
  copied : Copied s

variable {scope} {s : State K V}

variable {phase : Phase K V} {from' : Nat}

lemma Phase.closed_of_heldFrom (h : phase.heldFrom = some from') :
    phase.closed = true ∧ phase.unmarked = [] := by
  cases phase <;> first | exact ⟨rfl, rfl⟩ | cases h

lemma Phase.heldFrom_of_values (h : p ∈ phase.values) : phase.heldFrom = some 0 := by
  cases phase <;> first | rfl | cases h

/-- A phase without keys asks for nothing. -/
lemma Gate.of_open (hkeys : s.phase.keys = []) (hopen : s.phase.closed = false) : Gate scope s where
  registered h := absurd (hopen.symm.trans h) (by decide)
  governed key h := by rw [hkeys] at h; cases h
  closed h := absurd (hopen.symm.trans h) (by decide)
  marked key h := by rw [hkeys] at h; cases h

variable {s' : State K V}

lemma Held.to (h : Held scope s) (hcommands : s'.commands = s.commands) (hnext : s'.next = s.next)
    (hheld : ∀ from', s'.phase.heldFrom = some from' → ∀ id r, from' ≤ id → s.commands id = some r →
      r.command.readOnly = false → ∀ key ∈ s'.phase.keys, key ∈ r.command.keys →
      key ∈ r.stage.pending) : Held scope s' where
  started id r hr := by
    rw [hcommands] at hr
    rw [hnext]
    exact h.started id r hr
  held from' hfrom id r hle hr := by
    rw [hcommands] at hr
    exact hheld from' hfrom id r hle hr

lemma Copied.of_open (hunread : s.phase.unread = []) (hvalues : s.phase.values = [])
    (hsent : s.phase.sent = []) : Copied s where
  listed key h := by rw [hunread] at h; cases h
  taken p h := by rw [hvalues] at h; cases h
  kept p h := by rw [hvalues] at h; cases h
  agree p h := by rw [hvalues] at h; cases h
  delivered p h := by rw [hsent] at h; cases h

lemma Gate.to (h : Gate scope s) (hsketch : s'.sketch = s.sketch)
    (hregistered : s'.registered = s.registered)
    (hclosed : s'.phase.closed = true → s.phase.closed = true)
    (hkeys : ∀ key ∈ s'.phase.keys, key ∈ s.phase.keys)
    (hunmarked : ∀ key ∈ s.phase.unmarked, key ∈ s'.phase.unmarked) : Gate scope s' where
  registered hc := hregistered ▸ h.registered (hclosed hc)
  governed key hk := h.governed key (hkeys key hk)
  closed hc := hsketch ▸ h.closed (hclosed hc)
  marked key hk := (h.marked key (hkeys key hk)).imp (hunmarked key) (hsketch ▸ id)

lemma Copied.to (h : Copied s) (hstore : s'.store = s.store)
    (htarget : s'.target = s.target) (hunread : ∀ key ∈ s'.phase.unread, key ∈ s'.phase.keys)
    (hkeys : ∀ p ∈ s'.phase.values, p.1 ∈ s'.phase.keys)
    (hvalues : ∀ p ∈ s'.phase.values, p ∈ s.phase.values)
    (hsent : ∀ p ∈ s'.phase.sent, p ∈ s.phase.sent) : Copied s' where
  listed := hunread
  taken := hkeys
  kept p hp := hstore ▸ h.kept p (hvalues p hp)
  agree p hp q hq := h.agree p (hvalues p hp) q (hvalues q hq)
  delivered p hp := htarget ▸ h.delivered p (hsent p hp)

/-! ### Steps of commands -/

variable {key : K}

section Commands

/-- While writers are held back, a command that looks up a key of the round finds its bit. -/
lemma Inv.blocks (hi : Inv scope s) (hfrom : s.phase.heldFrom = some from')
    (hkey : key ∈ s.phase.keys) : s.blocks scope (scope.slotOf key) key = true := by
  obtain ⟨hclosed, hunmarked⟩ := Phase.closed_of_heldFrom hfrom
  have hregistered := hi.gate.registered hclosed
  have hslot := hi.gate.governed key hkey
  rcases hi.gate.marked key hkey with hin | hcontains
  · rw [hunmarked] at hin
    cases hin
  · simp [State.blocks, hregistered, hslot, hcontains]

lemma Inv.withCommands (hi : Inv scope s) {commands : Nat → Option (Running K)} {next : Nat}
    (hheld : Held scope { s with commands, next }) : Inv scope { s with commands, next } where
  registered := hi.registered
  gate := hi.gate.to rfl rfl (fun h => h) (fun _ h => h) fun _ h => h
  copied := hi.copied.to rfl rfl hi.copied.listed hi.copied.taken (fun _ h => h) fun _ h => h
  held := hheld

variable {id : Nat}

/-- Command `id` is replaced by one that is not past a key of the round, or by none. -/
lemma Inv.update (hi : Inv scope s) {running : Option (Running K)} {next : Nat}
    (hnext : s.next ≤ next)
    (hstarted : ∀ r, running = some r →
      id < next ∧ ∀ key ∈ r.command.keys, scope.slotOf key = r.command.slot)
    (hpending : ∀ r, running = some r → ∀ from', s.phase.heldFrom = some from' → from' ≤ id →
      r.command.readOnly = false → ∀ key ∈ s.phase.keys, key ∈ r.command.keys →
      key ∈ r.stage.pending) :
    Inv scope { s with commands := Function.update s.commands id running, next } := by
  refine hi.withCommands ⟨fun id' r h => ?_, fun from' hfrom id' r hle h => ?_⟩
  · by_cases hid : id' = id
    · subst hid
      exact hstarted r (by simpa using h)
    · obtain ⟨hlt, hkeys⟩ := hi.held.started id' r (by simpa [hid] using h)
      exact ⟨hlt.trans_le hnext, hkeys⟩
  · by_cases hid : id' = id
    · subst hid
      exact hpending r (by simpa using h) from' hfrom hle
    · exact hi.held.held from' hfrom id' r hle (by simpa [hid] using h)

/-- A command goes on without coming past a key of the round. -/
lemma Inv.setCommand (hi : Inv scope s) {r r' : Running K} (hr : s.commands id = some r)
    (hcommand : r'.command = r.command)
    (hpending : ∀ from', s.phase.heldFrom = some from' → r.command.readOnly = false →
      ∀ key ∈ s.phase.keys, key ∈ r.command.keys → key ∈ r.stage.pending →
      key ∈ r'.stage.pending) :
    Inv scope (s.setCommand id (some r')) := by
  apply hi.update le_rfl
  · rintro _ ⟨⟩
    rw [hcommand]
    exact hi.held.started id r hr
  · rintro _ ⟨⟩ from' hfrom hle hwrites key hkey hmem
    rw [hcommand] at hwrites hmem
    have hold := hi.held.held from' hfrom id r hle hr hwrites key hkey hmem
    exact hpending from' hfrom hwrites key hkey hmem hold

lemma Inv.leave (hi : Inv scope s) (id : Nat) : Inv scope (s.setCommand id none) :=
  hi.update le_rfl nofun nofun

variable {command : Command K}

section

variable (hi : Inv scope s)
include hi

lemma Inv.enter (hslot : ∀ key ∈ command.keys, scope.slotOf key = command.slot) :
    Inv scope (s.enter command) := by
  apply hi.update (Nat.le_succ _)
  · rintro _ ⟨⟩
    exact ⟨Nat.lt_succ_self _, hslot⟩
  · rintro _ ⟨⟩ from' hfrom hle hwrites key hkey hmem
    exact hmem

/-- A command that has been admitted writes no key whose value has been read and not deleted. -/
lemma Inv.not_mem_keys (hfrom : s.phase.heldFrom = some from') (hle : from' ≤ id)
    (hr : s.commands id = some ⟨command, .admitted⟩) (hwrites : command.readOnly = false)
    (hkey : key ∈ command.keys) : key ∉ s.phase.keys := by
  intro hmem
  have hpending := hi.held.held from' hfrom id _ hle hr hwrites key hmem hkey
  cases hpending

lemma Inv.writeKey [DecidableEq K]
    (value : Option V) (hr : s.commands id = some ⟨command, .admitted⟩)
    (hwrites : command.readOnly = false) (hkey : key ∈ command.keys) :
    Inv scope (s.writeKey key value) where
  registered := hi.registered
  gate := hi.gate.to rfl rfl (fun h => h) (fun _ h => h) fun _ h => h
  held := hi.held.to rfl rfl hi.held.held
  copied := by
    refine ⟨hi.copied.listed, hi.copied.taken, ?_, hi.copied.agree, hi.copied.delivered⟩
    intro p hp v hv
    have hfrom := Phase.heldFrom_of_values hp
    have hout := hi.not_mem_keys hfrom (Nat.zero_le id) hr hwrites hkey
    have hne : p.1 ≠ key := fun h => hout (h ▸ hi.copied.taken p hp)
    rw [State.writeKey_store, Function.update_of_ne hne] at hv
    exact hi.copied.kept p hp v hv

lemma Inv.probe {rest : List K} (hr : s.commands id = some ⟨command, .probing (key :: rest)⟩) :
    Inv scope (if s.blocks scope command.slot key then
      s.setCommand id (some ⟨command, .found key rest⟩)
      else s.setCommand id (some ⟨command, .probing rest⟩)) := by
  split
  · exact hi.setCommand hr rfl fun _ _ _ _ _ _ h => h
  · rename_i hblocks
    refine hi.setCommand hr rfl fun from' hfrom _ k hk hmem hpending => ?_
    rcases mem_cons.1 hpending with rfl | hrest
    · have hslot := (hi.held.started id _ hr).2 k hmem
      exact absurd (hslot ▸ hi.blocks hfrom hk) hblocks
    · exact hrest

lemma Inv.readStatus {rest : List K} (hr : s.commands id = some ⟨command, .found key rest⟩) :
    Inv scope (if s.sketch.status.admits command.readOnly then
      s.setCommand id (some ⟨command, .probing rest⟩) else s.setCommand id none) := by
  split
  · rename_i hadmits
    refine hi.setCommand hr rfl fun from' hfrom hwrites k hk hmem hpending => ?_
    have hclosed := hi.gate.closed (Phase.closed_of_heldFrom hfrom).1
    rw [hwrites, hclosed] at hadmits
    cases hadmits
  · exact hi.leave id

end

end Commands

/-! ### Steps of the driver -/

section Driver

section

variable (hi : Inv scope s)
include hi

lemma Inv.registered_of_ne (hphase : s.phase ≠ .stopped) : s.registered = true := by
  cases hr : s.registered
  · exact absurd (hi.registered hr) hphase
  · rfl

/-- The driver goes on and touches nothing else. -/
lemma Inv.stop : Inv scope (s.to .stopped) where
  registered _ := rfl
  gate := .of_open rfl rfl
  held := hi.held.to rfl rfl nofun
  copied := .of_open rfl rfl rfl

/-- The driver is in a phase in which it holds no command back and has read nothing. -/
lemma Inv.open {sketch : Sketch} (hstopped : s.phase ≠ .stopped) (hgate : Gate scope { s with sketch, phase })
    (hheld : phase.heldFrom = none) (hunread : phase.unread = []) (hvalues : phase.values = [])
    (hsent : phase.sent = []) : Inv scope { s with sketch, phase } where
  registered h := absurd (hi.registered h) hstopped
  gate := hgate
  held := hi.held.to rfl rfl fun _ h => absurd (hheld.symm.trans h) nofun
  copied := .of_open hunread hvalues hsent

section

variable {batch : List K} (hphase : s.phase = .idle) (hbatch : ∀ key ∈ batch, scope.slotOf key ∈ scope.slots)
include hphase hbatch

lemma Inv.beginBatch : Inv scope (s.markTo .transmitting (.marking batch batch)) := by
  have hstopped : s.phase ≠ .stopped := by rw [hphase]; nofun
  have hr := hi.registered_of_ne hstopped
  exact hi.open hstopped ⟨fun _ => hr, hbatch, fun _ => rfl, fun _ hk => .inl hk⟩ rfl rfl rfl rfl

lemma Inv.beginTrees (sketch : Sketch) : Inv scope { s with sketch, phase := .recording batch batch } :=
  hi.open (by rw [hphase]; nofun) ⟨nofun, hbatch, nofun, fun _ hk => .inl hk⟩ rfl rfl rfl rfl

end

/-- A key of the round is recorded, before the status is set or after. -/
lemma Inv.record {todo : List K}
    (hunmarked : s.phase.unmarked = key :: todo) (hunmarked' : phase.unmarked = todo)
    (hkeys : phase.keys = s.phase.keys) (hclosed : phase.closed = s.phase.closed)
    (hheld : phase.heldFrom = none) (hunread : phase.unread = []) (hvalues : phase.values = [])
    (hsent : phase.sent = []) :
    Inv scope (s.record scope key phase) := by
  refine hi.open (fun hstopped => by rw [hstopped] at hunmarked; cases hunmarked)
    ⟨fun h => hi.gate.registered (hclosed ▸ h), ?_, fun h => hi.gate.closed (hclosed ▸ h), ?_⟩ hheld hunread
    hvalues hsent
  · intro k hk
    exact hi.gate.governed k (hkeys ▸ hk)
  · intro k hk
    have hmarked := hi.gate.marked k (hkeys ▸ hk)
    rw [hunmarked, mem_cons] at hmarked
    rcases hmarked with (rfl | htodo) | hcontains
    · exact .inr (Sketch.contains_hashAndStore_self _ _)
    · exact .inl (hunmarked'.symm ▸ htodo)
    · exact .inr (Sketch.contains_hashAndStore _ hcontains _)

variable {batch : List K}

lemma Inv.setTransmitting (hphase : s.phase = .recording batch []) :
    Inv scope (s.markTo .transmitting (.marking batch [])) := by
  have hstopped : s.phase ≠ .stopped := by rw [hphase]; nofun
  have hr := hi.registered_of_ne hstopped
  obtain ⟨-, hgoverned, -, hmarked⟩ := hi.gate
  rw [hphase] at hgoverned hmarked
  exact hi.open hstopped ⟨fun _ => hr, hgoverned, fun _ => rfl, hmarked⟩ rfl rfl rfl rfl

/-- No command has started that the wait would not be for. -/
lemma Inv.drainWriters (hphase : s.phase = .marking batch []) :
    Inv scope (s.to (.drainWriters batch s.next)) := by
  cases s
  cases hphase
  refine ⟨fun h => absurd (hi.registered h) nofun,
    hi.gate.to rfl rfl (fun _ => rfl) (fun _ hk => hk) fun _ hk => hk,
    hi.held.to rfl rfl ?_, .of_open rfl rfl rfl⟩
  rintro from' ⟨⟩ id r hle hr
  exact absurd (hi.held.started id r hr).1 (not_lt.2 hle)

/-- The writers that came past a key of the round before it was recorded are through. -/
lemma Inv.writersDrained {before : Nat}
    (hphase : s.phase = .drainWriters batch before) (hquiet : s.quiet before) :
    Inv scope (s.to (.transmitting batch batch [] [])) := by
  cases s
  cases hphase
  refine ⟨fun h => absurd (hi.registered h) nofun,
    hi.gate.to rfl rfl (fun _ => rfl) (fun _ hk => hk) fun _ hk => hk,
    hi.held.to rfl rfl ?_, hi.copied.to rfl rfl (fun _ h => h) nofun nofun nofun⟩
  intro from' _ id r _ hr
  have hle : before ≤ id := by
    by_contra hlt
    have hnone := hquiet id (Nat.lt_of_not_le hlt)
    rw [hr] at hnone
    cases hnone
  exact hi.held.held before rfl id r hle hr

end

lemma Inv.ne_stopped (hfrom : s.phase.heldFrom = some from') : s.phase ≠ .stopped := by
  intro h
  rw [h] at hfrom
  cases hfrom

/-- Once the writers are through they stay so, whatever else the driver does with its keys. -/
lemma Held.go (h : Held scope s) (hfrom : s.phase.heldFrom = some 0)
    (hcommands : s'.commands = s.commands) (hnext : s'.next = s.next)
    (hkeys : ∀ key ∈ s'.phase.keys, key ∈ s.phase.keys) : Held scope s' :=
  h.to hcommands hnext fun _ _ id r _ hr hwrites key hkey =>
    h.held 0 hfrom id r (Nat.zero_le id) hr hwrites key (hkeys key hkey)

lemma Inv.go (hi : Inv scope s) (hfrom : s.phase.heldFrom = some 0)
    (hkeys : ∀ key ∈ phase.keys, key ∈ s.phase.keys)
    (hunread : ∀ key ∈ phase.unread, key ∈ phase.keys)
    (htaken : ∀ p ∈ phase.values, p.1 ∈ phase.keys)
    (hvalues : ∀ p ∈ phase.values, p ∈ s.phase.values)
    (hsent : ∀ p ∈ phase.sent, p ∈ s.phase.sent) : Inv scope (s.to phase) := by
  obtain ⟨hclosed, hunmarked⟩ := Phase.closed_of_heldFrom hfrom
  exact ⟨fun h => absurd (hi.registered h) (ne_stopped hfrom),
    hi.gate.to rfl rfl (fun _ => hclosed) hkeys (by rw [hunmarked]; nofun),
    hi.held.go hfrom rfl rfl hkeys, hi.copied.to rfl rfl hunread htaken hvalues hsent⟩

section Transmitting

variable {batch todo : List K} {read sent : List (K × V)}

lemma Inv.readSome (hi : Inv scope s) {value : V}
    (hphase : s.phase = .transmitting batch (key :: todo) read sent)
    (hstore : s.store key = some value) :
    Inv scope (s.to (.transmitting batch todo (read ++ [(key, value)]) sent)) := by
  cases s
  cases hphase
  obtain ⟨hregistered, hgate, hheld, hlisted, htaken, hkept, hagree, hdelivered⟩ := hi
  -- a value that has been read before under this key is the same
  have hsame : ∀ p ∈ sent ++ read, p.1 = key → p.2 = value :=
    fun p hp hpkey => (hkept p hp value (hpkey ▸ hstore)).symm
  have hcases : ∀ p ∈ sent ++ (read ++ [(key, value)]), p ∈ sent ++ read ∨ p = (key, value) := by
    intro p hp
    rw [← append_assoc, mem_append, mem_singleton] at hp
    exact hp
  exact {
    registered := fun h => nomatch hregistered h
    gate := hgate.to rfl rfl id (fun _ h => h) nofun
    held := hheld.go rfl rfl rfl fun _ h => h
    copied := {
      listed := fun k hk => hlisted k (mem_cons_of_mem _ hk)
      taken := by
        intro p hp
        rcases hcases p hp with hp | rfl
        · exact htaken p hp
        · exact hlisted key mem_cons_self
      kept := by
        intro p hp v hv
        rcases hcases p hp with hp | rfl
        · exact hkept p hp v hv
        · exact Option.some.inj (hv.symm.trans hstore)
      agree := by
        intro p hp q hq heq
        rcases hcases p hp with hp | rfl <;> rcases hcases q hq with hq | rfl
        · exact hagree p hp q hq heq
        · exact hsame p hp heq
        · exact (hsame q hq heq.symm).symm
        · rfl
      delivered := hdelivered } }

lemma Inv.readNone (hi : Inv scope s)
    (hphase : s.phase = .transmitting batch (key :: todo) read sent) :
    Inv scope (s.to (.transmitting batch todo read sent)) := by
  cases s
  cases hphase
  exact hi.go rfl (fun _ h => h) (fun k hk => hi.copied.listed k (mem_cons_of_mem _ hk))
    hi.copied.taken (fun _ h => h) fun _ h => h

lemma imported_eq [DecidableEq K] {target : K → Option V} {values : List (K × V)}
    {value : V} (hagree : ∀ p ∈ values, p.1 = key → p.2 = value)
    (h : target key = some value ∨ (key, value) ∈ values) :
    imported target values key = some value := by
  induction values generalizing target with
  | nil => exact h.resolve_right not_mem_nil
  | cons p rest ih =>
    refine ih (fun q hq => hagree q (mem_cons_of_mem _ hq)) ?_
    by_cases hp : p.1 = key
    · have hvalue := hagree p mem_cons_self hp
      left
      dsimp only
      rw [← hp, Function.update_self, hvalue]
    · rcases h with h | h
      · left
        dsimp only
        rwa [Function.update_of_ne (symm hp)]
      · rcases mem_cons.1 h with rfl | h
        · exact absurd rfl hp
        · exact .inr h

lemma Inv.acknowledged [DecidableEq K] (hi : Inv scope s)
    (hphase : s.phase = .transmitting batch todo read sent) :
    Inv scope { s with
      target := imported s.target read
      phase := .transmitting batch todo [] (sent ++ read) } := by
  cases s
  cases hphase
  obtain ⟨hregistered, hgate, hheld, hlisted, htaken, hkept, hagree, hdelivered⟩ := hi
  have hvalues : ∀ p ∈ (sent ++ read) ++ [], p ∈ sent ++ read := by simp
  exact {
    registered := fun h => nomatch hregistered h
    gate := hgate.to rfl rfl id (fun _ h => h) nofun
    held := hheld.go rfl rfl rfl fun _ h => h
    copied := {
      listed := hlisted
      taken := fun p hp => htaken p (hvalues p hp)
      kept := fun p hp => hkept p (hvalues p hp)
      agree := fun p hp q hq => hagree p (hvalues p hp) q (hvalues q hq)
      delivered := by
        intro p hp
        refine imported_eq (fun q hq heq => ?_) ?_
        · exact hagree q (mem_append_right _ hq) p hp heq
        · exact (mem_append.1 hp).imp (hdelivered p) id } }

lemma Inv.setDeleting (hi : Inv scope s) (hphase : s.phase = .transmitting batch [] [] sent) :
    Inv scope (s.markTo .deleting (.closing sent)) := by
  cases s
  cases hphase
  obtain ⟨hregistered, hgate, hheld, hlisted, htaken, hkept, hagree, hdelivered⟩ := hi
  have hvalues : ∀ p ∈ sent, p ∈ sent ++ [] := by simp
  have hkeys : ∀ key ∈ sent.map Prod.fst, key ∈ batch := by
    intro key hkey
    obtain ⟨p, hp, rfl⟩ := mem_map.1 hkey
    exact htaken p (hvalues p hp)
  exact {
    registered := fun h => nomatch hregistered h
    gate := {
      registered := fun _ => hgate.registered rfl
      governed := fun key hk => hgate.governed key (hkeys key hk)
      closed := fun _ => rfl
      marked := fun key hk => hgate.marked key (hkeys key hk) }
    held := hheld.go rfl rfl rfl hkeys
    copied := {
      listed := nofun
      taken := fun p hp => mem_map_of_mem hp
      kept := fun p hp => hkept p (hvalues p hp)
      agree := fun p hp q hq => hagree p (hvalues p hp) q (hvalues q hq)
      delivered := hdelivered } }

end Transmitting

variable {sent : List (K × V)}

section

variable (hi : Inv scope s)
include hi

/-- What is left of the round is open again. -/
lemma Inv.clear (sketch : Sketch)
    (hstopped : s.phase ≠ .stopped) (hphase : phase = .clearing ∨ phase = .idle) :
    Inv scope { s with sketch, phase } := by
  rcases hphase with rfl | rfl <;> exact hi.open hstopped (.of_open rfl rfl) rfl rfl rfl rfl

lemma Inv.drainReaders (hphase : s.phase = .closing sent) :
    Inv scope (s.to (.drainReaders sent s.next)) := by
  cases s
  cases hphase
  exact hi.go rfl (fun _ h => h) nofun (fun p hp => mem_map_of_mem hp) (fun _ h => h) fun _ h => h

lemma Inv.readersDrained {before : Nat}
    (hphase : s.phase = .drainReaders sent before) : Inv scope (s.to (.deleting sent)) := by
  cases s
  cases hphase
  exact hi.go rfl (fun _ h => h) nofun (fun p hp => mem_map_of_mem hp) (fun _ h => h) fun _ h => h

lemma Inv.deleteFailed
    (hphase : s.phase = .deleting (p :: sent)) : Inv scope (s.to (.deleting sent)) := by
  cases s
  cases hphase
  have hmem : ∀ q ∈ sent, q ∈ p :: sent := fun q hq => mem_cons_of_mem p hq
  exact hi.go rfl (fun _ h => mem_cons_of_mem _ h) nofun (fun p hp => mem_map_of_mem hp) hmem hmem

lemma Inv.delete [DecidableEq K]
    (hphase : s.phase = .deleting (p :: sent)) :
    Inv scope ((s.writeKey p.1 none).to (.deleting sent)) := by
  obtain ⟨hregistered, hgate, hheld, hcopied⟩ := hi.deleteFailed hphase
  refine ⟨hregistered, hgate.to rfl rfl id (fun _ h => h) fun _ h => h, hheld.to rfl rfl hheld.held, ?_⟩
  refine ⟨hcopied.listed, hcopied.taken, ?_, hcopied.agree, hcopied.delivered⟩
  intro q hq v hv
  have hne : q.1 ≠ p.1 := by
    intro heq
    simp [State.to, heq] at hv
  refine hcopied.kept q hq v ?_
  simpa [State.to, hne] using hv

lemma Inv.unregister (hphase : s.phase = .stopped) : Inv scope { s with registered := false } where
  registered _ := hphase
  gate := .of_open (by rw [hphase]; rfl) (by rw [hphase]; rfl)
  held := hi.held.to rfl rfl hi.held.held
  copied := hi.copied.to rfl rfl hi.copied.listed hi.copied.taken (fun _ h => h) fun _ h => h

end

end Driver

lemma inv_start (n : Nat) (store : K → Option V) : Inv scope (State.start n store) where
  registered := nofun
  gate := .of_open rfl rfl
  held := ⟨nofun, nofun⟩
  copied := .of_open rfl rfl rfl

lemma Inv.step [DecidableEq K] (hi : Inv scope s) {a : Action K V}
    (h : step scope s a = some s') : Inv scope s' := by
  cases a <;> simp only [Migration.step] at h
  case beginBatch =>
    split at h <;> try cases h
    split at h <;> cases h
    exact hi.beginBatch ‹_› ‹_›
  case beginTrees =>
    split at h <;> try cases h
    split at h <;> cases h
    exact hi.beginTrees ‹_› ‹_› _
  case hashAndStore =>
    split at h <;> cases h
    all_goals
      rename_i hphase
      exact hi.record (by rw [hphase]; rfl) rfl (by rw [hphase]; rfl) (by rw [hphase]; rfl)
        rfl rfl rfl rfl
  case setTransmitting =>
    split at h <;> cases h
    exact hi.setTransmitting ‹_›
  case startWait =>
    split at h <;> cases h
    · exact hi.drainWriters ‹_›
    · exact hi.drainReaders ‹_›
  case waited =>
    split at h <;> try cases h
    · split at h <;> cases h
      exact hi.writersDrained ‹_› ‹_›
    · split at h <;> cases h
      exact hi.readersDrained ‹_›
  case read =>
    split at h <;> try cases h
    split at h <;> cases h
    · exact hi.readSome ‹_› ‹_›
    · exact hi.readNone ‹_›
  case skip =>
    split at h <;> cases h
    exact hi.readNone ‹_›
  case acknowledged =>
    split at h <;> cases h
    exact hi.acknowledged ‹_›
  case setDeleting =>
    split at h <;> cases h
    exact hi.setDeleting ‹_›
  case keep | clear =>
    split at h <;> cases h
    rename_i hphase
    exact hi.clear _ (by rw [hphase]; rintro ⟨⟩) (.inl rfl)
  case delete =>
    split at h <;> cases h
    exact hi.delete ‹_›
  case deleteFailed =>
    split at h <;> cases h
    exact hi.deleteFailed ‹_›
  case resetStatus =>
    split at h <;> cases h
    rename_i hphase
    exact hi.clear _ (by rw [hphase]; rintro ⟨⟩) (.inr rfl)
  case stop =>
    cases h
    exact hi.stop
  case unregister =>
    split at h <;> cases h
    exact hi.unregister ‹_›
  case start =>
    split at h <;> cases h
    exact hi.enter ‹_›
  case probe =>
    split at h <;> try cases h
    have hprobe := hi.probe ‹_›
    split at h <;> cases h
    · rwa [if_pos ‹_›] at hprobe
    · rwa [if_neg ‹_›] at hprobe
  case readStatus =>
    split at h <;> try cases h
    have hstatus := hi.readStatus ‹_›
    split at h <;> cases h
    · rwa [if_pos ‹_›] at hstatus
    · rwa [if_neg ‹_›] at hstatus
  case proceed id =>
    split at h <;> cases h
    rename_i hr
    exact hi.setCommand hr rfl fun _ _ _ _ _ _ h => h
  case write id key value =>
    split at h <;> try cases h
    split at h <;> cases h
    rename_i hr hwrites
    exact hi.writeKey value hr hwrites.1 hwrites.2
  case finish id =>
    cases h
    exact hi.leave id

end Invariant

/-! ### No write is lost -/

/-- A key that is deleted at the source has the value the target has acknowledged last, and no
command writes a key whose value has been read and which is not deleted yet. -/
def LosesNoWrite [DecidableEq K] (scope : Scope K) (s : State K V) : Prop :=
  (∀ s' key value, step scope s .delete = some s' → s.store key = some value →
    s'.store key = none → s.target key = some value) ∧
  ∀ id key value s', step scope s (.write id key value) = some s' → ∀ p ∈ s.phase.values, p.1 ≠ key

theorem losesNoWrite_of_reachable [DecidableEq K] (scope : Scope K) (n : Nat) (store : K → Option V)
    {s : State K V} (h : Machine.Reachable (step scope) (State.start n store) s) :
    LosesNoWrite scope s := by
  have hi : Inv scope s := h.invariant (inv_start n store) fun hi _ hs => hi.step hs
  constructor
  · intro s' key value hs hvalue hgone
    simp only [step] at hs
    split at hs <;> cases hs
    rename_i k v sent hphase
    have hkey : key = k := by
      by_contra hne
      have hsame : s.store key = none := by simpa [State.to, hne] using hgone
      rw [hvalue] at hsame
      cases hsame
    subst hkey
    have hmem : ∀ p ∈ [(key, v)], p ∈ s.phase.values ∧ p ∈ s.phase.sent := by
      intro p hp
      rw [mem_singleton.1 hp, hphase]
      exact ⟨mem_cons_self, mem_cons_self⟩
    obtain ⟨hin, hsent⟩ := hmem _ mem_cons_self
    rw [hi.copied.kept _ hin value hvalue]
    exact hi.copied.delivered _ hsent
  · intro id key value s' hs p hp heq
    simp only [step] at hs
    split at hs <;> try cases hs
    split at hs <;> cases hs
    rename_i command hr hwrites
    have hfrom := Phase.heldFrom_of_values hp
    have hout := hi.not_mem_keys hfrom (Nat.zero_le id) hr hwrites.1 hwrites.2
    exact hout (heq ▸ hi.copied.taken p hp)

/-- One slot with all keys on one bit. -/
def crowded : Scope Nat := ⟨[7], fun _ => 7, fun _ => 0⟩

/-- A writer that was let through before the key was recorded finishes, and its value is what is sent;
a later one is turned away. -/
theorem losesNoWrite_crowded : ∃ s : State Nat Nat,
    Machine.Reachable (step crowded) (State.start 0 fun key => if key = 3 then some 1 else none) s ∧
      (s.store 3 = some 2 ∧ s.target 3 = some 2 ∧ (step crowded s .delete).isSome) ∧
      LosesNoWrite crowded s := by
  obtain ⟨s, hs, hdelete⟩ := Machine.exists_reachable_of_run (step crowded)
    (.start 0 fun key => if key = 3 then some 1 else none)
    [.start ⟨7, [3], false⟩, .probe 0, .beginBatch [3], .hashAndStore, .proceed 0, .startWait,
      .write 0 3 (some 2), .finish 0, .waited, .start ⟨7, [5], false⟩, .probe 1, .readStatus 1,
      .read, .acknowledged, .setDeleting, .startWait, .waited]
    (fun s => (s.store 3, s.target 3, (step crowded s .delete).isSome)) (some 2, some 2, true)
    (by decide +kernel)
  obtain ⟨hstore, hrest⟩ := Prod.mk.inj hdelete
  obtain ⟨htarget, hsome⟩ := Prod.mk.inj hrest
  exact ⟨s, hs, ⟨hstore, htarget, hsome⟩, losesNoWrite_of_reachable crowded 0 _ hs⟩

end Wedb.Migration
