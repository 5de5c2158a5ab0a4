import Wedb.Lib.Machine
import Wedb.Txn.LockPlan

/-!
# WATCH and EXEC

A session notes the version of each key it watches (`TxnWatchedKeysContainer::add_watch`). EXEC
(`TransactionManager::run_exec`) takes the bucket latches of the watched and the queued keys,
compares the versions and only then begins its commands. Writers hold the bucket latch of their key
while they write and raise its version.
-/

namespace Wedb.Txn

open Function

structure Config (K : Type) where
  /-- `scoped_key_hash` under the logical prefix of the session: the version slot. -/
  versionHash : K → UInt64
  /-- `scoped_key_hash` under its physical prefix: the bucket. -/
  lockHash : K → Int64
  sizeMask : UInt64
  indexMask : UInt64

structure WatchedKeySlice (K : Type) where
  key : K
  hash : UInt64
  version : Nat
deriving DecidableEq

/-- The latch of a bucket. -/
structure Latch where
  readers : Nat := 0
  writer : Bool := false

inductive Writer (K : Type) where
  | idle
  | latched (key : K)
  | written (key : K)
  | done (key : K)

def Writer.key {K : Type} : Writer K → Option K
  | idle => none
  | latched key | written key | done key => some key

/-- Where EXEC is: rolling back the latches it has, or releasing all of them at its end. -/
inductive Phase (K : Type) where
  | idle
  | locking (todo : List LockPlanSlot)
  | undoing
  | contended
  | validating (todo : List (WatchedKeySlice K))
  | running
  | releasing

structure State (K W : Type) where
  /-- `WatchVersionMap`. -/
  versions : UInt64 → Nat := fun _ => 0
  latches : Nat → Latch := fun _ => {}
  writers : W → Writer K := fun _ => .idle
  watched : List (WatchedKeySlice K) := []
  queued : List (K × Bool) := []
  plan : List LockPlanSlot := []
  /-- The last one taken comes first. -/
  held : List LockPlanSlot := []
  phase : Phase K := .idle
  /-- The keys the session has asked to watch, and those others have written since. -/
  asked : List K := []
  dirty : K → Bool := fun _ => false

inductive Action (K W : Type) where
  | latch (w : W) (key : K)
  | write (w : W)
  | bump (w : W)
  | release (w : W)
  | watch (key : K)
  | queue (key : K) (exclusive : Bool)
  | reset
  | exec
  | lock
  | lockFails
  | unlock
  | validate
  | startFails
  | command (key : K)
  | commit

section Steps

variable {K W : Type} [DecidableEq K] [DecidableEq W] (c : Config K)

namespace Config

def slot (hash : UInt64) : UInt64 := hash &&& c.sizeMask

def bucket (key : K) : Nat := bucketIndexForHash c.indexMask (c.lockHash key)

/-- `register_run_preamble`: the watched keys shared, then the queued ones. -/
def entries (s : State K W) : List TxnKeyEntry :=
  s.watched.map (fun x => ⟨c.lockHash x.key, false⟩) ++ s.queued.map fun x => ⟨c.lockHash x.1, x.2⟩

end Config

namespace State

def setWriter (s : State K W) (w : W) (writer : Writer K) : State K W :=
  { s with writers := update s.writers w writer }

def setLatch (s : State K W) (bucket : Nat) (latch : Latch) : State K W :=
  { s with latches := update s.latches bucket latch }

/-- `increment_version`. -/
def incrementVersion (s : State K W) (key : K) : State K W :=
  let slot := c.slot (c.versionHash key)
  { s with versions := update s.versions slot (s.versions slot + 1) }

def addWatch (s : State K W) (key : K) : State K W :=
  let hash := c.versionHash key
  { s with watched :=
      if s.watched.any fun x => x.hash = hash ∧ x.key = key then s.watched
      else s.watched ++ [⟨key, hash, s.versions (c.slot hash)⟩] }

/-- `try_lock_exclusive` or `try_lock_shared`. -/
def tryLock (s : State K W) (slot : LockPlanSlot) : Option (State K W) :=
  let latch := s.latches slot.bucket
  if latch.writer ∨ slot.exclusive ∧ latch.readers ≠ 0 then none
  else if slot.exclusive then some (s.setLatch slot.bucket { latch with writer := true })
  else some (s.setLatch slot.bucket { latch with readers := latch.readers + 1 })

def unlock (s : State K W) (slot : LockPlanSlot) : State K W :=
  let latch := s.latches slot.bucket
  if slot.exclusive then s.setLatch slot.bucket { latch with writer := false }
  else s.setLatch slot.bucket { latch with readers := latch.readers - 1 }

/-- The container is emptied, and the latches are to be released. -/
def finish (s : State K W) : State K W :=
  { s with watched := [], queued := [], asked := [], phase := .releasing }

end State

open State in
def Action.step (s : State K W) : Action K W → Option (State K W)
  | latch w key =>
    match s.writers w with
    | .idle => (s.tryLock ⟨c.bucket key, true⟩).map (·.setWriter w (.latched key))
    | _ => none
  | write w =>
    match s.writers w with
    | .latched key =>
      some { s.setWriter w (.written key) with dirty := update s.dirty key true }
    | _ => none
  | bump w =>
    match s.writers w with
    | .written key => some ((s.incrementVersion c key).setWriter w (.done key))
    | _ => none
  | release w =>
    match s.writers w with
    | .done key => some ((s.unlock ⟨c.bucket key, true⟩).setWriter w .idle)
    | _ => none
  | watch key =>
    match s.phase with
    | .idle =>
      some { s.addWatch c key with
        asked := key :: s.asked
        dirty := if key ∈ s.asked then s.dirty else update s.dirty key false }
    | _ => none
  | queue key exclusive =>
    match s.phase with
    | .idle => some { s with queued := s.queued ++ [(key, exclusive)] }
    | _ => none
  | reset =>
    match s.phase with
    | .idle | .contended => some s.finish
    | _ => none
  | exec =>
    match s.phase with
    | .idle =>
      let plan := lockPlan c.indexMask (c.entries s)
      some { s with plan := plan, phase := .locking plan }
    | .contended => some { s with phase := .locking s.plan }
    | _ => none
  | lock =>
    match s.phase with
    | .locking (slot :: rest) =>
      (s.tryLock slot).map fun s => { s with held := slot :: s.held, phase := .locking rest }
    | .locking [] => some { s with phase := .validating s.watched }
    | _ => none
  | lockFails =>
    match s.phase with
    | .locking (_ :: _) => some { s with phase := .undoing }
    | _ => none
  | unlock =>
    match s.phase, s.held with
    | .undoing, slot :: held | .releasing, slot :: held => some { s.unlock slot with held := held }
    | .undoing, [] => some { s with phase := .contended }
    | .releasing, [] => some { s with phase := .idle }
    | _, _ => none
  | validate =>
    match s.phase with
    | .validating (x :: rest) =>
      if s.versions (c.slot x.hash) = x.version then some { s with phase := .validating rest }
      else some s.finish
    | .validating [] => some { s with phase := .running }
    | _ => none
  | startFails =>
    match s.phase with
    | .validating [] => some s.finish
    | _ => none
  | command key =>
    match s.phase with
    | .running => if ⟨c.bucket key, true⟩ ∈ s.held then some (s.incrementVersion c key) else none
    | _ => none
  | commit =>
    match s.phase with
    | .running => some s.finish
    | _ => none

end Steps

variable {K W : Type} [DecidableEq K] [DecidableEq W] {c : Config K} {s s' : State K W}

/-- EXEC has latched the bucket or is going to. -/
def State.Secured (s : State K W) (b : Nat) : Prop :=
  match s.phase with
  | .idle | .releasing => True
  | .locking todo => ∃ slot, (slot ∈ s.held ∨ slot ∈ todo) ∧ slot.bucket = b
  | .undoing | .contended => ∃ slot ∈ s.plan, slot.bucket = b
  | .validating _ | .running => ∃ slot ∈ s.held, slot.bucket = b

/-- A writer has written the key and has not raised its version. -/
def Unbumped (writers : W → Writer K) (key : K) : Prop := ∃ w, writers w = .written key

omit [DecidableEq K] in
lemma unbumped_self (writers : W → Writer K) (w : W) (key : K) :
    Unbumped (update writers w (.written key)) key :=
  ⟨w, update_self ..⟩

omit [DecidableEq K] in
lemma Unbumped.update {writers : W → Writer K} {w : W} {key : K} (h : Unbumped writers key)
    (hw : writers w ≠ .written key) (writer : Writer K) :
    Unbumped (update writers w writer) key := by
  obtain ⟨w', hw'⟩ := h
  refine ⟨w', ?_⟩
  rwa [update_of_ne]
  rintro rfl
  exact hw hw'

/-- Writers and the session keep out of each other's buckets. -/
structure LatchInv (c : Config K) (s : State K W) : Prop where
  writer (w : W) (key : K) : (s.writers w).key = some key → (s.latches (c.bucket key)).writer = true
  unique (w w' : W) (key key' : K) : (s.writers w).key = some key →
    (s.writers w').key = some key' → c.bucket key = c.bucket key' → w = w'
  apart (b : Nat) : (s.latches b).writer = true → (s.latches b).readers = 0
  shared (slot : LockPlanSlot) : slot ∈ s.held → slot.exclusive = false →
    (s.latches slot.bucket).readers ≠ 0
  exclusive (slot : LockPlanSlot) : slot ∈ s.held → slot.exclusive = true →
    (s.latches slot.bucket).writer = true ∧
      ∀ w key, (s.writers w).key = some key → c.bucket key ≠ slot.bucket
  plan : s.plan.Pairwise (·.bucket ≠ ·.bucket)
  held : s.held.Pairwise (·.bucket ≠ ·.bucket)
  todo (rest : List LockPlanSlot) : s.phase = .locking rest →
    rest.Pairwise (·.bucket ≠ ·.bucket) ∧ ∀ x ∈ rest, ∀ y ∈ s.held, x.bucket ≠ y.bucket
  empty : s.phase = .idle ∨ s.phase = .contended → s.held = []

omit [DecidableEq K] [DecidableEq W] in
lemma LatchInv.key_ne (hi : LatchInv c s) (slot : LockPlanSlot) (hheld : slot ∈ s.held) (key : K)
    (hbucket : slot.bucket = c.bucket key) (w : W) : (s.writers w).key ≠ some key := by
  intro hkey
  have hwriter := hi.writer w key hkey
  rcases hexclusive : slot.exclusive with _ | _
  · exact hi.shared slot hheld hexclusive (hbucket ▸ hi.apart _ hwriter)
  · exact (hi.exclusive slot hheld hexclusive).2 w key hkey hbucket.symm

omit [DecidableEq K] [DecidableEq W] in
lemma LatchInv.setLatch_lock (hi : LatchInv c s) {slot : LockPlanSlot} {rest : List LockPlanSlot}
    (hphase : s.phase = .locking (slot :: rest)) (h : s.tryLock slot = some s') :
    LatchInv c { s' with held := slot :: s'.held, phase := .locking rest } := by
  obtain ⟨hwriter, hunique, hapart, hshared, hexclusive, hplan, hheld, htodo, hempty⟩ := hi
  obtain ⟨hrest, hnew⟩ := htodo _ hphase
  have hrest := List.pairwise_cons.1 hrest
  have hheld := List.pairwise_cons.2 ⟨hnew slot List.mem_cons_self, hheld⟩
  simp only [State.tryLock] at h
  split_ifs at h with hfree <;> cases h
  all_goals
    constructor <;> simp only [State.setLatch] <;> grind -linarith [update_apply]

omit [DecidableEq K] [DecidableEq W] in
lemma LatchInv.unlock (hi : LatchInv c s) {slot : LockPlanSlot} {held : List LockPlanSlot}
    (hphase : s.phase = .undoing ∨ s.phase = .releasing) (h : s.held = slot :: held) :
    LatchInv c { s.unlock slot with held := held } := by
  obtain ⟨hwriter, hunique, hapart, hshared, hexclusive, hplan, hheld, htodo, hempty⟩ := hi
  rw [h] at hheld
  have hheld := List.pairwise_cons.1 hheld
  unfold State.unlock
  split_ifs
  all_goals
    constructor <;> simp only [State.setLatch] <;> grind -linarith [update_apply]

lemma LatchInv.step {a : Action K W} (hi : LatchInv c s) (h : a.step c s = some s') :
    LatchInv c s' := by
  cases a <;> simp only [Action.step, State.tryLock] at h
  case lock =>
    split at h
    · obtain ⟨t, ht, rfl⟩ := Option.map_eq_some_iff.1 h
      exact hi.setLatch_lock ‹_› ht
    · cases h
      cases hi
      constructor <;> grind -linarith
    · cases h
  case unlock =>
    split at h <;> cases h
    · exact hi.unlock (.inl ‹_›) ‹_›
    · exact hi.unlock (.inr ‹_›) ‹_›
    all_goals
      cases hi
      constructor <;> grind -linarith
  all_goals cases hi
  case latch =>
    split at h
    · split_ifs at h with hfree <;> cases h
      constructor <;> simp only [State.setWriter, State.setLatch] <;>
        grind -linarith [update_apply, Writer.key]
    · cases h
  case write w | bump w | release w =>
    split at h <;> cases h
    constructor <;> simp only [State.setWriter, State.incrementVersion, State.unlock,
      State.setLatch] <;> grind -linarith [update_apply, Writer.key]
  case exec =>
    have hnew := (pairwise_lockPlan c.indexMask (c.entries s)).imp Nat.ne_of_lt
    split at h <;> cases h <;> constructor <;> grind -linarith
  all_goals
    split at h <;> (try split_ifs at h) <;> cases h <;> constructor <;>
      simp only [State.finish, State.addWatch, State.incrementVersion] <;> grind -linarith

/-- A key that has been written since has a version above the one noted, or will have before its
bucket is free. -/
structure WatchInv (c : Config K) (s : State K W) : Prop where
  hash (x : WatchedKeySlice K) : x ∈ s.watched → x.hash = c.versionHash x.key
  asked (key : K) : key ∈ s.asked ↔ ∃ x ∈ s.watched, x.key = key
  seen (x : WatchedKeySlice K) : x ∈ s.watched → x.version ≤ s.versions (c.slot x.hash)
  stale (x : WatchedKeySlice K) : x ∈ s.watched → s.dirty x.key = true →
    x.version < s.versions (c.slot x.hash) ∨ Unbumped s.writers x.key
  secured (x : WatchedKeySlice K) : x ∈ s.watched → s.Secured (c.bucket x.key)
  planned (todo : List LockPlanSlot) : s.phase = .locking todo →
    ∀ slot, slot ∈ s.held ∨ slot ∈ todo → slot ∈ s.plan
  clean (todo : List (WatchedKeySlice K)) : s.phase = .validating todo →
    ∀ x ∈ s.watched, x ∉ todo → s.dirty x.key = false
  running : s.phase = .running → ∀ x ∈ s.watched, s.dirty x.key = false

lemma WatchInv.step {a : Action K W} (hl : LatchInv c s) (hi : WatchInv c s)
    (h : a.step c s = some s') : WatchInv c s' := by
  cases hi
  simp only [State.Secured] at *
  cases a <;> simp only [Action.step, State.tryLock] at h
  case latch =>
    split at h
    · split_ifs at h with hfree <;> cases h
      constructor <;> simp only [State.setWriter, State.setLatch, State.Secured] <;>
        grind -linarith [update_apply, Unbumped.update]
    · cases h
  case write =>
    have hout := hl.key_ne
    split at h <;> cases h
    constructor <;> simp only [State.setWriter, State.Secured] <;>
      grind -linarith [update_apply, Writer.key, Unbumped.update, unbumped_self]
  case bump w | release w =>
    split at h <;> cases h
    constructor <;> simp only [State.setWriter, State.incrementVersion, State.unlock,
      State.setLatch, State.Secured] <;> grind -linarith [update_apply, Unbumped.update]
  case watch =>
    have hmem : ∀ x : WatchedKeySlice K, x ∈ s.watched ++ [x] := by simp
    split at h <;> cases h
    constructor <;> simp only [State.addWatch, State.Secured] <;> grind -linarith [update_apply]
  case exec =>
    have hnew : ∀ x ∈ s.watched,
        ∃ slot ∈ lockPlan c.indexMask (c.entries s), slot.bucket = c.bucket x.key := by
      intro x hx
      obtain ⟨slot, hslot, hbucket, -⟩ := exists_covers_lockPlan c.indexMask
        (List.mem_append_left _ (List.mem_map_of_mem hx) : ⟨c.lockHash x.key, false⟩ ∈ c.entries s)
      exact ⟨slot, hslot, hbucket⟩
    have hempty := hl.empty
    split at h <;> cases h <;> constructor <;> simp only [State.Secured] <;> grind -linarith
  case lock =>
    split at h
    · split_ifs at h with hfree <;> cases h
      all_goals constructor <;> simp only [State.setLatch, State.Secured] <;> grind -linarith
    · cases h
      constructor <;> simp only [State.Secured] <;> grind -linarith
    · cases h
  case unlock =>
    split at h <;> cases h <;> (try unfold State.unlock) <;> (try split_ifs) <;> constructor <;>
      simp only [State.setLatch, State.Secured] <;> grind -linarith
  case validate =>
    have hout : ∀ slot ∈ s.held, ∀ key, slot.bucket = c.bucket key → ¬ Unbumped s.writers key := by
      rintro slot hheld key hbucket ⟨w, hw⟩
      exact hl.key_ne slot hheld key hbucket w (by rw [hw]; rfl)
    split at h <;> (try split_ifs at h) <;> cases h <;>
      constructor <;> simp only [State.finish, State.Secured] <;> grind -linarith
  all_goals
    split at h <;> (try split_ifs at h) <;> cases h <;> constructor <;>
      simp only [State.finish, State.incrementVersion, State.Secured] <;>
      grind -linarith [update_apply]

/-- While EXEC runs its commands, no key the session has watched has been written by another since
it was first watched. -/
theorem not_dirty_of_running (h : Machine.Reachable (Action.step c) {} s)
    (hrunning : s.phase = .running) : ∀ key ∈ s.asked, s.dirty key = false := by
  have hinit : LatchInv c ({} : State K W) ∧ WatchInv c ({} : State K W) := by
    constructor <;> constructor <;> simp [Writer.key]
  have hi := h.invariant (I := fun s => LatchInv c s ∧ WatchInv c s) hinit
    fun hi _ hs => ⟨hi.1.step hs, hi.2.step hi.1 hs⟩
  intro key hkey
  obtain ⟨x, hx, rfl⟩ := (hi.2.asked key).1 hkey
  exact hi.2.running hrunning x hx

/-- Keys are numbers, and all of them share one version. -/
def oneSlot : Config Nat := ⟨fun _ => 5, fun key => Int64.ofNat key, 3, 7⟩

/-- A write before the first WATCH does not count. -/
theorem not_dirty_of_running_afterWrite :
    ∃ s : State Nat Nat, Machine.Reachable (Action.step oneSlot) {} s ∧ s.phase = .running ∧
      s.asked = [2, 1, 2] ∧ ∀ key ∈ [2, 1, 2], s.dirty key = false := by
  obtain ⟨s, hs, hstate⟩ := Machine.exists_reachable_of_run (Action.step oneSlot)
    ({} : State Nat Nat)
    [.latch 0 2, .write 0, .bump 0, .release 0, .watch 2, .watch 1, .watch 2, .queue 1 true, .exec,
      .lock, .lock, .lock, .validate, .validate, .validate]
    (fun s => (s.asked, s.phase.ctorIdx)) ([2, 1, 2], 5) (by decide +kernel)
  obtain ⟨hasked, hphase⟩ := Prod.mk.inj hstate
  have hrunning : s.phase = .running := by
    cases hp : s.phase <;> rw [hp] at hphase <;> first | rfl | cases hphase
  exact ⟨s, hs, hrunning, hasked, hasked ▸ not_dirty_of_running hs hrunning⟩

end Wedb.Txn
