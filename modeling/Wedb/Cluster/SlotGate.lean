import Wedb.Cluster.Config
import Wedb.Cluster.ScanGate

/-!
# Slot gate of a session

Before a command runs, the session asks whether its keys may be served here
(`cluster_session::slot_verify`, `cluster_manager_slot_gate`). A command that has to wait leaves a memo
for the body that waits in its place, which notes there the keys it has found out about and whether its
time is up, and the command is evaluated again.
-/

namespace Wedb.Cluster

inductive SlotVerifiedState where
  | ok
  | clusterDown
  | moved
  | ask
  | tryAgain
deriving DecidableEq

structure SlotVerifySessionState where
  sessionAsking : Bool
  readOnlySession : Bool

/-- What a look into memory says of a key. -/
inductive Probe where
  | alive
  | gone
  /-- the disk has to be asked -/
  | undecided
  | fault
deriving DecidableEq

/-- What the gate reads outside the session. -/
structure GateEnv where
  config : ClusterConfig
  recovering : Bool
  scanGate : Option ScanKeyGate
  canAccessKey : Key → Slot → Bool → Bool
  probeKeyAlive : Key → Nat × Nat → Probe

structure SlotVerifyRequest where
  slot : Slot
  domain : Nat × Nat
  keys : List Key
  readOnly : Bool
  session : SlotVerifySessionState
  waitForStable : Bool

structure SlotWaitMemo where
  exhausted : Bool
  decided : List (Option Bool)
deriving DecidableEq

def SlotWaitMemo.new (keyCount : Nat) : SlotWaitMemo := ⟨false, List.replicate keyCount none⟩

def SlotWaitMemo.existsDecided (m : SlotWaitMemo) (idx : Nat) : Option Bool := m.decided[idx]?.join

def SlotWaitMemo.insertExists (m : SlotWaitMemo) (idx : Nat) (alive : Bool) : SlotWaitMemo :=
  { m with decided := m.decided.set idx (some alive) }

inductive GateVerdict where
  | serve
  | redirect (state : SlotVerifiedState)
  | wait (undecided : Option Nat)
deriving DecidableEq

open GateVerdict

def GateVerdict.isWait : GateVerdict → Bool
  | .wait _ => true
  | _ => false

inductive KeyOperable where
  | operable
  | notOperable
  | accessPending
  | existsPending

section Gate

variable (env : GateEnv) (req : SlotVerifyRequest) (memo : Option SlotWaitMemo)

/-- The time of the wait is up. -/
def force : Bool := memo.any SlotWaitMemo.exhausted

def replicaReads : Bool := req.readOnly && req.session.readOnlySession

def scanGateBlocks : Bool :=
  !req.readOnly && req.keys.any fun key => env.scanGate.any fun gate => gate.blocksWrite key req.slot

/-- The slot is on its way and the command wants it to rest. -/
def unstable : Bool :=
  req.waitForStable &&
    (env.config.getState req.slot = .importing || env.config.getState req.slot = .migrating)

/-- Only keys of a slot that moves away from here are looked at one by one. -/
def movingAway : Bool :=
  env.config.getState req.slot = .migrating && env.config.isLocal req.slot (replicaReads req)

def resolveCanOperate (key : Key) (idx : Nat) : KeyOperable :=
  if !env.canAccessKey key req.slot req.readOnly then
    if force memo then .notOperable else .accessPending
  else
    match env.probeKeyAlive key req.domain with
    | .alive => .operable
    | .gone | .fault => .notOperable
    | .undecided =>
      match memo.bind fun m => m.existsDecided idx with
      | some true => .operable
      | some false => .notOperable
      | none => if force memo then .notOperable else .existsPending

def verifySlotState (readOnly canOperate : Bool) : SlotVerifiedState :=
  let state := env.config.getState req.slot
  if env.config.isLocal req.slot (readOnly && req.session.readOnlySession) then
    if env.recovering then
      match env.config.localNodeRole with
      | .replica => .moved
      | .primary | .unassigned => .clusterDown
    else
      match state with
      | .stable => .ok
      | .migrating => if canOperate then .ok else .ask
      | _ => .clusterDown
  else
    match state with
    | .stable => .moved
    | .importing => if req.session.sessionAsking then .ok else .moved
    | _ => .clusterDown

def singleKeySlotVerify (canOperate : Bool) : SlotVerifiedState :=
  if req.readOnly then verifySlotState env req true canOperate
  else if env.config.localNodeRole = .replica then .moved
  else verifySlotState env req false canOperate

def finishSlotGate (canOperate : Bool) : GateVerdict :=
  match singleKeySlotVerify env req canOperate with
  | .ok => .serve
  | state => .redirect state

def evaluateSingleKey (key : Key) : GateVerdict :=
  if scanGateBlocks env req then if force memo then .redirect .tryAgain else .wait none
  else if unstable env req && !force memo then .wait none
  else if movingAway env req then
    match resolveCanOperate env req memo key 0 with
    | .operable => finishSlotGate env req true
    | .notOperable => finishSlotGate env req false
    | .accessPending => .wait none
    | .existsPending => .wait (some 0)
  else finishSlotGate env req true

/-- The loop over the keys. `none`: the command has to wait, for the key at the position if there is one. -/
def operability : List (Key × Nat) → Bool → Bool → Except (Option Nat) (Bool × Bool)
  | [], anyOperable, anyMovedAway => .ok (anyOperable, anyMovedAway)
  | (key, idx) :: rest, anyOperable, anyMovedAway =>
    match resolveCanOperate env req memo key idx with
    | .operable => operability rest true anyMovedAway
    | .notOperable => operability rest anyOperable true
    | .accessPending => .error none
    | .existsPending => .error (some idx)

def evaluateMultiKeyGate : GateVerdict :=
  match req.keys with
  | [key] => evaluateSingleKey env req memo key
  | keys =>
    if scanGateBlocks env req then if force memo then .redirect .tryAgain else .wait none
    else if unstable env req && !force memo then .wait none
    else if movingAway env req then
      match operability env req memo keys.zipIdx false false with
      | .error undecided => .wait undecided
      | .ok (anyOperable, anyMovedAway) =>
        if anyOperable && anyMovedAway then .redirect .tryAgain else finishSlotGate env req !anyMovedAway
    else finishSlotGate env req true

end Gate

/-- One turn of the body that waits: what it reads, whether its deadline has passed, and what it is told
of a key it asks about. -/
structure Turn where
  env : GateEnv
  expired : Bool
  alive : Bool

/-- The memo after a turn, and whether the body returns. -/
def waitTurn (req : SlotVerifyRequest) (memo : SlotWaitMemo) (turn : Turn) : SlotWaitMemo × Bool :=
  match evaluateMultiKeyGate turn.env req (some memo) with
  | .serve | .redirect _ => (memo, true)
  | .wait undecided =>
    if turn.expired then ({ memo with exhausted := true }, true)
    else
      match undecided with
      | some idx => (memo.insertExists idx turn.alive, false)
      | none => (memo, false)

/-- The memo the body leaves when it returns in the last of its turns. -/
def waitKeyGate (req : SlotVerifyRequest) : SlotWaitMemo → List Turn → Option SlotWaitMemo
  | _, [] => none
  | memo, turn :: turns =>
    match waitTurn req memo turn with
    | (memo', true) => if turns.isEmpty then some memo' else none
    | (memo', false) => waitKeyGate req memo' turns

structure ClusterSession where
  slotWaitMemo : Option SlotWaitMemo
deriving DecidableEq

def resetCachedSlotVerificationResult (_ : ClusterSession) : ClusterSession := ⟨none⟩

/-- The memo of a body that begins to wait. -/
def parkGateWait (req : SlotVerifyRequest) (memo : Option SlotWaitMemo) : SlotWaitMemo :=
  match memo with
  | some m => if m.decided.length = req.keys.length then m else .new req.keys.length
  | none => .new req.keys.length

def evaluateMultiKeySlotGate (session : ClusterSession) (env : GateEnv) (req : SlotVerifyRequest) :
    GateVerdict × ClusterSession :=
  let session := resetCachedSlotVerificationResult session
  if req.keys.isEmpty then (.serve, session)
  else
    let memo := session.slotWaitMemo
    match evaluateMultiKeyGate env req memo with
    | .wait undecided => (.wait undecided, ⟨some (parkGateWait req memo)⟩)
    | verdict => (verdict, ⟨none⟩)

/-- After a command had to wait and the body that waited for it has returned, it need not wait again
while nothing changes. -/
def HandsOver (env : GateEnv) (req : SlotVerifyRequest) : Prop :=
  ∀ (session parked : ClusterSession) (env₀ : GateEnv) (undecided : Option Nat) (memo memo' : SlotWaitMemo)
    (turns : List Turn) (last : Turn),
    evaluateMultiKeySlotGate session env₀ req = (.wait undecided, parked) →
    parked.slotWaitMemo = some memo → waitKeyGate req memo (turns ++ [last]) = some memo' →
    last.env = env → (evaluateMultiKeySlotGate ⟨some memo'⟩ env req).1.isWait = false

/-- A write of a key that is about to be scanned, a slot that has to rest, or a key of a slot that moves
away which cannot be accessed now or of which memory says nothing. -/
def Pending (env : GateEnv) (req : SlotVerifyRequest) : Prop :=
  req.keys ≠ [] ∧
    (scanGateBlocks env req = true ∨ unstable env req = true ∨
      movingAway env req = true ∧ ∃ key ∈ req.keys,
        env.canAccessKey key req.slot req.readOnly = false ∨ env.probeKeyAlive key req.domain = .undecided)

/-! ### Evaluation without a memo that says anything -/

section Blank

variable {env : GateEnv} {req : SlotVerifyRequest} {memo : Option SlotWaitMemo}

/-- The memo is not there, or nothing has been noted in it. -/
def Blank (memo : Option SlotWaitMemo) : Prop :=
  force memo = false ∧ ∀ idx, (memo.bind fun m => m.existsDecided idx) = none

lemma blank_none : Blank none := ⟨rfl, fun _ => rfl⟩

lemma blank_new (n : Nat) : Blank (some (.new n)) := by
  refine ⟨rfl, fun idx => ?_⟩
  simp only [Option.bind_some, SlotWaitMemo.existsDecided, SlotWaitMemo.new, List.getElem?_replicate]
  split <;> rfl

lemma finishSlotGate_isWait (env : GateEnv) (req : SlotVerifyRequest) (canOperate : Bool) :
    (finishSlotGate env req canOperate).isWait = false := by
  unfold finishSlotGate
  split <;> rfl

lemma resolveCanOperate_pending (env : GateEnv) (req : SlotVerifyRequest) (h : Blank memo)
    (key : Key) (idx : Nat) :
    (env.canAccessKey key req.slot req.readOnly = false ∨
        env.probeKeyAlive key req.domain = .undecided) ↔
      resolveCanOperate env req memo key idx = .accessPending ∨
        resolveCanOperate env req memo key idx = .existsPending := by
  obtain ⟨hforce, hnone⟩ := h
  unfold resolveCanOperate
  rw [hforce, hnone idx]
  cases env.canAccessKey key req.slot req.readOnly <;> cases env.probeKeyAlive key req.domain <;> simp

lemma operability_isError (env : GateEnv) (req : SlotVerifyRequest) (h : Blank memo)
    (keys : List (Key × Nat)) (anyOperable anyMovedAway : Bool) :
    (∃ undecided, operability env req memo keys anyOperable anyMovedAway = .error undecided) ↔
      ∃ key ∈ keys.map Prod.fst,
        env.canAccessKey key req.slot req.readOnly = false ∨ env.probeKeyAlive key req.domain = .undecided := by
  induction keys generalizing anyOperable anyMovedAway with
  | nil => simp [operability]
  | cons entry rest ih =>
    obtain ⟨key, idx⟩ := entry
    have hkey := resolveCanOperate_pending env req h key idx
    rw [operability, List.map_cons, List.exists_mem_cons_iff, hkey]
    cases resolveCanOperate env req memo key idx <;> simp [ih]

lemma evaluateSingleKey_isWait (h : Blank memo) {key : Key} (hkeys : req.keys = [key]) :
    (evaluateSingleKey env req memo key).isWait = true ↔ Pending env req := by
  have hkey := resolveCanOperate_pending env req h key 0
  have hfinish := finishSlotGate_isWait env req
  unfold evaluateSingleKey Pending
  rw [h.1, hkeys, List.exists_mem_cons_iff, hkey]
  cases scanGateBlocks env req
  case true => simp [isWait]
  cases unstable env req
  case true => simp [isWait]
  cases movingAway env req
  case false => simp [hfinish]
  cases resolveCanOperate env req memo key 0 with
  | operable | notOperable => simp [hfinish]
  | accessPending | existsPending => simp [isWait]

/-- Such an evaluation waits exactly if something is pending. -/
lemma evaluateMultiKeyGate_isWait (h : Blank memo) (hkeys : req.keys ≠ []) :
    (evaluateMultiKeyGate env req memo).isWait = true ↔ Pending env req := by
  unfold evaluateMultiKeyGate
  split
  · rename_i key hone
    exact evaluateSingleKey_isWait h hone
  have herror := operability_isError env req h req.keys.zipIdx false false
  have hfinish := finishSlotGate_isWait env req
  rw [List.zipIdx_map_fst] at herror
  rw [h.1, Pending, ← herror]
  cases scanGateBlocks env req
  case true => simp [isWait, hkeys]
  cases unstable env req
  case true => simp [isWait, hkeys]
  cases movingAway env req
  case false => simp [hfinish]
  cases operability env req memo req.keys.zipIdx false false with
  | error => simp [isWait, hkeys]
  | ok found =>
    obtain ⟨anyOperable, anyMovedAway⟩ := found
    by_cases hmixed : (anyOperable && anyMovedAway) = true
    · simp [hmixed, isWait]
    · simp [hmixed, hfinish]

end Blank

/-! ### The session's evaluation -/

variable {req : SlotVerifyRequest} {env : GateEnv}

lemma not_pending_of_keys_eq_nil (h : req.keys = []) : ¬ Pending env req :=
  fun hpending => hpending.1 h

/-- The memo the session has is dropped before it could be read. -/
lemma evaluateMultiKeySlotGate_isWait (session : ClusterSession) (env : GateEnv) (req : SlotVerifyRequest) :
    (evaluateMultiKeySlotGate session env req).1.isWait = true ↔ Pending env req := by
  unfold evaluateMultiKeySlotGate resetCachedSlotVerificationResult
  dsimp only
  split
  · rename_i hempty
    have hnone : ¬ Pending env req := not_pending_of_keys_eq_nil (List.isEmpty_iff.1 hempty)
    simp [isWait, hnone]
  · rename_i hne
    have hkeys : req.keys ≠ [] := fun h => hne (List.isEmpty_iff.2 h)
    rw [← evaluateMultiKeyGate_isWait blank_none hkeys]
    cases evaluateMultiKeyGate env req none <;> rfl

/-- A command that waits leaves a memo in which nothing has been noted. -/
lemma parked_of_pending (session : ClusterSession)
    (h : Pending env req) : ∃ undecided,
      evaluateMultiKeySlotGate session env req = (.wait undecided, ⟨some (.new req.keys.length)⟩) := by
  have hempty : req.keys.isEmpty = false := by simpa using h.1
  have hwait := (evaluateMultiKeyGate_isWait blank_none h.1).2 h
  unfold evaluateMultiKeySlotGate resetCachedSlotVerificationResult
  simp only [hempty]
  cases hv : evaluateMultiKeyGate env req none with
  | wait undecided => exact ⟨undecided, rfl⟩
  | serve | redirect state => rw [hv] at hwait; cases hwait

/-- The body that waits returns in its first turn when its time is up. -/
lemma waitKeyGate_expired (h : Pending env req) :
    waitKeyGate req (.new req.keys.length) [⟨env, true, false⟩] =
      some { SlotWaitMemo.new req.keys.length with exhausted := true } := by
  have hwait := (evaluateMultiKeyGate_isWait (blank_new req.keys.length) h.1).2 h
  unfold waitKeyGate waitTurn
  cases hv : evaluateMultiKeyGate env req (some (.new req.keys.length)) with
  | wait => rfl
  | serve | redirect state => rw [hv] at hwait; cases hwait

/-- What the body that waited has found out reaches the evaluation exactly if there is nothing the
evaluation would wait for anyway. -/
theorem handsOver_iff (env : GateEnv) (req : SlotVerifyRequest) :
    HandsOver env req ↔ ¬ Pending env req := by
  constructor
  · intro h hpending
    obtain ⟨undecided, hpark⟩ := parked_of_pending ⟨none⟩ hpending
    have hserved := h ⟨none⟩ _ env undecided _ _ [] ⟨env, true, false⟩ hpark rfl (waitKeyGate_expired hpending) rfl
    rw [(evaluateMultiKeySlotGate_isWait _ env req).2 hpending] at hserved
    cases hserved
  · intro h session parked env₀ undecided memo memo' turns last _ _ _ _
    cases hw : (evaluateMultiKeySlotGate ⟨some memo'⟩ env req).1.isWait
    · rfl
    · exact absurd ((evaluateMultiKeySlotGate_isWait _ env req).1 hw) h

/-- A primary all slots of which move away, and memory that knows of no key. -/
def leaving : GateEnv where
  config := {
    slotMap := fun _ => ⟨2, .migrating⟩
    workers := List.replicate 3 ⟨none, "", none, none, 0, 0, 0, .primary⟩
    hasLocal := by decide }
  recovering := false
  scanGate := none
  canAccessKey := fun _ _ _ => true
  probeKeyAlive := fun _ _ => .undecided

/-- The body that waits is told that the key is there and would serve it, and the session waits again. -/
theorem not_handsOver_leaving :
    ¬ HandsOver leaving ⟨⟨0, by decide⟩, (0, 0), [[97]], true, ⟨false, false⟩, false⟩ := by
  intro h
  have hserved := h ⟨none⟩ ⟨some (.new 1)⟩ leaving (some 0) (.new 1) ⟨false, [some true]⟩
    [⟨leaving, false, true⟩] ⟨leaving, false, true⟩ (by decide) rfl (by decide) rfl
  revert hserved
  decide

end Wedb.Cluster
