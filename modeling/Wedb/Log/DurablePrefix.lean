import Wedb.Log.Durable

/-!
# The durable prefix in every careful run

`careful` names what the callers and the snapshots have to respect: appends run inside an epoch, a
flush does not begin on a page above the prefix, a round that gets the gate still has bytes to
write, and a recovered tail without resident window begins a sector.
-/

namespace Wedb.Log

variable {n : Nat} {c : Config} {ev : Nat} {s s' : State n} {t : Fin n}

/-- A snapshot that `recover` can take without losing durable bytes. -/
def SafeSnapshot (c : Config) (a : AddressSnapshot) : Prop :=
  a.flushedUntil ≤ a.safeReadOnly ∧ (a.head < a.tail ∨ c.sectorSize ∣ a.tail ∨ a.begin = a.tail)

instance (c : Config) (a : AddressSnapshot) : Decidable (SafeSnapshot c a) :=
  inferInstanceAs (Decidable (_ ∧ _))

/-- The bound that a round has sealed lies above the prefix, or nothing of its range is left. -/
def sealedAhead (s : State n) : Task → Bool
  | .awaitGate merged sealedUntil =>
    (merged.clamp s.flushedUntil).isEmpty || s.flushedUntil < sealedUntil
  | _ => true

/-- The conditions on a step, in the state before it. -/
def careful (c : Config) (s : State n) : Action n → Bool
  | .load t _ => (s.epochs.announced t).isSome
  | .flush _ fromAddr _ => c.pageStart (c.pageId fromAddr) ≤ s.flushedUntil
  | .lockGate t => sealedAhead s (s.task t)
  | .recover a => SafeSnapshot c a
  | _ => true

variable {a : Action n}

lemma appendsInside_of_careful (h : careful c s a) : appendsInside s a := by
  cases a with
  | load => exact h
  | _ => rfl

/-! ## Flush rounds up to the device write -/

lemma Durable.flush_roundOk {fromAddr : Nat} (untilAddr : Nat)
    (hfrom : c.pageStart (c.pageId fromAddr) ≤ s.flushedUntil) :
    ∃ pending ro k, s.flush c t fromAddr untilAddr = s ∨
      s.flush c t fromAddr untilAddr = { s with pending } ∨
      s.flush c t fromAddr untilAddr = { s with pending, readOnly := ro }.become t k ∧
        RoundOk c s k := by
  have hmerged : ((coalesce s.pending ⟨c.pageStart (c.pageId fromAddr),
      c.pageStart (c.pageId (untilAddr - 1) + 1)⟩ s.flushedUntil).1.clamp
        s.flushedUntil).fromAddress ≤ s.flushedUntil :=
    PageFlushRange.clamp_fromAddress_le ((absorb_fromAddress_le _ _ _).trans hfrom)
  simp only [State.flush, State.shiftReadOnly]
  split_ifs
  · exact ⟨[], 0, .idle, .inl rfl⟩
  · exact ⟨_, 0, .idle, .inr (.inl rfl)⟩
  all_goals exact ⟨_, _, _, .inr (.inr ⟨rfl, hmerged⟩)⟩

lemma Durable.lockGate_roundOk {merged : PageFlushRange} {u : Nat} (h : Durable c s)
    (ht : s.task t = .awaitGate merged u) (ha : sealedAhead s (s.task t)) :
    ∃ gate k, s.lockGate c t merged u = { s with gate }.become t k ∧ RoundOk c s k := by
  have hfrom := h.rounds t
  rw [ht] at hfrom ha
  simp only [State.lockGate]
  by_cases he : (merged.clamp s.flushedUntil).isEmpty
  · rw [if_pos he]
    exact ⟨s.gate, .idle, rfl, trivial⟩
  · rw [if_neg he]
    have hclamp : (merged.clamp s.flushedUntil).fromAddress = s.flushedUntil :=
      PageFlushRange.clamp_fromAddress (Bool.eq_false_iff.mpr he) hfrom
    have hlt : s.flushedUntil < u := by
      simp only [sealedAhead, Bool.or_eq_true, decide_eq_true_eq] at ha
      exact ha.resolve_left he
    rw [hclamp, if_neg (by have := c.alignDown_le (x := s.flushedUntil); omega)]
    refine ⟨some t, _, rfl, rfl, hlt, fun x _ hx hp => ?_⟩
    exact absurd (Config.pageStart_pageId_le_alignDown.trans hx) (not_le_of_gt hp)

lemma Durable.copyPage_roundOk {job : FlushJob} {p : Nat} {buf : Nat → UInt8} (h : Durable c s)
    (hinv : Inv c ev s) (ht : s.task t = .copying job p buf) :
    ∃ k, s.copyPage c t job p buf = s.become t k ∧ RoundOk c s k := by
  obtain ⟨-, hu⟩ := hinv.task ht
  have hround := h.rounds t
  rw [ht] at hround
  obtain ⟨hfrom, hlt, hbuf⟩ := hround
  refine ⟨_, rfl, ?_⟩
  by_cases hend : c.pageId (job.range.untilAddress - 1) < p
  · rw [if_pos hend]
    refine ⟨hfrom, hlt, fun x hx ha hxu => hbuf x hx ha ?_ hxu⟩
    have hpage : c.pageId x ≤ c.pageId (job.range.untilAddress - 1) := Config.pageId_mono (by omega)
    exact Config.lt_pageStart_iff.mpr (by omega)
  · rw [if_neg hend]
    by_cases hl : s.frames.IsPageLoaded c p
    · rw [if_neg (not_not_intro hl)]
      refine ⟨hfrom, hlt, fun x hx ha hp hxu => ?_⟩
      show (if _ then s.frames.byteAt c x else buf x) = s.content x
      split_ifs with hmem
      · have hpage : c.pageId x = p := Config.pageId_eq_of_bounds (by omega) hp
        exact h.memory x hx ha (hinv.complete_of_lt (hxu.trans_le hu)) (hpage ▸ hl)
      · exact hbuf x hx ha (by rw [hfrom] at hmem; omega) hxu
    · rw [if_pos hl]
      exact ⟨hfrom, hlt, fun hf => absurd hf Bool.false_ne_true⟩

lemma roundOk_registered {b : Border} {next : Next} (hk : RoundOk c s (.registering b next)) :
    ∃ k, s.registered t b next = (s.register t b).become t k ∧ RoundOk c s k := by
  cases next with
  | done => exact ⟨_, rfl, trivial⟩
  | «seal» => exact ⟨_, rfl, hk⟩
  | begin => exact ⟨_, rfl, trivial⟩

/-! ## Steps that are no flush round -/

lemma State.probe_eq (s : State n) (t : Fin n) (size tail : Nat) :
    ∃ ro hd ep k, s.probe c t size tail =
      { s with readOnly := ro, head := hd, epochs := ep }.become t k ∧ RoundOk c s k := by
  obtain ⟨ro, hd, ep, heq, -⟩ := s.ensurePageReady_eq t (c.pageId tail + 1)
  rw [probe]
  by_cases hl : s.frames.IsPageLoaded c (c.pageId tail)
  · rw [if_neg (not_not_intro hl)]
    by_cases hf : c.pageOffset tail + size ≤ c.pageSize
    · rw [if_pos hf]
      exact ⟨s.readOnly, s.head, s.epochs, _, rfl, trivial⟩
    · rw [if_neg hf]
      generalize s.ensurePageReady c t (c.pageId tail + 1) = r at heq
      obtain ⟨s₁, _ | _⟩ := r <;> exact ⟨ro, hd, ep, _, congrArg (become · t _) heq, trivial⟩
  · rw [if_pos hl]
    exact ⟨s.readOnly, s.head, s.epochs, _, rfl, trivial⟩

lemma State.lockPage_eq (s : State n) (t : Fin n) (size tail : Nat) :
    ∃ ro hd ep lock frames k, s.lockPage c t size tail =
      { s with readOnly := ro, head := hd, epochs := ep, turnLock := lock, frames }.become t k ∧
        RoundOk c s k := by
  obtain ⟨ro, hd, ep, heq, -⟩ := s.ensurePageReady_eq t (c.pageId tail)
  rw [lockPage]
  by_cases hl : s.frames.IsPageLoaded c (c.pageId tail)
  · rw [if_pos hl]
    exact ⟨s.readOnly, s.head, s.epochs, s.turnLock, s.frames, _, rfl, trivial⟩
  · rw [if_neg hl]
    generalize s.ensurePageReady c t (c.pageId tail) = r at heq
    obtain ⟨s₁, _ | _⟩ := r
    · subst heq
      exact ⟨ro, hd, ep, s.turnLock, s.frames, _, rfl, trivial⟩
    · subst heq
      exact ⟨ro, hd, ep, some t, _, _, rfl, trivial⟩

/-- A quiet step of thread `t` that is not a restart. -/
lemma Durable.quiet_become {k₀ k : Task} (h : Durable c s) (hinv : Inv c ev s)
    (hs : step c s a = some s') (hlive : a.isLive) (ht : s.task t = k₀)
    (htask : s'.task = Function.update s.task t k) (hk : RoundOk c s k)
    (hk₀ : k₀.Settled c := by exact fun _ hx => hx)
    (hb : s'.begin = s.begin := by rfl) (hf : s'.flushedUntil = s.flushedUntil := by rfl)
    (hd : s'.device = s.device := by rfl) (hc : s'.content = s.content := by rfl)
    (hco : s'.completed = s.completed := by rfl) (htail : s'.tail = s.tail := by rfl) :
    Durable c s' ∧ Extends s s' :=
  h.quiet hinv hs hlive
    ⟨hb, hf, hd, hc, hco, fun _ => complete_of_become htail htask (settled_of ht hk₀)⟩
    (round_of_become htask hk)

lemma Durable.recovered {a : AddressSnapshot} {device : Nat → UInt8}
    (ha : State.Recoverable c a) (hs : SafeSnapshot c a) :
    Durable c (State.recovered (n := n) c device a) where
  completed := rfl
  onDevice := fun x _ hx => (if_pos hx).symm
  memory := by
    intro x hb hd hx hl
    have hb : a.begin ≤ x := hb
    have hd : c.alignDown a.flushedUntil ≤ x := hd
    obtain ⟨-, -, -, hbytes⟩ := label_recoveredFrames hl
    have hpage := c.pageStart_pageId_add (x := x)
    show (State.recoveredFrames c device a _).bytes _ = if x < a.flushedUntil then device x else 0
    rw [hbytes, hpage]
    by_cases hwin : a.head < a.tail
    · simp only [hwin, true_and]
    · -- without a resident window the prefix ends at the tail, where a sector or the log begins
      rw [if_neg (fun h => hwin h.1), if_neg]
      intro hlt
      have hv := ha.1
      simp only [AddressSnapshot.validate, Bool.and_eq_true, decide_eq_true_eq] at hv
      have heq : a.flushedUntil = a.tail := by omega
      rcases hs.2 with h | h | h
      · exact hwin h
      · rw [heq, Config.alignDown_eq_self h] at hd
        omega
      · omega
  rounds := fun _ => trivial

lemma Extends.refl : Extends s s := ⟨le_rfl, le_rfl, fun _ _ _ => rfl, fun _ _ _ => rfl⟩

/-- Every careful step of a running log keeps the prefix durable and extends it. -/
lemma Durable.step (h : Durable c s) (hinv : Inv c ev s)
    (hs : Log.step c s a = some s') (hlive : a.isLive) (ha : careful c s a) :
    Durable c s' ∧ Extends s s' := by
  cases fires_of_step hs with
  | enter | exit | bump =>
    exact h.quiet hinv hs rfl ⟨rfl, rfl, rfl, rfl, rfl, fun _ hx => hx⟩ fun _ => .inl rfl
  | @drain i e b hm hr =>
    cases b <;>
    exact h.quiet hinv hs rfl ⟨rfl, rfl, rfl, rfl, rfl, fun _ hx => hx⟩ fun _ => .inl rfl
  | load ht | reload ht | clearPage ht | checkHead ht | finishRead ht =>
    exact h.quiet_become hinv hs rfl ht rfl trivial
  | @probe t size tail ht =>
    obtain ⟨ro, hd, ep, k, heq, hk⟩ := s.probe_eq t size tail
    rw [heq] at hs ⊢
    exact h.quiet_become hinv hs rfl ht rfl hk
  | @lockPage t size tail ht hl =>
    obtain ⟨ro, hd, ep, lock, frames, k, heq, hk⟩ := s.lockPage_eq t size tail
    rw [heq] at hs ⊢
    exact h.quiet_become hinv hs rfl ht rfl hk
  | casTail ht | casTurn ht =>
    simp only [State.casTail, State.casTurn] at hs ⊢
    split_ifs at hs ⊢ with hmask heq
    · exact h.quiet_become hinv hs rfl ht rfl trivial
    · refine h.quiet hinv hs rfl ⟨rfl, rfl, rfl, rfl, rfl, fun x => ?_⟩ (round_of_become rfl trivial)
      apply complete_of_reserve rfl (settled_of ht fun _ hx => hx)
      intro x hge hlt
      exact ⟨heq ▸ hge, hlt⟩
    · exact h.quiet_become hinv hs rfl ht rfl trivial
  | preclear ht | lockTurn ht hl | shiftReadOnly ht hv | shiftHead ht =>
    simp only [State.preclearNext, State.lockTurn, State.shiftReadOnly, State.shiftHead] at hs ⊢
    split_ifs at hs ⊢ <;> exact h.quiet_become hinv hs rfl ht rfl trivial
  | writePad ht => exact h.writePad hinv ht
  | encode ht => exact h.encode hinv ht
  | checkFrame ht =>
    split_ifs at hs ⊢ <;> exact h.quiet_become hinv hs rfl ht rfl trivial
  | @register t b next ht =>
    have hround := h.rounds t
    rw [ht] at hround
    obtain ⟨k, heq, hk⟩ := roundOk_registered hround
    rw [heq] at hs ⊢
    exact h.quiet_become hinv hs rfl ht rfl hk
  | shiftBegin ht =>
    simp only [State.shiftBegin, State.shiftHead] at hs ⊢
    split_ifs at hs ⊢
    · exact ⟨h, .refl⟩
    · exact h.quiet_become hinv hs rfl ht rfl trivial
    · exact h.quiet_become hinv hs rfl ht rfl trivial
  | moveBegin ht => exact h.moveBegin ht
  | truncate ht => exact h.truncate hinv ht
  | @flush t fromAddr untilAddr ht =>
    have hfrom : c.pageStart (c.pageId fromAddr) ≤ s.flushedUntil := of_decide_eq_true ha
    obtain ⟨pending, ro, k, heq | heq | ⟨heq, hk⟩⟩ := flush_roundOk untilAddr hfrom
    · rw [heq]
      exact ⟨h, .refl⟩
    · rw [heq] at hs ⊢
      exact h.quiet hinv hs rfl ⟨rfl, rfl, rfl, rfl, rfl, fun _ hx => hx⟩ fun _ => .inl rfl
    · rw [heq] at hs ⊢
      exact h.quiet_become hinv hs rfl ht rfl hk
  | @awaitSealed t merged u ht hu =>
    have hround := h.rounds t
    rw [ht] at hround
    exact h.quiet_become hinv hs rfl ht rfl hround
  | lockGate ht =>
    obtain ⟨gate, k, heq, hk⟩ := h.lockGate_roundOk ht ha
    rw [heq] at hs ⊢
    exact h.quiet_become hinv hs rfl ht rfl hk
  | copyPage ht =>
    obtain ⟨k, heq, hk⟩ := h.copyPage_roundOk hinv ht
    rw [heq] at hs ⊢
    exact h.quiet_become hinv hs rfl ht rfl hk
  | writeDevice ht _ hok => exact h.writeDevice hinv ht hok
  | finishFlush ht => exact h.finishFlush hinv ht
  | recover => cases hlive

/-! ## Every careful run -/

/-- The durable prefix in a state: its bytes are on the device, it is sealed, and every device write
under way extends it up to a larger sealed bound. -/
structure PrefixDurable (s : State n) : Prop where
  bytes : ∀ x, s.begin ≤ x → x < s.flushedUntil → s.device x = s.content x
  flushed_le : s.flushedUntil ≤ s.safeReadOnly
  writes : ∀ t job buf, s.task t = .writing job buf → job.range.fromAddress = s.flushedUntil ∧
    s.flushedUntil < job.range.untilAddress ∧ job.range.untilAddress ≤ s.safeReadOnly

/-- What a step does to the durable prefix: its device bytes stay, the records in it stay, and
unless the log is recovered it does not get shorter. -/
structure PrefixKept (s : State n) (a : Action n) (s' : State n) : Prop where
  device_eq : ∀ x, s.begin ≤ x → x < s.flushedUntil → s'.device x = s.device x
  content_eq : ∀ x, s.begin ≤ x → x < s.flushedUntil → s'.begin ≤ x → x < s'.flushedUntil →
    s'.content x = s.content x
  flushed_le : a.isLive → s.flushedUntil ≤ s'.flushedUntil

lemma Durable.new (initial : Nat) : Durable c (State.new (n := n) c initial) where
  completed := rfl
  onDevice := fun x h₁ h₂ => absurd h₁ (Nat.not_le_of_gt h₂)
  memory := by
    intro x h₁ _ hx _
    exact absurd h₁ (not_le_of_gt hx.1)
  rounds := fun _ => trivial

lemma Durable.prefixDurable (h : Durable c s) (hinv : Inv c ev s) : PrefixDurable s where
  bytes := h.onDevice
  flushed_le := hinv.ordered.flushed_le
  writes := by
    intro t job buf ht
    have hround := h.rounds t
    rw [ht] at hround
    exact ⟨hround.1, hround.1 ▸ hround.2.1, (hinv.task ht).2⟩

lemma Extends.prefixKept (h : Extends s s') : PrefixKept s a s' where
  device_eq := h.device_eq
  content_eq := fun x h₁ h₂ _ _ => h.content_eq x h₁ h₂
  flushed_le := fun _ => h.flushed_le

/-- One careful step, recoveries included. -/
lemma Durable.careful_step (h : Durable c s) (hinv : Inv c ev s)
    (hs : Log.step c s a = some s') (ha : careful c s a) :
    (∃ ev', Inv c ev' s') ∧ Durable c s' ∧ PrefixKept s a s' := by
  by_cases hlive : a.isLive
  · obtain ⟨ev', -, hev'⟩ := hinv.step hs hlive (appendsInside_of_careful ha)
    obtain ⟨hdurable, hextends⟩ := h.step hinv hs hlive ha
    exact ⟨⟨ev', hev'⟩, hdurable, hextends.prefixKept⟩
  · cases fires_of_step hs with
    | @recover snapshot hre =>
      have hsafe : SafeSnapshot c snapshot := of_decide_eq_true ha
      refine ⟨⟨_, .recovered hre (.of_validate hre.1 hsafe.1)⟩, .recovered hre hsafe,
        fun _ _ _ => rfl, fun x h₁ h₂ _ hx => ?_, fun hl => absurd hl hlive⟩
      have hx : x < snapshot.flushedUntil := hx
      show (if x < snapshot.flushedUntil then s.device x else 0) = s.content x
      rw [if_pos hx]
      exact h.onDevice x h₁ h₂
    | _ => exact absurd rfl hlive

/-- In every run whose steps are all careful the prefix is durable, and so it is after one more
careful step, which keeps it. -/
theorem prefixDurable_of_careful (c : Config) (initial : Nat) {s : State n}
    (h : Machine.Reaches (step c) (fun s a => careful c s a) (State.new c initial) s) :
    PrefixDurable s ∧ ∀ a s', careful c s a → step c s a = some s' → PrefixKept s a s' := by
  have hinv : (∃ ev, Inv c ev s) ∧ Durable c s := by
    apply h.invariant ⟨⟨initial, .new c initial⟩, .new initial⟩
    intro s s' a hs ha hstep
    obtain ⟨⟨ev, hev⟩, hdurable⟩ := hs
    obtain ⟨hev', hdurable', -⟩ := hdurable.careful_step hev hstep ha
    exact ⟨hev', hdurable'⟩
  obtain ⟨⟨ev, hev⟩, hdurable⟩ := hinv
  refine ⟨hdurable.prefixDurable hev, fun a s' ha hstep => ?_⟩
  exact (hdurable.careful_step hev hstep ha).2.2

/-! ## A tail page without its durable bytes -/

/-- Inside an epoch, thread 0 appends a record of 24 bytes at `addr` on a page that has its frame
and flushes up to its end. -/
def appendAndFlush (addr : Nat) : List (Action 1) :=
  let t := Fin.last 0
  [.enter t, .load t 24, .probe t, .casTail t, .encode t fun _ => 7, .exit t,
    .flush t addr (addr + 24), .register t, .drain t, .awaitSealed t, .lockGate t, .copyPage t,
    .copyPage t, .writeDevice t (addr + 24) true, .finishFlush t]

/-- A log of one durable record with the resident window `[head, 24)`. -/
def oneRecord (head : Nat) : AddressSnapshot where
  tail := 24
  readOnly := 24
  safeReadOnly := 24
  head
  safeHead := head
  begin := 0
  flushedUntil := 24

/-- One record before the recovery, one after it. -/
def recoverAndAppend (head : Nat) : List (Action 1) :=
  appendAndFlush 0 ++ [.recover (oneRecord head)] ++ appendAndFlush 24

/-- The prefix and the first byte on the device and in the log. -/
def firstByte (s : State 1) : Nat × Nat × UInt8 × UInt8 :=
  (s.begin, s.flushedUntil, s.device 0, s.content 0)

/-- Recovered without a resident window, the flush of the second record writes the zeros of the
cleared tail page over the first one. -/
theorem exists_durable_byte_zeroed :
    ¬ ∀ s : State 1, Machine.Reachable (step twoFrames) (State.new twoFrames 0) s →
      PrefixDurable s := by
  intro h
  obtain ⟨s, hs, hbyte⟩ := Machine.exists_reachable_of_run (step twoFrames) (.new twoFrames 0)
    (recoverAndAppend 24) firstByte (0, 48, 0, 7) (by decide +kernel)
  simp only [firstByte, Prod.mk.injEq] at hbyte
  obtain ⟨hbegin, hflushed, hdevice, hcontent⟩ := hbyte
  have hsame := (h s hs).bytes 0 (by omega) (by omega)
  rw [hdevice, hcontent] at hsame
  exact absurd hsame (by decide)

/-- The theorem on the same run with the page of the first record in the resident window. -/
theorem prefixDurable_recovered_run :
    ∃ s : State 1, Machine.Reaches (step twoFrames) (fun s a => careful twoFrames s a)
        (State.new twoFrames 0) s ∧ firstByte s = (0, 48, 7, 7) ∧ PrefixDurable s := by
  obtain ⟨s, hs, hbyte⟩ := Machine.exists_reaches_of_run (step twoFrames)
    (fun s a => careful twoFrames s a) (.new twoFrames 0) (recoverAndAppend 0) firstByte
    (0, 48, 7, 7) (by decide +kernel)
  exact ⟨s, hs, hbyte, (prefixDurable_of_careful twoFrames 0 hs).1⟩

end Wedb.Log
