import Wedb.Log.FrameSafety

/-!
# The durable prefix

The device holds the final bytes of the log on `[begin, flushedUntil)`. A flush round rounds its
start down to a sector and so rewrites bytes of that prefix from the buffer; `memory` says that the
buffer still has them. The rounds themselves are tied to the prefix by `RoundOk`.
-/

namespace Wedb.Log

open Function

variable {n : Nat} {c : Config} {ev : Nat} {s s' : State n} {t : Fin n}

/-- What a flush round knows. Once it holds the gate its range begins at the durable prefix. -/
def RoundOk (c : Config) (s : State n) : Task → Prop
  | .registering _ (.seal merged _) | .sealing merged _ | .awaitGate merged _ =>
    merged.fromAddress ≤ s.flushedUntil
  | .copying job p buf =>
    job.range.fromAddress = s.flushedUntil ∧ s.flushedUntil < job.range.untilAddress ∧
      ∀ x, s.begin ≤ x → c.alignDown s.flushedUntil ≤ x → x < c.pageStart p →
        x < job.range.untilAddress → buf x = s.content x
  | .writing job buf =>
    job.range.fromAddress = s.flushedUntil ∧ s.flushedUntil < job.range.untilAddress ∧
      ∀ x, s.begin ≤ x → c.alignDown s.flushedUntil ≤ x → x < job.range.untilAddress →
        buf x = s.content x
  | .finishing job written =>
    job.range.fromAddress = s.flushedUntil ∧ s.flushedUntil < job.range.untilAddress ∧
      (written = true → ∀ x, s.begin ≤ x → s.flushedUntil ≤ x → x < job.range.untilAddress →
        s.device x = s.content x)
  | _ => True

/-- The end of the range that a round under the gate writes. -/
def Task.roundEnd : Task → Nat
  | .copying job _ _ | .writing job _ | .finishing job _ => job.range.untilAddress
  | _ => 0

variable {k : Task}

/-- A round keeps what it knows while the prefix stands and neither its bytes nor those on the
device change. -/
lemma RoundOk.keep (h : RoundOk c s k) (hf : s'.flushedUntil = s.flushedUntil)
    (hb : s.begin ≤ s'.begin) (hd : ∀ x, s'.begin ≤ x → s'.device x = s.device x)
    (hc : ∀ x, x < k.roundEnd → s'.content x = s.content x) : RoundOk c s' k := by
  cases k with
  | registering b next =>
    cases next with
    | «seal» => exact h.trans hf.ge
    | _ => trivial
  | sealing merged u | awaitGate merged u => exact h.trans hf.ge
  | copying =>
    obtain ⟨h₁, h₂, h₃⟩ := h
    refine ⟨hf ▸ h₁, hf ▸ h₂, fun x hx ha hp hu => ?_⟩
    rw [hc x hu]
    exact h₃ x (hb.trans hx) (hf ▸ ha) hp hu
  | writing =>
    obtain ⟨h₁, h₂, h₃⟩ := h
    refine ⟨hf ▸ h₁, hf ▸ h₂, fun x hx ha hu => ?_⟩
    rw [hc x hu]
    exact h₃ x (hb.trans hx) (hf ▸ ha) hu
  | finishing =>
    obtain ⟨h₁, h₂, h₃⟩ := h
    refine ⟨hf ▸ h₁, hf ▸ h₂, fun hok x hx ha hu => ?_⟩
    rw [hc x hu, hd x hx]
    exact h₃ hok x (hb.trans hx) (hf ▸ ha) hu
  | _ => trivial

structure Durable (c : Config) (s : State n) : Prop where
  completed : s.completed = []
  onDevice : ∀ x, s.begin ≤ x → x < s.flushedUntil → s.device x = s.content x
  memory : ∀ x, s.begin ≤ x → c.alignDown s.flushedUntil ≤ x → s.Complete c x →
    s.frames.IsPageLoaded c (c.pageId x) → s.frames.byteAt c x = s.content x
  rounds : ∀ t, RoundOk c s (s.task t)

/-- The prefix grows and what it holds stays. -/
structure Extends (s s' : State n) : Prop where
  begin_le : s.begin ≤ s'.begin
  flushed_le : s.flushedUntil ≤ s'.flushedUntil
  device_eq : ∀ x, s.begin ≤ x → x < s.flushedUntil → s'.device x = s.device x
  content_eq : ∀ x, s.begin ≤ x → x < s.flushedUntil → s'.content x = s.content x

/-! ## Steps that write nothing -/

/-- The step writes no record byte, no device byte and no border of the prefix, and completes no
range. -/
structure Quiet (c : Config) (s s' : State n) : Prop where
  begin_eq : s'.begin = s.begin
  flushed_eq : s'.flushedUntil = s.flushedUntil
  device_eq : s'.device = s.device
  content_eq : s'.content = s.content
  completed_eq : s'.completed = s.completed
  complete : ∀ x, s'.Complete c x → s.Complete c x

variable {x : Nat}

/-- No thread's reserved bytes lie below the safe read-only border. -/
lemma Inv.complete_of_lt (h : Inv c ev s) (hx : x < s.safeReadOnly) : s.Complete c x := by
  have hle := h.ordered.safeReadOnly_le.trans h.ordered.readOnly_le
  refine ⟨hx.trans_le hle, fun t hin => ?_⟩
  have hsafe : ∀ y, (s.task t).writePin = some y → s.safeReadOnly ≤ y :=
    fun y hy => h.writers.safe_le hy
  cases ht : s.task t with
  | padding | encoding =>
    rw [ht] at hin hsafe
    exact absurd (hsafe _ rfl) (not_le_of_gt (hin.1.trans_lt hx))
  | _ =>
    rw [ht] at hin
    exact hin

/-- A byte from the last durable sector on is on a page above `ev`. -/
lemma Inv.lt_pageStart_of_alignDown_le (h : Inv c ev s)
    (hx : c.alignDown s.flushedUntil ≤ x) : ev < c.pageStart (c.pageId x + 1) := by
  have h₁ : ev ≤ s.flushedUntil := h.ev_le.trans h.ordered.head_le
  have h₂ : c.pageId s.flushedUntil ≤ c.pageId x :=
    Config.pageStart_le_iff_le_pageId.mp (Config.pageStart_pageId_le_alignDown.trans hx)
  have h₃ : c.pageStart (c.pageId s.flushedUntil + 1) ≤ c.pageStart (c.pageId x + 1) :=
    Config.pageStart_mono (by omega)
  exact (h₁.trans_lt Config.lt_pageStart_pageId_succ).trans_le h₃

lemma Durable.quiet {a : Action n} (h : Durable c s) (hinv : Inv c ev s)
    (hs : step c s a = some s') (hlive : a.isLive) (hq : Quiet c s s')
    (ht : ∀ t, s'.task t = s.task t ∨ RoundOk c s (s'.task t)) : Durable c s' ∧ Extends s s' := by
  refine ⟨⟨hq.completed_eq.trans h.completed, ?_, ?_, ?_⟩, hq.begin_eq.ge, hq.flushed_eq.ge,
    fun _ _ _ => congrFun hq.device_eq _, fun _ _ _ => congrFun hq.content_eq _⟩
  · rw [hq.begin_eq, hq.flushed_eq, hq.device_eq, hq.content_eq]
    exact h.onDevice
  · intro x hb ha hx hl
    rw [hq.begin_eq] at hb
    rw [hq.flushed_eq] at ha
    rw [hq.content_eq]
    have hchange := hinv.frameChange hs hlive
    have hx := hq.complete x hx
    have hl := hchange.isPageLoaded hl hx.1
    rw [(hchange.stable hx hl (hinv.lt_pageStart_of_alignDown_le ha)).2]
    exact h.memory x hb ha hx hl
  · intro t
    have hk : RoundOk c s (s'.task t) := by
      rcases ht t with he | hk
      · rw [he]
        exact h.rounds t
      · exact hk
    exact hk.keep hq.flushed_eq hq.begin_eq.ge (fun _ _ => congrFun hq.device_eq _)
      fun _ _ => congrFun hq.content_eq _

/-- The thread at `t` has reserved no bytes. -/
def Task.Settled (c : Config) (k : Task) : Prop := ∀ x, ¬ k.InFlight c x

lemma settled_of (ht : s.task t = k) (hk : k.Settled c) : (s.task t).Settled c := ht ▸ hk

/-- What thread `t` takes from the tail is in its hands. -/
lemma complete_of_reserve (htask : s'.task = update s.task t k)
    (ht : (s.task t).Settled c) (hnew : ∀ x, s.tail ≤ x → x < s'.tail → k.InFlight c x)
    (hx : s'.Complete c x) : s.Complete c x := by
  obtain ⟨hlt, hout⟩ := hx
  constructor
  · apply Nat.lt_of_not_le
    intro hge
    have hk := hout t
    rw [htask, update_self] at hk
    exact hk (hnew x hge hlt)
  · intro t'
    by_cases he : t' = t
    · rw [he]
      exact ht x
    · have hk := hout t'
      rw [htask, update_of_ne he] at hk
      exact hk

lemma complete_of_become (htail : s'.tail = s.tail)
    (htask : s'.task = update s.task t k) (ht : (s.task t).Settled c)
    (hx : s'.Complete c x) : s.Complete c x :=
  complete_of_reserve htask ht (fun x hge hlt => absurd hge (by omega)) hx

lemma round_of_become (htask : s'.task = update s.task t k)
    (hk : RoundOk c s k) (t' : Fin n) : s'.task t' = s.task t' ∨ RoundOk c s (s'.task t') := by
  by_cases he : t' = t
  · subst he
    rw [htask, update_self]
    exact .inr hk
  · rw [htask, update_of_ne he]
    exact .inl rfl

lemma Inv.roundEnd_le (h : Inv c ev s) (t : Fin n) : (s.task t).roundEnd ≤ s.safeReadOnly := by
  have hok := h.tasks t
  cases ht : s.task t with
  | copying | writing | finishing =>
    rw [ht] at hok
    exact hok.2
  | _ => exact Nat.zero_le _

/-! ## Steps that write -/

/-- Thread `t` writes reserved bytes: the buffer and the contents change alike, and only in its
range, which it then gives up. -/
lemma Durable.write (h : Durable c s) (hinv : Inv c ev s) (lo hi : Nat)
    (hlo : s.safeReadOnly ≤ lo) (hb : s'.begin = s.begin) (hf : s'.flushedUntil = s.flushedUntil)
    (hd : s'.device = s.device) (hco : s'.completed = s.completed)
    (hc : ∀ x, ¬ (lo ≤ x ∧ x < hi) → s'.content x = s.content x)
    (hlabel : ∀ x, s'.frames.IsPageLoaded c x → s.frames.IsPageLoaded c x)
    (htail : s'.tail = s.tail)
    (hsettle : ∀ x, (s.task t).InFlight c x → k.InFlight c x ∨ lo ≤ x ∧ x < hi)
    (hin : ∀ x, lo ≤ x → x < hi → s'.frames.byteAt c x = s'.content x)
    (hout : ∀ x, ¬ (lo ≤ x ∧ x < hi) → s.frames.IsPageLoaded c (c.pageId x) →
      s'.frames.byteAt c x = s.frames.byteAt c x)
    (htask : s'.task = update s.task t k) (hk : RoundOk c s k) (hend : k.roundEnd = 0) :
    Durable c s' ∧ Extends s s' := by
  have hbelow : ∀ x, x < s.flushedUntil → s'.content x = s.content x := by
    intro x hx
    have hlow := hinv.ordered.flushed_le
    exact hc x (by omega)
  refine ⟨⟨hco.trans h.completed, ?_, ?_, ?_⟩, hb.ge, hf.ge, fun _ _ _ => congrFun hd _,
    fun x _ hx => hbelow x hx⟩
  · intro x hx hlt
    rw [hb] at hx
    rw [hf] at hlt
    rw [hd, hbelow x hlt]
    exact h.onDevice x hx hlt
  · intro x hx ha hxc hl
    rw [hb] at hx
    rw [hf] at ha
    by_cases hmem : lo ≤ x ∧ x < hi
    · exact hin x hmem.1 hmem.2
    · have hcomplete : s.Complete c x := by
        refine ⟨htail ▸ hxc.1, fun t' hin' => ?_⟩
        have hnot := hxc.2 t'
        by_cases he : t' = t
        · rw [he, htask, update_self] at hnot
          exact hnot ((hsettle x (he ▸ hin')).resolve_right hmem)
        · rw [htask, update_of_ne he] at hnot
          exact hnot hin'
      rw [hout x hmem (hlabel _ hl), hc x hmem]
      exact h.memory x hx ha hcomplete (hlabel _ hl)
  · intro t'
    have hend' : (s'.task t').roundEnd ≤ s.safeReadOnly := by
      by_cases he : t' = t
      · rw [he, htask, update_self, hend]
        exact Nat.zero_le _
      · rw [htask, update_of_ne he]
        exact hinv.roundEnd_le t'
    have hk' : RoundOk c s (s'.task t') := by
      rcases round_of_become htask hk t' with he | hk'
      · rw [he]
        exact h.rounds t'
      · exact hk'
    exact hk'.keep hf hb.ge (fun _ _ => congrFun hd _) fun x hx => hc x (by omega)

lemma Durable.encode {size addr : Nat} {bytes : Nat → UInt8} (h : Durable c s)
    (hinv : Inv c ev s) (ht : s.task t = .encoding size addr) :
    Durable c (s.encode c t size addr bytes) ∧ Extends s (s.encode c t size addr bytes) := by
  obtain ⟨hp, hf, -⟩ := hinv.task ht
  have hpin : s.safeReadOnly ≤ addr := hinv.writers.safe_le (by rw [comp_apply, ht]; rfl)
  have haddr := c.pageStart_pageId_add (x := addr)
  have hsucc := c.pageStart_succ (p := c.pageId addr)
  apply h.write hinv addr (addr + size) hpin
  iterate 4 rfl
  · intro x hx
    exact if_neg hx
  · intro q hq
    exact Frames.label_write.symm.trans hq
  · rfl
  · intro x hx
    rw [ht] at hx
    exact .inr hx
  · intro x h₁ h₂
    have hpage : c.pageId x = c.pageId addr := Config.pageId_eq_of_bounds (by omega) (by omega)
    show (s.frames.write c addr size bytes).byteAt c x = if _ then _ else _
    rw [Frames.byteAt_write hpage h₁ h₂, if_pos ⟨h₁, h₂⟩]
  · intro x hmem hl
    exact Frames.byteAt_write_of_not_mem hl hp hmem
  · rfl
  · trivial
  · rfl

lemma Durable.writePad {size tail : Nat} (h : Durable c s) (hinv : Inv c ev s)
    (ht : s.task t = .padding size tail) :
    Durable c (s.writePad c t size tail) ∧ Extends s (s.writePad c t size tail) := by
  obtain ⟨-, -, hp, -, -⟩ := hinv.task ht
  have hpin : s.safeReadOnly ≤ tail := hinv.writers.safe_le (by rw [comp_apply, ht]; rfl)
  have htail := c.pageStart_pageId_add (x := tail)
  have hsucc := c.pageStart_succ (p := c.pageId tail)
  apply h.write hinv tail (c.pageStart (c.pageId tail + 1)) hpin
    (k := .encoding size (c.pageStart (c.pageId tail + 1)))
  iterate 4 rfl
  · intro x hx
    exact if_neg hx
  · intro q hq
    exact Frames.label_writePadTail.symm.trans hq
  · rfl
  · intro x hx
    rw [ht] at hx
    rcases lt_or_ge x (c.pageStart (c.pageId tail + 1)) with hlt | hge
    · exact .inr ⟨hx.1, hlt⟩
    · exact .inl ⟨hge, hx.2⟩
  · intro x h₁ h₂
    exact (if_pos ⟨h₁, h₂⟩).symm
  · intro x hmem hl
    exact Frames.byteAt_writePadTail_of_not_mem hl hp (by omega)
  · rfl
  · trivial
  · rfl

/-! ## Steps that move the prefix or write the device -/

section

variable (h : Durable c s)
include h

lemma Durable.reborder (hframes : s'.frames = s.frames)
    (hcontent : s'.content = s.content) (htail : s'.tail = s.tail)
    (htask : s'.task = update s.task t k) (hsettled : (s.task t).Settled c)
    (hb : s.begin ≤ s'.begin) (hf : s.flushedUntil ≤ s'.flushedUntil) (hco : s'.completed = [])
    (hdev : ∀ x, s.begin ≤ x → x < s'.flushedUntil → s'.device x = s.content x)
    (hk : RoundOk c s' k) (hothers : ∀ t' ≠ t, RoundOk c s' (s.task t')) :
    Durable c s' ∧ Extends s s' := by
  refine ⟨⟨hco, ?_, ?_, ?_⟩, hb, hf, ?_, fun _ _ _ => congrFun hcontent _⟩
  · intro x hx hlt
    rw [hcontent]
    exact hdev x (hb.trans hx) hlt
  · intro x hx ha hxc hl
    rw [hframes] at hl ⊢
    rw [hcontent]
    exact h.memory x (hb.trans hx) ((Config.alignDown_mono hf).trans ha)
      (complete_of_become htail htask hsettled hxc) hl
  · intro t'
    by_cases he : t' = t
    · rw [he, htask, update_self]
      exact hk
    · rw [htask, update_of_ne he]
      exact hothers t' he
  · intro x hx hlt
    exact (hdev x hx (hlt.trans_le hf)).trans (h.onDevice x hx hlt).symm

lemma Durable.moveBegin {v : Nat} (ht : s.task t = .movingBegin v) :
    Durable c (s.moveBegin t v) ∧ Extends s (s.moveBegin t v) := by
  apply h.reborder
  iterate 4 rfl
  · exact settled_of ht fun _ hx => hx
  · exact le_max_left _ _
  · exact le_rfl
  · exact h.completed
  · intro x hx hlt
    exact h.onDevice x hx hlt
  · trivial
  · intro t' _
    exact (h.rounds t').keep rfl (le_max_left _ _) (fun _ _ => rfl) fun _ _ => rfl

lemma Durable.truncate {v deleteFloor : Nat} (hinv : Inv c ev s) (ht : s.task t = .draining v) :
    Durable c (s.truncate t v deleteFloor) ∧ Extends s (s.truncate t v deleteFloor) := by
  have hv : v ≤ s.begin := hinv.task ht
  have hdev : ∀ x, s.begin ≤ x →
      (if x < min v deleteFloor then 0 else s.device x) = s.device x := by
    intro x hx
    exact if_neg (by omega)
  apply h.reborder
  iterate 4 rfl
  · exact settled_of ht fun _ hx => hx
  · exact le_rfl
  · exact le_rfl
  · exact h.completed
  · intro x hx hlt
    exact (hdev x hx).trans (h.onDevice x hx hlt)
  · trivial
  · intro t' _
    exact (h.rounds t').keep rfl le_rfl hdev fun _ _ => rfl

omit h in
/-- Only one round holds the gate: a round of another thread is not under it. -/
lemma Inv.roundOk_of_gate (h : Inv c ev s) {t' : Fin n} (hgate : s.gate = some t) (ht : t' ≠ t)
    (hk : RoundOk c s (s.task t')) (hf : s.flushedUntil ≤ s'.flushedUntil) :
    RoundOk c s' (s.task t') := by
  have hok := h.tasks t'
  have hne : ¬ s.gate = some t' := by
    rw [hgate]
    exact fun he => ht (Option.some.inj he).symm
  cases hkk : s.task t' with
  | registering b next =>
    rw [hkk] at hk
    cases next with
    | «seal» => exact hk.trans hf
    | _ => trivial
  | sealing | awaitGate =>
    rw [hkk] at hk
    exact hk.trans hf
  | copying | writing | finishing =>
    rw [hkk] at hok
    exact absurd hok.1 hne
  | _ => trivial

/-- The device write of a round puts back the bytes of the prefix as they were. -/
lemma Durable.writeDevice {job : FlushJob} {buf : Nat → UInt8} {count : Nat} {ok : Bool} (hinv : Inv c ev s) (ht : s.task t = .writing job buf)
    (hok : ok = true → count = State.writeEnd c job - c.alignDown job.range.fromAddress) :
    Durable c (s.writeDevice c t job buf count ok) ∧
      Extends s (s.writeDevice c t job buf count ok) := by
  obtain ⟨hgate, -⟩ := hinv.task ht
  have hround := h.rounds t
  rw [ht] at hround
  obtain ⟨hfrom, hlt, hbuf⟩ := hround
  apply h.reborder
  iterate 4 rfl
  · exact settled_of ht fun _ hx => hx
  · exact le_rfl
  · exact le_rfl
  · exact h.completed
  · intro x hx hxf
    have hxf : x < s.flushedUntil := hxf
    show (if _ then if x < job.range.untilAddress then buf x else 0 else s.device x) = s.content x
    split_ifs with hmem hu
    · exact hbuf x hx (hfrom ▸ hmem.1) hu
    · omega
    · exact h.onDevice x hx hxf
  · refine ⟨hfrom, hlt, fun hwritten x hx hxf hu => ?_⟩
    have hend : job.range.untilAddress ≤ State.writeEnd c job := by
      rw [State.writeEnd]
      split_ifs
      · exact Config.le_alignUp
      · exact le_rfl
    have hdown := c.alignDown_le (x := job.range.fromAddress)
    have hcount := hok hwritten
    have hxf : s.flushedUntil ≤ x := hxf
    show (if _ then if x < job.range.untilAddress then buf x else 0 else s.device x) = s.content x
    rw [if_pos (by omega), if_pos hu]
    exact hbuf x hx (by rw [← hfrom]; omega) hu
  · intro t' ht'
    exact hinv.roundOk_of_gate hgate ht' (h.rounds t') le_rfl

lemma Durable.finishFlush {job : FlushJob} {written : Bool}
    (hinv : Inv c ev s) (ht : s.task t = .finishing job written) :
    Durable c (s.finishFlush t job written) ∧ Extends s (s.finishFlush t job written) := by
  obtain ⟨hgate, hu⟩ := hinv.task ht
  have hround := h.rounds t
  rw [ht] at hround
  obtain ⟨hfrom, hlt, hdev⟩ := hround
  have htail : job.range.untilAddress ≤ s.tail :=
    hu.trans (hinv.ordered.safeReadOnly_le.trans hinv.ordered.readOnly_le)
  obtain ⟨pending, hp⟩ := s.finishFlush_eq t job written
  rw [hp, h.completed, completeFlushRange_of_prefix s.tail hfrom hlt htail]
  apply h.reborder
  iterate 4 rfl
  · exact settled_of ht fun _ hx => hx
  · exact le_rfl
  · cases written with
    | true => exact hlt.le
    | false => exact le_rfl
  · cases written with
    | true | false => rfl
  · intro x hx hxf
    rcases lt_or_ge x s.flushedUntil with hold | hnew
    · exact h.onDevice x hx hold
    · cases written with
      | true => exact hdev rfl x hx hnew hxf
      | false => exact absurd hxf (not_lt_of_ge hnew)
  · trivial
  · intro t' ht'
    apply hinv.roundOk_of_gate hgate ht' (h.rounds t')
    cases written with
    | true => exact hlt.le
    | false => exact le_rfl

end

end Wedb.Log
