import Wedb.Commit.GroupCommit

/-!
# Leadership and delivery

Two invariants carry the argument. A follower's waiter and the messages in its channel make up one
message in all; and the leader's own waiter stays in the list until its target is reached, so that the
leader cannot leave unserved.
-/

namespace Wedb.GroupCommit

open List Function

variable {ι : Type*}

def Pc.target : Pc → Nat
  | .idle => 0
  | .waiting target | .leading target _ | .returned target _ => target

def Pc.isLeading : Pc → Bool
  | .leading .. => true
  | _ => false

lemma State.leads_iff {s : State ι} {i : ι} : s.Leads i ↔ (s.pc i).isLeading = true := by
  unfold Leads
  cases s.pc i <;> simp [Pc.isLeading]

variable [DecidableEq ι]

namespace State

variable {s : State ι} {i j : ι} {p : Pc}

@[simp]
lemma move_pc_self : (s.move i p).pc i = p := update_self ..

lemma move_pc_of_ne (h : j ≠ i) : (s.move i p).pc j = s.pc j := update_of_ne h ..

/-- The waiters of a submitter. -/
def pending (s : State ι) (i : ι) : Nat := s.waiters.countP (·.tx = some i)

/-- The waiters picked out are told and leave the list. -/
def serve (s : State ι) (served : Waiter ι → Bool) (message : Outcome) : State ι :=
  { s.send (s.waiters.filter served) message with waiters := s.waiters.filter (!served ·) }

lemma pending_serve (served : Waiter ι → Bool) (message : Outcome) (i : ι) :
    (s.serve served message).pending i + ((s.serve served message).inbox i).length =
      s.pending i + (s.inbox i).length := by
  have hsplit := countP_eq_countP_filter_add s.waiters (fun w => decide (w.tx = some i)) served
  simp only [pending, serve, send, length_append, length_replicate]
  omega

end State

open State

/-- Followers: one message each, and a good one is true. -/
structure Delivery (s : State ι) : Prop where
  sent : ∀ i, s.pending i + (s.inbox i).length = (s.leaderOf i).isSome.toNat
  registered : ∀ w ∈ s.waiters, ∀ i, w.tx = some i →
    s.leaderOf i = s.leader ∧ (s.pc i).target = w.target
  messages : ∀ i committed, .ok committed ∈ s.inbox i →
    (s.pc i).target ≤ committed ∧ committed ≤ s.watermark
  waiting : ∀ i target, s.pc i = .waiting target → (s.leaderOf i).isSome = true
  idle : ∀ i, s.pc i = .idle → s.leaderOf i = none
  returned : ∀ i target committed, s.pc i = .returned target (.ok committed) →
    target ≤ committed ∧ committed ≤ s.watermark

namespace Delivery

variable {s : State ι} {i : ι}

section

variable (h : Delivery s)
include h

lemma isSome_leaderOf (hpos : 0 < s.pending i + (s.inbox i).length) :
    (s.leaderOf i).isSome = true := by
  rw [h.sent i] at hpos
  cases hs : (s.leaderOf i).isSome
  · simp [hs] at hpos
  · rfl

/-- A submitter goes on without touching what the mutex protects. -/
lemma move {p : Pc} (htarget : s.pc i ≠ .idle → p.target = (s.pc i).target)
    (hwaiting : ∀ target, p ≠ .waiting target) (hidle : p ≠ .idle)
    (hreturned : ∀ target committed, p = .returned target (.ok committed) →
      target ≤ committed ∧ committed ≤ s.watermark) : Delivery (s.move i p) := by
  have htargets : ∀ j, 0 < s.pending j + (s.inbox j).length →
      ((s.move i p).pc j).target = (s.pc j).target := by
    intro j hj
    by_cases hji : j = i
    · subst hji
      rw [move_pc_self]
      refine htarget fun hidle => ?_
      have := h.isSome_leaderOf hj
      rw [h.idle j hidle] at this
      cases this
    · rw [move_pc_of_ne hji]
  refine ⟨h.sent, fun w hw j hj => ?_, fun j c hc => ?_, fun j target hj => ?_, fun j hj => ?_,
    fun j target c hj => ?_⟩
  · obtain ⟨hl, ht⟩ := h.registered w hw j hj
    have hpos : 0 < s.pending j := countP_pos_iff.2 ⟨w, hw, decide_eq_true hj⟩
    exact ⟨hl, (htargets j (Nat.add_pos_left hpos _)).trans ht⟩
  · rw [htargets j (Nat.add_pos_right _ (length_pos_of_mem hc))]
    exact h.messages j c hc
  · by_cases hji : j = i
    · rw [hji, move_pc_self] at hj
      exact absurd hj (hwaiting target)
    · rw [move_pc_of_ne hji] at hj
      exact h.waiting j target hj
  · by_cases hji : j = i
    · rw [hji, move_pc_self] at hj
      exact absurd hj hidle
    · rw [move_pc_of_ne hji] at hj
      exact h.idle j hj
  · by_cases hji : j = i
    · rw [hji, move_pc_self] at hj
      exact hreturned target c hj
    · rw [move_pc_of_ne hji] at hj
      exact h.returned j target c hj

/-- Waiters are told and leave; the leadership may end if nobody is left. -/
lemma serve {served : Waiter ι → Bool} {message : Outcome} (leading : Bool) (leader : Option ι)
    (hmessage : ∀ committed, message = .ok committed →
      (∀ w ∈ s.waiters, served w = true → w.target ≤ committed) ∧ committed ≤ s.watermark)
    (hleader : ∀ w ∈ s.waiters, served w = false → leader = s.leader) :
    Delivery { s.serve served message with leading, leader } := by
  refine ⟨fun j => (pending_serve served message j).trans (h.sent j), fun w hw j hj => ?_,
    fun j c hc => ?_, h.waiting, h.idle, h.returned⟩
  · obtain ⟨hmem, hkept⟩ := mem_filter.1 hw
    obtain ⟨hl, ht⟩ := h.registered w hmem j hj
    exact ⟨hl.trans (hleader w hmem (by simpa using hkept)).symm, ht⟩
  · rcases mem_append.1 hc with hc | hc
    · exact h.messages j c hc
    · obtain ⟨hne, rfl⟩ := mem_replicate.1 hc
      obtain ⟨hreached, hle⟩ := hmessage c rfl
      obtain ⟨w, hw, hj⟩ := countP_pos_iff.1 (Nat.pos_of_ne_zero hne)
      obtain ⟨hmem, hserved⟩ := mem_filter.1 hw
      have htarget := (h.registered w hmem j (of_decide_eq_true hj)).2
      exact ⟨htarget.trans_le (hreached w hmem hserved), hle⟩

/-- A new waiter of the leader itself. -/
lemma lead (hnil : s.waiters = []) (target : Nat) (leader : Option ι)
    (leading : Bool) : Delivery { s with waiters := s.waiters ++ [⟨target, none⟩], leading, leader } := by
  refine ⟨fun j => ?_, fun w hw j hj => ?_, h.messages, h.waiting, h.idle, h.returned⟩
  · have := h.sent j
    simpa [pending] using this
  · rw [hnil] at hw
    obtain rfl := mem_singleton.1 hw
    cases hj

/-- A new follower. -/
lemma follow (hidle : s.pc i = .idle) (hleader : s.leader.isSome = true) (target : Nat) :
    Delivery { s.move i (.waiting target) with
      waiters := s.waiters ++ [⟨target, some i⟩]
      leaderOf := update s.leaderOf i s.leader } := by
  have hnone := h.idle i hidle
  have hzero := h.sent i
  rw [hnone] at hzero
  obtain ⟨hpending, hinbox⟩ := Nat.add_eq_zero_iff.1 hzero
  have hne : ∀ w ∈ s.waiters, ∀ j, w.tx = some j → j ≠ i := by
    rintro w hw j hj rfl
    have hpos : 0 < s.pending j := countP_pos_iff.2 ⟨w, hw, decide_eq_true hj⟩
    omega
  refine ⟨fun j => ?_, fun w hw j hj => ?_, fun j c hc => ?_, fun j t hj => ?_, fun j hj => ?_,
    fun j t c hj => ?_⟩
  · by_cases hji : j = i
    · subst hji
      simp only [pending, countP_append, update_self, hleader] at hpending ⊢
      rw [hpending, show (s.move j (.waiting target)).inbox j = s.inbox j from rfl, hinbox]
      simp
    · have := h.sent j
      simp only [pending, update_of_ne hji] at this ⊢
      rw [show (s.move i (.waiting target)).inbox j = s.inbox j from rfl, ← this]
      simp [Ne.symm hji]
  · rcases mem_append.1 hw with hw | hw
    · have hji := hne w hw j hj
      obtain ⟨hl, ht⟩ := h.registered w hw j hj
      exact ⟨(update_of_ne hji ..).trans hl, by rw [move_pc_of_ne hji, ht]⟩
    · obtain rfl := mem_singleton.1 hw
      cases hj
      exact ⟨update_self .., by rw [move_pc_self]; rfl⟩
  · have hji : j ≠ i := by
      rintro rfl
      exact absurd hinbox (ne_of_gt (length_pos_of_mem hc))
    rw [move_pc_of_ne hji]
    exact h.messages j c hc
  · by_cases hji : j = i
    · rw [hji]
      show (update s.leaderOf i s.leader i).isSome = true
      rw [update_self, hleader]
    · rw [move_pc_of_ne hji] at hj
      show (update s.leaderOf i s.leader j).isSome = true
      rw [update_of_ne hji, h.waiting j t hj]
  · have hji : j ≠ i := by
      rintro rfl
      rw [move_pc_self] at hj
      cases hj
    rw [move_pc_of_ne hji] at hj
    exact (update_of_ne hji ..).trans (h.idle j hj)
  · have hji : j ≠ i := by
      rintro rfl
      rw [move_pc_self] at hj
      cases hj
    rw [move_pc_of_ne hji] at hj
    exact h.returned j t c hj

end

end Delivery

/-- What the leader knows to be durable. -/
def State.floor (s : State ι) : Phase → Nat
  | .stepping watermark => watermark
  | .settling _ committed => committed
  | _ => s.watermark

/-- The leader: there is one while the flag is up, and its own waiter is there until it is served. -/
structure Leadership (s : State ι) : Prop where
  leads : ∀ i, (s.pc i).isLeading = true ↔ s.leader = some i
  leading : s.leading = s.leader.isSome
  drained : s.leader = none → s.waiters = []
  own : ∀ i target phase, s.pc i = .leading target phase →
    s.floor phase ≤ s.watermark ∧ (⟨target, none⟩ ∈ s.waiters ∨ target ≤ s.floor phase)

variable {phase : Phase}

namespace Leadership

variable {s : State ι} {i : ι}

/-- A submitter that neither takes nor loses the leadership. -/
lemma move (h : Leadership s) {p : Pc} (hleads : p.isLeading = (s.pc i).isLeading)
    (hown : ∀ target phase, p = .leading target phase →
      s.floor phase ≤ s.watermark ∧ (⟨target, none⟩ ∈ s.waiters ∨ target ≤ s.floor phase)) :
    Leadership (s.move i p) := by
  refine ⟨fun j => ?_, h.leading, h.drained, fun j target phase hj => ?_⟩
  · refine trans ?_ (h.leads j)
    by_cases hji : j = i
    · rw [hji, move_pc_self, hleads]
    · rw [move_pc_of_ne hji]
  · by_cases hji : j = i
    · rw [hji, move_pc_self] at hj
      exact hown target phase hj
    · rw [move_pc_of_ne hji] at hj
      exact h.own j target phase hj

omit [DecidableEq ι] in
lemma unique (h : Leadership s) {j : ι} (hi : (s.pc i).isLeading = true)
    (hj : (s.pc j).isLeading = true) : j = i :=
  Option.some.inj (((h.leads j).1 hj).symm.trans ((h.leads i).1 hi))

/-- The leader stays, after waiters have left. -/
lemma remain (h : Leadership s) {target : Nat} {phase' : Phase}
    (hi : s.pc i = .leading target phase) {s' : State ι}
    (hpc : s'.pc = (s.move i (.leading target phase')).pc) (hleading : s'.leading = s.leading)
    (hleader : s'.leader = s.leader) (hown : s'.floor phase' ≤ s'.watermark ∧
      (⟨target, none⟩ ∈ s'.waiters ∨ target ≤ s'.floor phase')) : Leadership s' := by
  have hlead : (s.pc i).isLeading = true := by rw [hi]; rfl
  refine ⟨fun j => ?_, by rw [hleading, hleader, h.leading], fun hnone => ?_,
    fun j t phase hj => ?_⟩
  · rw [hpc, hleader, ← h.leads j]
    by_cases hji : j = i
    · rw [hji, move_pc_self, hlead]
      rfl
    · rw [move_pc_of_ne hji]
  · rw [hleader, (h.leads i).1 hlead] at hnone
    cases hnone
  · rw [hpc] at hj
    by_cases hji : j = i
    · rw [hji, move_pc_self] at hj
      obtain ⟨rfl, rfl⟩ := Pc.leading.inj hj
      exact hown
    · rw [move_pc_of_ne hji] at hj
      exact absurd (h.unique hlead (by rw [hj]; rfl)) hji

/-- The leader leaves, and with it the last waiters. -/
lemma resign (h : Leadership s) (hlead : (s.pc i).isLeading = true) {p : Pc}
    (hp : p.isLeading = false) {s' : State ι} (hpc : s'.pc = (s.move i p).pc)
    (hleading : s'.leading = false) (hwaiters : s'.waiters = []) (hleader : s'.leader = none) :
    Leadership s' := by
  have hall : ∀ j, (s'.pc j).isLeading = false := by
    intro j
    rw [hpc]
    by_cases hji : j = i
    · rw [hji, move_pc_self, hp]
    · rw [move_pc_of_ne hji, Bool.eq_false_iff]
      exact fun hj => hji (h.unique hlead hj)
  refine ⟨fun j => ?_, by rw [hleading, hleader]; rfl, fun _ => hwaiters, fun j target phase hj => ?_⟩
  · rw [hall j, hleader]
    exact ⟨nofun, nofun⟩
  · have := hall j
    rw [hj] at this
    cases this

end Leadership

structure Inv (s : State ι) : Prop extends Delivery s, Leadership s

namespace Inv

variable {s s' : State ι} {i : ι} {target : Nat}

lemma init (watermark tail : Nat) : Inv (State.init ι watermark tail) where
  leads := by simp [State.init, Pc.isLeading]
  leading := rfl
  drained := fun _ => rfl
  sent := fun _ => rfl
  registered := nofun
  messages := nofun
  waiting := nofun
  idle := fun _ _ => rfl
  own := nofun
  returned := nofun

section

variable (h : Inv s)
include h

/-- The leader goes to another place of its loop. -/
lemma rephase {phase' : Phase} (hi : s.pc i = .leading target phase)
    (hfloor : s.floor phase ≤ s.floor phase') (hle : s.floor phase' ≤ s.watermark) :
    Inv (s.move i (.leading target phase')) := by
  refine ⟨h.toDelivery.move (fun _ => by rw [hi]; rfl) nofun nofun nofun,
    h.toLeadership.move (by rw [hi]; rfl) fun t p hp => ?_⟩
  obtain ⟨rfl, rfl⟩ := Pc.leading.inj hp
  obtain ⟨_, hown⟩ := h.own i target phase hi
  exact ⟨hle, hown.imp_right fun hreached => hreached.trans hfloor⟩

/-- A submitter that does not lead returns. -/
lemma finish {outcome : Outcome} (hlead : (s.pc i).isLeading = false)
    (htarget : s.pc i ≠ .idle → target = (s.pc i).target)
    (hok : ∀ committed, outcome = .ok committed → target ≤ committed ∧ committed ≤ s.watermark) :
    Inv (s.move i (.returned target outcome)) := by
  refine ⟨h.toDelivery.move htarget nofun nofun fun t c hp => ?_,
    h.toLeadership.move hlead.symm nofun⟩
  obtain ⟨rfl, rfl⟩ := Pc.returned.inj hp
  exact hok c rfl

lemma enter (hidle : s.pc i = .idle) : Inv (enter s i target) := by
  have hlead : (s.pc i).isLeading = false := by rw [hidle]; rfl
  unfold GroupCommit.enter
  split
  · rename_i hle
    refine h.finish hlead (fun hne => absurd hidle hne) fun c hc => ?_
    obtain rfl := Outcome.ok.inj hc
    exact ⟨hle, le_rfl⟩
  split
  · rename_i hleading
    have hleader : s.leader.isSome = true := h.leading ▸ hleading
    have hmoved := h.toLeadership.move (p := .waiting target) hlead.symm nofun
    refine ⟨h.toDelivery.follow hidle hleader target, hmoved.leads, hmoved.leading, fun hnone => ?_,
      fun j t phase hj => ?_⟩
    · rw [show s.leader = none from hnone] at hleader
      cases hleader
    · obtain ⟨hle, hown⟩ := hmoved.own j t phase hj
      exact ⟨hle, hown.imp_left fun hmem => mem_append_left _ hmem⟩
  · rename_i hleading
    have hnone : s.leader = none := by
      rw [h.leading] at hleading
      simpa using hleading
    have hmoved := h.toDelivery.move (p := .leading target .collecting)
      (fun hne => absurd hidle hne) nofun nofun nofun
    refine ⟨hmoved.lead (h.drained hnone) target (some i) true, fun j => ?_, rfl, nofun,
      fun j t phase hj => ?_⟩
    · by_cases hji : j = i
      · rw [hji, move_pc_self]
        exact ⟨fun _ => rfl, fun _ => rfl⟩
      · rw [move_pc_of_ne hji, h.leads j, hnone]
        exact ⟨nofun, fun heq => absurd (Option.some.inj heq).symm hji⟩
    · by_cases hji : j = i
      · rw [hji, move_pc_self] at hj
        obtain ⟨rfl, rfl⟩ := Pc.leading.inj hj
        exact ⟨le_rfl, .inl (mem_append_right _ (mem_singleton_self _))⟩
      · rw [move_pc_of_ne hji] at hj
        have hlead := (h.leads j).1 (by rw [hj]; rfl)
        rw [hnone] at hlead
        cases hlead

/-- The leader leaves with an error or is dropped. -/
lemma breakOff (hi : s.pc i = .leading target phase)
    {outcome : Outcome} (hok : ∀ committed, outcome ≠ .ok committed) :
    Inv (s.breakOff.move i (.returned target outcome)) := by
  have hlead : (s.pc i).isLeading = true := by rw [hi]; rfl
  have hserved : Delivery { s.serve (fun _ => true) .broken with leading := false, leader := none } :=
    h.toDelivery.serve false none nofun nofun
  have hbreak : s.breakOff = { s.serve (fun _ => true) .broken with leading := false, leader := none } := by
    simp [State.breakOff, serve]
  refine ⟨?_, h.toLeadership.resign hlead rfl rfl rfl rfl rfl⟩
  rw [hbreak]
  refine hserved.move (fun _ => ?_) nofun nofun fun t c hp => ?_
  · show target = (s.pc i).target
    rw [hi]
    rfl
  · exact absurd (Pc.returned.inj hp).2 (hok c)

/-- A round ends. -/
lemma settle {watermark committed : Nat}
    (hi : s.pc i = .leading target (.settling watermark committed)) :
    Inv (settle s i target watermark committed) := by
  obtain ⟨hle, hown⟩ := h.own i target _ hi
  have hlead : (s.pc i).isLeading = true := by rw [hi]; rfl
  have hkeep : (fun w : Waiter ι => !decide (w.target ≤ committed)) =
      fun w => decide (committed < w.target) := by
    funext w
    rw [← decide_not, decide_eq_decide, not_le]
  have hmessage : ∀ c, Outcome.ok committed = .ok c →
      (∀ w ∈ s.waiters, decide (w.target ≤ committed) = true → w.target ≤ c) ∧ c ≤ s.watermark := by
    intro c hc
    obtain rfl := Outcome.ok.inj hc
    exact ⟨fun w _ hw => of_decide_eq_true hw, hle⟩
  have hdelivery : ∀ leading leader, (∀ w ∈ s.waiters, committed < w.target → leader = s.leader) →
      Delivery { s.send (s.waiters.filter (·.target ≤ committed)) (.ok committed) with
        waiters := s.waiters.filter (committed < ·.target), leading, leader } := by
    intro leading leader hleader
    have := h.toDelivery.serve leading leader hmessage fun w hw hlt =>
      hleader w hw (not_le.1 (of_decide_eq_false hlt))
    rwa [serve, hkeep] at this
  -- the leader's own waiter leaves only when the leader is served
  have hserved : ⟨target, none⟩ ∈ s.waiters.filter (fun w => committed < w.target) ∨
      target ≤ committed := by
    by_cases hlt : committed < target
    · exact .inl (mem_filter.2 ⟨hown.resolve_right (not_le.2 hlt), decide_eq_true hlt⟩)
    · exact .inr (not_lt.1 hlt)
  unfold GroupCommit.settle
  dsimp only
  split
  · refine ⟨(hdelivery _ _ fun _ _ _ => rfl).move (fun _ => ?_) nofun nofun nofun,
      h.toLeadership.remain hi rfl rfl rfl ?_⟩
    · show target = (s.pc i).target
      rw [hi]
      rfl
    · -- either way the next round starts from the durable watermark
      have : ∀ p : Phase, p = (if committed ≤ watermark then .yielding else .collecting) →
          s.floor p = s.watermark := by
        intro p hp
        split at hp <;> subst hp <;> rfl
      have hfloor := this _ rfl
      exact ⟨hfloor.le, hserved.imp_right fun ht => (ht.trans hle).trans_eq hfloor.symm⟩
  · rename_i hdone
    simp only [Bool.or_eq_true, any_eq_true, mem_filter, decide_eq_true_eq, not_or] at hdone
    have hnil : s.waiters.filter (fun w => committed < w.target) = [] :=
      eq_nil_iff_forall_not_mem.2 fun w hw =>
        hdone.1 ⟨w, mem_filter.1 hw |>.imp_right of_decide_eq_true,
          of_decide_eq_true (mem_filter.1 hw).2⟩
    have htarget : target ≤ committed := hserved.resolve_left fun hmem => by
      rw [hnil] at hmem
      cases hmem
    have hdel := hdelivery false none fun w hw hlt =>
      absurd ⟨w, ⟨hw, hlt⟩, hlt⟩ hdone.1
    refine ⟨hdel.move (fun _ => ?_) nofun nofun
      fun t c hp => ?_, h.toLeadership.resign hlead rfl rfl rfl hnil rfl⟩
    · show target = (s.pc i).target
      rw [hi]
      rfl
    · obtain ⟨rfl, hc⟩ := Pc.returned.inj hp
      obtain rfl := Outcome.ok.inj hc
      exact ⟨htarget, hle⟩

/-- A follower takes what `wait` gives it. -/
lemma receive (hi : s.pc i = .waiting target) :
    Inv (s.move i (.returned target (wait (s.inbox i).head? target s.watermark))) := by
  refine h.finish (by rw [hi]; rfl) (fun _ => by rw [hi]; rfl) fun c hc => ?_
  cases hmsg : (s.inbox i).head? with
  | some message =>
    rw [hmsg] at hc
    obtain rfl : message = .ok c := hc
    have := h.messages i c (mem_of_head? hmsg)
    rw [hi] at this
    exact this
  | none =>
    rw [hmsg, wait] at hc
    split at hc
    · rename_i hle
      obtain rfl := Outcome.ok.inj hc
      exact ⟨hle, le_rfl⟩
    · cases hc

lemma advance {watermark : Nat} (hle : s.watermark ≤ watermark) : Inv { s with watermark } := by
  refine ⟨⟨h.sent, h.registered, fun i c hc => ?_, h.waiting, h.idle, fun i t c hi => ?_⟩,
    ⟨h.leads, h.leading, h.drained, fun i t phase hi => ?_⟩⟩
  · exact (h.messages i c hc).imp_right (·.trans hle)
  · exact (h.returned i t c hi).imp_right (·.trans hle)
  · obtain ⟨hfloor, hown⟩ := h.own i t phase hi
    have hmono : s.floor phase ≤ floor { s with watermark } phase := by
      cases phase <;> first | exact hle | exact le_rfl
    refine ⟨?_, hown.imp_right (·.trans hmono)⟩
    cases phase <;> first | exact le_rfl | exact hfloor.trans hle

lemma step {a : Action ι} (hs : step s a = some s') : Inv s' := by
  cases a <;> simp only [GroupCommit.step] at hs
  case enter =>
    obtain ⟨hidle, ⟨⟩⟩ := Option.ite_none_right_eq_some.1 hs
    exact h.enter hidle
  case collect i =>
    split at hs <;> cases hs
    all_goals
      rename_i hi
      exact h.rephase hi le_rfl le_rfl
  case readWatermark i =>
    split at hs <;> cases hs
    rename_i hi
    refine h.rephase hi ?_ ?_ <;> split <;> exact le_rfl
  case stepOk i committed =>
    split at hs
    · rename_i hi
      obtain ⟨hc, ⟨⟩⟩ := Option.ite_none_right_eq_some.1 hs
      exact h.rephase hi hc.1 hc.2
    · cases hs
  case stepErr i =>
    split at hs <;> cases hs
    rename_i hi
    exact h.rephase hi (h.own _ _ _ hi).1 le_rfl
  case settle i =>
    split at hs <;> cases hs
    rename_i hi
    exact h.settle hi
  case broadcast i | cancel i =>
    split at hs <;> cases hs
    rename_i hi
    exact h.breakOff hi nofun
  case receive i =>
    split at hs
    · rename_i target hi
      obtain ⟨hready, ⟨⟩⟩ := Option.ite_none_left_eq_some.1 hs
      exact h.receive hi
    · cases hs
  case leave i =>
    split at hs <;> cases hs
    rename_i hi
    exact h.finish (by rw [hi]; rfl) (fun _ => by rw [hi]; rfl) nofun
  case advance =>
    obtain ⟨hle, ⟨⟩⟩ := Option.ite_none_right_eq_some.1 hs
    exact h.advance hle
  case write =>
    cases hs
    exact ⟨⟨h.sent, h.registered, h.messages, h.waiting, h.idle, h.returned⟩,
      ⟨h.leads, h.leading, h.drained, h.own⟩⟩

end

end Inv

/-- In every run, whatever the steps return and whoever is dropped. -/
theorem safe_of_reachable {watermark tail : Nat} {s : State ι}
    (h : Machine.Reachable step (State.init ι watermark tail) s) : Safe s := by
  have hinv : Inv s := h.invariant (.init watermark tail) fun hi _ hs => hi.step hs
  refine ⟨fun i j hi hj => ?_, fun hleading => ?_, fun i leader hleader => ?_, hinv.returned,
    fun i s' hs j target hidle hlt => ?_⟩
  · exact hinv.toLeadership.unique (leads_iff.1 hj) (leads_iff.1 hi)
  · rw [hinv.leading] at hleading
    exact hinv.drained (by simpa using hleading)
  · have hsent := hinv.sent i
    rw [hleader] at hsent
    refine ⟨hsent, fun hgone => ?_⟩
    -- a waiter that is left belongs to a leader that is there
    have hnone : s.pending i = 0 := by
      by_contra hne
      obtain ⟨w, hw, htx⟩ := countP_pos_iff.1 (Nat.pos_of_ne_zero hne)
      have heq := (hinv.registered w hw i (of_decide_eq_true htx)).1
      exact hgone (leads_iff.2 ((hinv.leads leader).2 (heq.symm.trans hleader)))
    rw [hnone, Nat.zero_add] at hsent
    exact hsent
  · have hleading : s'.leading = false := by
      rcases hs with hs | hs
      all_goals
        simp only [step] at hs
        split at hs <;> cases hs
        rfl
    -- nobody leads, so whoever finds work becomes the leader
    refine ⟨_, if_pos hidle, target, .collecting, ?_⟩
    rw [enter, if_neg (not_le.2 hlt), hleading]
    exact move_pc_self

/-- A leader with two followers: the first round reaches one of them, the second one fails; another
submitter takes over. -/
theorem safe_served_and_broken : ∃ s : State Nat,
    Machine.Reachable step (State.init Nat 0 10) s ∧ Safe s ∧
      (range 4).map s.pc = [.returned 5 .failed, .returned 6 (.ok 7), .returned 9 .broken,
        .leading 8 .collecting] := by
  obtain ⟨s, hreach, hs⟩ := Machine.exists_reachable_of_run step (init Nat 0 10)
    [.enter 0 5, .enter 1 6, .collect 0, .enter 2 9, .readWatermark 0, .advance 7, .stepOk 0 7,
      .settle 0, .receive 1, .collect 0, .readWatermark 0, .stepErr 0, .broadcast 0, .receive 2,
      .enter 3 8]
    (fun s => (range 4).map s.pc)
    [.returned 5 .failed, .returned 6 (.ok 7), .returned 9 .broken, .leading 8 .collecting]
    (by decide +kernel)
  exact ⟨s, hreach, safe_of_reachable hreach, hs⟩

end Wedb.GroupCommit
