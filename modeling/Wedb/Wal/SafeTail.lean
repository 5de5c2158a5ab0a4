import Wedb.Wal.Moves

/-!
# The safe tail

What every reader of the safe tail gets is an address below which everything reserved has been
written. A writer publishes a bound of its range in its slot before it reserves, so a reader that has
read the tail finds every unfinished range below it in a slot it has still to visit.
-/

set_option linter.unusedSectionVars false

namespace Wedb.Wal

open State

variable {W R : Type*} [DecidableEq W] [DecidableEq R] {cfg : Config} {s s' : State W R}
  {w w' : Option W} {r : Option R}

/-! ### Slots -/

namespace Writer

/-- The slot a writer holds, with the bound it has published there. -/
def slot? : Writer → Option (Nat × Nat)
  | .claimed _ slot tail | .checked _ slot tail => some (slot, tail)
  | .lost _ slot published _ => some (slot, published)
  | .writing _ slot reserved _ => some (slot, reserved)
  | _ => none

/-- The frames a writer has still to write. -/
def frames : Writer → List Parts
  | .loaded frames _ | .claimed frames _ _ | .checked frames _ _ | .lost frames _ _ _
  | .writing frames _ _ _ => frames
  | _ => []

end Writer

/-- Every slot in use has one writer, which knows the bound in it. -/
structure Slots (cfg : Config) (s : State W R) : Prop where
  held : ∀ {w slot bound}, (s.writer w).slot? = some (slot, bound) →
    slot < cfg.inflightSlots ∧ s.slots slot = some bound
  distinct : ∀ {w w' slot bound bound'}, (s.writer w).slot? = some (slot, bound) →
    (s.writer w').slot? = some (slot, bound') → w = w'

variable {x : Writer} {slot : Nat}

namespace Slots

section

variable (h : Slots cfg s)
include h

lemma keep (hslots : s'.slots = s.slots)
    (hw : ∀ w, (s'.writer w).slot? = (s.writer w).slot? ∨ (s'.writer w).slot? = none) :
    Slots cfg s' := by
  have back {w slot bound} (hslot : (s'.writer w).slot? = some (slot, bound)) :
      (s.writer w).slot? = some (slot, bound) := by
    rcases hw w with hsame | hnone
    · rw [← hsame, hslot]
    · rw [hnone] at hslot
      cases hslot
  exact ⟨fun hslot => hslots ▸ h.held (back hslot), fun h₁ h₂ => h.distinct (back h₁) (back h₂)⟩

/-- One writer changes, with a slot that no other writer holds. -/
lemma change {value : Option Nat}
    (hother : ∀ {w' bound}, w' ≠ w → (s.writer w').slot? ≠ some (slot, bound))
    (hx : ∀ {slot' bound}, x.slot? = some (slot', bound) →
      slot' = slot ∧ slot < cfg.inflightSlots ∧ value = some bound) :
    Slots cfg ((s.setSlot slot value).setWriter w x) := by
  have writer_of_ne {w'} (hne : w' ≠ w) :
      ((s.setSlot slot value).setWriter w x).writer w' = s.writer w' := setWriter_of_ne _ x hne
  have writer_self : ((s.setSlot slot value).setWriter w x).writer w = x := setWriter_self _ w x
  constructor
  · intro w' slot' bound hslot
    by_cases hw : w' = w
    · subst hw
      rw [writer_self] at hslot
      obtain ⟨rfl, hlt, hvalue⟩ := hx hslot
      exact ⟨hlt, (Function.update_self ..).trans hvalue⟩
    · rw [writer_of_ne hw] at hslot
      have hne : slot' ≠ slot := by
        rintro rfl
        exact hother hw hslot
      exact ⟨(h.held hslot).1, (Function.update_of_ne hne ..).trans (h.held hslot).2⟩
  · intro w₁ w₂ slot' b₁ b₂ h₁ h₂
    by_cases hw₁ : w₁ = w <;> by_cases hw₂ : w₂ = w
    · rw [hw₁, hw₂]
    · subst hw₁
      rw [writer_self] at h₁
      rw [writer_of_ne hw₂] at h₂
      exact absurd ((hx h₁).1 ▸ h₂) (hother hw₂)
    · subst hw₂
      rw [writer_self] at h₂
      rw [writer_of_ne hw₁] at h₁
      exact absurd ((hx h₂).1 ▸ h₁) (hother hw₁)
    · rw [writer_of_ne hw₁] at h₁
      rw [writer_of_ne hw₂] at h₂
      exact h.distinct h₁ h₂

lemma setWriter (hx : x.slot? = (s.writer w).slot?) : Slots cfg (s.setWriter w x) := by
  refine h.keep rfl fun w' => .inl ?_
  by_cases hw : w' = w
  · subst hw
    rw [s.setWriter_self, hx]
  · rw [s.setWriter_of_ne x hw]

lemma other {bound : Nat} (hw : (s.writer w).slot? = some (slot, bound))
    {w' bound'} (hne : w' ≠ w) : (s.writer w').slot? ≠ some (slot, bound') :=
  fun hslot => hne (h.distinct hslot hw)

lemma release {bound : Nat}
    (hw : (s.writer w).slot? = some (slot, bound)) (hx : x.slot? = none) :
    Slots cfg ((s.setSlot slot none).setWriter w x) :=
  h.change (h.other hw) fun hslot => by rw [hx] at hslot; cases hslot

end

end Slots

lemma WriterMove.keepsSlots (h : WriterMove cfg s w s') (hi : Slots cfg s) : Slots cfg s' := by
  cases h with
  | reload hw | check hw | casFail hw => exact hi.setWriter (by rw [hw]; rfl)
  | cas hw =>
    rename_i frames slot
    have hi' : Slots cfg (s.setWriter w (.writing frames slot s.tail s.tail)) :=
      hi.setWriter (congrArg Writer.slot? hw).symm
    exact hi'.keep rfl fun _ => .inl rfl
  | write hw =>
    rename_i parts frames slot reserved addr
    have hi' : Slots cfg (s.writeFrame cfg parts addr) := hi.keep rfl fun _ => .inl rfl
    exact hi'.setWriter (congrArg Writer.slot? hw).symm
  | claim hw hlt hfree =>
    refine hi.change (fun _ hslot => ?_) fun hslot => ?_
    · rw [(hi.held hslot).2] at hfree
      cases hfree
    · cases hslot
      exact ⟨rfl, hlt, rfl⟩
  | republish hw =>
    have hslot : (s.writer w).slot? = _ := congrArg Writer.slot? hw
    refine hi.change (hi.other hslot) fun hx => ?_
    cases hx
    exact ⟨rfl, (hi.held hslot).1, rfl⟩
  | full hw | release hw => exact hi.release (congrArg Writer.slot? hw) rfl

lemma Frame.keepsSlots (h : Frame cfg s s') (hi : Slots cfg s) : Slots cfg s' := by
  refine hi.keep h.slots fun w => ?_
  obtain hw | ⟨-, hw | ⟨frames, -, hw⟩⟩ := h.writer w
  · exact .inl (by rw [hw])
  · exact .inr (by rw [hw]; rfl)
  · exact .inr (by rw [hw]; rfl)

/-! ### What is written below a bound -/

/-- An address that a writer with a slot from `n` on has reserved and has still to write. -/
def Unwritten (s : State W R) (n a : Nat) : Prop :=
  ∃ w frames slot reserved addr, s.writer w = .writing frames slot reserved addr ∧ n ≤ slot ∧
    addr ≤ a ∧ a < addr + totalLen frames

/-- A reader has still to visit the slots of the writers that are not done below its minimum. -/
def Reader.Sound (s : State W R) : Reader → Prop
  | .idle => True
  | .folding next least => least ≤ s.tail ∧ ∀ a < least, s.written a = true ∨ Unwritten s next a
  | .done safeTail => safeTail ≤ s.tail ∧ ∀ a < safeTail, s.written a = true

structure Coverage (s : State W R) : Prop where
  range : ∀ {w frames slot reserved addr}, s.writer w = .writing frames slot reserved addr →
    reserved ≤ addr ∧ addr + totalLen frames ≤ s.tail
  short : ∀ {w parts}, parts ∈ (s.writer w).frames → parts.flatten.length < 2 ^ 32
  covered : ∀ a < s.tail, s.written a = true ∨ Unwritten s 0 a
  reader : ∀ r, (s.reader r).Sound s

/-- What a step may do to the addresses below the tail: what is written stays so, what a writer has
still to write it keeps or writes, and what is reserved is reserved by a writer. -/
structure Advances (s s' : State W R) : Prop where
  tail : s.tail ≤ s'.tail
  written : ∀ a, s.written a = true → s'.written a = true
  unwritten : ∀ n a, Unwritten s n a → s'.written a = true ∨ Unwritten s' n a
  reserved : ∀ a, s.tail ≤ a → a < s'.tail → Unwritten s' 0 a

namespace Advances

lemma or_unwritten (h : Advances s s') {n a : Nat} (ha : s.written a = true ∨ Unwritten s n a) :
    s'.written a = true ∨ Unwritten s' n a :=
  ha.elim (fun ha => .inl (h.written a ha)) (h.unwritten n a)

lemma covered (h : Advances s s') (hi : Coverage s) (a : Nat) (ha : a < s'.tail) :
    s'.written a = true ∨ Unwritten s' 0 a := by
  rcases lt_or_ge a s.tail with hlt | hge
  · exact h.or_unwritten (hi.covered a hlt)
  · exact .inr (h.reserved a hge ha)

lemma sound (h : Advances s s') {x : Reader} (hx : x.Sound s) : x.Sound s' := by
  cases x with
  | idle => trivial
  | folding =>
    exact ⟨hx.1.trans h.tail, fun a ha => h.or_unwritten (hx.2 a ha)⟩
  | done => exact ⟨hx.1.trans h.tail, fun a ha => h.written a (hx.2 a ha)⟩

/-- No writer of frames changes. -/
lemma of_writing (htail : s'.tail = s.tail) (hwritten : s'.written = s.written)
    (h : ∀ {w frames slot reserved addr}, s.writer w = .writing frames slot reserved addr →
      totalLen frames ≠ 0 → s'.writer w = .writing frames slot reserved addr) : Advances s s' where
  tail := htail.ge
  written := fun a ha => hwritten ▸ ha
  unwritten := by
    rintro n a ⟨w, frames, slot, reserved, addr, hw, hn, hlo, hhi⟩
    exact .inr ⟨w, frames, slot, reserved, addr, h hw (by omega), hn, hlo, hhi⟩
  reserved := fun a hge hlt => absurd hlt (by omega)

end Advances

lemma Unwritten.of_setWriter {n a : Nat} (h : Unwritten s n a)
    (hx : ∀ {frames slot reserved addr}, s.writer w = .writing frames slot reserved addr → n ≤ slot →
      addr ≤ a → a < addr + totalLen frames →
      ∃ frames' reserved' addr', x = .writing frames' slot reserved' addr' ∧ addr' ≤ a ∧
        a < addr' + totalLen frames') :
    Unwritten (s.setWriter w x) n a := by
  obtain ⟨w', frames, slot, reserved, addr, hw', hn, hlo, hhi⟩ := h
  by_cases hw : w' = w
  · subst hw
    obtain ⟨frames', reserved', addr', hx', hlo', hhi'⟩ := hx hw' hn hlo hhi
    exact ⟨w', frames', slot, reserved', addr', (s.setWriter_self w' x).trans hx', hn, hlo', hhi'⟩
  · exact ⟨w', frames, slot, reserved, addr, (s.setWriter_of_ne x hw).trans hw', hn, hlo, hhi⟩

lemma totalLen_cons (parts : Parts) (frames : List Parts) :
    totalLen (parts :: frames) = frameLen parts + totalLen frames := rfl

/-- The length of a frame, from the header and from the parts. -/
lemma headerLen_eq {parts : Parts} (h : parts.flatten.length < 2 ^ 32) :
    recordHeaderLen + (cfg.checksum.forPayloadParts parts).payloadLen = frameLen parts := by
  rw [cfg.checksum.forPayloadParts_eq h, WalFrameHeader.payloadLen, frameLen, List.length_flatten]

lemma WriterMove.advances (h : WriterMove cfg s w s') (hi : Coverage s) : Advances s s' := by
  have setWriter {x y : Writer} (hw : s.writer w = y) (hy : ∀ frames slot reserved addr,
      y = .writing frames slot reserved addr → totalLen frames = 0) : Advances s (s.setWriter w x) := by
    refine .of_writing rfl rfl fun {w' frames slot reserved addr} hw' hne => ?_
    have hww : w' ≠ w := by
      rintro rfl
      exact hne (hy _ _ _ _ (hw.symm.trans hw'))
    rw [s.setWriter_of_ne x hww, hw']
  cases h with
  | reload hw | check hw | casFail hw => exact setWriter hw nofun
  | claim hw | republish hw | full hw => exact { setWriter hw nofun with }
  | release hw =>
    exact { setWriter hw fun _ _ _ _ heq => by cases heq; rfl with }
  | cas hw =>
    rename_i frames slot
    have hadv : Advances s (s.setWriter w (.writing frames slot s.tail s.tail)) := setWriter hw nofun
    refine ⟨Nat.le_add_right .., hadv.written, hadv.unwritten, fun a hge hlt => ?_⟩
    exact ⟨w, frames, slot, s.tail, s.tail, s.setWriter_self .., Nat.zero_le _, hge, hlt⟩
  | write hw =>
    rename_i parts frames slot reserved addr
    have hshort : parts.flatten.length < 2 ^ 32 := hi.short (by rw [hw]; exact List.mem_cons_self)
    rw [headerLen_eq hshort]
    refine ⟨le_rfl, fun a ha => by simp [State.setWriter, writeFrame, ha], fun n a ha => ?_,
      fun a hge hlt => absurd hlt (not_lt.2 hge)⟩
    by_cases hin : addr ≤ a ∧ a < addr + frameLen parts
    · exact .inl (by simp [State.setWriter, writeFrame, hin])
    · refine .inr (.of_setWriter ha ?_)
      intro frames' slot' reserved' addr' hw' hn hlo hhi
      obtain ⟨⟩ := hw.symm.trans hw'
      rw [totalLen_cons] at hhi
      exact ⟨frames, reserved, addr + frameLen parts, rfl, by omega, by omega⟩

lemma short_of_accepted {frames : List Parts} (h : accepted cfg frames = true) {parts : Parts}
    (hmem : parts ∈ frames) : parts.flatten.length < 2 ^ 32 := by
  have hall := List.all_eq_true.1 (Bool.and_eq_true_iff.1 h).1 parts hmem
  have hlen := of_decide_eq_true (Bool.and_eq_true_iff.1 hall).1
  rw [frameLen] at hlen
  rw [List.length_flatten]
  omega

/-- One writer changes. -/
lemma Coverage.change (hi : Coverage s) (hadv : Advances s s')
    (hself : s'.writer w = x) (hother : ∀ w', w' ≠ w → s'.writer w' = s.writer w')
    (hreader : s'.reader = s.reader)
    (hrange : ∀ {frames slot reserved addr}, x = .writing frames slot reserved addr →
      reserved ≤ addr ∧ addr + totalLen frames ≤ s'.tail)
    (hshort : ∀ parts ∈ x.frames, parts.flatten.length < 2 ^ 32) : Coverage s' where
  range := by
    intro w' frames slot reserved addr hw'
    by_cases hw : w' = w
    · subst hw
      exact hrange (hself.symm.trans hw')
    · have := hi.range ((hother w' hw).symm.trans hw')
      exact ⟨this.1, this.2.trans hadv.tail⟩
  short := by
    intro w' parts hmem
    by_cases hw : w' = w
    · subst hw
      exact hshort parts (hself ▸ hmem)
    · exact hi.short (hother w' hw ▸ hmem)
  covered := hadv.covered hi
  reader := fun r => hreader ▸ hadv.sound (hi.reader r)

lemma WriterMove.keepsCoverage (h : WriterMove cfg s w s') (hi : Coverage s) : Coverage s' := by
  have hadv := h.advances hi
  have short {y : Writer} (hw : s.writer w = y) : ∀ parts ∈ y.frames, parts.flatten.length < 2 ^ 32 :=
    fun parts hmem => hi.short (hw.symm ▸ hmem)
  cases h with
  | reload hw | claim hw | check hw | casFail hw | republish hw =>
    have hshort := short hw
    exact hi.change hadv (setWriter_self ..) (fun _ => setWriter_of_ne _ _)
      rfl nofun hshort
  | full | release =>
    exact hi.change hadv (setWriter_self ..) (fun _ => setWriter_of_ne _ _)
      rfl nofun nofun
  | cas hw =>
    have hshort := short hw
    refine hi.change hadv (setWriter_self ..) (fun _ => setWriter_of_ne _ _)
      rfl ?_ hshort
    rintro _ _ _ _ ⟨⟩
    exact ⟨le_rfl, le_rfl⟩
  | write hw =>
    rename_i parts frames slot reserved addr
    have hlen : recordHeaderLen + (cfg.checksum.forPayloadParts parts).payloadLen = frameLen parts :=
      headerLen_eq (short hw parts List.mem_cons_self)
    refine hi.change hadv (setWriter_self ..) (fun _ => setWriter_of_ne _ _)
      rfl ?_ fun parts' hmem => short hw parts' (List.mem_cons_of_mem _ hmem)
    rintro _ _ _ _ ⟨⟩
    have hrange : reserved ≤ addr ∧ addr + (frameLen parts + totalLen frames) ≤ s.tail := hi.range hw
    have hend : addr + frameLen parts + totalLen frames ≤ s.tail := by omega
    rw [hlen]
    exact ⟨by omega, hend⟩

lemma Frame.keepsCoverage (h : Frame cfg s s') (hi : Coverage s) : Coverage s' := by
  have hadv : Advances s s' := by
    refine .of_writing h.tail h.written fun {w frames slot reserved addr} hw _ => ?_
    obtain hsame | ⟨hfree, -⟩ := h.writer w
    · rw [hsame, hw]
    · rw [hw] at hfree
      cases hfree
  refine ⟨fun hw => ?_, fun {w parts} hmem => ?_, hadv.covered hi, fun r => ?_⟩
  · exact h.tail ▸ hi.range (h.writing ⟨nofun, nofun⟩ hw)
  · obtain hw | ⟨-, hw | ⟨frames, haccepted, hw⟩⟩ := h.writer w
    · exact hi.short (hw ▸ hmem)
    · rw [hw] at hmem
      cases hmem
    · rw [hw] at hmem
      exact short_of_accepted haccepted hmem
  · obtain hr | hr := h.reader r
    · exact hr ▸ hadv.sound (hi.reader r)
    · rw [hr]
      trivial

/-- A reader goes one step further. The slot it reads holds a bound of the range of its writer, so what
that writer has still to write lies above the new minimum. -/
lemma readerStep_keepsCoverage {a : ReaderAction} (hs : readerStep cfg s r a = some s')
    (hslots : Slots cfg s) (hi : Coverage s) : Coverage s' := by
  have change {x : Reader} (hx : x.Sound s) : Coverage (s.setReader r x) :=
    { hi with
      reader := fun r' => by
        obtain ⟨-, hr⟩ | hr := s.setReader_cases x r'
        · rw [hr]
          cases x <;> exact hx
        · rw [hr]
          cases hr' : s.reader r' <;> exact hr' ▸ hi.reader r' }
  unfold readerStep at hs
  split at hs
  · cases hs
    exact change ⟨le_rfl, hi.covered⟩
  · rename_i next least hr
    obtain ⟨hle, hbelow⟩ : least ≤ s.tail ∧ ∀ a < least, s.written a = true ∨ Unwritten s next a := by
      have := hi.reader r
      rwa [hr] at this
    split at hs
    · cases hs
      have hmin : (s.slots next).elim least (min least) ≤ least := by
        cases s.slots next with
        | none => exact le_rfl
        | some => exact min_le_left ..
      refine change ⟨hmin.trans hle, fun a ha => ?_⟩
      refine (hbelow a (ha.trans_le hmin)).imp_right ?_
      rintro ⟨w, frames, slot, reserved, addr, hw, hn, hlo, hhi⟩
      have hne : slot ≠ next := by
        rintro rfl
        have hbound : s.slots slot = some reserved := (hslots.held (congrArg Writer.slot? hw)).2
        rw [hbound] at ha
        have hlt : a < min least reserved := ha
        have := (hi.range hw).1
        omega
      exact ⟨w, frames, slot, reserved, addr, hw, by omega, hlo, hhi⟩
    · cases hs
      refine change ⟨hle, fun a ha => (hbelow a ha).resolve_right ?_⟩
      rintro ⟨w, frames, slot, reserved, addr, hw, hn, -⟩
      have : slot < cfg.inflightSlots := (hslots.held (congrArg Writer.slot? hw)).1
      omega
  · cases hs

/-! ### Reservations -/

variable {reservations : List (Nat × List Parts)}

lemma Contiguous.end_le {lo hi : Nat}
    (h : Contiguous lo reservations hi) : ∀ p ∈ reservations, p.1 + totalLen p.2 ≤ hi := by
  induction reservations generalizing hi with
  | nil => nofun
  | cons p reservations ih =>
    rintro q (_ | ⟨_, hmem⟩)
    · exact h.1.ge
    · exact (ih h.2 q hmem).trans (h.1 ▸ Nat.le_add_right ..)

/-- Each reservation ends before the next one begins. -/
lemma Contiguous.pairwise {lo hi : Nat}
    (h : Contiguous lo reservations hi) :
    reservations.Pairwise fun later earlier => earlier.1 + totalLen earlier.2 ≤ later.1 := by
  induction reservations generalizing hi with
  | nil => exact .nil
  | cons p reservations ih =>
    refine .cons ?_ (ih h.2)
    exact h.2.end_le

variable {start : Nat}

lemma WriterMove.keepsContiguous (h : WriterMove cfg s w s')
    (hi : Contiguous start s.reservations s.tail) : Contiguous start s'.reservations s'.tail := by
  cases h with
  | cas => exact ⟨rfl, hi⟩
  | reload | claim | check | full | casFail | republish | write | release => exact hi

/-! ### Every run -/

structure TailInv (cfg : Config) (start : Nat) (s : State W R) : Prop where
  slots : Slots cfg s
  coverage : Coverage s
  contiguous : Contiguous start s.reservations s.tail

lemma TailInv.opened (h : Opened cfg s) : TailInv cfg s.tail s where
  slots :=
    have hnone (w : Option W) : (s.writer w).slot? = none := by rw [h.writer w]; rfl
    ⟨fun {w} _ _ hslot => absurd ((hnone w).symm.trans hslot) nofun,
      fun {w} _ _ _ _ hslot => absurd ((hnone w).symm.trans hslot) nofun⟩
  coverage :=
    { range := fun {w} _ _ _ _ hw => by
        rw [h.writer w] at hw
        cases hw
      short := fun {w} _ hmem => by
        rw [h.writer w] at hmem
        cases hmem
      covered := fun a ha => .inl ((h.written a).2 ha)
      reader := fun r => by
        rw [h.reader r]
        trivial }
  contiguous := by
    rw [h.reservations]
    rfl

lemma TailInv.frame (hi : TailInv cfg start s) (h : Frame cfg s s') : TailInv cfg start s' := by
  refine ⟨h.keepsSlots hi.slots, h.keepsCoverage hi.coverage, ?_⟩
  rw [h.reservations, h.tail]
  exact hi.contiguous

lemma TailInv.step (hi : TailInv cfg start s) {a : Action W R}
    (hs : step cfg s a = some s') : TailInv cfg start s' := by
  cases a with
  | enqueue w frames =>
    obtain ⟨⟨hfree, haccepted⟩, ⟨⟩⟩ := Option.ite_none_right_eq_some.1 hs
    exact hi.frame (.setWriter hfree (.inr ⟨frames, haccepted, rfl⟩))
  | writer =>
    have hmove := writerStep_move hs
    exact ⟨hmove.keepsSlots hi.slots, hmove.keepsCoverage hi.coverage,
      hmove.keepsContiguous hi.contiguous⟩
  | reader =>
    have hcov := readerStep_keepsCoverage hs hi.slots hi.coverage
    obtain ⟨x, rfl⟩ := readerStep_eq hs
    exact ⟨hi.slots.keep rfl fun _ => .inl rfl, hcov, hi.contiguous⟩
  | setCookie =>
    cases hs
    exact hi.frame { Frame.refl cfg s with }
  | leader => exact hi.frame (leaderStep_move hs).toFrame

lemma tailInv_of_reachable {s₀ : State W R} (h₀ : Opened cfg s₀)
    (h : Machine.Reachable (step cfg) s₀ s) : TailInv cfg s₀.tail s :=
  h.invariant (I := TailInv cfg s₀.tail) (.opened h₀) fun hi _ hs => hi.step hs

/-- Whoever reads the safe tail gets an address below which everything has been written, and the
ranges that writers reserve follow one another from the tail the log was opened with. -/
theorem safeTail_of_reachable {s₀ s : State W R} (h₀ : Opened cfg s₀)
    (h : Machine.Reachable (step cfg) s₀ s) :
    (∀ r safeTail, s.reader r = .done safeTail →
      safeTail ≤ s.tail ∧ ∀ a < safeTail, s.written a = true) ∧
    Contiguous s₀.tail s.reservations s.tail ∧
    s.reservations.Pairwise fun later earlier => earlier.1 + totalLen earlier.2 ≤ later.1 := by
  have hi := tailInv_of_reachable h₀ h
  refine ⟨fun r safeTail hr => ?_, hi.contiguous, hi.contiguous.pairwise⟩
  have := hi.coverage.reader r
  rwa [hr] at this

/-- A small log for concrete runs. -/
def smallLog : Config where
  checksum := ⟨fun _ => 7, fun _ => by decide⟩
  sectorSize := 4
  bufferSize := 64
  inflightSlots := 2
  begin := 0
  sector_pos := by decide
  buffer_pos := by decide
  buffer_aligned := by decide

/-- Two writers race for the tail; one of them has written its frame when the safe tail is read. -/
theorem safeTail_two_writers :
    ∃ s, Machine.Reachable (step smallLog) (fresh smallLog Bool Unit) s ∧
      (s.reader none = .done 9 ∧ s.tail = 19 ∧ s.written 9 = false) ∧
      ((∀ r safeTail, s.reader r = .done safeTail →
        safeTail ≤ s.tail ∧ ∀ a < safeTail, s.written a = true) ∧
      Contiguous 0 s.reservations s.tail ∧
      s.reservations.Pairwise fun later earlier => earlier.1 + totalLen earlier.2 ≤ later.1) := by
  obtain ⟨s, hs, hobs⟩ := Machine.exists_reachable_of_run (step smallLog)
    (fresh smallLog Bool Unit)
    [.enqueue true [[[1]]], .enqueue false [[[2], [3]]], .writer (some true) (.claim 0),
      .writer (some false) (.claim 1), .writer (some true) .check, .writer (some false) .check,
      .writer (some true) .cas, .writer (some false) .casFail, .writer (some false) .republish,
      .writer (some false) .check, .writer (some false) .cas, .writer (some true) .write,
      .writer (some true) .release, .reader none .readTail, .reader none .readSlot,
      .reader none .readSlot, .reader none .readSlot]
    (fun s => (s.reader none, s.tail, s.written 9)) (.done 9, 19, false) (by decide +kernel)
  simp only [Prod.mk.injEq] at hobs
  exact ⟨s, hs, hobs, safeTail_of_reachable (opened_fresh smallLog) hs⟩

end Wedb.Wal
