import Wedb.Wal.WriteThrough
import Wedb.Wal.RecoverScan

/-!
# Commit witnesses

The leader publishes a committed address only when the commit frame that ends there has been flushed. The
goal of a round is never behind the frame under the cursor, so what is flushed for it ends with the frame
or below it, and below it the committed address stays.
-/

set_option linter.unusedSectionVars false

namespace Wedb.Wal

open List

variable {W R : Type*} [DecidableEq W] [DecidableEq R] {cfg : Config} {s s' : State W R}
  {w : Option W} {start : List (List Byte)} {addr goal : Nat}

/-! ### Witnesses -/

/-- A commit frame ends at the address. -/
def CommitEnd (cfg : Config) (s : State W R) (addr : Nat) : Prop :=
  ∃ before payload after, s.records = before ++ payload :: after ∧ isCommit payload = true ∧
    addr = cfg.begin + recordsLen (before ++ [payload])

/-- The address is the end of the records the log was opened with, or a commit frame ends there. -/
def Witness (cfg : Config) (start : List (List Byte)) (s : State W R) (addr : Nat) : Prop :=
  addr = cfg.begin + recordsLen start ∨ CommitEnd cfg s addr

lemma CommitEnd.append (h : CommitEnd cfg s addr) (more : List (List Byte))
    (hrecords : s'.records = s.records ++ more) : CommitEnd cfg s' addr := by
  obtain ⟨before, payload, after, hsplit, hcommit, haddr⟩ := h
  exact ⟨before, payload, after ++ more, by rw [hrecords, hsplit, append_assoc, cons_append],
    hcommit, haddr⟩

lemma Witness.append (h : Witness cfg start s addr) (more : List (List Byte))
    (hrecords : s'.records = s.records ++ more) : Witness cfg start s' addr :=
  h.imp_right fun h => h.append more hrecords

/-! ### The leader -/

/-- The commit frame on its way: it is reserved behind the goal. -/
def FrameWriter (cfg : Config) (s : State W R) (goal : Nat) : Writer → Prop
  | .idle | .full => goal ≤ s.tail + 1
  | .loaded frames _ | .claimed frames _ _ | .checked frames _ _ | .lost frames _ _ _ =>
    goal ≤ s.tail + 1 ∧ ∃ m : CommitMeta, frames = [[m.encodePayload]]
  | .writing _ _ reserved _ | .done reserved =>
    goal ≤ reserved + 1 ∧ CommitEnd cfg s (reserved + commitFrameTotalLen)

def After.Witnessed (cfg : Config) (start : List (List Byte)) (s : State W R) : After → Prop
  | .stop => True
  | .retryFrame committedIn goal _ _ => committedIn = s.committed ∧ goal ≤ s.tail + 1
  | .publish commitTo _ => Witness cfg start s commitTo

/-- What the leader publishes will have a witness. Its writer works only while it writes a frame. -/
def Leader.Witnessed (cfg : Config) (start : List (List Byte)) (s : State W R) : Leader → Prop
  | .framing committedIn goal _ _ => committedIn = s.committed ∧ FrameWriter cfg s goal (s.writer none)
  | .idle | .sampling => s.writer none = .idle
  | .evicting committedIn goal _ _ =>
    s.writer none = .idle ∧ committedIn = s.committed ∧ goal ≤ s.tail + 1
  | .clamping committedIn goal =>
    s.writer none = .idle ∧ committedIn = s.committed ∧ goal ≤ s.lastCommitFrame
  | .flushing _ _ after => s.writer none = .idle ∧ after.Witnessed cfg start s
  | .publishing commitTo _ => s.writer none = .idle ∧ Witness cfg start s commitTo

structure WitnessInv (cfg : Config) (start : List (List Byte)) (s : State W R) : Prop where
  committed_le : s.committed ≤ s.flushed
  committed : Witness cfg start s s.committed
  cursor : Witness cfg start s s.lastCommitFrame
  leader : s.leader.Witnessed cfg start s
  opened : start <+: s.records
  frames : ∀ {w parts}, parts ∈ (s.writer w).frames → Admissible cfg.bufferSize parts.flatten
  records : ∀ payload ∈ s.records, Admissible cfg.bufferSize payload

lemma FrameWriter.mono {x : Writer} (h : FrameWriter cfg s goal x) (htail : s.tail ≤ s'.tail)
    (more : List (List Byte)) (hrecords : s'.records = s.records ++ more) :
    FrameWriter cfg s' goal x := by
  cases x with
  | idle | full => exact le_trans h (Nat.add_le_add_right htail 1)
  | loaded | claimed | checked | lost => exact ⟨h.1.trans (Nat.add_le_add_right htail 1), h.2⟩
  | writing | done => exact ⟨h.1, h.2.append more hrecords⟩

/-- The log grows, and the words of the leader stay as they are. -/
lemma Leader.Witnessed.mono {l : Leader} (h : l.Witnessed cfg start s) (htail : s.tail ≤ s'.tail)
    (more : List (List Byte)) (hrecords : s'.records = s.records ++ more)
    (hwriter : s'.writer none = s.writer none) (hcommitted : s'.committed = s.committed)
    (hcursor : s'.lastCommitFrame = s.lastCommitFrame) : l.Witnessed cfg start s' := by
  have htail := Nat.add_le_add_right htail 1
  cases l with
  | idle | sampling => exact hwriter.trans h
  | framing =>
    refine ⟨hcommitted ▸ h.1, hwriter ▸ h.2.mono (by omega) more hrecords⟩
  | evicting => exact ⟨hwriter.trans h.1, hcommitted ▸ h.2.1, h.2.2.trans htail⟩
  | clamping => exact ⟨hwriter.trans h.1, hcommitted ▸ h.2.1, hcursor ▸ h.2.2⟩
  | flushing _ _ after =>
    refine ⟨hwriter.trans h.1, ?_⟩
    cases after with
    | stop => trivial
    | retryFrame => exact ⟨hcommitted ▸ h.2.1, h.2.2.trans htail⟩
    | publish => exact h.2.append more hrecords
  | publishing => exact ⟨hwriter.trans h.1, h.2.append more hrecords⟩

/-! ### Writers -/

lemma admissible_of_accepted {frames : List Parts} (h : accepted cfg frames = true) {parts : Parts}
    (hmem : parts ∈ frames) : Admissible cfg.bufferSize parts.flatten := by
  have hall := all_eq_true.1 (Bool.and_eq_true_iff.1 h).1 parts hmem
  have hlen := of_decide_eq_true (Bool.and_eq_true_iff.1 hall).2
  refine ⟨?_, short_of_accepted h hmem⟩
  rw [frameLen] at hlen
  rw [length_flatten]
  omega

section

variable (h : WriterMove cfg s w s')
include h

/-- A writer has no frames but those it began with. -/
lemma WriterMove.frames_subset (w' : Option W) : (s'.writer w').frames ⊆ (s.writer w').frames := by
  have self {t : State W R} {x y : Writer} (hw : s.writer w = y) (ht : t.writer = s.writer)
      (hxy : x.frames ⊆ y.frames) : ((t.setWriter w x).writer w').frames ⊆ (s.writer w').frames := by
    by_cases hww : w' = w
    · subst hww
      rwa [t.setWriter_self, hw]
    · rw [t.setWriter_of_ne x hww, ht]
      exact Subset.refl _
  cases h with
  | reload hw | check hw | casFail hw | claim hw | republish hw => exact self hw rfl (Subset.refl _)
  | full hw | release hw => exact self hw rfl (nil_subset _)
  | cas hw => exact self hw rfl (Subset.refl _)
  | write hw => exact self hw rfl (subset_cons_self ..)

/-- The log after a move of a writer. -/
lemma WriterMove.records_eq :
    s'.records = s.records ∨ ∃ frames slot, s.writer w = .checked frames slot s.tail ∧
      s'.records = s.records ++ frames.map flatten := by
  cases h with
  | cas hw => exact .inr ⟨_, _, hw, rfl⟩
  | reload | check | casFail | claim | republish | full | release | write => exact .inl rfl

lemma WriterMove.exists_more : ∃ more, s'.records = s.records ++ more := by
  obtain hsame | ⟨frames, slot, -, hrecords⟩ := h.records_eq
  · exact ⟨[], by rw [hsame, append_nil]⟩
  · exact ⟨_, hrecords⟩

lemma WriterMove.keepsAdmissible (hi : WitnessInv cfg start s) :
    ∀ payload ∈ s'.records, Admissible cfg.bufferSize payload := by
  obtain hsame | ⟨frames, slot, hw, hrecords⟩ := h.records_eq
  · exact hsame ▸ hi.records
  · rw [hrecords]
    intro payload hmem
    obtain hold | hnew := mem_append.1 hmem
    · exact hi.records payload hold
    · obtain ⟨parts, hparts, rfl⟩ := mem_map.1 hnew
      exact hi.frames (by rw [hw]; exact hparts)

omit h in
/-- The frame of the leader takes its place at the end of the log. -/
lemma CommitEnd.reserve (hlength : cfg.begin + (s.bytes cfg).length = s.tail) (m : CommitMeta) (slot : Nat) :
    CommitEnd cfg (s.reserve w [[m.encodePayload]] slot) (s.tail + commitFrameTotalLen) := by
  refine ⟨s.records, m.encodePayload, [], rfl, isCommit_encodePayload m, ?_⟩
  have hrecords : (s.bytes cfg).length = recordsLen s.records := length_frames_eq ..
  have hlast : recordsLen (s.records ++ [m.encodePayload]) = recordsLen s.records + commitFrameTotalLen := by
    simp only [recordsLen, map_append, sum_append]
    rfl
  omega

omit h in
lemma WriterMove.keepsFrameWriter (h : WriterMove cfg s none s') (hplaced : Placed cfg s)
    (hf : FrameWriter cfg s goal (s.writer none)) : FrameWriter cfg s' goal (s'.writer none) := by
  have same {t : State W R} {x : Writer} (hrecords : t.records = s.records) (htail : t.tail = s.tail)
      (hx : FrameWriter cfg s goal x) : FrameWriter cfg (t.setWriter none x) goal ((t.setWriter none x).writer none) := by
    exact hx.mono htail.ge [] (hrecords.trans (append_nil _).symm)
  cases h with
  | reload hw | check hw | casFail hw | claim hw | republish hw | write hw | release hw =>
    rw [hw] at hf
    exact same rfl rfl hf
  | full hw =>
    rw [hw] at hf
    exact same rfl rfl hf.1
  | cas hw =>
    rw [hw] at hf
    obtain ⟨hgoal, m, rfl⟩ := hf
    rename_i slot
    have hself : (s.reserve none [[m.encodePayload]] slot).writer none =
        .writing [[m.encodePayload]] slot s.tail s.tail := s.setWriter_self none (.writing _ slot s.tail s.tail)
    exact ⟨hgoal, .reserve hplaced.length m slot⟩

/-- Only while the leader writes a frame has its writer a move. -/
lemma WriterMove.keepsWitnessed (hcov : Coverage s) (hplaced : Placed cfg s)
    (hi : s.leader.Witnessed cfg start s) : s'.leader.Witnessed cfg start s' := by
  have hadv := h.advances hcov
  have hleader : s'.leader = s.leader := by cases h <;> rfl
  have hcommitted : s'.committed = s.committed := by cases h <;> rfl
  have hcursor : s'.lastCommitFrame = s.lastCommitFrame := by cases h <;> rfl
  obtain ⟨more, hrecords⟩ := h.exists_more
  rw [hleader]
  cases w with
  | some w =>
    have hwriter : s'.writer none = s.writer none := h.writer_of_ne (Option.some_ne_none w).symm
    exact hi.mono hadv.tail more hrecords hwriter hcommitted hcursor
  | none =>
    have hbusy : s.writer none ≠ .idle := by
      intro hidle
      cases h with
      | reload hw | claim hw | check hw | full hw | cas hw | casFail hw | republish hw | write hw
      | release hw => cases hidle.symm.trans hw
    cases hl : s.leader with
    | framing =>
      rw [hl] at hi
      exact ⟨hcommitted ▸ hi.1, h.keepsFrameWriter hplaced hi.2⟩
    | idle | sampling =>
      rw [hl] at hi
      exact absurd hi hbusy
    | evicting | clamping | flushing | publishing =>
      rw [hl] at hi
      exact absurd hi.1 hbusy

end

lemma WitnessInv.writer (hi : WitnessInv cfg start s) (hcov : Coverage s) (hplaced : Placed cfg s)
    (h : WriterMove cfg s w s') : WitnessInv cfg start s' := by
  have hleader := h.keepsWitnessed hcov hplaced hi.leader
  have hrecords := h.keepsAdmissible hi
  have hframes {w' parts} (hmem : parts ∈ (s'.writer w').frames) : Admissible cfg.bufferSize parts.flatten :=
    hi.frames (h.frames_subset w' hmem)
  have hflushed : s'.flushed = s.flushed := by cases h <;> rfl
  have hcommitted : s'.committed = s.committed := by cases h <;> rfl
  have hcursor : s'.lastCommitFrame = s.lastCommitFrame := by cases h <;> rfl
  obtain ⟨more, hmore⟩ := h.exists_more
  exact
    { committed_le := by rw [hcommitted, hflushed]; exact hi.committed_le
      committed := hcommitted ▸ hi.committed.append more hmore
      cursor := hcursor ▸ hi.cursor.append more hmore
      leader := hleader
      opened := hmore ▸ hi.opened.trans (prefix_append ..)
      frames := hframes
      records := hrecords }

/-! ### The leader's moves -/

lemma Frame.keepsFrames (h : Frame cfg s s') (hi : WitnessInv cfg start s) {parts : Parts}
    (hmem : parts ∈ (s'.writer w).frames) : Admissible cfg.bufferSize parts.flatten := by
  obtain hw | ⟨-, hw | ⟨frames, haccepted, hw⟩⟩ := h.writer w
  · exact hi.frames (hw ▸ hmem)
  · rw [hw] at hmem
    cases hmem
  · rw [hw] at hmem
    exact admissible_of_accepted haccepted hmem

/-- The log stays as it is. -/
lemma Frame.keepsWitness (h : Frame cfg s s') (hw : Witness cfg start s addr) :
    Witness cfg start s' addr := hw.append [] (by rw [h.records, append_nil])

/-- A step that leaves the log alone. -/
lemma WitnessInv.frame (hi : WitnessInv cfg start s) (h : Frame cfg s s')
    (hcommitted_le : s'.committed ≤ s'.flushed) (hcommitted : Witness cfg start s s'.committed)
    (hcursor : Witness cfg start s s'.lastCommitFrame) (hleader : s'.leader.Witnessed cfg start s') :
    WitnessInv cfg start s' where
  committed_le := hcommitted_le
  committed := h.keepsWitness hcommitted
  cursor := h.keepsWitness hcursor
  leader := hleader
  opened := h.records ▸ hi.opened
  frames := h.keepsFrames hi
  records := h.records ▸ hi.records

/-- What is published is the commit frame under the cursor: the goal is not behind it, and without it
the committed address stays where it is. -/
lemma clampTo_witnessed {committedIn safeTail : Nat} (hwriter : s.writer none = .idle)
    (hcommittedIn : committedIn ≤ s.flushed) (hgoal : goal ≤ s.lastCommitFrame)
    (hcursor : Witness cfg start s s.lastCommitFrame) :
    (clampTo s committedIn goal safeTail).Witnessed cfg start s := by
  by_cases hframe : s.lastCommitFrame ≤ min goal safeTail ∧ committedIn < s.lastCommitFrame
  · obtain heq : min goal safeTail = s.lastCommitFrame := by omega
    unfold clampTo
    dsimp only
    rw [if_pos hframe, heq]
    split
    · exact ⟨hwriter, hcursor⟩
    · exact hwriter
  · have hnot : ¬s.flushed < min committedIn (min goal safeTail) := by omega
    simp only [clampTo]
    split
    · exact ⟨hwriter, trivial⟩
    · exact hwriter

lemma After.witnessed_leader (after : After) (hwriter : s.writer none = .idle)
    (h : after.Witnessed cfg start s) : after.leader.Witnessed cfg start s := by
  cases after with
  | stop => exact hwriter
  | retryFrame =>
    refine ⟨h.1, ?_⟩
    rw [hwriter]
    exact h.2
  | publish => exact ⟨hwriter, h⟩

lemma WitnessInv.leaderMove (hi : WitnessInv cfg start s) (hcontents : Contents cfg s)
    (h : LeaderMove cfg s s') : WitnessInv cfg start s' := by
  have hframe := h.toFrame
  have hl := hi.leader
  have hsound := hcontents.leader
  have htail := hcontents.flushed.1
  have hle := hi.committed_le
  have cleared : Function.update s.writer none .idle none = .idle := Function.update_self ..
  cases h with
  | frame hleader =>
    rw [hleader] at hl
    refine hi.frame hframe hle hi.committed hi.cursor ⟨rfl, ?_⟩
    rw [hl]
    show _ ≤ s.tail + 1
    omega
  | skipFrame hleader htarget =>
    rw [hleader] at hl
    exact hi.frame hframe hle hi.committed hi.cursor ⟨hl, rfl, htarget⟩
  | enqueueCommit hleader hw =>
    rw [hleader, Leader.Witnessed, hw] at hl
    refine hi.frame hframe hle hi.committed hi.cursor ?_
    show s.leader.Witnessed cfg start _
    rw [hleader]
    refine ⟨hl.1, ?_⟩
    exact ⟨hl.2, _, rfl⟩
  | tooLarge hleader hw => exact hi.frame hframe hle hi.committed hi.cursor hw
  | frameDone hleader hw =>
    rename_i committedIn goal spins frameAddr cookie
    rw [hleader, Leader.Witnessed, hw] at hl
    obtain ⟨hin, hgoal, hend⟩ := hl
    refine hi.frame hframe hle hi.committed (.inr hend) ⟨cleared, hin, ?_⟩
    have : 1 ≤ commitFrameTotalLen := by decide
    show max goal (frameAddr + commitFrameTotalLen) ≤ frameAddr + commitFrameTotalLen
    omega
  | frameFull hleader hw =>
    rw [hleader, Leader.Witnessed, hw] at hl
    refine hi.frame hframe hle hi.committed hi.cursor ?_
    split
    · exact cleared
    · exact ⟨cleared, hl⟩
  | evict hleader hr =>
    rename_i committedIn goal spins safeTail cookie
    rw [hleader] at hl
    refine hi.frame hframe hle hi.committed hi.cursor ?_
    split
    · exact hl
    · exact After.witnessed_leader (.retryFrame committedIn goal spins cookie) hl.1 hl.2
  | clamp hleader =>
    rw [hleader] at hl
    exact hi.frame hframe hle hi.committed hi.cursor
      ((clampTo_witnessed hl.1 (hl.2.1 ▸ hle) hl.2.2 hi.cursor).mono le_rfl [] (append_nil _).symm
        rfl rfl rfl)
  | sample hleader =>
    rw [hleader] at hl
    exact hi.frame hframe hle hi.committed hi.cursor hl
  | flushTo hleader =>
    rw [hleader] at hl
    refine hi.frame hframe hle hi.committed hi.cursor ?_
    split
    · exact ⟨hl, trivial⟩
    · exact hl
  | fill hleader | deviceWrite hleader =>
    rw [hleader] at hl
    exact hi.frame hframe hle hi.committed hi.cursor
      (Leader.Witnessed.mono hl le_rfl [] (append_nil _).symm rfl rfl rfl)
  | deviceFail taken hleader | syncFail hleader =>
    rw [hleader] at hl
    exact hi.frame hframe hle hi.committed hi.cursor hl.1
  | store hleader =>
    rw [hleader] at hl hsound
    refine hi.frame hframe (hle.trans hsound.1.le) hi.committed hi.cursor ?_
    exact (After.witnessed_leader _ hl.1 hl.2).mono le_rfl [] (append_nil _).symm rfl rfl rfl
  | publish hleader =>
    rw [hleader] at hl hsound
    obtain ⟨rfl, hgoal⟩ := hsound
    refine hi.frame hframe le_rfl hl.2 hi.cursor ?_
    split
    · exact ⟨hl.1, trivial⟩
    · exact hl.1

/-! ### Every run -/

lemma WitnessInv.ofOpened (h : Opened cfg s)
    (hrecords : ∀ payload ∈ s.records, Admissible cfg.bufferSize payload) :
    WitnessInv cfg s.records s := by
  have htail : s.tail = cfg.begin + recordsLen s.records := by
    rw [h.tail, State.bytes, length_frames_eq]
  exact
    { committed_le := (h.committed.trans h.flushed.symm).le
      committed := .inl (h.committed.trans htail)
      cursor := .inl (h.lastCommitFrame.trans htail)
      leader := by
        rw [h.leader]
        exact h.writer none
      opened := prefix_rfl
      frames := fun {w parts} hmem => by
        rw [h.writer w] at hmem
        cases hmem
      records := hrecords }

lemma WitnessInv.step (hi : WitnessInv cfg start s) {tail : Nat} (hflush : FlushInv cfg tail s)
    {a : Action W R} (hs : step cfg s a = some s') : WitnessInv cfg start s' := by
  cases a with
  | enqueue w frames =>
    obtain ⟨⟨hfree, haccepted⟩, ⟨⟩⟩ := Option.ite_none_right_eq_some.1 hs
    have hframe : Frame cfg s (s.setWriter (some w) (.loaded frames s.tail)) :=
      .setWriter hfree (.inr ⟨frames, haccepted, rfl⟩)
    refine hi.frame hframe hi.committed_le hi.committed hi.cursor ?_
    exact hi.leader.mono le_rfl [] (append_nil _).symm
      (s.setWriter_of_ne _ (Option.some_ne_none w).symm) rfl rfl
  | writer => exact hi.writer hflush.coverage hflush.placed (writerStep_move hs)
  | reader =>
    obtain ⟨x, rfl⟩ := readerStep_eq hs
    exact { hi with
      leader := hi.leader.mono le_rfl [] (append_nil _).symm rfl rfl rfl }
  | setCookie =>
    cases hs
    exact { hi with
      leader := hi.leader.mono le_rfl [] (append_nil _).symm rfl rfl rfl }
  | leader => exact hi.leaderMove hflush.contents (leaderStep_move hs)

lemma witnessInv_of_reachable {s₀ : State W R} (h₀ : Opened cfg s₀)
    (hrecords : ∀ payload ∈ s₀.records, Admissible cfg.bufferSize payload)
    (h : Machine.Reachable (step cfg) s₀ s) : WitnessInv cfg s₀.records s := by
  have hboth : FlushInv cfg s₀.tail s ∧ WitnessInv cfg s₀.records s :=
    h.invariant (I := fun s => FlushInv cfg s₀.tail s ∧ WitnessInv cfg s₀.records s)
      ⟨.opened h₀, .ofOpened h₀ hrecords⟩ fun hi _ hs => ⟨hi.1.step hs, hi.2.step hi.1 hs⟩
  exact hboth.2

end Wedb.Wal
