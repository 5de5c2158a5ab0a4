import Wedb.Wal.Log

/-!
# Moves of the log

What each step of a writer, a reader and the leader does and needs, so that no invariant has to look
into the step functions.
-/

set_option linter.unusedSectionVars false

namespace Wedb.Wal

variable {W R : Type*} [DecidableEq W] [DecidableEq R] {cfg : Config} {s s' : State W R}
  {w w' : Option W} {r : Option R}

/-- The moves of a writer, with what each of them needs. -/
inductive WriterMove (cfg : Config) (s : State W R) (w : Option W) : State W R → Prop
  | reload {frames : List Parts} {tail : Nat} (hw : s.writer w = .loaded frames tail) :
      WriterMove cfg s w (s.setWriter w (.loaded frames s.tail))
  | claim {frames : List Parts} {tail slot : Nat} (hw : s.writer w = .loaded frames tail)
      (hlt : slot < cfg.inflightSlots) (hfree : s.slots slot = none) :
      WriterMove cfg s w ((s.setSlot slot (some tail)).setWriter w (.claimed frames slot tail))
  | check {frames : List Parts} {slot tail : Nat} (hw : s.writer w = .claimed frames slot tail)
      (hfits : fits cfg s.flushed tail (totalLen frames) = true) :
      WriterMove cfg s w (s.setWriter w (.checked frames slot tail))
  | full {frames : List Parts} {slot tail : Nat} (hw : s.writer w = .claimed frames slot tail) :
      WriterMove cfg s w ((s.setSlot slot none).setWriter w .full)
  | cas {frames : List Parts} {slot : Nat} (hw : s.writer w = .checked frames slot s.tail) :
      WriterMove cfg s w (s.reserve w frames slot)
  | casFail {frames : List Parts} {slot tail : Nat} (hw : s.writer w = .checked frames slot tail) :
      WriterMove cfg s w (s.setWriter w (.lost frames slot tail s.tail))
  | republish {frames : List Parts} {slot published tail : Nat}
      (hw : s.writer w = .lost frames slot published tail) :
      WriterMove cfg s w ((s.setSlot slot (some tail)).setWriter w (.claimed frames slot tail))
  | write {parts : Parts} {frames : List Parts} {slot reserved addr : Nat}
      (hw : s.writer w = .writing (parts :: frames) slot reserved addr) :
      WriterMove cfg s w ((s.writeFrame cfg parts addr).setWriter w (.writing frames slot reserved
        (addr + (recordHeaderLen + (cfg.checksum.forPayloadParts parts).payloadLen))))
  | release {slot reserved addr : Nat} (hw : s.writer w = .writing [] slot reserved addr) :
      WriterMove cfg s w ((s.setSlot slot none).setWriter w (.done reserved))

lemma writerStep_move {a : WriterAction} (hs : writerStep cfg s w a = some s') :
    WriterMove cfg s w s' := by
  unfold writerStep at hs
  split at hs
  · cases hs
    exact .reload ‹_›
  · obtain ⟨⟨hlt, hfree⟩, ⟨⟩⟩ := Option.ite_none_right_eq_some.1 hs
    exact .claim ‹_› hlt hfree
  · split at hs
    · cases hs
      exact .check ‹_› ‹_›
    · cases hs
      exact .full ‹_›
  · obtain ⟨htail, ⟨⟩⟩ := Option.ite_none_right_eq_some.1 hs
    subst htail
    exact .cas ‹_›
  · cases hs
    exact .casFail ‹_›
  · cases hs
    exact .republish ‹_›
  · cases hs
    exact .write ‹_›
  · cases hs
    exact .release ‹_›
  · cases hs

lemma readerStep_eq {a : ReaderAction} (hs : readerStep cfg s r a = some s') :
    ∃ x, s' = s.setReader r x := by
  unfold readerStep at hs
  split at hs
  · exact ⟨_, (Option.some.inj hs).symm⟩
  · split at hs <;> exact ⟨_, (Option.some.inj hs).symm⟩
  · cases hs

/-- The moves of the leader. -/
inductive LeaderMove (cfg : Config) (s : State W R) : State W R → Prop
  | frame {target : Nat} (hl : s.leader = .idle)
      (htarget : target ≤ s.tail ∨ target ≤ s.committed + 1) :
      LeaderMove cfg s { s with leader := .framing s.committed target 0 s.pendingCookie }
  | skipFrame {target : Nat} (hl : s.leader = .idle) (hframe : target ≤ s.lastCommitFrame) :
      LeaderMove cfg s { s.setReader none .idle with leader := .clamping s.committed target }
  | enqueueCommit {committedIn goal spins : Nat} {cookie : Int}
      (hl : s.leader = .framing committedIn goal spins cookie) (hw : s.writer none = .idle)
      (haccepted : accepted cfg [[(CommitMeta.mk cfg.begin cookie).encodePayload]] = true) :
      LeaderMove cfg s
        (s.setWriter none (.loaded [[(CommitMeta.mk cfg.begin cookie).encodePayload]] s.tail))
  | tooLarge {committedIn goal spins : Nat} {cookie : Int}
      (hl : s.leader = .framing committedIn goal spins cookie) (hw : s.writer none = .idle) :
      LeaderMove cfg s { s with leader := .idle }
  | frameDone {committedIn goal spins frameAddr : Nat} {cookie : Int}
      (hl : s.leader = .framing committedIn goal spins cookie) (hw : s.writer none = .done frameAddr) :
      LeaderMove cfg s { (s.setWriter none .idle).setReader none .idle with
        lastCommitFrame := frameAddr + commitFrameTotalLen
        lastCommitCookie := cookie
        lastCommitBegin := cfg.begin
        leader := .clamping committedIn (max goal (frameAddr + commitFrameTotalLen)) }
  | frameFull {committedIn goal spins : Nat} {cookie : Int}
      (hl : s.leader = .framing committedIn goal spins cookie) (hw : s.writer none = .full) :
      LeaderMove cfg s { (s.setWriter none .idle).setReader none .idle with
        leader :=
          if commitFrameSpinLimit ≤ spins then .idle else .evicting committedIn goal (spins + 1) cookie }
  | evict {committedIn goal spins safeTail : Nat} {cookie : Int}
      (hl : s.leader = .evicting committedIn goal spins cookie) (hr : s.reader none = .done safeTail) :
      LeaderMove cfg s { s with
        leader := if s.flushed < safeTail then
            .flushing safeTail .start (.retryFrame committedIn goal spins cookie)
          else .framing committedIn goal spins cookie }
  | clamp {committedIn goal safeTail : Nat} (hl : s.leader = .clamping committedIn goal)
      (hr : s.reader none = .done safeTail) :
      LeaderMove cfg s { s with leader := clampTo s committedIn goal safeTail }
  | sample (hl : s.leader = .idle) :
      LeaderMove cfg s { s.setReader none .idle with leader := .sampling }
  | flushTo {upto safeTail : Nat} (hl : s.leader = .sampling) (hr : s.reader none = .done safeTail) :
      LeaderMove cfg s { s with
        leader := if s.flushed < upto ∧ upto ≤ safeTail then .flushing upto .start .stop else .idle }
  | fill {upto : Nat} {after : After} (hl : s.leader = .flushing upto .start after) :
      LeaderMove cfg s { s with leader := .flushing upto (.filled (s.flushBuffer cfg upto)) after }
  | deviceWrite {upto : Nat} {buf : List Byte} {after : After}
      (hl : s.leader = .flushing upto (.filled buf) after) :
      LeaderMove cfg s { s with
        device := Ring.copy s.device (s.flushStart cfg) buf
        leader := .flushing upto .written after }
  | deviceFail {upto : Nat} {buf : List Byte} {after : After} (taken : Nat → Bool)
      (hl : s.leader = .flushing upto (.filled buf) after) :
      LeaderMove cfg s { s with
        device := fun a => if taken a then Ring.copy s.device (s.flushStart cfg) buf a else s.device a
        leader := .idle }
  | syncFail {upto : Nat} {after : After} (hl : s.leader = .flushing upto .written after) :
      LeaderMove cfg s { s with leader := .idle }
  | store {upto : Nat} {after : After} (hl : s.leader = .flushing upto .written after) :
      LeaderMove cfg s { s with flushed := upto, leader := after.leader }
  | publish {commitTo goal : Nat} (hl : s.leader = .publishing commitTo goal) :
      LeaderMove cfg s { s with
        committed := commitTo
        leader := if commitTo < goal then .flushing goal .start .stop else .idle }

lemma leaderStep_move {a : LeaderAction} (hs : leaderStep cfg s a = some s') :
    LeaderMove cfg s s' := by
  unfold leaderStep at hs
  split at hs
  · obtain ⟨htarget, hs⟩ := Option.ite_none_right_eq_some.1 hs
    split at hs
    · cases hs
      exact .frame ‹_› htarget
    · rename_i hframe
      cases hs
      exact .skipFrame ‹_› (Nat.le_of_not_lt fun hlt => hframe (.inl hlt))
  · obtain ⟨hw, hs⟩ := Option.ite_none_right_eq_some.1 hs
    dsimp only at hs
    split at hs
    · cases hs
      exact .enqueueCommit ‹_› hw ‹_›
    · cases hs
      exact .tooLarge ‹_› hw
  · split at hs
    · cases hs
      exact .frameDone ‹_› ‹_›
    · cases hs
  · obtain ⟨hw, ⟨⟩⟩ := Option.ite_none_right_eq_some.1 hs
    exact .frameFull ‹_› hw
  · split at hs
    · cases hs
      exact .evict ‹_› ‹_›
    · cases hs
  · split at hs
    · cases hs
      exact .clamp ‹_› ‹_›
    · cases hs
  · cases hs
    exact .sample ‹_›
  · split at hs
    · cases hs
      exact .flushTo ‹_› ‹_›
    · cases hs
  · cases hs
    exact .fill ‹_›
  · cases hs
    exact .deviceWrite ‹_›
  · cases hs
    exact .deviceFail _ ‹_›
  · cases hs
    exact .syncFail ‹_›
  · cases hs
    exact .store ‹_›
  · cases hs
    exact .publish ‹_›
  · cases hs

/-- What calls that begin or end leave alone, and every step of the leader. -/
structure Frame (cfg : Config) (s s' : State W R) : Prop where
  tail : s'.tail = s.tail
  slots : s'.slots = s.slots
  ring : s'.ring = s.ring
  records : s'.records = s.records
  reservations : s'.reservations = s.reservations
  written : s'.written = s.written
  writer : ∀ w, s'.writer w = s.writer w ∨ (s.writer w).free = true ∧
    (s'.writer w = .idle ∨ ∃ frames, accepted cfg frames = true ∧ s'.writer w = .loaded frames s.tail)
  reader : ∀ r, s'.reader r = s.reader r ∨ s'.reader r = .idle

namespace State

@[simp]
lemma setWriter_self (s : State W R) (w : Option W) (x : Writer) : (s.setWriter w x).writer w = x :=
  Function.update_self ..

lemma setWriter_of_ne (s : State W R) (x : Writer) (h : w' ≠ w) :
    (s.setWriter w x).writer w' = s.writer w' := Function.update_of_ne h ..

lemma setReader_cases (s : State W R) (x : Reader) (r' : Option R) :
    r' = r ∧ (s.setReader r x).reader r' = x ∨ (s.setReader r x).reader r' = s.reader r' := by
  by_cases h : r' = r
  · subst h
    exact .inl ⟨rfl, Function.update_self ..⟩
  · exact .inr (Function.update_of_ne h ..)

end State

lemma WriterMove.writer_of_ne (h : WriterMove cfg s w s') (hne : w' ≠ w) :
    s'.writer w' = s.writer w' := by
  cases h with
  | cas => exact s.setWriter_of_ne (.writing ..) hne
  | reload | claim | check | full | casFail | republish | write | release =>
    exact State.setWriter_of_ne _ _ hne

namespace Frame

lemma refl (cfg : Config) (s : State W R) : Frame cfg s s :=
  ⟨rfl, rfl, rfl, rfl, rfl, rfl, fun _ => .inl rfl, fun _ => .inl rfl⟩

lemma resetReader (h : Frame cfg s s') : Frame cfg s (s'.setReader none .idle) :=
  { h with
    reader := fun r => by
      obtain ⟨-, hr⟩ | hr := s'.setReader_cases (r := none) .idle r
      · exact .inr hr
      · exact hr ▸ h.reader r }

lemma setWriter {x : Writer} (hfree : (s.writer w).free = true)
    (hx : x = .idle ∨ ∃ frames, accepted cfg frames = true ∧ x = .loaded frames s.tail) :
    Frame cfg s (s.setWriter w x) :=
  { refl cfg s with
    writer := fun w' => by
      by_cases hw : w' = w
      · subst hw
        exact .inr ⟨hfree, by rwa [s.setWriter_self]⟩
      · exact .inl (s.setWriter_of_ne x hw) }

/-- The other writers of frames. -/
lemma writing (h : Frame cfg s s') {x : Writer} (hx : x ≠ .idle ∧ ∀ frames tail, x ≠ .loaded frames tail)
    (hw : s'.writer w = x) : s.writer w = x := by
  obtain hsame | ⟨-, hidle | ⟨frames, -, hloaded⟩⟩ := h.writer w
  · rw [← hsame, hw]
  · exact absurd (hw.symm.trans hidle) hx.1
  · exact absurd (hw.symm.trans hloaded) (hx.2 _ _)

end Frame

/-- The words the leader alone uses do not matter. -/
lemma LeaderMove.toFrame (h : LeaderMove cfg s s') : Frame cfg s s' := by
  have reset := (Frame.refl cfg s).resetReader
  have cleared (hfree : (s.writer none).free = true) :
      Frame cfg s ((s.setWriter none .idle).setReader none .idle) :=
    (Frame.setWriter hfree (.inl rfl)).resetReader
  cases h with
  | skipFrame | sample => exact { reset with }
  | enqueueCommit _ hw haccepted =>
    exact Frame.setWriter (by rw [hw]; rfl) (.inr ⟨_, haccepted, rfl⟩)
  | frameDone _ hw | frameFull _ hw =>
    exact { cleared (by rw [hw]; rfl) with }
  | frame | tooLarge | evict | clamp | flushTo | fill | deviceWrite | deviceFail | syncFail | store
  | publish => exact { Frame.refl cfg s with }

end Wedb.Wal
