import Wedb.Wal.SafeTail

/-!
# Write-through

Below the flushed address the device holds the frames of the log, and from the start of the sector of
the flushed address on the ring holds every byte that has been written. A reservation is accepted only
when its end lies within one buffer of that start, so the addresses in use have cells of their own.
-/

set_option linter.unusedSectionVars false

namespace Wedb.Wal

open List Checksum Ring

variable {W R : Type*} [DecidableEq W] [DecidableEq R] {cfg : Config} {s s' : State W R}
  {w : Option W} {r : Option R}

/-! ### Copies to and from the ring -/

variable {parts : Parts}

section RingBuffer

variable {cap : Nat} (hcap : 0 < cap) {ring : Nat → Byte} {a : Nat}
include hcap

lemma copyToRing_eq_put {src : List Byte} (h : src.length ≤ cap) :
    copyToRing cap ring a src = put cap ring a src := by
  simp only [copyToRing]
  split
  · exact copy_eq_put ‹_› ring
  · exact copy_copy_eq_put hcap (Nat.lt_of_not_le ‹_›) h ring

lemma copyRingTo_eq_get {len : Nat} (h : len ≤ cap) :
    copyRingTo cap ring a len = get cap ring a len := by
  simp only [copyRingTo]
  split
  · exact load_eq_get ‹_› ring
  · exact load_append_eq_get hcap (Nat.lt_of_not_le ‹_›) h ring

lemma writeParts_eq_put (h : parts.flatten.length ≤ cap) :
    writeParts cap ring a parts = put cap ring a parts.flatten := by
  induction parts generalizing ring a with
  | nil => rfl
  | cons part parts ih =>
    rw [flatten_cons, length_append] at h
    have hpart : (if part.isEmpty then ring else copyToRing cap ring a part) =
        put cap ring a part := by
      cases part with
      | nil => rfl
      | cons => exact copyToRing_eq_put hcap (by omega)
    rw [writeParts, hpart, ih (by omega), flatten_cons, put_append]

/-- In one piece or part by part, the record ends up at its address. -/
lemma writeRecordParts_eq_put {header : List Byte}
    (hheader : header.length = recordHeaderLen) (h : frameLen parts ≤ cap) :
    writeRecordParts cap ring a header parts = put cap ring a (header ++ parts.flatten) := by
  rw [frameLen, ← length_flatten] at h
  have hlen : (header ++ parts.flatten).length = recordHeaderLen + parts.flatten.length := by
    rw [length_append, hheader]
  simp only [writeRecordParts]
  split
  · rename_i hfit
    rw [← length_flatten] at hfit
    exact copy_eq_put (by omega) ring
  · rw [copyToRing_eq_put hcap (by omega), writeParts_eq_put hcap (by omega), put_append, hheader]

end RingBuffer

variable {addr : Nat}

/-- A frame in the ring. -/
lemma State.ring_writeFrame (h : frameLen parts ≤ cfg.bufferSize) :
    (s.writeFrame cfg parts addr).ring =
      put cfg.bufferSize s.ring addr (cfg.checksum.frame parts.flatten) := by
  rw [frame_flatten]
  exact writeRecordParts_eq_put cfg.buffer_pos WalFrameHeader.length_toBytes h

open State

lemma alignDown_le (v align : Nat) : alignDown v align ≤ v := Nat.div_mul_le_self v align

lemma alignDown_mono {v v' : Nat} (h : v ≤ v') (align : Nat) : alignDown v align ≤ alignDown v' align :=
  Nat.mul_le_mul_right _ (Nat.div_le_div_right h)

lemma lt_alignDown_add {align : Nat} (h : 0 < align) (v : Nat) : v < alignDown v align + align := by
  exact Nat.lt_div_mul_add h

/-! ### What a writer has still to write -/

/-- An address a writer has reserved and has still to write. -/
def Writer.Pending (a : Nat) : Writer → Prop
  | .writing frames _ _ addr => addr ≤ a ∧ a < addr + totalLen frames
  | _ => False

/-- What is still to be written has one writer and is not written yet. -/
structure Exclusive (s : State W R) : Prop where
  below : ∀ a, s.written a = true → a < s.tail
  pending : ∀ w a, (s.writer w).Pending a → a < s.tail ∧ s.written a = false
  owner : ∀ {w w' a}, (s.writer w).Pending a → (s.writer w').Pending a → w = w'

/-- Nothing new is to be written. -/
lemma Exclusive.keep (hi : Exclusive s) (htail : s'.tail = s.tail) (hwritten : s'.written = s.written)
    (h : ∀ w a, (s'.writer w).Pending a → (s.writer w).Pending a) : Exclusive s' where
  below := fun a ha => htail ▸ hi.below a (hwritten ▸ ha)
  pending := fun w a ha => by
    rw [htail, hwritten]
    exact hi.pending w a (h w a ha)
  owner := fun h₁ h₂ => hi.owner (h _ _ h₁) (h _ _ h₂)

variable {a : Nat} {x : Writer}

lemma pending_setWriter {w' : Option W}
    (h : ((s.setWriter w x).writer w').Pending a) :
    w' = w ∧ x.Pending a ∨ w' ≠ w ∧ (s.writer w').Pending a := by
  by_cases hw : w' = w
  · subst hw
    exact .inl ⟨rfl, s.setWriter_self w' x ▸ h⟩
  · exact .inr ⟨hw, s.setWriter_of_ne x hw ▸ h⟩

lemma WriterMove.keepsExclusive (h : WriterMove cfg s w s') (hcov : Coverage s) (hi : Exclusive s) :
    Exclusive s' := by
  have quiet {x : Writer} (hx : ∀ a, ¬x.Pending a) (w' : Option W) (a : Nat)
      (ha : ((s.setWriter w x).writer w').Pending a) : (s.writer w').Pending a := by
    obtain ⟨-, ha⟩ | ⟨-, ha⟩ := pending_setWriter ha
    · exact absurd ha (hx a)
    · exact ha
  cases h with
  | reload | claim | check | full | casFail | republish | release =>
    exact hi.keep rfl rfl (quiet fun _ => id)
  | cas hw =>
    rename_i frames slot
    have back {w' a} (ha : ((s.reserve w frames slot).writer w').Pending a) :
        w' = w ∧ s.tail ≤ a ∧ a < s.tail + totalLen frames ∨ w' ≠ w ∧ (s.writer w').Pending a :=
      pending_setWriter ha
    refine ⟨fun a ha => (hi.below a ha).trans_le (Nat.le_add_right ..), fun w' a ha => ?_,
      fun {w₁ w₂ a} h₁ h₂ => ?_⟩
    · obtain ⟨-, hge, hlt⟩ | ⟨-, ha⟩ := back ha
      · refine ⟨hlt, Bool.eq_false_iff.2 fun hwritten => ?_⟩
        exact absurd (hi.below a hwritten) (Nat.not_lt.2 hge)
      · exact ⟨(hi.pending w' a ha).1.trans_le (Nat.le_add_right ..), (hi.pending w' a ha).2⟩
    · obtain ⟨hw₁, hge₁, -⟩ | ⟨-, hold₁⟩ := back h₁ <;>
        obtain ⟨hw₂, hge₂, -⟩ | ⟨-, hold₂⟩ := back h₂
      · rw [hw₁, hw₂]
      · exact absurd (hi.pending w₂ a hold₂).1 (Nat.not_lt.2 hge₁)
      · exact absurd (hi.pending w₁ a hold₁).1 (Nat.not_lt.2 hge₂)
      · exact hi.owner hold₁ hold₂
  | write hw =>
    rename_i parts frames slot reserved addr
    rw [headerLen_eq (hcov.short (by rw [hw]; exact mem_cons_self))]
    have hself {a} (hlo : addr ≤ a) (hhi : a < addr + (frameLen parts + totalLen frames)) :
        (s.writer w).Pending a := by
      rw [hw]
      exact ⟨hlo, hhi⟩
    -- a writer keeps what it had, the one that writes only what comes after the frame
    have back {w' a} (ha : (((s.writeFrame cfg parts addr).setWriter w (.writing frames slot reserved
        (addr + frameLen parts))).writer w').Pending a) :
        (s.writer w').Pending a ∧ (w' = w → addr + frameLen parts ≤ a) := by
      obtain ⟨rfl, hlo, hhi⟩ | ⟨hne, ha⟩ := pending_setWriter ha
      · exact ⟨hself (by omega) (by omega), fun _ => hlo⟩
      · exact ⟨ha, fun heq => absurd heq hne⟩
    refine ⟨fun a ha => ?_, fun w' a ha => ?_, fun h₁ h₂ => hi.owner (back h₁).1 (back h₂).1⟩
    · rcases Bool.or_eq_true_iff.1 ha with ha | ha
      · exact hi.below a ha
      · obtain ⟨hlo, hhi⟩ := Bool.and_eq_true_iff.1 ha
        have hlo := of_decide_eq_true hlo
        have hhi := of_decide_eq_true hhi
        exact (hi.pending w a (hself hlo (by omega))).1
    · obtain ⟨hp, hafter⟩ := back ha
      refine ⟨(hi.pending w' a hp).1, ?_⟩
      show (s.written a || (decide (addr ≤ a) && decide (a < addr + frameLen parts))) = false
      rw [(hi.pending w' a hp).2, Bool.false_or, Bool.and_eq_false_iff]
      by_contra hin
      simp only [decide_eq_false_iff_not, not_or, not_not] at hin
      have heq : w' = w := hi.owner hp (hself hin.1 (by omega))
      have := hafter heq
      omega

lemma Frame.keepsExclusive (h : Frame cfg s s') (hi : Exclusive s) : Exclusive s' := by
  refine hi.keep h.tail h.written fun w a ha => ?_
  obtain hw | ⟨-, hw | ⟨frames, -, hw⟩⟩ := h.writer w
  · exact hw ▸ ha
  · rw [hw] at ha
    exact ha.elim
  · rw [hw] at ha
    exact ha.elim

/-! ### The log and its places -/

/-- The byte of the log at an address. -/
def State.byteAt (cfg : Config) (s : State W R) (a : Nat) : Option Byte :=
  (s.bytes cfg)[a - cfg.begin]?

/-- The frames stand in the log from `addr` on. -/
def Located (cfg : Config) (s : State W R) (addr : Nat) (frames : List Parts) : Prop :=
  cfg.begin ≤ addr ∧
    cfg.checksum.frames (frames.map flatten) <+: (s.bytes cfg).drop (addr - cfg.begin)

/-- What is reserved has its place in the log, and within one buffer of the sector of the flushed
address. -/
structure Placed (cfg : Config) (s : State W R) : Prop where
  length : cfg.begin + (s.bytes cfg).length = s.tail
  checked : ∀ {w frames slot tail}, s.writer w = .checked frames slot tail →
    tail + totalLen frames ≤ alignDown s.flushed cfg.sectorSize + cfg.bufferSize
  window : s.tail ≤ alignDown s.flushed cfg.sectorSize + cfg.bufferSize
  writing : ∀ {w frames slot reserved addr}, s.writer w = .writing frames slot reserved addr →
    Located cfg s addr frames
  reserved : ∀ p ∈ s.reservations, Located cfg s p.1 p.2

lemma length_frames (c : Checksum) (frames : List Parts) :
    (c.frames (frames.map flatten)).length = totalLen frames := by
  induction frames with
  | nil => rfl
  | cons parts frames ih =>
    rw [map_cons, frames_cons, length_append, length_frame, ih, totalLen_cons,
      frameLen, length_flatten]

variable {frames : List Parts}

/-- The log grows at its end. -/
lemma Located.append (h : Located cfg s addr frames)
    (more : List (List Byte)) (hrecords : s'.records = s.records ++ more) :
    Located cfg s' addr frames := by
  refine ⟨h.1, h.2.trans ?_⟩
  rw [bytes, bytes, hrecords, frames_append, drop_append]
  exact prefix_append ..

lemma Located.congr (h : Located cfg s addr frames)
    (hrecords : s'.records = s.records) : Located cfg s' addr frames :=
  h.append [] (by rw [hrecords, append_nil])

/-- The frames behind the first one. -/
lemma Located.tail
    (h : Located cfg s addr (parts :: frames)) : Located cfg s (addr + frameLen parts) frames := by
  obtain ⟨hge, rest, hrest⟩ := h
  have hlen : (cfg.checksum.frame parts.flatten).length = frameLen parts := by
    rw [length_frame, frameLen, length_flatten]
  refine ⟨hge.trans (Nat.le_add_right ..), rest, ?_⟩
  rw [map_cons, frames_cons, append_assoc] at hrest
  rw [show addr + frameLen parts - cfg.begin = addr - cfg.begin + frameLen parts by omega,
    ← drop_drop, ← hrest, ← hlen, drop_left]

/-- The byte of a frame that has its place. -/
lemma Located.byteAt (h : Located cfg s addr (parts :: frames)) {k : Nat}
    (hk : k < (cfg.checksum.frame parts.flatten).length) :
    s.byteAt cfg (addr + k) = some (cfg.checksum.frame parts.flatten)[k] := by
  obtain ⟨hge, rest, hrest⟩ := h
  rw [map_cons, frames_cons, append_assoc] at hrest
  rw [State.byteAt, show addr + k - cfg.begin = addr - cfg.begin + k by omega, ← getElem?_drop,
    ← hrest, getElem?_append_left hk, getElem?_eq_getElem hk]

/-- What is in the log below its end stays where it is. -/
lemma byteAt_append (h : a < cfg.begin + (s.bytes cfg).length) (hge : cfg.begin ≤ a)
    {more : List (List Byte)} (hrecords : s'.records = s.records ++ more) :
    s'.byteAt cfg a = s.byteAt cfg a := by
  have hlt : a - cfg.begin < (cfg.checksum.frames s.records).length := by
    have : (s.bytes cfg).length = (cfg.checksum.frames s.records).length := rfl
    omega
  rw [byteAt, byteAt, bytes, bytes, hrecords, frames_append, getElem?_append_left hlt]

/-- One writer changes and the log may grow at its end. -/
lemma Placed.change (hi : Placed cfg s) (more : List (List Byte))
    (hrecords : s'.records = s.records ++ more)
    (htail : s'.tail = s.tail + (cfg.checksum.frames more).length) (hflushed : s'.flushed = s.flushed)
    (hwindow : s'.tail ≤ alignDown s.flushed cfg.sectorSize + cfg.bufferSize)
    (hreserved : ∀ p ∈ s'.reservations, p ∈ s.reservations ∨ Located cfg s' p.1 p.2)
    (hself : s'.writer w = x) (hother : ∀ w', w' ≠ w → s'.writer w' = s.writer w')
    (hchecked : ∀ frames slot tail, x = .checked frames slot tail →
      tail + totalLen frames ≤ alignDown s.flushed cfg.sectorSize + cfg.bufferSize)
    (hwriting : ∀ frames slot reserved addr, x = .writing frames slot reserved addr →
      Located cfg s' addr frames) : Placed cfg s' where
  length := by
    rw [bytes, hrecords, frames_append, length_append, htail, ← hi.length, add_assoc]
    rfl
  checked := by
    intro w' frames slot tail hw'
    rw [hflushed]
    by_cases hw : w' = w
    · subst hw
      exact hchecked _ _ _ (hself.symm.trans hw')
    · exact hi.checked ((hother w' hw).symm.trans hw')
  window := hflushed ▸ hwindow
  writing := by
    intro w' frames slot reserved addr hw'
    by_cases hw : w' = w
    · subst hw
      exact hwriting _ _ _ _ (hself.symm.trans hw')
    · exact (hi.writing ((hother w' hw).symm.trans hw')).append more hrecords
  reserved := fun p hp =>
    (hreserved p hp).elim (fun hp => (hi.reserved p hp).append more hrecords) id

/-- One writer changes and the log stays as it is. -/
lemma Placed.setWriter (hi : Placed cfg s) (hrecords : s'.records = s.records)
    (htail : s'.tail = s.tail) (hflushed : s'.flushed = s.flushed)
    (hreservations : s'.reservations = s.reservations)
    (hself : s'.writer w = x) (hother : ∀ w', w' ≠ w → s'.writer w' = s.writer w')
    (hchecked : ∀ frames slot tail, x = .checked frames slot tail →
      tail + totalLen frames ≤ alignDown s.flushed cfg.sectorSize + cfg.bufferSize)
    (hwriting : ∀ frames slot reserved addr, x = .writing frames slot reserved addr →
      Located cfg s' addr frames) : Placed cfg s' :=
  hi.change [] (by rw [hrecords, append_nil]) (by rw [htail]; rfl) hflushed (htail ▸ hi.window)
    (fun _ hp => .inl (hreservations ▸ hp)) hself hother hchecked hwriting

lemma WriterMove.keepsPlaced (h : WriterMove cfg s w s') (hcov : Coverage s) (hi : Placed cfg s) :
    Placed cfg s' := by
  cases h with
  | reload | casFail | claim | republish | full | release =>
    exact hi.setWriter rfl rfl rfl rfl (setWriter_self ..) (fun _ => setWriter_of_ne _ _)
      nofun nofun
  | check hw hfits =>
    refine hi.setWriter rfl rfl rfl rfl (setWriter_self ..) (fun _ => setWriter_of_ne _ _) ?_ nofun
    rintro _ _ _ ⟨⟩
    simp only [fits, decide_eq_true_eq] at hfits
    omega
  | cas hw =>
    rename_i frames slot
    have hnew : Located cfg (s.reserve w frames slot) s.tail frames := by
      refine ⟨hi.length ▸ Nat.le_add_right .., ?_⟩
      have hdrop : s.tail - cfg.begin = (cfg.checksum.frames s.records).length := by
        rw [← hi.length]
        exact Nat.add_sub_cancel_left _ _
      rw [bytes, reserve, frames_append, hdrop]
      exact ⟨[], by rw [append_nil, drop_left]⟩
    refine hi.change (frames.map flatten) rfl ?_ rfl (hi.checked hw) ?_ (setWriter_self ..)
      (fun _ => setWriter_of_ne _ _) nofun ?_
    · rw [length_frames]
      rfl
    · rintro p (_ | ⟨_, hp⟩)
      · exact .inr hnew
      · exact .inl hp
    · rintro _ _ _ _ ⟨⟩
      exact hnew
  | write hw =>
    rw [headerLen_eq (hcov.short (by rw [hw]; exact mem_cons_self))]
    refine hi.setWriter rfl rfl rfl rfl (setWriter_self ..) (fun _ => setWriter_of_ne _ _)
      nofun ?_
    rintro _ _ _ _ ⟨⟩
    exact (hi.writing hw).tail.congr rfl

/-! ### What ring and device hold -/

/-- The device holds the log up to an address. -/
def OnDevice (cfg : Config) (s : State W R) (upto : Nat) : Prop :=
  ∀ a, cfg.begin ≤ a → a < upto → s.byteAt cfg a = some (s.device a)

/-- Everything below an address is reserved and written. -/
def Settled (s : State W R) (upto : Nat) : Prop :=
  upto ≤ s.tail ∧ ∀ a < upto, s.written a = true

/-- How far a flush has come. -/
def FlushStage.Sound (cfg : Config) (s : State W R) (upto : Nat) : FlushStage → Prop
  | .start => True
  | .filled buf => ∀ a, cfg.begin ≤ a → s.flushStart cfg ≤ a → a < upto →
      s.byteAt cfg a = buf[a - s.flushStart cfg]?
  | .written => OnDevice cfg s upto

def After.Sound (s : State W R) (upto : Nat) : After → Prop
  | .publish commitTo goal => commitTo = upto ∧ Settled s goal
  | _ => True

def Leader.Sound (cfg : Config) (s : State W R) : Leader → Prop
  | .flushing upto stage after =>
    s.flushed < upto ∧ Settled s upto ∧ stage.Sound cfg s upto ∧ after.Sound s upto
  | .publishing commitTo goal => commitTo = s.flushed ∧ Settled s goal
  | _ => True

structure Contents (cfg : Config) (s : State W R) : Prop where
  begin_le : cfg.begin ≤ s.flushed
  flushed : Settled s s.flushed
  device : OnDevice cfg s s.flushed
  ring : ∀ a, cfg.begin ≤ a → s.flushStart cfg ≤ a → s.written a = true →
    s.byteAt cfg a = some (s.ring (a % cfg.bufferSize))
  leader : s.leader.Sound cfg s

lemma Advances.settled (h : Advances s s') {upto : Nat} (hs : Settled s upto) : Settled s' upto :=
  ⟨hs.1.trans h.tail, fun a ha => h.written a (hs.2 a ha)⟩

/-- Writers add to the log and to the ring; what the device holds and what the leader does is not
theirs. -/
lemma Contents.advance (hi : Contents cfg s) (hadv : Advances s s') (hflushed : s'.flushed = s.flushed)
    (hdevice : s'.device = s.device) (hleader : s'.leader = s.leader)
    (hbyte : ∀ a, cfg.begin ≤ a → a < s.tail → s'.byteAt cfg a = s.byteAt cfg a)
    (hring : ∀ a, cfg.begin ≤ a → s.flushStart cfg ≤ a → s'.written a = true →
      s'.byteAt cfg a = some (s'.ring (a % cfg.bufferSize))) : Contents cfg s' := by
  have hstart : s'.flushStart cfg = s.flushStart cfg := by rw [flushStart, flushStart, hflushed]
  have onDevice {upto : Nat} (hle : upto ≤ s.tail) (h : OnDevice cfg s upto) : OnDevice cfg s' upto :=
    fun a hge hlt => by rw [hbyte a hge (hlt.trans_le hle), hdevice, h a hge hlt]
  refine ⟨hflushed ▸ hi.begin_le, hflushed ▸ hadv.settled hi.flushed,
    hflushed ▸ onDevice hi.flushed.1 hi.device, fun a hge hle => hring a hge (hstart ▸ hle), ?_⟩
  rw [hleader]
  have hl := hi.leader
  cases hleader : s.leader with
  | flushing upto stage after =>
    rw [hleader] at hl
    obtain ⟨hlt, hsettled, hstage, hafter⟩ := hl
    refine ⟨hflushed ▸ hlt, hadv.settled hsettled, ?_, ?_⟩
    · cases stage with
      | start => trivial
      | filled =>
        intro a hge hle hlt
        rw [hstart] at hle ⊢
        rw [hbyte a hge (hlt.trans_le hsettled.1)]
        exact hstage a hge hle hlt
      | written => exact onDevice hsettled.1 hstage
    · cases after with
      | publish => exact ⟨hafter.1, hadv.settled hafter.2⟩
      | stop | retryFrame => trivial
  | publishing =>
    rw [hleader] at hl
    exact ⟨hflushed ▸ hl.1, hadv.settled hl.2⟩
  | idle | framing | evicting | clamping | sampling => trivial

lemma byteAt_congr (hrecords : s'.records = s.records) (a : Nat) :
    s'.byteAt cfg a = s.byteAt cfg a := by
  rw [byteAt, byteAt, bytes, bytes, hrecords]

/-- A frame goes to cells of its own: all addresses in use lie in one window of the ring. -/
lemma ring_writeFrame (hplaced : Placed cfg s) (hex : Exclusive s) (hi : Contents cfg s)
    {slot reserved : Nat}
    (hw : s.writer w = .writing (parts :: frames) slot reserved addr) (hge : cfg.begin ≤ a)
    (hle : s.flushStart cfg ≤ a) (ha : (s.writeFrame cfg parts addr).written a = true) :
    s.byteAt cfg a = some ((s.writeFrame cfg parts addr).ring (a % cfg.bufferSize)) := by
  have hpending {b : Nat} (hlo : addr ≤ b) (hhi : b < addr + frameLen parts) :
      (s.writer w).Pending b := by
    rw [hw]
    exact ⟨hlo, by rw [totalLen_cons]; omega⟩
  have hpos : 0 < frameLen parts := lt_of_lt_of_le (by decide) (Nat.le_add_right ..)
  have hwindow : ∀ b, addr ≤ b → b < addr + frameLen parts →
      b < s.flushStart cfg + cfg.bufferSize := fun b hlo hhi =>
    (hex.pending w b (hpending hlo hhi)).1.trans_le hplaced.window
  -- the device has nothing of what is still to be written
  have hflushed : s.flushed ≤ addr := by
    by_contra hlt
    have := hi.flushed.2 addr (by omega)
    rw [(hex.pending w addr (hpending le_rfl (by omega))).2] at this
    cases this
  have hstart : s.flushStart cfg ≤ addr := (alignDown_le ..).trans hflushed
  have hfit : frameLen parts ≤ cfg.bufferSize := by
    have := hwindow (addr + frameLen parts - 1) (by omega) (by omega)
    omega
  have hlen : (cfg.checksum.frame parts.flatten).length = frameLen parts := by
    rw [length_frame, frameLen, length_flatten]
  rw [State.ring_writeFrame hfit]
  by_cases hin : addr ≤ a ∧ a < addr + frameLen parts
  · obtain ⟨k, rfl⟩ := Nat.exists_eq_add_of_le hin.1
    have hk : k < (cfg.checksum.frame parts.flatten).length := by omega
    rw [(hplaced.writing hw).byteAt hk, put_apply (by omega) hk]
  · have hold : s.written a = true := by
      have ha : (s.written a || (decide (addr ≤ a) && decide (a < addr + frameLen parts))) = true := ha
      simpa [hin] using ha
    have hlt : a < s.flushStart cfg + cfg.bufferSize := (hex.below a hold).trans_le hplaced.window
    rw [put_of_ne, hi.ring a hge hle hold]
    intro k hk
    exact mod_ne (s.flushStart cfg) (by omega) (hwindow _ (by omega) (by omega)) hle hlt (by omega)

lemma WriterMove.keepsContents (h : WriterMove cfg s w s') (hcov : Coverage s)
    (hplaced : Placed cfg s) (hex : Exclusive s) (hi : Contents cfg s) : Contents cfg s' := by
  have hadv := h.advances hcov
  cases h with
  | reload | claim | check | full | casFail | republish | release =>
    exact hi.advance hadv rfl rfl rfl (fun a _ _ => byteAt_congr rfl a) fun a hge hle ha =>
      (byteAt_congr rfl a).trans (hi.ring a hge hle ha)
  | cas hw =>
    rename_i frames slot
    have hbyte (a : Nat) (hge : cfg.begin ≤ a) (hlt : a < s.tail) :
        (s.reserve w frames slot).byteAt cfg a = s.byteAt cfg a :=
      byteAt_append (hplaced.length ▸ hlt) hge rfl
    exact hi.advance hadv rfl rfl rfl hbyte fun a hge hle ha =>
      (hbyte a hge (hex.below a ha)).trans (hi.ring a hge hle ha)
  | write hw =>
    exact hi.advance hadv rfl rfl rfl (fun a _ _ => byteAt_congr rfl a) fun a hge hle ha =>
      (byteAt_congr rfl a).trans (ring_writeFrame hplaced hex hi hw hge hle ha)

/-! ### Flushes -/

lemma Settled.mono {upto upto' : Nat} (h : Settled s upto) (hle : upto' ≤ upto) : Settled s upto' :=
  ⟨hle.trans h.1, fun a ha => h.2 a (ha.trans_le hle)⟩

lemma Frame.settled (h : Frame cfg s s') {upto : Nat} (hs : Settled s upto) : Settled s' upto := by
  rw [Settled, h.tail, h.written]
  exact hs

lemma Frame.keepsPlaced (h : Frame cfg s s') (hflushed : s.flushed ≤ s'.flushed)
    (hi : Placed cfg s) : Placed cfg s' := by
  have hmono := Nat.add_le_add_right (alignDown_mono hflushed cfg.sectorSize) cfg.bufferSize
  refine ⟨?_, fun hw => ?_, ?_, fun hw => ?_, fun p hp => ?_⟩
  · rw [bytes, h.records, h.tail]
    exact hi.length
  · exact (hi.checked (h.writing ⟨nofun, nofun⟩ hw)).trans hmono
  · exact h.tail ▸ hi.window.trans hmono
  · exact (hi.writing (h.writing ⟨nofun, nofun⟩ hw)).congr h.records
  · exact (hi.reserved p (h.reservations ▸ hp)).congr h.records

/-- The flush buffer holds the log up to where the flush goes. -/
lemma flushBuffer_sound (hplaced : Placed cfg s) (hi : Contents cfg s) {upto : Nat}
    (hsettled : Settled s upto) :
    FlushStage.Sound cfg s upto (.filled (s.flushBuffer cfg upto)) := by
  intro a hge hle hlt
  have hlen : upto - s.flushStart cfg ≤ cfg.bufferSize := by
    have hwindow : s.tail ≤ s.flushStart cfg + cfg.bufferSize := hplaced.window
    have := hsettled.1
    omega
  have hk : a - s.flushStart cfg <
      (get cfg.bufferSize s.ring (s.flushStart cfg) (upto - s.flushStart cfg)).length := by
    rw [length_get]
    omega
  rw [flushBuffer, copyRingTo_eq_get cfg.buffer_pos hlen, getElem?_append_left hk,
    getElem?_eq_getElem hk, getElem_get, Nat.add_sub_cancel' hle]
  exact hi.ring a hge hle (hsettled.2 a hlt)

/-- What the device holds after the write. What it held of the first sector is written once more. -/
lemma copy_flushBuffer (hplaced : Placed cfg s) (hi : Contents cfg s) {upto : Nat} {buf : List Byte}
    (hsettled : Settled s upto) (hbuf : FlushStage.Sound cfg s upto (.filled buf))
    (hge : cfg.begin ≤ a) (hlt : a < upto) :
    s.byteAt cfg a = some (copy s.device (s.flushStart cfg) buf a) := by
  rcases lt_or_ge a (s.flushStart cfg) with hbelow | hle
  · have hflushed : a < s.flushed := hbelow.trans_le (alignDown_le ..)
    rw [copy_of_not_mem (.inl hbelow), hi.device a hge hflushed]
  · have hsome : a - cfg.begin < (s.bytes cfg).length := by
      have := hplaced.length
      have := hsettled.1
      omega
    have hbyte := hbuf a hge hle hlt
    rw [byteAt, getElem?_eq_getElem hsome] at hbyte
    have hk : a - s.flushStart cfg < buf.length := (List.getElem?_eq_some_iff.1 hbyte.symm).1
    have hcopy := copy_apply (i := s.flushStart cfg) hk s.device
    rw [Nat.add_sub_cancel' hle] at hcopy
    rw [byteAt, getElem?_eq_getElem hsome, hbyte, hcopy, getElem?_eq_getElem hk]

/-- The leader goes on; the flushed address and what is below it stay. -/
lemma Frame.keepsContents (h : Frame cfg s s') (hi : Contents cfg s)
    (hflushed : s'.flushed = s.flushed) (hdevice : OnDevice cfg s' s.flushed)
    (hleader : s'.leader.Sound cfg s') : Contents cfg s' where
  begin_le := hflushed ▸ hi.begin_le
  flushed := hflushed ▸ h.settled hi.flushed
  device := hflushed ▸ hdevice
  ring := fun a hge hle ha => by
    have hstart : s'.flushStart cfg = s.flushStart cfg := by
      rw [flushStart, flushStart, hflushed]
    rw [byteAt_congr h.records, h.ring]
    exact hi.ring a hge (hstart ▸ hle) (h.written ▸ ha)
  leader := hleader

lemma clampTo_sound {committedIn goal safeTail : Nat} (h : Settled s safeTail) :
    (clampTo s committedIn goal safeTail).Sound cfg s := by
  have hgoal : Settled s (min goal safeTail) := h.mono (min_le_right ..)
  simp only [clampTo]
  split
  · rename_i hlt
    generalize hcommit : (if s.lastCommitFrame ≤ min goal safeTail ∧ committedIn < s.lastCommitFrame then
      min goal safeTail else min committedIn (min goal safeTail)) = commitTo
    have hle : commitTo ≤ min goal safeTail := by
      subst hcommit
      split
      · exact le_rfl
      · exact min_le_right ..
    split
    · exact ⟨‹_›, hgoal.mono hle, trivial, rfl, hgoal⟩
    · exact ⟨hlt, hgoal, trivial, trivial⟩
  · trivial

lemma LeaderMove.keepsContents (h : LeaderMove cfg s s') (hcov : Coverage s) (hplaced : Placed cfg s)
    (hi : Contents cfg s) : Contents cfg s' := by
  have hframe := h.toFrame
  have safeTail_settled {safeTail : Nat} (hr : s.reader none = .done safeTail) : Settled s safeTail := by
    have := hcov.reader none
    rwa [hr] at this
  have hl := hi.leader
  cases h with
  | frame | skipFrame | tooLarge | frameDone | sample | syncFail =>
    exact hframe.keepsContents hi rfl hi.device trivial
  | enqueueCommit =>
    refine hframe.keepsContents hi rfl hi.device ?_
    show s.leader.Sound cfg _
    trivial
  | frameFull =>
    refine hframe.keepsContents hi rfl hi.device ?_
    split <;> trivial
  | evict _ hr =>
    refine hframe.keepsContents hi rfl hi.device ?_
    split
    · exact ⟨‹_›, safeTail_settled hr, trivial, trivial⟩
    · trivial
  | clamp _ hr => exact hframe.keepsContents hi rfl hi.device (clampTo_sound (safeTail_settled hr))
  | flushTo _ hr =>
    refine hframe.keepsContents hi rfl hi.device ?_
    split
    · rename_i hupto
      exact ⟨hupto.1, (safeTail_settled hr).mono hupto.2, trivial, trivial⟩
    · trivial
  | fill hleader =>
    rw [hleader] at hl
    obtain ⟨hlt, hsettled, -, hafter⟩ := hl
    exact hframe.keepsContents hi rfl hi.device
      ⟨hlt, hsettled, flushBuffer_sound hplaced hi hsettled, hafter⟩
  | deviceWrite hleader =>
    rw [hleader] at hl
    obtain ⟨hlt, hsettled, hbuf, hafter⟩ := hl
    refine hframe.keepsContents hi rfl (fun a hge ha => ?_)
      ⟨hlt, hsettled, fun a hge ha => ?_, hafter⟩
    · exact copy_flushBuffer hplaced hi hsettled hbuf hge (ha.trans hlt)
    · exact copy_flushBuffer hplaced hi hsettled hbuf hge ha
  | deviceFail taken hleader =>
    rw [hleader] at hl
    obtain ⟨hlt, hsettled, hbuf, -⟩ := hl
    refine hframe.keepsContents hi rfl (fun a hge ha => ?_) trivial
    dsimp only
    split
    · exact copy_flushBuffer hplaced hi hsettled hbuf hge (ha.trans hlt)
    · exact hi.device a hge ha
  | store hleader =>
    rename_i upto after
    rw [hleader] at hl
    obtain ⟨hlt, hsettled, hdevice, hafter⟩ := hl
    have hstart : alignDown s.flushed cfg.sectorSize ≤ alignDown upto cfg.sectorSize :=
      alignDown_mono hlt.le cfg.sectorSize
    refine ⟨hi.begin_le.trans hlt.le, hsettled, hdevice,
      fun a hge hle ha => hi.ring a hge (hstart.trans hle) ha, ?_⟩
    cases after with
    | stop | retryFrame => trivial
    | publish => exact hafter
  | publish hleader =>
    rw [hleader] at hl
    obtain ⟨rfl, hgoal⟩ := hl
    refine hframe.keepsContents hi rfl hi.device ?_
    split
    · exact ⟨‹_›, hgoal, trivial, trivial⟩
    · trivial

lemma LeaderMove.flushed_le (h : LeaderMove cfg s s') (hi : Contents cfg s) :
    s.flushed ≤ s'.flushed := by
  have hl := hi.leader
  cases h with
  | store hleader =>
    rw [hleader] at hl
    exact hl.1.le
  | frame | skipFrame | enqueueCommit | tooLarge | frameDone | frameFull | evict | clamp | sample
  | flushTo | fill | deviceWrite | deviceFail | syncFail | publish => exact le_rfl

/-! ### Every run -/

structure FlushInv (cfg : Config) (start : Nat) (s : State W R) : Prop extends TailInv cfg start s where
  exclusive : Exclusive s
  placed : Placed cfg s
  contents : Contents cfg s

lemma FlushInv.opened (h : Opened cfg s) : FlushInv cfg s.tail s where
  toTailInv := .opened h
  exclusive :=
    have hnone (w : Option W) (a : Nat) : ¬(s.writer w).Pending a := by
      rw [h.writer w]
      exact id
    ⟨fun a => (h.written a).1, fun w a ha => absurd ha (hnone w a),
      fun {w _ a} ha => absurd ha (hnone w a)⟩
  placed :=
    { length := h.tail.symm
      checked := fun {w _ _ _} hw => absurd ((h.writer w).symm.trans hw) nofun
      window := by
        have hsector := Nat.le_of_dvd cfg.buffer_pos cfg.buffer_aligned
        have hlt := lt_alignDown_add cfg.sector_pos s.tail
        rw [h.flushed]
        omega
      writing := fun {w _ _ _ _} hw => absurd ((h.writer w).symm.trans hw) nofun
      reserved := by
        rw [h.reservations]
        nofun }
  contents :=
    { begin_le := by
        rw [h.flushed, h.tail]
        exact Nat.le_add_right ..
      flushed := ⟨h.flushed.le, fun a ha => (h.written a).2 (h.flushed ▸ ha)⟩
      device := fun a hge ha => h.device a hge (h.flushed ▸ ha)
      ring := fun a hge hle ha => by
        have hlt := (h.written a).1 ha
        rw [flushStart, h.flushed] at hle
        rw [h.ring a hge hle hlt]
        exact h.device a hge hlt
      leader := by
        rw [h.leader]
        trivial }

lemma FlushInv.step {start : Nat} (hi : FlushInv cfg start s) {a : Action W R}
    (hs : step cfg s a = some s') : FlushInv cfg start s' := by
  have htail := hi.toTailInv.step hs
  cases a with
  | enqueue w frames =>
    obtain ⟨⟨hfree, haccepted⟩, ⟨⟩⟩ := Option.ite_none_right_eq_some.1 hs
    have hframe : Frame cfg s (s.setWriter (some w) (.loaded frames s.tail)) :=
      .setWriter hfree (.inr ⟨frames, haccepted, rfl⟩)
    exact ⟨htail, hframe.keepsExclusive hi.exclusive, hframe.keepsPlaced le_rfl hi.placed,
      hframe.keepsContents hi.contents rfl hi.contents.device hi.contents.leader⟩
  | writer =>
    have hmove := writerStep_move hs
    exact ⟨htail, hmove.keepsExclusive hi.coverage hi.exclusive,
      hmove.keepsPlaced hi.coverage hi.placed,
      hmove.keepsContents hi.coverage hi.placed hi.exclusive hi.contents⟩
  | reader =>
    obtain ⟨x, rfl⟩ := readerStep_eq hs
    exact ⟨htail, { hi.exclusive with }, { hi.placed with }, { hi.contents with }⟩
  | setCookie =>
    cases hs
    exact ⟨htail, { hi.exclusive with }, { hi.placed with }, { hi.contents with }⟩
  | leader =>
    have hmove := leaderStep_move hs
    have hframe := hmove.toFrame
    exact ⟨htail, hframe.keepsExclusive hi.exclusive,
      hframe.keepsPlaced (hmove.flushed_le hi.contents) hi.placed,
      hmove.keepsContents hi.coverage hi.placed hi.contents⟩

lemma flushInv_of_reachable {s₀ : State W R} (h₀ : Opened cfg s₀)
    (h : Machine.Reachable (step cfg) s₀ s) : FlushInv cfg s₀.tail s :=
  h.invariant (I := FlushInv cfg s₀.tail) (.opened h₀) fun hi _ hs => hi.step hs

lemma OnDevice.load_eq {upto : Nat} (h : OnDevice cfg s upto)
    (hupto : upto ≤ cfg.begin + (s.bytes cfg).length) :
    load s.device cfg.begin (upto - cfg.begin) = (s.bytes cfg).take (upto - cfg.begin) := by
  refine ext_getElem ?_ fun k hk hk' => ?_
  · simp only [load, length_map, length_range, length_take]
    omega
  · have hlt : k < upto - cfg.begin := by simpa [load] using hk
    have hbyte := h (cfg.begin + k) (Nat.le_add_right ..) (by omega)
    rw [byteAt, Nat.add_sub_cancel_left] at hbyte
    rw [getElem_take, (List.getElem?_eq_some_iff.1 hbyte).2]
    simp [load]

/-- The device bytes below the flushed address are the frames of the log one after the other, each
reservation at its own address, and no byte that a later flush has to read is overwritten in the
ring. -/
theorem writeThrough_of_reachable {s₀ s : State W R} (h₀ : Opened cfg s₀)
    (h : Machine.Reachable (step cfg) s₀ s) :
    cfg.begin ≤ s.flushed ∧ s.flushed ≤ s.tail ∧
    load s.device cfg.begin (s.flushed - cfg.begin) = (s.bytes cfg).take (s.flushed - cfg.begin) ∧
    (∀ p ∈ s.reservations, Located cfg s p.1 p.2) ∧
    ∀ a, cfg.begin ≤ a → s.flushStart cfg ≤ a → s.written a = true →
      s.byteAt cfg a = some (s.ring (a % cfg.bufferSize)) := by
  have hi := flushInv_of_reachable h₀ h
  refine ⟨hi.contents.begin_le, hi.contents.flushed.1, ?_, hi.placed.reserved, hi.contents.ring⟩
  exact hi.contents.device.load_eq (hi.placed.length ▸ hi.contents.flushed.1)

/-- A writer fills most of the ring, the leader commits it, and the next record wraps around. -/
def wrapAround : List (Action Bool Unit) :=
  [.enqueue true [[replicate 20 1]], .writer (some true) (.claim 0), .writer (some true) .check,
    .writer (some true) .cas, .writer (some true) .write, .writer (some true) .release,
    .leader (.request 28), .leader .enqueueCommit, .writer none (.claim 0), .writer none .check,
    .writer none .cas, .writer none .write, .writer none .release, .leader .frameDone,
    .reader none .readTail, .reader none .readSlot, .reader none .readSlot, .reader none .readSlot,
    .leader .clamp, .leader .fill, .leader .deviceWrite, .leader .store, .leader .publish,
    .enqueue false [[[2, 3]]], .writer (some false) (.claim 1), .writer (some false) .check,
    .writer (some false) .cas, .writer (some false) .write, .writer (some false) .release]

theorem writeThrough_wrapAround :
    ∃ s, Machine.Reachable (step smallLog) (fresh smallLog Bool Unit) s ∧
      (s.flushed = 60 ∧ s.committed = 60 ∧ s.tail = 70) ∧
      (0 ≤ s.flushed ∧ s.flushed ≤ s.tail ∧
      load s.device 0 (s.flushed - 0) = (s.bytes smallLog).take (s.flushed - 0) ∧
      (∀ p ∈ s.reservations, Located smallLog s p.1 p.2) ∧
      ∀ a, 0 ≤ a → s.flushStart smallLog ≤ a → s.written a = true →
        s.byteAt smallLog a = some (s.ring (a % 64))) := by
  obtain ⟨s, hs, hobs⟩ := Machine.exists_reachable_of_run (step smallLog)
    (fresh smallLog Bool Unit) wrapAround
    (fun s => (s.flushed, s.committed, s.tail)) (60, 60, 70) (by decide +kernel)
  simp only [Prod.mk.injEq] at hobs
  exact ⟨s, hs, hobs, writeThrough_of_reachable (opened_fresh smallLog) hs⟩

/-- No step moves the flushed address back or takes a record out of the log. -/
lemma FlushInv.grows {start : Nat} (hi : FlushInv cfg start s) {a : Action W R}
    (hs : Wal.step cfg s a = some s') : s.flushed ≤ s'.flushed ∧ s.records <+: s'.records := by
  cases a with
  | enqueue =>
    obtain ⟨-, ⟨⟩⟩ := Option.ite_none_right_eq_some.1 hs
    exact ⟨le_rfl, prefix_rfl⟩
  | writer =>
    cases writerStep_move hs with
    | cas => exact ⟨le_rfl, prefix_append ..⟩
    | _ => exact ⟨le_rfl, prefix_rfl⟩
  | reader =>
    obtain ⟨x, rfl⟩ := readerStep_eq hs
    exact ⟨le_rfl, prefix_rfl⟩
  | setCookie =>
    cases hs
    exact ⟨le_rfl, prefix_rfl⟩
  | leader =>
    have hmove := leaderStep_move hs
    exact ⟨hmove.flushed_le hi.contents, hmove.toFrame.records ▸ prefix_rfl⟩

/-- What has been flushed stays: later flushes rewrite the sector it ends in, and may fail with any part of their
bytes on the device, but no byte below the flushed address changes. -/
theorem flushed_stays {s₀ s s' : State W R} (h₀ : Opened cfg s₀)
    (h : Machine.Reachable (step cfg) s₀ s) (h' : Machine.Reachable (step cfg) s s') :
    s.flushed ≤ s'.flushed ∧ s.records <+: s'.records ∧
      ∀ a, cfg.begin ≤ a → a < s.flushed → s'.device a = s.device a := by
  have hi := flushInv_of_reachable h₀ h
  obtain ⟨hi', hle, hprefix⟩ := h'.invariant
    (I := fun s' => FlushInv cfg s₀.tail s' ∧ s.flushed ≤ s'.flushed ∧ s.records <+: s'.records)
    ⟨hi, le_rfl, prefix_rfl⟩ fun ⟨hi, hle, hprefix⟩ _ hs =>
      ⟨hi.step hs, hle.trans (hi.grows hs).1, hprefix.trans (hi.grows hs).2⟩
  refine ⟨hle, hprefix, fun a hge hlt => ?_⟩
  -- both are the byte of the log at the address
  have hbyte := hi.contents.device a hge hlt
  have hbyte' := hi'.contents.device a hge (hlt.trans_le hle)
  obtain ⟨more, hmore⟩ := hprefix
  have hbytes : bytes cfg s' = bytes cfg s ++ cfg.checksum.frames more := by
    rw [bytes, ← hmore, Checksum.frames_append, bytes]
  rw [byteAt, hbytes, getElem?_append_left (List.getElem?_eq_some_iff.1 hbyte).1] at hbyte'
  exact Option.some.inj (hbyte'.symm.trans hbyte)

/-- The flushed bytes are still there when the next record has wrapped around. -/
theorem flushed_stays_wrapAround : ∃ s s', Machine.Reachable (step smallLog) (fresh smallLog Bool Unit) s ∧
    Machine.Reachable (step smallLog) s s' ∧ s'.tail = 70 ∧ ∀ a < 60, s'.device a = s.device a := by
  obtain ⟨s, hs, hobs⟩ := Machine.exists_reachable_of_run (step smallLog) (fresh smallLog Bool Unit)
    (wrapAround.take 23)
    (fun s => (s.flushed, (Machine.run (step smallLog) s (wrapAround.drop 23)).map (·.tail))) (60, some 70)
    (by decide +kernel)
  obtain ⟨hflushed, hrun⟩ := Prod.mk.inj hobs
  obtain ⟨s', hs', htail⟩ := Machine.exists_reachable_of_run _ s _ _ _ hrun
  exact ⟨s, s', hs, hs', htail, fun a ha =>
    (flushed_stays (opened_fresh smallLog) hs hs').2.2 a a.zero_le (ha.trans_eq hflushed.symm)⟩

end Wedb.Wal
