import Wedb.Wal.RecoverSound

/-!
# Recovery after segments were removed

The first segment left may begin in the middle of a record. `frame_sync` tries every byte from there on
until one looks like the begin of a record. What looks like one inside a payload is, checksum
collisions apart, the header of an empty record: its checksum is a constant.
-/

namespace Wedb.Wal

open Checksum Nat List WalFrameHeader

variable {c : Checksum} {bufferSize : Nat} {d : Device} {w o n : Nat}

/-! ### One offset -/

/-- `frame_sync` goes on past the offset. -/
def Skips (c : Checksum) (bufferSize : Nat) (d : Device) (o : Nat) : Prop :=
  ∀ hdr, decodeOpt (d.data.drop o) = some hdr → hdr.isZero = false →
    hdr.payloadLen ≤ bufferSize →
    (o + recordHeaderLen + hdr.payloadLen ≤ d.data.length →
      c.verify hdr ((d.data.drop (o + recordHeaderLen)).take hdr.payloadLen) = false) ∧
    (d.data.length < o + recordHeaderLen + hdr.payloadLen → d.Open)

/-- `frame_sync` takes the offset for the begin of a record. -/
abbrev Hits (c : Checksum) (bufferSize : Nat) (d : Device) (o : Nat) : Prop :=
  parses c bufferSize (d.data.drop o) = true

lemma Hits.header_le (h : Hits c bufferSize d o) : o + recordHeaderLen ≤ d.data.length := by
  rw [Hits, parses] at h
  have hpos : 0 < recordHeaderLen := by decide
  by_contra hshort
  rw [decodeOpt, if_neg (by rw [length_drop]; omega)] at h
  cases h

lemma Skips.not_hits (h : Skips c bufferSize d o) : ¬Hits c bufferSize d o := by
  intro hhits
  cases hdecode : decodeOpt (d.data.drop o) with
  | none =>
    rw [Hits, parses, hdecode] at hhits
    cases hhits
  | some hdr =>
    obtain ⟨hnonzero, hlen, hinside, hverify⟩ := (parses_iff hdecode).1 hhits
    have hfalse := (h hdr hdecode hnonzero hlen).1
    rw [length_drop] at hinside
    rw [drop_drop] at hverify
    have hpos : 0 < recordHeaderLen := by decide
    rw [hfalse (by omega)] at hverify
    cases hverify

/-- A record that is cut off by the end of the log is skipped as well. -/
lemma skips_of_open (hopen : d.Open) (hhits : ¬Hits c bufferSize d o) : Skips c bufferSize d o := by
  refine fun hdr hdecode hnonzero hlen => ⟨fun hinside => ?_, fun _ => hopen⟩
  refine Bool.eq_false_iff.2 fun hverify => hhits ((parses_iff hdecode).2 ⟨hnonzero, hlen, ?_, ?_⟩)
  · rw [length_drop]
    omega
  · rwa [drop_drop]

/-- What `probeWindow` does at one offset of the window at `w`. -/
lemma probeWindow_cons (c : Checksum) (bufferSize : Nat) (d : Device) (hw : w ≤ o)
    (hlast : o + recordHeaderLen ≤ w + recoverChunkSize) (ho : o + recordHeaderLen ≤ d.data.length) (offs : List Nat) :
    Skips c bufferSize d o ∧
        probeWindow c bufferSize d (windowAt d w) ((o - w) :: offs) =
          probeWindow c bufferSize d (windowAt d w) offs ∨
      Hits c bufferSize d o ∧
        probeWindow c bufferSize d (windowAt d w) ((o - w) :: offs) = .ok (some (d.begin + o)) ∨
      ¬Skips c bufferSize d o ∧ ¬Hits c bufferSize d o ∧
        ∃ segment, probeWindow c bufferSize d (windowAt d w) ((o - w) :: offs) =
          .error (.segmentNotFound segment) := by
  have haddr : (windowAt d w).offset + (o - w) = d.begin + o := by
    simp only [windowAt]
    omega
  have hheader : decodeOpt ((windowAt d w).slice.drop (o - w)) = decodeOpt (d.data.drop o) := by
    have := decodeOpt_windowAt (d := d) hw hlast
    rwa [← haddr, Nat.add_sub_cancel_left] at this
  rw [probeWindow, hheader, haddr]
  cases hdecode : decodeOpt (d.data.drop o) with
  | none =>
    rw [decodeOpt, if_pos (by rw [length_drop]; omega)] at hdecode
    cases hdecode
  | some hdr =>
    dsimp only
    by_cases hvalid : hdr.isZero = false ∧ hdr.payloadLen ≤ bufferSize
    · rw [if_neg (by simp [hvalid.1, hvalid.2])]
      rcases lt_or_ge d.data.length (o + recordHeaderLen + hdr.payloadLen) with hcut | hwhole
      · by_cases hopen : d.Open
        · refine .inl ⟨fun hdr' hdecode' _ _ => ?_, by rw [verifyCandidate_eof hopen hw ho hcut]⟩
          obtain ⟨⟩ := hdecode.symm.trans hdecode'
          exact ⟨fun hin => absurd hin (not_le.2 hcut), fun _ => hopen⟩
        · obtain ⟨segment, hverify⟩ := verifyCandidate_missing hopen hw ho hcut
          refine .inr (.inr ⟨fun hskips => ?_, fun hhits => ?_, segment, by rw [hverify]⟩)
          · exact hopen ((hskips hdr hdecode hvalid.1 hvalid.2).2 hcut)
          · have hinside := ((parses_iff hdecode).1 hhits).2.2.1
            rw [length_drop] at hinside
            omega
      · rw [verifyCandidate_ok hw hwhole]
        cases hverify : c.verify hdr ((d.data.drop (o + recordHeaderLen)).take hdr.payloadLen) with
        | true =>
          refine .inr (.inl ⟨(parses_iff hdecode).2 ⟨hvalid.1, hvalid.2, ?_, ?_⟩, rfl⟩)
          · rw [length_drop]
            omega
          · rwa [drop_drop]
        | false =>
          refine .inl ⟨fun hdr' hdecode' _ _ => ?_, rfl⟩
          obtain ⟨⟩ := hdecode.symm.trans hdecode'
          exact ⟨fun _ => hverify, fun hcut => absurd hwhole (not_le.2 hcut)⟩
    · have hinvalid : (hdr.isZero || decide (bufferSize < hdr.payloadLen)) = true := by
        by_contra hneg
        rw [Bool.or_eq_true, decide_eq_true_eq, not_or] at hneg
        exact hvalid ⟨Bool.eq_false_iff.2 hneg.1, Nat.le_of_not_lt hneg.2⟩
      rw [if_pos hinvalid]
      refine .inl ⟨fun hdr' hdecode' hnonzero hlen => ?_, rfl⟩
      obtain ⟨⟩ := hdecode.symm.trans hdecode'
      exact absurd ⟨hnonzero, hlen⟩ hvalid

/-! ### One window -/

/-- The offsets of a window that have a header, from `o` on. -/
lemma probeWindow_cases (c : Checksum) (bufferSize : Nat) {len : Nat} (hlen : len = ((d.data.drop w).take recoverChunkSize).length)
    (m : Nat) (hw : w ≤ o) (ho : o + m = w + len) :
    (probeWindow c bufferSize d (windowAt d w) (range' (o - w) m) = .ok none ∧
        ∀ a, o ≤ a → a + recordHeaderLen ≤ w + len → Skips c bufferSize d a) ∨
      ∃ a, o ≤ a ∧ a + recordHeaderLen ≤ w + len ∧ (∀ b, o ≤ b → b < a → Skips c bufferSize d b) ∧
        (Hits c bufferSize d a ∧
            probeWindow c bufferSize d (windowAt d w) (range' (o - w) m) = .ok (some (d.begin + a)) ∨
          ¬Skips c bufferSize d a ∧ ¬Hits c bufferSize d a ∧
            ∃ segment, probeWindow c bufferSize d (windowAt d w) (range' (o - w) m) =
              .error (.segmentNotFound segment)) := by
  rw [length_take, length_drop] at hlen
  have hpos : 0 < recordHeaderLen := by decide
  induction m generalizing o with
  | zero => exact .inl ⟨rfl, fun a hle hend => absurd hend (by omega)⟩
  | succ m ih =>
    rw [range'_succ]
    rcases lt_or_ge (w + len) (o + recordHeaderLen) with hshort | hlong
    · -- no header is left: the loop ends
      refine .inl ⟨?_, fun a hle hend => absurd hend (by omega)⟩
      have hnone : decodeOpt ((windowAt d w).slice.drop (o - w)) = none := by
        rw [decodeOpt, if_neg]
        rw [length_drop, windowAt_slice, length_take, length_drop]
        omega
      rw [probeWindow, hnone]
    · have hnext : o - w + 1 = o + 1 - w := by omega
      rw [hnext]
      rcases probeWindow_cons c bufferSize d hw (by omega) (by omega)
          (range' (o + 1 - w) m) with ⟨hskips, hrest⟩ | ⟨hhits, hsome⟩ | hfails
      · rw [hrest]
        have hself {a} (hle : o ≤ a) (hlater : o + 1 ≤ a → Skips c bufferSize d a) :
            Skips c bufferSize d a := by
          rcases eq_or_lt_of_le hle with rfl | hlt
          · exact hskips
          · exact hlater hlt
        rcases ih (o := o + 1) (by omega) (by omega) with ⟨hnone, hall⟩ | ⟨a, hle, hend, hbefore, hresult⟩
        · exact .inl ⟨hnone, fun a hle hend => hself hle fun hlt => hall a hlt hend⟩
        · exact .inr ⟨a, by omega, hend, fun b hle hlt => hself hle fun hlt' => hbefore b hlt' hlt, hresult⟩
      · exact .inr ⟨o, le_rfl, hlong, fun b hle hlt => absurd hle (not_le.2 hlt), .inl ⟨hhits, hsome⟩⟩
      · exact .inr ⟨o, le_rfl, hlong, fun b hle hlt => absurd hle (not_le.2 hlt), .inr hfails⟩

/-! ### All windows -/

/-- The step from one window to the next. -/
def syncStride : Nat := recoverChunkSize - recordHeaderLen

/-- The start of the window, `w` or later, in which the offset `n` is tried. -/
def syncWindow (w n : Nat) : Nat := w + (n - w - 1) / syncStride * syncStride

lemma syncWindow_le (h : w ≤ n) : w ≤ syncWindow w n ∧ syncWindow w n ≤ n := by
  refine ⟨Nat.le_add_right .., ?_⟩
  have := div_mul_le_self (n - w - 1) syncStride
  unfold syncWindow
  omega

lemma syncWindow_next (h : w + syncStride < n) : syncWindow (w + syncStride) n = syncWindow w n := by
  have hpos : 0 < syncStride := by decide
  have hdiv : (n - w - 1) / syncStride = (n - (w + syncStride) - 1) / syncStride + 1 := by
    rw [show n - w - 1 = n - (w + syncStride) - 1 + syncStride by omega, add_div_right _ hpos]
  rw [syncWindow, syncWindow, hdiv, succ_mul]
  omega

lemma fetchTail_cases (hw : w ≤ d.data.length) :
    w + recordHeaderLen ≤ d.data.length ∧ (d.Open ∨ w + recoverChunkSize ≤ d.data.length) ∧
        fetchTail d (d.begin + w) recoverChunkSize recordHeaderLen =
          .ok ((d.data.drop w).take recoverChunkSize) ∨
      d.Open ∧ d.data.length < w + recordHeaderLen ∧
        fetchTail d (d.begin + w) recoverChunkSize recordHeaderLen =
          .error (.unexpectedEof recoverChunkSize (d.data.length - w)) ∨
      ¬d.Open ∧ d.data.length < w + recoverChunkSize ∧
        ∃ segment, fetchTail d (d.begin + w) recoverChunkSize recordHeaderLen =
          .error (.segmentNotFound segment) := by
  have hchunk : recordHeaderLen ≤ recoverChunkSize := by decide
  by_cases hopen : d.Open
  · rcases lt_or_ge d.data.length (w + recordHeaderLen) with hlt | hge
    · exact .inr (.inl ⟨hopen, hlt, fetchTail_eof hopen hw hlt⟩)
    · exact .inl ⟨hge, .inl hopen, fetchTail_ok hge (.inl hopen)⟩
  · rcases lt_or_ge d.data.length (w + recoverChunkSize) with hlt | hge
    · exact .inr (.inr ⟨hopen, hlt, fetchTail_missing hopen hlt⟩)
    · exact .inl ⟨by omega, .inr hge, fetchTail_ok (by omega) (.inr hge)⟩

/-- What one window of `frame_sync` comes to: the next window, a record, the end of the log, or a segment
that is not there. -/
inductive WindowCase (c : Checksum) (bufferSize : Nat) (d : Device) (fuel w : Nat) : Prop
  | next (w' : Nat) (hlt : w < w') (hle : w' ≤ d.data.length)
      (hskips : ∀ a, w ≤ a → a ≤ w' → a + recordHeaderLen ≤ d.data.length → Skips c bufferSize d a)
      (hin : d.Open ∨ w + recoverChunkSize ≤ d.data.length ∧ w' = w + syncStride)
      (h : frameSync c bufferSize d (fuel + 1) (d.begin + w) = frameSync c bufferSize d fuel (d.begin + w'))
  | hit (a : Nat) (hle : w ≤ a) (hend : a + recordHeaderLen ≤ w + recoverChunkSize)
      (hhits : Hits c bufferSize d a) (hskips : ∀ b, w ≤ b → b < a → Skips c bufferSize d b)
      (hin : d.Open ∨ w + recoverChunkSize ≤ d.data.length)
      (h : frameSync c bufferSize d (fuel + 1) (d.begin + w) = some (.ok (some (d.begin + a))))
  | eof (hopen : d.Open) (hshort : d.data.length < w + recordHeaderLen)
      (h : frameSync c bufferSize d (fuel + 1) (d.begin + w) = some (.ok none))
  | missing (segment : Nat) (hclosed : ¬d.Open)
      (hout : d.data.length < w + recoverChunkSize ∨ ∃ a, w ≤ a ∧
        (∀ b, w ≤ b → b < a → Skips c bufferSize d b) ∧ ¬Skips c bufferSize d a ∧ ¬Hits c bufferSize d a)
      (h : frameSync c bufferSize d (fuel + 1) (d.begin + w) = some (.error (.segmentNotFound segment)))

lemma frameSync_window (c : Checksum) (bufferSize fuel : Nat) (hw : w ≤ d.data.length) :
    WindowCase c bufferSize d fuel w := by
  have hchunk : 0 < recordHeaderLen ∧ recordHeaderLen + 1 ≤ recoverChunkSize := by decide
  rcases fetchTail_cases hw with ⟨hheader, hin, hfetch⟩ | ⟨hopen, hshort, hfetch⟩ | ⟨hclosed, hout, segment, hfetch⟩
  · have hstep := frameSync.eq_2 c bufferSize d (d.begin + w) fuel
    rw [hfetch] at hstep
    dsimp only at hstep
    rw [← windowAt, range_eq_range', add_assoc] at hstep
    have hcases := probeWindow_cases c bufferSize rfl
      ((d.data.drop w).take recoverChunkSize).length le_rfl rfl
    have hlength : ((d.data.drop w).take recoverChunkSize).length =
        min recoverChunkSize (d.data.length - w) := by rw [length_take, length_drop]
    generalize ((d.data.drop w).take recoverChunkSize).length = len at hstep hcases hlength
    rw [Nat.sub_self] at hcases
    rcases hcases with ⟨hnone, hall⟩ | ⟨a, hle, hend, hbefore, ⟨hhits, hsome⟩ | ⟨hskip, hhit, segment, herror⟩⟩
    · rw [hnone] at hstep
      -- two windows share the last header of the first, unless the data end there
      refine .next (w + max (len - recordHeaderLen) 1) (by omega) (by omega)
        (fun a hle hend hinside => hall a hle (by omega)) ?_ hstep
      refine hin.imp_right fun hin => ⟨hin, ?_⟩
      unfold syncStride
      omega
    · rw [hsome] at hstep
      exact .hit a hle (by omega) hhits hbefore hin hstep
    · rw [herror] at hstep
      refine .missing segment (fun hopen => hskip ?_) (.inr ⟨a, hle, hbefore, hskip, hhit⟩) hstep
      exact skips_of_open hopen hhit
  · exact .eof hopen hshort (by rw [frameSync, hfetch])
  · exact .missing segment hclosed (.inl hout) (by rw [frameSync, hfetch])

lemma syncWindow_self (h : n + recordHeaderLen ≤ w + recoverChunkSize) : syncWindow w n = w := by
  have hlt : n - w - 1 < syncStride := by
    have hpos : 0 < syncStride := by decide
    unfold syncStride at hpos ⊢
    omega
  rw [syncWindow, div_eq_of_lt hlt, zero_mul, add_zero]

variable {fuel : Nat}

/-- The first offset that is not skipped is found, whatever the windows. -/
lemma frameSync_hit (hfuel : n - w < fuel) (hw : w ≤ n) (hhits : Hits c bufferSize d n)
    (hskips : ∀ o, w ≤ o → o < n → Skips c bufferSize d o)
    (hin : d.Open ∨ syncWindow w n + recoverChunkSize ≤ d.data.length) :
    frameSync c bufferSize d fuel (d.begin + w) = some (.ok (some (d.begin + n))) := by
  have hn := hhits.header_le
  induction fuel generalizing w with
  | zero => cases hfuel
  | succ fuel ih =>
    cases frameSync_window c bufferSize fuel (d := d) (w := w) (by omega) with
    | next w' hlt hle hskips' hin' h =>
      have hlt' : w' < n := by
        by_contra hge
        exact (hskips' n hw (by omega) hn).not_hits hhits
      rw [h]
      refine ih (by omega) hlt'.le (fun o hlo hhi => hskips o (by omega) hhi) ?_
      rcases hin' with hopen | ⟨-, rfl⟩
      · exact .inl hopen
      · rwa [syncWindow_next hlt']
    | hit a hle hend hhits' hskips' hin' h =>
      rw [h]
      rcases lt_trichotomy a n with hlt | rfl | hgt
      · exact absurd hhits' (hskips a hle hlt).not_hits
      · rfl
      · exact absurd hhits (hskips' n hw hgt).not_hits
    | eof => omega
    | missing segment hclosed hout =>
      have hwin := syncWindow_le hw
      have hinside := hin.resolve_left hclosed
      rcases hout with hout | ⟨a, hle, hbefore, hskip, hhit⟩
      · omega
      · rcases lt_trichotomy a n with hlt | rfl | hgt
        · exact absurd (hskips a hle hlt) hskip
        · exact absurd hhits hhit
        · exact absurd hhits (hbefore n hw hgt).not_hits

/-- Nothing before the offset that was found is taken for a record. -/
lemma frameSync_some {addr : Nat} (hw : w ≤ d.data.length)
    (h : frameSync c bufferSize d fuel (d.begin + w) = some (.ok (some addr))) :
    ∃ n, addr = d.begin + n ∧ w ≤ n ∧ Hits c bufferSize d n ∧
      (∀ o, w ≤ o → o < n → Skips c bufferSize d o) ∧
      (d.Open ∨ syncWindow w n + recoverChunkSize ≤ d.data.length) := by
  induction fuel generalizing w with
  | zero => cases h
  | succ fuel ih =>
    cases frameSync_window c bufferSize fuel hw with
    | next w' hlt hle hskips hin hnext =>
      obtain ⟨n, rfl, hn, hhits, hbefore, hwin⟩ := ih hle (hnext ▸ h)
      have hskip (o : Nat) (hlo : w ≤ o) (hhi : o < n) : Skips c bufferSize d o := by
        rcases lt_or_ge o w' with hlt | hge
        · exact hskips o hlo hlt.le (by have := hhits.header_le; omega)
        · exact hbefore o hge hhi
      refine ⟨n, rfl, by omega, hhits, hskip, ?_⟩
      rcases hin with hopen | ⟨-, rfl⟩
      · exact .inl hopen
      · have hne : w + syncStride ≠ n := by
          rintro rfl
          exact (hskips _ hlt.le le_rfl hhits.header_le).not_hits hhits
        rwa [← syncWindow_next (by omega)]
    | hit a hle hend hhits hskips hin ha =>
      obtain ⟨⟩ := ha.symm.trans h
      exact ⟨a, rfl, hle, hhits, hskips, by rwa [syncWindow_self hend]⟩
    | eof hopen hshort ha | missing segment hclosed hout ha => cases ha.symm.trans h

/-- No record is found only when the end of the log was seen. -/
lemma frameSync_none (hw : w ≤ d.data.length)
    (h : frameSync c bufferSize d fuel (d.begin + w) = some (.ok none)) :
    d.Open ∧ ∀ o, w ≤ o → o + recordHeaderLen ≤ d.data.length → Skips c bufferSize d o := by
  induction fuel generalizing w with
  | zero => cases h
  | succ fuel ih =>
    cases frameSync_window c bufferSize fuel hw with
    | next w' hlt hle hskips hin hnext =>
      obtain ⟨hopen, hall⟩ := ih hle (hnext ▸ h)
      refine ⟨hopen, fun o hlo hhi => ?_⟩
      rcases lt_or_ge o w' with hlt | hge
      · exact hskips o hlo hlt.le hhi
      · exact hall o hge hhi
    | hit a hle hend hhits hskips hin ha => cases ha.symm.trans h
    | eof hopen => exact ⟨hopen, fun o hlo hhi => by omega⟩
    | missing segment hclosed hout ha => cases ha.symm.trans h

lemma frameSync_eof (hfuel : d.data.length - w < fuel) (hw : w ≤ d.data.length)
    (hopen : d.Open)
    (hskips : ∀ o, w ≤ o → o + recordHeaderLen ≤ d.data.length → Skips c bufferSize d o) :
    frameSync c bufferSize d fuel (d.begin + w) = some (.ok none) := by
  induction fuel generalizing w with
  | zero => cases hfuel
  | succ fuel ih =>
    cases frameSync_window c bufferSize fuel hw with
    | next w' hlt hle hskips' hin h =>
      rw [h]
      exact ih (by omega) hle fun o hlo hhi => hskips o (by omega) hhi
    | hit a hle hend hhits =>
      exact absurd hhits (hskips a hle hhits.header_le).not_hits
    | eof hopen hshort h => exact h
    | missing segment hclosed => exact absurd hopen hclosed

/-! ### The log that is left -/

section

variable {before after : List (List Byte)} {cut : List Byte} {padding : Nat}

/-- The device holds what is left of a log when the segments below its first one are removed. The first
segment left starts inside the record `cut`, or at its end. -/
structure Truncated (c : Checksum) (bufferSize : Nat) (d : Device) (before : List (List Byte))
    (cut : List Byte) (after : List (List Byte)) (padding : Nat) : Prop where
  removed : 0 < d.startSegment
  data : d.data = (c.frames (before ++ cut :: after) ++ replicate padding 0).drop d.begin
  start_lt : recordsLen before < d.begin
  le_end : d.begin ≤ recordsLen (before ++ [cut])
  admissible : ∀ payload ∈ after, Admissible bufferSize payload

/-- Nowhere before the offset `n` do the bytes of a non-empty payload have the checksum that stands in
front of them. -/
def CollisionFree (c : Checksum) (bufferSize : Nat) (d : Device) (n : Nat) : Prop :=
  ∀ o < n, ∀ hdr, decodeOpt (d.data.drop o) = some hdr → hdr.payloadLen ≠ 0 →
    hdr.payloadLen ≤ bufferSize → o + recordHeaderLen + hdr.payloadLen ≤ d.data.length →
    c.verify hdr ((d.data.drop (o + recordHeaderLen)).take hdr.payloadLen) = false

instance : Decidable (CollisionFree c bufferSize d n) :=
  inferInstanceAs (Decidable (∀ o < n, ∀ hdr ∈ decodeOpt (d.data.drop o), hdr.payloadLen ≠ 0 →
    hdr.payloadLen ≤ bufferSize → o + recordHeaderLen + hdr.payloadLen ≤ d.data.length →
    c.verify hdr ((d.data.drop (o + recordHeaderLen)).take hdr.payloadLen) = false))

/-- Nowhere before the offset `n` stands the header of an empty record. -/
def NoEmptyHeader (d : Device) (n : Nat) : Prop :=
  ∀ o < n, decodeOpt (d.data.drop o) ≠ some ⟨0, emptyPayloadCrc⟩

instance : Decidable (NoEmptyHeader d n) := inferInstanceAs (Decidable (∀ o < n, _ ≠ _))

/-- The search for the offset `n` reads nothing behind the last file. -/
def SearchesInside (bufferSize : Nat) (d : Device) (n : Nat) : Prop :=
  d.Open ∨ syncWindow 0 n + recoverChunkSize ≤ d.data.length ∧ ∀ o < n, ResidueInside bufferSize d o

/-- `recover` starts at `boundary` and returns what the records from there on commit. -/
def RecoversFrom (c : Checksum) (bufferSize : Nat) (d : Device) (boundary : Nat)
    (after : List (List Byte)) : Prop :=
  ∃ r, recover c bufferSize d = some (.ok r) ∧ r.beginAddress = boundary ∧
    r.committed = commitPoint boundary after

lemma decodeOpt_zeros {k : Nat} {hdr : WalFrameHeader}
    (h : decodeOpt (replicate k 0) = some hdr) : hdr.isZero = true := by
  unfold decodeOpt at h
  split at h
  · rename_i hk
    rw [length_replicate] at hk
    rw [take_replicate, min_eq_left hk] at h
    obtain ⟨⟩ := h
    decide
  · cases h

lemma parses_zeros (c : Checksum) (bufferSize k : Nat) :
    parses c bufferSize (replicate k 0) = false := by
  unfold parses
  cases h : decodeOpt (replicate k 0) with
  | none => rfl
  | some => simp [decodeOpt_zeros h]

lemma parses_frame {payload rest : List Byte} (h : Admissible bufferSize payload) :
    parses c bufferSize (c.frame payload ++ rest) = true := by
  refine (parses_iff (c.decodeOpt_frame h.2 rest)).2 ⟨c.isZero_frame payload, h.1, ?_, ?_⟩
  · rw [length_append, length_frame]
    exact Nat.le_add_right ..
  · refine (congrArg (c.verify _) (take_left' rfl)).trans ?_
    exact c.verify_frame payload

/-- The header of an empty record needs no payload to be taken for one. -/
lemma hits_of_emptyHeader (h : decodeOpt (d.data.drop o) = some ⟨0, emptyPayloadCrc⟩) :
    Hits c bufferSize d o := by
  refine (parses_iff h).2 ⟨rfl, zero_le _, ?_, rfl⟩
  unfold decodeOpt at h
  split at h
  · assumption
  · cases h

lemma skips_of_noEmptyHeader (hfree : CollisionFree c bufferSize d n) (hempty : NoEmptyHeader d n)
    (hin : d.Open ∨ ResidueInside bufferSize d o) (ho : o < n) : Skips c bufferSize d o := by
  intro hdr hdecode hnonzero hlen
  refine ⟨fun hinside => ?_, fun hcut => hin.resolve_right fun hinside => ?_⟩
  · by_cases hzero : hdr.payloadLen = 0
    · -- an empty payload has one checksum only
      have hne : hdr.crc32 ≠ emptyPayloadCrc := by
        rintro hcrc
        refine hempty o ho (hdecode.trans (congrArg some ?_))
        cases hdr
        cases hzero
        cases hcrc
        rfl
      rw [hzero, verify, Bool.and_eq_false_iff]
      exact .inr (beq_false_of_ne hne.symm)
    · exact hfree o ho hdr hdecode hzero hlen hinside
  · exact absurd (hinside hdr hdecode hnonzero hlen) (not_le.2 hcut)

/-- A device that lost segments is searched first. -/
lemma startsAt_of_frameSync {sync : Option Nat} (h : 0 < d.startSegment)
    (hsync : frameSync c bufferSize d (recoverFuel d) d.begin = some (.ok sync))
    (hget : sync.getD d.begin = d.begin + n) : StartsAt c bufferSize d n :=
  ⟨sync, (if_pos h).trans hsync, hget⟩

namespace Truncated

variable (h : Truncated c bufferSize d before cut after padding)
include h

lemma data_eq : d.data =
    (c.frames (before ++ [cut]) ++ (c.frames after ++ replicate padding 0)).drop d.begin := by
  rw [h.data, ← append_assoc, ← frames_append, append_assoc, singleton_append]

lemma drop_eq : d.data.drop (recordsLen (before ++ [cut]) - d.begin) =
    c.frames after ++ replicate padding 0 := by
  rw [h.data_eq, drop_drop, Nat.add_sub_cancel' h.le_end, drop_left' (length_frames_eq ..)]

lemma length_eq : d.data.length =
    recordsLen (before ++ [cut]) - d.begin + (recordsLen after + padding) := by
  have hle := h.le_end
  rw [h.data_eq, length_drop, length_append, length_append, length_frames_eq,
    length_frames_eq, length_replicate]
  omega

/-- Once the boundary is found, the scan decides. -/
lemma recoversFrom_iff_of_startsAt
    (hstart : StartsAt c bufferSize d (recordsLen (before ++ [cut]) - d.begin)) :
    RecoversFrom c bufferSize d (recordsLen (before ++ [cut])) after ↔
      ReadsInside bufferSize d (recordsLen (before ++ [cut]) - d.begin) after := by
  have hx : recordsLen (before ++ [cut]) - d.begin ≤ d.data.length :=
    h.length_eq ▸ Nat.le_add_right ..
  constructor
  · rintro ⟨r, hr, -⟩
    by_contra hreads
    obtain ⟨segment, hmissing⟩ := recover_missing_of_startsAt hstart hx h.drop_eq h.admissible hreads
    cases hmissing.symm.trans hr
  · intro hreads
    obtain ⟨r, hr, hbegin, hcommitted, -⟩ := recover_ok_of_startsAt hstart hx h.drop_eq h.admissible
      (parses_zeros c bufferSize padding) hreads
    rw [Nat.add_sub_cancel' h.le_end] at hbegin hcommitted
    exact ⟨r, hr, hbegin, hcommitted⟩

lemma startsAt_of_cons {payload : List Byte} {rest : List (List Byte)} (hafter : after = payload :: rest)
    (hskips : ∀ o < recordsLen (before ++ [cut]) - d.begin, Skips c bufferSize d o)
    (hin : d.Open ∨ syncWindow 0 (recordsLen (before ++ [cut]) - d.begin) + recoverChunkSize ≤ d.data.length) :
    StartsAt c bufferSize d (recordsLen (before ++ [cut]) - d.begin) := by
  have hlength := h.length_eq
  have hhits : Hits c bufferSize d (recordsLen (before ++ [cut]) - d.begin) := by
    rw [Hits, h.drop_eq, hafter, frames_cons, append_assoc]
    exact parses_frame (h.admissible payload (hafter ▸ mem_cons_self))
  have hsync := frameSync_hit (show _ < recoverFuel d by rw [recoverFuel_eq]; omega)
    (zero_le _) hhits (fun o _ ho => hskips o ho) hin
  exact startsAt_of_frameSync h.removed hsync rfl

lemma startsAt_of_nil (hafter : after = []) (hbegin : d.begin = recordsLen (before ++ [cut]))
    (hopen : d.Open) : StartsAt c bufferSize d (recordsLen (before ++ [cut]) - d.begin) := by
  rw [← hbegin, Nat.sub_self]
  have hzeros : d.data = replicate padding 0 := by
    have := h.drop_eq
    rwa [hbegin, Nat.sub_self, hafter, frames_nil] at this
  refine startsAt_of_frameSync h.removed (frameSync_eof (by rw [recoverFuel_eq]; omega)
    (zero_le _) hopen ?_) rfl
  intro o _ _ hdr hdecode hnonzero
  rw [hzeros, drop_replicate] at hdecode
  rw [decodeOpt_zeros hdecode] at hnonzero
  cases hnonzero

end Truncated

lemma settleScan_beginAddress {b : Nat} {s : Scan} {r : Recovered}
    (h : settleScan bufferSize d b s = .ok r) : r.beginAddress = b := by
  have hmap {f : List Byte → Recovered} (preload : Except DeviceError (List Byte))
      (hf : ∀ bytes, (f bytes).beginAddress = b) (hr : preload.map f = .ok r) : r.beginAddress = b := by
    cases preload with
    | error => cases hr
    | ok bytes => exact Except.ok.inj hr ▸ hf bytes
  exact hmap _ (fun _ => rfl) h

section

variable (hremoved : 0 < d.startSegment)
include hremoved

lemma exists_sync {r : Recovered} (h : recover c bufferSize d = some (.ok r)) :
    ∃ sync, frameSync c bufferSize d (recoverFuel d) d.begin = some (.ok sync) ∧
      sync.getD d.begin = r.beginAddress := by
  unfold recover at h
  rw [if_pos hremoved] at h
  obtain ⟨sync, hsync, h⟩ := Option.bind_eq_some_iff.1 h
  cases sync with
  | error => cases h
  | ok sync =>
    obtain ⟨result, -, h⟩ := Option.bind_eq_some_iff.1 h
    cases result with
    | error => cases h
    | ok => exact ⟨sync, hsync, (settleScan_beginAddress (Option.some.inj h)).symm⟩

/-- Recovery never starts behind an offset that it takes for a record. -/
lemma not_recoversFrom_of_hits (hhits : Hits c bufferSize d o) (ho : o < n) :
    ¬RecoversFrom c bufferSize d (d.begin + n) after := by
  rintro ⟨r, hr, hbegin, -⟩
  obtain ⟨sync, hsync, hget⟩ := exists_sync hremoved hr
  rw [hbegin] at hget
  cases sync with
  | none =>
    have hget : d.begin = d.begin + n := hget
    omega
  | some =>
    obtain ⟨m, rfl, -, -, hskips, -⟩ := frameSync_some (zero_le _) hsync
    have hget : d.begin + m = d.begin + n := hget
    exact (hskips o (zero_le _) (by omega)).not_hits hhits

/-- Recovery of a short log that ends with its last file fails. -/
lemma not_recoversFrom_of_full (hclosed : ¬d.Open)
    (hshort : d.data.length < recoverChunkSize) (boundary : Nat) :
    ¬RecoversFrom c bufferSize d boundary after := by
  rintro ⟨r, hr, -⟩
  obtain ⟨sync, hsync, -⟩ := exists_sync hremoved hr
  cases sync with
  | none => exact hclosed (frameSync_none (zero_le _) hsync).1
  | some =>
    obtain ⟨n, -, -, -, -, hwin⟩ := frameSync_some (zero_le _) hsync
    have := hwin.resolve_left hclosed
    omega

end

/-- Recovery of what is left starts at the first record boundary exactly when no header of an empty
record stands before it, there is a record behind it, and no read goes past the last file. -/
theorem recoversFrom_iff (h : Truncated c bufferSize d before cut after padding)
    (hfree : CollisionFree c bufferSize d (recordsLen (before ++ [cut]) - d.begin)) :
    RecoversFrom c bufferSize d (recordsLen (before ++ [cut])) after ↔
      NoEmptyHeader d (recordsLen (before ++ [cut]) - d.begin) ∧
      SearchesInside bufferSize d (recordsLen (before ++ [cut]) - d.begin) ∧
      (after = [] → d.begin = recordsLen (before ++ [cut]) ∧ d.Open) ∧
      ReadsInside bufferSize d (recordsLen (before ++ [cut]) - d.begin) after := by
  have hle := h.le_end
  constructor
  · intro hrecovers
    obtain ⟨r, hr, hbegin, -⟩ := id hrecovers
    obtain ⟨sync, hsync, hget⟩ := exists_sync h.removed hr
    rw [hbegin] at hget
    have hreads := (h.recoversFrom_iff_of_startsAt (startsAt_of_frameSync h.removed hsync
      (hget.trans (Nat.add_sub_cancel' hle).symm))).1 hrecovers
    cases sync with
    | none =>
      -- the search saw the end of the log, so the log starts where the segment does
      have hget : d.begin = recordsLen (before ++ [cut]) := hget
      have hopen := (frameSync_none (zero_le _) hsync).1
      refine ⟨fun o ho => by omega, .inl hopen, fun _ => ⟨hget, hopen⟩, hreads⟩
    | some addr =>
      obtain ⟨n, haddr, -, hhits, hskips, hwin⟩ := frameSync_some (zero_le _) hsync
      obtain rfl : addr = recordsLen (before ++ [cut]) := hget
      obtain rfl : recordsLen (before ++ [cut]) - d.begin = n := by omega
      refine ⟨fun o ho hempty => ?_, ?_, fun hafter => ?_, hreads⟩
      · exact (hskips o (zero_le _) ho).not_hits (hits_of_emptyHeader hempty)
      · by_cases hopen : d.Open
        · exact .inl hopen
        · refine .inr ⟨hwin.resolve_left hopen, fun o ho hdr hdecode hnonzero hlen => ?_⟩
          by_contra hcut
          exact hopen ((hskips o (zero_le _) ho hdr hdecode hnonzero hlen).2 (not_le.1 hcut))
      · rw [Hits, h.drop_eq, hafter, frames_nil, nil_append, parses_zeros] at hhits
        cases hhits
  · rintro ⟨hempty, hsearch, hnil, hreads⟩
    cases after with
    | nil =>
      obtain ⟨hbegin, hopen⟩ := hnil rfl
      exact (h.recoversFrom_iff_of_startsAt (h.startsAt_of_nil rfl hbegin hopen)).2 hreads
    | cons =>
      have hskips (o : Nat) (ho : o < recordsLen (before ++ [cut]) - d.begin) : Skips c bufferSize d o :=
        skips_of_noEmptyHeader hfree hempty (hsearch.imp_right fun hin => hin.2 o ho) ho
      have hstart := h.startsAt_of_cons rfl hskips (hsearch.imp_right And.left)
      exact (h.recoversFrom_iff_of_startsAt hstart).2 hreads

/-- Two files are left of three. -/
def secondAndThird (size : Nat) (hpos : 0 < size) (second third : List Byte) (hsecond : second.length = size)
    (hthird : third.length ≤ size) : Device where
  segmentSize := size
  startSegment := 1
  files := [second, third]
  segment_pos := hpos
  full := by
    rintro _ (_ | ⟨_, ⟨⟩⟩)
    exact hsecond
  le_size := by
    rintro _ (_ | ⟨_, _ | ⟨_, ⟨⟩⟩⟩)
    · exact hsecond.le
    · exact hthird

/-- The first segment left starts in the middle of a payload of sevens. -/
theorem recoversFrom_sevens :
    RecoversFrom sumChecksum 64
      (secondAndThird 16 (by decide)
        (replicate 8 7 ++ (sumChecksum.frame [1, 2, 3]).take 8) [1, 2, 3] (by decide) (by decide))
      24 [[1, 2, 3]] :=
  (recoversFrom_iff
    (show Truncated sumChecksum 64 _ [] (replicate 16 7) [[1, 2, 3]] 0 from
      { removed := by decide, data := by decide, start_lt := by decide, le_end := by decide
        admissible := by decide })
    (by decide)).2 ⟨by decide, .inl (by decide), nofun, .inl (by decide)⟩

/-- Eight bytes of a payload read as the header of an empty record. And a record ends with the last file:
the read behind it asks for the next one. -/
theorem exists_not_recoversFrom :
    (∃ d cut after, Truncated sumChecksum 64 d [] cut after 0 ∧
      CollisionFree sumChecksum 64 d (recordsLen [cut] - d.begin) ∧
      ¬RecoversFrom sumChecksum 64 d (recordsLen [cut]) after) ∧
    ∃ d cut after, Truncated sumChecksum 64 d [] cut after 0 ∧
      CollisionFree sumChecksum 64 d (recordsLen [cut] - d.begin) ∧
      NoEmptyHeader d (recordsLen [cut] - d.begin) ∧
      ¬RecoversFrom sumChecksum 64 d (recordsLen [cut]) after := by
  constructor
  · refine ⟨secondAndThird 16 (by decide)
      ([0, 0, 0, 0, 255, 255, 255, 255] ++ (sumChecksum.frame [1, 2, 3]).take 8) [1, 2, 3] (by decide) (by decide),
      replicate 8 7 ++ [0, 0, 0, 0, 255, 255, 255, 255], [[1, 2, 3]],
      { removed := by decide, data := by decide, start_lt := by decide, le_end := by decide, admissible := by decide },
      by decide, ?_⟩
    exact not_recoversFrom_of_hits (o := 0) (n := 8) (by decide) (hits_of_emptyHeader (by decide)) (by decide)
  · refine ⟨secondAndThird 16 (by decide)
      (replicate 8 7 ++ (sumChecksum.frame (replicate 16 1)).take 8) (replicate 16 1)
      (by decide) (by decide), replicate 16 7, [replicate 16 1],
      { removed := by decide, data := by decide, start_lt := by decide, le_end := by decide, admissible := by decide },
      by decide, by decide, ?_⟩
    exact not_recoversFrom_of_full (by decide) (by decide) (by decide) _

end

end Wedb.Wal
