import Wedb.Wal.Recover

/-!
# What the scan reads

Whatever window a record is read through, the scan sees the bytes of the device. Positions are counted
from the begin of the device.
-/

namespace Wedb.Wal

open Checksum Device Nat List WalFrameHeader

variable {c : Checksum} {bufferSize : Nat} {d : Device} {x w : Nat} {win : DiskWindow}

/-- The window that starts at `w`. -/
def windowAt (d : Device) (w : Nat) : DiskWindow :=
  ⟨some ((d.data.drop w).take recoverChunkSize), d.begin + w⟩

@[simp]
lemma windowAt_slice : (windowAt d w).slice = (d.data.drop w).take recoverChunkSize := rfl

lemma windowAt_covers (hx : x + recordHeaderLen ≤ d.data.length) :
    (windowAt d w).covers (d.begin + x) recordHeaderLen = true ↔
      w ≤ x ∧ x + recordHeaderLen ≤ w + recoverChunkSize := by
  unfold DiskWindow.covers windowAt
  simp only [Bool.and_eq_true, decide_eq_true_eq, length_take, length_drop]
  omega

lemma windowAt_not_covers (hle : x ≤ d.data.length) (hx : d.data.length < x + recordHeaderLen) :
    (windowAt d w).covers (d.begin + x) recordHeaderLen = false := by
  unfold DiskWindow.covers windowAt
  simp only [Bool.and_eq_false_iff, decide_eq_false_iff_not, length_take, length_drop]
  omega

/-! ### Headers -/

lemma decodeOpt_take {l : List Byte} {n : Nat} (hn : recordHeaderLen ≤ n) :
    decodeOpt (l.take n) = decodeOpt l := by
  simp only [decodeOpt, length_take, take_take, min_eq_left hn]
  congr 1
  simp only [eq_iff_iff]
  omega

lemma sub_windowAt : d.begin + x - (windowAt d w).offset = x - w := Nat.add_sub_add_left ..

/-- The header at a place of the device, through any window that covers it. -/
lemma decodeOpt_windowAt (hw : w ≤ x) (hx : x + recordHeaderLen ≤ w + recoverChunkSize) :
    decodeOpt ((windowAt d w).slice.drop (d.begin + x - (windowAt d w).offset)) =
      decodeOpt (d.data.drop x) := by
  rw [sub_windowAt, windowAt_slice, drop_take, drop_drop, Nat.add_sub_cancel' hw,
    decodeOpt_take (by omega)]

/-! ### Payloads -/

variable {hdr : WalFrameHeader}

lemma readRecoverPayload_ok (hw : w ≤ x)
    (h : x + recordHeaderLen + hdr.payloadLen ≤ d.data.length) :
    readRecoverPayload d (d.begin + x) hdr (windowAt d w) (x - w) =
      .ok ((d.data.drop (x + recordHeaderLen)).take hdr.payloadLen) := by
  unfold readRecoverPayload DiskWindow.payload
  rw [if_neg (by simp only [windowAt]; omega)]
  by_cases hin : x - w + recordHeaderLen + hdr.payloadLen ≤ (windowAt d w).slice.length
  · rw [if_pos hin]
    rw [windowAt_slice, length_take] at hin
    rw [windowAt_slice, drop_take, drop_drop, take_take,
      min_eq_left (by omega), show w + (x - w + recordHeaderLen) = x + recordHeaderLen by omega]
  · rw [if_neg hin]
    rw [add_assoc, readRange_ok h]

lemma payload_eq_none (hw : w ≤ x) (hx : x + recordHeaderLen ≤ d.data.length)
    (h : d.data.length < x + recordHeaderLen + hdr.payloadLen) :
    (windowAt d w).payload (d.begin + x) hdr (x - w) = none := by
  unfold DiskWindow.payload
  rw [if_neg (by simp only [windowAt]; omega)]
  rw [if_neg]
  rw [windowAt_slice, length_take, length_drop]
  omega

lemma verifyCandidate_ok (hw : w ≤ x) (h : x + recordHeaderLen + hdr.payloadLen ≤ d.data.length) :
    verifyCandidate c d (d.begin + x) hdr (windowAt d w) (x - w) =
      .ok (c.verify hdr ((d.data.drop (x + recordHeaderLen)).take hdr.payloadLen)) := by
  rw [verifyCandidate, readRecoverPayload_ok hw h]

lemma verifyCandidate_eof (hopen : d.Open) (hw : w ≤ x) (hx : x + recordHeaderLen ≤ d.data.length)
    (h : d.data.length < x + recordHeaderLen + hdr.payloadLen) :
    verifyCandidate c d (d.begin + x) hdr (windowAt d w) (x - w) = .ok false := by
  have hlimit : d.data.length < d.files.length * d.segmentSize := lt_of_add_lt_add_left hopen
  rw [verifyCandidate, readRecoverPayload, payload_eq_none hw hx h]
  rw [add_assoc, readRange_eof (by omega) h hopen (by omega)]

lemma verifyCandidate_missing (hclosed : ¬d.Open) (hw : w ≤ x)
    (hx : x + recordHeaderLen ≤ d.data.length)
    (h : d.data.length < x + recordHeaderLen + hdr.payloadLen) :
    ∃ segment, verifyCandidate c d (d.begin + x) hdr (windowAt d w) (x - w) =
      .error (.segmentNotFound segment) := by
  obtain ⟨segment, hread⟩ := readRange_missing (by omega) h (.inl hclosed)
  refine ⟨segment, ?_⟩
  rw [verifyCandidate, readRecoverPayload, payload_eq_none hw hx h]
  rw [add_assoc, hread]

/-! ### Windows -/

lemma fetchTail_ok (hx : x + recordHeaderLen ≤ d.data.length)
    (h : d.Open ∨ x + recoverChunkSize ≤ d.data.length) :
    fetchTail d (d.begin + x) recoverChunkSize recordHeaderLen =
      .ok ((d.data.drop x).take recoverChunkSize) := by
  unfold fetchTail
  rcases lt_or_ge d.data.length (x + recoverChunkSize) with hlt | hge
  · have hopen : d.Open := h.resolve_right (by omega)
    have hlimit : d.data.length < d.files.length * d.segmentSize := lt_of_add_lt_add_left hopen
    rw [readRange_eof (by decide) hlt hopen (by omega)]
    dsimp only
    rw [if_pos (by omega), readRange_ok (by omega),
      take_of_length_le (by rw [length_drop]),
      take_of_length_le (by rw [length_drop]; omega)]
  · rw [readRange_ok hge]

lemma fetchTail_eof (hopen : d.Open) (hx : x ≤ d.data.length)
    (h : d.data.length < x + recordHeaderLen) :
    fetchTail d (d.begin + x) recoverChunkSize recordHeaderLen =
      .error (.unexpectedEof recoverChunkSize (d.data.length - x)) := by
  have hlimit : d.data.length < d.files.length * d.segmentSize := lt_of_add_lt_add_left hopen
  have hchunk : recordHeaderLen ≤ recoverChunkSize := by decide
  rw [fetchTail, readRange_eof (by decide) (by omega) hopen (by omega)]
  dsimp only
  rw [if_neg (by omega)]

lemma fetchTail_missing (hclosed : ¬d.Open) (h : d.data.length < x + recoverChunkSize) :
    ∃ segment, fetchTail d (d.begin + x) recoverChunkSize recordHeaderLen =
      .error (.segmentNotFound segment) := by
  obtain ⟨segment, hread⟩ := readRange_missing (by decide) h (.inl hclosed)
  exact ⟨segment, by rw [fetchTail, hread]⟩

/-- Where the window starts through which the header at `x` is read. -/
def refresh (start : Option Nat) (x : Nat) : Nat :=
  match start with
  | some w => if w ≤ x ∧ x + recordHeaderLen ≤ w + recoverChunkSize then w else x
  | none => x

/-- The window in force: none at first. -/
def windowOf (d : Device) (start : Option Nat) : DiskWindow := start.elim .new (windowAt d)

variable {start : Option Nat}

lemma refresh_le : refresh start x ≤ x := by
  cases start with
  | none => exact le_rfl
  | some =>
    simp only [refresh]
    split
    · rename_i h
      exact h.1
    · exact le_rfl

lemma le_refresh_add : x + recordHeaderLen ≤ refresh start x + recoverChunkSize := by
  have hchunk : recordHeaderLen ≤ recoverChunkSize := by decide
  cases start with
  | none => exact Nat.add_le_add_left hchunk x
  | some =>
    simp only [refresh]
    split
    · rename_i h
      exact h.2
    · exact Nat.add_le_add_left hchunk x

/-- Either the window in force covers the header or a new one is read at it. -/
lemma refresh_cases (start : Option Nat) (hx : x + recordHeaderLen ≤ d.data.length) :
    (windowOf d start).covers (d.begin + x) recordHeaderLen = true ∧
        windowOf d start = windowAt d (refresh start x) ∨
      (windowOf d start).covers (d.begin + x) recordHeaderLen = false ∧ refresh start x = x := by
  cases start with
  | none => exact .inr ⟨rfl, rfl⟩
  | some w =>
    by_cases h : w ≤ x ∧ x + recordHeaderLen ≤ w + recoverChunkSize
    · exact .inl ⟨(windowAt_covers hx).2 h, by rw [refresh, if_pos h]; rfl⟩
    · refine .inr ⟨Bool.eq_false_iff.2 fun hcovers => h ((windowAt_covers hx).1 hcovers), ?_⟩
      rw [refresh, if_neg h]

lemma loadWindow_ok (hx : x + recordHeaderLen ≤ d.data.length)
    (h : d.Open ∨ refresh start x + recoverChunkSize ≤ d.data.length) :
    loadWindow d (d.begin + x) (windowOf d start) = .ok (windowAt d (refresh start x)) := by
  unfold loadWindow
  rcases refresh_cases start hx with ⟨hcovers, hwin⟩ | ⟨hcovers, hself⟩
  · rw [if_pos hcovers, hwin]
  · rw [hself] at h ⊢
    rw [if_neg (by rw [hcovers]; decide), fetchTail_ok hx h]
    rfl

lemma loadWindow_missing (hclosed : ¬d.Open) (hx : x ≤ d.data.length)
    (hin : ∀ w ∈ start, w + recoverChunkSize ≤ d.data.length)
    (h : d.data.length < refresh start x + recoverChunkSize) :
    ∃ segment, loadWindow d (d.begin + x) (windowOf d start) = .error (.segmentNotFound segment) := by
  have hcovers : (windowOf d start).covers (d.begin + x) recordHeaderLen = false := by
    rcases lt_or_ge d.data.length (x + recordHeaderLen) with hlt | hge
    · cases start with
      | none => rfl
      | some => exact windowAt_not_covers hx hlt
    · refine ((refresh_cases start hge).resolve_left fun hcov => ?_).1
      cases start with
      | none => cases hcov.1
      | some w =>
        have hcov := (windowAt_covers hge).1 hcov.1
        rw [refresh, if_pos hcov] at h
        exact absurd (hin w rfl) (not_le.2 h)
  obtain ⟨segment, hfetch⟩ := fetchTail_missing hclosed
    (h.trans_le (Nat.add_le_add_right refresh_le recoverChunkSize))
  refine ⟨segment, ?_⟩
  rw [loadWindow, if_neg (by rw [hcovers]; decide), hfetch]
  rfl

lemma loadWindow_eof (hopen : d.Open) (hx : x ≤ d.data.length)
    (h : d.data.length < x + recordHeaderLen) :
    loadWindow d (d.begin + x) (windowOf d start) =
      .error (.unexpectedEof recoverChunkSize (d.data.length - x)) := by
  have hcovers : (windowOf d start).covers (d.begin + x) recordHeaderLen = false := by
    cases start with
    | none => rfl
    | some => exact windowAt_not_covers hx h
  rw [loadWindow, if_neg (by rw [hcovers]; decide), fetchTail_eof hopen hx h]
  rfl

/-! ### One record -/

/-- The last commit frame, after a record at `addr`. -/
def seen (addr : Nat) (lastCommit : Option (CommitMeta × Nat)) (payload : List Byte) :
    Option (CommitMeta × Nat) :=
  if payload.length = commitFramePayloadLen then
    ((CommitMeta.decodePayload payload).map fun m => (m, addr + commitFrameTotalLen)).or lastCommit
  else lastCommit

/-- A payload that `recover` accepts. -/
def Admissible (bufferSize : Nat) (payload : List Byte) : Prop :=
  payload.length ≤ bufferSize ∧ payload.length < 2 ^ 32

instance (payload : List Byte) : Decidable (Admissible bufferSize payload) :=
  inferInstanceAs (Decidable (_ ∧ _))

variable {lastCommit : Option (CommitMeta × Nat)} {payload rest : List Byte} {fuel : Nat}

lemma scan_record (hp : Admissible bufferSize payload)
    (hdata : d.data.drop x = c.frame payload ++ rest)
    (h : d.Open ∨ refresh start x + recoverChunkSize ≤ d.data.length) :
    scan c bufferSize d (fuel + 1) (d.begin + x) (windowOf d start) lastCommit =
      scan c bufferSize d fuel (d.begin + (x + (recordHeaderLen + payload.length)))
        (windowOf d (some (refresh start x))) (seen (d.begin + x) lastCommit payload) := by
  have hlength := congrArg length hdata
  rw [length_drop, length_append, length_frame] at hlength
  have hend : x + recordHeaderLen + payload.length ≤ d.data.length := by
    have : 0 < recordHeaderLen := by decide
    omega
  have hbytes : (d.data.drop (x + recordHeaderLen)).take payload.length = payload := by
    rw [← drop_drop, hdata, frame, append_assoc, drop_left' (by simp), take_left]
  have hverify : verifyCandidate c d (d.begin + x) ⟨payload.length, c.payloadCrc payload⟩
      (windowAt d (refresh start x)) (x - refresh start x) = .ok true := by
    rw [verifyCandidate_ok refresh_le hend]
    exact congrArg Except.ok (by rw [payloadLen, hbytes]; exact c.verify_frame payload)
  have hread : readRecoverPayload d (d.begin + x) ⟨payload.length, c.payloadCrc payload⟩
      (windowAt d (refresh start x)) (x - refresh start x) = .ok payload := by
    rw [readRecoverPayload_ok refresh_le hend]
    exact congrArg Except.ok hbytes
  rw [scan, loadWindow_ok (by omega) h]
  dsimp only
  rw [decodeOpt_windowAt refresh_le le_refresh_add, hdata, c.decodeOpt_frame hp.2]
  have hlen : ¬bufferSize < payload.length := not_lt.2 hp.1
  simp only [c.isZero_frame payload, payloadLen, hlen, decide_false, Bool.or_self,
    Bool.false_eq_true, if_false, sub_windowAt, hverify, hread, seen, add_assoc]
  split <;> rfl

/-! ### All records -/

/-- The bytes that records take. -/
def recordsLen (records : List (List Byte)) : Nat :=
  (records.map fun payload => recordHeaderLen + payload.length).sum

lemma length_frames_eq (c : Checksum) (records : List (List Byte)) :
    (c.frames records).length = recordsLen records := by
  induction records with
  | nil => rfl
  | cons payload records ih =>
    rw [frames_cons, length_append, length_frame, ih]
    rfl

lemma recordsLen_cons (records : List (List Byte)) :
    recordsLen (payload :: records) = recordHeaderLen + payload.length + recordsLen records := rfl

/-- The window in force after the records from `x` on. -/
def windowAfter : Option Nat → Nat → List (List Byte) → Option Nat
  | start, _, [] => start
  | start, x, payload :: records =>
    windowAfter (some (refresh start x)) (x + (recordHeaderLen + payload.length)) records

/-- The last commit frame after the records from `addr` on. -/
def seenAll : Nat → Option (CommitMeta × Nat) → List (List Byte) → Option (CommitMeta × Nat)
  | _, lastCommit, [] => lastCommit
  | addr, lastCommit, payload :: records =>
    seenAll (addr + (recordHeaderLen + payload.length)) (seen addr lastCommit payload) records

/-- The start of the window through which the scan reads what comes after the records. -/
def lastWindow : Option Nat → Nat → List (List Byte) → Nat
  | start, x, [] => refresh start x
  | start, x, payload :: records =>
    lastWindow (some (refresh start x)) (x + (recordHeaderLen + payload.length)) records

variable {records : List (List Byte)}

lemma lastWindow_eq : lastWindow start x records =
    refresh (windowAfter start x records) (x + recordsLen records) := by
  induction records generalizing start x with
  | nil => rfl
  | cons payload records ih => rw [lastWindow, windowAfter, ih, recordsLen_cons, add_assoc]

lemma refresh_mono {n : Nat} : refresh start x ≤ refresh (some (refresh start x)) (x + n) := by
  have hle : refresh start x ≤ x := refresh_le
  generalize refresh start x = w at hle ⊢
  simp only [refresh]
  split <;> omega

/-- Windows only move forward. -/
lemma refresh_le_lastWindow : refresh start x ≤ lastWindow start x records := by
  induction records generalizing start x with
  | nil => exact le_rfl
  | cons payload records ih => exact refresh_mono.trans ih

lemma drop_record (h : d.data.drop x = c.frame payload ++ rest) :
    d.data.drop (x + (recordHeaderLen + payload.length)) = rest := by
  rw [← drop_drop, h, drop_left' (c.length_frame payload)]

lemma scan_records (start : Option Nat) (lastCommit : Option (CommitMeta × Nat)) (fuel : Nat)
    (hrecords : ∀ payload ∈ records, Admissible bufferSize payload)
    (hdata : d.data.drop x = c.frames records ++ rest)
    (h : d.Open ∨ lastWindow start x records + recoverChunkSize ≤ d.data.length) :
    scan c bufferSize d (fuel + records.length) (d.begin + x) (windowOf d start) lastCommit =
      scan c bufferSize d fuel (d.begin + (x + recordsLen records))
        (windowOf d (windowAfter start x records)) (seenAll (d.begin + x) lastCommit records) := by
  induction records generalizing start x lastCommit with
  | nil => rfl
  | cons payload records ih =>
    rw [frames_cons, append_assoc] at hdata
    have hmono : refresh start x ≤ lastWindow start x (payload :: records) := refresh_le_lastWindow
    rw [length_cons, ← add_assoc,
      scan_record (hrecords payload mem_cons_self) hdata (h.imp_right (by omega)),
      ih _ _ (fun p hp => hrecords p (mem_cons_of_mem _ hp)) (drop_record hdata) h,
      recordsLen_cons, windowAfter, seenAll]
    simp only [add_assoc]

/-- A window that runs past the last file. -/
lemma scan_window_missing (hclosed : ¬d.Open) (hx : x ≤ d.data.length)
    (hin : ∀ w ∈ start, w + recoverChunkSize ≤ d.data.length)
    (h : d.data.length < refresh start x + recoverChunkSize) :
    ∃ segment, scan c bufferSize d (fuel + 1) (d.begin + x) (windowOf d start) lastCommit =
      some (.error (.segmentNotFound segment)) := by
  obtain ⟨segment, hload⟩ := loadWindow_missing hclosed hx hin h
  exact ⟨segment, by rw [scan, hload]⟩

lemma scan_records_missing (start : Option Nat) (hclosed : ¬d.Open)
    (hrecords : ∀ payload ∈ records, Admissible bufferSize payload)
    (hdata : d.data.drop x = c.frames records ++ rest) (hx : x ≤ d.data.length)
    (hin : ∀ w ∈ start, w + recoverChunkSize ≤ d.data.length)
    (h : d.data.length < lastWindow start x records + recoverChunkSize) :
    ∃ segment, scan c bufferSize d (fuel + records.length + 1) (d.begin + x) (windowOf d start)
      lastCommit = some (.error (.segmentNotFound segment)) := by
  induction records generalizing start x lastCommit fuel with
  | nil => exact scan_window_missing hclosed hx hin h
  | cons payload records ih =>
    rcases lt_or_ge d.data.length (refresh start x + recoverChunkSize) with hlt | hge
    · exact scan_window_missing hclosed hx hin hlt
    · rw [frames_cons, append_assoc] at hdata
      have hlength := congrArg length hdata
      rw [length_drop, length_append, length_frame] at hlength
      rw [length_cons, scan_record (hrecords payload mem_cons_self) hdata (.inr hge)]
      have hin' : ∀ w ∈ some (refresh start x), w + recoverChunkSize ≤ d.data.length := by
        rintro _ ⟨⟩
        exact hge
      exact ih _ (fun p hp => hrecords p (mem_cons_of_mem _ hp)) (drop_record hdata) (by omega) hin' h

/-! ### What comes after the records -/

/-- What a scan takes for a record. -/
def parses (c : Checksum) (bufferSize : Nat) (bytes : List Byte) : Bool :=
  match decodeOpt bytes with
  | none => false
  | some hdr =>
    !hdr.isZero && hdr.payloadLen ≤ bufferSize && recordHeaderLen + hdr.payloadLen ≤ bytes.length &&
      c.verify hdr ((bytes.drop recordHeaderLen).take hdr.payloadLen)

lemma parses_iff {bytes : List Byte} (h : decodeOpt bytes = some hdr) :
    parses c bufferSize bytes = true ↔ hdr.isZero = false ∧ hdr.payloadLen ≤ bufferSize ∧
      recordHeaderLen + hdr.payloadLen ≤ bytes.length ∧
      c.verify hdr ((bytes.drop recordHeaderLen).take hdr.payloadLen) = true := by
  simp only [parses, h, Bool.and_eq_true, Bool.not_eq_true', decide_eq_true_eq, and_assoc]

/-- The header after the records asks for no more than the device has. -/
def ResidueInside (bufferSize : Nat) (d : Device) (x : Nat) : Prop :=
  ∀ hdr, decodeOpt (d.data.drop x) = some hdr → hdr.isZero = false →
    hdr.payloadLen ≤ bufferSize → x + recordHeaderLen + hdr.payloadLen ≤ d.data.length

lemma stopNoted_eq (hx : x ≤ d.data.length) :
    stopNoted d (d.begin + x) lastCommit =
      if ((d.data.drop x).take truncateProbeMax).any (· ≠ 0) then
        ⟨d.begin + x, lastCommit, d.begin + x, d.data.length - x⟩
      else ⟨d.begin + x, lastCommit, 0, 0⟩ := by
  have hprobe : hasNonzeroAfter d (d.begin + x) (d.data.length - x) =
      ((d.data.drop x).take truncateProbeMax).any (· ≠ 0) := by
    unfold hasNonzeroAfter
    dsimp only
    split
    · have hpos : 0 < truncateProbeMax := by decide
      rw [drop_eq_nil_of_le (by omega)]
      rfl
    · rw [readRange_ok (by omega)]
      conv_rhs => rw [take_eq_take_min, length_drop, min_comm]
  simp only [stopNoted, droppedBytesAfter_add hx, hprobe]

/-- The scan stops after the records and reports what is there. -/
lemma scan_stop (hx : x ≤ d.data.length) (hparses : parses c bufferSize (d.data.drop x) = false)
    (h : d.Open ∨ refresh start x + recoverChunkSize ≤ d.data.length ∧ ResidueInside bufferSize d x) :
    scan c bufferSize d (fuel + 1) (d.begin + x) (windowOf d start) lastCommit =
      some (.ok (stopNoted d (d.begin + x) lastCommit)) := by
  rw [scan]
  rcases lt_or_ge d.data.length (x + recordHeaderLen) with hshort | hlong
  · have hopen : d.Open := h.resolve_right fun ⟨hin, _⟩ => by
      have hcover : x + recordHeaderLen ≤ refresh start x + recoverChunkSize := le_refresh_add
      omega
    rw [loadWindow_eof hopen hx hshort]
    dsimp only
    split
    · rfl
    · rw [stopNoted_eq hx, drop_eq_nil_of_le (by omega)]
      rfl
  · rw [loadWindow_ok hlong (h.imp_right And.left)]
    dsimp only
    rw [decodeOpt_windowAt refresh_le le_refresh_add, sub_windowAt]
    cases hdecode : decodeOpt (d.data.drop x) with
    | none => rfl
    | some hdr =>
      dsimp only
      split
      · rfl
      · rename_i hvalid
        rw [Bool.or_eq_true, decide_eq_true_eq, not_or] at hvalid
        obtain ⟨hnonzero, hlen⟩ := hvalid
        have hfalse : verifyCandidate c d (d.begin + x) hdr (windowAt d (refresh start x))
            (x - refresh start x) = .ok false := by
          rcases lt_or_ge d.data.length (x + recordHeaderLen + hdr.payloadLen) with hcut | hwhole
          · refine verifyCandidate_eof (h.resolve_right fun ⟨_, hin⟩ => ?_) refresh_le hlong hcut
            exact absurd (hin hdr hdecode (Bool.eq_false_iff.2 hnonzero) (by omega)) (not_le.2 hcut)
          · rw [verifyCandidate_ok refresh_le hwhole]
            refine congrArg Except.ok (Bool.eq_false_iff.2 fun hverify => ?_)
            refine Bool.eq_false_iff.1 hparses ((parses_iff hdecode).2
              ⟨Bool.eq_false_iff.2 hnonzero, by omega, by rw [length_drop]; omega, ?_⟩)
            rwa [drop_drop]
        rw [hfalse]

/-- The header after the records asks for a file behind the last one. -/
lemma scan_stop_missing (lastCommit : Option (CommitMeta × Nat)) (fuel : Nat) (hclosed : ¬d.Open)
    (hin : refresh start x + recoverChunkSize ≤ d.data.length) (h : ¬ResidueInside bufferSize d x) :
    ∃ segment, scan c bufferSize d (fuel + 1) (d.begin + x) (windowOf d start) lastCommit =
      some (.error (.segmentNotFound segment)) := by
  have hcover : x + recordHeaderLen ≤ refresh start x + recoverChunkSize := le_refresh_add
  unfold ResidueInside at h
  push Not at h
  obtain ⟨hdr, hdecode, hnonzero, hlen, hcut⟩ := h
  have hle : refresh start x ≤ x := refresh_le
  obtain ⟨segment, hverify⟩ := verifyCandidate_missing hclosed hle (by omega) hcut
  refine ⟨segment, ?_⟩
  rw [scan, loadWindow_ok (by omega) (.inr hin)]
  dsimp only
  rw [decodeOpt_windowAt refresh_le le_refresh_add, sub_windowAt, hdecode]
  dsimp only
  rw [if_neg (by simp [hnonzero, hlen]), hverify]

/-! ### The whole scan -/

/-- The reads of a scan of `records` from `x` on stay inside the files there are. -/
def ReadsInside (bufferSize : Nat) (d : Device) (x : Nat) (records : List (List Byte)) : Prop :=
  d.Open ∨ lastWindow none x records + recoverChunkSize ≤ d.data.length ∧
    ResidueInside bufferSize d (x + recordsLen records)

section

variable (hrecords : ∀ payload ∈ records, Admissible bufferSize payload)
  (hdata : d.data.drop x = c.frames records ++ rest) (hx : x ≤ d.data.length)
  (hparses : parses c bufferSize rest = false) (hfuel : records.length < fuel)
include hrecords hdata hx hparses hfuel

lemma scan_ok (h : ReadsInside bufferSize d x records) :
    scan c bufferSize d fuel (d.begin + x) .new none =
      some (.ok (stopNoted d (d.begin + (x + recordsLen records)) (seenAll (d.begin + x) none records))) := by
  obtain ⟨fuel, rfl⟩ := Nat.exists_eq_add_of_lt hfuel
  have hlength := congrArg length hdata
  rw [length_drop, length_append, length_frames_eq] at hlength
  have hrest : d.data.drop (x + recordsLen records) = rest := by
    rw [← drop_drop, hdata, drop_left' (length_frames_eq c records)]
  have hsplit := scan_records none none (fuel + 1) hrecords hdata (h.imp_right And.left)
  rw [show records.length + fuel + 1 = fuel + 1 + records.length by omega]
  refine hsplit.trans (scan_stop (by omega) (by rwa [hrest]) ?_)
  rw [← lastWindow_eq]
  exact h

omit hparses in
lemma scan_missing (h : ¬ReadsInside bufferSize d x records) :
    ∃ segment, scan c bufferSize d fuel (d.begin + x) .new none =
      some (.error (.segmentNotFound segment)) := by
  obtain ⟨fuel, rfl⟩ := Nat.exists_eq_add_of_lt hfuel
  obtain ⟨hclosed, hreads⟩ := not_or.1 h
  rcases lt_or_ge d.data.length (lastWindow none x records + recoverChunkSize) with hlt | hge
  · rw [add_comm records.length]
    exact scan_records_missing none hclosed hrecords hdata hx nofun hlt
  · rw [show records.length + fuel + 1 = fuel + 1 + records.length by omega]
    have hsplit := scan_records none none (fuel + 1) hrecords hdata (.inr hge)
    rw [lastWindow_eq] at hge
    obtain ⟨segment, hstop⟩ := scan_stop_missing (c := c) (seenAll (d.begin + x) none records) fuel
      hclosed hge fun hin => hreads ⟨lastWindow_eq ▸ hge, hin⟩
    exact ⟨segment, hsplit.trans hstop⟩

end

end Wedb.Wal
