import Wedb.Wal.RecoverScan

/-!
# Soundness and idempotence of recovery

A log whose records end in a torn tail is recovered up to its last commit frame, and a second recovery
finds nothing to cut off, with two exceptions. A last segment that is full makes the reads at the end
of the log ask for a file that does not exist. And a torn tail right at address zero is neither erased
nor told apart from none, because address zero stands for "nothing was cut off".
-/

namespace Wedb.Wal

open Nat Device List

variable {c : Checksum} {bufferSize : Nat} {d : Device} {x : Nat} {records : List (List Byte)}
  {residue : List Byte}

/-! ### The commit point -/

/-- The end of the last commit frame of the records from `addr` on. -/
def commitEnd : Nat → List (List Byte) → Option Nat
  | _, [] => none
  | addr, payload :: records =>
    (commitEnd (addr + (recordHeaderLen + payload.length)) records).or
      (if isCommit payload then some (addr + (recordHeaderLen + payload.length)) else none)

/-- Where the log ends for `recover`: after the last commit frame, after the last record when there is
none. -/
def commitPoint (addr : Nat) (records : List (List Byte)) : Nat :=
  (commitEnd addr records).getD (addr + recordsLen records)

lemma seen_end (addr : Nat) (lastCommit : Option (CommitMeta × Nat)) (payload : List Byte) :
    (seen addr lastCommit payload).map Prod.snd =
      (if isCommit payload then some (addr + (recordHeaderLen + payload.length)) else none).or
        (lastCommit.map Prod.snd) := by
  unfold seen isCommit
  by_cases hlen : payload.length = commitFramePayloadLen
  · cases hmeta : CommitMeta.decodePayload payload with
    | none => simp
    | some => simp [hlen, commitFrameTotalLen]
  · simp [hlen]

lemma seenAll_end (addr : Nat) (lastCommit : Option (CommitMeta × Nat)) (records : List (List Byte)) :
    (seenAll addr lastCommit records).map Prod.snd =
      (commitEnd addr records).or (lastCommit.map Prod.snd) := by
  induction records generalizing addr lastCommit with
  | nil => rfl
  | cons payload records ih => rw [seenAll, ih, seen_end, commitEnd, Option.or_assoc]

lemma commitEnd_le {addr e : Nat} (h : commitEnd addr records = some e) :
    addr < e ∧ e ≤ addr + recordsLen records := by
  have hpos : 0 < recordHeaderLen := by decide
  induction records generalizing addr with
  | nil => cases h
  | cons payload records ih =>
    rw [recordsLen_cons]
    rcases Option.or_eq_some_iff.1 h with h | ⟨-, h⟩
    · have := ih h
      omega
    · obtain ⟨-, ⟨⟩⟩ := Option.ite_none_right_eq_some.1 h
      omega

lemma commitPoint_le (addr : Nat) (records : List (List Byte)) :
    addr ≤ commitPoint addr records ∧ commitPoint addr records ≤ addr + recordsLen records := by
  unfold commitPoint
  cases h : commitEnd addr records with
  | none => exact ⟨Nat.le_add_right .., le_rfl⟩
  | some => exact ⟨(commitEnd_le h).1.le, (commitEnd_le h).2⟩

lemma exists_kept_of_commitEnd {addr e : Nat} (h : commitEnd addr records = some e) :
    ∃ kept dropped, records = kept ++ dropped ∧ addr + recordsLen kept = e ∧
      commitEnd addr kept = some e := by
  induction records generalizing addr with
  | nil => cases h
  | cons payload records ih =>
    rcases Option.or_eq_some_iff.1 h with hlater | ⟨-, hself⟩
    · obtain ⟨kept, dropped, rfl, hlen, hend⟩ := ih hlater
      refine ⟨payload :: kept, dropped, rfl, ?_, ?_⟩
      · rw [recordsLen_cons]
        omega
      · rw [commitEnd, hend]
        rfl
    · refine ⟨[payload], records, rfl, ?_, ?_⟩
      · obtain ⟨-, ⟨⟩⟩ := Option.ite_none_right_eq_some.1 hself
        rfl
      · rw [commitEnd, hself]
        rfl

/-- The records up to the commit point are all there is of a log that ends there. -/
lemma exists_kept (addr : Nat) (records : List (List Byte)) :
    ∃ kept dropped, records = kept ++ dropped ∧ addr + recordsLen kept = commitPoint addr records ∧
      commitPoint addr kept = commitPoint addr records := by
  cases h : commitEnd addr records with
  | none => exact ⟨records, [], (append_nil _).symm, by rw [commitPoint, h]; rfl, rfl⟩
  | some =>
    obtain ⟨kept, dropped, hsplit, hlen, hend⟩ := exists_kept_of_commitEnd h
    exact ⟨kept, dropped, hsplit, by rw [commitPoint, h, hlen]; rfl, by rw [commitPoint, commitPoint, h, hend]; rfl⟩

/-! ### The end of `recover` -/

/-- The scan settles on the commit point; the device keeps the log up to there. -/
lemma settleScan_ok (bufferSize b : Nat) {y : Nat} {s : Scan}
    (hcommitted : s.lastCommit.elim s.cur (fun last => min last.2 s.cur) = d.begin + y)
    (hy : y ≤ d.data.length) :
    ∃ preload, settleScan bufferSize d (d.begin + b) s = .ok
      { device := if d.begin + y < s.cur ∨ s.truncatedAt ≠ 0 then d.eraseTailAfter (d.begin + y) else d
        beginAddress := d.begin + b, committed := d.begin + y, lastCommit := s.lastCommit
        truncatedAt := s.truncatedAt, droppedBytes := s.droppedBytes, preload } := by
  unfold settleScan
  simp only [hcommitted]
  generalize hdevice : (if d.begin + y < s.cur ∨ s.truncatedAt ≠ 0 then d.eraseTailAfter (d.begin + y)
    else d) = device
  have hbegin : device.begin = d.begin := by
    subst hdevice
    split <;> rfl
  have hlength : y ≤ device.data.length := by
    subst hdevice
    split
    · rw [data_eraseTailAfter hy, length_take]
      omega
    · exact hy
  split
  · rename_i hpreload
    generalize hstart : max (d.begin + y - bufferSize) (d.begin + b) = preloadStart at hpreload ⊢
    obtain ⟨z, rfl⟩ : ∃ z, preloadStart = d.begin + z := ⟨preloadStart - d.begin, by omega⟩
    rw [← hbegin, readRange_ok (by omega)]
    exact ⟨_, rfl⟩
  · exact ⟨_, rfl⟩

lemma length_le_recordsLen (records : List (List Byte)) : records.length ≤ recordsLen records := by
  have hpos : 0 < recordHeaderLen := by decide
  induction records with
  | nil => exact le_rfl
  | cons =>
    rw [length_cons, recordsLen_cons]
    omega

lemma recoverFuel_eq : recoverFuel d = d.data.length + 1 := by
  rw [recoverFuel, data, length_flatten]

/-- `recover` starts to scan at the offset `x`. -/
def StartsAt (c : Checksum) (bufferSize : Nat) (d : Device) (x : Nat) : Prop :=
  ∃ sync, (if 0 < d.startSegment then frameSync c bufferSize d (recoverFuel d) d.begin
      else some (.ok none)) = some (.ok sync) ∧ sync.getD d.begin = d.begin + x

/-- A device that lost no segment is scanned from its begin. -/
lemma startsAt_zero (h : d.startSegment = 0) : StartsAt c bufferSize d 0 :=
  ⟨none, if_neg (by omega), rfl⟩

lemma StartsAt.recover_eq (h : StartsAt c bufferSize d x) :
    recover c bufferSize d =
      (scan c bufferSize d (recoverFuel d) (d.begin + x) .new none).bind fun result =>
        match result with
        | .error e => some (.error e)
        | .ok s => some (settleScan bufferSize d (d.begin + x) s) := by
  obtain ⟨sync, hsync, hget⟩ := h
  unfold recover
  rw [← hget]
  split at hsync
  · rw [if_pos ‹_›, hsync]
    rfl
  · obtain ⟨⟩ := hsync
    rw [if_neg ‹_›]
    rfl

/-- A torn tail that is told apart from padding. -/
def noisy (residue : List Byte) : Bool := (residue.take truncateProbeMax).any (· ≠ 0)

lemma stopNoted_eq_noisy (hx : x ≤ d.data.length) (lastCommit : Option (CommitMeta × Nat)) :
    stopNoted d (d.begin + x) lastCommit =
      { cur := d.begin + x, lastCommit
        truncatedAt := if noisy (d.data.drop x) then d.begin + x else 0
        droppedBytes := if noisy (d.data.drop x) then (d.data.drop x).length else 0 } := by
  rw [stopNoted_eq hx, noisy, length_drop]
  split <;> rfl

/-- What `recover` makes of a log between the given addresses and a residue behind it. -/
structure ScanSettled (d : Device) (records : List (List Byte)) (residue : List Byte)
    (start stop : Nat) (r : Recovered) : Prop where
  begin_eq : r.beginAddress = start
  committed : r.committed = commitPoint start records
  truncatedAt : r.truncatedAt = if noisy residue then stop else 0
  droppedBytes : r.droppedBytes = if noisy residue then residue.length else 0
  device : r.device = if commitPoint start records < stop ∨
    (if noisy residue then stop else 0) ≠ 0 then d.eraseTailAfter (commitPoint start records) else d

lemma settleScan_stopNoted (bufferSize : Nat) (hdata : d.data.drop x = c.frames records ++ residue)
    (hx : x ≤ d.data.length) :
    ∃ r, settleScan bufferSize d (d.begin + x) (stopNoted d (d.begin + (x + recordsLen records))
        (seenAll (d.begin + x) none records)) = .ok r ∧
      ScanSettled d records residue (d.begin + x) (d.begin + (x + recordsLen records)) r := by
  have hlength := congrArg length hdata
  rw [length_drop, length_append, length_frames_eq] at hlength
  have hrest : d.data.drop (x + recordsLen records) = residue := by
    rw [← drop_drop, hdata, drop_left' (length_frames_eq c records)]
  have hpoint := commitPoint_le (d.begin + x) records
  obtain ⟨y, hy⟩ : ∃ y, commitPoint (d.begin + x) records = d.begin + y :=
    ⟨commitPoint (d.begin + x) records - d.begin, by omega⟩
  have hcommitted : (seenAll (d.begin + x) none records).elim (d.begin + (x + recordsLen records))
      (fun last => min last.2 (d.begin + (x + recordsLen records))) = d.begin + y := by
    have hend := seenAll_end (d.begin + x) none records
    rw [Option.map_none, Option.or_none] at hend
    rw [← hy, commitPoint, ← hend]
    cases hseen : seenAll (d.begin + x) none records with
    | none => exact (add_assoc ..).symm
    | some =>
      rw [hseen] at hend
      have hle := (commitEnd_le hend.symm).2
      exact min_eq_left (by omega)
  rw [stopNoted_eq_noisy (by omega), hrest]
  generalize hscan : Scan.mk _ _ _ _ = s
  obtain ⟨preload, hsettle⟩ := settleScan_ok bufferSize x (s := s) (by subst hscan; exact hcommitted)
    (by omega)
  subst hscan
  exact ⟨_, hsettle, rfl, hy.symm, rfl, rfl, by rw [hy]⟩

section

variable (hstart : StartsAt c bufferSize d x) (hx : x ≤ d.data.length)
  (hdata : d.data.drop x = c.frames records ++ residue)
  (hrecords : ∀ payload ∈ records, Admissible bufferSize payload)
include hstart hx hdata hrecords

lemma recover_ok_of_startsAt (hparses : parses c bufferSize residue = false)
    (h : ReadsInside bufferSize d x records) :
    ∃ r, recover c bufferSize d = some (.ok r) ∧
      ScanSettled d records residue (d.begin + x) (d.begin + (x + recordsLen records)) r := by
  have hlength := congrArg length hdata
  rw [length_drop, length_append, length_frames_eq] at hlength
  have hcount := length_le_recordsLen records
  have hscan := scan_ok hrecords hdata hx hparses
    (show records.length < recoverFuel d by rw [recoverFuel_eq]; omega) h
  obtain ⟨r, hr⟩ := settleScan_stopNoted bufferSize hdata hx
  refine ⟨r, ?_, hr.2⟩
  rw [hstart.recover_eq, hscan]
  exact congrArg some hr.1

lemma recover_missing_of_startsAt (h : ¬ReadsInside bufferSize d x records) :
    ∃ segment, recover c bufferSize d = some (.error (.segmentNotFound segment)) := by
  have hlength := congrArg length hdata
  rw [length_drop, length_append, length_frames_eq] at hlength
  have hcount := length_le_recordsLen records
  obtain ⟨segment, hscan⟩ := scan_missing hrecords hdata hx
    (show records.length < recoverFuel d by rw [recoverFuel_eq]; omega) h
  refine ⟨segment, ?_⟩
  rw [hstart.recover_eq, hscan]
  rfl

end

/-! ### Both recoveries -/

/-- `recover` returns the commit point, and once more on the device it leaves, with nothing to
report. -/
def SoundAndIdempotent (c : Checksum) (bufferSize : Nat) (d : Device) (records : List (List Byte)) :
    Prop :=
  ∃ r, recover c bufferSize d = some (.ok r) ∧ r.committed = commitPoint 0 records ∧
    ∃ r', recover c bufferSize r.device = some (.ok r') ∧ r'.beginAddress = r.beginAddress ∧
      r'.committed = r.committed ∧ r'.truncatedAt = 0 ∧ r'.droppedBytes = 0

lemma begin_eq_zero (hstart : d.startSegment = 0) : d.begin = 0 := by
  rw [begin, hstart, zero_mul]

section

variable (hstart : d.startSegment = 0) (hdata : d.data = c.frames records ++ residue)
  (hrecords : ∀ payload ∈ records, Admissible bufferSize payload)
include hstart hdata hrecords

section

variable (hparses : parses c bufferSize residue = false)
include hparses

lemma recover_ok (h : ReadsInside bufferSize d 0 records) :
    ∃ r, recover c bufferSize d = some (.ok r) ∧
      ScanSettled d records residue 0 (recordsLen records) r := by
  have hr := recover_ok_of_startsAt (startsAt_zero hstart) (zero_le _) hdata hrecords hparses h
  rwa [begin_eq_zero hstart, zero_add, zero_add, zero_add] at hr

omit hparses in
lemma recover_missing (h : ¬ReadsInside bufferSize d 0 records) :
    ∃ segment, recover c bufferSize d = some (.error (.segmentNotFound segment)) :=
  recover_missing_of_startsAt (startsAt_zero hstart) (zero_le _) hdata hrecords h

omit hparses in
lemma not_soundAndIdempotent_of_missing (h : ¬ReadsInside bufferSize d 0 records) :
    ¬SoundAndIdempotent c bufferSize d records := by
  obtain ⟨segment, hmissing⟩ := recover_missing hstart hdata hrecords h
  rintro ⟨r, hr, -⟩
  rw [hmissing] at hr
  cases hr

/-- Nothing is erased: the second recovery does what the first one did. -/
lemma soundAndIdempotent_iff_of_kept
    (h : ReadsInside bufferSize d 0 records) (hpoint : recordsLen records ≤ commitPoint 0 records)
    (hkept : (if noisy residue then recordsLen records else 0) = 0) :
    SoundAndIdempotent c bufferSize d records ↔ noisy residue = false := by
  obtain ⟨r, hrecover, hrbegin, hrcommitted, hrat, hrdropped, hrdevice⟩ :=
    recover_ok hstart hdata hrecords hparses h
  rw [if_neg (by omega)] at hrdevice
  rw [hkept] at hrat
  have hsame : SoundAndIdempotent c bufferSize d records ↔ r.droppedBytes = 0 := by
    constructor
    · rintro ⟨r₁, h₁, -, r₂, h₂, -, -, -, hdropped⟩
      obtain ⟨⟩ := hrecover.symm.trans h₁
      rw [hrdevice, hrecover] at h₂
      obtain ⟨⟩ := h₂
      exact hdropped
    · intro hdropped
      exact ⟨r, hrecover, hrcommitted, r, hrdevice ▸ hrecover, rfl, rfl, hrat, hdropped⟩
  rw [hsame, hrdropped]
  cases hnoisy : noisy residue with
  | false => simp
  | true =>
    have hne : residue ≠ [] := by
      rintro rfl
      cases hnoisy
    simp [hne]

/-- The tail is erased: what is left is the log up to the commit point. -/
lemma soundAndIdempotent_of_erased (h : ReadsInside bufferSize d 0 records)
    (herase : commitPoint 0 records < recordsLen records ∨
      (if noisy residue then recordsLen records else 0) ≠ 0) :
    SoundAndIdempotent c bufferSize d records := by
  have hbegin : d.begin = 0 := begin_eq_zero hstart
  have hlength := congrArg length hdata
  rw [length_append, length_frames_eq] at hlength
  obtain ⟨r, hrecover, hrbegin, hrcommitted, hrat, hrdropped, hrdevice⟩ :=
    recover_ok hstart hdata hrecords hparses h
  rw [if_pos herase] at hrdevice
  have hpoint := (commitPoint_le 0 records).2
  have hcut : commitPoint 0 records < d.data.length := by
    rcases herase with hlt | hnoisy
    · omega
    · have hne : residue ≠ [] := by
        rintro rfl
        simp [noisy] at hnoisy
      have := length_pos_iff.2 hne
      omega
  obtain ⟨kept, dropped, hsplit, hkept, hkeptPoint⟩ := exists_kept 0 records
  have hdata' : (d.eraseTailAfter (commitPoint 0 records)).data = c.frames kept ++ [] := by
    have hdrop : d.data.take (commitPoint 0 records) = c.frames kept := by
      rw [hdata, hsplit, Checksum.frames_append, append_assoc, ← hsplit, ← hkept, zero_add,
        take_left' (length_frames_eq c kept)]
    have herased := data_eraseTailAfter hcut.le
    rw [hbegin, zero_add] at herased
    rw [herased, hdrop, append_nil]
  have hopen : (d.eraseTailAfter (commitPoint 0 records)).Open := by
    have := open_eraseTailAfter hcut
    rwa [hbegin, zero_add] at this
  obtain ⟨r', hrecover', hbegin', hcommitted', hat', hdropped', -⟩ :=
    recover_ok (d := d.eraseTailAfter (commitPoint 0 records)) hstart hdata'
      (fun p hp => hrecords p (hsplit ▸ mem_append_left _ hp)) rfl (.inl hopen)
  refine ⟨r, hrecover, hrcommitted, r', hrdevice ▸ hrecover', by rw [hbegin', hrbegin], ?_, hat',
    hdropped'⟩
  rw [hcommitted', hrcommitted, hkeptPoint]

end

end

/-- Recovery is sound and idempotent exactly when its reads stay inside the files there are and there
is no torn tail at address zero. -/
theorem soundAndIdempotent_iff (residue : List Byte) (hstart : d.startSegment = 0)
    (hdata : d.data = c.frames records ++ residue)
    (hrecords : ∀ payload ∈ records, Admissible bufferSize payload)
    (hparses : parses c bufferSize residue = false) :
    SoundAndIdempotent c bufferSize d records ↔
      ReadsInside bufferSize d 0 records ∧ (records = [] → noisy residue = false) := by
  by_cases hreads : ReadsInside bufferSize d 0 records
  · rw [and_iff_right hreads]
    by_cases herase : commitPoint 0 records < recordsLen records ∨
        (if noisy residue then recordsLen records else 0) ≠ 0
    · refine iff_of_true (soundAndIdempotent_of_erased hstart hdata hrecords hparses hreads herase) ?_
      rintro rfl
      simp [recordsLen] at herase
    · rw [not_or, not_not, not_lt] at herase
      rw [soundAndIdempotent_iff_of_kept hstart hdata hrecords hparses hreads herase.1 herase.2]
      refine ⟨fun h _ => h, fun h => Bool.eq_false_iff.2 fun hnoisy => ?_⟩
      -- what is told apart from padding stays only behind no record
      rw [if_pos hnoisy] at herase
      have hcount := length_le_recordsLen records
      rw [h (eq_nil_of_length_eq_zero (by omega))] at hnoisy
      cases hnoisy
  · exact iff_of_false (not_soundAndIdempotent_of_missing hstart hdata hrecords hreads)
      fun h => hreads h.1

/-- The sum of the bytes. -/
def sumChecksum : Checksum where
  crc32 := fun payload => (payload.map UInt8.toNat).sum % 2 ^ 32
  lt := fun _ => mod_lt _ (by decide)

/-- One segment file. -/
def oneFile (size : Nat) (hpos : 0 < size) (file : List Byte) (h : file.length ≤ size) : Device where
  segmentSize := size
  startSegment := 0
  files := [file]
  segment_pos := hpos
  full := nofun
  le_size := by
    rintro _ (_ | ⟨_, ⟨⟩⟩)
    exact h

variable {size : Nat}

lemma data_oneFile {file : List Byte} (hpos : 0 < size) (h : file.length ≤ size) :
    (oneFile size hpos file h).data = file := by
  rw [data, oneFile, flatten_singleton]

lemma open_oneFile_iff {file : List Byte} (hpos : 0 < size) (h : file.length ≤ size) :
    (oneFile size hpos file h).Open ↔ file.length < size := by
  rw [Open, dataEnd, limit, data_oneFile]
  simp [oneFile]

/-- A committed record and a torn one behind it. -/
theorem soundAndIdempotent_torn_tail :
    SoundAndIdempotent sumChecksum 64
      (oneFile 512 (by decide) (sumChecksum.frames [[1, 2, 3], (CommitMeta.mk 0 5).encodePayload] ++ [9, 0])
        (by decide)) [[1, 2, 3], (CommitMeta.mk 0 5).encodePayload] :=
  (soundAndIdempotent_iff [9, 0] rfl (append_nil _) (by decide) (by decide)).2
    ⟨.inl (by decide), nofun⟩

/-- A record that fills the only segment. -/
lemma not_soundAndIdempotent_of_full {payload : List Byte} (hpos : 0 < size)
    (hsize : (c.frame payload).length = size) (hchunk : size < recoverChunkSize)
    (hp : Admissible bufferSize payload) :
    ¬SoundAndIdempotent c bufferSize (oneFile size hpos (c.frame payload) hsize.le) [payload] := by
  have hframes : (oneFile size hpos (c.frame payload) hsize.le).data = c.frames [payload] ++ [] := by
    rw [data_oneFile, append_nil, Checksum.frames_cons, Checksum.frames_nil, append_nil]
  refine not_soundAndIdempotent_of_missing rfl hframes ?_ ?_
  · rintro _ (_ | ⟨_, ⟨⟩⟩)
    exact hp
  · rintro (hopen | ⟨hwindow, -⟩)
    · have := (open_oneFile_iff hpos hsize.le).1 hopen
      omega
    · rw [data_oneFile, hsize] at hwindow
      exact absurd (le_of_add_left_le hwindow) (not_le.2 hchunk)

/-- The first record of a log is torn: no address stands for the place where the log was cut off. And a
record fills the only segment: the read behind it asks for the next one. -/
theorem exists_not_soundAndIdempotent :
    (∃ d residue, d.startSegment = 0 ∧ d.data = sumChecksum.frames [] ++ residue ∧
      parses sumChecksum 1024 residue = false ∧ ¬SoundAndIdempotent sumChecksum 1024 d []) ∧
    ∃ d payload, d.startSegment = 0 ∧ d.data = sumChecksum.frames [payload] ++ [] ∧
      Admissible 1024 payload ∧ parses sumChecksum 1024 [] = false ∧
      ¬SoundAndIdempotent sumChecksum 1024 d [payload] := by
  constructor
  · refine ⟨oneFile 512 (by decide) [1] (by decide), [1], rfl, rfl, rfl, fun h => ?_⟩
    have hnoisy := (soundAndIdempotent_iff_of_kept rfl rfl (by decide) rfl
      (.inl (by decide)) (by decide) (by decide)).1 h
    cases hnoisy
  · have hlen : (replicate 504 (1 : Byte)).length = 504 := length_replicate
    have hsize : (sumChecksum.frame (replicate 504 1)).length = 512 := by
      rw [Checksum.length_frame, hlen]
      rfl
    have hp : Admissible 1024 (replicate 504 1) := by
      rw [Admissible, hlen]
      decide
    refine ⟨oneFile 512 (by decide) _ hsize.le, replicate 504 1, rfl, ?_, hp, rfl,
      not_soundAndIdempotent_of_full (by decide) hsize (by decide) hp⟩
    simp only [data, oneFile, Checksum.frames_cons, Checksum.frames_nil, flatten_cons,
      flatten_nil, append_nil]

end Wedb.Wal
