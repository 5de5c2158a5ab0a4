import Wedb.Wal.CommitWitness
import Wedb.Wal.FrameSync

/-!
# Recovery of crash images

A crash leaves on the device what was flushed, and behind it anything. Whatever is behind it, recovery
returns at least the committed address: a commit frame ends there, and every commit frame that is found
later ends later.
-/

set_option linter.unusedSectionVars false

namespace Wedb.Wal

open Checksum List

variable {c : Checksum} {bufferSize : Nat} {d : Device} {x : Nat}

/-! ### Every sequence of bytes starts with records -/

lemma WalFrameHeader.toBytes_fromBytes {bytes : List Byte} (h : bytes.length = recordHeaderLen) :
    (fromBytes bytes).toBytes = bytes := by
  have hlt := LittleEndian.decode_lt bytes
  have hencode := LittleEndian.encode_decode bytes
  rw [h, recordHeaderLen] at hlt hencode
  have hpacked : (fromBytes bytes).entryLen + (fromBytes bytes).crc32 * 2 ^ 32 =
      LittleEndian.decode bytes := by
    simp only [fromBytes]
    omega
  rw [toBytes, hpacked, hencode]

/-- What is taken for a record is one. -/
lemma exists_frame_of_parses {bytes : List Byte} (h : parses c bufferSize bytes = true) :
    ∃ payload rest, bytes = c.frame payload ++ rest ∧ Admissible bufferSize payload := by
  cases hdecode : WalFrameHeader.decodeOpt bytes with
  | none =>
    rw [parses, hdecode] at h
    cases h
  | some =>
    obtain ⟨-, hlen, hinside, hverify⟩ := (parses_iff hdecode).1 h
    unfold WalFrameHeader.decodeOpt at hdecode
    split at hdecode
    · rename_i hheader
      cases hdecode
      generalize hpayload : (bytes.drop recordHeaderLen).take _ = payload at hverify
      rw [verify, Bool.and_eq_true, beq_iff_eq, beq_iff_eq] at hverify
      have hlt : payload.length < 2 ^ 32 := by
        rw [hverify.1]
        exact Nat.mod_lt _ (by decide)
      refine ⟨payload, bytes.drop (recordHeaderLen + payload.length), ?_, hverify.1.le.trans hlen, hlt⟩
      have htoBytes : (c.forPayloadParts [payload]).toBytes = bytes.take recordHeaderLen := by
        rw [c.forPayloadParts_singleton hlt, hverify.1, hverify.2]
        exact WalFrameHeader.toBytes_fromBytes (length_take_of_le hheader)
      have hpayload' : payload = (bytes.drop recordHeaderLen).take payload.length := by
        rw [← hpayload, length_take, length_drop]
        exact congrArg (take · _) (by omega)
      have hrest : payload ++ bytes.drop (recordHeaderLen + payload.length) = bytes.drop recordHeaderLen := by
        rw [← drop_drop]
        nth_rewrite 1 [hpayload']
        exact take_append_drop ..
      rw [frame, htoBytes, append_assoc, hrest, take_append_drop]
    · cases hdecode

lemma exists_frames (c : Checksum) (bufferSize : Nat) (bytes : List Byte) :
    ∃ records residue, bytes = c.frames records ++ residue ∧
      (∀ payload ∈ records, Admissible bufferSize payload) ∧ parses c bufferSize residue = false := by
  induction hn : bytes.length using Nat.strong_induction_on generalizing bytes with
  | h n ih =>
    cases hparses : parses c bufferSize bytes with
    | false => exact ⟨[], bytes, rfl, forall_mem_nil _, hparses⟩
    | true =>
      obtain ⟨payload, rest, rfl, hp⟩ := exists_frame_of_parses hparses
      have hpos : 0 < recordHeaderLen := by decide
      rw [length_append, length_frame] at hn
      obtain ⟨records, residue, hrest, hrecords, hresidue⟩ := ih rest.length (by omega) rest rfl
      refine ⟨payload :: records, residue, ?_, ?_, hresidue⟩
      · rw [frames_cons, append_assoc, ← hrest]
      · rintro _ (_ | ⟨_, hmem⟩)
        · exact hp
        · exact hrecords _ hmem

/-! ### More records commit more -/

lemma recordsLen_append (as bs : List (List Byte)) :
    recordsLen (as ++ bs) = recordsLen as + recordsLen bs := by
  rw [recordsLen, map_append, sum_append]
  rfl

lemma commitEnd_append (addr : Nat) (as bs : List (List Byte)) :
    commitEnd addr (as ++ bs) = (commitEnd (addr + recordsLen as) bs).or (commitEnd addr as) := by
  induction as generalizing addr with
  | nil => exact (Option.or_none ..).symm
  | cons payload as ih =>
    rw [cons_append, commitEnd, ih, commitEnd, recordsLen_cons, Option.or_assoc, add_assoc]

lemma commitPoint_le_append (addr : Nat) (known more : List (List Byte)) :
    commitPoint addr known ≤ commitPoint addr (known ++ more) := by
  have hknown := (commitPoint_le addr known).2
  rw [commitPoint.eq_1 addr (known ++ more), commitEnd_append, recordsLen_append]
  cases hlater : commitEnd (addr + recordsLen known) more with
  | some =>
    have := (commitEnd_le hlater).1
    exact hknown.trans this.le
  | none =>
    unfold commitPoint
    cases commitEnd addr known with
    | some => exact le_rfl
    | none => exact Nat.add_le_add_left (Nat.le_add_right ..) addr

/-- When the last file is not full, recovery returns at least what the records commit that it is known
to find. -/
lemma recover_of_open {known : List (List Byte)} {rest : List Byte} (hopen : d.Open)
    (hstart : StartsAt c bufferSize d x) (hx : x ≤ d.data.length)
    (hdata : d.data.drop x = c.frames known ++ rest)
    (hknown : ∀ payload ∈ known, Admissible bufferSize payload) :
    ∃ r, recover c bufferSize d = some (.ok r) ∧ commitPoint (d.begin + x) known ≤ r.committed := by
  obtain ⟨more, residue, rfl, hmore, hresidue⟩ := exists_frames c bufferSize rest
  rw [← append_assoc, ← frames_append] at hdata
  obtain ⟨r, hr, -, hcommitted, -⟩ := recover_ok_of_startsAt hstart hx hdata
    (fun p hp => (mem_append.1 hp).elim (hknown p) (hmore p)) hresidue (.inl hopen)
  exact ⟨r, hr, hcommitted ▸ commitPoint_le_append ..⟩

/-- When the last file is not full, the search ends. -/
lemma exists_startsAt (c : Checksum) (bufferSize : Nat) (hopen : d.Open) :
    ∃ x, x ≤ d.data.length ∧ StartsAt c bufferSize d x := by
  rcases eq_zero_or_pos d.startSegment with hzero | hpos
  · exact ⟨0, Nat.zero_le _, startsAt_zero hzero⟩
  · by_cases hhit : ∃ n, Hits c bufferSize d n
    · classical
      have hspec := Nat.find_spec hhit
      have hle : .find hhit ≤ d.data.length := by
        have := hspec.header_le
        omega
      have hsync := frameSync_hit (show _ < recoverFuel d by rw [recoverFuel_eq]; omega)
        (Nat.zero_le _) hspec (fun o _ ho => skips_of_open hopen (Nat.find_min hhit ho)) (.inl hopen)
      exact ⟨_, hle, startsAt_of_frameSync hpos hsync rfl⟩
    · have hsync := frameSync_eof (show _ < recoverFuel d by rw [recoverFuel_eq]; omega)
        (Nat.zero_le _) hopen fun o _ _ => skips_of_open hopen fun h => hhit ⟨o, h⟩
      exact ⟨0, Nat.zero_le _, startsAt_of_frameSync hpos hsync rfl⟩

/-! ### Crashes -/

section

variable {W R : Type*} [DecidableEq W] [DecidableEq R] {cfg : Config} {s : State W R}
  {start : List (List Byte)} {cut rest : List Byte}

/-- What a crash may leave of the device: `cut` is the rest of a record before the begin of the log, and
what is behind the flushed address is arbitrary. -/
structure CrashImage (cfg : Config) (s : State W R) (d : Device) (cut rest : List Byte) : Prop where
  begin : cfg.begin = d.begin + cut.length
  whole : d.startSegment = 0 → cut = []
  data : d.data = cut ++ (Ring.load s.device cfg.begin (s.flushed - cfg.begin) ++ rest)

/-- The records that `recover` finds and keeps. -/
structure Kept (cfg : Config) (records : List (List Byte)) : Prop where
  admissible : ∀ payload ∈ records, Admissible cfg.bufferSize payload
  point : commitPoint cfg.begin records = cfg.begin + recordsLen records

/-- Whatever a witness stands for, recovery of the records before it keeps them all. -/
lemma Witness.exists_known {addr : Nat} (h : Witness cfg start s addr) (hkept : Kept cfg start)
    (hopened : start <+: s.records) :
    ∃ known more, s.records = known ++ more ∧ addr = cfg.begin + recordsLen known ∧
      commitPoint cfg.begin known = addr ∧ (start ≠ [] → known ≠ []) := by
  rcases h with rfl | ⟨before, payload, after, hrecords, hcommit, rfl⟩
  · obtain ⟨more, hmore⟩ := hopened
    exact ⟨start, more, hmore.symm, rfl, hkept.point, id⟩
  · refine ⟨before ++ [payload], after, by rw [hrecords, append_assoc, singleton_append], rfl,
      ?_, fun _ => append_ne_nil_of_right_ne_nil _ nofun⟩
    have hlast : commitEnd (cfg.begin + recordsLen before) [payload] =
        some (cfg.begin + recordsLen before + (recordHeaderLen + payload.length)) := by
      rw [commitEnd, if_pos hcommit]
      rfl
    rw [commitPoint, commitEnd_append, hlast, recordsLen_append]
    exact add_assoc ..

/-- The image from the begin of the log on. -/
lemma CrashImage.drop_eq (h : CrashImage cfg s d cut rest) {known more : List (List Byte)}
    (hrecords : s.records = known ++ more) (hdevice : OnDevice cfg s s.flushed)
    (hlength : s.flushed ≤ cfg.begin + (s.bytes cfg).length)
    (hknown : cfg.begin + recordsLen known ≤ s.flushed) :
    ∃ behind, d.data.drop cut.length = cfg.checksum.frames known ++ behind := by
  have hbytes : s.bytes cfg = cfg.checksum.frames known ++ cfg.checksum.frames more := by
    rw [State.bytes, hrecords, frames_append]
  have htake : (cfg.checksum.frames known).take (s.flushed - cfg.begin) = cfg.checksum.frames known :=
    take_of_length_le (by rw [length_frames_eq]; omega)
  rw [h.data, drop_left, hdevice.load_eq hlength, hbytes, take_append, htake, append_assoc]
  exact ⟨_, rfl⟩

/-- Recovery of an image starts with the log, when nothing before it reads as a record. -/
lemma CrashImage.startsAt (h : CrashImage cfg s d cut rest) (hopen : d.Open)
    (hquiet : ∀ o < cut.length, ¬Hits cfg.checksum cfg.bufferSize d o)
    (hhits : Hits cfg.checksum cfg.bufferSize d cut.length) :
    StartsAt cfg.checksum cfg.bufferSize d cut.length := by
  rcases eq_zero_or_pos d.startSegment with hzero | hpos
  · rw [h.whole hzero]
    exact startsAt_zero hzero
  · have hle := hhits.header_le
    have hsync := frameSync_hit (show _ < recoverFuel d by rw [recoverFuel_eq]; omega)
      (Nat.zero_le _) hhits (fun o _ ho => skips_of_open hopen (hquiet o ho)) (.inl hopen)
    exact startsAt_of_frameSync hpos hsync rfl

/-- In every reachable state the committed address is where the log was opened, or the end of a commit
frame that is on the device. From an image of the device whose last file is not full, and where nothing
before the begin of the log reads as a record, recovery returns at least that address. -/
theorem commitWitness_of_reachable {s₀ s : State W R} (h₀ : Opened cfg s₀) (hkept : Kept cfg s₀.records)
    (h : Machine.Reachable (step cfg) s₀ s) :
    s.committed ≤ s.flushed ∧ (s.committed = s₀.tail ∨ CommitEnd cfg s s.committed) ∧
    ∀ d cut rest, CrashImage cfg s d cut rest → (cut ≠ [] → s₀.records ≠ []) → d.Open →
      (∀ o < cut.length, parses cfg.checksum cfg.bufferSize (d.data.drop o) = false) →
      ∃ r, recover cfg.checksum cfg.bufferSize d = some (.ok r) ∧ s.committed ≤ r.committed := by
  have hi := witnessInv_of_reachable h₀ hkept.admissible h
  have hflush := flushInv_of_reachable h₀ h
  have htail : s₀.tail = cfg.begin + recordsLen s₀.records := by rw [h₀.tail, State.bytes, length_frames_eq]
  refine ⟨hi.committed_le, htail ▸ hi.committed, fun d cut rest himage hcut hopen hquiet => ?_⟩
  obtain ⟨known, more, hrecords, haddr, hpoint, hne⟩ := hi.committed.exists_known hkept hi.opened
  have hadmissible (payload : List Byte) (hp : payload ∈ known) : Admissible cfg.bufferSize payload :=
    hi.records payload (hrecords ▸ mem_append_left _ hp)
  obtain ⟨behind, hdata⟩ := himage.drop_eq hrecords hflush.contents.device
    (hflush.placed.length ▸ hflush.contents.flushed.1) (haddr ▸ hi.committed_le)
  have hlength : cut.length ≤ d.data.length := by
    rw [himage.data, length_append]
    exact Nat.le_add_right ..
  rw [himage.begin] at hpoint
  rcases known with _ | ⟨payload, known⟩
  · -- nothing is committed behind the begin of the device
    have hnil : cut = [] := by
      by_contra hcons
      exact hne (hcut hcons) rfl
    subst hnil
    obtain ⟨x, hx, hstart⟩ := exists_startsAt cfg.checksum cfg.bufferSize hopen
    have hdata : d.data.drop x = cfg.checksum.frames [] ++ d.data.drop x := rfl
    obtain ⟨r, hr, hle⟩ := recover_of_open hopen hstart hx hdata (forall_mem_nil _)
    have hpoint' := (commitPoint_le (d.begin + x) []).1
    have hbegin : s.committed = d.begin := hpoint.symm
    exact ⟨r, hr, by omega⟩
  · have hhits : Hits cfg.checksum cfg.bufferSize d cut.length := by
      rw [Hits, hdata, frames_cons, append_assoc]
      exact parses_frame (hadmissible payload mem_cons_self)
    have hstart := himage.startsAt hopen (fun o ho => Bool.eq_false_iff.1 (hquiet o ho)) hhits
    obtain ⟨r, hr, hle⟩ := recover_of_open hopen hstart hlength hdata hadmissible
    exact ⟨r, hr, hpoint ▸ hle⟩

/-- One record is written and committed. -/
def commitOne (payload : List Byte) : List (Action Bool Unit) :=
  [.enqueue true [[payload]], .writer (some true) (.claim 0), .writer (some true) .check,
    .writer (some true) .cas, .writer (some true) .write, .writer (some true) .release,
    .leader (.request (recordHeaderLen + payload.length)), .leader .enqueueCommit,
    .writer none (.claim 0), .writer none .check, .writer none .cas, .writer none .write,
    .writer none .release, .leader .frameDone, .reader none .readTail, .reader none .readSlot,
    .reader none .readSlot, .reader none .readSlot, .leader .clamp, .leader .fill, .leader .deviceWrite,
    .leader .store, .leader .publish]

lemma kept_nil (cfg : Config) : Kept cfg [] := ⟨forall_mem_nil _, rfl⟩

/-- The image of a log in one file that nothing was removed from. -/
lemma crashImage_oneFile (cfg : Config) (s : State W R) {size : Nat} (hpos : 0 < size) (hbegin : cfg.begin = 0)
    (h : (Ring.load s.device 0 s.flushed ++ rest).length ≤ size) :
    CrashImage cfg s (oneFile size hpos (Ring.load s.device 0 s.flushed ++ rest) h) [] rest where
  begin := by
    rw [hbegin, Device.begin, oneFile, zero_mul]
    rfl
  whole := fun _ => rfl
  data := by
    rw [data_oneFile, hbegin]
    rfl

/-- Nothing is recovered from one short file that is full. -/
lemma recover_ne_ok_of_full {file : List Byte} (hpos : 0 < file.length)
    (hshort : file.length < recoverChunkSize) (r : Recovered) :
    recover c bufferSize (oneFile file.length hpos file le_rfl) ≠ some (.ok r) := by
  have hreads : ¬ReadsInside bufferSize (oneFile file.length hpos file le_rfl) 0 [] := by
    rintro (hopen | ⟨hwindow, -⟩)
    · exact absurd ((open_oneFile_iff hpos le_rfl).1 hopen) (lt_irrefl _)
    · rw [data_oneFile] at hwindow
      exact absurd (Nat.le_of_add_left_le hwindow) (not_le.2 hshort)
  have hdata : (oneFile file.length hpos file le_rfl).data = c.frames [] ++ file := data_oneFile ..
  obtain ⟨segment, hmissing⟩ := recover_missing rfl hdata (forall_mem_nil _) hreads
  rw [hmissing]
  rintro ⟨⟩

/-- A byte of a torn write behind the committed record. -/
theorem commitWitness_commitOne :
    ∃ s, Machine.Reachable (step smallLog) (State.fresh smallLog Bool Unit) s ∧ s.committed = 50 ∧
      ∃ d, CrashImage smallLog s d [] [9] ∧
        ∃ r, recover smallLog.checksum 64 d = some (.ok r) ∧ 50 ≤ r.committed := by
  obtain ⟨s, hs, hobs⟩ := Machine.exists_reachable_of_run (step smallLog)
    (.fresh smallLog Bool Unit) (commitOne (replicate 10 1))
    (fun s => (s.flushed, s.committed)) (50, 50) (by decide +kernel)
  obtain ⟨hflushed, hcommitted⟩ := Prod.mk.inj hobs
  have hlength : (Ring.load s.device 0 s.flushed ++ [9]).length = 51 := by
    rw [hflushed]
    simp [Ring.load]
  have himage := crashImage_oneFile smallLog s (show 0 < 512 by decide) rfl (hlength.trans_le (by decide))
  have hall := (commitWitness_of_reachable (opened_fresh smallLog) (kept_nil smallLog) hs).2.2
  refine ⟨s, hs, hcommitted, _, himage, hcommitted ▸ hall _ [] [9] himage (absurd rfl) ?_ ?_⟩
  · exact (open_oneFile_iff ..).2 (by rw [hlength]; decide)
  · rintro o ⟨⟩

/-- A record and its commit frame fill the only file: the committed address is lost, and all of the
log. -/
theorem exists_not_commitWitness :
    ∃ s d, Machine.Reachable (step smallLog) (State.fresh smallLog Bool Unit) s ∧ s.committed = 64 ∧
      CrashImage smallLog s d [] [] ∧
      ¬∃ r, recover smallLog.checksum smallLog.bufferSize d = some (.ok r) ∧ s.committed ≤ r.committed := by
  obtain ⟨s, hs, hobs⟩ := Machine.exists_reachable_of_run (step smallLog)
    (.fresh smallLog Bool Unit) (commitOne (replicate 24 1))
    (fun s => (s.flushed, s.committed)) (64, 64) (by decide +kernel)
  obtain ⟨hflushed, hcommitted⟩ := Prod.mk.inj hobs
  have hlength : (Ring.load s.device 0 s.flushed ++ []).length = 64 := by
    rw [hflushed]
    simp [Ring.load]
  have hpos : 0 < (Ring.load s.device 0 s.flushed ++ []).length := hlength ▸ by decide
  refine ⟨s, _, hs, hcommitted, crashImage_oneFile smallLog s hpos rfl le_rfl, ?_⟩
  rintro ⟨r, hr, -⟩
  exact recover_ne_ok_of_full hpos (by rw [hlength]; decide) r hr

end

end Wedb.Wal
