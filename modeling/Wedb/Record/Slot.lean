import Wedb.Record.InPlace
import Wedb.Lib.Machine

/-!
# Record slots

A record that was encoded and then changed in place keeps its bytes, its key and its neighbours, and
is read as the value that was written last, as long as the lengths of the values fit in the header.
-/

namespace Wedb.RecordSlot

open List RecordMut RecordHeader Slice LittleEndian

/-- The memory is the header, the key, the space for the value and what was behind the record. -/
structure Rep (dst key : Bytes) (size : Nat) (s : State) : Prop where
  page : s.record.page = s.record.header.toBytes ++ (key ++ (s.content.area ++ dst.drop size))
  size_eq : s.record.size = size
  area : headerSize + key.length + s.content.area.length = size
  keyLen : s.record.header.keyLen = key.length
  valLen : s.record.header.valLen = s.content.len
  physical : s.record.header.physicalSize = size

variable {header : RecordHeader} {n : Nat}

namespace Rep

variable {dst key : Bytes} {size : Nat} {s : State}

section

variable (h : Rep dst key size s)
include h

lemma infoWord : s.record.infoWord = s.record.header.prevAddress := by
  rw [RecordMut.infoWord, h.page, toBytes, append_assoc,
    take_left' (length_encode _ _),
    decode_encode_of_lt s.record.header.prevAddress.toNat_lt, UInt64.ofNat_toNat]

/-- A change of the flags. -/
lemma updateInfo (f : UInt64 → UInt64) : Rep dst key size ⟨s.record.updateInfo f, s.content⟩ := by
  refine ⟨?_, h.size_eq, h.area, h.keyLen, h.valLen, h.physical⟩
  have hlen : (encode 8 (f s.record.header.prevAddress).toNat).length =
      (encode 8 s.record.header.prevAddress.toNat).length := by
    rw [length_encode, length_encode]
  have hcopy := overwrite_middle [] (encode 8 s.record.header.rdhWord.toNat ++
    (key ++ (s.content.area ++ dst.drop size))) hlen
  dsimp only [RecordMut.updateInfo, toBytes]
  rw [h.infoWord, h.page, toBytes]
  simpa using hcopy

/-- Bytes in the space for the value. -/
lemma fillCapacity {off : Nat} {bytes : Bytes} (hin : off + bytes.length ≤ s.content.area.length) :
    Rep dst key size ⟨s.record.fillCapacity off bytes,
      { s.content with area := overwrite s.content.area off bytes }⟩ := by
  refine ⟨?_, h.size_eq, ?_, h.keyLen, h.valLen, h.physical⟩
  · have hcopy := overwrite_inside (s.record.header.toBytes ++ key) (dst.drop size) hin
    rw [length_append, length_toBytes] at hcopy
    dsimp only [RecordMut.fillCapacity, keyEnd]
    rw [h.page, h.keyLen]
    simpa only [append_assoc] using hcopy
  · exact (congrArg (headerSize + key.length + ·) (length_overwrite hin)).trans h.area

/-- A header with the same flags and key that occupies the same bytes. -/
lemma publishRdh (hprev : header.prevAddress = s.record.header.prevAddress)
    (hkey : header.keyLen = s.record.header.keyLen) (hval : header.valLen = n)
    (hsize : header.physicalSize = s.record.header.physicalSize) :
    Rep dst key size ⟨{ s.record with header }.publishRdh, { s.content with len := n }⟩ := by
  refine ⟨?_, h.size_eq, h.area, hkey.trans h.keyLen, hval, hsize.trans h.physical⟩
  have hlen : (encode 8 header.rdhWord.toNat).length =
      (encode 8 s.record.header.rdhWord.toNat).length := by
    rw [length_encode, length_encode]
  have hcopy := overwrite_middle (encode 8 s.record.header.prevAddress.toNat)
    (key ++ (s.content.area ++ dst.drop size)) hlen
  dsimp only [RecordMut.publishRdh]
  rw [h.page, toBytes, toBytes, hprev]
  exact hcopy

/-- Another length that the slot can take. -/
lemma publishValLayout {slack : Nat} (hn : n < 2 ^ 32)
    (hs : s.record.header.slackForValLen n = some slack) (clear : Bool) :
    Rep dst key size ⟨s.record.publishValLayout n slack clear, { s.content with len := n }⟩ := by
  have hval : (s.record.header.withLayout n slack).valLen = n := by
    rw [valLen_withLayout, Nat.mod_eq_of_lt hn]
  have hpublish := h.publishRdh (prevAddress_withLayout _ n slack)
    (keyLen_withLayout _ n slack) hval (physicalSize_withLayout hn hs)
  unfold RecordMut.publishValLayout
  split
  · exact hpublish.updateInfo fun word => word &&& ~~~(tombstoneBit ||| sealedBit)
  · exact hpublish

/-- A value that the slot can take fits in the space for it. -/
lemma le_area {slack : Nat} (hn : n < 2 ^ 32)
    (hs : s.record.header.slackForValLen n = some slack) : n ≤ s.content.area.length := by
  obtain ⟨hsize, -⟩ := slackForValLen_eq_some hn hs
  have harea := h.area
  rw [h.physical, h.keyLen] at hsize
  omega

/-- A value is written, or nothing happens. -/
lemma writeValWithSlack {v : Bytes} (hv : v.length < 2 ^ 32) (clear : Bool) :
    (s.record.writeValWithSlack v clear).2 = .ok () ∧
        Rep dst key size ⟨(s.record.writeValWithSlack v clear).1,
          ⟨overwrite s.content.area 0 v, v.length⟩⟩ ∨
      ∃ e, s.record.writeValWithSlack v clear = (s.record, .error e) := by
  unfold RecordMut.writeValWithSlack
  split
  · exact .inr ⟨_, rfl⟩
  · split
    · exact .inr ⟨_, rfl⟩
    · rename_i slack hs
      have hin : 0 + v.length ≤ s.content.area.length := by
        rw [zero_add]
        exact h.le_area hv hs
      exact .inl ⟨rfl, (h.fillCapacity hin).publishValLayout hv hs clear⟩

lemma resizeValWithSlack (hn : n < 2 ^ 32) :
    (s.record.resizeValWithSlack n).2 = .ok () ∧
        Rep dst key size ⟨(s.record.resizeValWithSlack n).1, { s.content with len := n }⟩ ∨
      ∃ e, s.record.resizeValWithSlack n = (s.record, .error e) := by
  unfold RecordMut.resizeValWithSlack
  split
  · exact .inr ⟨_, rfl⟩
  · split
    · exact .inr ⟨_, rfl⟩
    · rename_i slack hs
      exact .inl ⟨rfl, h.publishValLayout hn hs false⟩

end

end Rep

/-- The length that an operation gives to the value fits in its 32 bits of the header. -/
def Op.fits : Op → Bool
  | .updateValue newVal => newVal.length < 2 ^ 32
  | .resizeVal newValLen => newValLen < 2 ^ 32
  | .revivify newVal => newVal.length < 2 ^ 32
  | _ => true

variable {dst key : Bytes} {size : Nat} {s s' : State}

lemma Rep.step (h : Rep dst key size s) {op : Op} (hfits : op.fits = true)
    (hs : step s op = some s') : Rep dst key size s' := by
  obtain ⟨hin, ⟨⟩⟩ := Option.ite_none_right_eq_some.1 hs
  cases op with
  | fillCapacity off bytes =>
    have hroom : off + bytes.length ≤ s.content.area.length := by
      simp only [Op.inBounds, decide_eq_true_eq, keyEnd, h.keyLen, h.size_eq] at hin
      have harea := h.area
      omega
    exact h.fillCapacity hroom
  | updateValue v =>
    have hv : v.length < 2 ^ 32 := of_decide_eq_true hfits
    dsimp only [apply, updateValueWithSlack]
    obtain ⟨hok, hrep⟩ | ⟨e, he⟩ := h.writeValWithSlack hv false
    · rw [hok]
      exact hrep
    · rw [he]
      exact h
  | resizeVal n =>
    have hn : n < 2 ^ 32 := of_decide_eq_true hfits
    dsimp only [apply]
    obtain ⟨hok, hrep⟩ | ⟨e, he⟩ := h.resizeValWithSlack hn
    · rw [hok]
      exact hrep
    · rw [he]
      exact h
  | revivify v =>
    have hv : v.length < 2 ^ 32 := of_decide_eq_true hfits
    dsimp only [apply, revivifyWithSlack]
    obtain ⟨hok, hrep⟩ | ⟨e, he⟩ := h.writeValWithSlack hv true
    · rw [hok]
      exact hrep
    · rw [he]
      exact h
  | setTombstone b => exact h.updateInfo fun word => withBit word tombstoneBit b
  | trySeal =>
    dsimp only [apply, trySeal]
    split
    · exact h
    · exact h.updateInfo _

/-! ### The encoded record -/

variable {val : Bytes}

/-- Both ways to store the header put the same bytes. -/
lemma writeRecordUnchecked_eq (aligned : Bool) {page key : Bytes} (header : RecordHeader)
    (hroom : headerSize + key.length + val.length ≤ page.length) :
    writeRecordUnchecked aligned page header key val =
      header.toBytes ++ (key ++ (val ++ page.drop (headerSize + key.length + val.length))) := by
  -- the places of the two words, of the key and of the value
  rw [headerSize] at hroom
  obtain ⟨p₀, page, rfl, hp₀⟩ := exists_split (show 8 ≤ page.length by omega)
  rw [length_append] at hroom
  obtain ⟨p₁, page, rfl, hp₁⟩ := exists_split (show 8 ≤ page.length by omega)
  rw [length_append] at hroom
  obtain ⟨k, page, rfl, hk⟩ := exists_split (show key.length ≤ page.length by omega)
  rw [length_append] at hroom
  obtain ⟨v, page, rfl, hv⟩ := exists_split (show val.length ≤ page.length by omega)
  have hwords : (p₀ ++ p₁).length = headerSize := by rw [length_append, hp₀, hp₁, headerSize]
  have hkey := overwrite_middle (p₀ ++ p₁) (v ++ page) hk.symm
  have hval := overwrite_middle ((p₀ ++ p₁) ++ key) page hv.symm
  rw [hwords] at hkey
  rw [length_append, hwords, append_assoc] at hval
  have hheader : header.toBytes.length = (p₀ ++ p₁).length := by
    rw [header.length_toBytes, hwords]
  have hcopied := overwrite_middle [] (key ++ (val ++ page)) hheader
  have hinfo := overwrite_middle [] (p₁ ++ (key ++ (val ++ page)))
    ((length_encode 8 header.prevAddress.toNat).trans hp₀.symm)
  have hrdh := overwrite_middle (encode 8 header.prevAddress.toNat)
    (key ++ (val ++ page)) ((length_encode 8 header.rdhWord.toNat).trans hp₁.symm)
  have hrest : (p₀ ++ (p₁ ++ (k ++ (v ++ page)))).drop (headerSize + key.length + val.length) =
      page := by
    rw [← hwords, ← hk, ← hv, ← length_append, ← length_append]
    simp only [← append_assoc]
    exact drop_left
  rw [hrest, writeRecordUnchecked, ← append_assoc p₀, hkey, hval]
  split
  · rw [append_assoc, append_assoc]
    exact (congrArg (overwrite · rdhWordOffset _) hinfo).trans
      (hrdh.trans (append_assoc _ _ _).symm)
  · rw [append_assoc (p₀ ++ p₁)]
    exact hcopied

/-- A header for a key and a value that fit in it. -/
structure Describes (header : RecordHeader) (key val : Bytes) : Prop where
  keyLen : header.keyLen = key.length
  valLen : header.valLen = val.length
  fillerWords : header.fillerWords = 0

variable {prevAddr : UInt64} {tomb new : Bool}

lemma describes_of_buildHeader {key : Bytes} {size : Nat}
    (h : buildHeader prevAddr key val.length tomb new = .ok (header, size)) :
    Describes header key val ∧ header.physicalSize = size := by
  unfold buildHeader RecordHeader.new at h
  split at h
  · cases h
  · rename_i hkey
    split at h
    · cases h
    · split at h
      · cases h
      · cases h
        have hk : key.length < 2 ^ 24 := by
          rw [maxKeyLen, padKeyLen] at hkey
          omega
        have hv : val.length < 2 ^ 32 := by omega
        have hrdh := toNat_packRdhWord 0 key.length val.length
        have hd : Describes ⟨withBit (withBit prevAddr tombstoneBit tomb) inNewVersionBit new,
            packRdhWord 0 key.length val.length⟩ key val := by
          constructor
          · rw [keyLen, hrdh]
            omega
          · rw [valLen, hrdh]
            omega
          · rw [fillerWords, hrdh]
            omega
        refine ⟨hd, ?_⟩
        rw [physicalSize_eq, hd.keyLen, hd.valLen, hd.fillerWords, align_kvSize hk hv, Nat.add_zero]

lemma encodeToSlice_ok {aligned : Bool} {page : Bytes}
    (h : encodeToSlice aligned dst prevAddr key val tomb new = (page, .ok size)) :
    ∃ header, Describes header key val ∧ header.physicalSize = size ∧ size ≤ dst.length ∧
      page = header.toBytes ++
        (key ++ (val ++ dst.drop (headerSize + key.length + val.length))) := by
  unfold encodeToSlice at h
  split at h
  · cases h
  · rename_i header total hbuild
    obtain ⟨hd, hphys⟩ := describes_of_buildHeader hbuild
    split at h
    · rename_i hroom
      obtain ⟨hpage, hsize⟩ := Prod.mk.inj h
      obtain rfl := Except.ok.inj hsize
      have hle : headerSize + key.length + val.length ≤ dst.length := by
        have hsize := header.physicalSize_eq
        rw [hd.keyLen, hd.valLen] at hsize
        omega
      exact ⟨header, hd, hphys, hroom, by rw [← hpage, writeRecordUnchecked_eq aligned header hle]⟩
    · cases h

lemma fromSliceMut_eq {rest : Bytes}
    (hlen : header.physicalSize ≤ (header.toBytes ++ rest).length) :
    fromSliceMut (header.toBytes ++ rest) =
      .ok ⟨header, header.toBytes ++ rest, header.physicalSize⟩ := by
  rw [fromSliceMut, header.fromSlice_toBytes_append]
  simp only [bind, Except.bind]
  rw [if_neg (not_le.2 header.recordSize_add_lt), if_neg (not_lt.2 hlen)]
  rfl

/-- An encoded record is laid out as the header says. -/
lemma rep_of_start {aligned : Bool}
    (h : start aligned dst prevAddr key val tomb new = .ok s) :
    Rep dst key s.record.size s ∧ s.record.size ≤ dst.length := by
  unfold start at h
  rcases hencode : encodeToSlice aligned dst prevAddr key val tomb new with ⟨page, result⟩
  rw [hencode] at h
  cases result with
  | error => cases h
  | ok =>
    obtain ⟨header, hd, rfl, hroom, rfl⟩ := encodeToSlice_ok hencode
    have hsize : headerSize + key.length + val.length ≤ header.physicalSize := by
      rw [header.physicalSize_eq, hd.keyLen, hd.valLen]
      omega
    obtain ⟨pad, hpad⟩ := Nat.exists_eq_add_of_le hsize
    have hpage : (header.toBytes ++ (key ++ (val ++
        dst.drop (headerSize + key.length + val.length)))).length = dst.length := by
      simp only [length_append, length_drop, header.length_toBytes]
      omega
    have hkeyEnd : (header.toBytes ++ key).length = headerSize + key.length := by
      rw [length_append, header.length_toBytes]
    -- the space for the value ends with the record
    have harea : ((header.toBytes ++ (key ++ (val ++
        dst.drop (headerSize + key.length + val.length)))).take header.physicalSize).drop
          (headerSize + key.length) =
        val ++ (dst.drop (headerSize + key.length + val.length)).take pad := by
      rw [← append_assoc, drop_take, drop_left' hkeyEnd, hpad, add_assoc,
        Nat.add_sub_cancel_left, take_length_add_append]
    have hrest : (dst.drop (headerSize + key.length + val.length)).take pad ++
        dst.drop header.physicalSize = dst.drop (headerSize + key.length + val.length) := by
      have hsplit := take_append_drop pad (dst.drop (headerSize + key.length + val.length))
      rwa [drop_drop, ← hpad] at hsplit
    simp only [bind, Except.bind] at h
    rw [fromSliceMut_eq (by rwa [hpage]), harea] at h
    obtain rfl := Except.ok.inj h
    refine ⟨⟨?_, rfl, ?_, hd.keyLen, hd.valLen, rfl⟩, hroom⟩
    · rw [append_assoc, hrest]
    · dsimp only
      rw [length_append, length_take, length_drop]
      omega

/-! ### Runs -/

/-- What holds of a record of `size` bytes that was encoded at the front of `dst`. -/
structure Intact (dst key : Bytes) (size : Nat) (s : State) : Prop where
  physicalSize : ∃ h, fromSlice s.record.page = .ok h ∧ h.physicalSize = size
  /-- The slot is read as the key and the value that was written last. -/
  parse : ∃ h, RecordRef.fromSlice (s.record.page.take size) = .ok ⟨h, key, s.content.value⟩
  key_eq : (s.record.page.drop headerSize).take key.length = key
  /-- Nothing is written past the slot. -/
  neighbours : s.record.page.length = dst.length ∧ s.record.page.drop size = dst.drop size
  failed : ∀ op e, (s.record.apply op).2 = .error e → (s.record.apply op).1.page = s.record.page

lemma page_of_writeValWithSlack_error {r : RecordMut} {v : Bytes} {clear : Bool} {e : Error}
    (h : (r.writeValWithSlack v clear).2 = .error e) :
    (r.writeValWithSlack v clear).1.page = r.page := by
  unfold writeValWithSlack at h ⊢
  split at h
  · rw [if_pos ‹_›]
  · rw [if_neg ‹_›]
    split at h
    · rfl
    · cases h

lemma page_of_error {r : RecordMut} {op : Op} {e : Error} (h : (r.apply op).2 = .error e) :
    (r.apply op).1.page = r.page := by
  cases op with
  | fillCapacity | setTombstone | trySeal => cases h
  | updateValue | revivify => exact page_of_writeValWithSlack_error h
  | resizeVal =>
    dsimp only [apply, resizeValWithSlack] at h ⊢
    split at h
    · rw [if_pos ‹_›]
    · rw [if_neg ‹_›]
      split at h
      · rfl
      · cases h

lemma Rep.intact (h : Rep dst key size s) (hroom : size ≤ dst.length) : Intact dst key size s := by
  have hfront : (s.record.header.toBytes ++ (key ++ s.content.area)).length = size := by
    rw [length_append, length_append, length_toBytes, ← h.area, add_assoc]
  have hpage : s.record.page =
      (s.record.header.toBytes ++ (key ++ s.content.area)) ++ dst.drop size := by
    rw [h.page]
    simp only [append_assoc]
  refine ⟨⟨s.record.header, ?_, h.physical⟩, ⟨s.record.header, ?_⟩, ?_, ⟨?_, ?_⟩,
    fun _ _ => page_of_error⟩
  · rw [h.page, fromSlice_toBytes_append]
  · have hsize : s.record.header.recordSize ≤
        (s.record.header.toBytes ++ (key ++ s.content.area)).length := by
      rw [hfront, ← h.physical]
      exact s.record.header.recordSize_le_physicalSize
    have hkeyEnd : (s.record.header.toBytes ++ key).length = headerSize + key.length := by
      rw [length_append, length_toBytes]
    rw [hpage, take_left' hfront, RecordRef.fromSlice, fromSlice_toBytes_append]
    simp only [bind, Except.bind]
    rw [if_neg (not_lt.2 hsize), h.keyLen, h.valLen,
      drop_left' (length_toBytes _), take_left, ← append_assoc,
      drop_left' hkeyEnd]
    rfl
  · rw [h.page, drop_left' (length_toBytes _), take_left]
  · rw [hpage, length_append, length_drop]
    omega
  · rw [hpage, drop_left' hfront]

/-- A record whose values have lengths that fit in the header stays intact. -/
theorem intact_of_fits {aligned : Bool} {prevAddr : UInt64} {val : Bytes} {tomb new : Bool}
    {s₀ : State} (h₀ : start aligned dst prevAddr key val tomb new = .ok s₀)
    (h : Machine.Reaches step (fun _ op => op.fits = true) s₀ s) :
    Intact dst key s₀.record.size s := by
  obtain ⟨hrep₀, hroom⟩ := rep_of_start h₀
  have hrep : Rep dst key s₀.record.size s :=
    h.invariant hrep₀ (fun hr hfits hs => hr.step hfits hs)
  exact hrep.intact hroom

/-- A record of one byte in a slot of 24 bytes. -/
def oneByte : State :=
  { record :=
      { header := ⟨0, packRdhWord 0 1 1⟩
        page := [0, 0, 0, 0, 0, 0, 0, 0, 0, 1, 0, 0, 1, 0, 0, 0, 7, 8, 0, 0, 0, 0, 0, 0]
        size := 24 }
    content := ⟨[8, 0, 0, 0, 0, 0, 0], 1⟩ }

lemma start_oneByte : start true (replicate 24 0) 0 [7] [8] false false = .ok oneByte := by
  decide +kernel

/-- Growing and shrinking, a tombstone and a revival. -/
theorem intact_grow_and_revive :
    ∃ s, s.content.value = [5, 6, 7, 8, 9] ∧ Intact (replicate 24 0) [7] 24 s := by
  obtain ⟨s, hs, hval⟩ := Machine.exists_reaches_of_run step (fun _ op => op.fits = true) oneByte
    [.updateValue [1, 2, 3], .fillCapacity 3 [4, 5], .resizeVal 5, .setTombstone true,
      .updateValue [3], .resizeVal 100, .trySeal, .revivify [5, 6, 7, 8, 9]]
    (fun s => s.content.value) [5, 6, 7, 8, 9] (by decide +kernel)
  exact ⟨s, hval, intact_of_fits start_oneByte hs⟩

/-- The largest length wraps around in the check of the capacity, so it is accepted and cut to 32
bits in the header. -/
theorem exists_not_intact :
    ∃ s₀ s, start true (replicate 24 0) 0 [7] [8] false false = .ok s₀ ∧
      Machine.Reachable step s₀ s ∧ ¬Intact (replicate 24 0) [7] s₀.record.size s := by
  obtain ⟨s, hs, hsize⟩ := Machine.exists_reachable_of_run step oneByte [.resizeVal (2 ^ 64 - 1)]
    (fun s => (fromSlice s.record.page).map physicalSize)
    (.ok 4294967336) (by decide +kernel)
  refine ⟨oneByte, s, start_oneByte, hs, fun h => ?_⟩
  obtain ⟨header, hheader, hphys⟩ := h.physicalSize
  rw [hheader] at hsize
  have hsame := Except.ok.inj hsize
  rw [hphys] at hsame
  cases hsame

end Wedb.RecordSlot
