import Wedb.Lib.BigEndian
import Wedb.Lib.SelfDelimiting
import Wedb.Lib.Slice

/-!
# Order-preserving variable-length integers

The first byte of an encoding says how long it is. Values of one to four bytes are counted from the end
of the shorter ones, so that each value has one encoding; the longest form is the plain word and is
accepted only for values that have no shorter one.
-/

namespace Wedb.Key

open BigEndian UInt64 List

/-- `VARINT_1B_MAX` and so on: the first value that needs more bytes. -/
def varint1bMax : Nat := 128
def varint2bMax : Nat := 16512
def varint3bMax : Nat := 2113664
def varint4bMax : Nat := 270549120

def varint1bFirstByteMax : UInt8 := 0x7F
def varint1bFirstByteLimit : UInt8 := 0x80
def varint2bMarker : UInt8 := 0x80
def varint2bFirstByteMax : UInt8 := 0xBF
def varint2bPayloadMask : UInt8 := 0x3F
def varint3bMarker : UInt8 := 0xC0
def varint3bFirstByteMax : UInt8 := 0xDF
def varint3bPayloadMask : UInt8 := 0x1F
def varint4bMarker : UInt8 := 0xE0
def varint4bFirstByteMax : UInt8 := 0xEF
def varint4bPayloadMask : UInt8 := 0x0F
def varint9bMarker : UInt8 := 0xFF

def maxVarintLen : Nat := 9

/-- `VARINT_LEN_LUT`: zero is not the first byte of an encoding. -/
def varintLenLut (b : UInt8) : Nat :=
  if b ≤ varint1bFirstByteMax then 1
  else if varint2bMarker ≤ b ∧ b ≤ varint2bFirstByteMax then 2
  else if varint3bMarker ≤ b ∧ b ≤ varint3bFirstByteMax then 3
  else if varint4bMarker ≤ b ∧ b ≤ varint4bFirstByteMax then 4
  else if b = varint9bMarker then maxVarintLen
  else 0

inductive VarintError
  | bufferTooShort (expected actual : Nat)
  | nonCanonical
  deriving DecidableEq, Repr

/-- The marker goes into the first byte. -/
def mark (marker : UInt8) : List UInt8 → List UInt8
  | [] => []
  | b :: bs => (marker ||| b) :: bs

/-- The bytes that `encode_u64` writes. -/
def varintBytes (val : UInt64) : List UInt8 :=
  let val := val.toNat
  if val < varint1bMax then [UInt8.ofNat val]
  else if val < varint2bMax then mark varint2bMarker (BigEndian.encode 2 (val - varint1bMax))
  else if val < varint3bMax then mark varint3bMarker ((BigEndian.encode 4 (val - varint2bMax)).drop 1)
  else if val < varint4bMax then mark varint4bMarker (BigEndian.encode 4 (val - varint3bMax))
  else varint9bMarker :: BigEndian.encode 8 val

/-- `encode_u64`. Every branch asks for room for its own bytes. -/
def encodeU64 (val : UInt64) (dst : List UInt8) : Except VarintError (List UInt8 × Nat) :=
  let bytes := varintBytes val
  if dst.length < bytes.length then .error (.bufferTooShort bytes.length dst.length)
  else .ok (Slice.overwrite dst 0 bytes, bytes.length)

/-- `encode_u64_to_array`. -/
def encodeU64ToArray (val : UInt64) : List UInt8 × Nat :=
  match encodeU64 val (replicate maxVarintLen 0) with
  | .ok r => r
  | .error _ => ([], 0)

/-- `decode_u64`. -/
def decodeU64 (slice : List UInt8) : Except VarintError (UInt64 × Nat) :=
  match slice with
  | [] => .error (.bufferTooShort 1 0)
  | b0 :: bs =>
    if b0 ≤ varint1bFirstByteMax then .ok (ofNat b0.toNat, 1)
    else if 1 ≤ bs.length ∧ varint2bMarker ≤ b0 ∧ b0 ≤ varint2bFirstByteMax then
      let offset := BigEndian.decode ((b0 &&& varint2bPayloadMask) :: bs.take 1)
      .ok (ofNat (varint1bMax + offset), 2)
    else if 2 ≤ bs.length ∧ varint3bMarker ≤ b0 ∧ b0 ≤ varint3bFirstByteMax then
      let offset := BigEndian.decode (0 :: (b0 &&& varint3bPayloadMask) :: bs.take 2)
      .ok (ofNat (varint2bMax + offset), 3)
    else if 3 ≤ bs.length ∧ varint4bMarker ≤ b0 ∧ b0 ≤ varint4bFirstByteMax then
      let offset := BigEndian.decode ((b0 &&& varint4bPayloadMask) :: bs.take 3)
      .ok (ofNat (varint3bMax + offset), 4)
    else if 8 ≤ bs.length ∧ b0 = varint9bMarker then
      let val := BigEndian.decode (bs.take 8)
      if val < varint4bMax then .error .nonCanonical else .ok (ofNat val, maxVarintLen)
    else
      let expected := varintLenLut b0
      if expected = 0 then .error .nonCanonical
      else .error (.bufferTooShort expected slice.length)

/-! ### Length classes -/

/-- The encodings of two, three and four bytes differ in these constants only. -/
structure LengthClass where
  marker : UInt8
  firstByteMax : UInt8
  mask : UInt8
  extra : Nat
  base : Nat
  limit : Nat

def twoBytes : LengthClass :=
  ⟨varint2bMarker, varint2bFirstByteMax, varint2bPayloadMask, 1, varint1bMax, varint2bMax⟩

def threeBytes : LengthClass :=
  ⟨varint3bMarker, varint3bFirstByteMax, varint3bPayloadMask, 2, varint2bMax, varint3bMax⟩

def fourBytes : LengthClass :=
  ⟨varint4bMarker, varint4bFirstByteMax, varint4bPayloadMask, 3, varint3bMax, varint4bMax⟩

/-- Marker and mask share the first byte between them, and the values fill the class. -/
structure LengthClass.Sound (k : LengthClass) : Prop where
  unmark : ∀ b, k.marker ≤ b → b ≤ k.firstByteMax → k.marker ||| (b &&& k.mask) = b
  marked : ∀ b, b ≤ k.mask →
    (k.marker ||| b) &&& k.mask = b ∧ k.marker ≤ k.marker ||| b ∧ k.marker ||| b ≤ k.firstByteMax
  masked : ∀ b, b &&& k.mask ≤ k.mask
  limit_eq : k.limit = k.base + 256 ^ k.extra * (k.mask.toNat + 1)

lemma byte_forall {P : UInt8 → Prop} (h : ∀ i : Fin 256, P (UInt8.ofNat i)) (b : UInt8) : P b := by
  have hb := h ⟨b.toNat, b.toNat_lt⟩
  rwa [UInt8.ofNat_toNat] at hb

lemma sound_twoBytes : twoBytes.Sound where
  unmark := byte_forall (by decide +kernel)
  marked := byte_forall (by decide +kernel)
  masked := byte_forall (by decide +kernel)
  limit_eq := by decide

lemma sound_threeBytes : threeBytes.Sound where
  unmark := byte_forall (by decide +kernel)
  marked := byte_forall (by decide +kernel)
  masked := byte_forall (by decide +kernel)
  limit_eq := by decide

lemma sound_fourBytes : fourBytes.Sound where
  unmark := byte_forall (by decide +kernel)
  marked := byte_forall (by decide +kernel)
  masked := byte_forall (by decide +kernel)
  limit_eq := by decide

/-- The bytes of a value in a class. -/
def LengthClass.encode (k : LengthClass) (val : Nat) : List UInt8 :=
  mark k.marker (BigEndian.encode (k.extra + 1) (val - k.base))

/-- The value of bytes in a class. -/
def LengthClass.decode (k : LengthClass) (b : UInt8) (bs : List UInt8) : Nat :=
  k.base + BigEndian.decode ((b &&& k.mask) :: bs)

namespace LengthClass.Sound

variable {k : LengthClass} {val : Nat} {b : UInt8} {bs : List UInt8}

lemma decode_lt (h : k.Sound) (hlen : bs.length = k.extra) :
    k.base ≤ k.decode b bs ∧ k.decode b bs < k.limit := by
  refine ⟨Nat.le_add_right .., ?_⟩
  have hmask : (b &&& k.mask).toNat ≤ k.mask.toNat := UInt8.le_iff_toNat_le.1 (h.masked b)
  have hrest := BigEndian.decode_lt bs
  have hmul := Nat.mul_le_mul_left (256 ^ k.extra) hmask
  rw [hlen] at hrest
  rw [decode, decode_cons, h.limit_eq, hlen, Nat.mul_succ]
  omega

lemma encode_decode (h : k.Sound) (hmin : k.marker ≤ b) (hmax : b ≤ k.firstByteMax)
    (hlen : bs.length = k.extra) : k.encode (k.decode b bs) = b :: bs := by
  have hwidth : ((b &&& k.mask) :: bs).length = k.extra + 1 := by rw [length_cons, hlen]
  rw [encode, decode, Nat.add_sub_cancel_left, BigEndian.encode_decode hwidth, mark,
    h.unmark b hmin hmax]

/-- The encoding of a value in the class is in the class. -/
lemma exists_encode (h : k.Sound) (hbase : k.base ≤ val) (hlimit : val < k.limit) :
    ∃ b bs, k.encode val = b :: bs ∧ k.marker ≤ b ∧ b ≤ k.firstByteMax ∧ bs.length = k.extra ∧
      k.decode b bs = val := by
  have hoffset : val - k.base < 256 ^ k.extra * (k.mask.toNat + 1) := by
    have := h.limit_eq
    omega
  have hlt : (val - k.base) / 256 ^ k.extra ≤ k.mask.toNat :=
    Nat.lt_succ_iff.1 (Nat.div_lt_of_lt_mul hoffset)
  have hbyte : .ofNat ((val - k.base) / 256 ^ k.extra) ≤ k.mask := by
    exact (Nat.mod_le ..).trans hlt
  obtain ⟨hunmark, hmin, hmax⟩ := h.marked _ hbyte
  refine ⟨_, _, by rw [encode, encode_succ, mark], hmin, hmax, length_encode .., ?_⟩
  have hwidth : val - k.base < 256 ^ (k.extra + 1) :=
    hoffset.trans_le (Nat.mul_le_mul_left _ k.mask.toNat_lt)
  rw [decode, hunmark, ← encode_succ, decode_encode_of_lt hwidth, Nat.add_sub_cancel' hbase]

end LengthClass.Sound

/-! ### Canonical encodings -/

/-- The encodings, with their values. -/
inductive Canonical : Nat → List UInt8 → Prop
  | single (b : UInt8) (h : b ≤ varint1bFirstByteMax) : Canonical b.toNat [b]
  | marked (k : LengthClass) (hk : k = twoBytes ∨ k = threeBytes ∨ k = fourBytes) (b : UInt8)
      (bs : List UInt8) (hmin : k.marker ≤ b) (hmax : b ≤ k.firstByteMax) (hlen : bs.length = k.extra) :
      Canonical (k.decode b bs) (b :: bs)
  | word (bs : List UInt8) (hlen : bs.length = 8) (h : varint4bMax ≤ BigEndian.decode bs) :
      Canonical (BigEndian.decode bs) (varint9bMarker :: bs)

lemma sound_of_mem {k : LengthClass} (hk : k = twoBytes ∨ k = threeBytes ∨ k = fourBytes) : k.Sound := by
  rcases hk with rfl | rfl | rfl
  · exact sound_twoBytes
  · exact sound_threeBytes
  · exact sound_fourBytes

lemma varintBytes_eq (val : UInt64) :
    varintBytes val =
      if val.toNat < varint1bMax then [UInt8.ofNat val.toNat]
      else if val.toNat < varint2bMax then twoBytes.encode val.toNat
      else if val.toNat < varint3bMax then threeBytes.encode val.toNat
      else if val.toNat < varint4bMax then fourBytes.encode val.toNat
      else varint9bMarker :: BigEndian.encode 8 val.toNat := by
  have hthree : (encode 4 (val.toNat - varint2bMax)).drop 1 =
      encode 3 (val.toNat - varint2bMax) := by rw [encode_succ, drop_one, tail_cons]
  rfl

lemma canonical_varintBytes (val : UInt64) : Canonical val.toNat (varintBytes val) := by
  have class_canonical {k : LengthClass} (hk : k = twoBytes ∨ k = threeBytes ∨ k = fourBytes)
      (hbase : k.base ≤ val.toNat) (hlimit : val.toNat < k.limit) :
      Canonical val.toNat (k.encode val.toNat) := by
    obtain ⟨b, bs, hbytes, hmin, hmax, hlen, hval⟩ := (sound_of_mem hk).exists_encode hbase hlimit
    rw [hbytes, ← hval]
    exact .marked k hk b bs hmin hmax hlen
  rw [varintBytes_eq]
  split
  · rename_i hlt
    have hbyte : (UInt8.ofNat val.toNat).toNat = val.toNat := by
      rw [UInt8.toNat_ofNat', Nat.mod_eq_of_lt (hlt.trans (by decide))]
    have hsingle := Canonical.single (UInt8.ofNat val.toNat) (by
      rw [UInt8.le_iff_toNat_le, hbyte]
      exact Nat.le_of_lt_succ hlt)
    rwa [hbyte] at hsingle
  · split
    · exact class_canonical (.inl rfl) (Nat.le_of_not_lt ‹_›) ‹_›
    · split
      · exact class_canonical (.inr (.inl rfl)) (Nat.le_of_not_lt ‹_›) ‹_›
      · split
        · exact class_canonical (.inr (.inr rfl)) (Nat.le_of_not_lt ‹_›) ‹_›
        · have hdecode : decode (encode 8 val.toNat) = val.toNat := decode_encode_of_lt val.toNat_lt
          have hword := Canonical.word (encode 8 val.toNat) (length_encode ..)
            (by rw [hdecode]; exact Nat.le_of_not_lt ‹_›)
          rwa [hdecode] at hword

variable {bytes : List UInt8} {val : Nat}

lemma Canonical.lt (h : Canonical val bytes) : val < 2 ^ 64 := by
  cases h with
  | single b => exact b.toNat_lt.trans (by decide)
  | marked k hk b bs hmin hmax hlen =>
    refine ((sound_of_mem hk).decode_lt hlen).2.trans ?_
    rcases hk with rfl | rfl | rfl <;> decide
  | word bs hlen =>
    have hlt := decode_lt bs
    rwa [hlen] at hlt

lemma Canonical.toNat_ofNat (h : Canonical val bytes) : (ofNat val).toNat = val := by
  rw [toNat_ofNat', Nat.mod_eq_of_lt h.lt]

/-- A value has one encoding. -/
lemma Canonical.bytes_eq (h : Canonical val bytes) : bytes = varintBytes (ofNat val) := by
  have htoNat := h.toNat_ofNat
  have hmono : varint1bMax ≤ varint2bMax ∧ varint2bMax ≤ varint3bMax ∧ varint3bMax ≤ varint4bMax := by
    decide
  rw [varintBytes_eq, htoNat]
  cases h with
  | single b hb =>
    have hlt : b.toNat < varint1bMax := Nat.lt_succ_of_le (UInt8.le_iff_toNat_le.1 hb)
    rw [if_pos hlt, UInt8.ofNat_toNat]
  | marked k hk b bs hmin hmax hlen =>
    have hrange := (sound_of_mem hk).decode_lt (b := b) hlen
    rw [← (sound_of_mem hk).encode_decode hmin hmax hlen]
    generalize k.decode b bs = val at hrange
    rcases hk with rfl | rfl | rfl
    · obtain ⟨hbase, hlimit⟩ : varint1bMax ≤ val ∧ val < varint2bMax := hrange
      rw [if_neg hbase.not_gt, if_pos hlimit]
    · obtain ⟨hbase, hlimit⟩ : varint2bMax ≤ val ∧ val < varint3bMax := hrange
      rw [if_neg (by omega), if_neg hbase.not_gt, if_pos hlimit]
    · obtain ⟨hbase, hlimit⟩ : varint3bMax ≤ val ∧ val < varint4bMax := hrange
      rw [if_neg (by omega), if_neg (by omega), if_neg hbase.not_gt, if_pos hlimit]
  | word bs hlen hmin =>
    rw [if_neg (by omega), if_neg (by omega), if_neg (by omega), if_neg hmin.not_gt,
      encode_decode hlen]

/-! ### The decoder -/

/-- The first byte and as many bytes as it asks for are there. -/
def LengthClass.Fits (k : LengthClass) (b : UInt8) (bs : List UInt8) : Prop :=
  k.extra ≤ bs.length ∧ k.marker ≤ b ∧ b ≤ k.firstByteMax

instance (k : LengthClass) (b : UInt8) (bs : List UInt8) : Decidable (k.Fits b bs) :=
  inferInstanceAs (Decidable (_ ∧ _ ∧ _))

lemma decodeU64_cons (b : UInt8) (bs : List UInt8) :
    decodeU64 (b :: bs) =
      if b ≤ varint1bFirstByteMax then .ok (ofNat b.toNat, 1)
      else if twoBytes.Fits b bs then .ok (ofNat (twoBytes.decode b (bs.take 1)), 2)
      else if threeBytes.Fits b bs then .ok (ofNat (threeBytes.decode b (bs.take 2)), 3)
      else if fourBytes.Fits b bs then .ok (ofNat (fourBytes.decode b (bs.take 3)), 4)
      else if 8 ≤ bs.length ∧ b = varint9bMarker then
        if BigEndian.decode (bs.take 8) < varint4bMax then .error .nonCanonical
        else .ok (ofNat (BigEndian.decode (bs.take 8)), maxVarintLen)
      else if varintLenLut b = 0 then .error .nonCanonical
      else .error (.bufferTooShort (varintLenLut b) (bs.length + 1)) := by
  have hzero (tail : List UInt8) : decode (0 :: tail) = decode tail := by
    rw [decode_cons, UInt8.toNat_zero, Nat.mul_zero, zero_add]
  rw [decodeU64]
  rw [hzero]
  rfl

lemma varintLenLut_single : ∀ b, b ≤ varint1bFirstByteMax → varintLenLut b = 1 :=
  fun _ h => if_pos h

/-- The table tells the classes apart. -/
lemma varintLenLut_marked {k : LengthClass} (hk : k = twoBytes ∨ k = threeBytes ∨ k = fourBytes) :
    ∀ b, k.marker ≤ b → b ≤ k.firstByteMax → varintLenLut b = k.extra + 1 := by
  rcases hk with rfl | rfl | rfl <;> exact byte_forall (by decide +kernel)

lemma Canonical.exists_cons (h : Canonical val bytes) :
    ∃ b bs, bytes = b :: bs ∧ varintLenLut b = bytes.length := by
  cases h with
  | single b hb => exact ⟨b, [], rfl, varintLenLut_single b hb⟩
  | marked k hk b bs hmin hmax hlen =>
    exact ⟨b, bs, rfl, by rw [varintLenLut_marked hk b hmin hmax, length_cons, hlen]⟩
  | word bs hlen => exact ⟨_, bs, rfl, by rw [length_cons, hlen]; rfl⟩

lemma decodeU64_append (h : Canonical val bytes) (rest : List UInt8) :
    decodeU64 (bytes ++ rest) = .ok (ofNat val, bytes.length) := by
  -- the length in the table excludes the other classes
  have hsingle {b : UInt8} (hlut : varintLenLut b ≠ 1) : ¬b ≤ varint1bFirstByteMax :=
    fun hb => hlut (varintLenLut_single b hb)
  have hother {k : LengthClass} {b : UInt8} {bs : List UInt8}
      (hk : k = twoBytes ∨ k = threeBytes ∨ k = fourBytes) (hlut : varintLenLut b ≠ k.extra + 1) :
      ¬k.Fits b bs := fun hfits => hlut (varintLenLut_marked hk b hfits.2.1 hfits.2.2)
  cases h with
  | single b hb => rw [singleton_append, decodeU64_cons, if_pos hb, length_singleton]
  | marked k hk b bs hmin hmax hlen =>
    have htake : (bs ++ rest).take k.extra = bs := take_left' hlen
    have hfits : k.Fits b (bs ++ rest) :=
      ⟨by rw [length_append, hlen]; exact Nat.le_add_right .., hmin, hmax⟩
    have hlut := varintLenLut_marked hk b hmin hmax
    rw [cons_append, decodeU64_cons, length_cons, hlen]
    rcases hk with rfl | rfl | rfl
    · rw [if_neg (hsingle (hlut ▸ by decide)), if_pos hfits]
      exact congrArg (fun bs => Except.ok (ofNat (twoBytes.decode b bs), 2)) htake
    · rw [if_neg (hsingle (hlut ▸ by decide)), if_neg (hother (.inl rfl) (hlut ▸ by decide)),
        if_pos hfits]
      exact congrArg (fun bs => Except.ok (ofNat (threeBytes.decode b bs), 3)) htake
    · rw [if_neg (hsingle (hlut ▸ by decide)), if_neg (hother (.inl rfl) (hlut ▸ by decide)),
        if_neg (hother (.inr (.inl rfl)) (hlut ▸ by decide)), if_pos hfits]
      exact congrArg (fun bs => Except.ok (ofNat (fourBytes.decode b bs), 4)) htake
  | word bs hlen hmin =>
    have htake : (bs ++ rest).take 8 = bs := take_left' hlen
    have hfits : 8 ≤ (bs ++ rest).length := by
      rw [length_append, hlen]
      exact Nat.le_add_right ..
    rw [cons_append, decodeU64_cons, length_cons, hlen, if_neg (by decide),
      if_neg (hother (.inl rfl) (by decide)), if_neg (hother (.inr (.inl rfl)) (by decide)),
      if_neg (hother (.inr (.inr rfl)) (by decide)), if_pos ⟨hfits, rfl⟩, htake, if_neg hmin.not_gt]
    rfl

/-- An encoding is read from the front of the slice. -/
lemma exists_canonical_of_take {n : Nat} {b : UInt8} {bs : List UInt8} (hn : n ≤ bs.length)
    (h : Canonical val (b :: bs.take n)) :
    ∃ bytes rest, b :: bs = bytes ++ rest ∧ n + 1 = bytes.length ∧
      Canonical (ofNat val).toNat bytes := by
  refine ⟨b :: bs.take n, bs.drop n, ?_, ?_, ?_⟩
  · rw [cons_append, take_append_drop]
  · rw [length_cons, length_take_of_le hn]
  · rwa [h.toNat_ofNat]

lemma exists_canonical_of_decodeU64 {slice : List UInt8} {val : UInt64} {n : Nat}
    (h : decodeU64 slice = .ok (val, n)) :
    ∃ bytes rest, slice = bytes ++ rest ∧ n = bytes.length ∧ Canonical val.toNat bytes := by
  have hclass {k : LengthClass} {b : UInt8} {bs : List UInt8}
      (hk : k = twoBytes ∨ k = threeBytes ∨ k = fourBytes) (hfits : k.Fits b bs) :
      Canonical (k.decode b (bs.take k.extra)) (b :: bs.take k.extra) :=
    .marked k hk b _ hfits.2.1 hfits.2.2 (length_take_of_le hfits.1)
  cases slice with
  | nil => cases h
  | cons b =>
    rw [decodeU64_cons] at h
    split at h
    · obtain ⟨⟩ := h
      exact exists_canonical_of_take (Nat.zero_le _) (.single b ‹_›)
    · split at h
      · rename_i hfits
        obtain ⟨⟩ := h
        exact exists_canonical_of_take hfits.1 (hclass (.inl rfl) hfits)
      · split at h
        · rename_i hfits
          obtain ⟨⟩ := h
          exact exists_canonical_of_take hfits.1 (hclass (.inr (.inl rfl)) hfits)
        · split at h
          · rename_i hfits
            obtain ⟨⟩ := h
            exact exists_canonical_of_take hfits.1 (hclass (.inr (.inr rfl)) hfits)
          · split at h
            · rename_i hword
              obtain ⟨hlen, rfl⟩ := hword
              split at h
              · cases h
              · obtain ⟨⟩ := h
                exact exists_canonical_of_take hlen
                  (.word _ (length_take_of_le hlen) (Nat.le_of_not_lt ‹_›))
            · split at h <;> cases h

/-- The decoder accepts what starts with an encoding, and nothing else. -/
lemma selfDelimiting_varint : SelfDelimiting varintBytes decodeU64 where
  decode_append := fun val rest => by
    rw [decodeU64_append (canonical_varintBytes val), UInt64.ofNat_toNat]
  exists_append := fun {slice val n} h => by
    obtain ⟨bytes, rest, rfl, rfl, hcanonical⟩ := exists_canonical_of_decodeU64 h
    have hbytes := hcanonical.bytes_eq
    rw [UInt64.ofNat_toNat] at hbytes
    exact ⟨by rw [hbytes], rest, by rw [hbytes]⟩

/-! ### The array of the encoder -/

lemma Canonical.length_le (h : Canonical val bytes) : bytes.length ≤ maxVarintLen := by
  cases h with
  | single => exact (by decide : 1 ≤ maxVarintLen)
  | marked k hk b bs hmin hmax hlen =>
    rw [length_cons, hlen]
    rcases hk with rfl | rfl | rfl <;> decide
  | word bs hlen =>
    rw [length_cons, hlen]
    decide

/-- There is always room in the array. -/
lemma encodeU64ToArray_eq (val : UInt64) : encodeU64ToArray val =
    (Slice.overwrite (replicate maxVarintLen 0) 0 (varintBytes val), (varintBytes val).length) := by
  have hlen := (canonical_varintBytes val).length_le
  have hroom : ¬(replicate maxVarintLen (0 : UInt8)).length < (varintBytes val).length := by
    exact hlen.not_gt
  rw [encodeU64ToArray, encodeU64]
  simp only [if_neg hroom]

lemma encodeU64ToArray_take (val : UInt64) :
    (encodeU64ToArray val).1.take (encodeU64ToArray val).2 = varintBytes val := by
  have hroom : 0 + (varintBytes val).length ≤ (replicate maxVarintLen (0 : UInt8)).length := by
    rw [zero_add]
    exact (canonical_varintBytes val).length_le
  have htake := Slice.take_overwrite hroom
  rw [zero_add] at htake
  rw [encodeU64ToArray_eq, htake]
  rfl

end Wedb.Key
