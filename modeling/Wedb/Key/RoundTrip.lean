import Wedb.Key.Codec

/-!
# Every reader of a key sees the same parts

`decode_tagged_key` accepts the encodings and nothing else, and the other readers agree with it on what
it accepts.
-/

namespace Wedb.Key

open List SessionPrefixBuf

variable {key payload : List UInt8} {ns db : UInt64} {tag : KeyTag}

/-! ### The encoder -/

variable {b : UInt8}

lemma KeyTag.fromU8_eq_some_iff : fromU8 b = some tag ↔ b = tag.asU8 := by
  constructor
  · intro h
    unfold fromU8 at h
    repeat' split at h
    all_goals first | (obtain ⟨⟩ := h; assumption) | cases h
  · rintro rfl
    cases tag <;> rfl

/-- The bytes in front of the keys of a session. -/
def prefixBytes (p : UInt64 × UInt64) : List UInt8 := varintBytes p.1 ++ varintBytes p.2

lemma length_prefixBytes_le : (prefixBytes (ns, db)).length ≤ maxSessionPrefixLen := by
  rw [prefixBytes, length_append]
  exact add_le_add (canonical_varintBytes ns).length_le (canonical_varintBytes db).length_le

lemma varintBytes_of_lt (h : ns.toNat < varint1bMax) : varintBytes ns = [UInt8.ofNat ns.toNat] := by
  rw [varintBytes_eq, if_pos h]

/-- Both branches copy the two numbers one after the other. -/
lemma encodeSessionPrefixToArray_eq (ns db : UInt64) :
    encodeSessionPrefixToArray ns db =
      (Slice.copyParts (replicate maxSessionPrefixLen 0) 0 [varintBytes ns, varintBytes db],
        (prefixBytes (ns, db)).length) := by
  unfold encodeSessionPrefixToArray
  dsimp only
  split
  · rename_i hlt
    rw [prefixBytes, varintBytes_of_lt hlt.1, varintBytes_of_lt hlt.2]
    rfl
  · rw [encodeU64ToArray_take, encodeU64ToArray_take, encodeU64ToArray_eq, encodeU64ToArray_eq, prefixBytes,
      length_append]
    simp only [Slice.copyParts, zero_add]

lemma asSlice_new (ns db : UInt64) : (new ns db).asSlice = prefixBytes (ns, db) := by
  have hle : (prefixBytes (ns, db)).length ≤ maxSessionPrefixLen := length_prefixBytes_le
  have hmin : (if (prefixBytes (ns, db)).length < maxSessionPrefixLen then (prefixBytes (ns, db)).length
      else maxSessionPrefixLen) = (prefixBytes (ns, db)).length := by
    split <;> omega
  have hparts : [varintBytes ns, varintBytes db].flatten = prefixBytes (ns, db) := by simp [prefixBytes]
  rw [new, encodeSessionPrefixToArray_eq, asSlice, hmin, ← hparts]
  exact Slice.take_copyParts_replicate (by rwa [hparts]) 0

lemma asSlice_buildKey (parts : List (List UInt8)) : (buildKey parts).asSlice = parts.flatten := by
  unfold buildKey
  dsimp only
  rw [← length_flatten]
  split
  · rename_i hle
    rw [TaggedKeyBuf.asSlice, min_eq_left hle]
    exact Slice.take_copyParts_replicate hle 0
  · rfl

lemma asSlice_encodeTaggedKey (ns db : UInt64) (tag : KeyTag) (payload : List UInt8) :
    (encodeTaggedKey ns db tag payload).asSlice = prefixBytes (ns, db) ++ tag.asU8 :: payload := by
  rw [encodeTaggedKey, encodeWithSessionPrefix, asSlice_buildKey, asSlice_new]
  simp

/-! ### The decoder -/

lemma selfDelimiting_decodeVarint : SelfDelimiting varintBytes decodeVarint where
  decode_append := fun val rest => by rw [decodeVarint, selfDelimiting_varint.decode_append]
  exists_append := fun {slice val n} h => by
    refine selfDelimiting_varint.exists_append ?_
    unfold decodeVarint at h
    split at h
    · rename_i hdecode
      rw [hdecode, Except.ok.inj h]
    all_goals cases h

/-- The check of the length in between never fails. -/
lemma decodeSessionPrefix_eq (key : List UInt8) :
    decodeSessionPrefix key = SelfDelimiting.pair decodeVarint decodeVarint key := by
  unfold decodeSessionPrefix SelfDelimiting.pair
  cases hdecode : decodeVarint key with
  | error => rfl
  | ok v =>
    obtain ⟨ns, nsLen⟩ := v
    have hle := (selfDelimiting_decodeVarint.drop_eq hdecode).2
    simp only [splitAtChecked, if_pos hle]
    rcases decodeVarint (key.drop nsLen) with e | ⟨db, dbLen⟩ <;> rfl

lemma selfDelimiting_decodeSessionPrefix : SelfDelimiting prefixBytes decodeSessionPrefix := by
  have hpair := selfDelimiting_decodeVarint.prod selfDelimiting_decodeVarint
  rw [← funext decodeSessionPrefix_eq] at hpair
  exact hpair

lemma decodeVarint_of_lt {bs : List UInt8} (h : b < varint1bFirstByteLimit) :
    decodeVarint (b :: bs) = .ok (UInt64.ofNat b.toNat, 1) := by
  have hle : b ≤ varint1bFirstByteMax := by
    exact Nat.le_of_lt_succ (UInt8.lt_iff_toNat_lt.1 h)
  rw [decodeVarint, decodeU64_cons, if_pos hle]

/-- Numbers of one byte are what decoding gives as well. -/
lemma decodeTaggedKey_eq (key : List UInt8) : decodeTaggedKey key = decodeTagged key := by
  unfold decodeTaggedKey
  split
  · split
    · rename_i nsB dbB tagByte payload hlt
      have hsplit : decodeSessionPrefix (nsB :: dbB :: tagByte :: payload) =
          .ok ((.ofNat nsB.toNat, .ofNat dbB.toNat), 2) := by
        rw [decodeSessionPrefix_eq]
        simp only [SelfDelimiting.pair, decodeVarint_of_lt hlt.1, drop_succ_cons, drop_zero,
          decodeVarint_of_lt hlt.2]
      simp [decodeTagged, hsplit, splitAtChecked]
    · rfl
  · rfl

lemma decodeTaggedKey_eq_ok_iff :
    decodeTaggedKey key = .ok (ns, db, tag, payload) ↔ key = prefixBytes (ns, db) ++ tag.asU8 :: payload := by
  rw [decodeTaggedKey_eq]
  constructor
  · intro h
    unfold decodeTagged at h
    split at h
    · cases h
    · rename_i ns' db' n hdecode
      obtain ⟨hkey, hle⟩ := selfDelimiting_decodeSessionPrefix.drop_eq hdecode
      rw [splitAtChecked, if_pos hle] at h
      generalize key.drop n = rest at hkey h
      cases rest with
      | nil => cases h
      | cons =>
        dsimp only at h
        split at h
        · rename_i tag' htag
          obtain ⟨⟩ := h
          rw [hkey, KeyTag.fromU8_eq_some_iff.1 htag]
        · cases h
  · rintro rfl
    have hle : (prefixBytes (ns, db)).length ≤ (prefixBytes (ns, db) ++ tag.asU8 :: payload).length := by
      rw [length_append]
      exact Nat.le_add_right ..
    simp only [decodeTagged, selfDelimiting_decodeSessionPrefix.decode_append, splitAtChecked, if_pos hle,
      drop_left, KeyTag.fromU8_eq_some_iff.2 rfl]

/-! ### The readers by first bytes -/

lemma varintLenFromByte_of_lt (h : b < varint1bFirstByteLimit) : varintLenFromByte b = some 1 := by
  have hle : b ≤ varint1bFirstByteMax := by
    exact Nat.le_of_lt_succ (UInt8.lt_iff_toNat_lt.1 h)
  rw [varintLenFromByte, varintLenLut_single b hle]
  rfl

lemma sessionPrefixLenFromSlice_eq (key : List UInt8) :
    sessionPrefixLenFromSlice key = prefixLenFromFirstBytes key := by
  unfold sessionPrefixLenFromSlice
  split
  · split
    · rename_i nsB dbB rest hlt
      simp [prefixLenFromFirstBytes, varintLenFromByte_of_lt hlt.1, varintLenFromByte_of_lt hlt.2, splitAtChecked,
        minSessionPrefixLen]
    · rfl
  · rfl

lemma afterPrefix_of_lt {nsB dbB tagByte : UInt8} (hns : nsB < varint1bFirstByteLimit)
    (hdb : dbB < varint1bFirstByteLimit) (payload : List UInt8) :
    afterPrefix (nsB :: dbB :: tagByte :: payload) = some (tagByte, payload) := by
  rw [afterPrefix, sessionPrefixLenFromSlice, if_pos ⟨hns, hdb⟩]
  simp [splitAtChecked, minSessionPrefixLen]

lemma decodeTag_eq (key : List UInt8) :
    decodeTag key = (afterPrefix key).bind fun p => KeyTag.fromU8 p.1 := by
  unfold decodeTag
  split
  · split
    · rename_i hlt
      rw [afterPrefix_of_lt hlt.1 hlt.2]
      rfl
    · rfl
  · rfl

lemma decodeMetaUserKey_eq (key : List UInt8) :
    decodeMetaUserKey key = (afterPrefix key).bind metaPayload := by
  unfold decodeMetaUserKey
  split
  · split
    · rename_i hlt
      rw [afterPrefix_of_lt hlt.1 hlt.2]
      rfl
    · rfl
  · rfl

/-- The first byte of a number says how long it is. -/
lemma exists_varintBytes_cons (val : UInt64) :
    ∃ b bs, varintBytes val = b :: bs ∧ varintLenFromByte b = some (varintBytes val).length := by
  obtain ⟨b, bs, hbytes, hlut⟩ := (canonical_varintBytes val).exists_cons
  refine ⟨b, bs, hbytes, ?_⟩
  rw [varintLenFromByte, hlut, if_pos]
  rw [hbytes]
  exact Nat.succ_ne_zero _

lemma prefixLenFromFirstBytes_append (ns db : UInt64) (rest : List UInt8) :
    prefixLenFromFirstBytes (prefixBytes (ns, db) ++ rest) = some (prefixBytes (ns, db)).length := by
  obtain ⟨b, bs, hns, hnsLen⟩ := exists_varintBytes_cons ns
  obtain ⟨b', bs', hdb, hdbLen⟩ := exists_varintBytes_cons db
  have hcons : prefixBytes (ns, db) ++ rest = b :: (bs ++ (varintBytes db ++ rest)) := by
    rw [prefixBytes, append_assoc, hns, cons_append]
  have hlen : (varintBytes ns).length + (varintBytes db).length ≤ (prefixBytes (ns, db) ++ rest).length := by
    rw [length_append, prefixBytes, length_append]
    exact Nat.le_add_right ..
  have hsplit : splitAtChecked (prefixBytes (ns, db) ++ rest) (varintBytes ns).length =
      some (varintBytes ns, b' :: (bs' ++ rest)) := by
    rw [splitAtChecked, if_pos (by omega), prefixBytes, append_assoc, take_left, drop_left, hdb,
      cons_append]
  rw [hcons] at hsplit hlen ⊢
  simp only [prefixLenFromFirstBytes, hnsLen, hsplit, hdbLen, if_pos hlen, prefixBytes, length_append]

lemma afterPrefix_append (ns db : UInt64) (tagByte : UInt8) (payload : List UInt8) :
    afterPrefix (prefixBytes (ns, db) ++ tagByte :: payload) = some (tagByte, payload) := by
  have hle : (prefixBytes (ns, db)).length ≤ (prefixBytes (ns, db) ++ tagByte :: payload).length := by
    rw [length_append]
    exact Nat.le_add_right ..
  simp only [afterPrefix, sessionPrefixLenFromSlice_eq, prefixLenFromFirstBytes_append, splitAtChecked, if_pos hle,
    drop_left]

/-! ### The readers by prefix -/

/-- The key of one session does not start with the prefix of another. -/
lemma stripPrefix_append (ns db ns' db' : UInt64) (rest : List UInt8) :
    stripPrefix (prefixBytes (ns', db')) (prefixBytes (ns, db) ++ rest) =
      if ns' = ns ∧ db' = db then some rest else none := by
  unfold stripPrefix
  split
  · rename_i hprefix
    obtain ⟨rest', hrest⟩ := hprefix
    obtain ⟨heq, -⟩ := selfDelimiting_decodeSessionPrefix.append_inj hrest
    obtain ⟨rfl, rfl⟩ := Prod.mk.inj heq
    rw [if_pos ⟨rfl, rfl⟩, drop_left]
  · rename_i hprefix
    rw [if_neg]
    rintro ⟨rfl, rfl⟩
    exact hprefix (prefix_append ..)

/-- What each reader makes of a key. -/
structure ReadsAs (key : List UInt8) (ns db : UInt64) (tag : KeyTag) (payload : List UInt8) : Prop where
  encode : (encodeTaggedKey ns db tag payload).asSlice = key
  prefixLen : sessionPrefixLenFromSlice key = some (new ns db).asSlice.length
  decodeTag : decodeTag key = some tag
  metaUserKey : decodeMetaUserKey key = if tag = .metadata then some payload else none
  strip : ∀ ns' db', stripSessionPrefix key (new ns' db').asSlice =
    if ns' = ns ∧ db' = db then some (tag, payload) else none
  stripWithTag : ∀ ns' db' expected,
    stripSessionPrefixWithTag key (new ns' db').asSlice expected =
      if (ns' = ns ∧ db' = db) ∧ expected = tag then some payload else none
  live : ∀ ns' db', extractLiveUserKey key (new ns' db').asSlice =
    if (ns' = ns ∧ db' = db) ∧ tag.isUserVisible = true then some (tag, payload) else none

lemma KeyTag.asU8_inj {tag tag' : KeyTag} : tag.asU8 = tag'.asU8 ↔ tag = tag' := by
  rw [← fromU8_eq_some_iff, fromU8_eq_some_iff.2 rfl, Option.some_inj]

lemma readsAs_encodeTaggedKey (ns db : UInt64) (tag : KeyTag) (payload : List UInt8) :
    ReadsAs (encodeTaggedKey ns db tag payload).asSlice ns db tag payload := by
  have hstrip (ns' db' : UInt64) :
      stripSessionPrefix (encodeTaggedKey ns db tag payload).asSlice (new ns' db').asSlice =
        if ns' = ns ∧ db' = db then some (tag, payload) else none := by
    rw [asSlice_encodeTaggedKey, asSlice_new, stripSessionPrefix, stripPrefix_append]
    split
    · simp [KeyTag.fromU8_eq_some_iff.2 rfl]
    · rfl
  refine ⟨rfl, ?_, ?_, ?_, hstrip, ?_, ?_⟩
  · rw [sessionPrefixLenFromSlice_eq, asSlice_encodeTaggedKey, asSlice_new, prefixLenFromFirstBytes_append]
  · rw [decodeTag_eq, asSlice_encodeTaggedKey, afterPrefix_append]
    exact KeyTag.fromU8_eq_some_iff.2 rfl
  · rw [decodeMetaUserKey_eq, asSlice_encodeTaggedKey, afterPrefix_append]
    simp [metaPayload, KeyTag.asU8_inj]
  · intro ns' db' expected
    rw [asSlice_encodeTaggedKey, asSlice_new, stripSessionPrefixWithTag, stripPrefix_append]
    split
    · simp [KeyTag.asU8_inj, *, eq_comm]
    · simp [*]
  · intro ns' db'
    rw [extractLiveUserKey, hstrip]
    by_cases hsame : ns' = ns ∧ db' = db
    · simp [hsame]
    · simp [hsame]

/-- Keys are decoded to what was encoded. What is accepted is the encoding of what it decodes to, all
readers take it apart in the same way, and it belongs to no other session. -/
theorem decodeTaggedKey_readsAs (ns db : UInt64) (tag : KeyTag) (payload : List UInt8) :
    decodeTaggedKey (encodeTaggedKey ns db tag payload).asSlice = .ok (ns, db, tag, payload) ∧
      ∀ key, decodeTaggedKey key = .ok (ns, db, tag, payload) ↔ ReadsAs key ns db tag payload := by
  refine ⟨decodeTaggedKey_eq_ok_iff.2 (asSlice_encodeTaggedKey ..), fun key => ?_⟩
  rw [decodeTaggedKey_eq_ok_iff]
  constructor
  · rintro rfl
    rw [← asSlice_encodeTaggedKey]
    exact readsAs_encodeTaggedKey ns db tag payload
  · intro h
    rw [← h.encode, asSlice_encodeTaggedKey]

end Wedb.Key
