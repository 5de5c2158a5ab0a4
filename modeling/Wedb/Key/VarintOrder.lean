import Wedb.Key.Varint

/-!
# The order of the encodings

Byte strings are compared byte by byte. Read as the first digits of a number with nine digits, the
encodings are ordered as their values, so they are ordered as byte strings too.
-/

namespace Wedb.Key

open BigEndian

/-- The marker is added to what the first byte holds of the value. -/
lemma toNat_marker_or {k : LengthClass} (hk : k = twoBytes ∨ k = threeBytes ∨ k = fourBytes) :
    ∀ b, b ≤ k.mask → (k.marker ||| b).toNat = k.marker.toNat + b.toNat := by
  rcases hk with rfl | rfl | rfl <;> exact byte_forall (by decide +kernel)

lemma weigh_encode {k : LengthClass} (hk : k = twoBytes ∨ k = threeBytes ∨ k = fourBytes)
    {val : Nat} (hlimit : val < k.limit) :
    weigh 9 (k.encode val) =
      256 ^ (8 - k.extra) * (256 ^ k.extra * k.marker.toNat + (val - k.base)) := by
  have hoffset : val - k.base < 256 ^ k.extra * (k.mask.toNat + 1) := by
    have heq := (sound_of_mem hk).limit_eq
    have hpos : 0 < 256 ^ k.extra * (k.mask.toNat + 1) :=
      mul_pos (Nat.pow_pos (by decide)) (Nat.succ_pos _)
    omega
  have hbyte : .ofNat ((val - k.base) / 256 ^ k.extra) ≤ k.mask :=
    (Nat.mod_le ..).trans (Nat.lt_succ_iff.1 (Nat.div_lt_of_lt_mul hoffset))
  have hwidth : val - k.base < 256 ^ (k.extra + 1) :=
    hoffset.trans_le (Nat.mul_le_mul_left _ k.mask.toNat_lt)
  have hvalue := decode_encode_of_lt hwidth
  rw [encode_succ, decode_cons] at hvalue
  have hbytes : k.encode val = (k.marker ||| .ofNat ((val - k.base) / 256 ^ k.extra)) ::
      encode k.extra (val - k.base) := by rw [LengthClass.encode, encode_succ, mark]
  have hlen : (k.encode val).length = k.extra + 1 := by
    rw [hbytes, List.length_cons, length_encode]
  have hle : k.extra + 1 ≤ 9 := by rcases hk with rfl | rfl | rfl <;> decide
  rw [weigh_eq (hlen ▸ hle), hlen, hbytes, decode_cons, toNat_marker_or hk _ hbyte,
    mul_add (256 ^ (encode _ _).length), add_assoc, hvalue, length_encode, Nat.succ_sub_succ 8]

lemma weigh_varintBytes (val : UInt64) : weigh 9 (varintBytes val) =
    if val.toNat < varint1bMax then 256 ^ 8 * val.toNat
    else if val.toNat < varint2bMax then 256 ^ 7 * (0x8000 + (val.toNat - varint1bMax))
    else if val.toNat < varint3bMax then 256 ^ 6 * (0xC00000 + (val.toNat - varint2bMax))
    else if val.toNat < varint4bMax then 256 ^ 5 * (0xE0000000 + (val.toNat - varint3bMax))
    else 256 ^ 8 * 255 + val.toNat := by
  rw [varintBytes_eq]
  split_ifs with h₁ h₂ h₃ h₄
  · rw [weigh_eq (by decide : 1 ≤ 9), decode_cons, UInt8.toNat_ofNat',
      Nat.mod_eq_of_lt (h₁.trans (by decide))]
    simp [decode, LittleEndian.decode]
  · rw [weigh_encode (.inl rfl) h₂]
    simp [twoBytes, varint2bMarker]
  · rw [weigh_encode (.inr (.inl rfl)) h₃]
    simp [threeBytes, varint3bMarker]
  · rw [weigh_encode (.inr (.inr rfl)) h₄]
    simp [fourBytes, varint4bMarker]
  · have hlen : (varint9bMarker :: encode 8 val.toNat).length = 9 := by
      rw [List.length_cons, length_encode]
    rw [weigh_eq hlen.le, decode_cons, decode_encode_of_lt val.toNat_lt]
    simp [varint9bMarker]

lemma varintBytes_lt {a b : UInt64} (h : a < b) : varintBytes a < varintBytes b := by
  apply @lt_of_weigh_lt 9
  have hlt := UInt64.lt_iff_toNat_lt.1 h
  rw [weigh_varintBytes, weigh_varintBytes]
  unfold varint1bMax varint2bMax varint3bMax varint4bMax
  split_ifs <;> omega

/-- The bytes of a value are read back whatever follows them, nothing else is read as the value, no
encoding starts another one, and they are ordered as the values. -/
theorem varint_orderPreserving (a : UInt64) :
    (∀ dst, (varintBytes a).length ≤ dst.length → encodeU64 a dst =
      .ok (varintBytes a ++ dst.drop (varintBytes a).length, (varintBytes a).length)) ∧
    (∀ rest, decodeU64 (varintBytes a ++ rest) = .ok (a, (varintBytes a).length)) ∧
    (∀ slice n, decodeU64 slice = .ok (a, n) →
      n = (varintBytes a).length ∧ varintBytes a <+: slice) ∧
    ∀ b, (varintBytes a <+: varintBytes b → a = b) ∧ (varintBytes a < varintBytes b ↔ a < b) := by
  refine ⟨fun dst hdst => ?_, selfDelimiting_varint.decode_append a, fun slice n h => ?_,
    fun b => ⟨fun hpre => ?_, fun h => ?_, varintBytes_lt⟩⟩
  · rw [encodeU64, if_neg hdst.not_gt]
    simp [Slice.overwrite]
  · obtain ⟨hn, rest, rfl⟩ := selfDelimiting_varint.exists_append h
    exact ⟨hn, List.prefix_append _ _⟩
  · obtain ⟨rest, hrest⟩ := hpre
    exact (selfDelimiting_varint.append_inj (hrest.trans (List.append_nil _).symm)).1
  · rcases lt_trichotomy a.toNat b.toNat with hlt | heq | hgt
    · exact hlt
    · exact absurd h (UInt64.toNat_inj.1 heq ▸ List.lt_irrefl _)
    · exact absurd h (List.lt_asymm (varintBytes_lt hgt))

end Wedb.Key
