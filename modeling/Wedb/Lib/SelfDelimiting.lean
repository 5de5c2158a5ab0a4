import Mathlib.Tactic.Common

/-!
# Self-delimiting encodings

A decoder that reads an encoding from the front of its input and says how long it was. It accepts what
starts with an encoding, with the value that was encoded, and nothing else. So no encoding is the start
of another one, and two of them one after the other are an encoding of the pair.
-/

/-- `decode` undoes `encode`, and accepts no other input. -/
structure SelfDelimiting {α β ε : Type*} (encode : α → List β) (decode : List β → Except ε (α × Nat)) :
    Prop where
  decode_append : ∀ a rest, decode (encode a ++ rest) = .ok (a, (encode a).length)
  exists_append : ∀ {bs a n}, decode bs = .ok (a, n) →
    n = (encode a).length ∧ ∃ rest, bs = encode a ++ rest

namespace SelfDelimiting

variable {α α' β ε : Type*} {encode : α → List β} {decode : List β → Except ε (α × Nat)}
  {encode' : α' → List β} {decode' : List β → Except ε (α' × Nat)}

section

variable (h : SelfDelimiting encode decode)
include h

/-- What follows an encoding is determined by the whole. -/
lemma append_inj {a b : α} {as bs : List β}
    (heq : encode a ++ as = encode b ++ bs) : a = b ∧ as = bs := by
  have hdecode := h.decode_append a as
  rw [heq, h.decode_append b bs] at hdecode
  obtain rfl := (Prod.mk.inj (Except.ok.inj hdecode)).1
  exact ⟨rfl, List.append_cancel_left heq⟩

lemma drop_eq {bs : List β} {a : α} {n : Nat}
    (hdecode : decode bs = .ok (a, n)) : bs = encode a ++ bs.drop n ∧ n ≤ bs.length := by
  obtain ⟨rfl, rest, rfl⟩ := h.exists_append hdecode
  exact ⟨by rw [List.drop_left], by rw [List.length_append]; exact Nat.le_add_right ..⟩

/-- One decoder after the other. -/
def pair (decode : List β → Except ε (α × Nat)) (decode' : List β → Except ε (α' × Nat))
    (bs : List β) : Except ε ((α × α') × Nat) :=
  match decode bs with
  | .error e => .error e
  | .ok (a, n) =>
    match decode' (bs.drop n) with
    | .error e => .error e
    | .ok (a', n') => .ok ((a, a'), n + n')

lemma prod (h' : SelfDelimiting encode' decode') :
    SelfDelimiting (fun p : α × α' => encode p.1 ++ encode' p.2) (pair decode decode') where
  decode_append := by
    rintro ⟨a, a'⟩ rest
    simp only [pair, List.append_assoc, h.decode_append, List.drop_left, h'.decode_append,
      List.length_append]
  exists_append := by
    intro bs p n hpair
    unfold pair at hpair
    split at hpair
    · cases hpair
    · rename_i a n₁ hdecode
      split at hpair
      · cases hpair
      · rename_i a' n₂ hdecode'
        obtain ⟨⟩ := hpair
        obtain ⟨rfl, rest, rfl⟩ := h.exists_append hdecode
        rw [List.drop_left] at hdecode'
        obtain ⟨rfl, rest', rfl⟩ := h'.exists_append hdecode'
        exact ⟨(List.length_append ..).symm, rest', (List.append_assoc ..).symm⟩

end

end SelfDelimiting
