import Mathlib.Data.Nat.Digits.Defs
import Wedb.PubSub.Glob

/-!
# Names of a namespace

Pub/sub tables are shared by all namespaces. A name is kept apart by the decimal number of its namespace and a
colon in front of it. The name may be a glob pattern that a client chose; digits and the colon are literal
bytes for the matcher, and the colon ends the number, so a pattern reaches only names of its own namespace.
-/

namespace Wedb.PubSub

open List Glob

def nsDelim : UInt8 := 58

/-- The byte of a decimal digit. -/
def digitByte (d : Nat) : UInt8 := UInt8.ofNat (48 + d)

/-- The decimal digits of `n`, first the highest, without leading zeros. -/
def format (n : UInt64) : List UInt8 :=
  if n = 0 then [digitByte 0] else (Nat.digits 10 n.toNat).reverse.map digitByte

/-- The bytes in front of a name, as they stand in the buffer. -/
structure NsPrefix where
  asSlice : List UInt8

namespace NsPrefix

def empty : NsPrefix := ⟨[]⟩

/-- One more segment: a number and the delimiter. -/
def push (self : NsPrefix) (n : UInt64) : NsPrefix := ⟨self.asSlice ++ format n ++ [nsDelim]⟩

def new (ns : UInt64) : NsPrefix := empty.push ns

def isolate (self : NsPrefix) (raw : List UInt8) : List UInt8 := self.asSlice ++ raw

def strip (self : NsPrefix) (isolated : List UInt8) : Option (List UInt8) :=
  if self.asSlice <+: isolated then some (isolated.drop self.asSlice.length) else none

end NsPrefix

variable {n : UInt64}

section Digits

lemma toNat_digitByte {d : Nat} (hd : d < 10) : (digitByte d).toNat = 48 + d := by
  rw [digitByte, UInt8.toNat_ofNat', Nat.mod_eq_of_lt (by omega)]

lemma digitByte_inj {d e : Nat} (hd : d < 10) (he : e < 10) (h : digitByte d = digitByte e) :
    d = e := by
  have hnat := congrArg UInt8.toNat h
  rw [toNat_digitByte hd, toNat_digitByte he] at hnat
  omega

lemma exists_digit_of_mem_format {b : UInt8} (hb : b ∈ format n) : ∃ d < 10, b = digitByte d := by
  unfold format at hb
  split at hb
  · exact ⟨0, by decide, mem_singleton.1 hb⟩
  · obtain ⟨d, hd, rfl⟩ := mem_map.1 hb
    exact ⟨d, Nat.digits_lt_base (by decide) (mem_reverse.1 hd), rfl⟩

lemma literal_of_digit : ∀ d < 10, Literal (digitByte d) ∧ digitByte d ≠ nsDelim := by
  decide

lemma literal_format {b : UInt8} (hb : b ∈ format n) : Literal b ∧ b ≠ nsDelim := by
  obtain ⟨d, hd, rfl⟩ := exists_digit_of_mem_format hb
  exact literal_of_digit d hd

/-- Bytes of digits below ten determine the digits. -/
lemma map_digitByte_inj {ds es : List Nat} (hds : ∀ d ∈ ds, d < 10) (hes : ∀ e ∈ es, e < 10)
    (h : ds.map digitByte = es.map digitByte) : ds = es := by
  induction ds generalizing es with
  | nil => exact (map_eq_nil_iff.1 h.symm).symm
  | cons d ds ih =>
    cases es with
    | nil => cases h
    | cons e =>
      obtain ⟨hhead, htail⟩ := cons.inj h
      rw [digitByte_inj (hds d mem_cons_self) (hes e mem_cons_self) hhead,
        ih (fun d hd => hds d (mem_cons_of_mem _ hd))
          (fun e he => hes e (mem_cons_of_mem _ he)) htail]

/-- The digits zero is written with, as `Nat.digits` would give them if zero had one. -/
lemma format_eq_map (n : UInt64) :
    ∃ ds : List Nat, format n = ds.reverse.map digitByte ∧ (∀ d ∈ ds, d < 10) ∧
      Nat.ofDigits 10 ds = n.toNat := by
  unfold format
  split
  · next hn => exact ⟨[0], rfl, by decide, by rw [hn]; rfl⟩
  · exact ⟨_, rfl, fun d hd => Nat.digits_lt_base (by decide) hd, Nat.ofDigits_digits 10 _⟩

lemma format_injective {m : UInt64} (h : format m = format n) : m = n := by
  obtain ⟨ds, hds, hlt, hm⟩ := format_eq_map m
  obtain ⟨es, hes, hlt', hn⟩ := format_eq_map n
  rw [hds, hes] at h
  have hreverse : ds.reverse = es.reverse :=
    map_digitByte_inj (fun d hd => hlt d (mem_reverse.1 hd))
      (fun e he => hlt' e (mem_reverse.1 he)) h
  rw [reverse_inj] at hreverse
  rw [← UInt64.toNat_inj, ← hm, ← hn, hreverse]

end Digits

/-- Up to the first delimiter two lists without one agree when the wholes do. -/
lemma append_delim_inj {α : Type*} {delim : α} {as bs xs ys : List α} (has : delim ∉ as)
    (hbs : delim ∉ bs) (h : as ++ delim :: xs = bs ++ delim :: ys) : as = bs := by
  induction as generalizing bs with
  | nil =>
    cases bs with
    | nil => rfl
    | cons => exact absurd (cons.inj h).1 (ne_of_not_mem_cons hbs)
  | cons a as ih =>
    cases bs with
    | nil => exact absurd (cons.inj h).1.symm (ne_of_not_mem_cons has)
    | cons =>
      obtain ⟨rfl, htail⟩ := cons.inj h
      rw [ih (not_mem_of_not_mem_cons has) (not_mem_of_not_mem_cons hbs) htail]

namespace NsPrefix

lemma asSlice_new (ns : UInt64) : (new ns).asSlice = format ns ++ [nsDelim] := rfl

lemma literal_new {ns : UInt64} : ∀ b ∈ (new ns).asSlice, Literal b := by
  intro b hb
  rw [asSlice_new, mem_append, mem_singleton] at hb
  rcases hb with hb | rfl
  · exact (literal_format hb).1
  · decide

/-- What a namespace puts in front of a name is in front of no name of another one. -/
lemma eq_of_isPrefix_isolate {ns ns' : UInt64} {raw : List UInt8}
    (h : (new ns).asSlice <+: (new ns').isolate raw) : ns = ns' := by
  obtain ⟨rest, hrest⟩ := h
  rw [isolate, asSlice_new, asSlice_new, append_assoc, append_assoc] at hrest
  have hdelim (n : UInt64) : nsDelim ∉ format n := fun hmem => (literal_format hmem).2 rfl
  exact format_injective (append_delim_inj (hdelim ns) (hdelim ns') hrest)

lemma strip_isolate (self : NsPrefix) (raw : List UInt8) :
    self.strip (self.isolate raw) = some raw := by
  rw [strip, isolate, if_pos (prefix_append ..), drop_left]

/-- Namespaces do not see each other: a pattern of one matches no name of another and a name of another is not
taken for one's own, whatever bytes patterns and names hold. Within a namespace patterns match as if names were
not kept apart, and stripping a name gives it back. -/
theorem isolated (ns ns' : UInt64) (p c : List UInt8) :
    (ns ≠ ns' → globMatch ((new ns).isolate p) ((new ns').isolate c) = false ∧
      (new ns).strip ((new ns').isolate c) = none) ∧
    (c ≠ [] → globMatch ((new ns).isolate p) ((new ns).isolate c) = globMatch p c) ∧
    (new ns).strip ((new ns).isolate c) = some c := by
  refine ⟨fun hne => ⟨?_, ?_⟩, fun hc => globMatch_append literal_new hc, strip_isolate _ c⟩
  · rw [Bool.eq_false_iff]
    intro hmatch
    exact hne (eq_of_isPrefix_isolate (isPrefix_of_globMatch literal_new hmatch))
  · exact if_neg fun hprefix => hne (eq_of_isPrefix_isolate hprefix)

/-- `*` of namespace 1 does not reach the channel `a` of namespace 11. -/
theorem isolated_one_eleven :
    (1 : UInt64) ≠ 11 ∧ globMatch ((new 1).isolate [star]) ((new 11).isolate [97]) = false ∧
      globMatch ((new 1).isolate [star]) ((new 1).isolate [97]) = globMatch [star] [97] := by
  have h := isolated 1 11 [star] [97]
  have h' := isolated 1 1 [star] [97]
  exact ⟨by decide, (h.1 (by decide)).1, h'.2.1 (by decide)⟩

end NsPrefix

end Wedb.PubSub
