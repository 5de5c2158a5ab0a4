import Mathlib.Data.List.TakeWhile
import Mathlib.Tactic.Common

/-!
# Keyed journals

A journal is a list of keyed entries, the newest at the head. An upsert puts an entry at the head
or overwrites the newest entry of its key where that entry lies. A reader either looks for the
newest entry of a key, or replays the whole journal and keeps, for each cell, what the newest entry
that sets the cell says: `log.findSome? sets`. The two can differ when entries of several keys set
one cell and an upsert in place stays below an entry of another key; they agree as long as an upsert
in place goes to the entry that decides the cell.
-/

namespace Journal

open List

variable {ε κ β : Type*} [DecidableEq κ] (key : ε → κ)

/-- The newest entry of a key. -/
def lookup (log : List ε) (k : κ) : Option ε := log.find? fun e => key e = k

/-- The entries above the newest entry of a key. -/
def newer (log : List ε) (k : κ) : List ε := log.takeWhile fun e => key e ≠ k

/-- `e` takes the place of the newest entry of its key. -/
def overwrite (e : ε) : List ε → List ε
  | [] => []
  | x :: log => if key x = key e then e :: log else x :: overwrite e log

/-- An upsert in place needs an entry to overwrite. -/
def overwrites (inPlace : Bool) (log : List ε) (k : κ) : Bool :=
  inPlace && (lookup key log k).isSome

/-- Overwrites in place when asked to and when there is an entry to overwrite; appends otherwise. -/
def upsert (inPlace : Bool) (log : List ε) (e : ε) : List ε :=
  if overwrites key inPlace log (key e) then overwrite key e log else e :: log

/-- The key and the value of the newest entry that sets a cell. -/
def setting (sets : ε → Option β) (log : List ε) : Option (κ × β) :=
  log.findSome? fun e => (sets e).map (key e, ·)

variable {key}

@[simp]
lemma lookup_cons (x : ε) (log : List ε) (k : κ) :
    lookup key (x :: log) k = if key x = k then some x else lookup key log k := by
  by_cases h : key x = k <;> simp [lookup, h]

lemma mem_of_lookup {log : List ε} {k : κ} {e : ε} (h : lookup key log k = some e) :
    e ∈ log ∧ key e = k :=
  ⟨mem_of_find?_eq_some h, by simpa using find?_some h⟩

/-- Where the overwritten entry lies. -/
lemma exists_split_of_lookup {log : List ε} {e x : ε} (h : lookup key log (key e) = some x) :
    ∃ older, log = newer key log (key e) ++ x :: older ∧ key x = key e ∧
      overwrite key e log = newer key log (key e) ++ e :: older := by
  induction log with
  | nil => cases h
  | cons y log ih =>
    rw [lookup_cons] at h
    by_cases hy : key y = key e
    · rw [if_pos hy] at h
      cases h
      exact ⟨log, by simp [newer, hy], hy, by simp [overwrite, newer, hy]⟩
    · rw [if_neg hy] at h
      obtain ⟨older, hlog, hx, hover⟩ := ih h
      have hnewer : newer key (y :: log) (key e) = y :: newer key log (key e) := by
        simp [newer, hy]
      refine ⟨older, ?_, hx, ?_⟩
      · rw [hnewer, cons_append, ← hlog]
      · rw [hnewer, overwrite, if_neg hy, hover, cons_append]

variable (key) in
/-- What an upsert does to the journal: in place below what is newer, or at the head. -/
lemma upsert_cases (inPlace : Bool) (log : List ε) (e : ε) :
    (overwrites key inPlace log (key e) = true ∧ ∃ x older, log = newer key log (key e) ++ x :: older ∧ key x = key e ∧
      upsert key inPlace log e = newer key log (key e) ++ e :: older) ∨
    upsert key inPlace log e = e :: log := by
  unfold upsert
  split
  · rename_i h
    obtain ⟨x, hx⟩ := Option.isSome_iff_exists.1 (Bool.and_eq_true_iff.1 h).2
    obtain ⟨older, hlog, hkey, hover⟩ := exists_split_of_lookup hx
    exact Or.inl ⟨h, x, older, hlog, hkey, hover⟩
  · exact Or.inr rfl

lemma mem_upsert {inPlace : Bool} {log : List ε} {e x : ε}
    (h : x ∈ upsert key inPlace log e) : x = e ∨ x ∈ log := by
  rcases upsert_cases key inPlace log e with ⟨_, y, older, hlog, _, heq⟩ | heq
  · rw [heq, mem_append, mem_cons] at h
    rw [hlog, mem_append]
    tauto
  · simpa [heq] using h

lemma forall_mem_upsert {P : ε → Prop} {inPlace : Bool} {log : List ε} {e : ε} (he : P e)
    (h : ∀ x ∈ log, P x) : ∀ x ∈ upsert key inPlace log e, P x := by
  intro x hx
  rcases mem_upsert hx with rfl | hx
  · exact he
  · exact h x hx

variable (key) in
omit [DecidableEq κ] in
lemma findSome?_eq_setting (sets : ε → Option β) (log : List ε) :
    log.findSome? sets = (setting key sets log).map Prod.snd := by
  induction log with
  | nil => rfl
  | cons e log ih =>
    rw [setting, List.findSome?_cons, List.findSome?_cons]
    cases sets e with
    | none => exact ih
    | some => rfl

/-- Cells that no entry of the key sets are decided as before. -/
lemma findSome?_upsert_of_none {inPlace : Bool} {log : List ε} {e : ε} {sets : ε → Option β}
    (h : ∀ x, key x = key e → sets x = none) :
    (upsert key inPlace log e).findSome? sets = log.findSome? sets := by
  rcases upsert_cases key inPlace log e with ⟨_, y, older, hlog, hy, heq⟩ | heq
  · rw [heq, hlog, findSome?_append, findSome?_append, findSome?_cons,
      findSome?_cons, h y hy, h e rfl, ← hlog]
  · rw [heq, findSome?_cons, h e rfl]

section Sets

variable {inPlace : Bool} {log : List ε} {e : ε} {sets : ε → Option β} {b : β}

lemma setting_upsert_of_none (h : ∀ x, key x = key e → sets x = none) :
    setting key sets (upsert key inPlace log e) = setting key sets log :=
  findSome?_upsert_of_none fun x hx => by rw [h x hx, Option.map_none]

/-- A cell that already reads `b` still does when an entry that sets it to `b` is upserted. -/
lemma findSome?_upsert_of_eq (he : sets e = some b) (h : log.findSome? sets = some b) :
    (upsert key inPlace log e).findSome? sets = some b := by
  rcases upsert_cases key inPlace log e with ⟨_, y, older, hlog, _, heq⟩ | heq
  · rw [heq, findSome?_append, findSome?_cons, he]
    rw [hlog, findSome?_append] at h
    cases hn : (newer key log (key e)).findSome? sets with
    | none => rfl
    | some =>
      rw [hn] at h
      exact h
  · rw [heq, findSome?_cons, he]

lemma ne_key_of_mem_newer {k : κ} {x : ε} (h : x ∈ newer key log k) : key x ≠ k := by
  simpa using mem_takeWhile_imp h

/-- A cell that is decided by an entry of the key, or by none, is decided by what is upserted. -/
lemma setting_upsert_self (he : sets e = some b) (h : overwrites key inPlace log (key e) = true →
      ∀ p, setting key sets log = some p → p.1 = key e) :
    setting key sets (upsert key inPlace log e) = some (key e, b) := by
  rcases upsert_cases key inPlace log e with ⟨hin, y, older, hlog, hy, heq⟩ | heq
  · have hnone : setting key sets (newer key log (key e)) = none := by
      by_contra hne
      obtain ⟨p, hp⟩ := Option.ne_none_iff_exists'.1 hne
      obtain ⟨x, hx, hset⟩ := exists_of_findSome?_eq_some hp
      obtain ⟨c, _, rfl⟩ := Option.map_eq_some_iff.1 hset
      refine ne_key_of_mem_newer hx (h hin (key x, c) ?_)
      rw [hlog, setting, findSome?_append]
      rw [setting] at hp
      rw [hp, Option.some_or]
    rw [heq, setting, findSome?_append]
    rw [setting] at hnone
    rw [hnone, findSome?_cons, he]
    rfl
  · rw [heq, setting, findSome?_cons, he]
    rfl

/-- A cell that only entries of the key set reads what is upserted. -/
lemma findSome?_upsert_self (honly : ∀ x, (sets x).isSome → key x = key e) (he : sets e = some b) :
    (upsert key inPlace log e).findSome? sets = some b := by
  rw [findSome?_eq_setting key, setting_upsert_self he, Option.map_some]
  rintro - p hp
  obtain ⟨x, _, hset⟩ := exists_of_findSome?_eq_some hp
  obtain ⟨c, hc, rfl⟩ := Option.map_eq_some_iff.1 hset
  exact honly x (Option.isSome_of_eq_some hc)

/-- A cell that is decided by an entry of another key stays so, or is decided by what is
upserted. -/
lemma setting_upsert_of_ne (hkeys : ∀ x ∈ log, key x = key e → (sets x).isSome)
    (he : sets e = some b) {p : κ × β} (h : setting key sets log = some p) (hp : p.1 ≠ key e) :
    setting key sets (upsert key inPlace log e) = some p ∨
      setting key sets (upsert key inPlace log e) = some (key e, b) := by
  rcases upsert_cases key inPlace log e with ⟨_, y, older, hlog, hy, heq⟩ | heq
  · have hmem : y ∈ log := by rw [hlog]; simp
    rw [hlog, setting, findSome?_append] at h
    rw [heq, setting, findSome?_append]
    cases hn : (newer key log (key e)).findSome? fun x => (sets x).map (key x, ·) with
    | none =>
      -- the overwritten entry would decide the cell
      obtain ⟨c, hc⟩ := Option.isSome_iff_exists.1 (hkeys y hmem hy)
      rw [hn, findSome?_cons, hc] at h
      cases h
      exact absurd hy hp
    | some =>
      rw [hn] at h
      exact .inl h
  · rw [heq, setting, findSome?_cons, he]
    exact .inr rfl

/-- Two entries of different keys that set a cell to the same value: the cell reads it after both are
upserted, when an upsert of both in place finds the cell decided by one of the two keys. Between
the two upserts the cell may be left alone in any way. -/
lemma findSome?_upsert_upsert {inPlace₁ inPlace₂ : Bool} {e₁ e₂ : ε} {log' : List ε}
    (hne : key e₁ ≠ key e₂) (hkeys : ∀ x ∈ log, key x = key e₁ → (sets x).isSome)
    (he₁ : sets e₁ = some b) (he₂ : sets e₂ = some b)
    (h : overwrites key inPlace₁ log (key e₁) = true → inPlace₂ = true →
      ∀ p, setting key sets log = some p → p.1 = key e₂ ∨ p.1 = key e₁)
    (hlog : setting key sets log' = setting key sets (upsert key inPlace₁ log e₁)) :
    (upsert key inPlace₂ log' e₂).findSome? sets = some b := by
  have hdecided : setting key sets log' = some (key e₁, b) →
      (upsert key inPlace₂ log' e₂).findSome? sets = some b := fun hs =>
    findSome?_upsert_of_eq he₂ (by rw [findSome?_eq_setting key, hs]; rfl)
  by_cases hov : overwrites key inPlace₁ log (key e₁) = true
  · cases hp : inPlace₂ with
    | false => rw [upsert, overwrites, if_neg nofun, findSome?_cons, he₂]
    | true =>
      rw [hp] at hdecided
      cases hset : setting key sets log with
      | none =>
        refine hdecided (hlog.trans (setting_upsert_self he₁ ?_))
        rw [hset]
        nofun
      | some p =>
        rcases h hov hp p hset with hk | hk
        · rcases setting_upsert_of_ne hkeys he₁ hset (hk ▸ hne.symm) with hs | hs
          · -- an entry of the second key still decides the cell, and is overwritten
            rw [findSome?_eq_setting key, setting_upsert_self he₂, Option.map_some]
            rintro - q hq
            rw [hlog, hs] at hq
            exact Option.some.inj hq ▸ hk
          · exact hdecided (hlog.trans hs)
        · refine hdecided (hlog.trans (setting_upsert_self he₁ ?_))
          rintro - q hq
          rw [hset] at hq
          exact Option.some.inj hq ▸ hk
  · refine hdecided (hlog.trans ?_)
    rw [upsert, if_neg hov, setting, findSome?_cons, he₁]
    rfl

end Sets

/-- Every other key keeps its newest entry. -/
lemma lookup_upsert (inPlace : Bool) (log : List ε) (e : ε) (k : κ) :
    lookup key (upsert key inPlace log e) k =
      if k = key e then some e else lookup key log k := by
  rcases upsert_cases key inPlace log e with ⟨_, y, older, hlog, hy, heq⟩ | heq
  · have hnewer : ∀ l : List ε, lookup key (newer key log (key e) ++ l) (key e) =
        lookup key l (key e) := by
      intro l
      rw [lookup, find?_append, find?_eq_none.2]
      · rfl
      · intro x hx
        simpa using ne_key_of_mem_newer hx
    rw [heq]
    by_cases hk : k = key e
    · rw [if_pos hk, hk, hnewer, lookup_cons, if_pos rfl]
    · rw [if_neg hk]
      nth_rewrite 2 [hlog]
      have hyk : key y ≠ k := fun h => hk (h.symm.trans hy)
      rw [lookup, lookup, find?_append, find?_append, find?_cons_of_neg, find?_cons_of_neg]
      · simpa using hyk
      · simpa using Ne.symm hk
  · rw [heq, lookup_cons]
    by_cases hk : k = key e
    · rw [if_pos hk.symm, if_pos hk]
    · rw [if_neg (Ne.symm hk), if_neg hk]

end Journal
