import Wedb.Lib.Machine
import Wedb.Token.Base32

/-!
# Issuing of checkpoint tokens

The high word of a token is the clock of its candidate, or one more than the high words that are there already
when the clock has not passed them (`wcpr::manager::issue_token_after`). The high word is the version of the
checkpoint, so no two tokens may share it.
-/

namespace Wedb.Token

open List

def hi (token : Nat) : Nat := token >>> 64

def mintLow (salt seq : UInt64) : UInt64 := salt + seq

def join (hi : Nat) (low : UInt64) : Nat := (hi <<< 64) ||| low.toNat

/-- The statics of the process, the candidates that are drawn and not yet issued, and the tokens issued so far
with the floor of their request, the newest first. -/
structure Issuer where
  last : Option Nat
  seq : UInt64
  candidates : List Nat
  issued : List (Nat × Nat)
deriving DecidableEq

inductive Action where
  /-- `candidate_token` reads the clock -/
  | candidate (now : UInt64)
  /-- `issue_token_after` takes one of the candidates -/
  | issue (i : Nat) (floor : Nat)

def start : Issuer := ⟨none, 1, [], []⟩

def candidateToken (salt : UInt64) (s : Issuer) (now : UInt64) : Issuer :=
  { s with
    seq := s.seq + 1
    candidates := s.candidates ++ [join now.toNat (mintLow salt s.seq)] }

/-- The token and the next sequence number. -/
def issueTokenAfter (salt seq : UInt64) (prev : Option Nat) (candidate floor : Nat) : Nat × UInt64 :=
  let hiFloor := max (prev.elim 0 hi) (hi floor)
  if hiFloor < hi candidate then (candidate, seq)
  else if hiFloor + 1 < 2 ^ 64 then (join (hiFloor + 1) (mintLow salt seq), seq + 1)
  -- the words are exhausted: the lower word goes on
  else if prev.getD floor + 1 < 2 ^ 128 then (prev.getD floor + 1, seq)
  else (candidate, seq)

def step (salt : UInt64) (s : Issuer) : Action → Option Issuer
  | .candidate now => some (candidateToken salt s now)
  | .issue i floor =>
    (s.candidates[i]?).map fun candidate =>
      let (token, seq) := issueTokenAfter salt s.seq s.last candidate floor
      { last := some token, seq, candidates := s.candidates.eraseIdx i, issued := (token, floor) :: s.issued }

def Issuer.tokens (s : Issuer) : List Nat := s.issued.map Prod.fst

/-- A request names a floor that leaves room above its high word. -/
def boundedFloor : Action → Bool
  | .candidate _ => true
  | .issue _ floor => hi floor < 2 ^ 64 - 1

/-- Moreover, no token issued so far carries the last high word. -/
def hasRoom (s : Issuer) (a : Action) : Bool :=
  boundedFloor a && s.tokens.all fun token => hi token < 2 ^ 64 - 1

/-- Every token is above the floor of its request and above all older tokens, by its high word. -/
structure Increasing (s : Issuer) : Prop where
  above_older : s.tokens.Pairwise fun newer older => hi older < hi newer
  above_floor : ∀ p ∈ s.issued, hi p.2 < hi p.1

instance (s : Issuer) : Decidable (Increasing s) :=
  decidable_of_iff ((s.tokens.Pairwise fun newer older => hi older < hi newer) ∧ ∀ p ∈ s.issued, hi p.2 < hi p.1)
    ⟨fun ⟨h, h'⟩ => ⟨h, h'⟩, fun ⟨h, h'⟩ => ⟨h, h'⟩⟩

/-! ### Words -/

lemma hi_join (h : Nat) (low : UInt64) : hi (join h low) = h := by
  have hlow := low.toNat_lt
  rw [hi, join, ← Nat.shiftLeft_add_eq_or_of_lt hlow]
  omega

lemma join_lt {h : Nat} (hh : h < 2 ^ 64) (low : UInt64) : join h low < 2 ^ 128 := by
  have hlow := low.toNat_lt
  rw [join, ← Nat.shiftLeft_add_eq_or_of_lt hlow]
  omega

lemma issueTokenAfter_above (salt seq : UInt64) (prev : Option Nat) (candidate floor : Nat)
    (hprev : ∀ t ∈ prev, hi t < 2 ^ 64 - 1) (hfloor : hi floor < 2 ^ 64 - 1) :
    (∀ t ∈ prev, hi t < hi (issueTokenAfter salt seq prev candidate floor).1) ∧
      hi floor < hi (issueTokenAfter salt seq prev candidate floor).1 := by
  have hle : ∀ t ∈ prev, hi t ≤ max (prev.elim 0 hi) (hi floor) := by
    rintro t rfl
    exact le_max_left _ _
  have hroom : max (prev.elim 0 hi) (hi floor) + 1 < 2 ^ 64 := by
    have hlast : prev.elim 0 hi < 2 ^ 64 - 1 := by
      cases prev with
      | none => decide
      | some t => exact hprev t rfl
    omega
  have habove : max (prev.elim 0 hi) (hi floor) < hi (issueTokenAfter salt seq prev candidate floor).1 := by
    dsimp only [issueTokenAfter]
    split
    · assumption
    · rw [hi_join]
      exact Nat.lt_succ_self _
  exact ⟨fun t ht => (hle t ht).trans_lt habove, (le_max_right _ _).trans_lt habove⟩

lemma issueTokenAfter_lt (salt seq : UInt64) (prev : Option Nat) (candidate floor : Nat)
    (hcandidate : candidate < 2 ^ 128) :
    (issueTokenAfter salt seq prev candidate floor).1 < 2 ^ 128 := by
  dsimp only [issueTokenAfter]
  split_ifs with hpassed hroom hnext
  · exact hcandidate
  · exact join_lt hroom _
  · exact hnext
  · exact hcandidate

/-! ### Runs -/

structure Inv (s : Issuer) : Prop where
  last_eq : s.last = s.tokens.head?
  candidates_lt : ∀ t ∈ s.candidates, t < 2 ^ 128
  tokens_lt : ∀ t ∈ s.tokens, t < 2 ^ 128
  increasing : Increasing s

lemma inv_start : Inv start := ⟨rfl, nofun, nofun, ⟨.nil, nofun⟩⟩

variable {s : Issuer}

lemma Inv.candidate (hi : Inv s) (salt now : UInt64) : Inv (candidateToken salt s now) where
  last_eq := hi.last_eq
  candidates_lt := by
    intro t ht
    rcases mem_append.1 ht with ht | ht
    · exact hi.candidates_lt t ht
    · rw [mem_singleton.1 ht]
      exact join_lt now.toNat_lt _
  tokens_lt := hi.tokens_lt
  increasing := ⟨hi.increasing.above_older, hi.increasing.above_floor⟩

/-- The newest token bounds the older ones, so a request need only pass that one. -/
lemma Inv.issue {s' : Issuer} {salt : UInt64} {i floor : Nat} (h : Inv s)
    (hroom : hasRoom s (.issue i floor) = true) (hs : step salt s (.issue i floor) = some s') : Inv s' := by
  obtain ⟨candidate, hcandidate, rfl⟩ := Option.map_eq_some_iff.1 hs
  obtain ⟨hfloor, htokens⟩ := Bool.and_eq_true_iff.1 hroom
  have hprev : ∀ t ∈ s.last, hi t < 2 ^ 64 - 1 := by
    intro t ht
    rw [h.last_eq] at ht
    exact of_decide_eq_true (all_eq_true.1 htokens t (mem_of_mem_head? ht))
  obtain ⟨habove, hpast⟩ := issueTokenAfter_above salt s.seq s.last candidate floor hprev
    (of_decide_eq_true hfloor)
  have hmem := mem_of_getElem? hcandidate
  have hlt := issueTokenAfter_lt salt s.seq s.last candidate floor (h.candidates_lt _ hmem)
  generalize issueTokenAfter salt s.seq s.last candidate floor = r at habove hpast hlt
  obtain ⟨token, seq⟩ := r
  have holder : ∀ t ∈ s.tokens, hi t < hi token := by
    intro t ht
    rw [h.last_eq] at habove
    have hpairwise := h.increasing.above_older
    cases htoks : s.tokens with
    | nil => rw [htoks] at ht; cases ht
    | cons newest =>
      rw [htoks] at ht habove hpairwise
      rcases mem_cons.1 ht with rfl | ht
      · exact habove t rfl
      · exact (rel_of_pairwise_cons hpairwise ht).trans (habove newest rfl)
  refine ⟨rfl, fun t ht => h.candidates_lt t (mem_of_mem_eraseIdx ht), ?_, ⟨?_, ?_⟩⟩
  · rintro t (_ | ⟨_, ht⟩)
    · exact hlt
    · exact h.tokens_lt t ht
  · exact pairwise_cons.2 ⟨holder, h.increasing.above_older⟩
  · rintro p (_ | ⟨_, hp⟩)
    · exact hpast
    · exact h.increasing.above_floor p hp

end Wedb.Token
