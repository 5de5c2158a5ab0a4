import Mathlib.Algebra.Group.Int.Even
import Mathlib.Data.List.Nodup

/-!
# Counts in object envelopes

A hash or a sorted set is written with a header (`to_blob`): the number of its live members and the
earliest time at which one of them expires. `K` are the members, `V` their values or scores; times
are ticks, and what `bitcode` does to the rest is undone when it is read.
-/

namespace Wedb.Collection

open List

variable {K V : Type} [DecidableEq K]

structure Table (K V : Type) where
  entries : List (K × V) := []
  nodup : (entries.map Prod.fst).Nodup := by simp

namespace Table

def keys (m : Table K V) : List K := m.entries.map Prod.fst

/-- The first entry of a key stays. -/
def insertNew (m : Table K V) (x : K × V) : Table K V :=
  if h : x.1 ∈ m.keys then m else ⟨x :: m.entries, nodup_cons.2 ⟨h, m.nodup⟩⟩

def erase (m : Table K V) (key : K) : Table K V :=
  ⟨m.entries.filter (·.1 ≠ key), m.nodup.sublist (filter_sublist.map _)⟩

end Table

structure ExpiryLedger (K : Type) where
  times : Option (Table K Int) := none
  /-- The heap, as it gives its entries. -/
  queue : List (Int × K) := []

structure Object (K V : Type) where
  members : Table K V := {}
  ledger : ExpiryLedger K := {}

open Object

structure Wire (K V : Type) where
  entries : List (K × V)
  expirations : Option (List (K × Int))

structure Blob (K V : Type) where
  count : Nat
  watermark : Int
  wire : Wire K V

def noExpiryWatermark : Int := 2 ^ 63 - 1

namespace ExpiryLedger

def getTime (l : ExpiryLedger K) (key : K) : Option Int :=
  l.times.bind fun times => (times.entries.find? (·.1 = key)).map Prod.snd

def isExpiredAt (l : ExpiryLedger K) (key : K) (now : Int) : Bool := (l.getTime key).any (· < now)

def insertIfUnrecorded (l : ExpiryLedger K) (x : K × Int) : ExpiryLedger K :=
  if (l.getTime x.1).isSome then l
  else ⟨some ((l.times.getD {}).insertNew x),
    l.queue.takeWhile (·.1 ≤ x.2) ++ (x.2, x.1) :: l.queue.dropWhile (·.1 ≤ x.2)⟩

def cleanupIfEmpty (l : ExpiryLedger K) : ExpiryLedger K :=
  if l.times.any (·.entries.isEmpty) then {} else l

def collectActive (l : ExpiryLedger K) (now : Int) (alive : K → Bool) :
    Option (List (K × Int)) × Int :=
  match l.times with
  | none => (none, noExpiryWatermark)
  | some times =>
    let active := times.entries.filter fun x => now ≤ x.2 && alive x.1
    (if active.isEmpty then none else some active,
      active.foldl (fun w x => min w x.2) noExpiryWatermark)

end ExpiryLedger

namespace Object

def collectAliveEntries (o : Object K V) (now : Int) : List (K × V) :=
  o.members.entries.filter fun x => o.ledger.times.isNone || !o.ledger.isExpiredAt x.1 now

/-- `serialize_wire` and `to_blob`; the count is kept in four bytes. -/
def toBlob (o : Object K V) (now : Int) : Blob K V :=
  let entries := o.collectAliveEntries now
  let (expirations, watermark) := o.ledger.collectActive now fun key => key ∈ o.members.keys
  ⟨entries.length % 2 ^ 32, watermark, entries, expirations⟩

def loadExpiration (now : Int) (o : Object K V) (x : K × Int) : Object K V :=
  if x.2 < now then { o with members := o.members.erase x.1 }
  else if x.1 ∈ o.members.keys then { o with ledger := o.ledger.insertIfUnrecorded x }
  else o

/-- `from_blob`. -/
def fromBlob (b : Blob K V) (now : Int) : Object K V :=
  let o : Object K V := { members := b.wire.entries.foldl Table.insertNew {} }
  match b.wire.expirations with
  | none => o
  | some expirations =>
    let o := expirations.foldl (loadExpiration now) o
    { o with ledger := o.ledger.cleanupIfEmpty }

def popExpired (now : Int) : List (Int × K) → Object K V → Object K V
  | [], o => { o with ledger.queue := [] }
  | (time, key) :: rest, o =>
    if now ≤ time then { o with ledger.queue := (time, key) :: rest }
    else if o.ledger.getTime key = some time then
      popExpired now rest ⟨o.members.erase key, ⟨o.ledger.times.map (·.erase key), rest⟩⟩
    else popExpired now rest o

/-- What HLEN and ZCARD answer. -/
def purgeExpiredLen (o : Object K V) (now : Int) : Nat :=
  if o.ledger.times.isNone then o.members.entries.length
  else (popExpired now o.ledger.queue o).members.entries.length

def live (o : Object K V) (now : Int) : Nat :=
  (o.members.entries.filter fun x => !o.ledger.isExpiredAt x.1 now).length

end Object

/-- Nothing expires before the given time. -/
structure ExpiryLedger.Late (l : ExpiryLedger K) (now : Int) : Prop where
  times (m : Table K Int) : l.times = some m → ∀ x ∈ m.entries, now ≤ x.2
  queue (x : Int × K) : x ∈ l.queue → now ≤ x.1

variable {now : Int}

lemma ExpiryLedger.Late.insert {l : ExpiryLedger K} {x : K × Int} (h : l.Late now)
    (hx : now ≤ x.2) : (l.insertIfUnrecorded x).Late now := by
  obtain ⟨htimes, hqueue⟩ := h
  have htake := fun y => (l.queue.takeWhile_prefix (·.1 ≤ x.2)).subset (a := y)
  have hdrop := fun y => (l.queue.dropWhile_suffix (·.1 ≤ x.2)).subset (a := y)
  unfold insertIfUnrecorded
  split_ifs
  · exact ⟨htimes, hqueue⟩
  · rcases hl : l.times <;> constructor <;> grind [Table.insertNew]

lemma length_foldl_insertNew (entries : List (K × V)) : ∀ m : Table K V,
    (∀ x ∈ entries, x.1 ∉ m.keys) → (entries.map Prod.fst).Nodup →
      (entries.foldl Table.insertNew m).entries.length = m.entries.length + entries.length := by
  induction entries with
  | nil => simp
  | cons x rest ih =>
    intro m hnew hnodup
    obtain ⟨hx, hrest⟩ := nodup_cons.1 hnodup
    have hm : m.insertNew x = ⟨x :: m.entries, _⟩ := dif_neg (hnew x mem_cons_self)
    rw [foldl_cons, ih _ ?_ hrest, hm]
    · simp
      omega
    · grind [Table.keys]

lemma foldl_loadExpiration (expirations : List (K × Int)) : ∀ o : Object K V,
    (∀ x ∈ expirations, now ≤ x.2) → o.ledger.Late now →
      (expirations.foldl (loadExpiration now) o).members = o.members ∧
      (expirations.foldl (loadExpiration now) o).ledger.Late now := by
  induction expirations with
  | nil => exact fun o _ h => ⟨rfl, h⟩
  | cons x rest ih =>
    intro o hlate h
    have hx := hlate x mem_cons_self
    obtain ⟨hmembers, hledger⟩ := ih (loadExpiration now o x)
      (fun y hy => hlate y (mem_cons_of_mem _ hy))
      (by unfold loadExpiration; split_ifs <;> first | exact h | exact h.insert hx)
    refine ⟨hmembers.trans ?_, hledger⟩
    unfold loadExpiration
    rw [if_neg (by omega)]
    split_ifs <;> rfl

omit [DecidableEq K] in
lemma foldl_min_le (active : List (K × Int)) : ∀ w : Int,
    active.foldl (fun w x => min w x.2) w ≤ w ∧
      ∀ x ∈ active, active.foldl (fun w x => min w x.2) w ≤ x.2 := by
  induction active with
  | nil => simp
  | cons x rest ih =>
    intro w
    have hrest := ih (min w x.2)
    grind

/-- What is written at one time and read at another, before anything has expired. -/
lemma fromBlob_toBlob (o : Object K V) (now : Int) {now' : Int}
    (hw : now' ≤ (o.toBlob now).watermark) :
    (fromBlob (o.toBlob now) now').members.entries.length = (o.collectAliveEntries now).length ∧
    (fromBlob (o.toBlob now) now').ledger.Late now' := by
  have hlength := length_foldl_insertNew (o.collectAliveEntries now) {} (by simp [Table.keys])
    (o.members.nodup.sublist (filter_sublist.map _))
  have hempty : ({} : ExpiryLedger K).Late now' := ⟨by simp, by simp⟩
  simp only [toBlob, ExpiryLedger.collectActive] at hw
  simp only [toBlob, ExpiryLedger.collectActive, fromBlob]
  rcases htimes : o.ledger.times with _ | times
  · exact ⟨by simpa using hlength, hempty⟩
  · simp only [htimes] at hw ⊢
    split_ifs
    · exact ⟨by simpa using hlength, hempty⟩
    · obtain ⟨hmembers, hlate⟩ := foldl_loadExpiration _
        { members := (o.collectAliveEntries now).foldl .insertNew {} }
        (fun x hx => Int.le_trans hw ((foldl_min_le _ noExpiryWatermark).2 x hx)) hempty
      refine ⟨by simpa [hmembers] using hlength, ?_⟩
      dsimp only
      unfold ExpiryLedger.cleanupIfEmpty
      split_ifs <;> assumption

lemma Object.live_of_late {o : Object K V} (h : o.ledger.Late now) :
    o.live now = o.members.entries.length ∧ o.purgeExpiredLen now = o.members.entries.length := by
  constructor
  · refine congrArg length (filter_eq_self.2 fun x _ => ?_)
    simp only [ExpiryLedger.isExpiredAt, ExpiryLedger.getTime]
    rcases htimes : o.ledger.times with _ | times
    · rfl
    · rcases hfind : times.entries.find? (·.1 = x.1) with _ | y
      · simp [hfind]
      · have hlate := h.times times htimes y (mem_of_find?_eq_some hfind)
        simp [hfind, hlate]
  · unfold purgeExpiredLen
    split_ifs
    · rfl
    · rcases hqueue : o.ledger.queue with _ | ⟨⟨time, key⟩, rest⟩
      · rfl
      · have := h.queue (time, key) (hqueue ▸ mem_cons_self)
        rw [popExpired, if_pos this]

/-- Up to the watermark the count in the header is the number of live members of what is read, and
what the counting command answers for it. -/
theorem live_eq_count (o : Object K V) (now : Int) {now' : Int}
    (hw : now' ≤ (o.toBlob now).watermark) (hlen : (o.collectAliveEntries now).length < 2 ^ 32) :
    (fromBlob (o.toBlob now) now').live now' = (o.toBlob now).count ∧
      (fromBlob (o.toBlob now) now').purgeExpiredLen now' = (o.toBlob now).count := by
  obtain ⟨hlength, hlate⟩ := fromBlob_toBlob o now hw
  have hcount : (o.toBlob now).count = (o.collectAliveEntries now).length := Nat.mod_eq_of_lt hlen
  rw [hcount, ← hlength]
  exact live_of_late hlate

theorem live_eq_count_expiring :
    (fromBlob (toBlob ⟨⟨[(1, 'a'), (2, 'b')], by decide⟩,
      ⟨some ⟨[(2, 9), (3, 4)], by decide⟩, []⟩⟩ 5) 9).live 9 = 2 :=
  (live_eq_count _ 5 (by decide) (by decide)).1

/-- The members are the numbers below the given one, and none expires. -/
def numbered (n : Nat) : Object Nat Unit :=
  { members := ⟨(range n).map (·, ()), by simp [Function.comp_def, nodup_range]⟩ }

lemma numbered_counts (n : Nat) : ((numbered n).toBlob 0).watermark = noExpiryWatermark ∧
    ((numbered n).toBlob 0).count = n % 2 ^ 32 ∧
    (fromBlob ((numbered n).toBlob 0) 0).live 0 = n := by
  have hlength : ((numbered n).collectAliveEntries 0).length = n := by
    simp [numbered, collectAliveEntries]
  have hw : ((numbered n).toBlob 0).watermark = noExpiryWatermark := rfl
  have hzero : (0 : Int) ≤ noExpiryWatermark := by decide
  obtain ⟨hread, hlate⟩ := fromBlob_toBlob (numbered n) 0 (hw ▸ hzero)
  exact ⟨hw, congrArg (· % 2 ^ 32) hlength, (live_of_late hlate).1.trans (hread.trans hlength)⟩

/-- With `2 ^ 32` members the count in the header is zero. -/
theorem live_ne_count_numbered :
    ((numbered (2 ^ 32)).toBlob 0).watermark = noExpiryWatermark ∧
      ((numbered (2 ^ 32)).toBlob 0).count = 0 ∧
      (fromBlob ((numbered (2 ^ 32)).toBlob 0) 0).live 0 = 2 ^ 32 := by
  obtain ⟨hw, hcount, hlive⟩ := numbered_counts (2 ^ 32)
  exact ⟨hw, hcount.trans (Nat.mod_self _), hlive⟩

end Wedb.Collection
