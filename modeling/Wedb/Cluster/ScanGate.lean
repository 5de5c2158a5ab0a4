import Mathlib.Data.List.Induction
import Mathlib.Order.Basic

/-!
# Scan gate of the diskless synchronisation

While a snapshot is read from the live store, writes to keys that are still to be read have to wait
(`diskless_replication::scan_key_gate`). The gate holds for each slot the set of its unread keys. Several
domains can share a slot.
-/

namespace Wedb.Cluster

open Function List

abbrev Key := List UInt8

inductive GatePhase where
  | blocking
  | scanning
deriving DecidableEq

structure ScanKeyGate where
  phase : GatePhase
  domains : Nat → Option (List Key)

namespace ScanKeyGate

def new : ScanKeyGate := ⟨.blocking, fun _ => none⟩

def blocksWrite (g : ScanKeyGate) (key : Key) (slot : Nat) : Bool :=
  match g.phase with
  | .blocking => true
  | .scanning => (g.domains slot).any fun unread => key ∈ unread

/-- The set of a domain takes the place of what the slot had. -/
def admitDomain (g : ScanKeyGate) (slot : Nat) (keys : List Key) : ScanKeyGate :=
  { g with domains := update g.domains slot (some keys) }

def beginScan (g : ScanKeyGate) : ScanKeyGate := { g with phase := .scanning }

def releaseKey (g : ScanKeyGate) (slot : Nat) (key : Key) : ScanKeyGate :=
  if g.phase ≠ .scanning then g
  else
    { g with
      domains := update g.domains slot
        ((g.domains slot).map fun unread => unread.filter fun k => k ≠ key) }

end ScanKeyGate

/-- A covered domain: its slot and its keys. -/
structure Domain where
  slot : Nat
  keys : List Key
deriving DecidableEq

def admitAll (domains : List Domain) : ScanKeyGate :=
  domains.foldl (fun g d => g.admitDomain d.slot d.keys) .new

/-- A key is released for the domain at a position of the list. -/
structure Release where
  domain : Nat
  key : Key
deriving DecidableEq

def afterReleases (domains : List Domain) (releases : List Release) : ScanKeyGate :=
  releases.foldl
    (fun g r => (domains[r.domain]?).elim g fun d => g.releaseKey d.slot r.key)
    (admitAll domains).beginScan

/-- Releases are of keys that their domain was enumerated with. -/
def Enumerated (domains : List Domain) (releases : List Release) : Prop :=
  ∀ r ∈ releases, ∃ d, domains[r.domain]? = some d ∧ r.key ∈ d.keys

/-- A write to a key of a domain waits until the key is released for that domain. -/
def BlockedUntilReleased (domains : List Domain) : Prop :=
  ∀ (releases : List Release) (i : Nat) (d : Domain) (key : Key), Enumerated domains releases →
    domains[i]? = some d → key ∈ d.keys → (⟨i, key⟩ : Release) ∉ releases →
    (afterReleases domains releases).blocksWrite key d.slot = true

/-- A domain with keys is the last one of its slot. -/
def LastOfItsSlot (domains : List Domain) : Prop :=
  ∀ (i j : Nat) (d e : Domain), i < j → domains[i]? = some d → domains[j]? = some e →
    d.slot = e.slot → d.keys = []

/-! ### Admission -/

/-- The slot holds the keys of the last domain admitted to it. -/
lemma admitAll_domains_concat (domains : List Domain) (d : Domain) :
    (admitAll (domains ++ [d])).domains = update (admitAll domains).domains d.slot (some d.keys) := by
  rw [admitAll, foldl_append]
  rfl

lemma admitAll_domains_of_last {domains : List Domain} {i : Nat} {d : Domain} (hi : domains[i]? = some d)
    (hlast : ∀ j e, i < j → domains[j]? = some e → e.slot ≠ d.slot) :
    (admitAll domains).domains d.slot = some d.keys := by
  induction domains using reverseRecOn with
  | nil => simp at hi
  | append_singleton domains e ih =>
    rw [admitAll_domains_concat]
    rcases Nat.lt_or_ge i domains.length with hlt | hge
    · have hne : d.slot ≠ e.slot := (hlast domains.length e hlt getElem?_concat_length).symm
      rw [update_of_ne hne]
      rw [getElem?_append_left hlt] at hi
      refine ih hi fun j f hj hf => hlast j f hj ?_
      rwa [getElem?_append_left (List.getElem?_eq_some_iff.1 hf).1]
    · have hlt := (List.getElem?_eq_some_iff.1 hi).1
      rw [length_append, length_singleton] at hlt
      obtain rfl : i = domains.length := by omega
      rw [getElem?_concat_length] at hi
      cases hi
      exact update_self _ _ _

/-- Every slot holds the keys of the last domain it has. -/
lemma exists_last (domains : List Domain) {i : Nat} {d : Domain} (hi : domains[i]? = some d) :
    ∃ j e, i ≤ j ∧ domains[j]? = some e ∧ e.slot = d.slot ∧
      ∀ k f, j < k → domains[k]? = some f → f.slot ≠ d.slot := by
  by_contra hno
  -- otherwise there would be a later domain of the slot after every one
  have hall (n : Nat) : ∃ j e, i + n ≤ j ∧ domains[j]? = some e ∧ e.slot = d.slot := by
    induction n with
    | zero => exact ⟨i, d, Nat.le_refl _, hi, rfl⟩
    | succ n ih =>
      obtain ⟨j, e, hj, he, hslot⟩ := ih
      by_contra hnext
      refine hno ⟨j, e, by omega, he, hslot, fun k f hk hf hfs => hnext ⟨k, f, by omega, hf, hfs⟩⟩
  obtain ⟨j, e, hj, he, -⟩ := hall domains.length
  have := (List.getElem?_eq_some_iff.1 he).1
  omega

/-! ### Releases -/

section Releases

variable {domains : List Domain} {releases : List Release}

@[simp]
lemma afterReleases_nil : afterReleases domains [] = (admitAll domains).beginScan := rfl

lemma afterReleases_concat (r : Release) :
    afterReleases domains (releases ++ [r]) =
      (domains[r.domain]?).elim (afterReleases domains releases)
        fun d => (afterReleases domains releases).releaseKey d.slot r.key := by
  rw [afterReleases, foldl_append]
  rfl

lemma phase_afterReleases (releases : List Release) : (afterReleases domains releases).phase = .scanning := by
  induction releases using reverseRecOn with
  | nil => rfl
  | append_singleton releases r ih =>
    rw [afterReleases_concat]
    cases domains[r.domain]? with
    | none => exact ih
    | some =>
      rw [Option.elim_some, ScanKeyGate.releaseKey, if_neg (not_not_intro ih)]
      exact ih

lemma blocksWrite_releaseKey {g : ScanKeyGate} (hphase : g.phase = .scanning) {slot slot' : Nat} {key key' : Key} :
    (g.releaseKey slot' key').blocksWrite key slot = true ↔
      g.blocksWrite key slot = true ∧ (slot' = slot → key' ≠ key) := by
  simp only [ScanKeyGate.releaseKey, ScanKeyGate.blocksWrite, hphase, ne_eq, not_true_eq_false, if_false]
  rcases eq_or_ne slot' slot with rfl | hne
  · rw [update_self]
    cases g.domains slot' with
    | none => simp
    | some =>
      simp only [Option.map_some, Option.any_some, decide_eq_true_eq, mem_filter, true_implies]
      exact and_congr_right fun _ => ⟨Ne.symm, Ne.symm⟩
  · rw [update_of_ne hne.symm]
    simp [hne]

/-- A key of a slot is blocked as long as no release names the slot and the key. -/
lemma blocksWrite_afterReleases {slot : Nat} {key : Key} :
    (afterReleases domains releases).blocksWrite key slot = true ↔
      (∃ keys, (admitAll domains).domains slot = some keys ∧ key ∈ keys) ∧
        ∀ r ∈ releases, ∀ d, domains[r.domain]? = some d → d.slot = slot → r.key ≠ key := by
  induction releases using reverseRecOn with
  | nil => simp [ScanKeyGate.blocksWrite, ScanKeyGate.beginScan, Option.any_eq_true]
  | append_singleton releases r ih =>
    rw [afterReleases_concat]
    cases hd : domains[r.domain]? with
    | none =>
      rw [Option.elim_none, ih]
      simp [or_imp, forall_and, hd]
    | some =>
      rw [Option.elim_some, blocksWrite_releaseKey (phase_afterReleases releases), ih]
      simp [or_imp, forall_and, hd, and_assoc]

end Releases

/-- The gate does what it is for exactly if no slot has two domains, the earlier of which has keys: the
set of a later one takes the place of the set of the earlier. -/
theorem blockedUntilReleased_iff (domains : List Domain) :
    BlockedUntilReleased domains ↔ LastOfItsSlot domains := by
  constructor
  · intro h i j d e hij hi hj hslot
    refine eq_nil_iff_forall_not_mem.2 fun key hkey => ?_
    obtain ⟨k, f, hk, hf, hfslot, hlast⟩ := exists_last domains hj
    have hkeys : (admitAll domains).domains d.slot = some f.keys := by
      rw [hslot, ← hfslot]
      exact admitAll_domains_of_last hf (hfslot ▸ hlast)
    -- without any release the key would be one of the last domain
    have hblocked := h [] i d key nofun hi hkey nofun
    obtain ⟨⟨keys, hkeys', hmem⟩, -⟩ := blocksWrite_afterReleases.1 hblocked
    cases hkeys.symm.trans hkeys'
    -- and its release for the last domain lets writes to the earlier one pass
    have henum : Enumerated domains [⟨k, key⟩] := by
      intro r hr
      rw [mem_singleton.1 hr]
      exact ⟨f, hf, hmem⟩
    have hne : (⟨i, key⟩ : Release) ∉ [(⟨k, key⟩ : Release)] := by
      simp only [mem_singleton, Release.mk.injEq]
      omega
    have hstill := h [⟨k, key⟩] i d key henum hi hkey hne
    exact (blocksWrite_afterReleases.1 hstill).2 _ mem_cons_self f hf (hfslot.trans hslot.symm) rfl
  · intro h releases i d key henum hi hkey hnot
    have hlast : ∀ j e, i < j → domains[j]? = some e → e.slot ≠ d.slot := by
      intro j e hij hj hslot
      rw [h i j d e hij hi hj hslot.symm] at hkey
      cases hkey
    refine blocksWrite_afterReleases.2 ⟨⟨_, admitAll_domains_of_last hi hlast, hkey⟩, ?_⟩
    intro r hr e he hslot hrkey
    rcases Nat.lt_trichotomy r.domain i with hlt | heq | hgt
    · obtain ⟨e', he', hmem⟩ := henum r hr
      cases he.symm.trans he'
      rw [h r.domain i e d hlt he hi hslot] at hmem
      cases hmem
    · refine hnot ?_
      rwa [← hrkey, ← heq]
    · exact hlast r.domain e hgt he hslot

/-- Two domains in one slot, with a key each. -/
theorem not_blockedUntilReleased_two : ¬ BlockedUntilReleased [⟨7, [[97]]⟩, ⟨7, [[98]]⟩] := by
  intro h
  exact absurd (h [] 0 ⟨7, [[97]]⟩ [97] nofun rfl (by decide) nofun) (by decide)

end Wedb.Cluster
