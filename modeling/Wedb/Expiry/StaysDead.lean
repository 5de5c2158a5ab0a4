import Wedb.Expiry.History

/-!
# Expired keys stay dead

The compactor takes an expired expiration record out of its slot as soon as it meets it, whatever
becomes of the data record. If the data record lies above the range, was judged by an older clock or
stays in its slot for another reason, the key is back. The condition under which this cannot happen
is that a run meets the expiration record last. Two more windows are open to readers and to changes
of the expiration, whose two looks at the key are not one step.
-/

namespace Wedb.Expiry

open Option

/-! ## The condition on the steps -/

/-- A run that judges the expiration record dead by its own ticks has dealt with the data record
before, and it does not take the record for an orphan. -/
def State.judgesLast (s : State) (run : Run) (t : Ttl) : Bool :=
  if t.exp < run.now then s.data.all fun d => run.mode = .lookup && d.addr < t.addr
  else s.data.isSome

/-- A dead data record leaves its slot when its verdict is applied. -/
def State.dropsData (s : State) (v : Verdict) (ok : Bool) : Bool :=
  !v.dead || ok && s.data.all fun d => !(d.addr = v.addr && d.cached)

def careful (s : State) : Action → Bool
  | .judgeTtl => s.run.all fun run => s.ttl.all fun t => s.judgesLast run t
  | .recheckTtl => s.run.all fun run => s.ttl.all fun t => s.judgesLast run t
  | .applyData ok => s.run.all fun run => run.data.all fun v => s.dropsData v ok
  | .expireAt _ _ | .persist => !s.TtlDue s.clock
  | .probeFound => s.HasData
  | _ => true

/-! ## The invariant -/

/-- The expiration record may go: it is due and the key is not hidden by it. -/
def Spent (s : State) (t : Ttl) (now : Int) : Prop :=
  t.exp < now ∧ (s.expired = true → s.data = none)

/-- The truncation stops at or below the address. -/
def Run.Retains (run : Run) (addr : Nat) : Prop := ∃ floor ∈ run.retainFloor, floor ≤ addr

structure RunInv (s : State) (run : Run) : Prop where
  until_le : run.untilAddress ≤ s.safeReadOnly
  pos_le : run.pos ≤ run.untilAddress
  begin_le : s.begin ≤ run.pos
  now_le : run.now ≤ s.clock
  scan : run.disposing = true → run.mode = .scan
  verdict_lt : ∀ v ∈ run.ttl, v.addr < run.pos
  verdict : ∀ v ∈ run.ttl, v.dead = true → ∀ t ∈ s.ttl, t.addr = v.addr → Spent s t run.now
  data : ∀ d ∈ s.data, d.addr < run.pos → (∃ v ∈ run.data, v.addr = d.addr) ∨ run.Retains d.addr
  ttl : ∀ t ∈ s.ttl, t.addr < run.pos →
    (∃ v ∈ run.ttl, v.addr = t.addr) ∨ run.Retains t.addr ∨ Spent s t run.now
  due : run.mode = .lookup → ∀ d ∈ s.data, ∀ t ∈ s.ttl, d.addr < run.pos → run.pos ≤ t.addr →
    t.addr < run.untilAddress → t.exp < run.now → ∃ v ∈ run.data, v.addr = d.addr ∧ v.dead = true

/-- What a reader in flight has seen: a read that was not fresh finds no data, or the key is still
expired. -/
def ReaderOk (s : State) : Reader → Prop
  | .probed fresh => fresh = false → s.data = none
  | .found fresh => fresh = false → s.expired = true
  | .reported fresh => fresh = true

structure Inv (s : State) : Prop where
  begin_le : s.begin ≤ s.safeReadOnly
  safeReadOnly_le : s.safeReadOnly ≤ s.tail
  data_mem : ∀ d ∈ s.data, s.begin ≤ d.addr ∧ d.addr < s.tail
  ttl_lt : ∀ t ∈ s.ttl, t.addr < s.tail
  covered : s.expired = true → s.data = none ∨ s.TtlDue s.clock
  truncated : ∀ t ∈ s.ttl, t.addr < s.begin → Spent s t s.clock
  setting : s.latch = some .set → s.expired = false
  deleting : s.latch = some .delete → s.data = none
  reader : ∀ r ∈ s.reader, ReaderOk s r
  run : ∀ run ∈ s.run, RunInv s run

variable {t : Ttl}

lemma Spent.mono {s : State} {now now' : Int} (h : Spent s t now) (hnow : now ≤ now') :
    Spent s t now' :=
  ⟨h.1.trans_le hnow, h.2⟩

/-- A run goes on under a step that leaves the two records where they are or puts them above its
range. -/
lemma RunInv.transfer {s s' : State} {run : Run} (h : RunInv s run)
    (hsafe : s.safeReadOnly ≤ s'.safeReadOnly) (hbegin : s'.begin = s.begin)
    (hclock : s.clock ≤ s'.clock)
    (hdata : ∀ d ∈ s'.data, (∃ d₀ ∈ s.data, d₀.addr = d.addr) ∨ s.safeReadOnly ≤ d.addr)
    (httl : ∀ t ∈ s'.ttl, (∃ t₀ ∈ s.ttl, t₀.addr = t.addr ∧ t₀.exp = t.exp ∧
      ∀ now ≤ s.clock, Spent s t₀ now → Spent s' t now) ∨ s.safeReadOnly ≤ t.addr) :
    RunInv s' run := by
  have hup := h.until_le
  have hpos := h.pos_le
  refine { h with
    until_le := hup.trans hsafe, begin_le := hbegin ▸ h.begin_le, now_le := h.now_le.trans hclock,
    verdict := ?_, data := ?_, ttl := ?_, due := ?_ }
  · intro v hv hdead t ht haddr
    have hlt := h.verdict_lt v hv
    rcases httl t ht with ⟨t₀, ht₀, haddr₀, -, hspent⟩ | hle
    · exact hspent _ h.now_le (h.verdict v hv hdead t₀ ht₀ (haddr₀.trans haddr))
    · omega
  · intro d hd hlt
    rcases hdata d hd with ⟨d₀, hd₀, haddr⟩ | hle
    · rw [← haddr] at hlt ⊢
      exact h.data d₀ hd₀ hlt
    · omega
  · intro t ht hlt
    rcases httl t ht with ⟨t₀, ht₀, haddr, -, hspent⟩ | hle
    · rw [← haddr] at hlt ⊢
      exact (h.ttl t₀ ht₀ hlt).imp_right (.imp_right (hspent _ h.now_le))
    · omega
  · intro hmode d hd t ht hlt hle huntil hdue
    rcases hdata d hd with ⟨d₀, hd₀, haddr⟩ | hd
    · rcases httl t ht with ⟨t₀, ht₀, haddr₀, hexp, -⟩ | ht
      · rw [← haddr] at hlt ⊢
        exact h.due hmode d₀ hd₀ t₀ ht₀ hlt (haddr₀ ▸ hle) (haddr₀ ▸ huntil) (hexp ▸ hdue)
      · omega
    · omega

variable {inPlace : Bool} {latch : Option Latch}

namespace Inv

variable {s s' : State}

lemma hasData_iff (h : Inv s) : s.HasData ↔ s.data ≠ none := by
  constructor
  · rintro ⟨d, hd, -⟩ hnone
    rw [hnone] at hd
    cases hd
  · intro hne
    obtain ⟨d, hd⟩ := ne_none_iff_exists'.mp hne
    exact ⟨d, hd, .inr (h.data_mem d hd).1⟩

/-- The key is expired and its expiration is not due: there is no data. -/
lemma data_eq_none (h : Inv s) (hdue : ¬ s.TtlDue s.clock) (hexp : s.expired = true) :
    s.data = none :=
  (h.covered hexp).resolve_right hdue

lemma new (base : Nat) : Inv (State.new base) where
  begin_le := le_rfl
  safeReadOnly_le := le_rfl
  data_mem := nofun
  ttl_lt := nofun
  covered := nofun
  truncated := nofun
  setting := nofun
  deleting := nofun
  reader := nofun
  run := nofun

/-! ### Sessions and the clock -/

/-- A due expiration record does not let the key expire anew. -/
lemma expired_of_tick {clock now : Int} (ht : t ∈ s.ttl) (hdue : t.exp < now)
    (hnow : now ≤ s.clock)
    (hexp : (s.expired || (s.latch ≠ some .set && s.HasData && !s.TtlDue s.clock &&
      s.TtlDue clock)) = true) : s.expired = true := by
  simp only [Bool.or_eq_true, Bool.and_eq_true, decide_eq_true_eq, Bool.not_eq_true',
    decide_eq_false_iff_not] at hexp
  rcases hexp with hexp | ⟨⟨-, hnot⟩, t', ht', hreach, -⟩
  · exact hexp
  · cases mem_unique ht ht'
    exact absurd ⟨t, ht, hreach, by omega⟩ hnot

section

variable (h : Inv s)
include h

lemma tick {clock : Int} (hle : s.clock ≤ clock) :
    Inv { s with
      clock
      expired := s.expired ||
        (s.latch ≠ some .set && s.HasData && !s.TtlDue s.clock && s.TtlDue clock) } := by
  have hspent : ∀ t ∈ s.ttl, ∀ now ≤ s.clock, Spent s t now → Spent { s with
      clock
      expired := s.expired ||
        (s.latch ≠ some .set && s.HasData && !s.TtlDue s.clock && s.TtlDue clock) } t now :=
    fun t ht now hnow hsp => ⟨hsp.1, fun hexp => hsp.2 (expired_of_tick ht hsp.1 hnow hexp)⟩
  refine { h with covered := ?_, truncated := ?_, setting := ?_, reader := ?_, run := ?_ }
  · intro hexp
    simp only [Bool.or_eq_true, Bool.and_eq_true, decide_eq_true_eq] at hexp
    rcases hexp with hexp | ⟨-, hdue⟩
    · refine (h.covered hexp).imp_right ?_
      rintro ⟨t, ht, hreach, hlt⟩
      exact ⟨t, ht, hreach, lt_of_lt_of_le hlt hle⟩
    · exact .inr hdue
  · intro t ht hlt
    exact (hspent t ht _ le_rfl (h.truncated t ht hlt)).mono hle
  · intro hset
    have hset : s.latch = some .set := hset
    simp [h.setting hset, hset]
  · intro r hr
    have hok := h.reader r hr
    cases r with
    | probed | reported => exact hok
    | found => exact fun hf => by simp [show s.expired = true from hok hf]
  · intro run hrun
    exact (h.run run hrun).transfer le_rfl rfl hle (fun d hd => .inl ⟨d, hd, rfl⟩)
      fun t ht => .inl ⟨t, ht, rfl, rfl, hspent t ht⟩

lemma grow {tail : Nat} (hle : s.tail ≤ tail) : Inv { s with tail } :=
  { h with
    safeReadOnly_le := h.safeReadOnly_le.trans hle
    data_mem := fun d hd => ⟨(h.data_mem d hd).1, (h.data_mem d hd).2.trans_le hle⟩
    ttl_lt := fun t ht => (h.ttl_lt t ht).trans_le hle
    run := fun run hrun => { h.run run hrun with } }

lemma shiftSafeReadOnly {v : Nat} (hle : s.safeReadOnly ≤ v) (hv : v ≤ s.tail) :
    Inv { s with safeReadOnly := v } :=
  { h with
    begin_le := h.begin_le.trans hle
    safeReadOnly_le := hv
    run := fun run hrun => { h.run run hrun with until_le := (h.run run hrun).until_le.trans hle } }

/-- A record is written above every range that a run may go over. -/
lemma place_spec {old : Option Slot} {p : Slot × Nat}
    (hold : ∀ o ∈ old, o.addr < s.tail) (hp : s.place old inPlace = some p) :
    s.safeReadOnly ≤ p.1.addr ∧ p.1.addr < p.2 ∧ s.tail ≤ p.2 := by
  have htail := h.safeReadOnly_le
  cases inPlace with
  | false =>
    cases hp
    exact ⟨htail, by simp⟩
  | true =>
    cases old with
    | none => cases hp
    | some o =>
      obtain ⟨hle, ⟨⟩⟩ := ite_none_right_eq_some.mp hp
      exact ⟨hle, hold o rfl, le_rfl⟩

lemma putData
    (hlatch : latch ≠ some .delete) (hput : s.putData latch inPlace = some s') : Inv s' := by
  obtain ⟨p, hp, rfl⟩ := map_eq_some_iff.mp hput
  obtain ⟨hsafe, hlt, htail⟩ := h.place_spec (fun d hd => (h.data_mem d hd).2) hp
  refine { h.grow htail with
    data_mem := ?_, covered := nofun, truncated := ?_, setting := fun _ => rfl,
    deleting := fun hd => absurd hd hlatch, reader := ?_, run := ?_ }
  · rintro d ⟨⟩
    exact ⟨h.begin_le.trans hsafe, hlt⟩
  · intro t ht hb
    exact ⟨(h.truncated t ht hb).1, nofun⟩
  · intro r hr
    obtain ⟨r, hmem, rfl⟩ := map_eq_some_iff.mp hr
    cases r with
    | probed fresh | found fresh => exact nofun
    | reported => exact h.reader _ hmem
  · intro run hrun
    refine (h.run run hrun).transfer le_rfl rfl le_rfl ?_ ?_
    · rintro d ⟨⟩
      exact .inr hsafe
    · exact fun t ht => .inl ⟨t, ht, rfl, rfl, fun _ _ hsp => ⟨hsp.1, nofun⟩⟩

/-- The expiration record goes, and with it nothing that hides data. -/
lemma clearTtl (hsafe : s.expired = true → s.data = none) : Inv { s with ttl := none } :=
  { h with
    ttl_lt := nofun
    covered := fun hexp => .inl (hsafe hexp)
    truncated := nofun
    run := fun run hrun =>
      (h.run run hrun).transfer le_rfl rfl le_rfl (fun d hd => .inl ⟨d, hd, rfl⟩) nofun }

lemma expireAt {exp : Int} {p : Slot × Nat} (hdue : ¬ s.TtlDue s.clock)
    (hp : s.place (s.ttl.map Ttl.toSlot) inPlace = some p) :
    Inv { s with ttl := some ⟨p.1, exp⟩, tail := p.2 } := by
  have hold : ∀ o ∈ s.ttl.map Ttl.toSlot, o.addr < s.tail := by
    intro o ho
    obtain ⟨t, ht, rfl⟩ := map_eq_some_iff.mp ho
    exact h.ttl_lt t ht
  obtain ⟨hsafe, hlt, htail⟩ := h.place_spec hold hp
  refine { h.grow htail with
    ttl_lt := ?_, covered := fun he => .inl (h.data_eq_none hdue he), truncated := ?_, run := ?_ }
  · rintro t ⟨⟩
    exact hlt
  · rintro t ⟨⟩ hb
    exact absurd (h.begin_le.trans hsafe) (not_le.mpr hb)
  · intro run hrun
    refine (h.run run hrun).transfer le_rfl rfl le_rfl (fun d hd => .inl ⟨d, hd, rfl⟩) ?_
    rintro t ⟨⟩
    exact .inr hsafe

lemma dropData : Inv { s with data := none } :=
  { h with
    data_mem := nofun
    covered := fun _ => .inl rfl
    truncated := fun t ht hlt => ⟨(h.truncated t ht hlt).1, fun _ => rfl⟩
    deleting := fun _ => rfl
    reader := fun r hr => by
      have hok := h.reader r hr
      cases r with
      | probed => exact fun _ => rfl
      | found fresh | reported fresh => exact hok
    run := fun run hrun => (h.run run hrun).transfer le_rfl rfl le_rfl nofun
      fun t ht => .inl ⟨t, ht, rfl, rfl, fun _ _ hsp => ⟨hsp.1, fun _ => rfl⟩⟩ }

lemma setLatch (hset : latch ≠ some .set)
    (hdel : latch = some .delete → s.data = none) : Inv { s with latch } :=
  { h with
    setting := fun hl => absurd hl hset
    deleting := hdel
    run := fun run hrun => { h.run run hrun with } }

lemma setReader {reader : Option Reader} (hok : ∀ r ∈ reader, ReaderOk s r) :
    Inv { s with reader } :=
  { h with reader := hok, run := fun run hrun => { h.run run hrun with } }

/-- The data record moves, or a read cache record comes or goes in front of it. -/
lemma moveData {f : Slot → Slot} (hf : ∀ d ∈ s.data, s.begin ≤ (f d).addr ∧ (f d).addr < s.tail ∧
      ((f d).addr = d.addr ∨ s.safeReadOnly ≤ (f d).addr)) :
    Inv { s with data := s.data.map f } := by
  have hnone : s.data.map f = none ↔ s.data = none := map_eq_none_iff
  have hmem : ∀ d ∈ s.data.map f, ∃ d₀ ∈ s.data, f d₀ = d := fun d hd => map_eq_some_iff.mp hd
  refine { h with
    data_mem := ?_, covered := fun hexp => (h.covered hexp).imp_left hnone.mpr, truncated := ?_,
    deleting := fun hdel => hnone.mpr (h.deleting hdel), reader := ?_, run := ?_ }
  · intro d hd
    obtain ⟨d, hmem, rfl⟩ := hmem d hd
    exact ⟨(hf d hmem).1, (hf d hmem).2.1⟩
  · intro t ht hlt
    have hsp := h.truncated t ht hlt
    exact ⟨hsp.1, fun hexp => hnone.mpr (hsp.2 hexp)⟩
  · intro r hr
    have hok := h.reader r hr
    cases r with
    | probed => exact fun hf => hnone.mpr (hok hf)
    | found fresh | reported fresh => exact hok
  · intro run hrun
    refine (h.run run hrun).transfer le_rfl rfl le_rfl ?_ ?_
    · intro d hd
      obtain ⟨d, hmem, rfl⟩ := hmem d hd
      exact (hf d hmem).2.2.imp_left fun haddr => ⟨d, hmem, haddr.symm⟩
    · exact fun t ht => .inl ⟨t, ht, rfl, rfl, fun _ _ hsp =>
        ⟨hsp.1, fun hexp => hnone.mpr (hsp.2 hexp)⟩⟩

/-- The same for the expiration record: what it hides stays hidden, or is none of its business any
more. -/
lemma moveTtl {f : Ttl → Ttl} (hf : ∀ t ∈ s.ttl, (f t).addr < s.tail ∧ (f t).exp = t.exp ∧
      ((f t).addr = t.addr ∨ s.safeReadOnly ≤ (f t).addr)) :
    Inv { s with ttl := s.ttl.map f } := by
  have hmem : ∀ t ∈ s.ttl.map f, ∃ t₀ ∈ s.ttl, f t₀ = t := fun t ht => map_eq_some_iff.mp ht
  have hbegin := h.begin_le
  refine { h with ttl_lt := ?_, covered := ?_, truncated := ?_, run := ?_ }
  · intro t ht
    obtain ⟨t, hold, rfl⟩ := hmem t ht
    exact (hf t hold).1
  · intro hexp
    rcases h.covered hexp with hnone | ⟨t, ht, -, hlt⟩
    · exact .inl hnone
    · by_cases hb : t.addr < s.begin
      · exact .inl ((h.truncated t ht hb).2 hexp)
      · obtain ⟨-, hsame, haddr⟩ := hf t ht
        refine .inr ⟨f t, mem_map_of_mem f ht, .inr ?_, hsame ▸ hlt⟩
        show s.begin ≤ (f t).addr
        omega
  · intro t ht hlt
    obtain ⟨t, hold, rfl⟩ := hmem t ht
    obtain ⟨-, hsame, haddr⟩ := hf t hold
    have hlt : (f t).addr < s.begin := hlt
    have hsp := h.truncated t hold (by omega)
    exact ⟨hsame ▸ hsp.1, hsp.2⟩
  · intro run hrun
    refine (h.run run hrun).transfer le_rfl rfl le_rfl (fun d hd => .inl ⟨d, hd, rfl⟩) ?_
    intro t ht
    obtain ⟨t, hold, rfl⟩ := hmem t ht
    obtain ⟨-, hsame, haddr⟩ := hf t hold
    exact haddr.imp_left fun haddr =>
      ⟨t, hold, haddr.symm, hsame.symm, fun _ _ hsp => ⟨hsame ▸ hsp.1, hsp.2⟩⟩

end

end Inv

/-! ### The run -/

namespace Run

lemma Retains.retain {run : Run} {addr : Nat} (h : run.Retains addr) (a : Nat) :
    (run.retain a).Retains addr := by
  obtain ⟨floor, hfloor, hle⟩ := h
  exact ⟨min floor a, by simp [Run.retain, mem_def.mp hfloor], (min_le_left _ _).trans hle⟩

lemma retains_retain (run : Run) (addr : Nat) : (run.retain addr).Retains addr := by
  cases hfloor : run.retainFloor with
  | none => exact ⟨addr, by simp [retain, hfloor], le_rfl⟩
  | some floor => exact ⟨min floor addr, by simp [retain, hfloor], min_le_right _ _⟩

lemma finalUntil_le (run : Run) : run.finalUntil ≤ run.untilAddress := by
  cases hfloor : run.retainFloor <;> simp [finalUntil, hfloor]

lemma Retains.finalUntil_le {run : Run} {addr : Nat} (h : run.Retains addr) :
    run.finalUntil ≤ addr := by
  obtain ⟨floor, hfloor, hle⟩ := h
  simp [finalUntil, mem_def.mp hfloor, hle]

end Run

namespace RunInv

variable {s : State} {run : Run} {v : Verdict}

section

variable (h : RunInv s run)
include h

lemma judgeData {d : Slot} (hd : s.data = some d) (hnext : run.Next d.addr (s.ttl.map Ttl.toSlot)) :
    RunInv s { run with
      pos := d.addr + 1
      data := some ⟨d.addr, s.dataDead run.now, run.mode = .lookup⟩ } := by
  obtain ⟨-, hpos, huntil, hother, -⟩ := hnext
  have hbegin := h.begin_le
  have hsame : ∀ d' ∈ s.data, d' = d := fun d' hd' => mem_unique hd' hd
  refine { h with
    pos_le := huntil, begin_le := by show s.begin ≤ d.addr + 1; omega, verdict_lt := ?_, data := ?_,
    ttl := ?_, due := ?_ }
  · intro v hv
    exact (h.verdict_lt v hv).trans_le (by show run.pos ≤ d.addr + 1; omega)
  · intro d' hd' _
    exact .inl ⟨_, rfl, by rw [hsame d' hd']⟩
  · intro t ht hlt
    have hlt : t.addr < d.addr + 1 := hlt
    have hlt : t.addr < run.pos := (hother t.toSlot (mem_map_of_mem _ ht)).resolve_right (by omega)
    exact h.ttl t ht hlt
  · intro _ d' hd' t ht _ hle _ hdue
    have hle : d.addr + 1 ≤ t.addr := hle
    refine ⟨_, rfl, by rw [hsame d' hd'], ?_⟩
    exact decide_eq_true ⟨t, ht, .inr (by omega), hdue⟩

/-- The expiration record is due and no data record waits for it: there is none. -/
lemma data_eq_none (ht : t ∈ s.ttl)
    (hnext : run.Next t.addr s.data) (hdue : t.exp < run.now) (hlast : s.judgesLast run t = true) :
    s.data = none := by
  obtain ⟨-, hpos, huntil, hother, hnone⟩ := hnext
  cases hd : s.data with
  | none => rfl
  | some d =>
    simp only [State.judgesLast, if_pos hdue, hd, all_some, Bool.and_eq_true,
      decide_eq_true_eq] at hlast
    obtain ⟨hmode, hlt⟩ := hlast
    have hlt : d.addr < run.pos := (hother d hd).resolve_right (by omega)
    obtain ⟨v, hv, -⟩ := h.due hmode d hd t ht hlt hpos huntil hdue
    rw [(hnone hmode).1] at hv
    cases hv

lemma judgeTtl (ht : s.ttl = some t)
    (hnext : run.Next t.addr s.data) (hlast : s.judgesLast run t = true) :
    RunInv s { run with
      pos := t.addr + 1
      ttl := some ⟨t.addr, s.ttlDead t run.now, run.mode = .lookup⟩ } := by
  have hgone : t.exp < run.now → s.data = none := fun hdue => h.data_eq_none ht hnext hdue hlast
  obtain ⟨-, hpos, huntil, hother, -⟩ := hnext
  have hbegin := h.begin_le
  have hsame : ∀ t' ∈ s.ttl, t' = t := fun t' ht' => mem_unique ht' ht
  refine { h with
    pos_le := huntil, begin_le := by show s.begin ≤ t.addr + 1; omega, verdict_lt := ?_,
    verdict := ?_, data := ?_, ttl := ?_, due := ?_ }
  · rintro v ⟨⟩
    exact Nat.lt_succ_self _
  · rintro v ⟨⟩ hdead t' ht' -
    rw [hsame t' ht']
    by_cases hdue : t.exp < run.now
    · exact ⟨hdue, fun _ => hgone hdue⟩
    · -- not due by its own ticks, and not an orphan
      simp only [State.judgesLast, if_neg hdue] at hlast
      have hdead : (decide (t.exp < run.now) || s.data.isNone) = true := hdead
      simp [hdue, isNone_eq_false_iff.mpr hlast] at hdead
  · intro d hd hlt
    have hlt : d.addr < t.addr + 1 := hlt
    exact h.data d hd ((hother d hd).resolve_right (by omega))
  · intro t' ht' _
    exact .inl ⟨_, rfl, by rw [hsame t' ht']⟩
  · intro _ d _ t' ht' _ hle
    have hle : t.addr + 1 ≤ t'.addr := hle
    rw [hsame t' ht'] at hle
    omega

lemma scanned (hmode : run.mode = .scan) :
    RunInv s { run with now := s.clock, disposing := true } :=
  { h with
    now_le := le_rfl
    scan := fun _ => hmode
    verdict := fun v hv hdead t ht haddr => (h.verdict v hv hdead t ht haddr).mono h.now_le
    ttl := fun t ht hlt => (h.ttl t ht hlt).imp_right (Or.imp_right fun hsp => hsp.mono h.now_le)
    due := fun hlookup => by
      have hlookup : run.mode = .lookup := hlookup
      rw [hmode] at hlookup
      cases hlookup }

lemma recheckData (dead : Bool) :
    RunInv s { run with
      data := run.data.map fun v => { v with dead := v.dead || dead, checked := true } } where
  __ := h
  data d hd hlt := (h.data d hd hlt).imp_left fun ⟨v, hv, haddr⟩ =>
    ⟨_, mem_map_of_mem _ hv, haddr⟩
  due hmode d hd t ht hlt hle huntil hdue := by
    obtain ⟨v, hv, haddr, hdead⟩ := h.due hmode d hd t ht hlt hle huntil hdue
    exact ⟨_, mem_map_of_mem _ hv, haddr, by simp [hdead]⟩

lemma recheckTtl (hdisp : run.disposing = true) (hlast : ∀ t ∈ s.ttl, s.judgesLast run t = true) :
    RunInv s { run with
      ttl := run.ttl.map fun v =>
        { v with
          dead := v.dead || s.ttl.any fun t => t.addr = v.addr && s.ttlDead t run.now
          checked := true } } where
  __ := h
  verdict_lt v hv := by
    obtain ⟨v, hmem, rfl⟩ := map_eq_some_iff.mp hv
    exact h.verdict_lt v hmem
  verdict v hv hdead t ht haddr := by
    obtain ⟨v, hmem, rfl⟩ := map_eq_some_iff.mp hv
    by_cases hold : v.dead = true
    · exact h.verdict v hmem hold t ht haddr
    · have hlast := hlast t ht
      by_cases hdue : t.exp < run.now
      · -- in scan mode a due record is judged only when the data is gone
        simp only [State.judgesLast, if_pos hdue, h.scan hdisp, reduceCtorEq, decide_false,
          Bool.false_and, all_eq_true] at hlast
        exact ⟨hdue, fun _ => eq_none_iff_forall_not_mem.mpr hlast⟩
      · simp only [State.judgesLast, if_neg hdue] at hlast
        simp [hold, mem_def.mp ht, State.ttlDead, hdue, isNone_eq_false_iff.mpr hlast] at hdead
  ttl t ht hlt := (h.ttl t ht hlt).imp_left fun ⟨v, hv, haddr⟩ =>
    ⟨_, mem_map_of_mem _ hv, haddr⟩

/-- The verdict on the data record is dealt with: the record is not there any more. -/
lemma settleData (hv : run.data = some v)
    (hne : ∀ d ∈ s.data, d.addr ≠ v.addr) : RunInv s { run with data := none } where
  __ := h
  data d hd hlt := by
    refine .inr ((h.data d hd hlt).resolve_left ?_)
    rintro ⟨v', hv', haddr⟩
    cases mem_unique hv' hv
    exact hne d hd haddr.symm
  due hmode d hd t ht hlt hle huntil hdue := by
    obtain ⟨v', hv', haddr, -⟩ := h.due hmode d hd t ht hlt hle huntil hdue
    cases mem_unique hv' hv
    exact absurd haddr.symm (hne d hd)

lemma retainData (hv : run.data = some v) (hlive : v.dead = false) :
    RunInv s ({ run with data := none }.retain v.addr) where
  __ := h
  data d hd hlt := by
    rcases h.data d hd hlt with ⟨v', hv', haddr⟩ | hret
    · cases mem_unique hv' hv
      exact .inr (haddr ▸ Run.retains_retain _ _)
    · exact .inr (Run.Retains.retain hret _)
  ttl t ht hlt := (h.ttl t ht hlt).imp_right (.imp_left fun hret => Run.Retains.retain hret _)
  due hmode d hd t ht hlt hle huntil hdue := by
    obtain ⟨v', hv', -, hdead⟩ := h.due hmode d hd t ht hlt hle huntil hdue
    cases mem_unique hv' hv
    rw [hlive] at hdead
    cases hdead

/-- The verdict on the expiration record is dealt with: the record is not there any more, or it may
go. -/
lemma settleTtl (hv : run.ttl = some v)
    (hne : ∀ t ∈ s.ttl, t.addr = v.addr → Spent s t run.now) : RunInv s { run with ttl := none } where
  __ := h
  verdict_lt := nofun
  verdict := nofun
  ttl t ht hlt := by
    rcases h.ttl t ht hlt with ⟨v', hv', haddr⟩ | hrest
    · cases mem_unique hv' hv
      exact .inr (.inr (hne t ht haddr.symm))
    · exact .inr hrest

lemma retainTtl (hv : run.ttl = some v) : RunInv s ({ run with ttl := none }.retain v.addr) where
  __ := h
  verdict_lt := nofun
  verdict := nofun
  data d hd hlt := (h.data d hd hlt).imp_right fun hret =>
    Run.Retains.retain hret _
  ttl t ht hlt := by
    rcases h.ttl t ht hlt with ⟨v', hv', haddr⟩ | hret | hgone
    · cases mem_unique hv' hv
      exact .inr (.inl (haddr ▸ Run.retains_retain _ _))
    · exact .inr (.inl (Run.Retains.retain hret _))
    · exact .inr (.inr hgone)

end

end RunInv

namespace Inv

variable {s s' : State} {run : Run} {v : Verdict}

lemma setRun (h : Inv s) (hrun : RunInv s run) : Inv { s with run := some run } :=
  { h with
    run := by
      rintro run ⟨⟩
      exact { hrun with } }

lemma start (h : Inv s) {mode : Mode} {untilAddress : Nat} (hup : untilAddress ≤ s.safeReadOnly)
    (hlt : s.begin < untilAddress) :
    RunInv s ⟨mode, untilAddress, s.clock, s.begin, none, none, none, false⟩ where
  until_le := hup
  pos_le := hlt.le
  begin_le := le_rfl
  now_le := le_rfl
  scan := nofun
  verdict_lt := nofun
  verdict := nofun
  data d hd hd' := absurd (h.data_mem d hd).1 (not_le.mpr hd')
  ttl t ht hlt := .inr (.inr (h.truncated t ht hlt))
  due _ d hd _ _ hd' := absurd (h.data_mem d hd).1 (not_le.mpr hd')

lemma applyData (h : Inv s) {ok : Bool} (hrun : s.run = some run) (hv : run.data = some v)
    (hdrops : s.dropsData v ok = true) : Inv (s.applyData run v ok) := by
  simp only [State.dropsData, Bool.or_eq_true, Bool.not_eq_true', Bool.and_eq_true] at hdrops
  unfold State.applyData
  cases ok with
  | false =>
    exact h.setRun ((h.run run hrun).retainData hv (hdrops.resolve_right (by simp)))
  | true =>
    cases hdead : v.dead with
    | true =>
      simp only [hdead, all_eq_true, Bool.not_eq_true', Bool.and_eq_false_imp,
        decide_eq_true_eq, reduceCtorEq, true_and, false_or] at hdrops
      simp only [if_true]
      split_ifs with heq
      · exact h.dropData.setRun ((h.dropData.run run hrun).settleData hv nofun)
      · refine h.setRun ((h.run run hrun).settleData hv ?_)
        rintro ⟨addr, cached⟩ hd haddr
        cases haddr
        cases hdrops _ hd rfl
        exact heq hd
    | false =>
      have htail := h.safeReadOnly_le
      have hbegin := h.begin_le
      have hmove : Inv { s with
          tail := s.tail + 1
          data := s.data.map fun d => if d.addr = v.addr then ⟨s.tail, false⟩ else d } := by
        refine (h.grow (Nat.le_succ s.tail)).moveData fun d hd => ?_
        have hmem := h.data_mem d hd
        show s.begin ≤ _ ∧ _ < s.tail + 1 ∧ (_ ∨ s.safeReadOnly ≤ _)
        split_ifs with haddr
        · exact ⟨hbegin.trans htail, Nat.lt_succ_self _, .inr htail⟩
        · exact ⟨hmem.1, by omega, .inl rfl⟩
      refine hmove.setRun ((hmove.run run hrun).settleData hv fun d hd => ?_)
      obtain ⟨d, hold, rfl⟩ := map_eq_some_iff.mp hd
      have hmem := h.data_mem d hold
      split_ifs with haddr
      · show s.tail ≠ v.addr
        omega
      · exact haddr

lemma applyTtl (h : Inv s) {ok : Bool} (hrun : s.run = some run) (hv : run.ttl = some v) :
    Inv (s.applyTtl run v ok) := by
  have hr := h.run run hrun
  unfold State.applyTtl
  cases ok with
  | false => exact h.setRun (hr.retainTtl hv)
  | true =>
    cases hdead : v.dead with
    | true =>
      have hspent := hr.verdict v hv hdead
      by_cases hgo : ∃ t ∈ s.ttl, t.addr = v.addr ∧ t.cached = false
      · obtain ⟨t, ht, hgo⟩ := hgo
        have hclear := h.clearTtl (hspent t ht hgo.1).2
        simpa [mem_def.mp ht, Option.filter, hgo] using
          hclear.setRun ((hclear.run run hrun).settleTtl hv nofun)
      · have hstay : s.ttl.filter (fun t => !(t.addr = v.addr && !t.cached)) = s.ttl := by
          cases ht : s.ttl with
          | none => rfl
          | some =>
            simp only [ht] at hgo
            simpa [filter_eq_some_iff, or_iff_not_imp_left] using hgo
        rw [hstay]
        exact h.setRun (hr.settleTtl hv hspent)
    | false =>
      have htail := h.safeReadOnly_le
      have hmove : Inv { s with
          tail := s.tail + 1
          ttl := s.ttl.map fun t =>
            if t.addr = v.addr then { t with addr := s.tail, cached := false } else t } := by
        refine (h.grow (Nat.le_succ s.tail)).moveTtl fun t ht => ?_
        have hlt := h.ttl_lt t ht
        show _ < s.tail + 1 ∧ _ ∧ (_ ∨ s.safeReadOnly ≤ _)
        split_ifs with haddr
        · exact ⟨Nat.lt_succ_self _, rfl, .inr htail⟩
        · exact ⟨by omega, rfl, .inl rfl⟩
      refine hmove.setRun ((hmove.run run hrun).settleTtl hv fun t ht haddr => ?_)
      obtain ⟨t, hold, rfl⟩ := map_eq_some_iff.mp ht
      have hlt := h.ttl_lt t hold
      split_ifs at haddr with hsame
      · have haddr : s.tail = v.addr := haddr
        omega
      · exact absurd haddr hsame

lemma finish (h : Inv s) (hrun : s.run = some run) (hdata : run.data = none)
    (httl : run.ttl = none) (hpastData : run.Past s.data)
    (hpastTtl : run.Past (s.ttl.map Ttl.toSlot)) :
    Inv { s with run := none, begin := max s.begin run.finalUntil } := by
  have hr := h.run run hrun
  have hfinal := run.finalUntil_le
  have hup := hr.until_le
  have htruncated : ∀ t ∈ s.ttl, t.addr < max s.begin run.finalUntil → Spent s t s.clock := by
    intro t ht hlt
    by_cases hb : t.addr < s.begin
    · exact h.truncated t ht hb
    · have hlt : t.addr < run.finalUntil := by omega
      have hpos : t.addr < run.pos :=
        (hpastTtl t.toSlot (mem_map_of_mem _ ht)).resolve_right (by omega)
      rcases hr.ttl t ht hpos with ⟨v, hv, -⟩ | hret | hgone
      · rw [httl] at hv
        cases hv
      · exact absurd hret.finalUntil_le (not_le.mpr hlt)
      · exact hgone.mono hr.now_le
  refine { h with
    begin_le := max_le h.begin_le (hfinal.trans hup), data_mem := ?_, covered := ?_,
    truncated := htruncated, run := nofun }
  · intro d hd
    have hmem := h.data_mem d hd
    refine ⟨max_le hmem.1 ?_, hmem.2⟩
    rcases hpastData d hd with hpos | hle
    · rcases hr.data d hd hpos with ⟨v, hv, -⟩ | hret
      · rw [hdata] at hv
        cases hv
      · exact hret.finalUntil_le
    · exact hfinal.trans hle
  · intro hexp
    rcases h.covered hexp with hnone | ⟨t, ht, -, hlt⟩
    · exact .inl hnone
    · by_cases hb : t.addr < max s.begin run.finalUntil
      · exact .inl ((htruncated t ht hb).2 hexp)
      · exact .inr ⟨t, ht, .inr (not_lt.mp hb), hlt⟩

/-! ### Every careful step -/

lemma probe (h : Inv s) (hdue : ¬ s.TtlDue s.clock) :
    Inv { s with reader := some (.probed !s.expired) } := by
  refine h.setReader ?_
  rintro r ⟨⟩ hfresh
  exact h.data_eq_none hdue (by simpa using hfresh)

lemma readData (h : Inv s) {fresh : Bool} (hr : s.reader = some (.probed fresh)) :
    Inv { s with reader := if s.HasData then some (.reported fresh) else none } := by
  have hok : fresh = false → s.data = none := h.reader _ hr
  refine h.setReader fun r hmem => ?_
  split_ifs at hmem with hdata
  · cases hmem
    cases fresh with
    | false => exact absurd (hok rfl) (h.hasData_iff.mp hdata)
    | true => rfl
  · cases hmem

lemma find (h : Inv s) :
    Inv { s with reader := if s.HasData then some (.found !s.expired) else none } := by
  refine h.setReader fun r hmem => ?_
  split_ifs at hmem with hdata
  · cases hmem
    exact fun hfresh => by simpa using hfresh
  · cases hmem

lemma probeFound (h : Inv s) {fresh : Bool} (hr : s.reader = some (.found fresh))
    (hdata : s.HasData) :
    Inv { s with reader := if s.TtlDue s.clock then none else some (.reported fresh) } := by
  have hok : fresh = false → s.expired = true := h.reader _ hr
  refine h.setReader fun r hmem => ?_
  split_ifs at hmem with hdue
  · cases hmem
  · cases hmem
    cases fresh with
    | false => exact absurd (h.data_eq_none hdue (hok rfl)) (h.hasData_iff.mp hdata)
    | true => rfl

lemma step {a : Action} (h : Inv s) (ha : careful s a = true) (hs : Expiry.step s a = some s') :
    Inv s' := by
  cases a <;> simp only [Expiry.step] at hs
  case tick =>
    obtain ⟨hle, ⟨⟩⟩ := ite_none_right_eq_some.mp hs
    exact h.tick hle
  case grow =>
    obtain ⟨hle, ⟨⟩⟩ := ite_none_right_eq_some.mp hs
    exact h.grow hle
  case shiftSafeReadOnly =>
    obtain ⟨⟨hle, hv⟩, ⟨⟩⟩ := ite_none_right_eq_some.mp hs
    exact h.shiftSafeReadOnly hle hv
  case write | rewrite =>
    obtain ⟨-, hput⟩ := ite_none_right_eq_some.mp hs
    exact h.putData (by simp) hput
  case strip =>
    obtain ⟨hlatch, ⟨⟩⟩ := ite_none_right_eq_some.mp hs
    exact (h.clearTtl (by simp [h.setting hlatch])).setLatch nofun nofun
  case release | check =>
    obtain ⟨-, ⟨⟩⟩ := ite_none_right_eq_some.mp hs
    exact h.setLatch nofun nofun
  case expireAt =>
    obtain ⟨-, hs⟩ := ite_none_right_eq_some.mp hs
    obtain ⟨p, hp, rfl⟩ := map_eq_some_iff.mp hs
    have hdue : ¬ s.TtlDue s.clock := by simpa [careful] using ha
    exact (h.expireAt hdue hp).setLatch nofun nofun
  case persist =>
    obtain ⟨-, ⟨⟩⟩ := ite_none_right_eq_some.mp hs
    have hdue : ¬ s.TtlDue s.clock := by simpa [careful] using ha
    exact (h.clearTtl (h.data_eq_none hdue)).setLatch nofun nofun
  case delete =>
    obtain ⟨-, ⟨⟩⟩ := ite_none_right_eq_some.mp hs
    exact h.dropData.setLatch nofun fun _ => rfl
  case delTtl =>
    obtain ⟨hlatch, ⟨⟩⟩ := ite_none_right_eq_some.mp hs
    exact (h.clearTtl fun _ => h.deleting hlatch).setLatch nofun nofun
  case probe =>
    split_ifs at hs with hdue <;> cases hs
    · exact h.setReader nofun
    · exact h.probe hdue
  case readData =>
    split at hs <;> cases hs
    rename_i hr
    exact h.readData hr
  case find =>
    cases hs
    exact h.find
  case probeFound =>
    split at hs <;> cases hs
    rename_i hr
    exact h.probeFound hr (by simpa [careful] using ha)
  case cacheData =>
    obtain ⟨-, ⟨⟩⟩ := ite_none_right_eq_some.mp hs
    exact h.moveData fun d hd => ⟨(h.data_mem d hd).1, (h.data_mem d hd).2, .inl rfl⟩
  case cacheTtl =>
    obtain ⟨-, ⟨⟩⟩ := ite_none_right_eq_some.mp hs
    exact h.moveTtl fun t ht => ⟨h.ttl_lt t ht, rfl, .inl rfl⟩
  case start =>
    obtain ⟨⟨-, hup, hlt⟩, ⟨⟩⟩ := ite_none_right_eq_some.mp hs
    exact h.setRun (h.start hup hlt)
  case judgeData =>
    split at hs
    · rename_i run d hrun hd
      obtain ⟨hnext, ⟨⟩⟩ := ite_none_right_eq_some.mp hs
      exact h.setRun ((h.run run hrun).judgeData hd hnext)
    · cases hs
  case judgeTtl =>
    split at hs
    · rename_i run t hrun ht
      obtain ⟨hnext, ⟨⟩⟩ := ite_none_right_eq_some.mp hs
      exact h.setRun ((h.run run hrun).judgeTtl ht hnext (by simpa [careful, hrun, ht] using ha))
    · cases hs
  case scanned =>
    split at hs
    · rename_i run hrun
      obtain ⟨⟨hmode, -⟩, ⟨⟩⟩ := ite_none_right_eq_some.mp hs
      exact h.setRun ((h.run run hrun).scanned hmode)
    · cases hs
  case recheckData =>
    split at hs
    · rename_i run hrun
      obtain ⟨-, ⟨⟩⟩ := ite_none_right_eq_some.mp hs
      exact h.setRun ((h.run run hrun).recheckData _)
    · cases hs
  case recheckTtl =>
    split at hs
    · rename_i run hrun
      obtain ⟨⟨hdisp, -⟩, ⟨⟩⟩ := ite_none_right_eq_some.mp hs
      have hlast : ∀ t ∈ s.ttl, s.judgesLast run t = true := by
        simpa [careful, hrun, all_eq_true] using ha
      exact h.setRun ((h.run run hrun).recheckTtl hdisp hlast)
    · cases hs
  case applyData ok =>
    split at hs
    · rename_i run hrun
      split at hs
      · rename_i v hv
        obtain ⟨-, ⟨⟩⟩ := ite_none_right_eq_some.mp hs
        exact h.applyData hrun hv (by simpa [careful, hrun, hv] using ha)
      · cases hs
    · cases hs
  case applyTtl ok =>
    split at hs
    · rename_i run hrun
      split at hs
      · rename_i v hv
        obtain ⟨-, ⟨⟩⟩ := ite_none_right_eq_some.mp hs
        exact h.applyTtl hrun hv
      · cases hs
    · cases hs
  case finish =>
    split at hs
    · rename_i run hrun
      obtain ⟨⟨hdata, httl, -, hpastData, hpastTtl⟩, ⟨⟩⟩ := ite_none_right_eq_some.mp hs
      exact h.finish hrun hdata httl hpastData hpastTtl
    · cases hs

end Inv

/-! ## Whole histories -/

/-- An expired key is not there: its data record is unreachable or covered by an expiration that is
due. A read that reports the key saw a moment at which it was not expired. -/
structure StaysDead (s : State) : Prop where
  not_exists : s.expired = true → ¬ s.Exists
  covered : s.expired = true → s.HasData → s.TtlDue s.clock
  reported : ∀ fresh, s.reader = some (.reported fresh) → fresh = true

/-- In a history of careful steps an expired key stays dead. -/
theorem staysDead_of_careful (base : Nat) {s : State}
    (h : Machine.Reaches step (fun s a => careful s a) (State.new base) s) : StaysDead s := by
  have hinv : Inv s := h.invariant (.new base) fun hs ha hstep => hs.step ha hstep
  have hcovered : s.expired = true → s.HasData → s.TtlDue s.clock :=
    fun hexp hdata => (hinv.covered hexp).resolve_left (hinv.hasData_iff.mp hdata)
  exact ⟨fun hexp hex => hex.2 (hcovered hexp hex.1), hcovered, fun _ hr => hinv.reader _ hr⟩

/-! ## The expiration record below the data record -/

/-- A key with an expiration; the data record is written again above it if `again` holds. The
expiration passes and a lookup run goes over everything below the address. -/
def expireAndCompact (again : Bool) (untilAddress : Nat) : List Action :=
  [.write false, .strip, .check, .expireAt 10 false] ++
    (if again then [.check, .rewrite false] else []) ++
    [.shiftSafeReadOnly untilAddress, .tick 20, .start .lookup untilAddress] ++
    (if again then [] else [.judgeData, .applyData true]) ++
    [.judgeTtl, .applyTtl true, .finish]

/-- The key is expired, and it is there. -/
def view (s : State) : Bool × Bool := (s.expired, s.Exists)

/-- The run removes the expiration record and leaves the data record above its range: the key is
back. -/
theorem exists_expired_key_back : ¬ ∀ s, Machine.Reachable step (State.new 64) s → StaysDead s := by
  intro h
  obtain ⟨s, hs, hview⟩ := Machine.exists_reachable_of_run step (.new 64)
    (expireAndCompact true 66) view (true, true) (by decide +kernel)
  simp only [view, Prod.mk.injEq, decide_eq_true_eq] at hview
  exact (h s hs).not_exists hview.1 hview.2

/-- The theorem on the same history without the second write: the data record goes first. -/
theorem staysDead_data_first :
    ∃ s, Machine.Reaches step (fun s a => careful s a) (State.new 64) s ∧
      view s = (true, false) ∧ StaysDead s := by
  obtain ⟨s, hs, hview⟩ := Machine.exists_reaches_of_run step (fun s a => careful s a)
    (.new 64) (expireAndCompact false 66) view (true, false) (by decide +kernel)
  exact ⟨s, hs, hview, staysDead_of_careful 64 hs⟩

end Wedb.Expiry
