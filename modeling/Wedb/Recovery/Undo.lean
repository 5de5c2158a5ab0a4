import Mathlib.Data.Finset.Max
import Wedb.Recovery.Slots

/-!
# Undoing the next version

When does the kernel leave every slot on the highest live record of its chain? The replay arm has a
monotone guard and the undo arm rewinds a slot only when the undone record's predecessor lies below
the replay start. A snapshot slot that already points at an undone record therefore keeps it when
the chain enters the window with a live record and has no live record above the slot.
-/

namespace Wedb.Recovery

open List HashBucketEntry HashIndex

variable {hashKey : List UInt8 → Nat} {bd : Bounds}

/-! ### Reading the snapshot -/

lemma sanitizeDataSlot_eq_self_or (raw : Nat) (tail : Option Nat) :
    sanitizeDataSlot raw tail = raw ∨ sanitizeDataSlot raw tail = 0 := by
  unfold sanitizeDataSlot
  split_ifs with h
  · exact .inr rfl
  · cases tail with
    | none => exact .inl rfl
    | some =>
      simp only
      split_ifs
      · exact .inr rfl
      · exact .inl rfl

/-- A committed main-log entry below the cut tail is kept as it is. -/
lemma sanitizeDataSlot_of_matchesTag {raw t tail : Nat} (hm : matchesTag raw t = true)
    (ha : address raw < tail) (htail : tail ≤ 2 ^ 47) :
    sanitizeDataSlot raw (some tail) = raw := by
  obtain ⟨htag, h0⟩ := matchesTag_iff.1 hm
  simp only [address, addressSpace, tagSpace] at htag h0 ha
  have hraw : raw ≠ 0 := by rintro rfl; simp at h0
  have htent : isTentative raw = false := by
    simp only [isTentative, beq_eq_false_iff_ne]
    omega
  have hrc : isReadCache raw = false := by
    simp only [isReadCache, beq_eq_false_iff_ne]
    omega
  simp only [sanitizeDataSlot, hraw, htent, hrc, Bool.false_eq_true, or_self, if_false]
  rw [if_neg (by simp only [address, addressSpace]; omega)]

lemma headWord_sanitize {chain : List Nat} {t tail : Nat} (htail : tail ≤ 2 ^ 47)
    (h : address (headWord chain t) = 0 ∨ address (headWord chain t) < tail) :
    headWord (chain.map (sanitizeDataSlot · (some tail))) t = headWord chain t := by
  induction chain with
  | nil => rfl
  | cons w l ih =>
    rw [map_cons]
    cases hm : matchesTag w t with
    | true =>
      rw [headWord_cons_of_match hm] at h ⊢
      have ha := h.resolve_left (matchesTag_iff.1 hm).2
      rw [sanitizeDataSlot_of_matchesTag hm ha htail, headWord_cons_of_match hm]
    | false =>
      rw [headWord_cons_of_not hm] at h ⊢
      rw [headWord_cons_of_not, ih h]
      rcases sanitizeDataSlot_eq_self_or w (some tail) with hw | hw <;> simp [hw, hm]

variable {snap : HashIndex}

lemma readSnapshot_tagsUnique (hu : snap.TagsUnique) (tail : Option Nat) :
    (readSnapshot snap tail).TagsUnique := by
  intro b
  refine (hu b).of_forall₂ (forall₂_map_right_iff.2 (forall₂_same.2 fun w _ t ht => ?_))
  rcases sanitizeDataSlot_eq_self_or w tail with hw | hw
  · rwa [hw] at ht
  · simp [hw] at ht

/-! ### Folding a linked chain -/

/-- The slot holds a record that the kernel undoes, no kept record of the chain lies above it, and
the chain enters the replay window with a kept record: nothing rewinds the slot and the monotone
guard keeps every kept record out of it. -/
def StuckHead (bd : Bounds) (chain : List LogRecord) (a : Nat) : Prop :=
  ∃ n ∈ chain, isUndone bd true n = true ∧ n.addr = a ∧
    (∀ r ∈ chain, isUndone bd true r = false → r.addr < n.addr) ∧
    ∃ w ∈ chain, bd.indexStart ≤ w.addr ∧ isUndone bd true w = false ∧
      ∀ r ∈ chain, bd.indexStart ≤ r.addr → w.addr ≤ r.addr

/-- The slot address of a chain when the snapshot was taken: empty or truncated while the chain had
no record below the replay start, else one of the chain's records, none of those below the start
being newer. -/
def ChainHead (bd : Bounds) (chain : List LogRecord) (a : Nat) : Prop :=
  ((a = 0 ∨ a < bd.beginAddress) ∧ ∀ r ∈ chain, bd.indexStart ≤ r.addr) ∨
    ∃ r ∈ chain, r.addr = a ∧ ∀ r' ∈ chain, r'.addr < bd.indexStart → r'.addr ≤ a

/-- A chain of the log: ascending addresses from the begin address on, each record linked to the
one before it and the oldest one to nothing that is left, flags at or above the start only. -/
structure LinkedChain (bd : Bounds) (chain : List LogRecord) : Prop where
  sorted : chain.Pairwise fun r r' => r.addr < r'.addr
  range : ∀ r ∈ chain, bd.beginAddress ≤ r.addr
  links : chain.IsChain fun r r' => r'.prev = r.addr
  first : ∀ r ∈ chain.head?, r.prev < bd.beginAddress

variable {chain : List LogRecord}

lemma exists_window_split (h : chain.Pairwise fun r r' => r.addr < r'.addr) (c : Nat) :
    ∃ below window, chain = below ++ window ∧ (∀ r ∈ below, r.addr < c) ∧
      ∀ r ∈ window, c ≤ r.addr := by
  induction chain with
  | nil => exact ⟨[], [], rfl, by simp, by simp⟩
  | cons r rs ih =>
    rw [pairwise_cons] at h
    by_cases hr : r.addr < c
    · obtain ⟨below, window, rfl, hb, hw⟩ := ih h.2
      exact ⟨r :: below, window, rfl, by simpa [hr] using hb, hw⟩
    · refine ⟨[], r :: rs, rfl, by simp, ?_⟩
      rw [forall_mem_cons]
      exact ⟨by omega, fun x hx => by have := h.1 x hx; omega⟩

lemma isUndone_of_lt {r : LogRecord} (h : r.addr < bd.indexStart) : isUndone bd true r = false := by
  have : ¬ bd.indexStart ≤ r.addr := by omega
  simp [isUndone, this]

/-- Records below the replay start leave the slot alone. -/
lemma foldl_slotStep_below {below : List LogRecord} (h : ∀ r ∈ below, r.addr < bd.indexStart)
    (s : Nat) : below.foldl (slotStep bd) s = s := by
  induction below generalizing s with
  | nil => rfl
  | cons r rs ih =>
    have hr := h r (by simp)
    have hstep : slotStep bd s r = s := by
      have : ¬ bd.indexStart ≤ r.addr := by omega
      simp [slotStep, isUndone_of_lt hr, this]
    rw [foldl_cons, hstep, ih fun x hx => h x (by simp [hx])]

/-- Behind the first window record nothing rewinds: the slot only climbs over kept records, to the highest. -/
lemma foldl_slotStep_eq {window : List LogRecord}
    (h : ∀ r ∈ window, bd.indexStart ≤ r.addr ∧ bd.indexStart ≤ r.prev) {s a : Nat} (hs : s ≤ a)
    (hmax : ∀ r ∈ window, isUndone bd true r = false → r.addr ≤ a)
    (ha : s = a ∨ ∃ r ∈ window, isUndone bd true r = false ∧ r.addr = a) :
    window.foldl (slotStep bd) s = a := by
  induction window generalizing s with
  | nil => simpa using ha
  | cons r rs ih =>
    obtain ⟨⟨hr, hprev⟩, hrs⟩ := forall_mem_cons.1 h
    rw [forall_mem_cons] at hmax
    rw [exists_mem_cons_iff] at ha
    rw [foldl_cons]
    cases hund : isUndone bd true r with
    | true =>
      have hstep : slotStep bd s r = s := by
        simp [slotStep, hund, show ¬ r.prev < bd.indexStart by omega]
      rw [hstep]
      exact ih hrs hs hmax.2 (ha.imp_right fun hex => hex.resolve_left (by simp [hund]))
    | false =>
      have hstep : slotStep bd s r = max s r.addr := by
        simp only [slotStep, hund, Bool.false_eq_true, if_false]
        split_ifs <;> omega
      have hra := hmax.1 hund
      rw [hstep]
      refine ih hrs (max_le hs hra) hmax.2 ?_
      rcases ha with rfl | ⟨-, rfl⟩ | hex
      · exact .inl (max_eq_left hra)
      · exact .inl (max_eq_right hs)
      · exact .inr hex

/-- Behind the oldest record every predecessor link stays inside the chain. -/
lemma exists_prev_of_isChain {w : LogRecord} {rest : List LogRecord}
    (h : (w :: rest).IsChain fun r r' => r'.prev = r.addr)
    (hs : (w :: rest).Pairwise fun r r' => r.addr < r'.addr) :
    ∀ r ∈ rest, ∃ x ∈ w :: rest, r.prev = x.addr ∧ x.addr < r.addr := by
  induction rest generalizing w with
  | nil => simp
  | cons v rest ih =>
    rw [isChain_cons_cons] at h
    rw [pairwise_cons] at hs
    rw [forall_mem_cons]
    refine ⟨⟨w, by simp, h.1, hs.1 v (by simp)⟩, fun r hr => ?_⟩
    obtain ⟨x, hx, hxr⟩ := ih h.2 hs.2 r hr
    exact ⟨x, mem_cons_of_mem _ hx, hxr⟩

lemma eq_of_addr_eq
    (h : chain.Pairwise fun r r' => r.addr < r'.addr) {r r' : LogRecord} (hr : r ∈ chain)
    (hr' : r' ∈ chain) (he : r.addr = r'.addr) : r = r' :=
  List.Pairwise.forall_of_forall_of_flip (R := fun x y : LogRecord => x.addr = y.addr → x = y)
    (fun _ _ _ => rfl) (h.imp fun hlt heq => absurd heq hlt.ne)
    (h.imp fun hlt heq => absurd heq hlt.ne') hr hr' he

/-- `k` is the newest record of the chain that the kernel keeps. -/
def NewestKept (bd : Bounds) (chain : List LogRecord) (k : LogRecord) : Prop :=
  k ∈ chain ∧ isUndone bd true k = false ∧ ∀ r ∈ chain, isUndone bd true r = false → r.addr ≤ k.addr

/-- The window record that rewinds the slot: its predecessor is the newest record below the
replay start. -/
lemma visible_prev_of_first {below rest : List LogRecord} {w : LogRecord}
    (h : LinkedChain bd (below ++ w :: rest)) (hb : ∀ r ∈ below, r.addr < bd.indexStart) :
    w.prev < bd.indexStart ∧
      ((below = [] ∧ visible bd.beginAddress w.prev = 0) ∨
        ∃ l ∈ below, visible bd.beginAddress w.prev = l.addr ∧ ∀ r ∈ below, r.addr ≤ l.addr) := by
  have hbegin := bd.begin_le
  rcases eq_nil_or_concat below with rfl | ⟨init, l, rfl⟩
  · have := h.first w (by simp)
    exact ⟨by omega, .inl ⟨rfl, by simp [visible, this]⟩⟩
  · have hlink : w.prev = l.addr := by
      have := (isChain_append.1 h.links).2.2 l (by simp) w (by simp)
      exact this
    have hl := hb l (by simp)
    have hlb := h.range l (by simp)
    refine ⟨by omega, .inr ⟨l, by simp, ?_, ?_⟩⟩
    · rw [hlink, visible, if_neg (by omega)]
    · have hsort := (pairwise_append.1 h.sorted).1
      rw [concat_eq_append, pairwise_append] at hsort
      intro r hr
      rw [concat_eq_append, mem_append, mem_singleton] at hr
      rcases hr with hr | rfl
      · exact (hsort.2.2 r hr l (by simp)).le
      · exact le_rfl

/-- The closed form of the fold. A stuck head stays; otherwise the slot ends on the newest kept
record, and is empty when the kernel keeps none. -/
lemma LinkedChain.foldl_slotStep {a : Nat} (h : LinkedChain bd chain) (hh : ChainHead bd chain a) :
    (StuckHead bd chain a → chain.foldl (slotStep bd) (visible bd.beginAddress a) = a) ∧
    (¬ StuckHead bd chain a →
      (∀ k, NewestKept bd chain k →
        chain.foldl (slotStep bd) (visible bd.beginAddress a) = k.addr) ∧
      ((∀ r ∈ chain, isUndone bd true r = true) →
        chain.foldl (slotStep bd) (visible bd.beginAddress a) = 0)) := by
  -- what the snapshot's slot looks like to the fold
  have hvis : (visible bd.beginAddress a = 0 ∧ ∀ r ∈ chain, bd.indexStart ≤ r.addr) ∨
      (visible bd.beginAddress a = a ∧ ∃ r ∈ chain, r.addr = a ∧
        ∀ r' ∈ chain, r'.addr < bd.indexStart → r'.addr ≤ a) := by
    rcases hh with ⟨h0 | hlt, hall⟩ | ⟨r, hr, hra, hall⟩
    · exact .inl ⟨by simp [h0], hall⟩
    · exact .inl ⟨by simp [visible, hlt], hall⟩
    · have := h.range r hr
      exact .inr ⟨by rw [visible, if_neg (by omega)], r, hr, hra, hall⟩
  obtain ⟨below, window, rfl, hb, hw⟩ := exists_window_split h.sorted bd.indexStart
  rw [foldl_append, foldl_slotStep_below hb]
  cases window with
  | nil =>
    simp only [append_nil] at h hh hvis ⊢
    have hkept : ∀ r ∈ below, isUndone bd true r = false := fun r hr => isUndone_of_lt (hb r hr)
    refine ⟨?_, fun _ => ⟨?_, ?_⟩⟩
    · rintro ⟨n, hn, hund, -⟩
      rw [hkept n hn] at hund
      cases hund
    · rintro k ⟨hk, -, hmax⟩
      rcases hvis with ⟨-, hall⟩ | ⟨hva, r, hr, hra, hall⟩
      · have := hall k hk
        have := hb k hk
        omega
      · have h1 := hall k hk (hb k hk)
        have h2 := hmax r hr (hkept r hr)
        simp only [foldl_nil]
        omega
    · intro hall
      rcases hvis with ⟨hva, -⟩ | ⟨-, r, hr, -⟩
      · exact hva
      · have := hall r hr
        rw [hkept r hr] at this
        cases this
  | cons w rest =>
    obtain ⟨hwprev, hfirst⟩ := visible_prev_of_first h hb
    have hsort := (pairwise_append.1 h.sorted).2.1
    have hrest : ∀ r ∈ rest, bd.indexStart ≤ r.addr ∧ bd.indexStart ≤ r.prev := by
      intro r hr
      obtain ⟨x, hx, hxr, -⟩ := exists_prev_of_isChain (isChain_append.1 h.links).2.1 hsort r hr
      exact ⟨hw r (mem_cons_of_mem _ hr), hxr ▸ hw x hx⟩
    have hws := hw w (by simp)
    have hwin : w ∈ below ++ w :: rest := by simp
    have hfrom : ∀ x ∈ below ++ w :: rest, bd.indexStart ≤ x.addr → x = w ∨ x ∈ rest ∧ w.addr < x.addr := by
      intro x hx hxs
      rcases mem_append.1 hx with hx | hx
      · have := hb x hx
        omega
      · exact (mem_cons.1 hx).imp_right fun hx => ⟨hx, (pairwise_cons.1 hsort).1 x hx⟩
    rw [foldl_cons]
    cases hund : isUndone bd true w with
    | true =>
      -- the window opens with an undone record: the slot is rewound below the start
      have hs : slotStep bd (visible bd.beginAddress a) w = visible bd.beginAddress w.prev := by
        simp [slotStep, hund, hwprev]
      rw [hs]
      refine ⟨?_, fun _ => ⟨?_, ?_⟩⟩
      · rintro ⟨n, -, -, -, -, f, hf, hfs, hfk, hfmin⟩
        have hle := hfmin w hwin hws
        rcases hfrom f hf hfs with rfl | ⟨-, hlt⟩
        · rw [hund] at hfk
          cases hfk
        · omega
      · rintro k ⟨hk, hkk, hmax⟩
        have hbelow : visible bd.beginAddress w.prev ≤ k.addr := by
          rcases hfirst with ⟨-, hv0⟩ | ⟨l, hl, hlv, -⟩
          · omega
          · exact hlv ▸ hmax l (by simp [hl]) (isUndone_of_lt (hb l hl))
        refine foldl_slotStep_eq hrest hbelow (fun r hr => hmax r (by simp [hr])) ?_
        rcases mem_append.1 hk with hkb | hkw
        · -- only records below the start are kept
          obtain ⟨l, -, hlv, hlmax⟩ := hfirst.resolve_left fun h0 => by simp [h0.1] at hkb
          exact .inl (hbelow.antisymm (hlv ▸ hlmax k hkb))
        · rcases mem_cons.1 hkw with rfl | hkr
          · rw [hund] at hkk
            cases hkk
          · exact .inr ⟨k, hkr, hkk, rfl⟩
      · intro hund'
        have hv0 : visible bd.beginAddress w.prev = 0 := by
          rcases hfirst with ⟨-, hv0⟩ | ⟨l, hl, -⟩
          · exact hv0
          · have := hund' l (by simp [hl])
            rw [isUndone_of_lt (hb l hl)] at this
            cases this
        refine foldl_slotStep_eq hrest hv0.le (fun r hr hrk => ?_) (.inl hv0)
        rw [hund' r (by simp [hr])] at hrk
        cases hrk
    | false =>
      -- the window opens with a kept record: the slot climbs from where the snapshot left it
      have hs : slotStep bd (visible bd.beginAddress a) w = max (visible bd.beginAddress a) w.addr := by
        simp only [slotStep, hund, Bool.false_eq_true, if_false]
        split_ifs <;> omega
      rw [hs]
      refine ⟨?_, fun hns => ⟨?_, ?_⟩⟩
      · rintro ⟨n, hn, -, rfl, hkept, -⟩
        have hva : visible bd.beginAddress n.addr = n.addr := by
          have := h.range n hn
          rw [visible, if_neg (by omega)]
        have hmax : max (visible bd.beginAddress n.addr) w.addr = n.addr := by
          rw [hva, max_eq_left (hkept w hwin hund).le]
        exact foldl_slotStep_eq hrest hmax.le (fun r hr hrk => (hkept r (by simp [hr]) hrk).le) (.inl hmax)
      · rintro k ⟨hk, hkk, hmax⟩
        have hwk := hmax w hwin hund
        have hak : visible bd.beginAddress a ≤ k.addr := by
          rcases hvis with ⟨hv0, -⟩ | ⟨hva, r, hr, hra, -⟩
          · omega
          · rw [hva, ← hra]
            cases hru : isUndone bd true r with
            | false => exact hmax r hr hru
            | true =>
              by_contra hlt
              refine hns ⟨r, hr, hru, hra, fun x hx hxk => ?_, w, hwin, hws, hund, fun x hx hxs => ?_⟩
              · have := hmax x hx hxk
                omega
              · rcases hfrom x hx hxs with rfl | ⟨-, hlt⟩
                · exact le_rfl
                · exact hlt.le
        refine foldl_slotStep_eq hrest (max_le hak hwk) (fun r hr => hmax r (by simp [hr])) ?_
        rcases hfrom k hk (hws.trans hwk) with rfl | ⟨hkr, -⟩
        · exact .inl (max_eq_right hak)
        · exact .inr ⟨k, hkr, hkk, rfl⟩
      · intro hund'
        rw [hund' w hwin] at hund
        cases hund

/-! ### The kernel on a cut log -/

/-- The records of one chain of the log, oldest first. -/
def chainRecords (hashKey : List UInt8 → Nat) (idx : HashIndex) (log : List LogRecord)
    (b tag : Nat) : List LogRecord :=
  log.filter fun r => decide (InSlot hashKey idx b tag r)

/-- A log cut at a checkpoint, with the index snapshot taken inside its version-shift window. -/
structure CutLog (hashKey : List UInt8 → Nat) (bd : Bounds) (snap : HashIndex)
    (log : List LogRecord) : Prop where
  /-- Addresses ascend and lie in the cut log. -/
  sorted : log.Pairwise fun r r' => r.addr < r'.addr
  range : ∀ r ∈ log, bd.beginAddress ≤ r.addr ∧ r.addr < bd.tail
  valid : ∀ r ∈ log, r.addr ≠ 0
  /-- Records below the floor never carry the new-version flag. -/
  floor : ∀ r ∈ log, r.inNewVersion = true → bd.indexStart ≤ r.addr
  /-- Every record of a chain is linked to the one before it, the oldest to nothing that is left. -/
  links : ∀ b t, (chainRecords hashKey snap log b t).IsChain fun r r' => r'.prev = r.addr
  first : ∀ b t, ∀ r ∈ (chainRecords hashKey snap log b t).head?, r.prev < bd.beginAddress
  /-- The slots of the snapshot hold chain heads. -/
  unique : snap.TagsUnique
  heads : ∀ b t, t < tagSpace →
    ChainHead bd (chainRecords hashKey snap log b t) (snap.slotAddress b t)

/-- A record of the version the checkpoint is about, neither undone nor sealed before. -/
def Live (bd : Bounds) (r : LogRecord) : Prop := isUndone bd true r = false ∧ r.isSealed = false

/-- The slot holds the highest live record of its chain, if there is one, and in no case a record
that the kernel sealed. -/
def SlotRecovered (bd : Bounds) (chain : List LogRecord) (out : Outcome) (b tag : Nat) : Prop :=
  (∀ r ∈ chain, Live bd r → (∀ r' ∈ chain, Live bd r' → r'.addr ≤ r.addr) →
    out.index.slotAddress b tag = r.addr) ∧
  ∀ a ∈ out.undoSeals, out.index.slotAddress b tag ≠ a

/-- The newest kept record of a chain that has a live one was not sealed before the scan. -/
def NewestUnsealed (bd : Bounds) (chain : List LogRecord) : Prop :=
  (∃ r ∈ chain, Live bd r) → ∀ k, NewestKept bd chain k → k.isSealed = false

variable {log : List LogRecord}

lemma CutLog.linkedChain (h : CutLog hashKey bd snap log) (b t : Nat) :
    LinkedChain bd (chainRecords hashKey snap log b t) where
  sorted := h.sorted.filter _
  range := fun r hr => (h.range r (mem_of_mem_filter hr)).1
  links := h.links b t
  first := h.first b t

lemma LinkedChain.prev_lt (h : LinkedChain bd chain) : ∀ r ∈ chain, r.prev < r.addr := by
  intro r hr
  cases chain with
  | nil => simp at hr
  | cons =>
    rcases mem_cons.1 hr with rfl | hr
    · exact (h.first r (by simp)).trans_le (h.range r (by simp))
    · obtain ⟨x, -, hxr, hlt⟩ := exists_prev_of_isChain h.links h.sorted r hr
      exact hxr ▸ hlt

lemma scanIter_eq_self (h : ∀ r ∈ log, bd.beginAddress ≤ r.addr ∧ r.addr < bd.tail) :
    scanIter log bd.beginAddress bd.tail = log := by
  rw [scanIter, filter_eq_self]
  intro r hr
  simp [h r hr]

/-- What a finished recovery leaves in a slot: the fold over its chain, from the snapshot's slot. -/
lemma CutLog.outcome {loaded : Nat → Bool} {out : Outcome} (h : CutLog hashKey bd snap log)
    (hrun : runRecoveryKernel hashKey bd true loaded log (readSnapshot snap (some bd.tail)) =
      .ok out) :
    out.undoSeals = (log.filter (isUndone bd true)).map LogRecord.addr ∧
      ∀ b t, t < tagSpace → visible bd.beginAddress (out.index.slotAddress b t) =
        (chainRecords hashKey snap log b t).foldl (slotStep bd)
          (visible bd.beginAddress (snap.slotAddress b t)) := by
  unfold runRecoveryKernel at hrun
  rw [scanIter_eq_self h.range] at hrun
  split at hrun
  · rename_i st hst
    cases hrun
    have hr : ∀ r ∈ log, InRange bd r := by
      intro r hr
      refine ⟨fun hkey => ?_, h.range r hr⟩
      exact (h.linkedChain _ _).prev_lt r
        (mem_filter.2 ⟨hr, by simp only [decide_eq_true_eq]; exact ⟨hkey, rfl, rfl⟩⟩)
    obtain ⟨hseals, hslot⟩ := recoverRecords_slot hst (readSnapshot_tagsUnique h.unique _) hr
    refine ⟨by simpa using hseals, fun b t ht => ?_⟩
    have hhead : (readSnapshot snap (some bd.tail)).slotAddress b t = snap.slotAddress b t := by
      refine congrArg address (headWord_sanitize bd.tail_le ?_)
      have hbt := bd.begin_le.trans bd.start_le
      rcases h.heads b t ht with ⟨h0 | hlt, -⟩ | ⟨r, hr, hra, -⟩
      · exact .inl h0
      · exact .inr (hlt.trans_le hbt)
      · exact .inr (hra.symm.trans_lt (h.range r (mem_of_mem_filter hr)).2)
    rw [hslot b t ht, hhead]
    rfl
  · cases hrun

lemma exists_highest {p : LogRecord → Prop} (h : ∃ r ∈ chain, p r) :
    ∃ r ∈ chain, p r ∧ ∀ r' ∈ chain, p r' → r'.addr ≤ r.addr := by
  classical
  obtain ⟨x, hx, hpx⟩ := h
  obtain ⟨r, hr, hmax⟩ := (chain.filter p).toFinset.exists_max_image LogRecord.addr
    ⟨x, by simp [hx, hpx]⟩
  simp only [mem_toFinset, mem_filter, decide_eq_true_eq] at hr hmax
  exact ⟨r, hr.1, hr.2, fun r' hr' hp' => hmax r' ⟨hr', hp'⟩⟩

/-- A slot address the fold ends on is the slot's own, unless it is below the begin address. -/
lemma eq_of_visible_eq {m a c : Nat} (h : visible m a = c) (hc : c ≠ 0) : a = c := by
  unfold visible at h
  split_ifs at h
  · exact absurd h.symm hc
  · exact h

/-- After recovery a slot holds the highest live record of its chain, and no sealed one, exactly
when the snapshot's slot was not stuck and the newest kept record of the chain was not sealed
before. -/
theorem slotRecovered_iff {snap : HashIndex} {log : List LogRecord} {loaded : Nat → Bool}
    {out : Outcome} (h : CutLog hashKey bd snap log)
    (hrun : runRecoveryKernel hashKey bd true loaded log (readSnapshot snap (some bd.tail)) =
      .ok out) (b t : Nat) (ht : t < tagSpace) :
    SlotRecovered bd (chainRecords hashKey snap log b t) out b t ↔
      ¬ StuckHead bd (chainRecords hashKey snap log b t) (snap.slotAddress b t) ∧
        NewestUnsealed bd (chainRecords hashKey snap log b t) := by
  obtain ⟨hseals, hslot⟩ := h.outcome hrun
  have hchain := h.linkedChain b t
  have hmem : ∀ {r}, r ∈ chainRecords hashKey snap log b t → r ∈ log := mem_of_mem_filter
  have hpos : ∀ {r}, r ∈ chainRecords hashKey snap log b t → r.addr ≠ 0 := fun hr =>
    h.valid _ (hmem hr)
  obtain ⟨hstuck, hfree⟩ := hchain.foldl_slotStep (h.heads b t ht)
  have hsealed : ∀ {a}, a ∈ out.undoSeals ↔ ∃ r ∈ log, isUndone bd true r = true ∧ r.addr = a := by
    intro a
    simp [hseals, and_assoc]
  rw [← hslot b t ht] at hstuck hfree
  constructor
  · rintro ⟨hhigh, hno⟩
    have hns : ¬ StuckHead bd (chainRecords hashKey snap log b t) (snap.slotAddress b t) := by
      intro hs
      obtain ⟨n, hn, hund, hna, -⟩ := id hs
      refine hno n.addr (hsealed.2 ⟨n, hmem hn, hund, rfl⟩) ?_
      rw [hna]
      exact eq_of_visible_eq (hstuck hs) (hna ▸ hpos hn)
    refine ⟨hns, fun hlive k hk => ?_⟩
    obtain ⟨r, hr, hrl, hrmax⟩ := exists_highest hlive
    have hka := eq_of_visible_eq ((hfree hns).1 k hk) (hpos hk.1)
    have hra := hhigh r hr hrl hrmax
    rw [← eq_of_addr_eq hchain.sorted hr hk.1 (hra.symm.trans hka)]
    exact hrl.2
  · rintro ⟨hns, hun⟩
    obtain ⟨hkept, hnone⟩ := hfree hns
    constructor
    · intro r hr hrl hrmax
      obtain ⟨k, hk, hkk, hkmax⟩ := exists_highest (p := (isUndone bd true · = false))
        ⟨r, hr, hrl.1⟩
      have hkn : NewestKept bd (chainRecords hashKey snap log b t) k := ⟨hk, hkk, hkmax⟩
      have hle := hrmax k hk ⟨hkk, hun ⟨r, hr, hrl⟩ k hkn⟩
      have hge := hkmax r hr hrl.1
      rw [eq_of_visible_eq (hkept k hkn) (hpos hk)]
      omega
    · intro a ha hslot'
      obtain ⟨n, hn, hund, hna⟩ := hsealed.1 ha
      have hva : visible bd.beginAddress (out.index.slotAddress b t) = n.addr := by
        have := (h.range n hn).1
        rw [hslot', visible, if_neg (by omega), hna]
      by_cases hex : ∃ r ∈ chainRecords hashKey snap log b t, isUndone bd true r = false
      · obtain ⟨k, hk, hkk, hkmax⟩ := exists_highest hex
        have := hkept k ⟨hk, hkk, hkmax⟩
        rw [eq_of_addr_eq h.sorted hn (hmem hk) (hva.symm.trans this), hkk] at hund
        cases hund
      · push Not at hex
        have h0 := hnone fun r hr => by simpa using hex r hr
        exact h.valid n hn (hva.symm.trans h0)

/-! ### A window with a live and an undone record -/

/-- One chain: a record below the start, a live record that opens the window, and above it a record
of the next version. -/
def windowLog : List LogRecord :=
  [⟨64, 0, [1], [10], false, false, false⟩, ⟨128, 64, [1], [11], false, false, false⟩,
    ⟨192, 128, [1], [12], false, true, false⟩]

def windowBounds : Bounds := ⟨64, 128, 256, by decide, by decide, by decide⟩

/-- Every key hashes to bucket 0 and tag 5. -/
def windowHash : List UInt8 → Nat := fun _ => 5 * 2 ^ 49

/-- A snapshot whose only slot holds the given address. -/
def windowSnapshot (head : Nat) : HashIndex :=
  ⟨0, fun b => if b = 0 then [new head 5 false] else [], 0⟩

lemma chainRecords_window (head b t : Nat) :
    chainRecords windowHash (windowSnapshot head) windowLog b t =
      if b = 0 ∧ t = 5 then windowLog else [] := by
  have hin : ∀ r ∈ windowLog, (InSlot windowHash (windowSnapshot head) b t r ↔ b = 0 ∧ t = 5) := by
    intro r hr
    have hkey : r.key ≠ [] := by
      simp only [windowLog, mem_cons, not_mem_nil, or_false] at hr
      rcases hr with rfl | rfl | rfl <;> simp
    have hidx : (windowSnapshot head).bucketIdx (windowHash r.key) = 0 := by
      simp [bucketIdx, mask, size, windowSnapshot]
    have htag : tagFromHash (windowHash r.key) = 5 := by
      unfold windowHash
      decide
    simp only [InSlot, hidx, htag, ne_eq, hkey, not_false_eq_true, true_and]
    exact and_congr eq_comm eq_comm
  split_ifs with h
  · exact filter_eq_self.2 fun r hr => by simpa using (hin r hr).2 h
  · exact filter_eq_nil_iff.2 fun r hr => by simpa using fun hs => h ((hin r hr).1 hs)

lemma cutLog_window {head : Nat} (hh : head = 128 ∨ head = 192) :
    CutLog windowHash windowBounds (windowSnapshot head) windowLog where
  sorted := by decide
  range := by decide
  valid := by decide
  floor := by decide
  links b t := by
    rw [chainRecords_window]
    split_ifs
    · simp [windowLog]
    · simp
  first b t := by
    rw [chainRecords_window]
    split_ifs
    · simp [windowLog, windowBounds]
    · simp
  unique b := by
    simp only [windowSnapshot, TagUnique]
    split_ifs <;> simp
  heads b t ht := by
    rw [chainRecords_window]
    by_cases hb : b = 0
    · by_cases h5 : t = 5
      · subst hb h5
        right
        rcases hh with rfl | rfl
        · exact ⟨windowLog[1], by decide, by decide, by decide⟩
        · exact ⟨windowLog[2], by decide, by decide, by decide⟩
      · rw [if_neg (by simp [h5])]
        refine .inl ⟨.inl ?_, by simp⟩
        have hne : matchesTag (new head 5 false) t = false := by
          by_contra hm
          have hhead : head % addressSpace ≠ 0 := by rcases hh with rfl | rfl <;> decide
          have := (matchesTag_new hhead).1 (by simpa using hm)
          rw [Nat.mod_eq_of_lt ht] at this
          exact h5 this.symm
        simp [slotAddress, windowSnapshot, hb, headWord, hne]
    · rw [if_neg (by simp [hb])]
      exact .inl ⟨.inl (by simp [slotAddress, windowSnapshot, hb, headWord]), by simp⟩

/-- The snapshot already holds the undone record: after recovery the slot still does. -/
theorem exists_slot_left_on_sealed_record :
    ∃ out, CutLog windowHash windowBounds (windowSnapshot 192) windowLog ∧
      runRecoveryKernel windowHash windowBounds true (fun _ => true) windowLog
        (readSnapshot (windowSnapshot 192) (some windowBounds.tail)) = .ok out ∧
      out.index.slotAddress 0 5 = 192 ∧ 192 ∈ out.undoSeals ∧
      ¬ SlotRecovered windowBounds
        (chainRecords windowHash (windowSnapshot 192) windowLog 0 5) out 0 5 := by
  refine ⟨_, cutLog_window (.inr rfl), rfl, by decide, by decide, fun h => ?_⟩
  exact h.2 192 (by decide) (by decide)

/-- With the live record in the snapshot's slot the same window is recovered. -/
theorem slotRecovered_window :
    ∃ out, runRecoveryKernel windowHash windowBounds true (fun _ => true) windowLog
        (readSnapshot (windowSnapshot 128) (some windowBounds.tail)) = .ok out ∧
      SlotRecovered windowBounds
        (chainRecords windowHash (windowSnapshot 128) windowLog 0 5) out 0 5 := by
  refine ⟨_, rfl, (slotRecovered_iff (cutLog_window (.inl rfl)) rfl 0 5 (by decide)).2 ?_⟩
  refine ⟨?_, fun _ k hk => ?_⟩
  · rintro ⟨n, hn, hund, hna, -⟩
    revert n
    decide
  · exact (by decide : ∀ r ∈ windowLog, r.isSealed = false) k hk.1

end Wedb.Recovery
