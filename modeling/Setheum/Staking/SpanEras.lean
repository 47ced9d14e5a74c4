import Setheum.Staking.SpanRecords

/-!
# The eras of a span

An offence that falls in the ongoing span ends it, and a span that has ended keeps its eras. So if
no era is reported before it starts, the comparisons with the record of a span are those of the
eras it covers, whatever was ended or pruned in between.

* `SlashingSpans.iter_apart` — no two spans have an index or an era in common.
* `ErasSound` — the comparisons of every span are those of its eras.
* `chargesOfRun_eq` — what the reports of a run return as charged is what was compared.
* `slashed_of_run` — what every run of reports charges for each span that is kept.
-/

set_option autoImplicit false

namespace Setheum.Staking

open StorageMap

variable {A : Type} [DecidableEq A] {p : Perbill} {s s' : SlashState A}

/-! ## Spans are apart -/

namespace SlashingSpan

theorem containsEra_none {index start era : ℕ} :
    (SlashingSpan.mk index start none).containsEra era = true ↔ start ≤ era := by
  simp [containsEra]

theorem containsEra_some {index start length era : ℕ} :
    (SlashingSpan.mk index start (some length)).containsEra era = true ↔
      start ≤ era ∧ era < start + length := by
  simp [containsEra]

/-- Two spans with neither index nor era in common. -/
def Apart (a b : SlashingSpan) : Prop :=
  a.index ≠ b.index ∧ ∀ era, ¬ (a.containsEra era = true ∧ b.containsEra era = true)

instance : Std.Symm Apart where
  symm _ _ h := ⟨h.1.symm, fun era hera => h.2 era ⟨hera.2, hera.1⟩⟩

end SlashingSpan

namespace SlashingSpans

/-- No span has run out of indices or of eras before it. -/
structure Fits (spans : SlashingSpans) : Prop where
  prior_le : spans.prior.length ≤ spans.spanIndex
  sum_le : spans.prior.sum ≤ spans.lastStart

/-- A prior span has a lower index and ends before the span after it starts. -/
theorem of_mem_priorSpans {lastStart index : ℕ} {prior : List ℕ} (hlength : prior.length ≤ index)
    (hsum : prior.sum ≤ lastStart) {span : SlashingSpan}
    (h : span ∈ priorSpans lastStart index prior) :
    span.index < index ∧ ∀ era, span.containsEra era = true → era < lastStart := by
  induction prior generalizing lastStart index with
  | nil => cases h
  | cons length prior ih =>
      rw [List.length_cons] at hlength
      rw [List.sum_cons] at hsum
      rcases List.mem_cons.mp h with rfl | h
      · refine ⟨show index - 1 < index by omega, fun era hera => ?_⟩
        have hcovers := SlashingSpan.containsEra_some.mp hera
        omega
      · obtain ⟨hindex, heras⟩ := ih (by omega) (by omega) h
        refine ⟨by omega, fun era hera => ?_⟩
        have hera' := heras era hera
        omega

theorem priorSpans_apart {lastStart index : ℕ} {prior : List ℕ} (hlength : prior.length ≤ index)
    (hsum : prior.sum ≤ lastStart) :
    (priorSpans lastStart index prior).Pairwise SlashingSpan.Apart := by
  induction prior generalizing lastStart index with
  | nil => exact List.Pairwise.nil
  | cons length prior ih =>
      rw [List.length_cons] at hlength
      rw [List.sum_cons] at hsum
      refine List.Pairwise.cons (fun span hspan => ?_) (ih (by omega) (by omega))
      obtain ⟨hindex, heras⟩ := of_mem_priorSpans (by omega) (by omega) hspan
      refine ⟨(Nat.ne_of_lt hindex).symm, fun era hera => ?_⟩
      have hstart := SlashingSpan.containsEra_some.mp hera.1
      have hbefore := heras era hera.2
      omega

/-- **No two spans have an index or an era in common.** -/
theorem iter_apart {spans : SlashingSpans} (h : spans.Fits) :
    spans.iter.Pairwise SlashingSpan.Apart := by
  refine List.Pairwise.cons (fun span hspan => ?_) (priorSpans_apart h.prior_le h.sum_le)
  obtain ⟨hindex, heras⟩ := of_mem_priorSpans h.prior_le h.sum_le hspan
  refine ⟨(Nat.ne_of_lt hindex).symm, fun era hera => ?_⟩
  have hstart := SlashingSpan.containsEra_none.mp hera.1
  have hbefore := heras era hera.2
  omega

theorem Fits.eq_of_index {spans : SlashingSpans} (h : spans.Fits) {a b : SlashingSpan}
    (ha : a ∈ spans.iter) (hb : b ∈ spans.iter) (hindex : a.index = b.index) : a = b := by
  by_contra hne
  exact ((iter_apart h).forall ha hb hne).1 hindex

theorem Fits.eq_of_era {spans : SlashingSpans} (h : spans.Fits) {a b : SlashingSpan} {era : ℕ}
    (ha : a ∈ spans.iter) (hb : b ∈ spans.iter) (haera : a.containsEra era = true)
    (hbera : b.containsEra era = true) : a = b := by
  by_contra hne
  exact ((iter_apart h).forall ha hb hne).2 era ⟨haera, hbera⟩

theorem mem_iter_ongoing (spans : SlashingSpans) :
    ⟨spans.spanIndex, spans.lastStart, none⟩ ∈ spans.iter := List.mem_cons_self

theorem priorSpans_take (lastStart index : ℕ) (prior : List ℕ) (o : ℕ) :
    priorSpans lastStart index (prior.take o) = (priorSpans lastStart index prior).take o := by
  induction prior generalizing lastStart index o with
  | nil => simp [priorSpans]
  | cons length prior ih =>
      cases o with
      | zero => rfl
      | succ o => exact congrArg (_ :: ·) (ih _ _ o)

/-- A window that starts after the ongoing span leaves no prior spans. -/
theorem prune_prior_of_le {spans : SlashingSpans} (h : spans.Fits) {windowStart : ℕ}
    (hle : spans.lastStart ≤ windowStart) : (spans.prune windowStart).1.prior = [] := by
  unfold prune
  cases hprior : spans.prior with
  | nil => simp [iter, hprior, priorSpans]
  | cons length prior =>
      have hsum := h.sum_le
      rw [hprior, List.sum_cons] at hsum
      have hends : spans.lastStart - length + length ≤ windowStart := by omega
      simp [iter, hprior, priorSpans, List.findIdx?_cons, hends]

/-- What pruning keeps: some of the prior spans, all of them apart from the window. -/
theorem prune_fst (spans : SlashingSpans) (windowStart : ℕ) :
    ∃ o, (spans.prune windowStart).1 = { spans with
      prior := spans.prior.take o, lastStart := max spans.lastStart windowStart } := by
  rcases spans.prune_cases windowStart with ⟨o, -, hprune⟩ | hprune
  · exact ⟨o, congrArg Prod.fst hprune⟩
  · refine ⟨spans.prior.length, (congrArg Prod.fst hprune).trans ?_⟩
    rw [List.take_length]

end SlashingSpans

/-! ## The comparisons of a span are those of its eras -/

/-- Every comparison of a stash was with the span that covers its era, if one is kept. -/
structure Covered (s : SlashState A) (stash : A) (spans : SlashingSpans) : Prop where
  fits : spans.Fits
  known : ∀ c ∈ s.comparisons, c.stash = stash → ∀ k, c.span = some k → k ≤ spans.spanIndex
  covers : ∀ c ∈ s.comparisons, c.stash = stash → ∀ span ∈ spans.iter,
    (c.span = some span.index ↔ span.containsEra c.era = true)

/-- All eras compared for a stash are before `n`. -/
def Before (s : SlashState A) (stash : A) (n : ℕ) : Prop :=
  ∀ c ∈ s.comparisons, c.stash = stash → c.era < n

omit [DecidableEq A] in
theorem Before.mono {stash : A} {m n : ℕ} (h : Before s stash m) (hmn : m ≤ n) :
    Before s stash n := fun c hc hstash => Nat.lt_of_lt_of_le (h c hc hstash) hmn

omit [DecidableEq A] in
/-- Ending the ongoing span fixes the eras it covers. -/
theorem Covered.endSpan {stash : A} {spans : SlashingSpans} {now : ℕ} (h : Covered s stash spans)
    (hbefore : Before s stash (max spans.lastStart (now + 1))) :
    Covered s stash (spans.endSpan now).1 ∧ Before s stash (spans.endSpan now).1.lastStart := by
  unfold SlashingSpans.endSpan
  dsimp only
  split
  · rename_i hle
    rw [max_eq_left hle] at hbefore
    exact ⟨h, hbefore⟩
  · rename_i hlt
    rw [max_eq_right (Nat.le_of_not_le hlt)] at hbefore
    have hstart : now + 1 - (now + 1 - spans.lastStart) = spans.lastStart := by omega
    have hlength := h.fits.prior_le
    have hsum := h.fits.sum_le
    refine ⟨⟨⟨?_, ?_⟩, fun c hc hstash k hk => ?_, fun c hc hstash span hspan => ?_⟩, hbefore⟩
    · rw [List.length_cons]
      exact Nat.add_le_add_right hlength 1
    · rw [List.sum_cons]
      dsimp only
      omega
    · exact (h.known c hc hstash k hk).trans (Nat.le_succ _)
    · rcases List.mem_cons.mp hspan with rfl | hspan
      · -- no comparison knows the new span, and no era compared so far reaches it
        refine iff_of_false (fun hk => ?_) fun hera => ?_
        · have hknown := h.known c hc hstash _ hk
          dsimp only at hknown
          omega
        · have hcovers : now + 1 ≤ c.era := SlashingSpan.containsEra_none.mp hera
          have hera' := hbefore c hc hstash
          omega
      · rw [SlashingSpans.priorSpans, hstart, Nat.add_sub_cancel] at hspan
        rcases List.mem_cons.mp hspan with rfl | hspan
        · have hongoing := h.covers c hc hstash _ spans.mem_iter_ongoing
          rw [SlashingSpan.containsEra_none] at hongoing
          rw [SlashingSpan.containsEra_some]
          refine hongoing.trans ⟨fun hera => ⟨hera, ?_⟩, fun hera => hera.1⟩
          have hera' := hbefore c hc hstash
          omega
        · exact h.covers c hc hstash span (List.mem_cons_of_mem _ hspan)

omit [DecidableEq A] in
/-- Pruning keeps the eras of the spans it keeps. It moves the start of the ongoing span only past
eras that were not compared. -/
theorem Covered.prune {stash : A} {spans : SlashingSpans} (h : Covered s stash spans)
    (hbefore : Before s stash spans.lastStart) (windowStart : ℕ) :
    Covered s stash (spans.prune windowStart).1 ∧
      Before s stash (spans.prune windowStart).1.lastStart := by
  have hprior : spans.lastStart ≤ windowStart → (spans.prune windowStart).1.prior = [] :=
    SlashingSpans.prune_prior_of_le h.fits
  obtain ⟨o, hprune⟩ := spans.prune_fst windowStart
  rw [hprune] at hprior ⊢
  have hlength : (spans.prior.take o).length ≤ spans.spanIndex :=
    (List.length_take_le' _ _).trans h.fits.prior_le
  have hsum : (spans.prior.take o).sum ≤ max spans.lastStart windowStart :=
    ((List.take_sublist o _).sum_le_sum fun _ _ => Nat.zero_le _).trans
      (h.fits.sum_le.trans (Nat.le_max_left _ _))
  refine ⟨⟨⟨hlength, hsum⟩, h.known, fun c hc hstash span hspan => ?_⟩,
    hbefore.mono (Nat.le_max_left _ _)⟩
  have hongoing := h.covers c hc hstash _ spans.mem_iter_ongoing
  rcases Nat.le_total windowStart spans.lastStart with hle | hle
  · rw [max_eq_left hle] at hspan
    refine h.covers c hc hstash span ?_
    rcases List.mem_cons.mp hspan with rfl | hspan
    · exact spans.mem_iter_ongoing
    · rw [SlashingSpans.priorSpans_take] at hspan
      exact List.mem_cons_of_mem _ (List.mem_of_mem_take hspan)
  · have hnone := hprior hle
    dsimp only at hnone
    rw [hnone] at hspan
    cases List.mem_singleton.mp hspan
    -- the ongoing span starts later now, but no era at or after its start was compared
    have hera := hbefore c hc hstash
    rw [SlashingSpan.containsEra_none] at hongoing ⊢
    dsimp only
    rw [hongoing]
    omega

theorem Compared.iter_eq {i i' : InspectingSpans A} {slashEra slash charge : ℕ}
    {target : Option ℕ} (h : Compared i slashEra slash s charge target i' s') :
    i'.spans.iter = i.spans.iter := by
  unfold SlashingSpans.iter
  rw [h.spanIndex, h.lastStart, h.prior]

/-- A comparison has as its target the span that covers the era. -/
theorem Compared.target_iff {i i' : InspectingSpans A} {slashEra slash charge : ℕ}
    {target : Option ℕ} (h : Compared i slashEra slash s charge target i' s')
    (hfits : i.spans.Fits) {span : SlashingSpan} (hspan : span ∈ i.spans.iter) :
    target = some span.index ↔ span.containsEra slashEra = true := by
  rw [h.target_eq]
  unfold InspectingSpans.eraSpan
  cases hfind : i.spans.iter.find? fun span => span.containsEra slashEra with
  | none => exact iff_of_false nofun (List.find?_eq_none.mp hfind span hspan)
  | some found =>
      have hmem := List.mem_of_find?_eq_some hfind
      have hfound : found.containsEra slashEra = true :=
        List.find?_some (p := fun span : SlashingSpan => span.containsEra slashEra) hfind
      constructor
      · intro hindex
        rw [← hfits.eq_of_index hmem hspan (Option.some.inj hindex)]
        exact hfound
      · intro hera
        rw [hfits.eq_of_era hspan hmem hera hfound]
        rfl

theorem Compared.known {i i' : InspectingSpans A} {slashEra slash charge : ℕ}
    {target : Option ℕ} (h : Compared i slashEra slash s charge target i' s')
    (hfits : i.spans.Fits) {k : ℕ} (hk : target = some k) : k ≤ i.spans.spanIndex := by
  rw [h.target_eq] at hk
  obtain ⟨span, hfind, rfl⟩ := Option.map_eq_some_iff.mp hk
  rcases List.mem_cons.mp (List.mem_of_find?_eq_some hfind) with rfl | hprior
  · exact Nat.le_refl _
  · exact Nat.le_of_lt (SlashingSpans.of_mem_priorSpans hfits.prior_le hfits.sum_le hprior).1

/-- A comparison was with the span that covers its era. -/
theorem Covered.compared {i i' : InspectingSpans A} {slashEra slash charge : ℕ}
    {target : Option ℕ} (h : Covered s i.stash i.spans)
    (hcompared : Compared i slashEra slash s charge target i' s') :
    Covered s' i'.stash i'.spans := by
  have hfits : i'.spans.Fits := by
    refine ⟨?_, ?_⟩
    · rw [hcompared.prior, hcompared.spanIndex]
      exact h.fits.prior_le
    · rw [hcompared.prior, hcompared.lastStart]
      exact h.fits.sum_le
  refine ⟨hfits, fun c hc hstash k hk => ?_, fun c hc hstash span hspan => ?_⟩
  · rw [hcompared.spanIndex]
    rw [hcompared.comparisons] at hc
    rw [hcompared.stash] at hstash
    rcases List.mem_append.mp hc with hc | hc
    · exact h.known c hc hstash k hk
    · cases List.mem_singleton.mp hc
      exact hcompared.known h.fits hk
  · rw [hcompared.iter_eq] at hspan
    rw [hcompared.comparisons] at hc
    rw [hcompared.stash] at hstash
    rcases List.mem_append.mp hc with hc | hc
    · exact h.covers c hc hstash span hspan
    · cases List.mem_singleton.mp hc
      exact hcompared.target_iff h.fits hspan

/-- The eras compared stay before the ongoing span, or before the one that starts after `now` if
the offence is within the ongoing span. -/
theorem Before.compared {i i' : InspectingSpans A} {slashEra slash charge now : ℕ}
    {target : Option ℕ} (h : Before s i.stash i.spans.lastStart) (hfits : i.spans.Fits)
    (hera : slashEra ≤ now) (hcompared : Compared i slashEra slash s charge target i' s') :
    Before s' i'.stash (max i'.spans.lastStart (now + 1)) ∧
      (target ≠ some i'.spans.spanIndex → Before s' i'.stash i'.spans.lastStart) := by
  have hongoing := hcompared.target_iff hfits i.spans.mem_iter_ongoing
  rw [SlashingSpan.containsEra_none] at hongoing
  rw [hcompared.stash, hcompared.lastStart, hcompared.spanIndex]
  refine ⟨fun c hc hstash => ?_, fun htarget c hc hstash => ?_⟩
  · rw [hcompared.comparisons] at hc
    rcases List.mem_append.mp hc with hc | hc
    · have hlt := h c hc hstash
      omega
    · cases List.mem_singleton.mp hc
      show slashEra < _
      omega
  · rw [hcompared.comparisons] at hc
    rcases List.mem_append.mp hc with hc | hc
    · exact h c hc hstash
    · cases List.mem_singleton.mp hc
      exact Nat.lt_of_not_le fun hle => htarget (hongoing.mpr hle)

/-! ## Every inspection keeps the eras -/

/-- The comparisons of every span of every stash are those of the eras it covers, and no era at or
after the start of an ongoing span was compared. -/
def ErasSound (s : SlashState A) : Prop :=
  ∀ stash, Covered s stash (currentSpans s stash) ∧
    Before s stash (currentSpans s stash).lastStart

/-- The same while the spans of one stash are in hand. They are those stored unless they are
dirty. -/
structure Inspected (s : SlashState A) (i : InspectingSpans A) (n : ℕ) : Prop where
  others : ∀ stash, stash ≠ i.stash → Covered s stash (currentSpans s stash) ∧
    Before s stash (currentSpans s stash).lastStart
  covered : Covered s i.stash i.spans
  before : Before s i.stash n
  stored : i.dirty = false → currentSpans s i.stash = i.spans

omit [DecidableEq A] in
/-- The comparisons of other stashes do not matter. -/
theorem Covered.of_mem {stash : A} {spans : SlashingSpans} (h : Covered s stash spans)
    (hmem : ∀ c ∈ s'.comparisons, c.stash = stash → c ∈ s.comparisons) :
    Covered s' stash spans where
  fits := h.fits
  known c hc hstash := h.known c (hmem c hc hstash) hstash
  covers c hc hstash := h.covers c (hmem c hc hstash) hstash

omit [DecidableEq A] in
theorem Before.of_mem {stash : A} {n : ℕ} (h : Before s stash n)
    (hmem : ∀ c ∈ s'.comparisons, c.stash = stash → c ∈ s.comparisons) : Before s' stash n :=
  fun c hc hstash => h c (hmem c hc hstash) hstash

omit [DecidableEq A] in
theorem Covered.congr {stash : A} {spans : SlashingSpans} (h : Covered s stash spans)
    (hcomparisons : s'.comparisons = s.comparisons) : Covered s' stash spans :=
  h.of_mem fun _ hc _ => hcomparisons ▸ hc

omit [DecidableEq A] in
theorem Before.congr {stash : A} {n : ℕ} (h : Before s stash n)
    (hcomparisons : s'.comparisons = s.comparisons) : Before s' stash n :=
  h.of_mem fun _ hc _ => hcomparisons ▸ hc

omit [DecidableEq A] in
theorem currentSpans_congr (hsame : SameSlashing s s') (stash : A) :
    currentSpans s' stash = currentSpans s stash := by
  unfold currentSpans
  rw [hsame.slashingSpans]

omit [DecidableEq A] in
theorem ErasSound.congr (h : ErasSound s) (hsame : SameSlashing s s') : ErasSound s' := by
  intro stash
  rw [currentSpans_congr hsame]
  exact ⟨(h stash).1.congr hsame.comparisons, (h stash).2.congr hsame.comparisons⟩

omit [DecidableEq A] in
theorem Inspected.congr {i : InspectingSpans A} {n : ℕ} (h : Inspected s i n)
    (hsame : SameSlashing s s') : Inspected s' i n where
  others stash hne := by
    rw [currentSpans_congr hsame]
    exact ⟨(h.others stash hne).1.congr hsame.comparisons,
      (h.others stash hne).2.congr hsame.comparisons⟩
  covered := h.covered.congr hsame.comparisons
  before := h.before.congr hsame.comparisons
  stored hclean := (currentSpans_congr hsame i.stash).trans (h.stored hclean)

/-- New spans are those of a stash that was never compared. -/
theorem ErasSound.fetchSpans (h : ErasSound s) (stash : A) (windowStart paidOut slashOf : ℕ) :
    let fetched := Staking.fetchSpans stash windowStart paidOut slashOf p s
    Inspected fetched.2 fetched.1 fetched.1.spans.lastStart := by
  intro fetched
  obtain ⟨hi, hs⟩ := fetchSpans_cases (p := p) stash windowStart paidOut slashOf s
  have hstash := h stash
  unfold currentSpans at hstash
  rw [show fetched.1 = _ from hi, show fetched.2 = _ from hs]
  cases hspans : s.staking.slashingSpans stash with
  | some spans =>
      rw [hspans] at hstash
      refine ⟨fun stash' _ => h stash', hstash.1, hstash.2, fun _ => ?_⟩
      unfold currentSpans
      rw [hspans]
      rfl
  | none =>
      rw [hspans] at hstash
      have hnever : ∀ c ∈ s.comparisons, c.stash ≠ stash := fun c hc hc' =>
        Nat.not_lt_zero _ (hstash.2 c hc hc')
      refine ⟨fun stash' hne => ?_, ⟨⟨Nat.le_refl 0, Nat.zero_le _⟩, ?_, ?_⟩, ?_, fun _ => ?_⟩
      · rw [currentSpans_setSpans, if_neg hne]
        exact ⟨(h stash').1.congr rfl, (h stash').2.congr rfl⟩
      · exact fun c hc hc' => absurd hc' (hnever c hc)
      · exact fun c hc hc' => absurd hc' (hnever c hc)
      · exact fun c hc hc' => absurd hc' (hnever c hc)
      · rw [currentSpans_setSpans, if_pos rfl]
        rfl

/-- The spans that dirty ones are written back as are pruned. -/
theorem currentSpans_drop {i : InspectingSpans A} (s : SlashState A) (hdirty : i.dirty = true)
    (stash : A) : currentSpans (i.drop s) stash =
      if stash = i.stash then (i.spans.prune i.windowStart).1 else currentSpans s stash := by
  unfold InspectingSpans.drop
  rw [if_pos hdirty]
  dsimp only
  rw [currentSpans_setSpans]
  split
  · rfl
  · split <;> rfl

/-- Writing the spans back. -/
theorem Inspected.drop {i : InspectingSpans A} (h : Inspected s i i.spans.lastStart) :
    ErasSound (i.drop s) := by
  intro stash
  have hcomparisons := drop_comparisons i s
  cases hdirty : i.dirty with
  | false =>
      have hsame : i.drop s = s := if_neg (hdirty ▸ Bool.false_ne_true)
      rw [hsame]
      by_cases hstash : stash = i.stash
      · rw [hstash, h.stored hdirty]
        exact ⟨h.covered, h.before⟩
      · exact h.others stash hstash
  | true =>
      rw [currentSpans_drop s hdirty]
      by_cases hstash : stash = i.stash
      · rw [if_pos hstash, hstash]
        obtain ⟨hcovered, hbefore⟩ := h.covered.prune h.before i.windowStart
        exact ⟨hcovered.congr hcomparisons, hbefore.congr hcomparisons⟩
      · rw [if_neg hstash]
        obtain ⟨hcovered, hbefore⟩ := h.others stash hstash
        exact ⟨hcovered.congr hcomparisons, hbefore.congr hcomparisons⟩

/-- Ending the ongoing span, with what else happens then, and writing the spans back. -/
theorem Inspected.dropEnded {i : InspectingSpans A} {now : ℕ}
    (h : Inspected s i (max i.spans.lastStart (now + 1))) (hsame : SameSlashing s s') :
    ErasSound ((i.endSpan now).drop s') := by
  have hs' := h.congr hsame
  obtain ⟨hcovered, hbefore⟩ := hs'.covered.endSpan hs'.before
  refine Inspected.drop ⟨hs'.others, hcovered, hbefore, fun hclean => ?_⟩
  obtain ⟨hended, hdirty⟩ := Bool.or_eq_false_iff.mp hclean
  have hspans : (i.spans.endSpan now).1 = i.spans := by
    unfold SlashingSpans.endSpan at hended ⊢
    dsimp only at hended ⊢
    split at hended
    · rename_i hle
      rw [if_pos hle]
    · cases hended
  exact (hs'.stored hdirty).trans hspans.symm

theorem Inspected.compared {i i' : InspectingSpans A} {slashEra slash charge now : ℕ}
    {target : Option ℕ} (h : Inspected s i i.spans.lastStart) (hera : slashEra ≤ now)
    (hcompared : Compared i slashEra slash s charge target i' s') :
    Inspected s' i' (max i'.spans.lastStart (now + 1)) ∧
      (target ≠ some i'.spans.spanIndex → Inspected s' i' i'.spans.lastStart) := by
  have hspans : ∀ stash, currentSpans s' stash = currentSpans s stash := fun stash => by
    unfold currentSpans
    rw [hcompared.staking]
  have hothers : ∀ stash, stash ≠ i'.stash → Covered s' stash (currentSpans s' stash) ∧
      Before s' stash (currentSpans s' stash).lastStart := by
    intro stash hne
    rw [hcompared.stash] at hne
    have hmem : ∀ c ∈ s'.comparisons, c.stash = stash → c ∈ s.comparisons := by
      intro c hc hstash
      rw [hcompared.comparisons] at hc
      rcases List.mem_append.mp hc with hc | hc
      · exact hc
      · cases List.mem_singleton.mp hc
        exact absurd hstash.symm hne
    rw [hspans]
    exact ⟨(h.others stash hne).1.of_mem hmem, (h.others stash hne).2.of_mem hmem⟩
  have hstored : i'.dirty = false → currentSpans s' i'.stash = i'.spans := by
    intro hclean
    obtain ⟨hclean', hsame⟩ := hcompared.clean hclean
    rw [hspans, hcompared.stash, hsame]
    exact h.stored hclean'
  obtain ⟨hbefore, hbefore'⟩ := h.before.compared h.covered.fits hera hcompared
  have hcovered := h.covered.compared hcompared
  exact ⟨⟨hothers, hcovered, hbefore, hstored⟩, fun htarget =>
    ⟨hothers, hcovered, hbefore' htarget, hstored⟩⟩

theorem ErasSound.slashSpan (h : ErasSound s) {params : SlashParams A}
    (hera : params.slashEra ≤ params.now) {recent : SlashState A → SlashState A}
    (hrecent : ∀ s, SameSlashing s (recent s)) (stash : A) (slash rewardPayout : ℕ) :
    ErasSound (slashSpan stash params slash rewardPayout recent s).2.2 := by
  have hfetched := h.fetchSpans (p := params.rewardProportion) stash params.windowStart
    rewardPayout 0
  obtain ⟨charge, target, i', s', hcompared, hslash⟩ :=
    slashSpan_cases stash params slash rewardPayout recent s
  obtain ⟨hheld, hheld'⟩ := hfetched.compared hera hcompared
  rw [hslash]
  dsimp only
  split
  · exact hheld.dropEnded (hrecent _)
  · rename_i htarget
    exact (hheld' htarget).drop

theorem ErasSound.kickOutIfRecent (h : ErasSound s) (params : SlashParams A) (disabled : Bool) :
    ErasSound (kickOutIfRecent params disabled s) := by
  have hfetched := h.fetchSpans (p := params.rewardProportion) params.stash params.windowStart 0 0
  unfold Staking.kickOutIfRecent
  dsimp only
  split
  · refine Inspected.dropEnded ⟨hfetched.others, hfetched.covered, ?_, hfetched.stored⟩
      (sameSlashing_chillAndDisable _ _ _)
    exact hfetched.before.mono (Nat.le_max_left _ _)
  · exact hfetched.drop

theorem ErasSound.computeSlash (h : ErasSound s) {params : SlashParams A}
    (hera : params.slashEra ≤ params.now) (disabled : Bool) :
    ErasSound (computeSlash params disabled s).2 :=
  computeSlash_preserves (fun _ _ hs => hs.congr ⟨rfl, rfl, rfl⟩)
    (fun stash slash rewardPayout _ hrecent hs =>
      hs.slashSpan hera hrecent.sameSlashing stash slash rewardPayout)
    (fun hs => hs.kickOutIfRecent params disabled) h

/-! ## Runs -/

theorem NeverSlashed.recordsSound (h : NeverSlashed s) : RecordsSound p s := by
  intro stash i _
  unfold RecordAt recordOf comparisonsOf
  rw [h.spanSlash, h.comparisons]
  exact recordSound_nil

omit [DecidableEq A] in
theorem NeverSlashed.erasSound (h : NeverSlashed s) : ErasSound s := by
  intro stash
  have hnone : ∀ c, c ∉ s.comparisons := by
    rw [h.comparisons]
    exact fun _ => List.not_mem_nil
  unfold currentSpans
  rw [h.slashingSpans]
  exact ⟨⟨⟨Nat.le_refl 0, Nat.le_refl 0⟩, fun c hc => absurd hc (hnone c),
    fun c hc => absurd hc (hnone c)⟩, fun c hc => absurd hc (hnone c)⟩

/-- What is no report leaves the spans, their records and the comparisons alone. -/
theorem slashStep_cases (s : SlashState A) (act : SlashAct A) :
    (∃ params disabled, act = .report params disabled) ∨ SameSlashing s (slashStep s act) := by
  cases act with
  | report params disabled => exact .inl ⟨params, disabled, rfl⟩
  | clearEraMetadata obsoleteEra => exact .inr ⟨rfl, rfl, rfl⟩
  | other f hspans => exact .inr ⟨hspans s.staking, rfl, rfl⟩

/-- What is charged by the slash that a report returns, if it does. -/
def SlashAct.charges (s : SlashState A) : SlashAct A → List (Charge A)
  | .report params disabled =>
      (computeSlash params disabled s).1.elim [] (·.charges params.slashEra)
  | _ => []

/-- What is charged by the slashes that the reports of a run return. -/
def chargesOfRun : SlashState A → List (SlashAct A) → List (Charge A)
  | _, [] => []
  | s, act :: acts => act.charges s ++ chargesOfRun (slashStep s act) acts

/-- The total that is charged to a stash for the eras of a span. -/
def chargedFor (charges : List (Charge A)) (stash : A) (span : SlashingSpan) : ℕ :=
  ((charges.filter fun c => c.stash = stash ∧ span.containsEra c.era = true).map
    Charge.amount).sum

theorem SlashAct.charges_eq (s : SlashState A) (act : SlashAct A) :
    ∃ cs : List (Comparison A), (slashStep s act).comparisons = s.comparisons ++ cs ∧
      act.charges s = cs.map Comparison.toCharge := by
  cases act with
  | report params disabled => exact computeSlash_charges params disabled s
  | clearEraMetadata obsoleteEra => exact ⟨[], (List.append_nil _).symm, rfl⟩
  | other f hspans => exact ⟨[], (List.append_nil _).symm, rfl⟩

/-- **The reports of a run return as charged what was compared**, in the same order. -/
theorem chargesOfRun_eq (s : SlashState A) (acts : List (SlashAct A)) :
    (Machine.run slashStep s acts).comparisons.map Comparison.toCharge
      = s.comparisons.map Comparison.toCharge ++ chargesOfRun s acts := by
  induction acts generalizing s with
  | nil => exact (List.append_nil _).symm
  | cons act acts ih =>
      obtain ⟨cs, hcomparisons, hcharges⟩ := act.charges_eq s
      rw [Machine.run_cons, ih, hcomparisons, chargesOfRun, hcharges, List.map_append,
        List.append_assoc]

/-- The records of the spans stay sound while reports pay out one proportion. -/
theorem NeverSlashed.recordsSound_run (hs : NeverSlashed s) {acts : List (SlashAct A)}
    (hp : ∀ act ∈ acts, act.Meets fun params => params.rewardProportion = p) :
    RecordsSound p (Machine.run slashStep s acts) := by
  refine Machine.run_invariant (fun t act ht hact => ?_) hs.recordsSound
    (Machine.StepsMeet.of_forall hp s)
  rcases slashStep_cases t act with ⟨params, disabled, rfl⟩ | hsame
  · exact ht.computeSlash hact disabled
  · exact ht.congr hsame

/-- The spans keep the eras of their comparisons while no era is reported before it starts. -/
theorem NeverSlashed.erasSound_run (hs : NeverSlashed s) {acts : List (SlashAct A)}
    (hera : ∀ act ∈ acts, act.Meets fun params => params.slashEra ≤ params.now) :
    ErasSound (Machine.run slashStep s acts) := by
  refine Machine.run_invariant (fun t act ht hact => ?_) hs.erasSound
    (Machine.StepsMeet.of_forall hera s)
  rcases slashStep_cases t act with ⟨params, disabled, rfl⟩ | hsame
  · exact ht.computeSlash hact disabled
  · exact ht.congr hsame

/-- **After every run of reports, in whatever order their eras come, the slashes that the reports
returned charge for each span that is kept of a stash as much as its record says, which is the
greatest era slash compared with it, and the reward proportion of it at most was paid out.** Each
comparison is charged for by the slash that its report returned; and if no era is reported before it
starts, the comparisons of a span are those of the eras it covers. -/
theorem slashed_of_run (hs : NeverSlashed s) {acts : List (SlashAct A)}
    (hp : ∀ act ∈ acts, act.Meets fun params => params.rewardProportion = p) {stash : A}
    {spans : SlashingSpans}
    (hspans : (Machine.run slashStep s acts).staking.slashingSpans stash = some spans)
    {span : SlashingSpan} (hspan : span ∈ spans.iter) :
    let last := Machine.run slashStep s acts
    let record := recordOf last stash span.index
    chargesOfRun s acts = last.comparisons.map Comparison.toCharge ∧
      totalCharge (comparisonsOf last stash span.index) = record.slashed ∧
      greatestSlash (comparisonsOf last stash span.index) = record.slashed ∧
      record.paidOut ≤ p.mul record.slashed ∧
      ((∀ act ∈ acts, act.Meets fun params => params.slashEra ≤ params.now) →
        chargedFor (chargesOfRun s acts) stash span = record.slashed ∧
          comparisonsOf last stash span.index = last.comparisons.filter fun c =>
            c.stash = stash ∧ span.containsEra c.era = true) := by
  intro last record
  have hcharges : chargesOfRun s acts = last.comparisons.map Comparison.toCharge := by
    rw [chargesOfRun_eq s acts, hs.comparisons, List.map_nil, List.nil_append]
  have hcurrent : currentSpans last stash = spans := by
    unfold currentSpans
    rw [show last.staking.slashingSpans stash = some spans from hspans]
    rfl
  have hindex : (currentSpans last stash).earliest ≤ span.index := by
    rw [hcurrent]
    exact SlashingSpans.earliest_le_of_mem_iter hspan
  obtain ⟨hcharged, hgreatest, hpaid⟩ := hs.recordsSound_run hp stash span.index hindex
  refine ⟨hcharges, hcharged, hgreatest, hpaid, fun hera => ?_⟩
  have hcovers := (hs.erasSound_run hera stash).1.covers
  rw [hcurrent] at hcovers
  have hspans' : comparisonsOf last stash span.index = last.comparisons.filter fun c =>
      c.stash = stash ∧ span.containsEra c.era = true := by
    refine List.filter_congr fun c hc => ?_
    by_cases hstash : c.stash = stash
    · simp only [hstash, true_and, decide_eq_decide]
      exact hcovers c hc hstash span hspan
    · simp [hstash]
  refine ⟨?_, hspans'⟩
  calc chargedFor (chargesOfRun s acts) stash span
      = totalCharge (last.comparisons.filter fun c =>
          c.stash = stash ∧ span.containsEra c.era = true) := by
        rw [hcharges, chargedFor, List.filter_map, List.map_map]
        rfl
    _ = record.slashed := by rw [← hspans', hcharged]

/-! ## Three reports of one span -/

/-- An offence of validator 1 with a stake of its own and a nominator. -/
def sampleReport (slashEra percent : ℕ) (hpercent : percent * 10000000 ≤ 1000000000) :
    SlashAct ℕ :=
  .report
    { stash := 1
      slash := ⟨percent * 10000000, hpercent⟩
      exposure := ⟨1500, 1000, [⟨2, 500⟩], Nat.le_refl _⟩
      slashEra := slashEra
      windowStart := 4
      now := 7
      rewardProportion := ⟨100000000, by decide⟩ } true

def sampleSlashState : SlashState ℕ where
  staking := sampleGenesis
  validatorSlashInEra := ∅
  nominatorSlashInEra := ∅
  spanSlash := ∅
  comparisons := []

theorem sampleSlashState_neverSlashed : NeverSlashed sampleSlashState where
  slashingSpans _ := rfl
  spanSlash := rfl
  comparisons := rfl

/-- The first report ends the span, the second is about an earlier era and the third about an era
already reported. -/
def sampleReports : List (SlashAct ℕ) :=
  [sampleReport 6 10 (by decide), sampleReport 5 30 (by decide), sampleReport 6 20 (by decide)]

/-- Validator 1 is charged 300, the greatest of 100, 300 and 200. -/
theorem sampleReports_slashed :
    let last := Machine.run slashStep sampleSlashState sampleReports
    chargedFor (chargesOfRun sampleSlashState sampleReports) 1 ⟨0, 4, some 4⟩ = 300 ∧
      greatestSlash (comparisonsOf last 1 0) = 300 ∧ (recordOf last 1 0).paidOut ≤ 30 ∧
      comparisonsOf last 1 0 = last.comparisons.filter fun c =>
        c.stash = 1 ∧ (SlashingSpan.mk 0 4 (some 4)).containsEra c.era = true := by
  intro last
  have hspans : last.staking.slashingSpans 1 = some ⟨1, 8, 6, [4]⟩ := by decide +kernel
  have hp : ∀ act ∈ sampleReports, act.Meets fun params =>
      params.rewardProportion = ⟨100000000, by decide⟩ := by
    simp [sampleReports, sampleReport, SlashAct.Meets]
  have hera : ∀ act ∈ sampleReports, act.Meets fun params => params.slashEra ≤ params.now := by
    simp [sampleReports, sampleReport, SlashAct.Meets]
  have hspan : SlashingSpan.mk 0 4 (some 4) ∈ SlashingSpans.iter ⟨1, 8, 6, [4]⟩ := by decide
  obtain ⟨-, -, hgreatest, hpaid, heras⟩ :=
    slashed_of_run sampleSlashState_neverSlashed hp hspans hspan
  obtain ⟨hcharged, hcompared⟩ := heras hera
  have hrecord : (recordOf last 1 0).slashed = 300 := by decide +kernel
  rw [hrecord] at hcharged hgreatest hpaid
  exact ⟨hcharged, hgreatest, hpaid, hcompared⟩

end Setheum.Staking
