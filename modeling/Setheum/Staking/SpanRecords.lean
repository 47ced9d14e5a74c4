import Setheum.Lib.Run
import Setheum.Staking.Effects
import Setheum.Staking.Slashing

/-!
# A slash is a maximum

However many offences are reported for a stash, and in whatever order, it is charged for each of
its spans the greatest of the era slashes that were compared with the record of that span.

* `SpanRecord.compare_sound` — one comparison charges what the maximum grows by.
* `RecordsSound` — the record of every span that is kept is the maximum of its comparisons and the
  sum of their charges. Indices past the ongoing span have no comparisons, so that a new span
  starts with an empty record.
* `computeSlash_charges` — what a report returns as charged is what its comparisons charge.
* `computeSlash_staking` — to the staking pallet a report is a sequence of offences.
-/

set_option autoImplicit false

namespace Setheum.Staking

open StorageMap

variable {A : Type} [DecidableEq A] {p : Perbill} {s s' : SlashState A}

/-! ## Records and their comparisons -/

def recordOf (s : SlashState A) (stash : A) (i : ℕ) : SpanRecord :=
  get SpanRecord.default s.spanSlash (stash, i)

/-- The comparisons with the record of a span. -/
def comparisonsOf (s : SlashState A) (stash : A) (i : ℕ) : List (Comparison A) :=
  s.comparisons.filter fun c => c.stash = stash ∧ c.span = some i

/-- The greatest of the era slashes of some comparisons. -/
def greatestSlash (cs : List (Comparison A)) : ℕ := (cs.map Comparison.slash).foldr max 0

/-- The total that some comparisons charged. -/
def totalCharge (cs : List (Comparison A)) : ℕ := (cs.map Comparison.charge).sum

omit [DecidableEq A] in
@[simp] theorem greatestSlash_concat (cs : List (Comparison A)) (c : Comparison A) :
    greatestSlash (cs ++ [c]) = max (greatestSlash cs) c.slash := by
  induction cs with
  | nil => simp [greatestSlash]
  | cons d cs ih =>
      have hcons : ∀ cs' : List (Comparison A),
          greatestSlash (d :: cs') = max d.slash (greatestSlash cs') := fun _ => rfl
      rw [List.cons_append, hcons, hcons, ih, max_assoc]

omit [DecidableEq A] in
@[simp] theorem totalCharge_concat (cs : List (Comparison A)) (c : Comparison A) :
    totalCharge (cs ++ [c]) = totalCharge cs + c.charge := by
  simp [totalCharge]

/-- A record is the maximum of its comparisons and the sum of their charges, and of it the reward
proportion at most is paid out. -/
structure RecordSound (p : Perbill) (record : SpanRecord) (cs : List (Comparison A)) : Prop where
  charged : totalCharge cs = record.slashed
  greatest : greatestSlash cs = record.slashed
  paid : record.paidOut ≤ p.mul record.slashed

omit [DecidableEq A] in
theorem recordSound_nil : RecordSound (A := A) p SpanRecord.default [] where
  charged := rfl
  greatest := rfl
  paid := Nat.zero_le _

/-- A reward is part of what is still due. -/
theorem rewardF1_le (n : ℕ) : rewardF1.mul n ≤ n := rewardF1.mul_le_self (by decide) n

omit [DecidableEq A] in
/-- **One comparison charges what the maximum grows by.** -/
theorem SpanRecord.compare_sound {record : SpanRecord} {cs : List (Comparison A)}
    (h : RecordSound p record cs) (c : Comparison A)
    (hcharge : c.charge = (record.compare p c.slash).2.1) :
    RecordSound p (record.compare p c.slash).1 (cs ++ [c]) := by
  have hreward := rewardF1_le (p.mul c.slash - record.paidOut)
  have hpaid := h.paid
  refine ⟨?_, ?_, ?_⟩
  · rw [totalCharge_concat, h.charged, hcharge]
    unfold compare
    split
    · dsimp only
      omega
    · split <;> rfl
  · rw [greatestSlash_concat, h.greatest]
    unfold compare
    split
    · dsimp only
      omega
    · split
      · dsimp only
        omega
      · dsimp only
        omega
  · unfold compare
    split
    · rename_i hlt
      have hmono : p.mul record.slashed ≤ p.mul c.slash :=
        p.mul_mono (by decide) (Nat.le_of_lt hlt)
      dsimp only
      omega
    · split
      · rename_i heq
        rw [heq] at hpaid ⊢
        dsimp only
        omega
      · exact h.paid

/-! ## The invariant -/

def SlashingSpans.earliest (spans : SlashingSpans) : ℕ := spans.spanIndex - spans.prior.length

theorem SlashingSpans.earliest_le_of_mem_priorSpans {lastStart index : ℕ} {prior : List ℕ}
    {span : SlashingSpan} (h : span ∈ priorSpans lastStart index prior) :
    index - prior.length ≤ span.index := by
  induction prior generalizing lastStart index with
  | nil => cases h
  | cons length prior ih =>
      rw [List.length_cons]
      rcases List.mem_cons.mp h with rfl | h
      · show index - (prior.length + 1) ≤ index - 1
        omega
      · have hrest := ih h
        omega

theorem SlashingSpans.earliest_le_of_mem_iter {spans : SlashingSpans} {span : SlashingSpan}
    (h : span ∈ spans.iter) : spans.earliest ≤ span.index := by
  rcases List.mem_cons.mp h with rfl | h
  · exact Nat.sub_le _ _
  · exact earliest_le_of_mem_priorSpans h

theorem SlashingSpans.earliest_endSpan (spans : SlashingSpans) (now : ℕ) :
    (spans.endSpan now).1.earliest = spans.earliest := by
  unfold endSpan earliest
  dsimp only
  split
  · rfl
  · rw [List.length_cons, Nat.add_sub_add_right]

theorem SlashingSpans.length_priorSpans (lastStart index : ℕ) (prior : List ℕ) :
    (priorSpans lastStart index prior).length = prior.length := by
  induction prior generalizing lastStart index with
  | nil => rfl
  | cons length prior ih => exact congrArg (· + 1) (ih (lastStart - length) (index - 1))

/-- Pruning keeps some of the prior spans and names the indices of the others. -/
theorem SlashingSpans.prune_cases (spans : SlashingSpans) (windowStart : ℕ) :
    (∃ o ≤ spans.prior.length, spans.prune windowStart =
      ({ spans with prior := spans.prior.take o, lastStart := max spans.lastStart windowStart },
        some (spans.earliest, spans.spanIndex - o))) ∨
    spans.prune windowStart =
      ({ spans with lastStart := max spans.lastStart windowStart }, none) := by
  unfold prune
  cases hold : (spans.iter.drop 1).findIdx? fun span =>
      span.length.any fun len => decide (span.start + len ≤ windowStart) with
  | none => exact .inr rfl
  | some o =>
      have hlt : o < (spans.iter.drop 1).length :=
        (List.findIdx?_eq_some_iff_getElem.mp hold).1
      have ho : o ≤ spans.prior.length := by
        have hlength : (spans.iter.drop 1).length = spans.prior.length :=
          length_priorSpans spans.lastStart spans.spanIndex spans.prior
        rw [hlength] at hlt
        exact Nat.le_of_lt hlt
      refine .inl ⟨o, ho, ?_⟩
      dsimp only
      rw [List.length_take_of_le ho]
      rfl

/-- The record of a span of a stash is that of its comparisons. -/
def RecordAt (p : Perbill) (s : SlashState A) (stash : A) (i : ℕ) : Prop :=
  RecordSound p (recordOf s stash i) (comparisonsOf s stash i)

/-- The spans of a stash, those that it starts with if it has none yet. -/
def currentSpans (s : SlashState A) (stash : A) : SlashingSpans :=
  (s.staking.slashingSpans stash).getD (SlashingSpans.new 0)

/-- The records of all spans that are kept are those of their comparisons, and so are those of all
indices to come. -/
def RecordsSound (p : Perbill) (s : SlashState A) : Prop :=
  ∀ stash i, (currentSpans s stash).earliest ≤ i → RecordAt p s stash i

theorem recordAt_setSpans {stash stash' : A} {spans : SlashingSpans} {i : ℕ} :
    RecordAt p (s.setSpans stash' spans) stash i ↔ RecordAt p s stash i := Iff.rfl

theorem currentSpans_setSpans (stash stash' : A) (spans : SlashingSpans) :
    currentSpans (s.setSpans stash spans) stash' =
      if stash' = stash then spans else currentSpans s stash' := by
  unfold currentSpans SlashState.setSpans
  by_cases h : stash' = stash
  · subst h
    simp
  · simp [h]

/-! ## One comparison -/

/-- What a comparison does: it logs itself with the difference it charges, and at the span that
covers the era, if there is one, it replaces the record. -/
structure Compared (i : InspectingSpans A) (slashEra slash : ℕ) (s : SlashState A) (charge : ℕ)
    (target : Option ℕ) (i' : InspectingSpans A) (s' : SlashState A) : Prop where
  target_eq : target = (i.eraSpan slashEra).map SlashingSpan.index
  comparisons : s'.comparisons = s.comparisons ++ [⟨i.stash, target, slashEra, slash, charge⟩]
  slashOf : i'.slashOf = i.slashOf + charge
  staking : s'.staking = s.staking
  stash : i'.stash = i.stash
  spanIndex : i'.spans.spanIndex = i.spans.spanIndex
  lastStart : i'.spans.lastStart = i.spans.lastStart
  prior : i'.spans.prior = i.spans.prior
  clean : i'.dirty = false → i.dirty = false ∧ i'.spans = i.spans
  kept : ∀ stash k, ¬ (i.stash = stash ∧ target = some k) →
    recordOf s' stash k = recordOf s stash k
  replaced : ∀ k, target = some k →
    recordOf s' i.stash k = ((recordOf s i.stash k).compare i.rewardProportion slash).1 ∧
      charge = ((recordOf s i.stash k).compare i.rewardProportion slash).2.1

/-- A comparison that changes nothing leaves the record as it is. -/
theorem SpanRecord.compare_unchanged {record : SpanRecord} {slash : ℕ}
    (h : ¬ (record.slashed < slash ∨ (record.compare p slash).2.2 ≠ 0)) :
    (record.compare p slash).1 = record := by
  obtain ⟨hle, hreward⟩ := not_or.mp h
  rw [not_ne_iff] at hreward
  unfold compare at hreward ⊢
  rw [if_neg hle] at hreward ⊢
  split at hreward
  · rename_i heq
    dsimp only at hreward
    rw [if_pos heq, hreward]
    rfl
  · rename_i hne
    rw [if_neg hne]

/-- The difference that a comparison charges is zero unless it is a new maximum. -/
theorem SpanRecord.compare_charge {record : SpanRecord} {slash : ℕ}
    (h : ¬ record.slashed < slash) : (record.compare p slash).2.1 = 0 := by
  unfold compare
  rw [if_neg h]
  split <;> rfl

theorem compareAndUpdateSpanSlash_spec (i : InspectingSpans A) (slashEra slash : ℕ)
    (s : SlashState A) :
    ∃ charge, Compared i slashEra slash s charge
      (i.compareAndUpdateSpanSlash slashEra slash s).1
      (i.compareAndUpdateSpanSlash slashEra slash s).2.1
      (i.compareAndUpdateSpanSlash slashEra slash s).2.2 := by
  unfold InspectingSpans.compareAndUpdateSpanSlash
  cases htarget : i.eraSpan slashEra with
  | none =>
      exact ⟨0, by rw [htarget]; rfl, rfl, rfl, rfl, rfl, rfl, rfl, rfl, fun h => ⟨h, rfl⟩,
        fun _ _ _ => rfl, fun k hk => absurd hk.symm (Option.some_ne_none k)⟩
  | some target =>
      let record := recordOf s i.stash target.index
      have hslashOf : (if record.slashed < slash then
          i.addSlash (record.compare i.rewardProportion slash).2.1 slashEra else i).slashOf
            = i.slashOf + (record.compare i.rewardProportion slash).2.1 := by
        split
        · rfl
        · rename_i hlt
          exact (congrArg (i.slashOf + ·) (SpanRecord.compare_charge hlt)).symm
      refine ⟨(record.compare i.rewardProportion slash).2.1, ?_⟩
      dsimp only
      split
      · refine ⟨by rw [htarget]; rfl, rfl, hslashOf, rfl, ?_, ?_, ?_, ?_,
          fun hclean => Bool.noConfusion hclean, fun stash k hk => ?_, fun k hk => ?_⟩
        any_goals dsimp only; split <;> rfl
        · refine get_insert_ne _ _ _ fun hkey => hk ?_
          cases hkey
          exact ⟨rfl, rfl⟩
        · cases hk
          exact ⟨get_insert _ _ _ _, rfl⟩
      · rename_i hchanged
        refine ⟨by rw [htarget]; rfl, rfl, hslashOf, rfl, ?_, ?_, ?_, ?_, fun h => ?_,
          fun _ _ _ => rfl, fun k hk => ?_⟩
        any_goals dsimp only; split <;> rfl
        · dsimp only at h ⊢
          rw [if_neg fun hlt => hchanged (.inl hlt)] at h ⊢
          exact ⟨h, rfl⟩
        · cases hk
          exact ⟨(SpanRecord.compare_unchanged hchanged).symm, rfl⟩

/-- A comparison keeps every record that of its comparisons. -/
theorem Compared.recordAt {i i' : InspectingSpans A} {slashEra slash charge : ℕ}
    {target : Option ℕ} (h : Compared i slashEra slash s charge target i' s')
    (hp : i.rewardProportion = p) {stash : A} {k : ℕ} (hk : RecordAt p s stash k) :
    RecordAt p s' stash k := by
  subst hp
  have hlog : comparisonsOf s' stash k = comparisonsOf s stash k
      ++ if i.stash = stash ∧ target = some k then [⟨i.stash, target, slashEra, slash, charge⟩]
        else [] := by
    unfold comparisonsOf
    rw [h.comparisons, List.filter_append, List.filter_singleton, Bool.cond_decide]
  unfold RecordAt
  rw [hlog]
  by_cases hkey : i.stash = stash ∧ target = some k
  · obtain ⟨rfl, htarget⟩ := hkey
    obtain ⟨hrecord, hcharge⟩ := h.replaced k htarget
    rw [if_pos ⟨rfl, htarget⟩, hrecord]
    exact SpanRecord.compare_sound hk ⟨i.stash, target, slashEra, slash, charge⟩ hcharge
  · rw [if_neg hkey, List.append_nil, h.kept stash k hkey]
    exact hk

/-! ## What an inspection leaves behind -/

/-- The two states agree on the spans, their records and the comparisons so far. -/
structure SameSlashing (s s' : SlashState A) : Prop where
  slashingSpans : s'.staking.slashingSpans = s.staking.slashingSpans
  spanSlash : s'.spanSlash = s.spanSlash
  comparisons : s'.comparisons = s.comparisons

theorem RecordsSound.congr (h : RecordsSound p s) (hsame : SameSlashing s s') :
    RecordsSound p s' := by
  intro stash k hk
  unfold currentSpans at hk
  rw [hsame.slashingSpans] at hk
  unfold RecordAt recordOf comparisonsOf
  rw [hsame.spanSlash, hsame.comparisons]
  exact h stash k hk

theorem recordOf_removeRecords {stash stash' : A} {indices : List ℕ} {k : ℕ}
    (h : ¬ (stash' = stash ∧ k ∈ indices)) :
    recordOf (s.removeRecords stash indices) stash' k = recordOf s stash' k := by
  have hfold : ∀ (indices : List ℕ) (records : Map (A × ℕ) SpanRecord),
      ¬ (stash' = stash ∧ k ∈ indices) →
        get SpanRecord.default
          (indices.foldl (fun m spanIndex => m.erase (stash, spanIndex)) records) (stash', k)
            = get SpanRecord.default records (stash', k) := by
    intro indices
    induction indices with
    | nil =>
        intro records _
        rfl
    | cons spanIndex indices ih =>
        intro records hnot
        rw [List.foldl_cons, ih _ fun hmem => hnot ⟨hmem.1, List.mem_cons_of_mem _ hmem.2⟩]
        refine get_erase_ne _ _ fun hkey => hnot ?_
        cases hkey
        exact ⟨rfl, List.mem_cons_self⟩
  exact hfold indices s.spanSlash h

/-- Writing the spans back removes the records of those that are pruned, and no others. -/
theorem RecordsSound.drop {i : InspectingSpans A} (h : RecordsSound p s)
    (hheld : ∀ k, i.spans.earliest ≤ k → RecordAt p s i.stash k) : RecordsSound p (i.drop s) := by
  unfold InspectingSpans.drop
  split
  swap
  · exact h
  intro stash k hk
  rcases i.spans.prune_cases i.windowStart with ⟨o, ho, hprune⟩ | hprune
  · rw [hprune] at hk ⊢
    dsimp only at hk ⊢
    rw [currentSpans_setSpans] at hk
    rw [recordAt_setSpans]
    have hrecord : RecordAt p s stash k ∧ ¬ (stash = i.stash ∧
        k ∈ List.range' i.spans.earliest (i.spans.spanIndex - o - i.spans.earliest)) := by
      by_cases hstash : stash = i.stash
      · subst hstash
        rw [if_pos rfl] at hk
        unfold SlashingSpans.earliest at hk
        rw [List.length_take_of_le ho] at hk
        dsimp only at hk
        have hearliest : i.spans.earliest ≤ i.spans.spanIndex - o :=
          Nat.sub_le_sub_left ho i.spans.spanIndex
        refine ⟨hheld k (hearliest.trans hk), fun hmem => ?_⟩
        rw [List.mem_range'_1] at hmem
        omega
      · rw [if_neg hstash] at hk
        exact ⟨h stash k hk, fun hmem => hstash hmem.1⟩
    unfold RecordAt
    rw [recordOf_removeRecords hrecord.2]
    exact hrecord.1
  · rw [hprune] at hk ⊢
    dsimp only at hk ⊢
    rw [currentSpans_setSpans] at hk
    rw [recordAt_setSpans]
    by_cases hstash : stash = i.stash
    · subst hstash
      rw [if_pos rfl] at hk
      exact hheld k hk
    · rw [if_neg hstash] at hk
      exact h stash k hk

/-- What `fetch_spans` finds: the spans of the stash, or new ones that it stores. -/
theorem fetchSpans_cases (stash : A) (windowStart paidOut slashOf : ℕ) (s : SlashState A) :
    (fetchSpans stash windowStart paidOut slashOf p s).1 = ⟨false, windowStart, stash,
        (s.staking.slashingSpans stash).getD (SlashingSpans.new windowStart), paidOut, slashOf, p⟩ ∧
      (fetchSpans stash windowStart paidOut slashOf p s).2
        = match s.staking.slashingSpans stash with
          | some _ => s
          | none => s.setSpans stash (SlashingSpans.new windowStart) := by
  unfold fetchSpans
  cases s.staking.slashingSpans stash with
  | none => exact ⟨rfl, rfl⟩
  | some spans => exact ⟨rfl, rfl⟩

theorem RecordsSound.fetchSpans (h : RecordsSound p s) (stash : A)
    (windowStart paidOut slashOf : ℕ) :
    let fetched := Staking.fetchSpans stash windowStart paidOut slashOf p s
    RecordsSound p fetched.2 ∧
      ∀ k, fetched.1.spans.earliest ≤ k → RecordAt p fetched.2 fetched.1.stash k := by
  intro fetched
  obtain ⟨hi, hs⟩ := fetchSpans_cases (p := p) stash windowStart paidOut slashOf s
  have hstash := h stash
  unfold currentSpans at hstash
  rw [show fetched.1 = _ from hi, show fetched.2 = _ from hs]
  cases hspans : s.staking.slashingSpans stash with
  | some spans =>
      rw [hspans] at hstash
      exact ⟨h, hstash⟩
  | none =>
      -- new spans have no prior ones, so that every index is among those to come
      rw [hspans] at hstash
      have hall : ∀ k, RecordAt p s stash k := fun k => hstash k (Nat.zero_le k)
      refine ⟨fun stash' k hk => ?_, fun k _ => hall k⟩
      rw [currentSpans_setSpans] at hk
      rw [recordAt_setSpans]
      by_cases hstash' : stash' = stash
      · rw [hstash']
        exact hall k
      · rw [if_neg hstash'] at hk
        exact h stash' k hk

/-! ## Reports -/

theorem sameSlashing_chillAndDisable (stash : A) (disabled : Bool) (s : SlashState A) :
    SameSlashing s (chillAndDisable stash disabled s) := by
  refine ⟨?_, rfl, rfl⟩
  have hchill : (chillStash stash s.staking).slashingSpans = s.staking.slashingSpans := by
    rw [withRoles_chillStash]
    rfl
  unfold chillAndDisable
  cases disabled with
  | false => exact hchill
  | true =>
      refine Eq.trans ?_ hchill
      show (ensureNewEra (chillStash stash s.staking)).slashingSpans = _
      unfold ensureNewEra
      split <;> rfl

/-- What `slashSpan` does: it fetches the spans, compares, and writes the spans back, first ending
the ongoing one if it was the target. -/
theorem slashSpan_cases (stash : A) (params : SlashParams A) (slash rewardPayout : ℕ)
    (recent : SlashState A → SlashState A) (s : SlashState A) :
    ∃ charge target i' s',
      Compared
        (fetchSpans stash params.windowStart rewardPayout 0 params.rewardProportion s).1
        params.slashEra slash
        (fetchSpans stash params.windowStart rewardPayout 0 params.rewardProportion s).2
        charge target i' s' ∧
      slashSpan stash params slash rewardPayout recent s = (i'.paidOut, i'.slashOf,
        if target = some i'.spans.spanIndex then (i'.endSpan params.now).drop (recent s')
        else i'.drop s') := by
  obtain ⟨charge, h⟩ := compareAndUpdateSpanSlash_spec
    (fetchSpans stash params.windowStart rewardPayout 0 params.rewardProportion s).1
    params.slashEra slash
    (fetchSpans stash params.windowStart rewardPayout 0 params.rewardProportion s).2
  refine ⟨charge, _, _, _, h, ?_⟩
  unfold slashSpan
  dsimp only
  split <;> rfl

/-- A comparison leaves the records sound, those of the spans in hand with them. -/
theorem Compared.recordsSound {i i' : InspectingSpans A} {slashEra slash charge : ℕ}
    {target : Option ℕ} (h : Compared i slashEra slash s charge target i' s')
    (hp : i.rewardProportion = p) (hs : RecordsSound p s)
    (hheld : ∀ k, i.spans.earliest ≤ k → RecordAt p s i.stash k) :
    RecordsSound p s' ∧ ∀ k, i'.spans.earliest ≤ k → RecordAt p s' i'.stash k := by
  refine ⟨fun stash k hk => ?_, fun k hk => ?_⟩
  · unfold currentSpans at hk
    rw [h.staking] at hk
    exact h.recordAt hp (hs stash k hk)
  · unfold SlashingSpans.earliest at hk
    rw [h.spanIndex, h.prior] at hk
    rw [h.stash]
    exact h.recordAt hp (hheld k hk)

/-- Ending the ongoing span keeps the spans in hand, and so does what else happens then. -/
theorem RecordsSound.dropEnded {i : InspectingSpans A} (h : RecordsSound p s)
    (hheld : ∀ k, i.spans.earliest ≤ k → RecordAt p s i.stash k) (hsame : SameSlashing s s')
    (now : ℕ) : RecordsSound p ((i.endSpan now).drop s') := by
  refine (h.congr hsame).drop fun k hk => ?_
  have hearliest : (i.endSpan now).spans.earliest = i.spans.earliest :=
    i.spans.earliest_endSpan now
  rw [hearliest] at hk
  unfold RecordAt recordOf comparisonsOf
  rw [hsame.spanSlash, hsame.comparisons]
  exact hheld k hk

theorem RecordsSound.slashSpan (h : RecordsSound p s) {params : SlashParams A}
    (hp : params.rewardProportion = p) {recent : SlashState A → SlashState A}
    (hrecent : ∀ s, SameSlashing s (recent s)) (stash : A) (slash rewardPayout : ℕ) :
    RecordsSound p (slashSpan stash params slash rewardPayout recent s).2.2 := by
  subst hp
  obtain ⟨hfetched, hheld⟩ := h.fetchSpans stash params.windowStart rewardPayout 0
  have hproportion := congrArg InspectingSpans.rewardProportion
    (fetchSpans_cases (p := params.rewardProportion) stash params.windowStart rewardPayout 0 s).1
  obtain ⟨charge, target, i', s', hcompared, hslash⟩ :=
    slashSpan_cases stash params slash rewardPayout recent s
  obtain ⟨hsound, hheld'⟩ := hcompared.recordsSound hproportion hfetched hheld
  rw [hslash]
  dsimp only
  split
  · exact hsound.dropEnded hheld' (hrecent _) params.now
  · exact hsound.drop hheld'

theorem RecordsSound.kickOutIfRecent (h : RecordsSound p s) {params : SlashParams A}
    (hp : params.rewardProportion = p) (disabled : Bool) :
    RecordsSound p (kickOutIfRecent params disabled s) := by
  subst hp
  obtain ⟨hfetched, hheld⟩ := h.fetchSpans params.stash params.windowStart 0 0
  unfold Staking.kickOutIfRecent
  dsimp only
  split
  · exact hfetched.dropEnded hheld (sameSlashing_chillAndDisable _ _ _) params.now
  · exact hfetched.drop hheld

/-- What else may happen to a stash whose ongoing span is hit. -/
def Recent (stash : A) (recent : SlashState A → SlashState A) : Prop :=
  recent = id ∨ ∃ disabled, recent = chillAndDisable stash disabled

theorem Recent.sameSlashing {stash : A} {recent : SlashState A → SlashState A}
    (h : Recent stash recent) (s : SlashState A) : SameSlashing s (recent s) := by
  rcases h with rfl | ⟨disabled, rfl⟩
  · exact ⟨rfl, rfl, rfl⟩
  · exact sameSlashing_chillAndDisable stash disabled s

/-- A report preserves what every inspection of a span preserves, if the era slashes of validators
and nominators do not matter for it. -/
theorem computeSlash_preserves {P : SlashState A → Prop} {params : SlashParams A} {disabled : Bool}
    (hmarked : ∀ {s} validatorSlashInEra nominatorSlashInEra, P s →
      P { s with validatorSlashInEra, nominatorSlashInEra })
    (hslash : ∀ {s} stash slash rewardPayout recent, Recent stash recent → P s →
      P (slashSpan stash params slash rewardPayout recent s).2.2)
    (hkick : P s → P (kickOutIfRecent params disabled s)) (h : P s) :
    P (computeSlash params disabled s).2 := by
  have hnominators : ∀ (priorSlashP : Perbill) (others : List (IndividualExposure A))
      (rewardPayout : ℕ) (s : SlashState A), P s →
        P (slashNominators params priorSlashP others rewardPayout s).2.2 := by
    intro priorSlashP others
    induction others with
    | nil => exact fun _ _ hs => hs
    | cons nominator others ih =>
        intro rewardPayout s hs
        exact ih _ _ (hslash _ _ _ id (.inl rfl) (hmarked _ _ hs))
  unfold computeSlash
  dsimp only
  split
  · exact hkick h
  · split
    · exact hnominators _ _ _ _ (hslash _ _ _ _ (.inr ⟨disabled, rfl⟩) (hmarked _ _ h))
    · exact h

theorem RecordsSound.computeSlash (h : RecordsSound p s) {params : SlashParams A}
    (hp : params.rewardProportion = p) (disabled : Bool) :
    RecordsSound p (computeSlash params disabled s).2 :=
  computeSlash_preserves (fun _ _ hs => hs.congr ⟨rfl, rfl, rfl⟩)
    (fun stash slash rewardPayout _ hrecent hs =>
      hs.slashSpan hp hrecent.sameSlashing stash slash rewardPayout)
    (fun hs => hs.kickOutIfRecent hp disabled) h

/-! ## Charges -/

/-- What a report charges a stash for an era. -/
structure Charge (A : Type) where
  stash : A
  era : ℕ
  amount : ℕ
  deriving DecidableEq, Repr

/-- What is charged by a slash for an offence in an era. -/
def UnappliedSlash.charges (unapplied : UnappliedSlash A) (era : ℕ) : List (Charge A) :=
  ⟨unapplied.validator, era, unapplied.own⟩
    :: unapplied.others.map fun other => ⟨other.1, era, other.2⟩

def Comparison.toCharge (c : Comparison A) : Charge A := ⟨c.stash, c.era, c.charge⟩

theorem drop_comparisons (i : InspectingSpans A) (s : SlashState A) :
    (i.drop s).comparisons = s.comparisons := by
  unfold InspectingSpans.drop
  split
  · dsimp only
    split <;> rfl
  · rfl

/-- The comparison that `slashSpan` adds, with what it returns as charged. -/
theorem slashSpan_comparisons (params : SlashParams A) {recent : SlashState A → SlashState A}
    (hrecent : ∀ s, SameSlashing s (recent s)) (stash : A) (slash rewardPayout : ℕ)
    (s : SlashState A) :
    ∃ c : Comparison A, c.toCharge = ⟨stash, params.slashEra,
        (slashSpan stash params slash rewardPayout recent s).2.1⟩ ∧
      (slashSpan stash params slash rewardPayout recent s).2.2.comparisons
        = s.comparisons ++ [c] := by
  obtain ⟨hi, hs⟩ := fetchSpans_cases (p := params.rewardProportion) stash params.windowStart
    rewardPayout 0 s
  obtain ⟨charge, target, i', s', h, hslash⟩ :=
    slashSpan_cases stash params slash rewardPayout recent s
  have hfetched : (fetchSpans stash params.windowStart rewardPayout 0 params.rewardProportion
      s).2.comparisons = s.comparisons := by
    rw [hs]
    split <;> rfl
  have hcharge := h.slashOf
  have hcomparisons := h.comparisons
  rw [hi] at hcharge hcomparisons
  rw [hfetched] at hcomparisons
  refine ⟨⟨stash, target, params.slashEra, slash, charge⟩, ?_, ?_⟩
  · rw [hslash]
    exact congrArg (Charge.mk stash params.slashEra) (hcharge.trans (Nat.zero_add charge)).symm
  · rw [hslash]
    dsimp only
    split
    · rw [drop_comparisons, (hrecent s').comparisons, hcomparisons]
    · rw [drop_comparisons, hcomparisons]

theorem slashNominators_charges (params : SlashParams A) (priorSlashP : Perbill)
    (others : List (IndividualExposure A)) (rewardPayout : ℕ) (s : SlashState A) :
    ∃ cs : List (Comparison A),
      (slashNominators params priorSlashP others rewardPayout s).2.2.comparisons
        = s.comparisons ++ cs ∧
      ((slashNominators params priorSlashP others rewardPayout s).2.1.map fun other =>
        Charge.mk other.1 params.slashEra other.2) = cs.map Comparison.toCharge := by
  induction others generalizing rewardPayout s with
  | nil => exact ⟨[], (List.append_nil _).symm, rfl⟩
  | cons nominator others ih =>
      let eraSlash := nominatorEraSlash params priorSlashP nominator s
      let nominatorSlashInEra :=
        s.nominatorSlashInEra.insert (params.slashEra, nominator.who) eraSlash
      have hid : ∀ s : SlashState A, SameSlashing s (id s) := fun _ => ⟨rfl, rfl, rfl⟩
      obtain ⟨c, hcharge, hcomparisons⟩ := slashSpan_comparisons params hid
        nominator.who eraSlash rewardPayout { s with nominatorSlashInEra }
      obtain ⟨cs, hrest, hothers⟩ := ih
        (slashNominator params priorSlashP nominator rewardPayout s).1
        (slashNominator params priorSlashP nominator rewardPayout s).2.2
      refine ⟨c :: cs, hrest.trans ?_, ?_⟩
      · rw [← List.singleton_append, ← List.append_assoc]
        exact congrArg (· ++ cs) hcomparisons
      · rw [List.map_cons, hcharge, ← hothers]
        rfl

theorem kickOutIfRecent_comparisons (params : SlashParams A) (disabled : Bool)
    (s : SlashState A) : (kickOutIfRecent params disabled s).comparisons = s.comparisons := by
  have hs := (fetchSpans_cases (p := params.rewardProportion) params.stash params.windowStart
    0 0 s).2
  have hfetched : (fetchSpans params.stash params.windowStart 0 0 params.rewardProportion
      s).2.comparisons = s.comparisons := by
    rw [hs]
    split <;> rfl
  unfold kickOutIfRecent
  dsimp only
  split
  · rw [drop_comparisons, (sameSlashing_chillAndDisable _ _ _).comparisons, hfetched]
  · rw [drop_comparisons, hfetched]

/-- **A report charges what its comparisons charge**, to the same stashes. -/
theorem computeSlash_charges (params : SlashParams A) (disabled : Bool) (s : SlashState A) :
    ∃ cs : List (Comparison A),
      (computeSlash params disabled s).2.comparisons = s.comparisons ++ cs ∧
      ((computeSlash params disabled s).1.elim [] (·.charges params.slashEra))
        = cs.map Comparison.toCharge := by
  unfold computeSlash
  dsimp only
  split
  · refine ⟨[], ?_, rfl⟩
    rw [List.append_nil]
    exact kickOutIfRecent_comparisons params disabled s
  · split
    swap
    · exact ⟨[], (List.append_nil _).symm, rfl⟩
    let validatorSlashInEra := s.validatorSlashInEra.insert (params.slashEra, params.stash)
      (params.slash, params.slash.mul params.exposure.own)
    obtain ⟨c, hcharge, hcomparisons⟩ := slashSpan_comparisons params
      (sameSlashing_chillAndDisable params.stash disabled) params.stash
      (params.slash.mul params.exposure.own) 0 { s with validatorSlashInEra }
    obtain ⟨cs, hrest, hothers⟩ := slashNominators_charges params
      (get (PerThing.zero, 0) s.validatorSlashInEra (params.slashEra, params.stash)).1
      params.exposure.others 0 (slashSpan params.stash params
        (params.slash.mul params.exposure.own) 0 (chillAndDisable params.stash disabled)
        { s with validatorSlashInEra }).2.2
    refine ⟨c :: cs, hrest.trans ?_, ?_⟩
    · rw [← List.singleton_append, ← List.append_assoc]
      exact congrArg (· ++ cs) hcomparisons
    · rw [List.map_cons, hcharge, ← hothers]
      rfl

/-! ## What a report does to the staking pallet -/

/-- The second state follows from the first by offences, as the runs of the staking pallet have
them. -/
def ByOffences (cfg : Config A) (a b : State A) : Prop :=
  ∃ acts : List (Act A), (∀ act ∈ acts, ∃ stash spans chills forces,
    act = Act.offence stash spans chills forces) ∧ Machine.run (step cfg) a acts = b

theorem ByOffences.refl (cfg : Config A) (a : State A) : ByOffences cfg a a := ⟨[], nofun, rfl⟩

theorem ByOffences.trans {cfg : Config A} {a b c : State A} (h : ByOffences cfg a b)
    (h' : ByOffences cfg b c) : ByOffences cfg a c := by
  obtain ⟨acts, hacts, rfl⟩ := h
  obtain ⟨acts', hacts', rfl⟩ := h'
  refine ⟨acts ++ acts', fun act hact => ?_, Machine.run_append _ _ _ _⟩
  rcases List.mem_append.mp hact with hact | hact
  · exact hacts act hact
  · exact hacts' act hact

theorem ByOffences.noteOffence (cfg : Config A) (stash : A) (spans : SlashingSpans)
    (chills forces : Bool) (a : State A) :
    ByOffences cfg a (noteOffence stash spans chills forces a) := by
  refine ⟨[.offence stash spans chills forces], fun act hact => ?_, rfl⟩
  cases List.mem_singleton.mp hact
  exact ⟨stash, spans, chills, forces, rfl⟩

/-- The part of `noteOffence` that does not look at the spans. -/
def chillAndForce (stash : A) (chills forces : Bool) (a : State A) : State A :=
  let a' := if chills then chillStash stash a else a
  if forces then ensureNewEra a' else a'

def State.setSpans (a : State A) (stash : A) (spans : SlashingSpans) : State A :=
  { a with slashingSpans := Function.update a.slashingSpans stash (some spans) }

theorem State.setSpans_setSpans (a : State A) (stash : A) (spans spans' : SlashingSpans) :
    (a.setSpans stash spans).setSpans stash spans' = a.setSpans stash spans' := by
  unfold setSpans
  simp

theorem State.setSpans_self {a : State A} {stash : A} {spans : SlashingSpans}
    (h : a.slashingSpans stash = some spans) : a.setSpans stash spans = a := by
  unfold setSpans
  rw [← h, Function.update_eq_self]

theorem chillAndForce_setSpans (stash stash' : A) (chills forces : Bool) (spans : SlashingSpans)
    (a : State A) : chillAndForce stash chills forces (a.setSpans stash' spans)
      = (chillAndForce stash chills forces a).setSpans stash' spans := by
  have hchill : chillStash stash (a.setSpans stash' spans)
      = (chillStash stash a).setSpans stash' spans := by
    unfold chillStash doRemoveNominator doRemoveValidator State.setSpans
    dsimp only
    split <;> split <;> rfl
  have hforce : ∀ a : State A, ensureNewEra (a.setSpans stash' spans)
      = (ensureNewEra a).setSpans stash' spans := by
    intro a
    unfold ensureNewEra State.setSpans
    dsimp only
    split <;> rfl
  unfold chillAndForce
  cases chills with
  | false =>
      cases forces with
      | false => rfl
      | true => exact hforce a
  | true =>
      cases forces with
      | false => exact hchill
      | true => exact (congrArg ensureNewEra hchill).trans (hforce _)

theorem Recent.staking {stash : A} {recent : SlashState A → SlashState A}
    (h : Recent stash recent) :
    ∃ chills forces, ∀ s, (recent s).staking = chillAndForce stash chills forces s.staking := by
  rcases h with rfl | ⟨disabled, rfl⟩
  · exact ⟨false, false, fun _ => rfl⟩
  · exact ⟨true, disabled, fun _ => rfl⟩

theorem fetchSpans_staking (stash : A) (windowStart paidOut slashOf : ℕ) (s : SlashState A) :
    let fetched := fetchSpans stash windowStart paidOut slashOf p s
    fetched.2.staking = s.staking.setSpans stash fetched.1.spans := by
  intro fetched
  obtain ⟨hi, hs⟩ := fetchSpans_cases (p := p) stash windowStart paidOut slashOf s
  rw [show fetched.1 = _ from hi, show fetched.2 = _ from hs]
  cases hspans : s.staking.slashingSpans stash with
  | some spans => exact (State.setSpans_self hspans).symm
  | none => rfl

/-- Writing spans back, dirty or not, after what else is to happen is an offence of their stash. -/
theorem drop_staking {i : InspectingSpans A} {a : State A} {spans : SlashingSpans}
    (chills forces : Bool)
    (h : s.staking = chillAndForce i.stash chills forces (a.setSpans i.stash spans)) :
    ∃ spans', (i.drop s).staking = noteOffence i.stash spans' chills forces a := by
  unfold InspectingSpans.drop
  split
  · refine ⟨(i.spans.prune i.windowStart).1, ?_⟩
    have hdrop : ∀ s' : SlashState A, s'.staking = s.staking →
        (s'.setSpans i.stash (i.spans.prune i.windowStart).1).staking
          = noteOffence i.stash (i.spans.prune i.windowStart).1 chills forces a := by
      intro s' hs'
      have hset : (s'.setSpans i.stash (i.spans.prune i.windowStart).1).staking
          = s'.staking.setSpans i.stash (i.spans.prune i.windowStart).1 := rfl
      rw [hset, hs', h, ← chillAndForce_setSpans, State.setSpans_setSpans]
      rfl
    dsimp only
    split
    · exact hdrop _ rfl
    · exact hdrop _ rfl
  · exact ⟨spans, h⟩

theorem slashSpan_staking {params : SlashParams A} {stash : A}
    {recent : SlashState A → SlashState A} (hrecent : Recent stash recent)
    (slash rewardPayout : ℕ) (s : SlashState A) :
    ∃ spans chills forces, (slashSpan stash params slash rewardPayout recent s).2.2.staking
      = noteOffence stash spans chills forces s.staking := by
  obtain ⟨charge, target, i', s', h, hslash⟩ :=
    slashSpan_cases stash params slash rewardPayout recent s
  obtain ⟨chills, forces, hstaking⟩ := hrecent.staking
  have hfetched := h.staking.trans (fetchSpans_staking stash params.windowStart rewardPayout 0 s)
  have hstash : i'.stash = stash := h.stash.trans (congrArg InspectingSpans.stash
    (fetchSpans_cases stash params.windowStart rewardPayout 0 s).1)
  subst hstash
  rw [hslash]
  dsimp only
  split
  · obtain ⟨spans, hdrop⟩ := drop_staking (i := i'.endSpan params.now) chills forces
      ((hstaking s').trans (congrArg _ hfetched))
    exact ⟨spans, chills, forces, hdrop⟩
  · obtain ⟨spans, hdrop⟩ := drop_staking (i := i') false false hfetched
    exact ⟨spans, false, false, hdrop⟩

theorem kickOutIfRecent_staking (params : SlashParams A) (disabled : Bool) (s : SlashState A) :
    ∃ spans chills forces, (kickOutIfRecent params disabled s).staking
      = noteOffence params.stash spans chills forces s.staking := by
  let fetched := fetchSpans params.stash params.windowStart 0 0 params.rewardProportion s
  have hfetched : fetched.2.staking = s.staking.setSpans params.stash fetched.1.spans :=
    fetchSpans_staking params.stash params.windowStart 0 0 s
  have hstash : fetched.1.stash = params.stash := congrArg InspectingSpans.stash
    (fetchSpans_cases params.stash params.windowStart 0 0 s).1
  rw [← hstash] at hfetched ⊢
  unfold kickOutIfRecent
  dsimp only
  split
  · have hchilled : (chillAndDisable params.stash disabled fetched.2).staking
        = chillAndForce fetched.1.stash true disabled
          (s.staking.setSpans fetched.1.stash fetched.1.spans) := by
      rw [← hfetched, hstash]
      rfl
    obtain ⟨spans, hdrop⟩ := drop_staking (i := fetched.1.endSpan params.now) true disabled hchilled
    exact ⟨spans, true, disabled, hdrop⟩
  · obtain ⟨spans, hdrop⟩ := drop_staking (i := fetched.1) false false hfetched
    exact ⟨spans, false, false, hdrop⟩

/-- **To the staking pallet a report is a sequence of offences.** -/
theorem computeSlash_staking (cfg : Config A) (params : SlashParams A) (disabled : Bool)
    (s : SlashState A) :
    ByOffences cfg s.staking (computeSlash params disabled s).2.staking := by
  refine computeSlash_preserves (P := fun s' => ByOffences cfg s.staking s'.staking)
    (fun _ _ hs => hs) (fun {t} stash slash rewardPayout _ hrecent ht => ?_) (fun _ => ?_)
    (ByOffences.refl cfg _)
  · obtain ⟨spans, chills, forces, hslash⟩ := slashSpan_staking hrecent slash rewardPayout t
    rw [hslash]
    exact ht.trans (ByOffences.noteOffence cfg _ _ _ _ _)
  · obtain ⟨spans, chills, forces, hkick⟩ := kickOutIfRecent_staking params disabled s
    rw [hkick]
    exact ByOffences.noteOffence cfg _ _ _ _ _

end Setheum.Staking
