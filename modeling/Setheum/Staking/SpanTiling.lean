import Setheum.Lib.Run
import Setheum.Staking.SpanEras

/-!
# Spans tile the eras

The spans of a stash are kept as the start of the ongoing one and the lengths of those before it,
latest first. However spans are ended and pruned, the lengths never reach back beyond era zero nor
outnumber the indices, so the iterator finds spans that follow each other, and pruning, which
cuts the list and may move the start of the ongoing span, cuts exactly the spans before the window.

* `Fits.endSpan`, `Fits.prune` — both operations keep the lengths and the indices in bounds.
* `iter_chain`, `Fits.exists_containsEra` — the spans follow each other without a gap.
* `Fits.prune_iter`, `Fits.prune_range` — what pruning removes, and the indices it names.
* `run_tiles` — the spans after any run of both.
-/

set_option autoImplicit false

namespace Setheum.Staking

/-- The span has ended when the window starts. -/
def SlashingSpan.endsBy (span : SlashingSpan) (windowStart : ℕ) : Bool :=
  span.length.any fun len => decide (span.start + len ≤ windowStart)

/-- The earlier span ends where the later one starts, and its index comes just before. -/
def SlashingSpan.Follows (later earlier : SlashingSpan) : Prop :=
  earlier.index + 1 = later.index ∧
    ∃ length, earlier.length = some length ∧ earlier.start + length = later.start

namespace SlashingSpans

/-- What the subtractions of the iterator give in the unsigned types of the chain, `none` where
one underflows. -/
def checkedPriorSpans : ℕ → ℕ → List ℕ → Option (List SlashingSpan)
  | _, _, [] => some []
  | lastStart, index, length :: prior =>
      if length ≤ lastStart ∧ 1 ≤ index then
        (checkedPriorSpans (lastStart - length) (index - 1) prior).map
          (⟨index - 1, lastStart - length, some length⟩ :: ·)
      else none

/-- The iterator with checked subtractions. -/
def checkedIter (spans : SlashingSpans) : Option (List SlashingSpan) :=
  (checkedPriorSpans spans.lastStart spans.spanIndex spans.prior).map
    (⟨spans.spanIndex, spans.lastStart, none⟩ :: ·)

/-- What is done to the spans of a stash. -/
inductive Op
  | endSpan (now : ℕ)
  | prune (windowStart : ℕ)
  deriving DecidableEq, Repr

def apply (spans : SlashingSpans) : Op → SlashingSpans
  | .endSpan now => (spans.endSpan now).1
  | .prune windowStart => (spans.prune windowStart).1

/-! ## The bounds -/

variable {spans : SlashingSpans}

theorem fits_new (windowStart : ℕ) : (new windowStart).Fits where
  prior_le := Nat.le_refl 0
  sum_le := Nat.zero_le windowStart

theorem Fits.endSpan (h : spans.Fits) (now : ℕ) : (spans.endSpan now).1.Fits := by
  unfold SlashingSpans.endSpan
  dsimp only
  split
  · exact h
  · rename_i hlt
    have hlength := h.prior_le
    have hsum := h.sum_le
    refine ⟨?_, ?_⟩
    · rw [List.length_cons]
      exact Nat.add_le_add_right hlength 1
    · rw [List.sum_cons]
      dsimp only
      omega

theorem Fits.prune (h : spans.Fits) (windowStart : ℕ) : (spans.prune windowStart).1.Fits := by
  obtain ⟨o, hprune⟩ := spans.prune_fst windowStart
  rw [hprune]
  refine ⟨(List.length_take_le' _ _).trans h.prior_le, ?_⟩
  have hsum : (spans.prior.take o).sum ≤ spans.prior.sum :=
    (List.take_sublist o _).sum_le_sum fun _ _ => Nat.zero_le _
  exact hsum.trans (h.sum_le.trans (Nat.le_max_left _ _))

theorem Fits.apply (h : spans.Fits) (op : Op) : (spans.apply op).Fits := by
  cases op with
  | endSpan now => exact h.endSpan now
  | prune windowStart => exact h.prune windowStart

/-- A stash never has more spans than eras, so indices fit wherever eras do. -/
theorem spanIndex_apply_le (h : spans.spanIndex ≤ spans.lastStart) (op : Op) :
    (spans.apply op).spanIndex ≤ (spans.apply op).lastStart := by
  cases op with
  | endSpan now =>
      unfold apply SlashingSpans.endSpan
      dsimp only
      split
      · exact h
      · dsimp only
        omega
  | prune windowStart =>
      obtain ⟨o, hprune⟩ := spans.prune_fst windowStart
      show (spans.prune windowStart).1.spanIndex ≤ (spans.prune windowStart).1.lastStart
      rw [hprune]
      exact h.trans (Nat.le_max_left _ _)

/-! ## Spans that follow each other -/

theorem checkedPriorSpans_eq {lastStart index : ℕ} {prior : List ℕ} (hlength : prior.length ≤ index)
    (hsum : prior.sum ≤ lastStart) :
    checkedPriorSpans lastStart index prior = some (priorSpans lastStart index prior) := by
  induction prior generalizing lastStart index with
  | nil => rfl
  | cons length prior ih =>
      rw [List.length_cons] at hlength
      rw [List.sum_cons] at hsum
      have hfits : length ≤ lastStart ∧ 1 ≤ index := ⟨by omega, by omega⟩
      rw [checkedPriorSpans, if_pos hfits, ih (by omega) (by omega)]
      rfl

/-- **The iterator never underflows.** -/
theorem Fits.checkedIter_eq (h : spans.Fits) : spans.checkedIter = some spans.iter := by
  unfold checkedIter
  rw [checkedPriorSpans_eq h.prior_le h.sum_le]
  rfl

/-- Prior spans follow each other back from the span they come before. -/
theorem priorSpans_chain (later : SlashingSpan) {prior : List ℕ}
    (hlength : prior.length ≤ later.index) (hsum : prior.sum ≤ later.start) :
    List.IsChain SlashingSpan.Follows
      (later :: priorSpans later.start later.index prior) := by
  induction prior generalizing later with
  | nil => exact List.IsChain.singleton later
  | cons length prior ih =>
      rw [List.length_cons] at hlength
      rw [List.sum_cons] at hsum
      refine List.isChain_cons_cons.mpr ⟨⟨?_, length, rfl, ?_⟩, ?_⟩
      · exact Nat.sub_add_cancel (by omega)
      · exact Nat.sub_add_cancel (by omega)
      · exact ih ⟨later.index - 1, later.start - length, some length⟩
          (show prior.length ≤ later.index - 1 by omega)
          (show prior.sum ≤ later.start - length by omega)

/-- **Each span ends where the one after it starts.** -/
theorem Fits.iter_chain (h : spans.Fits) : List.IsChain SlashingSpan.Follows spans.iter :=
  priorSpans_chain ⟨spans.spanIndex, spans.lastStart, none⟩ h.prior_le h.sum_le

/-- The earliest span starts as far back as the lengths reach. -/
theorem getLast_priorSpans (later : SlashingSpan) {first : SlashingSpan} {prior : List ℕ}
    (h : (later :: priorSpans later.start later.index prior).getLast? = some first) :
    first.start = later.start - prior.sum := by
  induction prior generalizing later with
  | nil =>
      obtain rfl : later = first := Option.some.inj h
      rw [List.sum_nil, Nat.sub_zero]
  | cons length prior ih =>
      rw [priorSpans, List.getLast?_cons_cons] at h
      have hstart := ih ⟨later.index - 1, later.start - length, some length⟩ h
      rw [hstart, List.sum_cons, Nat.sub_sub]

theorem exists_containsEra_priorSpans (index : ℕ) {lastStart : ℕ} {prior : List ℕ} {era : ℕ}
    (hfrom : lastStart - prior.sum ≤ era) (hto : era < lastStart) :
    ∃ span ∈ priorSpans lastStart index prior, span.containsEra era = true := by
  induction prior generalizing lastStart index with
  | nil =>
      rw [List.sum_nil] at hfrom
      omega
  | cons length prior ih =>
      rw [List.sum_cons] at hfrom
      by_cases hera : era < lastStart - length
      · obtain ⟨span, hspan, hcontains⟩ := ih (index - 1) (by omega) hera
        exact ⟨span, List.mem_cons_of_mem _ hspan, hcontains⟩
      · refine ⟨_, List.mem_cons_self, SlashingSpan.containsEra_some.mpr ⟨by omega, by omega⟩⟩

/-- **No era from the earliest start on is left out.** -/
theorem exists_containsEra {first : SlashingSpan} {era : ℕ}
    (hfirst : spans.iter.getLast? = some first) (hera : first.start ≤ era) :
    ∃ span ∈ spans.iter, span.containsEra era = true := by
  have hstart := getLast_priorSpans ⟨spans.spanIndex, spans.lastStart, none⟩ hfirst
  dsimp only at hstart
  rw [hstart] at hera
  by_cases hongoing : spans.lastStart ≤ era
  · exact ⟨_, spans.mem_iter_ongoing, SlashingSpan.containsEra_none.mpr hongoing⟩
  · obtain ⟨span, hspan, hcontains⟩ := exists_containsEra_priorSpans spans.spanIndex
      hera (Nat.lt_of_not_le hongoing)
    exact ⟨span, List.mem_cons_of_mem _ hspan, hcontains⟩

/-! ## What pruning removes -/

theorem end_le_of_mem_priorSpans {lastStart index : ℕ} {prior : List ℕ} {span : SlashingSpan}
    (hsum : prior.sum ≤ lastStart) (h : span ∈ priorSpans lastStart index prior) :
    ∃ length, span.length = some length ∧ span.start + length ≤ lastStart := by
  induction prior generalizing lastStart index with
  | nil => cases h
  | cons length prior ih =>
      rw [List.sum_cons] at hsum
      rcases List.mem_cons.mp h with rfl | h
      · exact ⟨length, rfl, show lastStart - length + length ≤ lastStart by omega⟩
      · obtain ⟨length', hlength', hle⟩ := ih (by omega) h
        exact ⟨length', hlength', by omega⟩

/-- The spans before one that has ended have ended too. -/
theorem priorSpans_endsBy (index : ℕ) {lastStart : ℕ} {prior : List ℕ}
    (hsum : prior.sum ≤ lastStart) (windowStart : ℕ) :
    (priorSpans lastStart index prior).Pairwise fun later earlier =>
      later.endsBy windowStart = true → earlier.endsBy windowStart = true := by
  induction prior generalizing lastStart index with
  | nil => exact List.Pairwise.nil
  | cons length prior ih =>
      rw [List.sum_cons] at hsum
      refine List.Pairwise.cons (fun earlier hearlier hends => ?_) (ih (index - 1) (by omega))
      obtain ⟨length', hlength', hle⟩ := end_le_of_mem_priorSpans (by omega) hearlier
      simp only [SlashingSpan.endsBy, Option.any_some, decide_eq_true_eq] at hends
      simp only [SlashingSpan.endsBy, hlength', Option.any_some, decide_eq_true_eq]
      omega

/-- Where everything after a hit is a hit, the first hit splits the list. -/
private theorem filter_of_pairwise {α : Type} {p : α → Bool} {l : List α}
    (h : l.Pairwise fun a b => p a = true → p b = true) :
    l.filter (fun a => !p a) = l.take ((l.findIdx? p).getD l.length) ∧
      l.filter p = l.drop ((l.findIdx? p).getD l.length) := by
  induction l with
  | nil => exact ⟨rfl, rfl⟩
  | cons a l ih =>
      obtain ⟨hhead, htail⟩ := List.pairwise_cons.mp h
      obtain ⟨hkept, hremoved⟩ := ih htail
      cases hpa : p a with
      | true =>
          have hall : ∀ b ∈ l, p b = true := fun b hb => hhead b hb hpa
          simpa [List.findIdx?_cons, hpa] using hall
      | false =>
          cases hidx : l.findIdx? p with
          | none => simpa [List.findIdx?_cons, hpa, hidx] using And.intro hkept hremoved
          | some o => simpa [List.findIdx?_cons, hpa, hidx] using And.intro hkept hremoved

/-- How many prior spans a window keeps. -/
def kept (spans : SlashingSpans) (windowStart : ℕ) : ℕ :=
  ((spans.iter.drop 1).findIdx? (SlashingSpan.endsBy · windowStart)).getD spans.prior.length

theorem Fits.prior_filter (h : spans.Fits) (windowStart : ℕ) :
    (priorSpans spans.lastStart spans.spanIndex spans.prior).filter
        (fun span => !span.endsBy windowStart)
      = (priorSpans spans.lastStart spans.spanIndex spans.prior).take (spans.kept windowStart) ∧
    (priorSpans spans.lastStart spans.spanIndex spans.prior).filter
        (SlashingSpan.endsBy · windowStart)
      = (priorSpans spans.lastStart spans.spanIndex spans.prior).drop
        (spans.kept windowStart) := by
  have hsplit := filter_of_pairwise
    (priorSpans_endsBy spans.spanIndex h.sum_le windowStart)
  rwa [length_priorSpans] at hsplit

/-- Pruning keeps the spans before the first that has ended, and names the indices of the rest. -/
theorem prune_eq (spans : SlashingSpans) (windowStart : ℕ) :
    spans.prune windowStart =
      ({ spans with
          prior := spans.prior.take (spans.kept windowStart)
          lastStart := max spans.lastStart windowStart },
        ((spans.iter.drop 1).findIdx? (SlashingSpan.endsBy · windowStart)).map fun _ =>
          (spans.earliest,
            spans.spanIndex - (spans.prior.take (spans.kept windowStart)).length)) := by
  unfold kept prune
  cases hfind : (spans.iter.drop 1).findIdx? (SlashingSpan.endsBy · windowStart) with
  | some o =>
      unfold SlashingSpan.endsBy at hfind
      simp only [hfind]
      rfl
  | none =>
      unfold SlashingSpan.endsBy at hfind
      simp only [hfind, Option.getD_none, Option.map_none, List.take_length]

/-- **Pruning removes the spans that end before the window starts**, and no others. -/
theorem Fits.prune_iter (h : spans.Fits) (windowStart : ℕ) :
    (spans.prune windowStart).1.iter
      = ⟨spans.spanIndex, max spans.lastStart windowStart, none⟩
        :: spans.iter.tail.filter fun span => !span.endsBy windowStart := by
  show _ = _ :: (priorSpans spans.lastStart spans.spanIndex spans.prior).filter _
  rw [(h.prior_filter windowStart).1]
  rcases Nat.le_total windowStart spans.lastStart with hle | hle
  · rw [prune_eq, max_eq_left hle, ← priorSpans_take]
    rfl
  · -- a window past the start of the ongoing span is past all the others
    have hnone := prune_prior_of_le h hle
    rw [prune_eq] at hnone ⊢
    dsimp only at hnone
    rw [iter, ← priorSpans_take, hnone]
    rfl

/-- The prior spans from a position on have consecutive indices. -/
theorem index_drop_priorSpans (lastStart : ℕ) {index : ℕ} {prior : List ℕ} {o : ℕ}
    (hlength : prior.length ≤ index) (ho : o ≤ prior.length) (i : ℕ) :
    (∃ span ∈ (priorSpans lastStart index prior).drop o, span.index = i) ↔
      index - prior.length ≤ i ∧ i < index - o := by
  induction prior generalizing lastStart index o with
  | nil =>
      rw [List.length_nil, Nat.le_zero] at ho
      subst ho
      simp only [priorSpans, List.drop_nil, List.not_mem_nil, false_and, exists_false, false_iff,
        List.length_nil]
      omega
  | cons length prior ih =>
      rw [List.length_cons] at hlength ho ⊢
      cases o with
      | zero =>
          have hrest := ih (lastStart - length) (show prior.length ≤ index - 1 by omega)
            (Nat.zero_le _)
          rw [List.drop_zero] at hrest ⊢
          rw [priorSpans, List.exists_mem_cons_iff, hrest]
          dsimp only
          omega
      | succ o =>
          have hrest := ih (lastStart - length) (show prior.length ≤ index - 1 by omega)
            (show o ≤ prior.length by omega)
          rw [priorSpans, List.drop_succ_cons, hrest]
          omega

/-- **Pruning names the indices of the spans it removes**, and nothing if it removes none. -/
theorem Fits.prune_range (h : spans.Fits) (windowStart : ℕ) :
    match (spans.prune windowStart).2 with
    | none => ∀ span ∈ spans.iter, span.endsBy windowStart = false
    | some (first, last) => first < last ∧ ∀ i, (first ≤ i ∧ i < last) ↔
        ∃ span ∈ spans.iter, span.index = i ∧ span.endsBy windowStart = true := by
  have hremoved := (h.prior_filter windowStart).2
  -- the ongoing span has no end
  have hmem : ∀ i, (∃ span ∈ spans.iter, span.index = i ∧ span.endsBy windowStart = true) ↔
      ∃ span ∈ (priorSpans spans.lastStart spans.spanIndex spans.prior).drop
        (spans.kept windowStart), span.index = i := by
    intro i
    rw [← hremoved, iter, List.exists_mem_cons_iff]
    simp [SlashingSpan.endsBy, and_comm, and_left_comm]
  have hlength : (spans.iter.drop 1).length = spans.prior.length :=
    length_priorSpans spans.lastStart spans.spanIndex spans.prior
  rw [prune_eq]
  cases hold : (spans.iter.drop 1).findIdx? (SlashingSpan.endsBy · windowStart) with
  | none =>
      rw [Option.map_none]
      intro span hspan
      rcases List.mem_cons.mp hspan with rfl | hspan
      · rfl
      · exact List.findIdx?_eq_none_iff.mp hold span hspan
  | some o =>
      have hlt : o < spans.prior.length := hlength ▸ (List.findIdx?_eq_some_iff_getElem.mp hold).1
      have hkept : spans.kept windowStart = o := by
        unfold kept
        rw [hold, Option.getD_some]
      rw [hkept] at hmem ⊢
      rw [Option.map_some, List.length_take_of_le hlt.le]
      have hprior := h.prior_le
      refine ⟨?_, fun i => ?_⟩
      · show spans.spanIndex - spans.prior.length < spans.spanIndex - o
        omega
      · rw [hmem, index_drop_priorSpans _ hprior hlt.le]
        rfl

/-- **The spans tile the eras.** After any run that ends and prunes the spans of a stash, the
iterator does not underflow and finds spans that follow each other back from the ongoing one, so
that every era from the earliest start on lies in exactly one of them. Pruning removes those that
end before the window, and no others, and returns the range of their indices. -/
theorem run_tiles (windowStart₀ : ℕ) (ops : List Op) :
    let spans := Machine.run apply (new windowStart₀) ops
    spans.checkedIter = some spans.iter ∧ spans.spanIndex ≤ spans.lastStart ∧
      spans.iter.head? = some ⟨spans.spanIndex, spans.lastStart, none⟩ ∧
      spans.iter.IsChain SlashingSpan.Follows ∧
      (∀ first, spans.iter.getLast? = some first → ∀ era, first.start ≤ era →
        ∃! span, span ∈ spans.iter ∧ span.containsEra era = true) ∧
      ∀ windowStart,
        (spans.prune windowStart).1.iter
          = ⟨spans.spanIndex, max spans.lastStart windowStart, none⟩
            :: spans.iter.tail.filter (fun span => !span.endsBy windowStart) ∧
        match (spans.prune windowStart).2 with
        | none => ∀ span ∈ spans.iter, span.endsBy windowStart = false
        | some (first, last) => first < last ∧ ∀ i, (first ≤ i ∧ i < last) ↔
            ∃ span ∈ spans.iter, span.index = i ∧ span.endsBy windowStart = true := by
  intro spans
  have h : spans.Fits :=
    Machine.run_invariant_always (fun _ op hfits => hfits.apply op) (fits_new windowStart₀) ops
  have hindex : spans.spanIndex ≤ spans.lastStart :=
    Machine.run_invariant_always
        (P := fun spans : SlashingSpans => spans.spanIndex ≤ spans.lastStart)
      (fun _ op hle => spanIndex_apply_le hle op) (Nat.zero_le windowStart₀) ops
  refine ⟨h.checkedIter_eq, hindex, rfl, h.iter_chain, ?_,
    fun windowStart => ⟨h.prune_iter windowStart, h.prune_range windowStart⟩⟩
  intro first hfirst era hera
  obtain ⟨span, hspan, hcontains⟩ := exists_containsEra hfirst hera
  exact ⟨span, ⟨hspan, hcontains⟩, fun other hother =>
    h.eq_of_era hother.1 hspan hother.2 hcontains⟩

end SlashingSpans

end Setheum.Staking
