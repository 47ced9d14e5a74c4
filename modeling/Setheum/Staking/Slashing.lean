import Setheum.Staking.Eras

/-!
# Slashes for offences

`compute_slash` and `slash_nominators` of the slashing module. A stash's eras are divided into
spans; an offence is charged only as far as it exceeds what was already charged for its span. The
spans of a stash and the records of what was charged are read, changed and written back by an
`InspectingSpans`, whose drop handler is `drop`.

Eras and span indices are natural numbers. `comparisons` is a history that the functions only add
to: each comparison of an era slash with a record, and what it charged.
-/

set_option autoImplicit false

namespace Setheum.Staking

open StorageMap

/-! ## Spans -/

structure SlashingSpan where
  index : ℕ
  start : ℕ
  /-- The ongoing span has no length yet. -/
  length : Option ℕ
  deriving DecidableEq, Repr

def SlashingSpan.containsEra (span : SlashingSpan) (era : ℕ) : Bool :=
  decide (span.start ≤ era) && span.length.all fun l => decide (span.start + l > era)

namespace SlashingSpans

def new (windowStart : ℕ) : SlashingSpans := ⟨0, windowStart, 0, []⟩

/-- End the ongoing span after `now`, unless it starts later; whether it was ended. -/
def endSpan (spans : SlashingSpans) (now : ℕ) : SlashingSpans × Bool :=
  let nextStart := now + 1
  if nextStart ≤ spans.lastStart then (spans, false)
  else
    ({ spans with
        prior := (nextStart - spans.lastStart) :: spans.prior
        lastStart := nextStart
        spanIndex := spans.spanIndex + 1 }, true)

/-- The prior spans before a start, from the lengths of those spans. -/
def priorSpans : ℕ → ℕ → List ℕ → List SlashingSpan
  | _, _, [] => []
  | lastStart, index, length :: prior =>
      ⟨index - 1, lastStart - length, some length⟩
        :: priorSpans (lastStart - length) (index - 1) prior

/-- All spans, the most recent first. -/
def iter (spans : SlashingSpans) : List SlashingSpan :=
  ⟨spans.spanIndex, spans.lastStart, none⟩
    :: priorSpans spans.lastStart spans.spanIndex spans.prior

/-- Remove the spans that end before a window, and the range of their indices. -/
def prune (spans : SlashingSpans) (windowStart : ℕ) : SlashingSpans × Option (ℕ × ℕ) :=
  let oldIdx := (spans.iter.drop 1).findIdx? fun span =>
    span.length.any fun len => decide (span.start + len ≤ windowStart)
  let earliestSpanIndex := spans.spanIndex - spans.prior.length
  let lastStart := max spans.lastStart windowStart
  match oldIdx with
  | some o =>
      let prior := spans.prior.take o
      ({ spans with prior, lastStart }, some (earliestSpanIndex, spans.spanIndex - prior.length))
  | none => ({ spans with lastStart }, none)

end SlashingSpans

/-- What was charged for a span of a stash and what of it was paid out. -/
structure SpanRecord where
  slashed : ℕ
  paidOut : ℕ
  deriving DecidableEq, Repr

def SpanRecord.default : SpanRecord := ⟨0, 0⟩

/-- `REWARD_F1`: the part of a reward that is paid at the first detection. -/
def rewardF1 : Perbill := ⟨500000000, by decide⟩

/-- What an era slash makes of the record of its span, the difference to charge and the reward. -/
def SpanRecord.compare (record : SpanRecord) (rewardProportion : Perbill) (slash : ℕ) :
    SpanRecord × ℕ × ℕ :=
  let reward := rewardF1.mul (rewardProportion.mul slash - record.paidOut)
  if record.slashed < slash then
    (⟨slash, record.paidOut + reward⟩, slash - record.slashed, reward)
  else if record.slashed = slash then (⟨record.slashed, record.paidOut + reward⟩, 0, reward)
  else (record, 0, 0)

/-! ## State -/

/-- A comparison of an era slash with the record of a span, if a span covers the era, and the
difference it charged. -/
structure Comparison (A : Type) where
  stash : A
  span : Option ℕ
  era : ℕ
  slash : ℕ
  charge : ℕ

structure SlashState (A : Type) where
  staking : State A
  validatorSlashInEra : Map (ℕ × A) (Perbill × ℕ)
  nominatorSlashInEra : Map (ℕ × A) ℕ
  spanSlash : Map (A × ℕ) SpanRecord
  comparisons : List (Comparison A)

structure SlashParams (A : Type) where
  stash : A
  slash : Perbill
  exposure : Exposure A
  slashEra : ℕ
  windowStart : ℕ
  now : ℕ
  rewardProportion : Perbill

/-- A slash to be applied later; its reporters are set at a higher level. -/
structure UnappliedSlash (A : Type) where
  validator : A
  own : ℕ
  others : List (A × ℕ)
  payout : ℕ

/-- The spans of a stash while they are inspected. -/
structure InspectingSpans (A : Type) where
  dirty : Bool
  windowStart : ℕ
  stash : A
  spans : SlashingSpans
  paidOut : ℕ
  slashOf : ℕ
  rewardProportion : Perbill

variable {A : Type} [DecidableEq A]

def SlashState.setSpans (s : SlashState A) (stash : A) (spans : SlashingSpans) : SlashState A :=
  { s with staking :=
      { s.staking with
        slashingSpans := Function.update s.staking.slashingSpans stash (some spans) } }

def SlashState.removeRecords (s : SlashState A) (stash : A) (indices : List ℕ) : SlashState A :=
  let erase (records : Map (A × ℕ) SpanRecord) (spanIndex : ℕ) := records.erase (stash, spanIndex)
  { s with spanSlash := indices.foldl erase s.spanSlash }

/-! ## Inspecting the spans of a stash -/

def fetchSpans (stash : A) (windowStart paidOut slashOf : ℕ) (rewardProportion : Perbill)
    (s : SlashState A) : InspectingSpans A × SlashState A :=
  match s.staking.slashingSpans stash with
  | some spans => (⟨false, windowStart, stash, spans, paidOut, slashOf, rewardProportion⟩, s)
  | none =>
      let spans := SlashingSpans.new windowStart
      (⟨false, windowStart, stash, spans, paidOut, slashOf, rewardProportion⟩,
        s.setSpans stash spans)

namespace InspectingSpans

omit [DecidableEq A] in
def endSpan (i : InspectingSpans A) (now : ℕ) : InspectingSpans A :=
  { i with spans := (i.spans.endSpan now).1, dirty := (i.spans.endSpan now).2 || i.dirty }

def addSlash (i : InspectingSpans A) (amount slashEra : ℕ) : InspectingSpans A :=
  { i with
    slashOf := i.slashOf + amount
    spans := { i.spans with lastNonzeroSlash := max i.spans.lastNonzeroSlash slashEra } }

/-- The span that covers an era. -/
def eraSpan (i : InspectingSpans A) (era : ℕ) : Option SlashingSpan :=
  i.spans.iter.find? fun span => span.containsEra era

/-- Compare an era slash with the record of its span; the index of that span. -/
def compareAndUpdateSpanSlash (i : InspectingSpans A) (slashEra slash : ℕ) (s : SlashState A) :
    Option ℕ × InspectingSpans A × SlashState A :=
  match i.eraSpan slashEra with
  | none =>
      (none, i, { s with comparisons := s.comparisons ++ [⟨i.stash, none, slashEra, slash, 0⟩] })
  | some targetSpan =>
      let spanSlashKey := (i.stash, targetSpan.index)
      let spanRecord := get SpanRecord.default s.spanSlash spanSlashKey
      let (spanRecord', difference, reward) := spanRecord.compare i.rewardProportion slash
      let i' := if spanRecord.slashed < slash then i.addSlash difference slashEra else i
      let i'' := { i' with paidOut := i'.paidOut + reward }
      let s' := { s with comparisons := s.comparisons
        ++ [⟨i.stash, some targetSpan.index, slashEra, slash, difference⟩] }
      if spanRecord.slashed < slash ∨ reward ≠ 0 then
        (some targetSpan.index, { i'' with dirty := true },
          { s' with spanSlash := s.spanSlash.insert spanSlashKey spanRecord' })
      else (some targetSpan.index, i'', s')

/-- Write the spans back if they changed, without those that ended before the window. -/
def drop (i : InspectingSpans A) (s : SlashState A) : SlashState A :=
  if i.dirty then
    let (spans, pruned) := i.spans.prune i.windowStart
    let s' := match pruned with
      | some (first, last) => s.removeRecords i.stash (List.range' first (last - first))
      | none => s
    s'.setSpans i.stash spans
  else s

end InspectingSpans

/-! ## Slashing -/

/-- Chill a validator and disable it, which may force a new era. -/
def chillAndDisable (stash : A) (disabled : Bool) (s : SlashState A) : SlashState A :=
  let staking := chillStash stash s.staking
  { s with staking := if disabled then ensureNewEra staking else staking }

/-- Compare the era slash of a stash with its spans. An offence within the ongoing span ends it,
with what else is to happen then. What is paid out and charged. -/
def slashSpan (stash : A) (params : SlashParams A) (slash rewardPayout : ℕ)
    (recent : SlashState A → SlashState A) (s : SlashState A) : ℕ × ℕ × SlashState A :=
  let (spans, s) := fetchSpans stash params.windowStart rewardPayout 0 params.rewardProportion s
  let (targetSpan, spans, s) := spans.compareAndUpdateSpanSlash params.slashEra slash s
  if targetSpan = some spans.spans.spanIndex then
    let spans := spans.endSpan params.now
    (spans.paidOut, spans.slashOf, spans.drop (recent s))
  else (spans.paidOut, spans.slashOf, spans.drop s)

/-- Kick out a validator for an offence within its ongoing span. -/
def kickOutIfRecent (params : SlashParams A) (disabled : Bool) (s : SlashState A) : SlashState A :=
  let (spans, s) := fetchSpans params.stash params.windowStart 0 0 params.rewardProportion s
  if (spans.eraSpan params.slashEra).map SlashingSpan.index = some spans.spans.spanIndex then
    (spans.endSpan params.now).drop (chillAndDisable params.stash disabled s)
  else spans.drop s

/-- The slash of a nominator in an era: it grows by what the new slash of the validator exceeds
the prior one. -/
def nominatorEraSlash (params : SlashParams A) (priorSlashP : Perbill)
    (nominator : IndividualExposure A) (s : SlashState A) : ℕ :=
  get 0 s.nominatorSlashInEra (params.slashEra, nominator.who)
    + (params.slash.mul nominator.value - priorSlashP.mul nominator.value)

def slashNominator (params : SlashParams A) (priorSlashP : Perbill)
    (nominator : IndividualExposure A) (rewardPayout : ℕ) (s : SlashState A) :
    ℕ × ℕ × SlashState A :=
  let eraSlash := nominatorEraSlash params priorSlashP nominator s
  slashSpan nominator.who params eraSlash rewardPayout id
    { s with nominatorSlashInEra :=
        s.nominatorSlashInEra.insert (params.slashEra, nominator.who) eraSlash }

/-- Slash the nominators in turn; what is paid out and what each is charged. -/
def slashNominators (params : SlashParams A) (priorSlashP : Perbill) :
    List (IndividualExposure A) → ℕ → SlashState A → ℕ × List (A × ℕ) × SlashState A
  | [], rewardPayout, s => (rewardPayout, [], s)
  | nominator :: others, rewardPayout, s =>
      let (rewardPayout, nomSlashed, s) :=
        slashNominator params priorSlashP nominator rewardPayout s
      let (rewardPayout, nominatorsSlashed, s) :=
        slashNominators params priorSlashP others rewardPayout s
      (rewardPayout, (nominator.who, nomSlashed) :: nominatorsSlashed, s)

/-- Slash a validator and its nominators for an offence, unless an offence of the same era was
slashed as much. `disabled` is what the session pallet answers to `disable_validator`. -/
def computeSlash (params : SlashParams A) (disabled : Bool) (s : SlashState A) :
    Option (UnappliedSlash A) × SlashState A :=
  let ownSlash := params.slash.mul params.exposure.own
  if params.slash.mul params.exposure.total = 0 then (none, kickOutIfRecent params disabled s)
  else
    let (priorSlashP, _) :=
      get (PerThing.zero, 0) s.validatorSlashInEra (params.slashEra, params.stash)
    if params.slash.parts > priorSlashP.parts then
      let validatorSlashInEra :=
        s.validatorSlashInEra.insert (params.slashEra, params.stash) (params.slash, ownSlash)
      let (rewardPayout, valSlashed, s) :=
        slashSpan params.stash params ownSlash 0 (chillAndDisable params.stash disabled)
          { s with validatorSlashInEra }
      let (nominatorsPayout, nominatorsSlashed, s) :=
        slashNominators params priorSlashP params.exposure.others 0 s
      (some ⟨params.stash, valSlashed, nominatorsSlashed, rewardPayout + nominatorsPayout⟩, s)
    else (none, s)

/-- Forget the slashes of an obsolete era. -/
def clearEraMetadata (obsoleteEra : ℕ) (s : SlashState A) : SlashState A :=
  { s with
    validatorSlashInEra := restrict (fun k => k.1 ≠ obsoleteEra) s.validatorSlashInEra
    nominatorSlashInEra := restrict (fun k => k.1 ≠ obsoleteEra) s.nominatorSlashInEra }

/-! ## Runs -/

/-- A report of an offence, the end of what is kept about an era, and all else that happens on the
chain, which leaves the spans alone. -/
inductive SlashAct (A : Type)
  | report (params : SlashParams A) (disabled : Bool)
  | clearEraMetadata (obsoleteEra : ℕ)
  | other (f : State A → State A) (spans : ∀ s, (f s).slashingSpans = s.slashingSpans)

/-- A condition on the reports. -/
def SlashAct.Meets (P : SlashParams A → Prop) : SlashAct A → Prop
  | .report params _ => P params
  | _ => True

def slashStep (s : SlashState A) : SlashAct A → SlashState A
  | .report params disabled => (computeSlash params disabled s).2
  | .clearEraMetadata obsoleteEra => clearEraMetadata obsoleteEra s
  | .other f _ => { s with staking := f s.staking }

/-- No offence was reported yet. -/
structure NeverSlashed (s : SlashState A) : Prop where
  slashingSpans : ∀ stash, s.staking.slashingSpans stash = none
  spanSlash : s.spanSlash = ∅
  comparisons : s.comparisons = []

end Setheum.Staking
