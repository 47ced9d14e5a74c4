import Setheum.Settmint.Backing
import Setheum.Settmint.Transfers

/-!
# What covers the standard that is issued

The engine computes the reserve ratio of an adjusted position and compares it with nothing, so an
adjustment goes through whether its position is covered or not. It is covered if what its
adjustments have brought so far is enough. A book keeps that next to the state, at the lower of cost
and market: an adjustment brings the value of the reserve that it adds less that of the standard
that it issues, at the price of its own call; a transfer hands over what a position has brought; and
when the price falls, what the reserve loses is taken off.

* `Backed` — no position has brought more than its reserve is worth beyond its standard.
* `isCovered_of_surplus` — rounding does not turn a covered position into one that is not.
* `covered_of_run` — in a run whose adjustments bring enough, each leaves its position covered.
-/

set_option autoImplicit false

namespace Setheum.Settmint

open StorageMap Dispatch

variable {A E : Type} [DecidableEq A] {cfg : Config A E} {s s' : State A E}

/-! ## Coverage -/

/-- The position is worth at least what it has issued, at the prices and rates of the state. -/
def isCovered (cfg : Config A E) (s : State A E) (c : CurrencyId) (p : Position) : Bool :=
  p.standard = 0 ||
    match s.prices cfg.reserveCurrencyId c, getStandardValue cfg s c p.standard with
    | some price, .ok standardValue =>
        standardValue ≤ FixedU128.saturatingMulInt price p.reserve
    | _, _ => false

/-- If the call is an adjustment that succeeds, its position is covered at the prices and rate the
call used. -/
def LeavesCovered (cfg : Config A E) (s : State A E) : Call cfg → Prop
  | .adjustPosition who c ra sa =>
      ∀ s', (adjustPosition cfg who c ra sa).run s = .ok () s' →
        isCovered cfg s c (s'.position c who.1) = true
  | _ => True

/-- **Standard is issued against no reserve at all.** From the empty state, at a price of one and a
rate of a tenth, a hundred units of USDJ are issued to an account that has deposited nothing. -/
theorem issued_without_reserve :
    Genesis sampleState ∧
      ¬ LeavesCovered sampleConfig sampleState (.adjustPosition alice (.Token .USDJ) 0 100) := by
  refine ⟨sampleState_genesis, fun h => ?_⟩
  have hcovered := h _ (run_eq_commit (by decide +kernel))
  revert hcovered
  decide

/-- The price of the reserve currency in a standard one, zero where there is none. -/
def priceOf (cfg : Config A E) (s : State A E) (c : CurrencyId) : ℕ :=
  (s.prices cfg.reserveCurrencyId c).getD 0

/-- By how much the reserve of a position is worth more than its standard, in `FixedU128`
fractions. -/
def surplus (cfg : Config A E) (s : State A E) (c : CurrencyId) (p : Position) : ℤ :=
  priceOf cfg s c * p.reserve - rateOf cfg s c * p.standard

omit [DecidableEq A] in
/-- **A valid position with no deficit is covered**: rounding and saturation keep the order of the
exact values. -/
theorem isCovered_of_surplus {c : CurrencyId} {p : Position}
    (hvalid : checkPositionValid cfg s c p.reserve p.standard = .ok ())
    (hsurplus : 0 ≤ surplus cfg s c p) : isCovered cfg s c p = true := by
  by_cases hzero : p.standard = 0
  · simp [isCovered, hzero]
  unfold checkPositionValid at hvalid
  rw [if_neg hzero] at hvalid
  cases hvalue : getStandardValue cfg s c p.standard with
  | error e =>
      rw [hvalue] at hvalid
      cases hvalid
  | ok standardValue =>
      cases hprice : s.prices cfg.reserveCurrencyId c with
      | none =>
          rw [hvalue, hprice] at hvalid
          cases hvalid
      | some price =>
          have hconverted : convert cfg s c p.standard = .ok standardValue := by
            unfold getStandardValue at hvalue
            split at hvalue
            · exact hvalue
            · cases hvalue
          have hexact : rateOf cfg s c * p.standard ≤ price * p.reserve := by
            unfold surplus priceOf at hsurplus
            rw [hprice, Option.getD_some] at hsurplus
            exact_mod_cast sub_nonneg.mp hsurplus
          have hle : standardValue ≤ FixedU128.saturatingMulInt price p.reserve := by
            rw [convert_eq_valueOf hconverted]
            exact FixedU128.saturatingMulInt_le_saturatingMulInt hexact
          simp [isCovered, hprice, hvalue, hle]

/-! ## The book -/

/-- What the adjustments of each position have brought. -/
abbrev Book (A : Type) := CurrencyId × A → ℤ

/-- What an adjustment brings. -/
def brought (cfg : Config A E) (s : State A E) (c : CurrencyId) (ra sa : ℤ) : ℤ :=
  priceOf cfg s c * Amount.saturated ra - rateOf cfg s c * Amount.saturated sa

/-- The book after a call that goes through. A price that rises adds nothing to it. -/
def Book.after (cfg : Config A E) (s : State A E) (book : Book A) : Call cfg → Book A
  | .adjustPosition who c ra sa =>
      Function.update book (c, who.1) (book (c, who.1) + brought cfg s c ra sa)
  | .transferPositionFrom target c source =>
      if source = target.1 then book
      else Function.update (Function.update book (c, source) 0) (c, target.1)
        (book (c, target.1) + book (c, source))
  | .outside o => fun k =>
      let fall := priceOf cfg s k.1 - priceOf cfg (step cfg s (.outside o)) k.1
      book k - (fall : ℕ) * (s.position k.1 k.2).reserve
  | _ => book

/-- A call, with the book next to the state. -/
def bookStep (cfg : Config A E) (t : State A E × Book A) (call : Call cfg) :
    State A E × Book A :=
  (step cfg t.1 call,
    if (dispatch cfg call).succeeds t.1 then t.2.after cfg t.1 call else t.2)

/-- If the call is an adjustment that goes through, it repays all the standard of its position, or
with it the adjustments of the position have brought enough. -/
def BringsEnough (cfg : Config A E) (t : State A E × Book A) : Call cfg → Prop
  | .adjustPosition who c ra sa =>
      (adjustPosition cfg who c ra sa).succeeds t.1 = true →
        ((t.1.position c who.1).standard : ℤ) + Amount.saturated sa = 0 ∨
          0 ≤ t.2 (c, who.1) + brought cfg t.1 c ra sa
  | _ => True

/-- **No position has brought more than its reserve is worth beyond its standard.** -/
def Backed (cfg : Config A E) (t : State A E × Book A) : Prop :=
  ∀ c who, t.2 (c, who) ≤ surplus cfg t.1 c (t.1.position c who)

/-! ## Every call keeps the book -/

/-- An update leaves prices and rates alone. -/
theorem updateReserve_surplus {who : A} {c : CurrencyId} {ra sa : ℤ} {u : Unit}
    (h : (updateReserve cfg who c ra sa).run s = .ok u s') :
    surplus cfg s' = surplus cfg s := by
  obtain ⟨p, t, -, -, -, -, rfl⟩ := updateReserve_spec h
  rfl

/-- **What a successful adjustment leaves behind.** -/
theorem adjustPosition_surplus {who : Signer cfg} {c : CurrencyId} {ra sa : ℤ}
    (h : (adjustPosition cfg who c ra sa).run s = .ok () s') :
    surplus cfg s c (s'.position c who.1)
        = surplus cfg s c (s.position c who.1) + brought cfg s c ra sa ∧
      (∀ c' a, (c', a) ≠ (c, who.1) → s'.position c' a = s.position c' a) ∧
      ((s'.position c who.1).standard : ℤ)
        = (s.position c who.1).standard + Amount.saturated sa ∧
      checkPositionValid cfg s c (s'.position c who.1).reserve (s'.position c who.1).standard
        = .ok () ∧
      surplus cfg s' = surplus cfg s := by
  obtain ⟨s₁, l₁, l₂, hupdate, -, -, hvalid, rfl⟩ := adjustPosition_spec h
  have hupdates := updateReserve_updates hupdate
  have hsame : surplus cfg s₁ = surplus cfg s := updateReserve_surplus hupdate
  refine ⟨?_, hupdates.others, hupdates.standard, hvalid, hsame⟩
  show surplus cfg s c (s₁.position c who.1) = _
  unfold surplus brought
  rw [hupdates.reserve, hupdates.standard]
  ring

theorem adjustPosition_backed {book : Book A} (h : Backed cfg (s, book)) {who : Signer cfg}
    {c : CurrencyId} {ra sa : ℤ} (hrun : (adjustPosition cfg who c ra sa).run s = .ok () s') :
    Backed cfg (s', book.after cfg s (.adjustPosition who c ra sa)) := by
  obtain ⟨hadjusted, hothers, -, -, hsame⟩ := adjustPosition_surplus hrun
  intro c' a
  have hbefore := h c' a
  show Function.update book (c, who.1) _ (c', a) ≤ surplus cfg s' c' (s'.position c' a)
  rw [hsame]
  by_cases hkey : (c', a) = (c, who.1)
  · cases hkey
    rw [Function.update_self, hadjusted]
    exact Int.add_le_add_right hbefore _
  · rw [Function.update_of_ne hkey, hothers c' a hkey]
    exact hbefore

omit [DecidableEq A] in
theorem surplus_add (cfg : Config A E) (s : State A E) (c : CurrencyId) (p q : Position) :
    surplus cfg s c ⟨p.reserve + q.reserve, p.standard + q.standard⟩
      = surplus cfg s c p + surplus cfg s c q := by
  unfold surplus
  push_cast
  ring

/-- A transfer hands over what the position is worth and what it has brought. -/
theorem transferPositionFrom_backed (htallied : Tallied s) {book : Book A}
    (h : Backed cfg (s, book)) {target : Signer cfg} {c : CurrencyId} {source : A}
    (hrun : (transferPositionFrom cfg target c source).run s = .ok () s') :
    Backed cfg (s', book.after cfg s (.transferPositionFrom target c source)) := by
  have hsame : surplus cfg s' = surplus cfg s := by
    obtain ⟨s₁, -, -, hsource, htarget⟩ := transferPositionFrom_spec hrun
    rw [updateReserve_surplus htarget, updateReserve_surplus hsource]
  have hmoved := transferPositionFrom_transferred htallied hrun
  intro c' a
  show book.after cfg s (.transferPositionFrom target c source) (c', a)
    ≤ surplus cfg s' c' (s'.position c' a)
  rw [hsame]
  unfold Book.after
  by_cases hself : source = target.1
  · dsimp only
    rw [if_pos hself]
    by_cases hkey : (c', a) = (c, source)
    · cases hkey
      rw [hmoved.self hself]
      exact h c source
    · rw [hmoved.others c' a hkey (hself ▸ hkey)]
      exact h c' a
  · dsimp only
    rw [if_neg hself]
    by_cases htarget : (c', a) = (c, target.1)
    · cases htarget
      rw [Function.update_self, hmoved.added hself, surplus_add]
      exact Int.add_le_add (h c target.1) (h c source)
    rw [Function.update_of_ne htarget]
    by_cases hsource : (c', a) = (c, source)
    · cases hsource
      have hclosed : s'.position c source = Position.zero := by
        rw [State.position, StorageMap.get, hmoved.removed hself]
        rfl
      rw [Function.update_self, hclosed]
      simp [surplus, Position.zero]
    · rw [Function.update_of_ne hsource, hmoved.others c' a hsource htarget]
      exact h c' a

/-- A price that falls takes off what the reserve loses. -/
theorem outside_backed {book : Book A} (h : Backed cfg (s, book)) (o : Outside cfg) :
    Backed cfg (step cfg s (.outside o), book.after cfg s (.outside o)) := by
  intro c who
  have hbefore := h c who
  have hposition : (step cfg s (.outside o)).position c who = s.position c who := rfl
  have hrate : rateOf cfg (step cfg s (.outside o)) c = rateOf cfg s c := rfl
  show book (c, who) - _ ≤ surplus cfg _ c _
  rw [hposition]
  unfold surplus at hbefore ⊢
  rw [hrate]
  set price := priceOf cfg s c
  set price' := priceOf cfg (step cfg s (.outside o)) c
  have hfall : price * (s.position c who).reserve
      ≤ price' * (s.position c who).reserve + (price - price') * (s.position c who).reserve := by
    rw [← Nat.add_mul]
    exact Nat.mul_le_mul_right _ (by omega)
  zify at hfall
  dsimp only at hbefore ⊢
  linarith

/-- What a call with the book keeps. -/
structure Sound (cfg : Config A E) (t : State A E × Book A) : Prop where
  recorded : Recorded t.1
  backed : Backed cfg t

theorem bookStep_sound (t : State A E × Book A) (call : Call cfg) (h : Sound cfg t) :
    Sound cfg (bookStep cfg t call) := by
  obtain ⟨s, book⟩ := t
  refine ⟨step_recorded s call h.recorded, ?_⟩
  unfold bookStep
  cases hsucceeds : (dispatch cfg call).succeeds s with
  | false =>
      rw [step_eq_of_fails hsucceeds, if_neg Bool.false_ne_true]
      exact h.backed
  | true =>
      rw [if_pos rfl]
      cases call with
      | adjustPosition who c ra sa => exact adjustPosition_backed h.backed (run_eq_commit hsucceeds)
      | transferPositionFrom target c source =>
          exact transferPositionFrom_backed h.recorded.tallied h.backed (run_eq_commit hsucceeds)
      | authorize source c target => exact h.backed
      | unauthorize source c target => exact h.backed
      | unauthorizeAll source => exact h.backed
      | outside o => exact outside_backed h.backed o

/-- **An adjustment that brings enough leaves its position covered.** -/
theorem leavesCovered_of_bringsEnough (t : State A E × Book A) (call : Call cfg)
    (h : Sound cfg t) (hbrings : BringsEnough cfg t call) : LeavesCovered cfg t.1 call := by
  cases call with
  | adjustPosition who c ra sa =>
      intro s' hrun
      obtain ⟨hadjusted, -, hstandard, hvalid, -⟩ := adjustPosition_surplus hrun
      rcases hbrings (succeeds_of_ok hrun) with hrepaid | henough
      · have hzero : (s'.position c who.1).standard = 0 := by omega
        simp [isCovered, hzero]
      · refine isCovered_of_surplus hvalid ?_
        rw [hadjusted]
        exact henough.trans (Int.add_le_add_right (h.backed c who.1) _)
  | transferPositionFrom target c source => trivial
  | authorize source c target => trivial
  | unauthorize source c target => trivial
  | unauthorizeAll source => trivial
  | outside o => trivial

/-! ## Runs -/

/-- **SettMint collateral backing.** In a run from no positions, in which each adjustment that goes
through repays all the standard of its position or brings enough together with the adjustments of
the position before it, every adjustment that goes through leaves its position covered, whatever
happens to prices in between. -/
theorem covered_of_run (cfg : Config A E) (s : State A E) (hs : Genesis s)
    (calls : List (Call cfg))
    (h : Machine.StepsMeet (bookStep cfg) (BringsEnough cfg) (s, fun _ => 0) calls) :
    Machine.StepsMeet (step cfg) (LeavesCovered cfg) s calls := by
  refine Machine.StepsMeet.map Prod.fst (fun _ _ => rfl)
    (fun t call ht _ => bookStep_sound t call ht) leavesCovered_of_bringsEnough ⟨hs.recorded, ?_⟩ h
  intro c who
  have hnone : s.position c who = Position.zero := by
    rw [State.position, hs.positions]
    rfl
  show (0 : ℤ) ≤ surplus cfg s c (s.position c who)
  rw [hnone]
  simp [surplus, Position.zero]

/-- The price of the reserve currency halves. -/
def priceHalves : Outside sampleConfig where
  ledger := State.ledger
  system := State.system
  prices _ _ _ := some (FixedU128.accuracy / 2)
  external := State.external
  manager_free _ _ := Nat.le_refl _
  consumers_eq _ _ := rfl

/-- A deposit of 100 is issued against, and handed over after the price has halved. Ten more units
are deposited then and fifty repaid. -/
def coveredRun : List (Call sampleConfig) :=
  [.adjustPosition alice (.Token .USDJ) 100 0, .adjustPosition alice (.Token .USDJ) 0 400,
    .outside priceHalves, .authorize alice (.Token .USDJ) 2,
    .transferPositionFrom bob (.Token .USDJ) 1, .adjustPosition bob (.Token .USDJ) 10 (-50)]

/-- Every adjustment goes through, and leaves a covered position. -/
theorem coveredRun_covered :
    Machine.StepsMeet (step sampleConfig) (LeavesCovered sampleConfig) sampleState coveredRun ∧
      (Machine.run (step sampleConfig) sampleState coveredRun).position (.Token .USDJ) 2
        = ⟨110, 350⟩ := by
  refine ⟨covered_of_run sampleConfig sampleState sampleState_genesis coveredRun
    ⟨fun _ => .inr ?_, fun _ => .inr ?_, trivial, trivial, trivial, fun _ => .inr ?_, trivial⟩, ?_⟩
  · decide +kernel
  · decide +kernel
  · decide +kernel
  · decide +kernel

end Setheum.Settmint
