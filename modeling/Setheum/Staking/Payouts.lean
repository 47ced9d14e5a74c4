import Setheum.Staking.Books

/-!
# What a payment credits

A reward is due in two currencies, to the account that the reward destination of the stash denotes.
`PaysBoth` says what a payment is for: both currencies credit the account as far as they accept the
deposit, each whatever the other does, and a destination that stakes the reward stakes what was
credited. `makePayout` meets it for some destinations only: `make_setter_payout` has no arm for
`Staked` and `Controller`, and a stash that stakes a reward grows by it whether the deposit
succeeds or not.

* `makePayout_pays_iff` — when a payment credits both currencies.
* `payouts_pay_iff` — the same in every state of a run and for every payment of a payout.
-/

set_option autoImplicit false

namespace Setheum.Staking

variable {A : Type} [DecidableEq A] {cfg : Config A}

/-! ## What a payment is for -/

/-- The account that the reward destination of a stash denotes. -/
def State.denoted (s : State A) (stash : A) : Option A :=
  match s.payee stash with
  | .Staked => some stash
  | .Stash => some stash
  | .Controller => s.bonded stash
  | .Account account => some account
  | .None => none

/-- The destination stakes the reward. -/
def State.restakes (s : State A) (stash : A) : Bool :=
  match s.payee stash with
  | .Staked => true
  | _ => false

/-- The part of a Setter amount that is credited: all of it, unless the currency refuses. -/
def setterCredit (cfg : Config A) (s : State A) (who : A) (amount : ℕ) : ℕ :=
  if (Ledger.deposit cfg.setterRules () who amount s.setter).isOk then amount else 0

/-- The part of a native amount that is credited. A deposit to a stash is made into an existing
account, any other one may create it. -/
def nativeCredit (cfg : Config A) (s : State A) (stash who : A) (amount : ℕ) : ℕ :=
  let accepted := match s.payee stash with
    | .Staked => cfg.depositIntoExistingAllowed s.native who amount
    | .Stash => cfg.depositIntoExistingAllowed s.native who amount
    | _ => cfg.depositCreatingAllowed s.native who amount
  if accepted then amount else 0

/-- Both currencies credit an account and the issuance, and the stake of the stash and its lock
grow by what is credited if the destination stakes it. -/
structure CreditsBoth (cfg : Config A) (s : State A) (stash who : A)
    (setterAmount nativeAmount : ℕ) (s' : State A) : Prop where
  setter_free : ∀ x, s'.setter.free () x
    = s.setter.free () x + if x = who then setterCredit cfg s who setterAmount else 0
  setter_issuance : s'.setter.issuance ()
    = s.setter.issuance () + setterCredit cfg s who setterAmount
  native_free : ∀ x, s'.native.free x
    = s.native.free x + if x = who then nativeCredit cfg s stash who nativeAmount else 0
  native_issuance : s'.native.issuance
    = s.native.issuance + nativeCredit cfg s stash who nativeAmount
  ledger : ∀ c, s'.ledger c
    = if s.restakes stash = true ∧ s.bonded stash = some c then
        (s.ledger c).map fun l => l.stake (nativeCredit cfg s stash who nativeAmount)
      else s.ledger c
  lock : ∀ x, (s'.stakingLock x).getD 0 = (s.stakingLock x).getD 0
    + if s.restakes stash = true ∧ x = stash then nativeCredit cfg s stash who nativeAmount else 0

/-- A payment credits both currencies, or changes nothing where the destination denotes nobody. -/
def PaysBoth (cfg : Config A) (s : State A) (stash : A) (setterAmount nativeAmount : ℕ)
    (s' : State A) : Prop :=
  match s.denoted stash with
  | some who => CreditsBoth cfg s stash who setterAmount nativeAmount s'
  | none => s' = s

/-- The destinations that the Setter currency is not issued for get none: none is due, or it would
be refused. -/
def NoSetterDue (cfg : Config A) (s : State A) (who : A) (setterAmount : ℕ) : Prop :=
  setterAmount = 0 ∨ (Ledger.deposit cfg.setterRules () who setterAmount s.setter).isOk = false

/-- A reward that is staked is deposited, and the lock is right before it. -/
def StakeFits (cfg : Config A) (s : State A) (stash : A) (nativeAmount : ℕ) : Prop :=
  nativeAmount = 0 ∨ cfg.depositIntoExistingAllowed s.native stash nativeAmount = true ∧
    ∀ controller ∈ s.bonded stash, ∀ l ∈ s.ledger controller,
      (s.stakingLock stash).getD 0 = l.total

/-- The condition on a payment to credit both currencies. -/
def PayoutFits (cfg : Config A) (s : State A) (stash : A) (setterAmount nativeAmount : ℕ) : Prop :=
  match s.payee stash with
  | .Controller => ∀ controller ∈ s.bonded stash, NoSetterDue cfg s controller setterAmount
  | .Staked => NoSetterDue cfg s stash setterAmount ∧ StakeFits cfg s stash nativeAmount
  | _ => True

/-! ## The two parts of a payment -/

section Parts

variable {s : State A} {stash who : A} {n : ℕ}

theorem mint_native (allowed : Bool) (who : A) (n : ℕ) (s : State A) :
    (∀ x, (mint allowed who n s).native.free x
        = s.native.free x + if x = who then (if allowed then n else 0) else 0) ∧
      (mint allowed who n s).native.issuance
        = s.native.issuance + if allowed then n else 0 := by
  unfold mint
  cases allowed with
  | false => simp
  | true =>
      refine ⟨fun x => ?_, rfl⟩
      by_cases hx : x = who
      · subst hx
        simp
      · simp [hx]

theorem mint_rest (allowed : Bool) (who : A) (n : ℕ) (s : State A) :
    (mint allowed who n s).setter = s.setter ∧ (mint allowed who n s).ledger = s.ledger ∧
      (mint allowed who n s).stakingLock = s.stakingLock := by
  unfold mint
  split <;> exact ⟨rfl, rfl, rfl⟩

variable (cfg) in
/-- The Setter part of a payment changes the Setter currency only. -/
theorem makeSetterPayout_eq (stash : A) (n : ℕ) (s : State A) :
    ∃ l, makeSetterPayout cfg stash n s = { s with setter := l } := by
  unfold makeSetterPayout
  dsimp only
  split
  · split
    · exact ⟨_, rfl⟩
    · exact ⟨s.setter, rfl⟩
  · split
    · exact ⟨_, rfl⟩
    · exact ⟨s.setter, rfl⟩
  · exact ⟨s.setter, rfl⟩

/-- To these destinations the Setter currency is issued as far as it accepts the deposit. -/
theorem makeSetterPayout_issues
    (hpayee : s.payee stash = .Stash ∧ who = stash ∨ s.payee stash = .Account who) (n : ℕ) :
    makeSetterPayout cfg stash n s
      = (Ledger.deposit cfg.setterRules () who n s.setter).toOption.elim s fun l =>
          { s with setter := l } := by
  unfold makeSetterPayout
  rcases hpayee with ⟨hstash, rfl⟩ | haccount
  · rw [hstash]
    dsimp only
    cases Ledger.deposit cfg.setterRules () who n s.setter <;> rfl
  · rw [haccount]
    dsimp only
    cases Ledger.deposit cfg.setterRules () who n s.setter <;> rfl

theorem makeSetterPayout_credits
    (hpayee : s.payee stash = .Stash ∧ who = stash ∨ s.payee stash = .Account who) (n : ℕ) :
    (∀ x, (makeSetterPayout cfg stash n s).setter.free () x
        = s.setter.free () x + if x = who then setterCredit cfg s who n else 0) ∧
      (makeSetterPayout cfg stash n s).setter.issuance ()
        = s.setter.issuance () + setterCredit cfg s who n := by
  rw [makeSetterPayout_issues hpayee]
  unfold setterCredit
  cases hdeposit : Ledger.deposit cfg.setterRules () who n s.setter with
  | error e => simp [Except.toOption, Except.isOk, Except.toBool]
  | ok l =>
      simp only [Except.toOption, Option.elim_some]
      refine ⟨fun x => ?_, ?_⟩
      · have hfree := Ledger.deposit_free hdeposit () x
        simpa [Except.isOk, Except.toBool] using hfree
      · have hissuance := Ledger.deposit_issuance hdeposit ()
        simpa [Except.isOk, Except.toBool] using hissuance

/-- It is issued to no others. -/
theorem makeSetterPayout_skips (hpayee : s.payee stash = .Controller ∨ s.payee stash = .Staked ∨
    s.payee stash = .None) (n : ℕ) : makeSetterPayout cfg stash n s = s := by
  unfold makeSetterPayout
  rcases hpayee with h | h | h <;> rw [h]

theorem setterCredit_eq_zero_iff :
    setterCredit cfg s who n = 0 ↔ NoSetterDue cfg s who n := by
  unfold setterCredit NoSetterDue
  cases (Ledger.deposit cfg.setterRules () who n s.setter).isOk <;> simp

omit [DecidableEq A] in
theorem nativeCredit_zero (stash who : A) : nativeCredit cfg s stash who 0 = 0 := by
  unfold nativeCredit
  exact ite_self 0

/-- The native currency is minted to these as far as it accepts the deposit. -/
theorem makeNativePayout_mints (hpayee : s.payee stash = .Stash ∧ who = stash ∨
      s.payee stash = .Account who ∨ s.payee stash = .Controller ∧ s.bonded stash = some who)
    (hpos : n ≠ 0) : ∃ allowed, makeNativePayout cfg stash n s = mint allowed who n s ∧
      nativeCredit cfg s stash who n = if allowed then n else 0 := by
  unfold makeNativePayout nativeCredit
  rw [if_neg hpos]
  rcases hpayee with ⟨hstash, rfl⟩ | haccount | ⟨hcontroller, hbonded⟩
  · rw [hstash]
    exact ⟨_, rfl, rfl⟩
  · rw [haccount]
    exact ⟨_, rfl, rfl⟩
  · rw [hcontroller, hbonded]
    exact ⟨_, rfl, rfl⟩

variable (cfg s) in
/-- Where nothing is staked, the native currency alone changes, by what is credited. -/
theorem makeNativePayout_credits (hpayee : s.payee stash = .Stash ∧ who = stash ∨
      s.payee stash = .Account who ∨ s.payee stash = .Controller ∧ s.bonded stash = some who)
    (n : ℕ) :
    (∀ x, (makeNativePayout cfg stash n s).native.free x
        = s.native.free x + if x = who then nativeCredit cfg s stash who n else 0) ∧
      (makeNativePayout cfg stash n s).native.issuance
        = s.native.issuance + nativeCredit cfg s stash who n ∧
      (makeNativePayout cfg stash n s).setter = s.setter ∧
      (makeNativePayout cfg stash n s).ledger = s.ledger ∧
      (makeNativePayout cfg stash n s).stakingLock = s.stakingLock := by
  rcases Nat.eq_zero_or_pos n with rfl | hpos
  · have hsame : makeNativePayout cfg stash 0 s = s := if_pos rfl
    rw [hsame, nativeCredit_zero]
    exact ⟨fun x => by simp, rfl, rfl, rfl, rfl⟩
  · obtain ⟨allowed, hmint, hcredit⟩ : ∃ allowed, makeNativePayout cfg stash n s
        = mint allowed who n s ∧ nativeCredit cfg s stash who n = if allowed then n else 0 :=
      makeNativePayout_mints hpayee hpos.ne'
    rw [hmint, hcredit]
    exact ⟨(mint_native allowed who n s).1, (mint_native allowed who n s).2,
      mint_rest allowed who n s⟩

variable (cfg) in
/-- A staked reward adds its whole amount to the ledger and sets the lock to the new total. -/
theorem makeNativePayout_stakes {controller : A} {l : StakingLedger A}
    (hpayee : s.payee stash = .Staked) (hbonded : s.bonded stash = some controller)
    (hl : s.ledger controller = some l) (hstash : l.stash = stash) (hpos : n ≠ 0) :
    (∀ x, (makeNativePayout cfg stash n s).native.free x
        = s.native.free x + if x = stash then nativeCredit cfg s stash stash n else 0) ∧
      (makeNativePayout cfg stash n s).native.issuance
        = s.native.issuance + nativeCredit cfg s stash stash n ∧
      (makeNativePayout cfg stash n s).setter = s.setter ∧
      (makeNativePayout cfg stash n s).ledger
        = Function.update s.ledger controller (some (l.stake n)) ∧
      (makeNativePayout cfg stash n s).stakingLock
        = Function.update s.stakingLock stash
            (cfg.setLock (s.stakingLock stash) (l.total + n)) := by
  let allowed := cfg.depositIntoExistingAllowed s.native stash n
  have hpays : makeNativePayout cfg stash n s
      = updateLedger cfg controller (l.stake n) (mint allowed stash n s) := by
    unfold makeNativePayout
    rw [if_neg hpos, hpayee, hbonded]
    dsimp only
    rw [hl]
    rfl
  have hcredit : nativeCredit cfg s stash stash n = if allowed then n else 0 := by
    unfold nativeCredit
    rw [hpayee]
  obtain ⟨hsetter, hledger, hlocks⟩ := mint_rest allowed stash n s
  rw [hpays, hcredit]
  refine ⟨(mint_native allowed stash n s).1, (mint_native allowed stash n s).2, hsetter, ?_, ?_⟩
  · show Function.update (mint allowed stash n s).ledger controller _ = _
    rw [hledger]
  · show Function.update (mint allowed stash n s).stakingLock (l.stake n).stash
      (cfg.setLock ((mint allowed stash n s).stakingLock (l.stake n).stash) (l.stake n).total) = _
    rw [hlocks, ← hstash]
    rfl

end Parts

/-! ## What a payment does -/

section Payment

variable {s : State A} {stash who : A} {setterAmount nativeAmount : ℕ}

/-- Where nothing is staked, a payment credits both currencies if its Setter part does. -/
theorem creditsBoth_iff (hpayee : s.payee stash = .Stash ∧ who = stash ∨
      s.payee stash = .Account who ∨ s.payee stash = .Controller ∧ s.bonded stash = some who) :
    CreditsBoth cfg s stash who setterAmount nativeAmount
        (makePayout cfg s (stash, setterAmount, nativeAmount)) ↔
      (∀ x, (makeSetterPayout cfg stash setterAmount s).setter.free () x
          = s.setter.free () x + if x = who then setterCredit cfg s who setterAmount else 0) ∧
        (makeSetterPayout cfg stash setterAmount s).setter.issuance ()
          = s.setter.issuance () + setterCredit cfg s who setterAmount := by
  have hstakes : ¬ s.restakes stash = true := by
    unfold State.restakes
    rcases hpayee with ⟨h, -⟩ | h | ⟨h, -⟩ <;> simp [h]
  obtain ⟨l, hsetter⟩ := makeSetterPayout_eq cfg stash setterAmount s
  unfold makePayout
  dsimp only
  rw [hsetter]
  -- the native part reads nothing that the Setter part wrote
  obtain ⟨hfree, hissuance, hsame, hledger, hlock⟩ :=
    makeNativePayout_credits cfg { s with setter := l } hpayee nativeAmount
  constructor
  · intro h
    have hf := h.setter_free
    have hi := h.setter_issuance
    rw [hsame] at hf hi
    exact ⟨hf, hi⟩
  · rintro ⟨hf, hi⟩
    refine ⟨?_, ?_, hfree, hissuance, fun c => ?_, fun x => ?_⟩
    · rw [hsame]
      exact hf
    · rw [hsame]
      exact hi
    · rw [hledger, if_neg fun h => hstakes h.1]
    · rw [hlock, if_neg fun h => hstakes h.1, Nat.add_zero]

/-- A Setter balance that stays as it is was credited only if nothing was due. -/
theorem setter_unchanged_iff :
    ((∀ x, s.setter.free () x
        = s.setter.free () x + if x = who then setterCredit cfg s who setterAmount else 0) ∧
      s.setter.issuance () = s.setter.issuance () + setterCredit cfg s who setterAmount) ↔
        NoSetterDue cfg s who setterAmount := by
  rw [← setterCredit_eq_zero_iff]
  constructor
  · rintro ⟨-, hissuance⟩
    omega
  · intro hzero
    rw [hzero]
    exact ⟨fun x => by simp, rfl⟩

/-- A state that stays as it is was paid right only if nothing was due. -/
theorem creditsBoth_self :
    CreditsBoth cfg s stash who setterAmount 0 s ↔ NoSetterDue cfg s who setterAmount := by
  have hcredit : nativeCredit cfg s stash who 0 = 0 := nativeCredit_zero stash who
  rw [← setter_unchanged_iff]
  constructor
  · intro h
    exact ⟨h.setter_free, h.setter_issuance⟩
  · rintro ⟨hf, hi⟩
    refine ⟨hf, hi, fun x => ?_, ?_, fun c => ?_, fun x => ?_⟩
    · rw [hcredit, ite_self, Nat.add_zero]
    · rw [hcredit, Nat.add_zero]
    · rw [hcredit]
      split
      · cases s.ledger c <;> rfl
      · rfl
    · rw [hcredit, ite_self, Nat.add_zero]

section Staked

variable (hlock : IgnoresZero cfg.setLock) {controller : A} {l : StakingLedger A}
  (hpayee : s.payee stash = .Staked) (hbonded : s.bonded stash = some controller)
  (hl : s.ledger controller = some l) (hstash : l.stash = stash)

include hlock hpayee hbonded hl hstash

/-- An amount that is not zero is staked as credited when it is deposited and the lock was right. -/
theorem creditsBoth_staked_of_pos (hpos : nativeAmount ≠ 0) :
    CreditsBoth cfg s stash stash setterAmount nativeAmount
        (makeNativePayout cfg stash nativeAmount s) ↔
      NoSetterDue cfg s stash setterAmount ∧ StakeFits cfg s stash nativeAmount := by
  have hstakes : s.restakes stash = true := by
    unfold State.restakes
    rw [hpayee]
  rw [← setter_unchanged_iff]
  have hnative := makeNativePayout_stakes cfg hpayee hbonded hl hstash hpos
  obtain ⟨hfree, hissuance, hsetter, hledger, hlocks⟩ := hnative
  have hcredit : nativeCredit cfg s stash stash nativeAmount
      = if cfg.depositIntoExistingAllowed s.native stash nativeAmount then nativeAmount
        else 0 := by
    unfold nativeCredit
    rw [hpayee]
  have hset : cfg.setLock (s.stakingLock stash) (l.total + nativeAmount)
      = some (l.total + nativeAmount) := by
    rw [hlock, if_neg (by omega)]
  rw [hset] at hlocks
  constructor
  · intro h
    have hf := h.setter_free
    have hi := h.setter_issuance
    rw [hsetter] at hf hi
    -- the ledger grew by the whole amount, so the whole amount was credited
    have hfull : nativeCredit cfg s stash stash nativeAmount = nativeAmount := by
      have hgrown := h.ledger controller
      rw [hledger, Function.update_self, if_pos ⟨hstakes, hbonded⟩, hl, Option.map_some] at hgrown
      have htotal : l.total + nativeAmount
          = l.total + nativeCredit cfg s stash stash nativeAmount :=
        congrArg StakingLedger.total (Option.some.inj hgrown)
      omega
    refine ⟨⟨hf, hi⟩, .inr ⟨?_, fun c hc m hm => ?_⟩⟩
    · by_contra hrefused
      rw [hcredit, if_neg hrefused] at hfull
      omega
    · obtain rfl : controller = c := Option.some.inj (hbonded.symm.trans hc)
      obtain rfl : l = m := Option.some.inj (hl.symm.trans hm)
      have hraised := h.lock stash
      rw [hlocks, Function.update_self, if_pos ⟨hstakes, rfl⟩, hfull, Option.getD_some] at hraised
      omega
  · rintro ⟨⟨hf, hi⟩, hnone | ⟨hallowed, hright⟩⟩
    · exact absurd hnone hpos
    · have hfull : nativeCredit cfg s stash stash nativeAmount = nativeAmount := by
        rw [hcredit, if_pos hallowed]
      have hold := hright controller hbonded l hl
      refine ⟨?_, ?_, hfree, hissuance, fun c => ?_, fun x => ?_⟩
      · rw [hsetter]
        exact hf
      · rw [hsetter]
        exact hi
      · rw [hledger, hfull]
        by_cases hc : c = controller
        · subst hc
          rw [Function.update_self, if_pos ⟨hstakes, hbonded⟩, hl, Option.map_some]
        · have hother : ¬ (s.restakes stash = true ∧ s.bonded stash = some c) := by
            rintro ⟨-, hc'⟩
            exact hc (Option.some.inj (hc'.symm.trans hbonded))
          rw [Function.update_of_ne hc, if_neg hother]
      · rw [hlocks, hfull]
        by_cases hx : x = stash
        · subst hx
          rw [Function.update_self, if_pos ⟨hstakes, rfl⟩, Option.getD_some, hold]
        · rw [Function.update_of_ne hx, if_neg fun h => hx h.2, Nat.add_zero]

/-- **A staked reward is staked as credited** when it is deposited and the lock was right. -/
theorem creditsBoth_staked_iff :
    CreditsBoth cfg s stash stash setterAmount nativeAmount
        (makePayout cfg s (stash, setterAmount, nativeAmount)) ↔
      NoSetterDue cfg s stash setterAmount ∧ StakeFits cfg s stash nativeAmount := by
  have hpays : makePayout cfg s (stash, setterAmount, nativeAmount)
      = makeNativePayout cfg stash nativeAmount s := by
    unfold makePayout
    dsimp only
    rw [makeSetterPayout_skips (.inr (.inl hpayee))]
  rw [hpays]
  rcases eq_or_ne nativeAmount 0 with rfl | hpos
  · have hsame : makeNativePayout cfg stash 0 s = s := if_pos rfl
    rw [hsame, creditsBoth_self]
    exact ⟨fun hdue => ⟨hdue, .inl rfl⟩, fun h => h.1⟩
  · exact creditsBoth_staked_of_pos hlock hpayee hbonded hl hstash hpos

end Staked

/-- **When a payment does what it is for.** -/
theorem makePayout_pays_iff (hlock : IgnoresZero cfg.setLock) {horizon : ℕ}
    (hs : Sound horizon s.bonds) {controller : A} (hbonded : s.bonded stash = some controller)
    (setterAmount nativeAmount : ℕ) :
    PaysBoth cfg s stash setterAmount nativeAmount
        (makePayout cfg s (stash, setterAmount, nativeAmount)) ↔
      PayoutFits cfg s stash setterAmount nativeAmount := by
  unfold PaysBoth PayoutFits State.denoted
  cases hpayee : s.payee stash with
  | Stash =>
      have hpays : s.payee stash = .Stash ∧ stash = stash := ⟨hpayee, rfl⟩
      exact iff_of_true ((creditsBoth_iff (.inl hpays)).mpr
        (makeSetterPayout_credits (.inl hpays) setterAmount)) trivial
  | Account account =>
      exact iff_of_true ((creditsBoth_iff (.inr (.inl hpayee))).mpr
        (makeSetterPayout_credits (.inr hpayee) setterAmount)) trivial
  | Controller =>
      dsimp only
      rw [hbonded]
      dsimp only
      rw [creditsBoth_iff (.inr (.inr ⟨hpayee, hbonded⟩)),
        makeSetterPayout_skips (.inl hpayee), setter_unchanged_iff]
      simp
  | Staked =>
      obtain ⟨l, hl, hstash⟩ := hs.paired.lookup hbonded
      exact creditsBoth_staked_iff hlock hpayee hbonded hl hstash
  | None =>
      refine iff_of_true ?_ trivial
      show makeNativePayout cfg stash nativeAmount (makeSetterPayout cfg stash setterAmount s) = s
      rw [makeSetterPayout_skips (.inr (.inr hpayee))]
      unfold makeNativePayout
      rw [hpayee]
      exact ite_self s

/-- Noting a claim keeps the books sound. -/
theorem Sound.noteClaim {horizon : ℕ} (hs : Sound horizon s.bonds) {controller : A}
    {l : StakingLedger A} (hl : s.ledger controller = some l) (era : ℕ) :
    Sound horizon (noteClaim s controller l era).bonds := by
  have hwf := hs.wellFormed controller l hl
  have hclaim : (claim s l era).WellFormed horizon :=
    ⟨hwf.total_eq, hwf.sorted, hwf.length_le, hwf.era_le, hwf.value_pos⟩
  have hstash : (claim s l era).stash = l.stash := rfl
  exact hs.replace hl hstash hclaim _

variable (cfg) in
/-- **When payouts credit both currencies.** In every state of a run, a payment to a bonded stash
does what it is for exactly if it fits; and a payout is a sequence of such payments, each of which
carries its part of the recorded payout in both currencies, with the same condition on each. -/
theorem payouts_pay_iff (hlock : IgnoresZero cfg.setLock) {s₀ : State A} (hs₀ : Genesis s₀)
    (acts : List (Act A)) :
    let s := Machine.run (step cfg) s₀ acts
    (∀ stash controller, s.bonded stash = some controller → ∀ setterAmount nativeAmount,
      (PaysBoth cfg s stash setterAmount nativeAmount
          (makePayout cfg s (stash, setterAmount, nativeAmount)) ↔
        PayoutFits cfg s stash setterAmount nativeAmount)) ∧
      ∀ origin validatorStash era s',
        (payoutStakers cfg origin validatorStash era).run s = .ok () s' →
          ∃ controller l payout, s.bonded validatorStash = some controller ∧
            s.ledger controller = some l ∧ s.erasValidatorReward era = some payout ∧
            s' = (paymentsOf s validatorStash l.stash era payout).foldl (makePayout cfg)
              (noteClaim s controller l era) ∧
            ∀ earlier stash setterAmount nativeAmount later,
              paymentsOf s validatorStash l.stash era payout
                  = earlier ++ (stash, setterAmount, nativeAmount) :: later →
                let t := earlier.foldl (makePayout cfg) (noteClaim s controller l era)
                t.bonded stash ≠ none →
                  (PaysBoth cfg t stash setterAmount nativeAmount
                      (makePayout cfg t (stash, setterAmount, nativeAmount)) ↔
                    PayoutFits cfg t stash setterAmount nativeAmount) := by
  intro s
  have hsound : Sound (s.horizon cfg) s.bonds :=
    Machine.run_invariant_always (P := fun t : State A => Sound (t.horizon cfg) t.bonds)
      (fun t act ht => ht.step act) hs₀.consistent.1 acts
  refine ⟨fun stash controller hbonded setterAmount nativeAmount =>
    makePayout_pays_iff hlock hsound hbonded setterAmount nativeAmount, ?_⟩
  intro origin validatorStash era s' hrun
  obtain ⟨controller, l, currentEra, payout, -, -, -, hpayout, hbonded, hl, -, rfl⟩ :=
    payoutStakers_spec hrun
  refine ⟨controller, l, payout, hbonded, hl, hpayout, rfl, ?_⟩
  intro earlier stash setterAmount nativeAmount later _ t hstash
  obtain ⟨c, hc⟩ := Option.ne_none_iff_exists'.mp hstash
  exact makePayout_pays_iff hlock (Sound.foldl_makePayout earlier (hsound.noteClaim hl era)) hc
    setterAmount nativeAmount

end Payment

/-- A stash bonds with a reward destination. -/
def bondedTo (payee : RewardDestination ℕ) : List (Act ℕ) :=
  [.call (.signed 1) (.bond 2 1000 payee)]

theorem payouts_pay_bondedTo :
    let s := Machine.run (step (lockingConfig 1)) sampleGenesis (bondedTo .Stash)
    PaysBoth (lockingConfig 1) s 1 5 7 (makePayout (lockingConfig 1) s (1, 5, 7)) := by
  obtain ⟨hpays, -⟩ := payouts_pay_iff (lockingConfig 1) (lockingConfig_ignoresZero 1)
    sampleGenesis_genesis (bondedTo .Stash)
  exact (hpays 1 2 rfl 5 7).mpr trivial

/-- A native currency that refuses every deposit to a stash. -/
def refusingConfig : Config ℕ :=
  { lockingConfig 1 with depositIntoExistingAllowed := fun _ _ _ => false }

/-- **A payment loses its Setter part** where the destination is the controller or the stake, and
a stash is given a stake of native currency that was never deposited. -/
theorem payment_lost :
    let s payee := Machine.run (step (lockingConfig 1)) sampleGenesis (bondedTo payee)
    let t := Machine.run (step refusingConfig) sampleGenesis (bondedTo .Staked)
    ¬ PaysBoth (lockingConfig 1) (s .Controller) 1 5 7
        (makePayout (lockingConfig 1) (s .Controller) (1, 5, 7)) ∧
      ¬ PaysBoth (lockingConfig 1) (s .Staked) 1 5 7
        (makePayout (lockingConfig 1) (s .Staked) (1, 5, 7)) ∧
      ¬ PaysBoth refusingConfig t 1 0 7 (makePayout refusingConfig t (1, 0, 7)) := by
  refine ⟨fun h => ?_, fun h => ?_, fun h => ?_⟩
  · have hissued := CreditsBoth.setter_issuance h
    revert hissued
    decide +kernel
  · have hissued := CreditsBoth.setter_issuance h
    revert hissued
    decide +kernel
  · have hlocked := CreditsBoth.lock h 1
    revert hlocked
    decide +kernel

end Setheum.Staking
