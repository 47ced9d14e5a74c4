import Setheum.Settmint.Positions

/-!
# The transfer of a whole position

The manager adds the position of the source to that of the target before it moves anything, and
takes it for granted that the sum fits. Between two accounts the recorded total vouches for that;
an account that transfers to itself has its own position counted twice.

* `updateReserve_error` — an update refuses an amount, it never panics.
* `total_of_run` — after every run the totals are balances, and the sums of the stored positions.
* `authorization_of_run` — the authorisation map holds the last word of the authoriser.
* `transfer_exact_iff` — a transfer is exact unless an account transfers to itself a position whose
  double does not fit.
-/

set_option autoImplicit false

namespace Setheum.Settmint

open StorageMap Dispatch

variable {A E : Type} [DecidableEq A] {cfg : Config A E} {s s' : State A E}

/-! ## Updates that fail -/

theorem reserveError_ne_panicked (a : ℤ) : reserveError a ≠ .panicked := by
  unfold reserveError
  split <;> simp

theorem standardError_ne_panicked (a : ℤ) : standardError a ≠ .panicked := by
  unfold standardError
  split <;> simp

/-- **An update that fails refused an amount**: it never panics. -/
theorem updateReserve_error {who : A} {c : CurrencyId} {ra sa : ℤ} {e : DispatchError}
    (h : (updateReserve cfg who c ra sa).run s = .error e s') : e ≠ .panicked := by
  simp only [updateReserve, run_bind_error, run_get_error, run_get_ok, run_okOr_error, run_okOr_ok,
    run_modify_error, run_modify_ok, false_or] at h
  obtain ⟨_, _, ⟨rfl, rfl⟩, ⟨-, rfl, -⟩ | ⟨_, _, -, ⟨-, rfl, -⟩ | ⟨_, _, -, _, _, -,
    ⟨-, rfl, -⟩ | ⟨_, _, -, ⟨-, rfl, -⟩ | ⟨_, _, -, ⟨⟩⟩⟩⟩⟩⟩ := h
  · exact reserveError_ne_panicked ra
  · exact standardError_ne_panicked sa
  · exact standardError_ne_panicked sa
  · exact reserveError_ne_panicked ra

omit [DecidableEq A] in
theorem engine_error {α : Type} {f : State A E → Except EngineError α} {e : DispatchError}
    (h : (engine f).run s = .error e s') : e ≠ .panicked := by
  simp only [engine, run_bind_error, run_get_error, run_get_ok, run_ofExcept_error, false_or] at h
  obtain ⟨_, _, ⟨rfl, rfl⟩, hf, -⟩ := h
  cases hs : f s with
  | ok a => simp [hs, Except.mapError] at hf
  | error e' =>
      simp only [hs, Except.mapError, Except.error.injEq] at hf
      rw [← hf]
      simp

/-- The two positions together are balances in both fields. -/
def Fits (p q : Position) : Prop :=
  q.reserve + p.reserve ≤ Balance.maxValue ∧ q.standard + p.standard ≤ Balance.maxValue

instance (p q : Position) : Decidable (Fits p q) := inferInstanceAs (Decidable (_ ∧ _))

/-- A transfer that fails panics only for a sum that does not fit. -/
theorem transferReserve_error {source target : A} {c : CurrencyId} {e : DispatchError}
    (hfits : Fits (s.position c source) (s.position c target))
    (h : (transferReserve cfg source target c).run s = .error e s') : e ≠ .panicked := by
  simp only [transferReserve, run_bind_error, run_get_error, run_get_ok, run_ensure_error,
    run_ensure_ok, run_okOr_error, run_okOr_ok, run_engine_ok, false_or] at h
  obtain ⟨_, _, ⟨rfl, rfl⟩, ⟨hnone, -, -⟩ | ⟨_, _, ⟨-, rfl⟩, ⟨hnone, -, -⟩ |
    ⟨_, _, ⟨-, rfl⟩, h⟩⟩⟩ := h
  · exact absurd hfits.1 (Balance.checkedAdd_eq_none.mp hnone)
  · exact absurd hfits.2 (Balance.checkedAdd_eq_none.mp hnone)
  · rcases h with hengine | ⟨_, _, ⟨-, rfl⟩, ⟨-, rfl, -⟩ | ⟨_, _, ⟨-, rfl⟩, ⟨-, rfl, -⟩ |
      ⟨_, _, ⟨-, rfl⟩, hupdate | ⟨_, _, -, hupdate⟩⟩⟩⟩
    · exact engine_error hengine
    · simp
    · simp
    · exact updateReserve_error hupdate
    · exact updateReserve_error hupdate

/-- A call that fails changes nothing, and panics only for a sum that does not fit. -/
theorem transferPositionFrom_error {target : Signer cfg} {c : CurrencyId} {source : A}
    {e : DispatchError} (hfits : Fits (s.position c source) (s.position c target.1))
    (h : (transferPositionFrom cfg target c source).run s = .error e s') :
    e ≠ .panicked ∧ s' = s := by
  refine ⟨?_, transactional_error h⟩
  simp only [transferPositionFrom, run_transactional_error, checkAuthorization, run_bind_error,
    run_bind_ok, run_get_error, run_get_ok, run_ensure_error, run_ensure_ok, false_or] at h
  obtain ⟨-, _, ⟨_, _, ⟨rfl, rfl⟩, -, rfl, -⟩ | ⟨_, _, ⟨_, _, ⟨rfl, rfl⟩, -, rfl⟩, h⟩⟩ := h
  · simp
  · exact transferReserve_error hfits h

/-- An authorised caller who asks for a sum that does not fit makes the call panic. -/
theorem transferPositionFrom_panics {target : Signer cfg} {c : CurrencyId} {source : A}
    (hauthorized : source = target.1 ∨
      get false s.authorization (source, c, target.1) = true)
    (hfits : ¬ Fits (s.position c source) (s.position c target.1)) :
    (transferPositionFrom cfg target c source).run s = .error .panicked s := by
  rw [transferPositionFrom, run_transactional_error]
  refine ⟨rfl, s, ?_⟩
  simp only [checkAuthorization, transferReserve, run_bind_error, run_bind_ok, run_get_error,
    run_get_ok, run_ensure_error, run_ensure_ok, run_okOr_error, run_okOr_ok, false_or]
  refine .inr ⟨(), s, ⟨s, s, ⟨rfl, rfl⟩, hauthorized, rfl⟩, s, s, ⟨rfl, rfl⟩, ?_⟩
  by_cases hreserve : (s.position c target.1).reserve + (s.position c source).reserve
      ≤ Balance.maxValue
  · have hstandard : ¬ (s.position c target.1).standard + (s.position c source).standard
        ≤ Balance.maxValue := fun h => hfits ⟨hreserve, h⟩
    exact .inr ⟨_, s, ⟨Balance.checkedAdd_eq_some.mpr ⟨rfl, hreserve⟩, rfl⟩,
      .inl ⟨Balance.checkedAdd_eq_none.mpr hstandard, trivial, rfl⟩⟩
  · exact .inl ⟨Balance.checkedAdd_eq_none.mpr hreserve, trivial, rfl⟩

/-! ## Transfers that succeed -/

/-- What an update by fitting amounts does to the records. -/
structure Updates (s s' : State A E) (who : A) (c : CurrencyId) (dr ds : ℤ) : Prop where
  reserve : ((s'.position c who).reserve : ℤ) = (s.position c who).reserve + dr
  standard : ((s'.position c who).standard : ℤ) = (s.position c who).standard + ds
  totalReserve : ((s'.totalPosition c).reserve : ℤ) = (s.totalPosition c).reserve + dr
  totalStandard : ((s'.totalPosition c).standard : ℤ) = (s.totalPosition c).standard + ds
  others : ∀ c' a, (c', a) ≠ (c, who) → s'.position c' a = s.position c' a
  otherTotals : ∀ c', c' ≠ c → s'.totalPosition c' = s.totalPosition c'
  authorization : s'.authorization = s.authorization

theorem updateReserve_updates {who : A} {c : CurrencyId} {ra sa : ℤ} {u : Unit}
    (h : (updateReserve cfg who c ra sa).run s = .ok u s') :
    Updates s s' who c (Amount.saturated ra) (Amount.saturated sa) := by
  obtain ⟨p, t, hreserve, hstandard, htotalReserve, htotalStandard, rfl⟩ := updateReserve_spec h
  refine ⟨?_, ?_, ?_, ?_, fun c' a hne => ?_, fun c' hne => ?_, rfl⟩
  · rw [State.position, get_store]
    exact applyAmount_spec hreserve
  · rw [State.position, get_store]
    exact applyAmount_spec hstandard
  · rw [State.totalPosition, get_insert]
    exact applyAmount_spec htotalReserve
  · rw [State.totalPosition, get_insert]
    exact applyAmount_spec htotalStandard
  · exact get_store_ne _ _ _ hne
  · exact get_insert_ne _ _ _ hne

/-- A balance that converts to an amount is the amount it converts to. -/
theorem saturated_natCast {b : ℕ} (h : (b : ℤ) ≤ Amount.maxValue) : Amount.saturated b = b := by
  apply Amount.saturated_eq _ h
  unfold Amount.minValue
  omega

theorem Position.eq_of_cast {p q : Position} (hreserve : (p.reserve : ℤ) = q.reserve)
    (hstandard : (p.standard : ℤ) = q.standard) : p = q := by
  obtain ⟨reserve, standard⟩ := p
  obtain ⟨reserve', standard'⟩ := q
  simp only [Nat.cast_inj] at hreserve hstandard
  rw [hreserve, hstandard]

/-- The position of the source ends up with the target, and nothing else moves. -/
structure Transferred (s s' : State A E) (c : CurrencyId) (source target : A) : Prop where
  added : source ≠ target → s'.position c target =
    ⟨(s.position c target).reserve + (s.position c source).reserve,
      (s.position c target).standard + (s.position c source).standard⟩
  removed : source ≠ target → s'.positions.lookup (c, source) = none
  self : source = target → s'.position c source = s.position c source
  others : ∀ c' a, (c', a) ≠ (c, source) → (c', a) ≠ (c, target) →
    s'.position c' a = s.position c' a
  totals : ∀ c', s'.totalPosition c' = s.totalPosition c'

/-- **A transfer that succeeds moves the whole position.** -/
theorem transferPositionFrom_transferred (htallied : Tallied s) {target : Signer cfg}
    {c : CurrencyId} {source : A} {u : Unit}
    (h : (transferPositionFrom cfg target c source).run s = .ok u s') :
    Transferred s s' c source target.1 := by
  obtain ⟨s₁, hfit, hfit', hsource, htarget⟩ := transferPositionFrom_spec h
  have htallied' : Tallied s' := (htallied.update hsource).update htarget
  have hleave := updateReserve_updates hsource
  have harrive := updateReserve_updates htarget
  rw [Amount.saturated_neg hfit, Amount.saturated_neg hfit'] at hleave
  rw [saturated_natCast hfit, saturated_natCast hfit'] at harrive
  obtain ⟨hr, hs, htr, hts, hothers, hotherTotals⟩ := hleave
  obtain ⟨hr', hs', htr', hts', hothers', hotherTotals'⟩ := harrive
  -- between the two updates the position of the source is zero
  have hzero : s₁.position c source = Position.zero := by
    apply Position.eq_of_cast
    · simp only [Position.zero]
      omega
    · simp only [Position.zero]
      omega
  refine ⟨fun hne => ?_, fun hne => ?_, fun hself => ?_, fun c' a hcs hct => ?_, fun c' => ?_⟩
  · have hsame : s₁.position c target.1 = s.position c target.1 :=
      hothers c target.1 fun heq => hne (Prod.mk.inj heq).2.symm
    rw [hsame] at hr' hs'
    apply Position.eq_of_cast
    · exact hr'
    · exact hs'
  · rw [htallied'.lookup_eq_none_iff, hothers' c source fun heq => hne (Prod.mk.inj heq).2]
    exact hzero
  · subst hself
    rw [hzero] at hr' hs'
    simp only [Position.zero] at hr' hs'
    apply Position.eq_of_cast
    · omega
    · omega
  · rw [hothers' c' a hct, hothers c' a hcs]
  · by_cases hc : c' = c
    · subst hc
      apply Position.eq_of_cast
      · omega
      · omega
    · rw [hotherTotals' c' hc, hotherTotals c' hc]

/-- A transfer that succeeds is one from oneself, or an authorised one. -/
theorem transferPositionFrom_authorized {target : Signer cfg} {c : CurrencyId} {source : A}
    {u : Unit} (h : (transferPositionFrom cfg target c source).run s = .ok u s') :
    source = target.1 ∨ get false s.authorization (source, c, target.1) = true := by
  simp only [transferPositionFrom, run_transactional_ok, checkAuthorization, run_bind_ok,
    run_get_ok, run_ensure_ok] at h
  obtain ⟨-, _, ⟨_, _, ⟨rfl, rfl⟩, hauthorized, -⟩, -⟩ := h
  exact hauthorized

/-! ## Totals after a run -/

/-- The totals are balances, and the sums of the stored positions. -/
structure Recorded (s : State A E) : Prop where
  tallied : Tallied s
  fits : ∀ c, Fits Position.zero (s.totalPosition c)

theorem applyAmount_le {b b' : ℕ} {a : ℤ} (hb : b ≤ Balance.maxValue)
    (h : applyAmount b a = some b') : b' ≤ Balance.maxValue := by
  unfold applyAmount at h
  split at h
  · rw [Balance.checkedAdd_eq_some] at h
    exact h.2
  · rw [Balance.checkedSub_eq_some] at h
    omega

theorem Recorded.update (h : Recorded s) {who : A} {c : CurrencyId} {ra sa : ℤ} {u : Unit}
    (hrun : (updateReserve cfg who c ra sa).run s = .ok u s') : Recorded s' := by
  refine ⟨h.tallied.update hrun, fun c' => ?_⟩
  obtain ⟨p, t, -, -, hreserve, hstandard, rfl⟩ := updateReserve_spec hrun
  by_cases hc : c' = c
  · rw [State.totalPosition, hc, get_insert]
    exact ⟨applyAmount_le (h.fits c).1 hreserve, applyAmount_le (h.fits c).2 hstandard⟩
  · rw [State.totalPosition, get_insert_ne _ _ _ hc]
    exact h.fits c'

theorem step_recorded (s : State A E) (call : Call cfg) (h : Recorded s) :
    Recorded (step cfg s call) := by
  cases call with
  | adjustPosition who c ra sa =>
      refine commit_transactional_invariant h fun u s' hrun => ?_
      obtain ⟨s₁, l₁, l₂, hupdate, -, -, -, rfl⟩ :=
        adjustPosition_spec (run_transactional_ok.mpr hrun)
      obtain ⟨⟨hreserve, hstandard, hstored⟩, hfits⟩ := h.update hupdate
      exact ⟨⟨hreserve, hstandard, hstored⟩, hfits⟩
  | transferPositionFrom target c source =>
      refine commit_transactional_invariant h fun u s' hrun => ?_
      obtain ⟨s₁, -, -, hsource, htarget⟩ :=
        transferPositionFrom_spec (run_transactional_ok.mpr hrun)
      exact (h.update hsource).update htarget
  | authorize source c target => exact ⟨⟨h.1.1, h.1.2, h.1.3⟩, h.2⟩
  | unauthorize source c target => exact ⟨⟨h.1.1, h.1.2, h.1.3⟩, h.2⟩
  | unauthorizeAll source => exact ⟨⟨h.1.1, h.1.2, h.1.3⟩, h.2⟩
  | outside o => exact ⟨⟨h.1.1, h.1.2, h.1.3⟩, h.2⟩

theorem Genesis.recorded (h : Genesis s) : Recorded s where
  tallied := h.tallied
  fits c := by
    simp [State.totalPosition, h.totalPositions, Position.zero, Fits]

/-- **After every run the totals are balances, and the sums of the stored positions.** -/
theorem total_of_run {s₀ : State A E} (h₀ : Genesis s₀) (calls : List (Call cfg)) :
    Recorded (Machine.run (step cfg) s₀ calls) :=
  Machine.run_invariant_always step_recorded h₀.recorded calls

/-- The positions of two accounts are no more than the sum of all. -/
theorem two_le_positionSum (f : Position → ℕ) (hf : f Position.zero = 0) (c : CurrencyId)
    {a b : A} (hne : a ≠ b) : f (s.position c b) + f (s.position c a) ≤ positionSum f s c := by
  -- take the position of `a` out, what is left still holds that of `b`
  have hsum := positionSum_store (s := s) f hf c c a Position.zero
  have hrest := weightAt_le_sumBy (fun (k : CurrencyId × A) p => if k.1 = c then f p else 0)
    (store Position.zero s.positions (c, a) Position.zero) (c, b)
  have hkey : (c, b) ≠ (c, a) := fun heq => hne (Prod.mk.inj heq).2.symm
  rw [weightAt_eq_get _ _ _ (d := Position.zero) (by simp [hf]),
    get_store_ne _ _ _ hkey] at hrest
  simp only [if_true, hf, add_zero] at hsum hrest
  change f (s.position c b) ≤ _ at hrest
  omega

/-- Two accounts hold together no more than the total. -/
theorem Recorded.fits_of_ne (h : Recorded s) {c : CurrencyId} {a b : A} (hne : a ≠ b) :
    Fits (s.position c a) (s.position c b) := by
  have hreserve := two_le_positionSum (s := s) Position.reserve rfl c hne
  have hstandard := two_le_positionSum (s := s) Position.standard rfl c hne
  rw [← h.tallied.reserve c] at hreserve
  rw [← h.tallied.standard c] at hstandard
  exact ⟨hreserve.trans (h.fits c).1, hstandard.trans (h.fits c).2⟩

/-! ## Authorisations after a run -/

/-- Whether `target` is authorised by `source` after a call, given whether it was before. -/
def authorizedAfter (source : A) (c : CurrencyId) (target : A) (authorized : Bool) :
    Call cfg → Bool
  | .authorize source' c' target' =>
      if (source'.1, c', target') = (source, c, target) then true else authorized
  | .unauthorize source' c' target' =>
      if (source'.1, c', target') = (source, c, target) then false else authorized
  | .unauthorizeAll source' => if source'.1 = source then false else authorized
  | _ => authorized

/-- The last word of `source` on `target`, in the order of the calls. -/
def lastWord (cfg : Config A E) (s₀ : State A E) (calls : List (Call cfg)) (source : A)
    (c : CurrencyId) (target : A) : Bool :=
  calls.foldl (authorizedAfter source c target) (get false s₀.authorization (source, c, target))

theorem step_authorization (s : State A E) (call : Call cfg) (source : A) (c : CurrencyId)
    (target : A) : get false (step cfg s call).authorization (source, c, target) =
      authorizedAfter source c target (get false s.authorization (source, c, target)) call := by
  cases call with
  | adjustPosition who c' ra sa =>
      have hsame : (step cfg s (.adjustPosition who c' ra sa)).authorization = s.authorization := by
        refine commit_transactional_invariant
          (P := fun t : State A E => t.authorization = s.authorization) rfl fun u s' hrun => ?_
        obtain ⟨s₁, l₁, l₂, hupdate, -, -, -, rfl⟩ :=
          adjustPosition_spec (run_transactional_ok.mpr hrun)
        exact (updateReserve_updates hupdate).authorization
      rw [hsame]
      rfl
  | transferPositionFrom target' c' source' =>
      have hsame : (step cfg s (.transferPositionFrom target' c' source')).authorization
          = s.authorization := by
        refine commit_transactional_invariant
          (P := fun t : State A E => t.authorization = s.authorization) rfl fun u s' hrun => ?_
        obtain ⟨s₁, -, -, hsource, htarget⟩ :=
          transferPositionFrom_spec (run_transactional_ok.mpr hrun)
        rw [(updateReserve_updates htarget).authorization,
          (updateReserve_updates hsource).authorization]
      rw [hsame]
      rfl
  | authorize source' c' target' =>
      show get false (s.authorization.insert (source'.1, c', target') true) _ =
        if (source'.1, c', target') = (source, c, target) then true else _
      split
      · rename_i heq
        rw [heq, get_insert]
      · rename_i hne
        rw [get_insert_ne _ _ _ (Ne.symm hne)]
  | unauthorize source' c' target' =>
      show get false (s.authorization.erase (source'.1, c', target')) _ =
        if (source'.1, c', target') = (source, c, target) then false else _
      split
      · rename_i heq
        rw [heq, get_erase]
      · rename_i hne
        rw [get_erase_ne _ _ (Ne.symm hne)]
  | unauthorizeAll source' =>
      show get false (restrict (fun k => ¬ k.1 = source'.1) s.authorization) _ =
        if source'.1 = source then false else _
      rw [StorageMap.get, lookup_restrict]
      split
      · rename_i hne
        rw [if_neg (Ne.symm hne)]
        rfl
      · rename_i heq
        rw [if_pos (not_not.mp heq).symm]
        rfl
  | outside o => rfl

/-- **The authorisation map holds the last word of the authoriser.** -/
theorem authorization_of_run (s₀ : State A E) (calls : List (Call cfg)) (source : A)
    (c : CurrencyId) (target : A) :
    get false (Machine.run (step cfg) s₀ calls).authorization (source, c, target) =
      lastWord cfg s₀ calls source c target := by
  unfold lastWord
  induction calls generalizing s₀ with
  | nil => rfl
  | cons call calls ih => rw [Machine.run_cons, ih, step_authorization, List.foldl_cons]

/-! ## The whole call -/

/-- The call does not panic; it moves the whole position, for an authorised caller, or it changes
nothing. -/
def TransfersExactly (cfg : Config A E) (s : State A E) (target : Signer cfg) (c : CurrencyId)
    (source : A) (authorized : Bool) : Prop :=
  match (transferPositionFrom cfg target c source).run s with
  | .ok _ s' => Transferred s s' c source target.1 ∧ (source = target.1 ∨ authorized = true)
  | .error e s' => e ≠ .panicked ∧ s' = s

theorem Recorded.transfersExactly_iff (h : Recorded s) (target : Signer cfg) (c : CurrencyId)
    (source : A) :
    TransfersExactly cfg s target c source (get false s.authorization (source, c, target.1)) ↔
      (source = target.1 → Fits (s.position c source) (s.position c source)) := by
  constructor
  · intro hexact hself
    by_contra hfits
    have hfits' : ¬ Fits (s.position c source) (s.position c target.1) := by
      rw [← hself]
      exact hfits
    unfold TransfersExactly at hexact
    rw [transferPositionFrom_panics (.inl hself) hfits'] at hexact
    exact hexact.1 rfl
  · intro hself
    have hfits : Fits (s.position c source) (s.position c target.1) := by
      by_cases heq : source = target.1
      · rw [← heq]
        exact hself heq
      · exact h.fits_of_ne heq
    unfold TransfersExactly
    cases hrun : (transferPositionFrom cfg target c source).run s with
    | ok u s' =>
        exact ⟨transferPositionFrom_transferred h.tallied hrun,
          transferPositionFrom_authorized hrun⟩
    | error e s' => exact transferPositionFrom_error hfits hrun

/-- **The transfer of a position.** In every state reached by calls of the gateway, a transfer does
not panic, moves the whole position at the last word of its source or between equal accounts, and
changes nothing when it fails, exactly when it is not a transfer to oneself of a position whose
double does not fit. -/
theorem transfer_exact_iff (cfg : Config A E) (s₀ : State A E) (h₀ : Genesis s₀)
    (calls : List (Call cfg)) (target : Signer cfg) (c : CurrencyId) (source : A) :
    let s := Machine.run (step cfg) s₀ calls
    TransfersExactly cfg s target c source (lastWord cfg s₀ calls source c target.1) ↔
      (source = target.1 → Fits (s.position c source) (s.position c source)) := by
  intro s
  rw [← authorization_of_run]
  exact (total_of_run h₀ calls).transfersExactly_iff target c source

theorem transfer_exact_sample :
    let s := Machine.run (step sampleConfig) sampleState sampleRun
    TransfersExactly sampleConfig s bob (.Token .USDJ) 1
        (lastWord sampleConfig sampleState sampleRun 1 (.Token .USDJ) 2) ↔
      (1 = bob.1 → Fits (s.position (.Token .USDJ) 1) (s.position (.Token .USDJ) 1)) :=
  transfer_exact_iff sampleConfig sampleState sampleState_genesis sampleRun bob (.Token .USDJ) 1

/-- The sample accounts with `2 ^ 126` of every currency. -/
def richState : State ℕ Unit :=
  { sampleState with
    ledger :=
      { free := fun _ a => if a = 1 ∨ a = 2 then 2 ^ 126 else 0
        issuance := fun _ => 2 ^ 127
        free_le := fun _ a => by split <;> decide
        issuance_le := fun _ => by decide } }

/-- Two deposits of the largest amount. -/
def richRun : List (Call sampleConfig) :=
  [.adjustPosition alice (.Token .USDJ) (2 ^ 127 - 1) 0,
    .adjustPosition alice (.Token .USDJ) (2 ^ 127 - 1) 0]

/-- The reserve that account 1 has deposited then. -/
theorem richRun_reserve :
    ((Machine.run (step sampleConfig) richState richRun).position (.Token .USDJ) 1).reserve
      = 340282366920938463463374607431768211454 := by
  decide +kernel

/-- An account whose reserve is more than half the largest balance transfers to itself: the call
panics. -/
theorem transfer_to_oneself_panics :
    Genesis richState ∧
      ¬ TransfersExactly sampleConfig (Machine.run (step sampleConfig) richState richRun) alice
        (.Token .USDJ) 1 (lastWord sampleConfig richState richRun 1 (.Token .USDJ) 1) := by
  have hself : (1 : ℕ) = alice.1 := rfl
  have hfits : ¬ Fits
      ((Machine.run (step sampleConfig) richState richRun).position (.Token .USDJ) 1)
      ((Machine.run (step sampleConfig) richState richRun).position (.Token .USDJ) alice.1) := by
    intro h
    have hreserve := h.1
    rw [← hself, richRun_reserve] at hreserve
    exact absurd hreserve (by decide)
  refine ⟨⟨rfl, rfl⟩, fun h => ?_⟩
  unfold TransfersExactly at h
  rw [transferPositionFrom_panics (.inl hself) hfits] at h
  exact h.1 rfl

end Setheum.Settmint
