import Setheum.Settmint.Model

/-!
# Positions, their totals and their references

The manager keeps one total per standard currency and one consumer reference per open position
next to the positions themselves. `Consistent` ties the three together.

* `updateReserve_spec` — what a successful update writes.
* `Consistent.update` — it keeps the three tied together.
* `totals_of_run` — they are after every run of calls, by any accounts.
-/

set_option autoImplicit false

namespace Setheum.Settmint

open StorageMap Dispatch

variable {A E : Type} [DecidableEq A] {cfg : Config A E} {s s' : State A E}

/-! ## The effect of an update -/

theorem applyAmount_spec {b b' : ℕ} {a : ℤ} (h : applyAmount b a = some b') :
    (b' : ℤ) = b + Amount.saturated a := by
  unfold applyAmount at h
  unfold Amount.saturated
  split at h
  · rename_i ha
    rw [Balance.checkedAdd_eq_some] at h
    rw [if_pos ha]
    omega
  · rename_i ha
    rw [Balance.checkedSub_eq_some] at h
    rw [if_neg ha]
    omega

/-- **What a successful update writes**: the adjusted position, the adjusted total and the
references of the account. -/
theorem updateReserve_spec {who : A} {c : CurrencyId} {ra sa : ℤ} {u : Unit}
    (h : (updateReserve cfg who c ra sa).run s = .ok u s') :
    ∃ p t : Position, applyAmount (s.position c who).reserve ra = some p.reserve ∧
      applyAmount (s.position c who).standard sa = some p.standard ∧
      applyAmount (s.totalPosition c).reserve ra = some t.reserve ∧
      applyAmount (s.totalPosition c).standard sa = some t.standard ∧
      s' = { s with
        system := updateReferences who (s.position c who) p s.system
        external := cfg.onUpdateSettMint who c sa (s.position c who).standard s.external
        positions := store Position.zero s.positions (c, who) p
        totalPositions := s.totalPositions.insert c t } := by
  simp only [updateReserve, run_bind_ok, run_get_ok, run_okOr_ok, run_modify_ok] at h
  obtain ⟨_, _, ⟨rfl, rfl⟩, newReserve, _, ⟨hreserve, rfl⟩, newStandard, _, ⟨hstandard, rfl⟩, -, _,
    rfl, totalStandard, _, ⟨htotalStandard, rfl⟩, totalReserve, _, ⟨htotalReserve, rfl⟩, rfl⟩ := h
  exact ⟨⟨newReserve, newStandard⟩, ⟨totalReserve, totalStandard⟩, hreserve, hstandard,
    htotalReserve, htotalStandard, rfl⟩

/-- One reference is held after the update if the position is open then, and one was held before
if it was open before. -/
theorem updateReferences_consumers {who : A} {p p' : Position} {r : References A}
    (hheld : p ≠ Position.zero → 0 < r.consumers who)
    (hprovider : p' ≠ Position.zero → 0 < r.providers who) (a : A) :
    (updateReferences who p p' r).consumers a + (if a = who ∧ p ≠ Position.zero then 1 else 0)
      = r.consumers a + (if a = who ∧ p' ≠ Position.zero then 1 else 0) := by
  unfold updateReferences
  by_cases hp : p = Position.zero
  · rcases Nat.eq_zero_or_pos (r.providers who) with hzero | hpos
    · -- without a provider nothing is opened, and there is no reference to drop
      have hp' : p' = Position.zero := by
        by_contra hne
        have hsome := hprovider hne
        omega
      have hnone := References.consumers_eq_zero hzero
      simp only [hp, hp', if_true, References.incConsumers_eq_none hzero, Option.getD_none,
        References.decConsumers_consumers]
      split
      · rename_i ha
        rw [ha, hnone]
      · rfl
    · obtain ⟨r', hr', -, hconsumers⟩ := References.incConsumers_spec hpos
      simp only [hp, if_true, hr', Option.getD_some]
      by_cases hp' : p' = Position.zero
      · simp only [hp', if_true, References.decConsumers_consumers, hconsumers]
        split <;> simp
      · simp only [hp', if_false, hconsumers]
        split <;> simp_all
  · have hone := hheld hp
    by_cases hp' : p' = Position.zero
    · simp only [hp, hp', if_true, if_false, References.decConsumers_consumers]
      split
      · rename_i ha
        rw [if_pos ⟨ha, hp⟩, if_neg (by simp), ha]
        omega
      · rename_i ha
        simp [ha]
    · simp [hp, hp']

theorem updateReferences_providers {who : A} {p p' : Position} {r : References A} :
    (updateReferences who p p' r).providers = r.providers := by
  have hopen : ((r.incConsumers who).getD r).providers = r.providers := by
    rcases Nat.eq_zero_or_pos (r.providers who) with hzero | hpos
    · rw [References.incConsumers_eq_none hzero]
      rfl
    · obtain ⟨r', hr', hproviders, -⟩ := References.incConsumers_spec hpos
      rw [hr']
      exact hproviders
  unfold updateReferences
  split <;> split <;> simp [hopen]

/-! ## The invariant -/

/-- The sum over all accounts of one field of the positions in a currency. -/
def positionSum (f : Position → ℕ) (s : State A E) (c : CurrencyId) : ℕ :=
  sumBy (fun k p => if k.1 = c then f p else 0) s.positions

/-- The number of positions an account has open. -/
def positionCount (s : State A E) (a : A) : ℕ :=
  sumBy (fun k _ => if k.2 = a then 1 else 0) s.positions

/-- The totals are the sums of the stored positions, none of which is zero. -/
structure Tallied (s : State A E) : Prop where
  reserve : ∀ c, (s.totalPosition c).reserve = positionSum Position.reserve s c
  standard : ∀ c, (s.totalPosition c).standard = positionSum Position.standard s c
  stored : ∀ k, s.positions.lookup k ≠ some Position.zero

/-- Totals, stored positions and references agree; `base` counts the references that others
hold. -/
structure Consistent (base : A → ℕ) (s : State A E) : Prop where
  reserve : ∀ c, (s.totalPosition c).reserve = positionSum Position.reserve s c
  standard : ∀ c, (s.totalPosition c).standard = positionSum Position.standard s c
  stored : ∀ k, s.positions.lookup k ≠ some Position.zero
  references : ∀ a, s.system.consumers a = base a + positionCount s a

/-- Every account with an open position has a provider. -/
def Provided (s : State A E) : Prop :=
  ∀ c a, s.positions.lookup (c, a) ≠ none → 0 < s.system.providers a

theorem Genesis.tallied (h : Genesis s) : Tallied s where
  reserve c := by
    simp [State.totalPosition, h.totalPositions, positionSum, h.positions, Position.zero]
  standard c := by
    simp [State.totalPosition, h.totalPositions, positionSum, h.positions, Position.zero]
  stored k := by simp [h.positions]

theorem Genesis.consistent (h : Genesis s) : Consistent s.system.consumers s where
  reserve := h.tallied.reserve
  standard := h.tallied.standard
  stored := h.tallied.stored
  references a := by simp [positionCount, h.positions]

theorem Consistent.tallied {base : A → ℕ} (h : Consistent base s) : Tallied s :=
  ⟨h.reserve, h.standard, h.stored⟩

theorem Tallied.lookup_eq_none_iff (h : Tallied s) (c : CurrencyId) (a : A) :
    s.positions.lookup (c, a) = none ↔ s.position c a = Position.zero := by
  have hstored := h.stored (c, a)
  unfold State.position StorageMap.get
  cases hl : s.positions.lookup (c, a) with
  | none => simp
  | some p =>
      rw [hl] at hstored
      simpa using fun hp => hstored (by rw [hp])

/-- A field of a stored position moves its sum by as much as it moves. -/
theorem positionSum_store (f : Position → ℕ) (hf : f Position.zero = 0) (c c' : CurrencyId)
    (who : A) (p : Position) :
    sumBy (fun k p => if k.1 = c' then f p else 0) (store Position.zero s.positions (c, who) p)
        + (if c = c' then f (s.position c who) else 0)
      = positionSum f s c' + (if c = c' then f p else 0) :=
  sumBy_store_add (fun (k : CurrencyId × A) p => if k.1 = c' then f p else 0) s.positions (c, who)
    Position.zero p (by simp [hf])

/-- The number of open positions moves with the position being open. -/
theorem positionCount_store {base : A → ℕ} (h : Consistent base s) (c : CurrencyId) (who a : A)
    (p : Position) :
    sumBy (fun (k : CurrencyId × A) _ => if k.2 = a then 1 else 0)
        (store Position.zero s.positions (c, who) p)
        + (if a = who ∧ s.position c who ≠ Position.zero then 1 else 0)
      = positionCount s a + (if a = who ∧ p ≠ Position.zero then 1 else 0) := by
  -- count the entries that are not zero: they are all entries
  have hnonzero : ∀ m : Map (CurrencyId × A) Position, (∀ k, m.lookup k ≠ some Position.zero) →
      sumBy (fun (k : CurrencyId × A) _ => if k.2 = a then 1 else 0) m
        = sumBy (fun k p => if a = k.2 ∧ p ≠ Position.zero then 1 else 0) m := by
    intro m hm
    refine sumBy_congr ?_
    rintro ⟨k, q⟩ hq
    have hne : q ≠ Position.zero := by
      rintro rfl
      exact hm k (mem_entries_iff.mp hq)
    simp [hne, eq_comm]
  have hstored : ∀ k, (store Position.zero s.positions (c, who) p).lookup k
      ≠ some Position.zero := by
    intro k
    by_cases hk : k = (c, who)
    · rw [hk, lookup_store_self]
      split
      · simp
      · rename_i hp
        simpa using hp
    · rw [lookup_store_ne _ _ _ hk]
      exact h.stored k
  rw [positionCount, hnonzero _ hstored, hnonzero _ h.stored]
  exact sumBy_store_add (fun (k : CurrencyId × A) p => if a = k.2 ∧ p ≠ Position.zero then 1 else 0)
    s.positions (c, who) Position.zero p (by simp)

/-- One field of the total of a currency moves with the sum of that field. -/
theorem positionSum_update (f : Position → ℕ) (hf : f Position.zero = 0) {c c' : CurrencyId}
    {who : A} {p t : Position} {d : ℤ} (hold : f (s.totalPosition c') = positionSum f s c')
    (hp : (f p : ℤ) = f (s.position c who) + d) (ht : (f t : ℤ) = f (s.totalPosition c) + d) :
    f (get Position.zero (s.totalPositions.insert c t) c')
      = sumBy (fun k p => if k.1 = c' then f p else 0)
          (store Position.zero s.positions (c, who) p) := by
  have hsum := positionSum_store (s := s) f hf c c' who p
  by_cases hc : c' = c
  · subst hc
    simp only [if_true] at hsum
    rw [get_insert]
    simp only [positionSum] at hsum hold
    omega
  · simp only [if_neg (Ne.symm hc), add_zero] at hsum
    rw [get_insert_ne _ _ _ hc, hsum]
    exact hold

/-- A successful update keeps the totals the sums of the stored positions. -/
theorem Tallied.update (h : Tallied s) {who : A} {c : CurrencyId} {ra sa : ℤ} {u : Unit}
    (hrun : (updateReserve cfg who c ra sa).run s = .ok u s') : Tallied s' := by
  obtain ⟨p, t, hreserve, hstandard, htotalReserve, htotalStandard, rfl⟩ := updateReserve_spec hrun
  refine ⟨fun c' => ?_, fun c' => ?_, fun k => ?_⟩
  · exact positionSum_update Position.reserve rfl (h.reserve c') (applyAmount_spec hreserve)
      (applyAmount_spec htotalReserve)
  · exact positionSum_update Position.standard rfl (h.standard c') (applyAmount_spec hstandard)
      (applyAmount_spec htotalStandard)
  · by_cases hk : k = (c, who)
    · rw [hk, lookup_store_self]
      split
      · simp
      · rename_i hp
        simpa using hp
    · rw [lookup_store_ne _ _ _ hk]
      exact h.stored k

/-- **A successful update keeps positions, totals and references together.** -/
theorem Consistent.update {base : A → ℕ} (h : Consistent base s) {who : A} {c : CurrencyId}
    {ra sa : ℤ} {u : Unit} (hrun : (updateReserve cfg who c ra sa).run s = .ok u s')
    (hprovider : s'.position c who ≠ Position.zero → 0 < s.system.providers who) :
    Consistent base s' ∧ s'.system.providers = s.system.providers := by
  obtain ⟨hreserve, hstandard, hstored⟩ := h.tallied.update hrun
  obtain ⟨p, t, -, -, -, -, rfl⟩ := updateReserve_spec hrun
  rw [State.position, get_store] at hprovider
  refine ⟨⟨hreserve, hstandard, hstored, fun a => ?_⟩, updateReferences_providers⟩
  have hheld : s.position c who ≠ Position.zero → 0 < s.system.consumers who := by
    intro hne
    have hcount := positionCount_store h c who who Position.zero
    have href := h.references who
    rw [if_pos ⟨rfl, hne⟩, if_neg (by simp)] at hcount
    omega
  have href := updateReferences_consumers hheld hprovider a
  have hcount := positionCount_store h c who a p
  have hold := h.references a
  simp only [positionCount] at hcount hold ⊢
  omega

/-! ## What a successful adjustment does -/

/-- The reserve currency that a reserve adjustment moves between the account and the manager. -/
def ReserveMoved (cfg : Config A E) (s : State A E) (who : A) (ra : ℤ)
    (l l' : Ledger CurrencyId A) : Prop :=
  (ra = 0 ∧ l' = l) ∨
    ∃ n, convert cfg s cfg.reserveCurrencyId (Amount.saturatingAbs ra) = .ok n ∧
      ((0 < ra ∧
          Ledger.transfer cfg.rules cfg.reserveCurrencyId who cfg.accountId n l = .ok l') ∨
        (ra < 0 ∧
          Ledger.transfer cfg.rules cfg.reserveCurrencyId cfg.accountId who n l = .ok l'))

/-- The standard currency that a standard adjustment issues to the account or burns from it. -/
def StandardMoved (cfg : Config A E) (s : State A E) (who : A) (c : CurrencyId) (sa : ℤ)
    (l l' : Ledger CurrencyId A) : Prop :=
  (sa = 0 ∧ l' = l) ∨
    ∃ n, convert cfg s c (Amount.saturatingAbs sa) = .ok n ∧
      ((0 < sa ∧ Ledger.deposit cfg.rules c who n l = .ok l') ∨
        (sa < 0 ∧ Ledger.withdraw cfg.rules c who n l = .ok l'))

omit [DecidableEq A] in
theorem run_engine_ok {α : Type} {f : State A E → Except EngineError α} {a : α} :
    (engine f).run s = .ok a s' ↔ f s = .ok a ∧ s = s' := by
  simp only [engine, run_bind_ok, run_get_ok, run_ofExcept_ok]
  constructor
  · rintro ⟨_, _, ⟨rfl, rfl⟩, hf, rfl⟩
    cases hs : f s with
    | error e => simp [hs, Except.mapError] at hf
    | ok b =>
        simp only [hs, Except.mapError, Except.ok.injEq] at hf
        exact ⟨by rw [hf], rfl⟩
  · rintro ⟨hf, rfl⟩
    exact ⟨s, s, ⟨rfl, rfl⟩, by rw [hf]; rfl, rfl⟩

/-- **What a successful adjustment does**: it updates the records, moves the converted amounts and
passes the validity check on the new position. -/
theorem managerAdjustPosition_spec {who : A} {c : CurrencyId} {ra sa : ℤ} {u : Unit}
    (h : (managerAdjustPosition cfg who c ra sa).run s = .ok u s') :
    ∃ s₁ l₁ l₂, (updateReserve cfg who c ra sa).run s = .ok () s₁ ∧
      ReserveMoved cfg s who ra s.ledger l₁ ∧ StandardMoved cfg s who c sa l₁ l₂ ∧
      checkPositionValid cfg s c (s₁.position c who).reserve (s₁.position c who).standard = .ok () ∧
      s' = { s₁ with ledger := l₂ } := by
  simp only [managerAdjustPosition, run_transactional_ok, run_bind_ok, run_ensure_ok, run_when_ok,
    run_get_ok, run_engine_ok] at h
  obtain ⟨_, s₁, hupdate, -, _, ⟨-, rfl⟩, _, s₂, hreserve, _, s₃, hstandard, _, _, ⟨rfl, rfl⟩,
    hvalid, rfl⟩ := h
  obtain ⟨p, t, -, -, -, -, hs₁⟩ := updateReserve_spec hupdate
  obtain ⟨l₁, hmoved, rfl⟩ : ∃ l₁, ReserveMoved cfg s who ra s.ledger l₁ ∧
      s₂ = { s₁ with ledger := l₁ } := by
    rcases hreserve with ⟨hne, n, _, ⟨hn, rfl⟩, hmove⟩ | ⟨hzero, rfl⟩
    · rw [hs₁] at hn
      split at hmove
      · rename_i hpos
        rw [transfer, run_onComponent_ok] at hmove
        obtain ⟨l₁, hl, rfl⟩ := hmove
        rw [hs₁] at hl
        exact ⟨l₁, .inr ⟨n, hn, .inl ⟨hpos, hl⟩⟩, rfl⟩
      · rename_i hpos
        rw [transfer, run_onComponent_ok] at hmove
        obtain ⟨l₁, hl, rfl⟩ := hmove
        rw [hs₁] at hl
        exact ⟨l₁, .inr ⟨n, hn, .inr ⟨by omega, hl⟩⟩, rfl⟩
    · refine ⟨s.ledger, .inl ⟨not_not.mp hzero, rfl⟩, ?_⟩
      rw [hs₁]
  obtain ⟨l₂, hmoved', rfl⟩ : ∃ l₂, StandardMoved cfg s who c sa l₁ l₂ ∧
      s₃ = { s₁ with ledger := l₂ } := by
    rcases hstandard with ⟨hne, n, _, ⟨hn, rfl⟩, hmove⟩ | ⟨hzero, rfl⟩
    · rw [hs₁] at hn
      split at hmove
      · rename_i hpos
        rw [issueStandard, run_onComponent_ok] at hmove
        obtain ⟨l₂, hl, rfl⟩ := hmove
        exact ⟨l₂, .inr ⟨n, hn, .inl ⟨hpos, hl⟩⟩, rfl⟩
      · rename_i hpos
        rw [burnStandard, run_onComponent_ok] at hmove
        obtain ⟨l₂, hl, rfl⟩ := hmove
        exact ⟨l₂, .inr ⟨n, hn, .inr ⟨by omega, hl⟩⟩, rfl⟩
    · exact ⟨l₁, .inl ⟨not_not.mp hzero, rfl⟩, rfl⟩
  refine ⟨s₁, l₁, l₂, hupdate, hmoved, hmoved', ?_, rfl⟩
  rw [hs₁] at hvalid ⊢
  exact hvalid

theorem adjustPosition_spec {who : Signer cfg} {c : CurrencyId} {ra sa : ℤ} {u : Unit}
    (h : (adjustPosition cfg who c ra sa).run s = .ok u s') :
    ∃ s₁ l₁ l₂, (updateReserve cfg who.1 c ra sa).run s = .ok () s₁ ∧
      ReserveMoved cfg s who.1 ra s.ledger l₁ ∧ StandardMoved cfg s who.1 c sa l₁ l₂ ∧
      checkPositionValid cfg s c (s₁.position c who.1).reserve (s₁.position c who.1).standard
        = .ok () ∧
      s' = { s₁ with ledger := l₂ } :=
  managerAdjustPosition_spec (run_transactional_ok.mp h)

/-- **What a successful transfer does**: two updates, of amounts that fit. -/
theorem transferPositionFrom_spec {target : Signer cfg} {c : CurrencyId} {source : A} {u : Unit}
    (h : (transferPositionFrom cfg target c source).run s = .ok u s') :
    ∃ s₁, ((s.position c source).reserve : ℤ) ≤ Amount.maxValue ∧
      ((s.position c source).standard : ℤ) ≤ Amount.maxValue ∧
      (updateReserve cfg source c (-(s.position c source).reserve)
        (-(s.position c source).standard)).run s = .ok () s₁ ∧
      (updateReserve cfg target.1 c (s.position c source).reserve
        (s.position c source).standard).run s₁ = .ok () s' := by
  simp only [transferPositionFrom, run_transactional_ok, checkAuthorization, transferReserve,
    run_bind_ok, run_get_ok, run_ensure_ok, run_okOr_ok, run_engine_ok] at h
  obtain ⟨-, _, ⟨_, _, ⟨rfl, rfl⟩, -, rfl⟩, _, _, ⟨rfl, rfl⟩, -, _, ⟨-, rfl⟩, -, _, ⟨-, rfl⟩, -, _,
    ⟨-, rfl⟩, -, _, ⟨hreserve, rfl⟩, -, _, ⟨hstandard, rfl⟩, _, s₁, hsource, htarget⟩ := h
  exact ⟨s₁, hreserve, hstandard, hsource, htarget⟩

/-! ## Runs -/

/-- A position that an update opens is one that its account has afterwards. -/
theorem Provided.position {s : State A E} (h : Provided s) {c : CurrencyId} {a : A}
    (hne : s.position c a ≠ Position.zero) : 0 < s.system.providers a := by
  refine h c a fun hnone => hne ?_
  rw [State.position, StorageMap.get, hnone]
  rfl

theorem adjustPosition_consistent {base : A → ℕ} (h : Consistent base s) {who : Signer cfg}
    {c : CurrencyId} {ra sa : ℤ} {u : Unit}
    (hrun : (adjustPosition cfg who c ra sa).run s = .ok u s') (hprov : Provided s') :
    Consistent base s' := by
  obtain ⟨s₁, l₁, l₂, hupdate, -, -, -, rfl⟩ := adjustPosition_spec hrun
  obtain ⟨p, t, -, -, -, -, hs₁⟩ := updateReserve_spec hupdate
  have hproviders : s₁.system.providers = s.system.providers := by
    rw [hs₁]
    exact updateReferences_providers
  have hopen : s₁.position c who.1 ≠ Position.zero → 0 < s.system.providers who.1 := by
    intro hne
    rw [← hproviders]
    exact hprov.position hne
  obtain ⟨hreserve, hstandard, hstored, hreferences⟩ := (h.update hupdate hopen).1
  exact ⟨hreserve, hstandard, hstored, hreferences⟩

theorem transferPositionFrom_consistent {base : A → ℕ} (h : Consistent base s)
    {target : Signer cfg} {c : CurrencyId} {source : A} {u : Unit}
    (hrun : (transferPositionFrom cfg target c source).run s = .ok u s') (hprov : Provided s') :
    Consistent base s' := by
  obtain ⟨s₁, hfit, hfit', hsource, htarget⟩ := transferPositionFrom_spec hrun
  -- the first update closes the position of the source
  have hclosed : s₁.position c source = Position.zero := by
    obtain ⟨p, t, hreserve, hstandard, -, -, rfl⟩ := updateReserve_spec hsource
    have hreserve := applyAmount_spec hreserve
    have hstandard := applyAmount_spec hstandard
    rw [Amount.saturated_neg hfit] at hreserve
    rw [Amount.saturated_neg hfit'] at hstandard
    rw [State.position, get_store]
    obtain ⟨reserve, standard⟩ := p
    simp only [Position.zero, Position.mk.injEq] at hreserve hstandard ⊢
    omega
  obtain ⟨h₁, hproviders⟩ := h.update hsource (fun hne => absurd hclosed hne)
  refine (h₁.update htarget fun hne => ?_).1
  have hsame : s'.system.providers = s₁.system.providers := by
    obtain ⟨p, t, -, -, -, -, rfl⟩ := updateReserve_spec htarget
    exact updateReferences_providers
  rw [← hsame]
  exact hprov.position hne

/-- A call that fails changes nothing. -/
theorem step_eq_of_fails {call : Call cfg} (h : (dispatch cfg call).succeeds s = false) :
    step cfg s call = s := by
  cases call with
  | outside o => cases h
  | adjustPosition who c ra sa => exact commit_transactional_of_not_succeeds h
  | transferPositionFrom target c source => exact commit_transactional_of_not_succeeds h
  | authorize source c target => cases h
  | unauthorize source c target => cases h
  | unauthorizeAll source => cases h

theorem step_consistent {base : A → ℕ} (s : State A E) (call : Call cfg) (h : Consistent base s)
    (hprov : Provided (step cfg s call)) : Consistent base (step cfg s call) := by
  cases call with
  | adjustPosition who c ra sa =>
      revert hprov
      refine commit_transactional_invariant (P := fun t => Provided t → Consistent base t)
        (fun _ => h) ?_
      intro u s' hrun hprov
      exact adjustPosition_consistent h (run_transactional_ok.mpr hrun) hprov
  | transferPositionFrom target c source =>
      revert hprov
      refine commit_transactional_invariant (P := fun t => Provided t → Consistent base t)
        (fun _ => h) ?_
      intro u s' hrun hprov
      exact transferPositionFrom_consistent h (run_transactional_ok.mpr hrun) hprov
  | authorize source c target => exact ⟨h.reserve, h.standard, h.stored, h.references⟩
  | unauthorize source c target => exact ⟨h.reserve, h.standard, h.stored, h.references⟩
  | unauthorizeAll source => exact ⟨h.reserve, h.standard, h.stored, h.references⟩
  | outside o =>
      exact ⟨h.reserve, h.standard, h.stored, fun a => (o.consumers_eq s a).trans (h.references a)⟩

/-- **SettMint totals.** In every state reached by calls of the gateway, successful or failed and by
any accounts, in which accounts with open positions have a provider: the total of every currency is
the sum of its positions in both fields, a position is stored exactly when it is not zero, every
account carries one reference for each of its positions on top of those it started with, and a call
that fails changes nothing. -/
theorem totals_of_run (cfg : Config A E) (s₀ : State A E) (h₀ : Genesis s₀)
    (calls : List (Call cfg))
    (h : Machine.StepsMeet (step cfg) (fun s call => Provided (step cfg s call)) s₀ calls) :
    let s := Machine.run (step cfg) s₀ calls
    (∀ c, s.totalPosition c =
        ⟨positionSum Position.reserve s c, positionSum Position.standard s c⟩) ∧
      (∀ c a, s.positions.lookup (c, a) = none ↔ s.position c a = Position.zero) ∧
      (∀ a, s.system.consumers a = s₀.system.consumers a + positionCount s a) ∧
      ∀ call, (dispatch cfg call).succeeds s = false → step cfg s call = s := by
  have hinv : Consistent s₀.system.consumers (Machine.run (step cfg) s₀ calls) :=
    Machine.run_invariant step_consistent h₀.consistent h
  refine ⟨fun c => ?_, hinv.tallied.lookup_eq_none_iff, hinv.references,
    fun call => step_eq_of_fails⟩
  rw [← hinv.reserve c, ← hinv.standard c]

/-! ## A small instance -/

/-- Account 0 is the manager; a unit of a currency is worth a tenth. The reserve currency is among
the standard currencies, so that it has a rate of exchange. -/
def sampleConfig : Config ℕ Unit where
  rules := Ledger.Rules.permissive
  accountId := 0
  managerStandardCurrencyIds := [.Token .SETT, .Token .USDJ]
  engineStandardCurrencyIds := [.Token .SETT, .Token .USDJ]
  reserveCurrencyId := .Token .SETT
  defaultStandardExchangeRate := 10 ^ 17
  minimumStandardValue := 1
  onUpdateSettMint _ _ _ _ e := e

/-- Accounts 1 and 2 hold a thousand of every currency, and every price is one. -/
def sampleState : State ℕ Unit where
  ledger :=
    { free := fun _ a => if a = 1 ∨ a = 2 then 1000 else 0
      issuance := fun _ => 2000
      free_le := fun _ a => by split <;> decide
      issuance_le := fun _ => by decide }
  system := References.provideAll
  positions := ∅
  totalPositions := ∅
  standardExchangeRate := ∅
  authorization := ∅
  prices _ _ := some FixedU128.accuracy
  external := ()

def alice : Signer sampleConfig := ⟨1, by decide⟩

def bob : Signer sampleConfig := ⟨2, by decide⟩

theorem sampleState_genesis : Genesis sampleState := ⟨rfl, rfl⟩

/-- A position is opened, handed over, reopened, and overdrawn in vain. -/
def sampleRun : List (Call sampleConfig) :=
  [.adjustPosition alice (.Token .USDJ) 100 20, .authorize alice (.Token .USDJ) 2,
    .transferPositionFrom bob (.Token .USDJ) 1, .adjustPosition alice (.Token .USDJ) 50 0,
    .adjustPosition bob (.Token .USDJ) (-200) 0]

theorem sampleRun_totals :
    let s := Machine.run (step sampleConfig) sampleState sampleRun
    (∀ c, s.totalPosition c =
        ⟨positionSum Position.reserve s c, positionSum Position.standard s c⟩) ∧
      (∀ c a, s.positions.lookup (c, a) = none ↔ s.position c a = Position.zero) ∧
      (∀ a, s.system.consumers a = sampleState.system.consumers a + positionCount s a) ∧
      ∀ call, (dispatch sampleConfig call).succeeds s = false → step sampleConfig s call = s :=
  totals_of_run sampleConfig sampleState sampleState_genesis sampleRun
    ⟨fun _ _ _ => Nat.one_pos, fun _ _ _ => Nat.one_pos, fun _ _ _ => Nat.one_pos,
      fun _ _ _ => Nat.one_pos, fun _ _ _ => Nat.one_pos, trivial⟩

end Setheum.Settmint
