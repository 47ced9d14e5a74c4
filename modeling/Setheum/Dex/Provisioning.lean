import Setheum.Dex.Accounting

/-!
# Bookkeeping of the provisioning phase

The parameters of a pending pair record what its contributors put in all together, each contributor
has an entry of its own, and every entry stands for one consumer reference on the contributor.

* `Provisioned` — the records agree with each other, and the references are there.
* `step_keepsBooks` — every call keeps them so, whatever its outcome, and changes the references of
  an account by as much as its entries.
* `provisions_consistent` — the records in every state that a run from the genesis state reaches,
  and what the references taken over the run add up to.
* `disableTradingPair_refunds` — disabling a pending pair pays every contributor its own entry.
-/

set_option autoImplicit false

namespace Setheum.Dex

open StorageMap Dispatch

variable {A E : Type} [DecidableEq A] {cfg : Config A E} {s s' t : State A E}

/-! ## Entries and references -/

/-- The number of pairs that an account has an entry for. -/
def entriesOf (s : State A E) (who : A) : ℕ :=
  sumBy (fun k _ => if k.2 = who then 1 else 0) s.provisioningPool

/-- The references after every entry of a list dropped one. -/
def dropReferences (entries : List (A × (ℕ × ℕ))) (r : References A) : References A :=
  entries.foldl (fun r e => r.decConsumers e.1) r

/-- How many entries of a list are an account's. -/
def countOf (entries : List (A × (ℕ × ℕ))) (who : A) : ℕ :=
  (entries.map fun e => if e.1 = who then 1 else 0).sum

theorem dropReferences_consumers (entries : List (A × (ℕ × ℕ))) (r : References A) (who : A) :
    (dropReferences entries r).consumers who = r.consumers who - countOf entries who := by
  induction entries generalizing r with
  | nil => rfl
  | cons e entries ih =>
      have hstep : dropReferences (e :: entries) r
          = dropReferences entries (r.decConsumers e.1) := rfl
      have hcount : countOf (e :: entries) who
          = (if e.1 = who then 1 else 0) + countOf entries who := List.sum_cons
      rw [hstep, ih, hcount, References.decConsumers_consumers]
      by_cases he : who = e.1
      · rw [if_pos he, if_pos he.symm]
        omega
      · rw [if_neg he, if_neg (Ne.symm he)]
        omega

/-- The entries of a pair, and those of the others, make up an account's. -/
theorem entriesOf_split (s : State A E) (p : TradingPair) (who : A) :
    countOf (s.provisionsOf p) who
      + sumBy (fun k _ => if k.2 = who then 1 else 0) (s.drained p) = entriesOf s who := by
  have hpart := sumBy_partition (fun k : TradingPair × A => k.1 = p)
    (fun k (_ : ℕ × ℕ) => if k.2 = who then 1 else 0) s.provisioningPool
  have hcount : countOf (s.provisionsOf p) who
      = sumBy (fun k _ => if k.2 = who then 1 else 0)
        (restrict (fun k => k.1 = p) s.provisioningPool) := by
    rw [countOf, State.provisionsOf, List.map_map]
    rfl
  rw [hcount]
  exact hpart

/-- A first contribution adds an entry, a further one does not. -/
theorem entriesOf_insert (s : State A E) (p : TradingPair) (who a : A) (x : ℕ × ℕ) :
    sumBy (fun k _ => if k.2 = a then 1 else 0) (s.provisioningPool.insert (p, who) x)
      = entriesOf s a
        + if a = who ∧ s.provisioningPool.lookup (p, who) = none then 1 else 0 := by
  have hins := sumBy_insert_add (fun (k : TradingPair × A) (_ : ℕ × ℕ) => if k.2 = a then 1 else 0)
    s.provisioningPool (p, who) x
  have hone : (if who = a then 1 else 0) = if a = who then 1 else 0 := by simp only [eq_comm]
  simp only [hone] at hins
  unfold entriesOf
  cases hlookup : s.provisioningPool.lookup (p, who) with
  | none =>
      rw [weightAt_of_notMem _ hlookup] at hins
      simp only [and_true]
      exact hins
  | some y =>
      rw [weightAt_of_lookup _ hlookup] at hins
      simp only [hone] at hins
      simp only [reduceCtorEq, and_false, if_false, add_zero]
      exact Nat.add_right_cancel hins

/-! ## The records -/

variable (cfg)

/-- The accumulated provision of a pending pair is the sum of its entries, no other pair has
entries, none is the exchange's own, and every entry has its reference. -/
structure Provisioned (s : State A E) : Prop where
  accumulated : ∀ p params, s.tradingPairStatus p = .Provisioning params →
    params.accumulatedProvision = provisioned s p
  unprovisioned : ∀ p who, (∀ params, s.tradingPairStatus p ≠ .Provisioning params) →
    s.provisioningPool.lookup (p, who) = none
  contributor : ∀ p, s.provisioningPool.lookup (p, cfg.accountId) = none
  referenced : ∀ who, entriesOf s who ≤ s.system.consumers who

/-- The records are consistent after `s'`, and from `s` to `s'` the references of every account
changed by as much as its entries. -/
structure KeepsBooks (s s' : State A E) : Prop where
  provisioned : Provisioned cfg s'
  tracked : ∀ who, s'.system.consumers who + entriesOf s who
    = s.system.consumers who + entriesOf s' who

variable {cfg}

theorem Provisioned.records (h : Provisioned cfg s) : PairRecords cfg s :=
  ⟨h.accumulated, h.unprovisioned, h.contributor⟩

theorem KeepsBooks.refl (h : Provisioned cfg s) : KeepsBooks cfg s s := ⟨h, fun _ => rfl⟩

/-- What provisioning does not read may change. -/
theorem KeepsBooks.congr (h : KeepsBooks cfg s t) (hpool : s'.provisioningPool = t.provisioningPool)
    (hstatus : s'.tradingPairStatuses = t.tradingPairStatuses) (hsystem : s'.system = t.system) :
    KeepsBooks cfg s s' := by
  have hst : ∀ p, s'.tradingPairStatus p = t.tradingPairStatus p := fun p => by
    rw [State.tradingPairStatus, hstatus, State.tradingPairStatus]
  have hentries : ∀ who, entriesOf s' who = entriesOf t who := fun who => by
    rw [entriesOf, hpool, entriesOf]
  obtain ⟨hbooks, htracked⟩ := h
  refine ⟨⟨?_, ?_, ?_, ?_⟩, ?_⟩
  · intro p params hp
    rw [hst] at hp
    rw [hbooks.accumulated p params hp, Dex.provisioned, Dex.provisioned, hpool]
  · intro p who hp
    simp only [hst] at hp
    rw [hpool]
    exact hbooks.unprovisioned p who hp
  · intro p
    rw [hpool]
    exact hbooks.contributor p
  · intro who
    rw [hentries, hsystem]
    exact hbooks.referenced who
  · intro who
    rw [hentries, hsystem]
    exact htracked who

/-- **A contribution enters the records of its pair**, with a reference if it is the first. -/
theorem KeepsBooks.contribute (h : Provisioned cfg s) {p : TradingPair}
    {params : TradingPairProvisionParameters} {who : A} {x : ℕ × ℕ} {r : References A}
    (hwho : who ≠ cfg.accountId) (hp : s.tradingPairStatus p = .Provisioning params)
    (hpool : s'.provisioningPool
      = s.provisioningPool.insert (p, who) (s.provision p who + x))
    (hstatus : s'.tradingPairStatuses = s.tradingPairStatuses.insert p
      (.Provisioning { params with accumulatedProvision := params.accumulatedProvision + x }))
    (hsystem : s'.system = r)
    (href : ∀ a, r.consumers a = s.system.consumers a
      + if a = who ∧ s.provisioningPool.lookup (p, who) = none then 1 else 0) :
    KeepsBooks cfg s s' := by
  have hentries : ∀ a, entriesOf s' a = entriesOf s a
      + if a = who ∧ s.provisioningPool.lookup (p, who) = none then 1 else 0 := fun a => by
    rw [entriesOf, hpool, entriesOf_insert]
  obtain ⟨haccumulated, hunprovisioned, hcontributor⟩ :=
    h.records.contribute hwho hp hpool hstatus
  refine ⟨⟨haccumulated, hunprovisioned, hcontributor, fun a => ?_⟩, fun a => ?_⟩
  · have hle := h.referenced a
    rw [hentries, hsystem, href]
    omega
  · rw [hentries, hsystem, href]
    omega

/-- A pair without entries changes its status to one without accumulated provision. -/
theorem KeepsBooks.set_status (h : Provisioned cfg s) {p : TradingPair} {st : TradingPairStatus}
    (hnone : ∀ who, s.provisioningPool.lookup (p, who) = none)
    (hst : ∀ params, st = .Provisioning params → params.accumulatedProvision = (0, 0))
    (hpool : s'.provisioningPool = s.provisioningPool)
    (hstatus : s'.tradingPairStatuses = s.tradingPairStatuses.insert p st)
    (hsystem : s'.system = s.system) : KeepsBooks cfg s s' := by
  obtain ⟨haccumulated, hunprovisioned, hcontributor⟩ :=
    h.records.set_status hnone hst hpool hstatus
  refine ⟨⟨haccumulated, hunprovisioned, hcontributor, fun who => ?_⟩, fun who => ?_⟩
  · rw [entriesOf, hpool, hsystem]
    exact h.referenced who
  · rw [entriesOf, entriesOf, hpool, hsystem]

/-- **The entries of a pending pair go away, each with its reference.** -/
theorem KeepsBooks.drain (h : Provisioned cfg s) {p : TradingPair}
    (hpool : s'.provisioningPool = s.drained p)
    (hsystem : s'.system = dropReferences (s.provisionsOf p) s.system)
    (hother : ∀ q, q ≠ p → s'.tradingPairStatus q = s.tradingPairStatus q)
    (hp : ∀ params, s'.tradingPairStatus p ≠ .Provisioning params) : KeepsBooks cfg s s' := by
  have hentries : ∀ who, countOf (s.provisionsOf p) who + entriesOf s' who = entriesOf s who :=
    fun who => by
      rw [← entriesOf_split s p who, entriesOf, hpool]
  have hconsumers : ∀ who, s'.system.consumers who
      = s.system.consumers who - countOf (s.provisionsOf p) who := fun who => by
    rw [hsystem, dropReferences_consumers]
  obtain ⟨haccumulated, hunprovisioned, hcontributor⟩ := h.records.drain hpool hother hp
  refine ⟨⟨haccumulated, hunprovisioned, hcontributor, fun who => ?_⟩, fun who => ?_⟩
  · have hle := h.referenced who
    have hsplit := hentries who
    rw [hconsumers]
    omega
  · have hle := h.referenced who
    have hsplit := hentries who
    rw [hconsumers]
    omega

/-- No contributor is the exchange itself. -/
theorem Provisioned.contributor_ne (h : Provisioned cfg s) {p : TradingPair} {who : A} {x : ℕ × ℕ}
    (hmem : (who, x) ∈ s.provisionsOf p) : who ≠ cfg.accountId := by
  rintro rfl
  have hlookup := provisionsOf_lookup hmem
  rw [h.contributor p] at hlookup
  cases hlookup

/-! ## The calls -/

section Calls

variable {who : A} {a b : CurrencyId} {x y n m : ℕ} {path : List CurrencyId}

theorem settleSwap_keepsBooks (h : Provisioned cfg s) {amounts : List ℕ} {u : Unit}
    (hrun : (settleSwap cfg who path amounts n m).run s = .ok u s') : KeepsBooks cfg s s' := by
  obtain ⟨_, _, l₁, l₂, pools, -, -, -, -, rfl⟩ := settleSwap_spec hrun
  exact (KeepsBooks.refl h).congr rfl rfl rfl

theorem doAddLiquidity_keepsBooks (h : Provisioned cfg s) {d : Bool} {u : Unit}
    (hrun : (doAddLiquidity cfg who a b x y m d).run s = .ok u s') : KeepsBooks cfg s s' := by
  obtain ⟨p, lp, increment, l₁, l₂, l₃, w, -, -, -, -, -, -, -, -, rfl⟩ := doAddLiquidity_spec hrun
  exact (KeepsBooks.refl h).congr rfl rfl rfl

theorem doRemoveLiquidity_keepsBooks (h : Provisioned cfg s) {byWithdraw : Bool} {u : Unit}
    (hrun : (doRemoveLiquidity cfg who a b n x y byWithdraw).run s = .ok u s') :
    KeepsBooks cfg s s' := by
  obtain rfl | ⟨p, lp, decrement, w, l₁, l₂, l₃, -, -, -, -, -, -, -, rfl⟩ :=
    doRemoveLiquidity_spec hrun
  · exact KeepsBooks.refl h
  · exact (KeepsBooks.refl h).congr rfl rfl rfl

theorem listTradingPair_keepsBooks (h : Provisioned cfg s) {origin : Origin (Signer cfg)}
    {mA mB tA tB : ℕ} :
    KeepsBooks cfg s ((listTradingPair cfg origin a b mA mB tA tB n).commit s) := by
  refine commit_transactional_invariant (KeepsBooks.refl h) ?_
  intro u s' hrun
  obtain ⟨p, params, e, -, hst, hzero, rfl⟩ :=
    listTradingPair_spec (run_transactional_ok.mpr hrun)
  refine KeepsBooks.set_status h ?_ ?_ rfl rfl rfl
  · intro who
    exact h.unprovisioned p who fun params hprov => by simp [hst] at hprov
  · rintro params' hparams
    cases hparams
    exact hzero

theorem enableTradingPair_keepsBooks (h : Provisioned cfg s) {origin : Origin (Signer cfg)} :
    KeepsBooks cfg s ((enableTradingPair cfg origin a b).commit s) := by
  refine commit_transactional_invariant (KeepsBooks.refl h) ?_
  intro u s' hrun
  obtain ⟨p, -, hst, rfl⟩ := enableTradingPair_spec (run_transactional_ok.mpr hrun)
  refine KeepsBooks.set_status h ?_ ?_ rfl rfl rfl
  · intro who
    exact h.unprovisioned p who fun params hprov => by simp [hst] at hprov
  · rintro params hparams
    cases hparams

/-- What paying a list of contributors back does to every other account. -/
theorem refundProvision_paid {p : TradingPair} {entries : List (A × (ℕ × ℕ))}
    (hne : ∀ e ∈ entries, e.1 ≠ cfg.accountId) {u : PUnit}
    (hrun : (entries.forM (refundProvision cfg p)).run s = .ok u s') :
    ∃ l, s' = { s with ledger := l, system := dropReferences entries s.system } ∧
      ∀ c who, who ≠ cfg.accountId → l.free c who
        = s.ledger.free c who
          + (entries.map fun e => if e.1 = who then side c p e.2 else 0).sum := by
  induction entries generalizing s with
  | nil =>
      obtain rfl := run_forM_nil_ok.mp hrun
      exact ⟨s.ledger, rfl, fun c who _ => rfl⟩
  | cons e entries ih =>
      obtain ⟨v, s₁, he, hrest⟩ := run_forM_cons_ok.mp hrun
      obtain ⟨l₁, l₂, h0, h1, rfl⟩ := refundProvision_spec he
      obtain ⟨l, rfl, hl⟩ := ih (fun e' he' => hne e' (List.mem_cons_of_mem e he')) hrest
      refine ⟨l, rfl, fun c who hwho => ?_⟩
      have hf0 := Ledger.transfer_free h0 c who
      have hf1 := Ledger.transfer_free h1 c who
      simp only [hwho, and_false, if_false, add_zero] at hf0 hf1
      rw [hl c who hwho, List.map_cons, List.sum_cons]
      simp only [hf1, hf0, side, eq_comm (a := who)]
      by_cases hewho : e.1 = who
      · simp only [hewho, and_true, if_true]
        omega
      · simp only [hewho, and_false, if_false]
        omega

theorem disableTradingPair_keepsBooks (h : Provisioned cfg s) {origin : Origin (Signer cfg)} :
    KeepsBooks cfg s ((disableTradingPair cfg origin a b).commit s) := by
  refine commit_transactional_invariant (KeepsBooks.refl h) ?_
  intro u s' hrun
  obtain ⟨p, -, ⟨hst, rfl⟩ | ⟨params, t, hst, hloop, rfl⟩⟩ :=
    disableTradingPair_spec (run_transactional_ok.mpr hrun)
  · -- an enabled pair has no entries
    refine KeepsBooks.set_status h ?_ ?_ rfl rfl rfl
    · intro who
      exact h.unprovisioned p who fun params hprov => by simp [hst] at hprov
    · rintro params hparams
      cases hparams
  · -- a pending pair pays its contributors back
    obtain ⟨l, rfl, -⟩ := refundProvision_paid (fun e he => h.contributor_ne (p := p) he) hloop
    refine KeepsBooks.drain h (p := p) rfl rfl (fun q hq => ?_) fun params hp => ?_
    · rw [State.tradingPairStatus, get_erase_ne _ _ hq, State.tradingPairStatus]
    · rw [State.tradingPairStatus, get_erase] at hp
      cases hp

variable (cfg) in
/-- Issuing shares to a list of contributors drops a reference of each and mints shares. -/
theorem issueShares_eq (lp : CurrencyId) (accumulated : ℕ × ℕ)
    (entries : List (A × (ℕ × ℕ))) (s : State A E) :
    ∃ l, entries.foldl (issueShare cfg lp accumulated) s
      = { s with ledger := l, system := dropReferences entries s.system } := by
  induction entries generalizing s with
  | nil => exact ⟨s.ledger, rfl⟩
  | cons e entries ih =>
      obtain ⟨l, hl⟩ := ih (issueShare cfg lp accumulated s e)
      exact ⟨l, hl⟩

/-- Enabling a pending pair keeps the books. -/
theorem convertToEnabledIfPossible_keepsBooks (h : Provisioned cfg s) (p : TradingPair) :
    KeepsBooks cfg s (convertToEnabledIfPossible cfg p s) := by
  unfold convertToEnabledIfPossible
  split
  · rename_i params lp hst hlp
    split
    · obtain ⟨l, hl⟩ := issueShares_eq cfg lp params.accumulatedProvision
        (s.provisionsOf p) s
      simp only [hl]
      refine KeepsBooks.drain h (p := p) rfl rfl (fun q hq => ?_) fun params' hp => ?_
      · rw [State.tradingPairStatus, get_insert_ne _ _ _ hq, State.tradingPairStatus]
      · rw [State.tradingPairStatus, get_insert] at hp
        cases hp
    · exact KeepsBooks.refl h
  · exact KeepsBooks.refl h

theorem KeepsBooks.trans {s'' : State A E} (h : KeepsBooks cfg s s') (h' : KeepsBooks cfg s' s'') :
    KeepsBooks cfg s s'' := by
  refine ⟨h'.provisioned, fun who => ?_⟩
  have h₁ := h.tracked who
  have h₂ := h'.tracked who
  omega

/-- A contribution's additions fit the balance type. -/
def ContributionFits (s : State A E) (a b : CurrencyId) (x y : ℕ) : Prop :=
  ∀ params, s.tradingPairStatus (TradingPair.new a b) = .Provisioning params →
    (params.accumulatedProvision + inPairOrder (TradingPair.new a b) a x y).1 ≤ Balance.maxValue ∧
      (params.accumulatedProvision + inPairOrder (TradingPair.new a b) a x y).2 ≤ Balance.maxValue

/-- An entry is part of the sum over its pair. -/
theorem provision_le_provisioned (s : State A E) (p : TradingPair) (who : A) :
    (s.provision p who).1 ≤ (provisioned s p).1 ∧ (s.provision p who).2 ≤ (provisioned s p).2 := by
  have hpart : ∀ f : ℕ × ℕ →+ ℕ, f (s.provision p who) ≤ f (provisioned s p) := by
    intro f
    have hone := weightAt_le_sumBy (fun (k : TradingPair × A) x => if k.1 = p then f x else 0)
      s.provisioningPool (p, who)
    rw [weightAt_eq_get (d := (0, 0)) _ s.provisioningPool (p, who) (by
      rw [if_pos rfl]
      exact f.map_zero), if_pos rfl] at hone
    have hsum : f (provisioned s p)
        = sumBy (fun (k : TradingPair × A) x => if k.1 = p then f x else 0) s.provisioningPool := by
      have hmap := map_list_sum f
        ((restrict (fun k : TradingPair × A => k.1 = p) s.provisioningPool).entries.map
          fun e => e.2)
      rw [List.map_map] at hmap
      rw [← sumBy_restrict]
      exact hmap
    rw [hsum]
    exact hone
  exact ⟨hpart (AddMonoidHom.fst ℕ ℕ), hpart (AddMonoidHom.snd ℕ ℕ)⟩

theorem doAddProvision_keepsBooks (h : Provisioned cfg s) (hwho : who ≠ cfg.accountId)
    (hprovider : 0 < s.system.providers who) (hfits : ContributionFits s a b x y) {u : Unit}
    (hrun : (doAddProvision cfg who a b x y).run s = .ok u s') : KeepsBooks cfg s s' := by
  obtain ⟨params, l₁, l₂, r, hst, -, -, -, hr, rfl⟩ := doAddProvision_spec hrun
  obtain ⟨hfst, hsnd⟩ := hfits params hst
  set p := TradingPair.new a b
  set contribution := inPairOrder p a x y
  have hacc : addPair params.accumulatedProvision contribution
      = params.accumulatedProvision + contribution := addPair_eq hfst hsnd
  have hown : addPair (s.provision p who) contribution = s.provision p who + contribution := by
    obtain ⟨hle0, hle1⟩ := provision_le_provisioned s p who
    rw [← h.accumulated p params hst] at hle0 hle1
    simp only [Prod.fst_add, Prod.snd_add] at hfst hsnd
    exact addPair_eq (by omega) (by omega)
  have href : ∀ a, r.consumers a = s.system.consumers a
      + if a = who ∧ s.provisioningPool.lookup (p, who) = none then 1 else 0 := by
    intro a
    rw [hr]
    by_cases hfirst : s.provisioningPool.lookup (p, who) = none
    · obtain ⟨r', hr', -, hconsumers⟩ := References.incConsumers_spec hprovider
      rw [if_pos hfirst, hr', Option.getD_some, hconsumers]
      by_cases ha : a = who
      · simp [ha, hfirst]
      · simp [ha]
    · simp [hfirst]
  refine KeepsBooks.contribute h hwho hst (x := contribution) ?_ ?_ rfl href
  · simp only [hown]
  · simp only [TradingPairProvisionParameters.contribute, hacc]

theorem addLiquidity_keepsBooks (h : Provisioned cfg s) {origin : Origin (Signer cfg)} {d : Bool}
    (hok : ∀ who, origin = .signed who →
      0 < s.system.providers who.1 ∧ ContributionFits s a b x y) :
    KeepsBooks cfg s ((addLiquidity cfg origin a b x y m d).commit s) := by
  refine commit_transactional_invariant (KeepsBooks.refl h) ?_
  intro u s' hrun
  obtain ⟨who, rfl, hadd | ⟨-, t, -, hadd, rfl⟩⟩ :=
    addLiquidity_spec (run_transactional_ok.mpr hrun)
  · exact doAddLiquidity_keepsBooks h hadd
  · obtain ⟨hprovider, hfits⟩ := hok who rfl
    have hbooks := doAddProvision_keepsBooks h who.2 hprovider hfits hadd
    exact hbooks.trans (convertToEnabledIfPossible_keepsBooks hbooks.provisioned _)

end Calls

/-! ## Refunds -/

/-- Each account has at most one entry for a pair. -/
theorem sum_provisionsOf_of (s : State A E) (p : TradingPair) (c : CurrencyId) (who : A) :
    ((s.provisionsOf p).map fun e => if e.1 = who then side c p e.2 else 0).sum
      = side c p (s.provision p who) := by
  have hsum : ((s.provisionsOf p).map fun e => if e.1 = who then side c p e.2 else 0).sum
      = sumBy (fun (k : TradingPair × A) x => if k.2 = who then side c p x else 0)
        (restrict (fun k => k.1 = p) s.provisioningPool) := by
    rw [State.provisionsOf, List.map_map]
    rfl
  have hone : sumBy (fun (k : TradingPair × A) x =>
      if k.1 = p then (if k.2 = who then side c p x else 0) else 0) s.provisioningPool
      = weightAt (fun (k : TradingPair × A) x =>
        if k.1 = p then (if k.2 = who then side c p x else 0) else 0) s.provisioningPool
        (p, who) := by
    refine sumBy_eq_weightAt _ fun e _ hne => ?_
    by_cases hp : e.1.1 = p
    · have hwho : e.1.2 ≠ who := fun heq => hne (Prod.ext hp heq)
      rw [if_pos hp, if_neg hwho]
    · rw [if_neg hp]
  rw [hsum, sumBy_restrict, hone, weightAt_eq_get (d := (0, 0))]
  · simp only [if_true]
    rfl
  · simp only [if_true]
    exact side_zero c p

/-- **Disabling a pending pair pays every contributor exactly its own entry.** -/
theorem disableTradingPair_refunds (h : Provisioned cfg s) {origin : Origin (Signer cfg)}
    {a b : CurrencyId} {p : TradingPair} {params : TradingPairProvisionParameters}
    (hp : TradingPair.fromTokenCurrencyIds a b = some p)
    (hst : s.tradingPairStatus p = .Provisioning params)
    (hok : succeeds (disableTradingPair cfg origin a b) s = true) {who : A}
    (hwho : who ≠ cfg.accountId) (c : CurrencyId) :
    ((disableTradingPair cfg origin a b).commit s).ledger.free c who
      = s.ledger.free c who + side c p (s.provision p who) := by
  have hrun := run_eq_commit hok
  generalize (disableTradingPair cfg origin a b).commit s = s' at hrun ⊢
  obtain ⟨q, hq, hpending⟩ := disableTradingPair_spec hrun
  obtain rfl : p = q := Option.some.inj (hp.symm.trans hq)
  obtain ⟨henabled, -⟩ | ⟨-, t, -, hloop, rfl⟩ := hpending
  · cases hst.symm.trans henabled
  obtain ⟨l, rfl, hl⟩ := refundProvision_paid (fun e he => h.contributor_ne (p := p) he) hloop
  rw [← sum_provisionsOf_of s p c who]
  exact hl c who hwho

/-! ## Runs -/

/-- What the exchange takes for granted: contributors have a provider, what they put in fits the
balance type, and nobody else drops a reference that an entry stands for. -/
def Assumed (cfg : Config A E) (s : State A E) : Call cfg → Prop
  | .addLiquidity (.signed who) a b x y _ _ =>
      0 < s.system.providers who.1 ∧ ContributionFits s a b x y
  | .outside o => ∀ who, entriesOf s who ≤ (o.act s).2.1.consumers who
  | _ => True

/-- The change that a call of the exchange makes to the references of an account. -/
def referenceChange (cfg : Config A E) (who : A) (s : State A E) : Call cfg → ℤ
  | .outside _ => 0
  | call => (step cfg s call).system.consumers who - s.system.consumers who

/-- The references of an account that the calls of a run took, less those they dropped. -/
def referencesTaken (cfg : Config A E) (who : A) : State A E → List (Call cfg) → ℤ
  | _, [] => 0
  | s, call :: calls =>
      referenceChange cfg who s call + referencesTaken cfg who (step cfg s call) calls

/-- **Every call keeps the records consistent**, and changes the references of every account by as
much as its entries. -/
theorem step_keepsBooks (h : Provisioned cfg s) (call : Call cfg) (hok : Assumed cfg s call) :
    Provisioned cfg (step cfg s call) ∧ ∀ who, referenceChange cfg who s call
      = entriesOf (step cfg s call) who - entriesOf s who := by
  have hbooks : (∀ o, call ≠ .outside o) → KeepsBooks cfg s (step cfg s call) := by
    intro hcall
    cases call with
    | swapWithExactSupply origin path n m =>
        refine commit_transactional_invariant (KeepsBooks.refl h) fun u s' hrun => ?_
        obtain ⟨who, -, r, hswap⟩ := swapWithExactSupply_spec (run_transactional_ok.mpr hrun)
        obtain ⟨amounts, -, -, -, hsettle⟩ := doSwapWithExactSupply_ok_iff.mp hswap
        exact settleSwap_keepsBooks h hsettle
    | swapWithExactTarget origin path n m =>
        refine commit_transactional_invariant (KeepsBooks.refl h) fun u s' hrun => ?_
        obtain ⟨who, -, r, hswap⟩ := swapWithExactTarget_spec (run_transactional_ok.mpr hrun)
        obtain ⟨amounts, -, -, -, hsettle⟩ := doSwapWithExactTarget_ok_iff.mp hswap
        exact settleSwap_keepsBooks h hsettle
    | addLiquidity origin a b x y m d =>
        refine addLiquidity_keepsBooks h ?_
        rintro who rfl
        exact hok
    | removeLiquidity origin a b n x y w =>
        refine commit_transactional_invariant (KeepsBooks.refl h) fun u s' hrun => ?_
        obtain ⟨who, -, hremove⟩ := removeLiquidity_spec (run_transactional_ok.mpr hrun)
        exact doRemoveLiquidity_keepsBooks h hremove
    | listTradingPair origin a b mA mB tA tB n => exact listTradingPair_keepsBooks h
    | enableTradingPair origin a b => exact enableTradingPair_keepsBooks h
    | disableTradingPair origin a b => exact disableTradingPair_keepsBooks h
    | updateExchangeFee origin n d =>
        refine commit_transactional_invariant (KeepsBooks.refl h) fun u s' hrun => ?_
        obtain rfl := updateExchangeFee_spec (run_transactional_ok.mpr hrun)
        exact (KeepsBooks.refl h).congr rfl rfl rfl
    | outside o => exact absurd rfl (hcall o)
  by_cases hcall : ∃ o, call = .outside o
  · obtain ⟨o, rfl⟩ := hcall
    refine ⟨⟨h.accumulated, h.unprovisioned, h.contributor, hok⟩, fun who => ?_⟩
    exact (sub_self _).symm
  · have hkeeps := hbooks fun o ho => hcall ⟨o, ho⟩
    refine ⟨hkeeps.provisioned, fun who => ?_⟩
    have htracked := hkeeps.tracked who
    have hchange : referenceChange cfg who s call
        = (step cfg s call).system.consumers who - s.system.consumers who := by
      cases call with
      | outside o => exact absurd ⟨o, rfl⟩ hcall
      | _ => rfl
    rw [hchange]
    omega

theorem referencesTaken_eq (h : Provisioned cfg s) {calls : List (Call cfg)}
    (hok : Machine.StepsMeet (step cfg) (Assumed cfg) s calls) (who : A) :
    referencesTaken cfg who s calls
      = entriesOf (Machine.run (step cfg) s calls) who - entriesOf s who := by
  induction calls generalizing s with
  | nil => exact (sub_self _).symm
  | cons call calls ih =>
      obtain ⟨hbooks, hchange⟩ := step_keepsBooks h call hok.1
      rw [referencesTaken, hchange, ih hbooks hok.2, Machine.run_cons]
      omega

theorem Genesis.provisioned (h : Genesis cfg s) : Provisioned cfg s where
  accumulated p params hp := by simp [State.tradingPairStatus, h.tradingPairStatuses] at hp
  unprovisioned p who _ := by simp [h.provisioningPool]
  contributor p := by simp [h.provisioningPool]
  referenced who := by simp [entriesOf, h.provisioningPool]

/-- **The provisioning books are exact.** After every run from the genesis state, a pending pair
has accumulated exactly what its entries add up to, no other pair has entries, the references that
the exchange's calls took of an account and have not dropped are as many as its entries, and
disabling a pending pair pays every contributor its own entry. -/
theorem provisions_consistent (cfg : Config A E) (s : State A E) (hs : Genesis cfg s)
    (calls : List (Call cfg)) (h : Machine.StepsMeet (step cfg) (Assumed cfg) s calls) :
    let t := Machine.run (step cfg) s calls
    (∀ p params, t.tradingPairStatus p = .Provisioning params →
        params.accumulatedProvision = provisioned t p) ∧
      (∀ p who, (∀ params, t.tradingPairStatus p ≠ .Provisioning params) →
        t.provisioningPool.lookup (p, who) = none) ∧
      (∀ who, referencesTaken cfg who s calls = entriesOf t who) ∧
      ∀ origin a b p params, TradingPair.fromTokenCurrencyIds a b = some p →
        t.tradingPairStatus p = .Provisioning params →
        succeeds (disableTradingPair cfg origin a b) t = true → ∀ who ≠ cfg.accountId, ∀ c,
          ((disableTradingPair cfg origin a b).commit t).ledger.free c who
            = t.ledger.free c who + side c p (t.provision p who) := by
  intro t
  have hbooks : Provisioned cfg t :=
    Machine.run_invariant (P := Provisioned cfg)
      (fun s call hs hok => (step_keepsBooks hs call hok).1) hs.provisioned h
  refine ⟨hbooks.accumulated, hbooks.unprovisioned, fun who => ?_, ?_⟩
  · have htaken := referencesTaken_eq hs.provisioned h who
    have hnone : entriesOf s who = 0 := by simp [entriesOf, hs.provisioningPool]
    rw [htaken, hnone]
    exact sub_zero _
  · intro origin a b p params hp hst hok who hwho c
    exact disableTradingPair_refunds hbooks hp hst hok hwho c

/-- A pair is listed and an account contributes to it twice, naming the currencies either way. -/
def contributingRun : List (Call sampleConfig) :=
  [.listTradingPair .root (.Token .DNAR) (.Token .USDJ) 1 1 10 20 0,
    .addLiquidity (.signed sampleSigner) (.Token .DNAR) (.Token .USDJ) 4 5 0 false,
    .addLiquidity (.signed sampleSigner) (.Token .USDJ) (.Token .DNAR) 3 2 0 false]

theorem contributingRun_assumed :
    Machine.StepsMeet (step sampleConfig) (Assumed sampleConfig) sampleState contributingRun := by
  refine ⟨trivial, ⟨by decide, ?_⟩, ⟨by decide, ?_⟩, trivial⟩
  · intro params hst
    cases hst
    decide
  · intro params hst
    cases hst
    decide

theorem provisions_contributingRun :
    let t := Machine.run (step sampleConfig) sampleState contributingRun
    entriesOf t 1 = 1 ∧ provisioned t (TradingPair.new (.Token .DNAR) (.Token .USDJ)) = (6, 8) ∧
      ∀ p params, t.tradingPairStatus p = .Provisioning params →
        params.accumulatedProvision = provisioned t p :=
  ⟨by decide, by decide, (provisions_consistent sampleConfig sampleState sampleState_genesis
    contributingRun contributingRun_assumed).1⟩

end Setheum.Dex
