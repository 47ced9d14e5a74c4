import Setheum.Dex.Model
import Mathlib.Algebra.Group.Prod
import Mathlib.Algebra.BigOperators.Group.List.Lemmas

/-!
# What the exchange's account owes

The liquidity pools and the provisions of pending pairs are claims on the exchange's module
account. `Accounted` says that in every currency the account holds exactly their sum, together
with the bookkeeping facts the calls rely on. Each operation that changes a claim has one lemma
here: the change of the claims equals the change of the account.

* `Accounted.insert_pool` — a pool changes and the account with it.
* `Accounted.contribute` — a contribution enters the account and the provisions.
* `Accounted.refund` — the contributors of a pending pair are paid back.
-/

set_option autoImplicit false

namespace Setheum.Dex

open StorageMap

variable {A E : Type}

/-! ## Claims -/

/-- How much of two amounts of a pair is denominated in `c`. -/
def side (c : CurrencyId) (p : TradingPair) (x : ℕ × ℕ) : ℕ :=
  (if c = p.currency0 then x.1 else 0) + (if c = p.currency1 then x.2 else 0)

@[simp] theorem side_zero (c : CurrencyId) (p : TradingPair) : side c p (0, 0) = 0 := by
  simp [side]

theorem side_add (c : CurrencyId) (p : TradingPair) (x y : ℕ × ℕ) :
    side c p (x + y) = side c p x + side c p y := by
  unfold side
  split <;> split <;> simp only [Prod.fst_add, Prod.snd_add] <;> omega

theorem fst_le_side (p : TradingPair) (x : ℕ × ℕ) : x.1 ≤ side p.currency0 p x := by
  simp [side]

theorem snd_le_side (p : TradingPair) (x : ℕ × ℕ) : x.2 ≤ side p.currency1 p x := by
  simp [side]

/-- Everything the pools hold in a currency. -/
def poolTotal (s : State A E) (c : CurrencyId) : ℕ := sumBy (side c) s.liquidityPool

section

variable [DecidableEq A]

/-- Everything contributors of pending pairs have put in, in a currency. -/
def provisionTotal (s : State A E) (c : CurrencyId) : ℕ :=
  sumBy (fun k => side c k.1) s.provisioningPool

/-- The contributions to one pair, added up. -/
def provisioned (s : State A E) (p : TradingPair) : ℕ × ℕ :=
  sumBy (fun _ x => x) (restrict (fun k => k.1 = p) s.provisioningPool)

theorem side_sumBy {κ : Type*} (c : CurrencyId) (p : TradingPair) (m : Map κ (ℕ × ℕ)) :
    side c p (sumBy (fun _ x => x) m) = sumBy (fun _ x => side c p x) m := by
  let f : ℕ × ℕ →+ ℕ := ⟨⟨side c p, side_zero c p⟩, side_add c p⟩
  have h := map_list_sum f (m.entries.map fun e => e.2)
  rw [List.map_map] at h
  exact h

/-- The contributions to a pair, and those to the others, make up the total. -/
theorem side_provisioned_add (s : State A E) (p : TradingPair) (c : CurrencyId) :
    side c p (provisioned s p) + sumBy (fun k => side c k.1) (s.drained p)
      = provisionTotal s c := by
  have hpart := sumBy_partition (fun k : TradingPair × A => k.1 = p)
    (fun k => side c k.1) s.provisioningPool
  have hown : sumBy (fun k : TradingPair × A => side c k.1)
      (restrict (fun k => k.1 = p) s.provisioningPool)
      = side c p (provisioned s p) := by
    rw [provisioned, side_sumBy]
    refine sumBy_congr ?_
    rintro ⟨k, x⟩ hk
    have hl := mem_entries_iff.mp hk
    rw [lookup_restrict] at hl
    split at hl
    · rename_i hp
      simp only [hp]
    · cases hl
  rw [hown] at hpart
  exact hpart

omit [DecidableEq A] in
theorem provisioned_eq (s : State A E) (p : TradingPair) :
    provisioned s p = sumBy (fun k x => if k.1 = p then x else 0) s.provisioningPool :=
  sumBy_restrict _ _ _

theorem addPair_eq {x y : ℕ × ℕ} (h0 : x.1 + y.1 ≤ Balance.maxValue)
    (h1 : x.2 + y.2 ≤ Balance.maxValue) : addPair x y = x + y := by
  unfold addPair
  rw [Balance.saturatingAdd_eq h0, Balance.saturatingAdd_eq h1]
  rfl

/-! ## The invariant -/

variable (cfg : Config A E)

/-- The module account holds exactly what the pools and the pending provisions add up to, and the
records of pending pairs agree with each other. -/
structure Accounted (s : State A E) : Prop where
  backed : ∀ c, s.ledger.free c cfg.accountId = poolTotal s c + provisionTotal s c
  valid : ∀ p, s.tradingPairStatus p ≠ .NotEnabled → p.Valid
  accumulated : ∀ p params, s.tradingPairStatus p = .Provisioning params →
    params.accumulatedProvision = provisioned s p
  unprovisioned : ∀ p who, (∀ params, s.tradingPairStatus p ≠ .Provisioning params) →
    s.provisioningPool.lookup (p, who) = none
  contributor : ∀ p, s.provisioningPool.lookup (p, cfg.accountId) = none

/-- The records of pending pairs agree with each other. -/
structure PairRecords (s : State A E) : Prop where
  accumulated : ∀ p params, s.tradingPairStatus p = .Provisioning params →
    params.accumulatedProvision = provisioned s p
  unprovisioned : ∀ p who, (∀ params, s.tradingPairStatus p ≠ .Provisioning params) →
    s.provisioningPool.lookup (p, who) = none
  contributor : ∀ p, s.provisioningPool.lookup (p, cfg.accountId) = none

theorem Genesis.accounted {s : State A E} (h : Genesis cfg s) : Accounted cfg s where
  backed c := by
    simp [h.module_free c, poolTotal, provisionTotal, h.liquidityPool, h.provisioningPool]
  valid p hp := by simp [State.tradingPairStatus, h.tradingPairStatuses] at hp
  accumulated p params hp := by simp [State.tradingPairStatus, h.tradingPairStatuses] at hp
  unprovisioned p who _ := by simp [h.provisioningPool]
  contributor p := by simp [h.provisioningPool]

variable {cfg} {s s' : State A E}

theorem Accounted.records (h : Accounted cfg s) : PairRecords cfg s :=
  ⟨h.accumulated, h.unprovisioned, h.contributor⟩

/-- One pool is covered by the module account. -/
theorem Accounted.pool_le (h : Accounted cfg s) (p : TradingPair) (c : CurrencyId) :
    side c p (s.pool p) + provisionTotal s c ≤ s.ledger.free c cfg.accountId := by
  have hone := weightAt_le_sumBy (side c) s.liquidityPool p
  rw [weightAt_eq_get (side c) s.liquidityPool p (side_zero c p)] at hone
  rw [h.backed c]
  exact Nat.add_le_add_right hone _

/-- One contribution is covered by the module account. -/
theorem Accounted.provision_le (h : Accounted cfg s) (p : TradingPair) (who : A)
    (c : CurrencyId) : side c p (s.provision p who) ≤ s.ledger.free c cfg.accountId := by
  have hone := weightAt_le_sumBy (fun k : TradingPair × A => side c k.1) s.provisioningPool
    (p, who)
  rw [weightAt_eq_get _ s.provisioningPool (p, who) (side_zero c p)] at hone
  rw [h.backed c]
  exact hone.trans (Nat.le_add_left _ _)

/-- So are all the contributions to one pair. -/
theorem Accounted.provisioned_le (h : Accounted cfg s) (p : TradingPair) (c : CurrencyId) :
    side c p (provisioned s p) ≤ s.ledger.free c cfg.accountId := by
  have hsplit := side_provisioned_add s p c
  have hbacked := h.backed c
  omega

omit [DecidableEq A] in
/-- Adding to a recorded amount that the account covers does not saturate when the account
receives the addition. -/
theorem addPair_eq_of_received {l l' : Ledger CurrencyId A} {a : A} {p : TradingPair}
    {x y : ℕ × ℕ} (hx : ∀ c, side c p x ≤ l.free c a)
    (hfree : ∀ c, l'.free c a = l.free c a + side c p y) : addPair x y = x + y := by
  refine addPair_eq ?_ ?_
  · have hle := l'.free_le p.currency0 a
    have hc := hx p.currency0
    have hf := hfree p.currency0
    have h0 := fst_le_side p x
    have h0' := fst_le_side p y
    omega
  · have hle := l'.free_le p.currency1 a
    have hc := hx p.currency1
    have hf := hfree p.currency1
    have h1 := snd_le_side p x
    have h1' := snd_le_side p y
    omega

/-! ## The records of pending pairs -/

/-- A contribution enters the records of its pair. -/
theorem PairRecords.contribute (h : PairRecords cfg s) {p : TradingPair}
    {params : TradingPairProvisionParameters} {who : A} {x : ℕ × ℕ} (hwho : who ≠ cfg.accountId)
    (hp : s.tradingPairStatus p = .Provisioning params)
    (hpool : s'.provisioningPool
      = s.provisioningPool.insert (p, who) (s.provision p who + x))
    (hstatus : s'.tradingPairStatuses = s.tradingPairStatuses.insert p
      (.Provisioning { params with accumulatedProvision := params.accumulatedProvision + x })) :
    PairRecords cfg s' := by
  have hst : ∀ q, q ≠ p → s'.tradingPairStatus q = s.tradingPairStatus q := fun q hq => by
    rw [State.tradingPairStatus, hstatus, get_insert_ne _ _ _ hq, State.tradingPairStatus]
  refine ⟨?_, ?_, ?_⟩
  · intro q params' hq
    have hins := sumBy_insert_add
      (fun (k : TradingPair × A) (y : ℕ × ℕ) => if k.1 = q then y else 0) s.provisioningPool
      (p, who) (s.provision p who + x)
    rw [weightAt_eq_get (d := (0, 0)) _ s.provisioningPool (p, who) (by simp)] at hins
    rw [provisioned_eq, hpool]
    by_cases hqp : q = p
    · subst hqp
      rw [State.tradingPairStatus, hstatus, get_insert] at hq
      cases hq
      simp only [if_true] at hins
      rw [h.accumulated q params hp, provisioned_eq]
      refine (add_right_cancel (b := s.provision q who) ?_).symm
      rw [add_assoc, add_comm x]
      exact hins
    · rw [hst q hqp] at hq
      simp only [if_neg (Ne.symm hqp), add_zero] at hins
      rw [h.accumulated q params' hq, provisioned_eq]
      exact hins.symm
  · intro q who' hq
    have hqp : q ≠ p := by
      rintro rfl
      exact hq _ (by rw [State.tradingPairStatus, hstatus, get_insert])
    have hkey : (q, who') ≠ (p, who) := fun heq => hqp (Prod.ext_iff.mp heq).1
    rw [hpool, AList.lookup_insert_ne hkey]
    exact h.unprovisioned q who' fun params' hq' => hq params' (by rw [hst q hqp, hq'])
  · intro q
    have hkey : (q, cfg.accountId) ≠ (p, who) := fun heq => hwho (Prod.ext_iff.mp heq).2.symm
    rw [hpool, AList.lookup_insert_ne hkey]
    exact h.contributor q

/-- A pair without entries changes its status to one without accumulated provision. -/
theorem PairRecords.set_status (h : PairRecords cfg s) {p : TradingPair} {st : TradingPairStatus}
    (hnone : ∀ who, s.provisioningPool.lookup (p, who) = none)
    (hst : ∀ params, st = .Provisioning params → params.accumulatedProvision = (0, 0))
    (hpool : s'.provisioningPool = s.provisioningPool)
    (hstatus : s'.tradingPairStatuses = s.tradingPairStatuses.insert p st) :
    PairRecords cfg s' := by
  have hother : ∀ q, q ≠ p → s'.tradingPairStatus q = s.tradingPairStatus q := fun q hq => by
    rw [State.tradingPairStatus, hstatus, get_insert_ne _ _ _ hq, State.tradingPairStatus]
  refine ⟨?_, ?_, ?_⟩
  · intro q params hq
    rw [provisioned, hpool]
    by_cases hqp : q = p
    · subst hqp
      rw [State.tradingPairStatus, hstatus, get_insert] at hq
      have hzero : provisioned s q = 0 := by
        refine sumBy_restrict_eq_zero _ _ ?_
        rintro ⟨q', who⟩ rfl
        exact hnone who
      rw [hst params hq]
      exact hzero.symm
    · rw [hother q hqp] at hq
      exact h.accumulated q params hq
  · intro q who hq
    rw [hpool]
    by_cases hqp : q = p
    · exact hqp ▸ hnone who
    · exact h.unprovisioned q who fun params hq' => hq params (by rw [hother q hqp, hq'])
  · intro q
    rw [hpool]
    exact h.contributor q

omit [DecidableEq A] in
theorem provisioned_drained (s : State A E) {p q : TradingPair} (hqp : q ≠ p) :
    sumBy (fun _ x => x) (restrict (fun k => k.1 = q) (s.drained p)) = provisioned s q := by
  rw [provisioned_eq, sumBy_restrict, State.drained, sumBy_restrict]
  refine sumBy_congr fun e _ => ?_
  by_cases he : e.1.1 = q
  · simp [he, hqp]
  · simp [he]

/-- The records of a pair go away with its status. -/
theorem PairRecords.drain (h : PairRecords cfg s) {p : TradingPair}
    (hpool : s'.provisioningPool = s.drained p)
    (hother : ∀ q, q ≠ p → s'.tradingPairStatus q = s.tradingPairStatus q)
    (hp : ∀ params, s'.tradingPairStatus p ≠ .Provisioning params) : PairRecords cfg s' := by
  refine ⟨?_, ?_, ?_⟩
  · intro q params hq
    have hqp : q ≠ p := by
      rintro rfl
      exact hp params hq
    rw [hother q hqp] at hq
    rw [h.accumulated q params hq, provisioned, provisioned, hpool]
    exact (provisioned_drained s hqp).symm
  · intro q who hq
    rw [hpool]
    simp only [State.drained, lookup_restrict]
    split
    · rename_i hqp
      exact h.unprovisioned q who fun params hq' => hq params (by rw [hother q hqp, hq'])
    · rfl
  · intro q
    rw [hpool]
    simp only [State.drained, lookup_restrict]
    split
    · exact h.contributor q
    · rfl

/-! ## One lemma for each change -/

/-- What happens to the ledger away from the module account leaves the claims covered. -/
theorem Accounted.outside (h : Accounted cfg s) {l : Ledger CurrencyId A} {r : References A}
    {n : ℕ} {fee : ℕ × ℕ} {e : E}
    (hfree : ∀ c, l.free c cfg.accountId = s.ledger.free c cfg.accountId) :
    Accounted cfg { s with ledger := l, system := r, blockNumber := n, exchangeFee := fee,
                           external := e } where
  backed c := (hfree c).trans (h.backed c)
  valid := h.valid
  accumulated := h.accumulated
  unprovisioned := h.unprovisioned
  contributor := h.contributor

/-- **A pool changes and the account with it.** -/
theorem Accounted.insert_pool (h : Accounted cfg s) {l : Ledger CurrencyId A} {e : E}
    {p : TradingPair} {y : ℕ × ℕ}
    (hfree : ∀ c, l.free c cfg.accountId + side c p (s.pool p)
      = s.ledger.free c cfg.accountId + side c p y) :
    Accounted cfg { s with ledger := l, external := e,
                           liquidityPool := s.liquidityPool.insert p y } where
  backed c := by
    have hins := sumBy_insert_add (side c) s.liquidityPool p y
    rw [weightAt_eq_get (side c) s.liquidityPool p (side_zero c p)] at hins
    have hf := hfree c
    have hb := h.backed c
    simp only [poolTotal, provisionTotal, State.pool] at hf hb hins ⊢
    omega
  valid := h.valid
  accumulated := h.accumulated
  unprovisioned := h.unprovisioned
  contributor := h.contributor

/-- **A contribution enters the account and the records of its pair.** -/
theorem Accounted.contribute (h : Accounted cfg s) {l : Ledger CurrencyId A} {r : References A}
    {p : TradingPair} {params : TradingPairProvisionParameters} {who : A} {x : ℕ × ℕ}
    (hwho : who ≠ cfg.accountId) (hp : s.tradingPairStatus p = .Provisioning params)
    (hfree : ∀ c, l.free c cfg.accountId = s.ledger.free c cfg.accountId + side c p x) :
    Accounted cfg { s with
      ledger := l, system := r,
      provisioningPool := s.provisioningPool.insert (p, who) (addPair (s.provision p who) x),
      tradingPairStatuses :=
        s.tradingPairStatuses.insert p (.Provisioning (params.contribute x)) } := by
  have hown : addPair (s.provision p who) x = s.provision p who + x :=
    addPair_eq_of_received (h.provision_le p who) hfree
  have hacc : addPair params.accumulatedProvision x = params.accumulatedProvision + x := by
    rw [h.accumulated p params hp]
    exact addPair_eq_of_received (h.provisioned_le p) hfree
  rw [hown, TradingPairProvisionParameters.contribute, hacc]
  have hrecords : PairRecords cfg { s with
      ledger := l, system := r,
      provisioningPool := s.provisioningPool.insert (p, who) (s.provision p who + x),
      tradingPairStatuses := s.tradingPairStatuses.insert p
        (.Provisioning
          { params with accumulatedProvision := params.accumulatedProvision + x }) } :=
    h.records.contribute hwho hp rfl rfl
  refine ⟨fun c => ?_, fun q hq => ?_, hrecords.accumulated, hrecords.unprovisioned,
    hrecords.contributor⟩
  · have hins := sumBy_insert_add (fun k : TradingPair × A => side c k.1) s.provisioningPool
      (p, who) (s.provision p who + x)
    rw [weightAt_eq_get _ s.provisioningPool (p, who) (side_zero c p), side_add] at hins
    have hf := hfree c
    have hb := h.backed c
    simp only [poolTotal, provisionTotal, State.provision] at hf hb hins ⊢
    omega
  · by_cases hqp : q = p
    · subst hqp
      exact h.valid q (by simp [hp])
    · rw [State.tradingPairStatus, get_insert_ne _ _ _ hqp] at hq
      exact h.valid q hq

/-- A pair without contributions changes its status to one without accumulated provision. -/
theorem Accounted.set_status (h : Accounted cfg s) {e : E} {p : TradingPair}
    {st : TradingPairStatus} (hvalid : p.Valid)
    (hnone : ∀ who, s.provisioningPool.lookup (p, who) = none)
    (hst : ∀ params, st = .Provisioning params → params.accumulatedProvision = (0, 0)) :
    Accounted cfg { s with external := e,
                           tradingPairStatuses := s.tradingPairStatuses.insert p st } := by
  have hrecords : PairRecords cfg { s with
      external := e, tradingPairStatuses := s.tradingPairStatuses.insert p st } :=
    h.records.set_status hnone hst rfl rfl
  refine ⟨h.backed, fun q hq => ?_, hrecords.accumulated, hrecords.unprovisioned,
    hrecords.contributor⟩
  by_cases hqp : q = p
  · exact hqp ▸ hvalid
  · rw [State.tradingPairStatus, get_insert_ne _ _ _ hqp] at hq
    exact h.valid q hq

theorem provisionsOf_lookup {p : TradingPair} {who : A} {x : ℕ × ℕ}
    (h : (who, x) ∈ s.provisionsOf p) : s.provisioningPool.lookup (p, who) = some x := by
  unfold State.provisionsOf at h
  obtain ⟨⟨⟨q, who'⟩, x'⟩, he, heq⟩ := List.mem_map.mp h
  cases heq
  have hl := mem_entries_iff.mp he
  rw [lookup_restrict] at hl
  split at hl
  · rename_i hq
    have hqp : q = p := hq
    exact hqp ▸ hl
  · cases hl

/-- No contributor is the exchange itself. -/
theorem Accounted.contributor_ne (h : Accounted cfg s) {p : TradingPair} {who : A} {x : ℕ × ℕ}
    (hmem : (who, x) ∈ s.provisionsOf p) : who ≠ cfg.accountId := by
  rintro rfl
  have hlookup := provisionsOf_lookup hmem
  rw [h.contributor p] at hlookup
  cases hlookup

omit [DecidableEq A] in
theorem sum_provisionsOf (s : State A E) (p : TradingPair) (c : CurrencyId) :
    ((s.provisionsOf p).map fun e => side c p e.2).sum = side c p (provisioned s p) := by
  rw [provisioned, side_sumBy, State.provisionsOf, List.map_map]
  rfl

/-- **The contributors of a pending pair are paid back and its records go away.** -/
theorem Accounted.refund (h : Accounted cfg s) {l : Ledger CurrencyId A} {r : References A}
    {p : TradingPair} (hfree : ∀ c, l.free c cfg.accountId + side c p (provisioned s p)
      = s.ledger.free c cfg.accountId) :
    Accounted cfg { s with
      ledger := l, system := r, provisioningPool := s.drained p,
      tradingPairStatuses := s.tradingPairStatuses.erase p } := by
  have hother : ∀ q, q ≠ p →
      get .NotEnabled (s.tradingPairStatuses.erase p) q = s.tradingPairStatus q :=
    fun q hqp => get_erase_ne _ _ hqp
  have herased : get .NotEnabled (s.tradingPairStatuses.erase p) p = .NotEnabled := get_erase ..
  have hrecords : PairRecords cfg { s with
      ledger := l, system := r, provisioningPool := s.drained p,
      tradingPairStatuses := s.tradingPairStatuses.erase p } :=
    h.records.drain rfl hother fun params hp => by cases herased.symm.trans hp
  refine ⟨fun c => ?_, fun q hq => ?_, hrecords.accumulated, hrecords.unprovisioned,
    hrecords.contributor⟩
  · have hsplit := side_provisioned_add s p c
    have hf := hfree c
    have hb := h.backed c
    simp only [poolTotal, provisionTotal] at hf hb hsplit ⊢
    omega
  · by_cases hqp : q = p
    · exact absurd (hqp ▸ herased) hq
    · exact h.valid q (by rw [← hother q hqp]; exact hq)

end

end Setheum.Dex
