import Setheum.Serp.Bids

/-!
# What a contraction removes from the supply

A contraction sells native currency or Setter for a fixed amount of the currency to be contracted.
The bidders' payment goes to the treasury, which is meant to burn it. No handler does, so the
payment stays in circulation.

* `opened_of_onSerpdown` — the auction that `onSerpdown` opens buys back the amount it was given.
* `dealt_endAuction` — the winner is dealt the amount for sale, once.
* `never_contracted` — no contraction removes anything from the supply.
-/

set_option autoImplicit false

namespace Setheum.Serp

open StorageMap

variable {A : Type} [DecidableEq A] {cfg : Config A} {s s' : State A} {id : ℕ}

/-! ## New auctions -/

omit [DecidableEq A] in
/-- What `newDiamondAuction` leaves behind, by how far it gets. -/
theorem commit_newDiamondAuction {initialAmount fix : ℕ} (h : 0 < initialAmount ∧ 0 < fix) :
    Dispatch.commit (newDiamondAuction cfg initialAmount fix) s =
      match Balance.checkedAdd s.totalSetterInAuction fix with
      | none => s
      | some total =>
          match s.auctions.newAuction cfg.maxAuctionId s.blockNumber
              (some (s.blockNumber + cfg.auctionTimeToClose)) with
          | none => { s with totalSetterInAuction := total }
          | some (id, auctions) =>
              { s with
                totalSetterInAuction := total
                auctions := auctions
                diamondAuctions := s.diamondAuctions.insert id
                  ⟨initialAmount, initialAmount, fix, s.blockNumber, h.1, h.2⟩ } := by
  rw [newDiamondAuction, dif_pos h]
  cases htotal : Balance.checkedAdd s.totalSetterInAuction fix with
  | none => simp [Dispatch.commit, htotal, Dispatch.okOr]
  | some total =>
      cases hid : s.auctions.newAuction cfg.maxAuctionId s.blockNumber
          (some (s.blockNumber + cfg.auctionTimeToClose)) with
      | none => simp [Dispatch.commit, htotal, Dispatch.okOr, newRegisterAuction, hid]
      | some p => simp [Dispatch.commit, htotal, Dispatch.okOr, newRegisterAuction, hid]

omit [DecidableEq A] in
/-- What `newSetterAuction` leaves behind for a stable currency other than the Setter. -/
theorem commit_newSetterAuction {initialAmount fix : ℕ} {c : CurrencyId}
    (h : 0 < initialAmount ∧ 0 < fix) (hstable : c ∈ cfg.stableCurrencyIds)
    (hsetter : c ≠ cfg.setterCurrencyId) :
    Dispatch.commit (newSetterAuction cfg initialAmount fix c) s =
      match Balance.checkedAdd (StorageMap.get 0 s.totalSettCurrencyInAuction c) fix with
      | none => s
      | some total =>
          match s.auctions.newAuction cfg.maxAuctionId s.blockNumber
              (some (s.blockNumber + cfg.auctionTimeToClose)) with
          | none =>
              { s with
                totalSettCurrencyInAuction := store 0 s.totalSettCurrencyInAuction c total }
          | some (id, auctions) =>
              { s with
                totalSettCurrencyInAuction := store 0 s.totalSettCurrencyInAuction c total
                auctions := auctions
                setterAuctions := s.setterAuctions.insert id
                  ⟨initialAmount, initialAmount, c, fix, s.blockNumber, h.1, h.2⟩ } := by
  rw [newSetterAuction, dif_pos h]
  cases htotal : Balance.checkedAdd (StorageMap.get 0 s.totalSettCurrencyInAuction c) fix with
  | none => simp [Dispatch.commit, Dispatch.ensure, hstable, htotal, Dispatch.okOr]
  | some total =>
      cases hid : s.auctions.newAuction cfg.maxAuctionId s.blockNumber
          (some (s.blockNumber + cfg.auctionTimeToClose)) with
      | none =>
          simp [Dispatch.commit, Dispatch.ensure, hstable, htotal, Dispatch.okOr,
            newRegisterAuction, hid]
      | some p =>
          simp [Dispatch.commit, Dispatch.ensure, hstable, hsetter, htotal, Dispatch.okOr,
            newRegisterAuction, hid]

omit [DecidableEq A] in
/-- What a contraction does: it prices the amount and tries to open one auction for it. -/
theorem onSerpdown_spec {c : CurrencyId} {amount : ℕ} {u : Unit}
    (h : (onSerpdown cfg c amount).run s = .ok u s') :
    ∃ setterFixedPrice price r initialAmount s₁, c ∈ cfg.stableCurrencyIds ∧
      s.prices.setterFixedPrice = some setterFixedPrice ∧
      checkedDivByPrice amount r = some initialAmount ∧ 0 < initialAmount ∧ 0 < amount ∧
      ((c = cfg.setterCurrencyId ∧ s.prices.price cfg.nativeCurrencyId = some price ∧
          FixedU128.checkedDiv price setterFixedPrice = some r ∧
          s₁ = Dispatch.commit (newDiamondAuction cfg initialAmount amount) s) ∨
        (c ≠ cfg.setterCurrencyId ∧ s.prices.stablecoinFixedPrice c = some price ∧
          FixedU128.checkedDiv setterFixedPrice price = some r ∧
          s₁ = Dispatch.commit (newSetterAuction cfg initialAmount amount c) s)) ∧
      s' = { s₁ with events := .CurrencySerpDownTriggered amount c :: s₁.events } := by
  simp only [onSerpdown, openSerpdownAuction, Dispatch.run_bind_ok, Dispatch.run_ensure_ok,
    Dispatch.run_get_ok, Dispatch.run_okOr_ok, depositEvent, Dispatch.run_modify_ok] at h
  obtain ⟨_, _, ⟨hstable, rfl⟩, _, s₁, ⟨_, _, ⟨rfl, rfl⟩, setterFixedPrice, _, ⟨hfixed, rfl⟩,
    hopen⟩, rfl⟩ := h
  split at hopen
  · rename_i hsetter
    simp only [Dispatch.run_bind_ok, Dispatch.run_okOr_ok, Dispatch.run_ensure_ok,
      Dispatch.run_ignore_ok] at hopen
    obtain ⟨price, _, ⟨hprice, rfl⟩, r, _, ⟨hr, rfl⟩, initialAmount, _, ⟨hinitial, rfl⟩, _, _,
      ⟨hne, rfl⟩, hs₁⟩ := hopen
    exact ⟨setterFixedPrice, price, r, initialAmount, s₁, hstable, hfixed, hinitial,
      Nat.pos_of_ne_zero hne.1, Nat.pos_of_ne_zero hne.2, .inl ⟨hsetter, hprice, hr, hs₁.symm⟩, rfl⟩
  · rename_i hsetter
    simp only [Dispatch.run_bind_ok, Dispatch.run_okOr_ok, Dispatch.run_ensure_ok,
      Dispatch.run_ignore_ok] at hopen
    obtain ⟨price, _, ⟨hprice, rfl⟩, r, _, ⟨hr, rfl⟩, initialAmount, _, ⟨hinitial, rfl⟩, _, _,
      ⟨hne, rfl⟩, hs₁⟩ := hopen
    exact ⟨setterFixedPrice, price, r, initialAmount, s₁, hstable, hfixed, hinitial,
      Nat.pos_of_ne_zero hne.1, Nat.pos_of_ne_zero hne.2, .inr ⟨hsetter, hprice, hr, hs₁.symm⟩, rfl⟩

/-- An auction under this id buys back `fix` of the currency `c` and has no bid, or there is no
auction under it at all. -/
def OpenedOrNot (cfg : Config A) (s : State A) (id : ℕ) (c : CurrencyId) (fix : ℕ) : Prop :=
  (Live cfg s id ⟨c, some fix⟩ ∧ s.auctions.lastBid id = none) ∨ id ∉ s.auctions.info

/-- The id the register will hand out next is in none of the manager's maps. -/
structure Unused (s : State A) : Prop where
  diamond : s.auctions.index ∉ s.diamondAuctions
  setter : s.auctions.index ∉ s.setterAuctions
  serplus : s.auctions.index ∉ s.serplusAuctions

omit [DecidableEq A] in
theorem notMem_index (s : State A) : s.auctions.index ∉ s.auctions.info := fun hmem =>
  absurd (s.auctions.fresh _ hmem) (Nat.lt_irrefl _)

omit [DecidableEq A] in
/-- The auction that `onSerpdown` opens buys back the amount it was given. -/
theorem opened_of_onSerpdown {c : CurrencyId} {amount : ℕ} {u : Unit} (hunused : Unused s)
    (h : (onSerpdown cfg c amount).run s = .ok u s') :
    OpenedOrNot cfg s' s.auctions.index c amount := by
  obtain ⟨setterFixedPrice, price, r, initialAmount, s₁, hstable, -, -, hinitial, hamount, hopen,
    rfl⟩ := onSerpdown_spec h
  suffices hopened : OpenedOrNot cfg s₁ s.auctions.index c amount by
    rcases hopened with ⟨hlive, hnew⟩ | hnone
    · exact .inl ⟨hlive.of_maps_eq rfl rfl rfl, hnew⟩
    · exact .inr hnone
  obtain ⟨hsetter, -, -, rfl⟩ | ⟨hsetter, -, -, rfl⟩ := hopen
  · rw [commit_newDiamondAuction ⟨hinitial, hamount⟩]
    split
    · exact .inr (notMem_index s)
    · split
      · exact .inr (notMem_index s)
      · rename_i id auctions hid
        obtain ⟨rfl, -, hlookup, -⟩ := Auctions.newAuction_spec hid
        refine .inl ⟨?_, Auctions.lastBid_eq_of_lookup hlookup⟩
        rw [hsetter]
        exact .diamond ⟨initialAmount, initialAmount, amount, s.blockNumber, hinitial, hamount⟩
          (AList.lookup_insert _) hunused.setter hunused.serplus
  · rw [commit_newSetterAuction ⟨hinitial, hamount⟩ hstable hsetter]
    split
    · exact .inr (notMem_index s)
    · split
      · exact .inr (notMem_index s)
      · rename_i id auctions hid
        obtain ⟨rfl, -, hlookup, -⟩ := Auctions.newAuction_spec hid
        refine .inl ⟨?_, Auctions.lastBid_eq_of_lookup hlookup⟩
        exact .setter ⟨initialAmount, initialAmount, c, amount, s.blockNumber, hinitial, hamount⟩
          (AList.lookup_insert _) hunused.diamond hunused.serplus

/-! ## Bids and the end -/

/-- Without an auction in the register no bid is accepted. -/
theorem notMem_bidStep (hid : id ∉ s.auctions.info) (b : BidAt cfg) :
    id ∉ (bidStep cfg id s b).auctions.info := by
  refine Dispatch.commit_transactional_invariant (P := fun s : State A => id ∉ s.auctions.info) hid
    fun u s' hrun => ?_
  simp only [Dispatch.run_bind_ok, Dispatch.run_get_ok, Dispatch.run_okOr_ok] at hrun
  obtain ⟨_, _, ⟨rfl, rfl⟩, auction, _, ⟨hauction, -⟩, -⟩ := hrun
  exact absurd (AList.lookup_isSome.mp (by rw [hauction]; rfl)) hid

theorem lastBid_run_of_notMem (hid : id ∉ s.auctions.info) (bids : List (BidAt cfg)) :
    (Machine.run (bidStep cfg id) s bids).auctions.lastBid id = none := by
  have hrun : id ∉ (Machine.run (bidStep cfg id) s bids).auctions.info :=
    Machine.run_invariant_always (P := fun s : State A => id ∉ s.auctions.info)
      (fun _ b h => notMem_bidStep h b) hid bids
  rw [Auctions.lastBid, AList.lookup_eq_none.mpr hrun]
  rfl

/-- What an auction has for sale, in which currency. -/
def State.forSale (cfg : Config A) (s : State A) (id : ℕ) : Option (CurrencyId × ℕ) :=
  match s.diamondAuctions.lookup id, s.setterAuctions.lookup id, s.serplusAuctions.lookup id with
  | some item, _, _ => some (cfg.nativeCurrencyId, item.amount)
  | none, some item, _ => some (cfg.setterCurrencyId, item.amount)
  | none, none, some item => some (item.currency, item.amount)
  | none, none, none => none

/-- The ledger after an amount is dealt to the winner; a deposit that fails is dropped. -/
def dealtTo (cfg : Config A) (c : CurrencyId) (who : A) (amount : ℕ) (l : Ledger CurrencyId A) :
    Ledger CurrencyId A :=
  match Ledger.deposit cfg.rules c who amount l with
  | .ok l' => l'
  | .error _ => l

theorem commit_deposit (c : CurrencyId) (who : A) (amount : ℕ) :
    (Dispatch.commit (deposit cfg c who amount) s).ledger = dealtTo cfg c who amount s.ledger := by
  simp only [Dispatch.commit, deposit, onLedger, Dispatch.onComponent, EStateM.run, dealtTo]
  cases Ledger.deposit cfg.rules c who amount s.ledger <;> rfl

/-- The end of an auction with a bid deals what is for sale to the last bidder. -/
theorem endAuction_ok {t : Terms} {b : Bid A} {u : Unit} (hlive : Live cfg s id t)
    (hlast : s.auctions.lastBid id = some b) (h : (endAuction cfg id).run s = .ok u s') :
    ∃ c amount, s.forSale cfg id = some (c, amount) ∧
      s'.ledger = dealtTo cfg c b.1 amount s.ledger := by
  simp only [endAuction, onAuctionEnded, Dispatch.run_bind_ok, Dispatch.run_get_ok,
    Dispatch.run_okOr_ok, Dispatch.run_modify_ok] at h
  obtain ⟨_, _, ⟨rfl, rfl⟩, auction, _, ⟨hauction, rfl⟩, _, _, rfl, _, _, ⟨rfl, rfl⟩, _, s₁,
    htake, rfl⟩ := h
  rw [Auctions.lastBid_eq_of_lookup hauction] at hlast
  rw [hlast] at htake
  unfold takeEnded at htake
  unfold State.forSale
  cases hlive with
  | diamond item hitem hsetter hserplus =>
      rw [hitem] at htake ⊢
      simp only [diamondAuctionEndHandler, deal, Dispatch.run_bind_ok, Dispatch.run_ignore_ok,
        Dispatch.run_modify_ok] at htake
      obtain ⟨_, _, rfl, _, _, rfl, rfl⟩ := htake
      exact ⟨_, _, rfl, commit_deposit _ _ _⟩
  | setter item hitem hdiamond hserplus =>
      rw [AList.lookup_eq_none.mpr hdiamond, hitem] at htake ⊢
      simp only [setterAuctionEndHandler, deal, Dispatch.run_bind_ok, Dispatch.run_ignore_ok,
        Dispatch.run_modify_ok] at htake
      obtain ⟨_, _, rfl, _, _, rfl, rfl⟩ := htake
      exact ⟨_, _, rfl, commit_deposit _ _ _⟩
  | serplus item hitem hdiamond hsetter =>
      rw [AList.lookup_eq_none.mpr hdiamond, AList.lookup_eq_none.mpr hsetter, hitem] at htake ⊢
      simp only [serplusAuctionEndHandler, deal, Dispatch.run_bind_ok, Dispatch.run_ignore_ok,
        Dispatch.run_modify_ok] at htake
      obtain ⟨_, _, rfl, _, _, rfl, rfl⟩ := htake
      exact ⟨_, _, rfl, commit_deposit _ _ _⟩

theorem le_issuance_dealtTo (cfg : Config A) (c c' : CurrencyId) (who : A) (amount : ℕ)
    (l : Ledger CurrencyId A) :
    l.issuance c' ≤ (dealtTo cfg c who amount l).issuance c' := by
  unfold dealtTo
  split
  · rename_i l' hl
    rw [Ledger.deposit_issuance hl]
    omega
  · exact le_rfl

/-- **The winner is dealt the amount for sale once**, if the ledger has room for it. -/
theorem dealt_endAuction {t : Terms} {b : Bid A} {u : Unit} {c : CurrencyId} {amount : ℕ}
    {l : Ledger CurrencyId A} (hlive : Live cfg s id t)
    (hlast : s.auctions.lastBid id = some b) (hsale : s.forSale cfg id = some (c, amount))
    (hroom : Ledger.deposit cfg.rules c b.1 amount s.ledger = .ok l)
    (h : (endAuction cfg id).run s = .ok u s') (a : A) :
    s'.ledger.free c a = s.ledger.free c a + if a = b.1 then amount else 0 := by
  obtain ⟨c', amount', hsale', hledger⟩ := endAuction_ok hlive hlast h
  rw [hsale] at hsale'
  cases hsale'
  rw [hledger, dealtTo, hroom]
  have hfree := Ledger.deposit_free hroom c a
  simpa using hfree

/-- The supply is lower by the amount bought back, and the winner has received what was for
sale. -/
structure Contracted (cfg : Config A) (c : CurrencyId) (amount id : ℕ) (winner : A)
    (opened sold ended : State A) : Prop where
  removed : ended.ledger.issuance c + amount = opened.ledger.issuance c
  dealt : ∃ c' n, sold.forSale cfg id = some (c', n) ∧
    ended.ledger.free c' winner = sold.ledger.free c' winner + n

/-- **No contraction removes anything from the supply.** For every contraction that `onSerpdown`
starts, every history of bids on its auction and the deal to the last bidder, the supply of the
contracted currency is not lower than before. -/
theorem never_contracted (cfg : Config A) (c : CurrencyId) (amount : ℕ) (s₀ s₁ s₃ : State A)
    (u u' : Unit) (winner : A) (price : ℕ) (bids : List (BidAt cfg)) (hunused : Unused s₀)
    (hstart : (onSerpdown cfg c amount).run s₀ = .ok u s₁)
    (hwinner : (Machine.run (bidStep cfg s₀.auctions.index) s₁ bids).auctions.lastBid
      s₀.auctions.index = some (winner, price))
    (hend : (endAuction cfg s₀.auctions.index).run
      (Machine.run (bidStep cfg s₀.auctions.index) s₁ bids) = .ok u' s₃) :
    ¬ Contracted cfg c amount s₀.auctions.index winner s₁
      (Machine.run (bidStep cfg s₀.auctions.index) s₁ bids) s₃ := by
  intro h
  rcases opened_of_onSerpdown hunused hstart with ⟨hlive, hnew⟩ | hnone
  · have hlaw := bidLaw_run hlive hnew bids
    have hbids := hlaw.issuance
    rw [hwinner] at hbids
    simp only [Terms.burned, Option.elim_some, Nat.add_zero] at hbids
    obtain ⟨c', n, -, hledger⟩ := endAuction_ok hlaw.live hwinner hend
    have hdeal := le_issuance_dealtTo cfg c' c winner n
      (Machine.run (bidStep cfg s₀.auctions.index) s₁ bids).ledger
    have hremoved := h.removed
    rw [hledger] at hremoved
    simp only at hremoved
    have hpos : 0 < amount := hlive.fix_pos rfl
    omega
  · rw [lastBid_run_of_notMem hnone bids] at hwinner
    cases hwinner

/-- A contraction of USDJ by 100 units, and a bid of 100 by account 1 that wins. -/
def sampleContraction : State ℕ :=
  Dispatch.commit (onSerpdown sampleConfig (.Token .USDJ) 100) (sampleState (10 ^ 18))

theorem winner_ne_accountId : 1 ≠ sampleConfig.accountId := by decide

def winningBids : List (BidAt sampleConfig) := [⟨2, ⟨1, winner_ne_accountId⟩, 100⟩]

def sampleDeal : State ℕ :=
  Dispatch.commit (endAuction sampleConfig 0)
    (Machine.run (bidStep sampleConfig 0) sampleContraction winningBids)

theorem sampleContraction_never_contracted :
    ¬ Contracted sampleConfig (.Token .USDJ) 100 0 1 sampleContraction
      (Machine.run (bidStep sampleConfig 0) sampleContraction winningBids) sampleDeal :=
  never_contracted sampleConfig (.Token .USDJ) 100 (sampleState (10 ^ 18)) sampleContraction
    sampleDeal () () 1 100 winningBids ⟨by decide, by decide, by decide⟩
    (Dispatch.run_eq_commit (by decide +kernel)) (by decide +kernel)
    (Dispatch.run_eq_commit (by decide +kernel))

/-- **The payment stays in circulation.** After the contraction is dealt the supply is what it was
before the first bid, and the treasury holds the hundred units. -/
theorem payment_stays_in_circulation :
    sampleDeal.ledger.issuance (.Token .USDJ)
        = sampleContraction.ledger.issuance (.Token .USDJ) ∧
      sampleDeal.ledger.free (.Token .USDJ) sampleConfig.accountId = 100 ∧
      ¬ Contracted sampleConfig (.Token .USDJ) 100 0 1 sampleContraction
        (Machine.run (bidStep sampleConfig 0) sampleContraction winningBids) sampleDeal := by
  refine ⟨by decide +kernel, by decide +kernel, fun h => ?_⟩
  have hremoved := h.removed
  revert hremoved
  decide +kernel

end Setheum.Serp
