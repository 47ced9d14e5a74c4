import Setheum.Serp.Auction

/-!
# The calls of the auction manager

What each call of the auction manager and its register does to the auctions, said once: the three
creations, an accepted bid, an end and a cancellation, and what a call that fails leaves behind.
Bids are atomic by themselves. The creations and the cancellation are not: a creation raises the
total before it asks the register for an id, and a cancellation takes the auction out of its map
before it refunds the last bidder.

* `newDiamondAuction_ok`, `newSetterAuction_ok`, `newSerplusAuction_ok` — a new auction.
* `bid_changes`, `endAuction_closes`, `cancelAuction_closes` — an accepted bid, an end, a
  cancellation.
* `newDiamondAuction_error`, `newSetterAuction_error`, `newSerplusAuction_error`,
  `cancelAuction_error` — a failure.
-/

set_option autoImplicit false

namespace Setheum.Serp

open StorageMap

variable {A : Type} [DecidableEq A] {cfg : Config A} {s s' : State A} {u : Unit}
  {e : DispatchError}

/-! ## Creations -/

omit [DecidableEq A] in
theorem newRegisterAuction_ok {start id : ℕ} {endBlock : Option ℕ}
    (h : (newRegisterAuction cfg start endBlock).run s = .ok id s') :
    ∃ auctions, s.auctions.newAuction cfg.maxAuctionId start endBlock = some (id, auctions) ∧
      s' = { s with auctions := auctions } := by
  simp only [newRegisterAuction, Dispatch.run_bind_ok, Dispatch.run_get_ok,
    Dispatch.run_okOr_ok, Dispatch.run_modify_ok, Dispatch.run_pure_ok] at h
  obtain ⟨_, _, ⟨rfl, rfl⟩, ⟨_, auctions⟩, _, ⟨hnew, rfl⟩, _, _, rfl, rfl, rfl⟩ := h
  exact ⟨auctions, hnew, rfl⟩

omit [DecidableEq A] in
/-- The register fails when its ids are used up, and changes nothing. -/
theorem newRegisterAuction_error {start : ℕ} {endBlock : Option ℕ}
    (h : (newRegisterAuction cfg start endBlock).run s = .error e s') :
    ¬ s.auctions.index < cfg.maxAuctionId ∧ s' = s := by
  simp only [newRegisterAuction, Dispatch.run_bind_error, Dispatch.run_get_error,
    Dispatch.run_get_ok, Dispatch.run_okOr_error, Dispatch.run_modify_error,
    Dispatch.run_pure_error, false_or, or_false, and_false, exists_false] at h
  obtain ⟨_, _, ⟨rfl, rfl⟩, hnone, -, rfl⟩ := h
  exact ⟨Auctions.newAuction_eq_none.mp hnone, rfl⟩

omit [DecidableEq A] in
theorem newDiamondAuction_ok {initialAmount fix : ℕ}
    (h : (newDiamondAuction cfg initialAmount fix).run s = .ok u s') :
    ∃ (item : DiamondAuctionItem) (id : ℕ) (endBlock : Option ℕ) (auctions : Auctions A),
      item.fix = fix ∧
      s.auctions.newAuction cfg.maxAuctionId s.blockNumber endBlock = some (id, auctions) ∧
      s' = { s with
        totalSetterInAuction := s.totalSetterInAuction + fix
        auctions := auctions
        diamondAuctions := s.diamondAuctions.insert id item } := by
  unfold newDiamondAuction at h
  split at h
  · simp only [Dispatch.run_bind_ok, Dispatch.run_get_ok, Dispatch.run_okOr_ok,
      Dispatch.run_modify_ok] at h
    obtain ⟨_, _, ⟨rfl, rfl⟩, _, _, ⟨htotal, rfl⟩, _, _, rfl, id, _, hregister, rfl⟩ := h
    obtain ⟨auctions, hnew, rfl⟩ := newRegisterAuction_ok hregister
    obtain ⟨rfl, -⟩ := Balance.checkedAdd_eq_some.mp htotal
    exact ⟨_, id, _, auctions, rfl, hnew, rfl⟩
  · cases h

omit [DecidableEq A] in
/-- A creation that fails after its checks has raised the total. -/
theorem newDiamondAuction_error {initialAmount fix : ℕ}
    (h : (newDiamondAuction cfg initialAmount fix).run s = .error e s') :
    let checked := (0 < initialAmount ∧ 0 < fix) ∧ s.totalSetterInAuction + fix ≤ Balance.maxValue
    (¬ checked ∧ s' = s) ∨
      (checked ∧ ¬ s.auctions.index < cfg.maxAuctionId ∧
        s' = { s with totalSetterInAuction := s.totalSetterInAuction + fix }) := by
  unfold newDiamondAuction at h
  split at h
  · rename_i hpos
    simp only [Dispatch.run_bind_error, Dispatch.run_get_error, Dispatch.run_get_ok,
      Dispatch.run_okOr_error, Dispatch.run_okOr_ok, Dispatch.run_modify_error,
      Dispatch.run_modify_ok, false_or, or_false, and_false, exists_false] at h
    obtain ⟨_, _, ⟨rfl, rfl⟩, ⟨hoverflow, -, rfl⟩ |
      ⟨_, _, ⟨htotal, rfl⟩, _, _, rfl, hregister⟩⟩ := h
    · rw [Balance.checkedAdd_eq_none] at hoverflow
      exact .inl ⟨fun hchecked => hoverflow hchecked.2, rfl⟩
    · obtain ⟨rfl, hle⟩ := Balance.checkedAdd_eq_some.mp htotal
      obtain ⟨hids, rfl⟩ := newRegisterAuction_error hregister
      exact .inr ⟨⟨hpos, hle⟩, hids, rfl⟩
  · rename_i hpos
    obtain ⟨-, rfl⟩ := Dispatch.run_throw_error.mp h
    exact .inl ⟨fun hchecked => hpos hchecked.1, rfl⟩

omit [DecidableEq A] in
theorem newSetterAuction_ok {initialAmount fix : ℕ} {c : CurrencyId}
    (h : (newSetterAuction cfg initialAmount fix c).run s = .ok u s') :
    c ≠ cfg.setterCurrencyId ∧
      ∃ (item : SetterAuctionItem) (id : ℕ) (endBlock : Option ℕ) (auctions : Auctions A),
        item.currency = c ∧ item.fix = fix ∧
        s.auctions.newAuction cfg.maxAuctionId s.blockNumber endBlock = some (id, auctions) ∧
        s' = { s with
          totalSettCurrencyInAuction :=
            store 0 s.totalSettCurrencyInAuction c
              (StorageMap.get 0 s.totalSettCurrencyInAuction c + fix)
          auctions := auctions
          setterAuctions := s.setterAuctions.insert id item } := by
  unfold newSetterAuction at h
  split at h
  · simp only [Dispatch.run_bind_ok, Dispatch.run_get_ok, Dispatch.run_okOr_ok,
      Dispatch.run_ensure_ok, Dispatch.run_modify_ok] at h
    obtain ⟨_, _, ⟨-, rfl⟩, _, _, ⟨rfl, rfl⟩, _, _, ⟨htotal, rfl⟩, _, _, rfl, id, _, hregister,
      _, _, ⟨haccepted, rfl⟩, rfl⟩ := h
    obtain ⟨auctions, hnew, rfl⟩ := newRegisterAuction_ok hregister
    obtain ⟨rfl, -⟩ := Balance.checkedAdd_eq_some.mp htotal
    exact ⟨haccepted, _, id, _, auctions, rfl, rfl, hnew, rfl⟩
  · cases h

omit [DecidableEq A] in
/-- The currency is refused after the total is raised and the register entry made. -/
theorem newSetterAuction_error {initialAmount fix : ℕ} {c : CurrencyId}
    (h : (newSetterAuction cfg initialAmount fix c).run s = .error e s') :
    let checked := (0 < initialAmount ∧ 0 < fix) ∧ c ∈ cfg.stableCurrencyIds ∧
      StorageMap.get 0 s.totalSettCurrencyInAuction c + fix ≤ Balance.maxValue
    (¬ checked ∧ s' = s) ∨
      (checked ∧
        ((¬ s.auctions.index < cfg.maxAuctionId ∧ s'.auctions = s.auctions) ∨
          (c = cfg.setterCurrencyId ∧ ∃ id endBlock,
            s.auctions.newAuction cfg.maxAuctionId s.blockNumber endBlock
              = some (id, s'.auctions))) ∧
        s' = { s with
          totalSettCurrencyInAuction :=
            store 0 s.totalSettCurrencyInAuction c
              (StorageMap.get 0 s.totalSettCurrencyInAuction c + fix)
          auctions := s'.auctions }) := by
  unfold newSetterAuction at h
  split at h
  · rename_i hpos
    simp only [Dispatch.run_bind_error, Dispatch.run_get_error, Dispatch.run_get_ok,
      Dispatch.run_okOr_error, Dispatch.run_okOr_ok, Dispatch.run_modify_error,
      Dispatch.run_modify_ok, Dispatch.run_ensure_error, Dispatch.run_ensure_ok, false_or,
      or_false, and_false, exists_false] at h
    obtain ⟨hstable, -, rfl⟩ | ⟨_, _, ⟨hstable, rfl⟩, _, _, ⟨rfl, rfl⟩, ⟨hoverflow, -, rfl⟩ |
      ⟨_, _, ⟨htotal, rfl⟩, _, _, rfl, hregister | ⟨id, _, hregister, hsetter, -, rfl⟩⟩⟩ := h
    · exact .inl ⟨fun hchecked => hstable hchecked.2.1, rfl⟩
    · rw [Balance.checkedAdd_eq_none] at hoverflow
      exact .inl ⟨fun hchecked => hoverflow hchecked.2.2, rfl⟩
    · obtain ⟨rfl, hle⟩ := Balance.checkedAdd_eq_some.mp htotal
      obtain ⟨hids, rfl⟩ := newRegisterAuction_error hregister
      exact .inr ⟨⟨hpos, hstable, hle⟩, .inl ⟨hids, rfl⟩, rfl⟩
    · obtain ⟨rfl, hle⟩ := Balance.checkedAdd_eq_some.mp htotal
      obtain ⟨auctions, hnew, rfl⟩ := newRegisterAuction_ok hregister
      exact .inr ⟨⟨hpos, hstable, hle⟩, .inr ⟨not_not.mp hsetter, id, _, hnew⟩, rfl⟩
  · rename_i hpos
    obtain ⟨-, rfl⟩ := Dispatch.run_throw_error.mp h
    exact .inl ⟨fun hchecked => hpos hchecked.1, rfl⟩

omit [DecidableEq A] in
theorem newSerplusAuction_ok {amount : ℕ} {c : CurrencyId}
    (h : (newSerplusAuction cfg amount c).run s = .ok u s') :
    amount ≠ 0 ∧
      ∃ (item : SerplusAuctionItem) (id : ℕ) (auctions : Auctions A),
        item.currency = c ∧ item.amount = amount ∧
        s.auctions.newAuction cfg.maxAuctionId s.blockNumber none = some (id, auctions) ∧
        s' = { s with
          totalSerplusInAuction :=
            store 0 s.totalSerplusInAuction c
              (StorageMap.get 0 s.totalSerplusInAuction c + amount)
          auctions := auctions
          serplusAuctions := s.serplusAuctions.insert id item } := by
  simp only [newSerplusAuction, Dispatch.run_bind_ok, Dispatch.run_get_ok, Dispatch.run_okOr_ok,
    Dispatch.run_ensure_ok, Dispatch.run_modify_ok] at h
  obtain ⟨_, _, ⟨hamount, rfl⟩, _, _, ⟨-, rfl⟩, _, _, ⟨rfl, rfl⟩, _, _, ⟨htotal, rfl⟩, _, _, rfl,
    id, _, hregister, rfl⟩ := h
  obtain ⟨auctions, hnew, rfl⟩ := newRegisterAuction_ok hregister
  obtain ⟨rfl, -⟩ := Balance.checkedAdd_eq_some.mp htotal
  exact ⟨hamount, _, id, auctions, rfl, rfl, hnew, rfl⟩

omit [DecidableEq A] in
theorem newSerplusAuction_error {amount : ℕ} {c : CurrencyId}
    (h : (newSerplusAuction cfg amount c).run s = .error e s') :
    let checked := amount ≠ 0 ∧ c ∈ cfg.stableCurrencyIds ∧
      StorageMap.get 0 s.totalSerplusInAuction c + amount ≤ Balance.maxValue
    (¬ checked ∧ s' = s) ∨
      (checked ∧ ¬ s.auctions.index < cfg.maxAuctionId ∧
        s' = { s with
          totalSerplusInAuction :=
            store 0 s.totalSerplusInAuction c
              (StorageMap.get 0 s.totalSerplusInAuction c + amount) }) := by
  simp only [newSerplusAuction, Dispatch.run_bind_error, Dispatch.run_get_error,
    Dispatch.run_get_ok, Dispatch.run_okOr_error, Dispatch.run_okOr_ok,
    Dispatch.run_modify_error, Dispatch.run_modify_ok, Dispatch.run_ensure_error,
    Dispatch.run_ensure_ok, false_or, or_false, and_false, exists_false] at h
  obtain ⟨hamount, -, rfl⟩ | ⟨_, _, ⟨hamount, rfl⟩, ⟨hstable, -, rfl⟩ | ⟨_, _, ⟨hstable, rfl⟩,
    _, _, ⟨rfl, rfl⟩, ⟨hoverflow, -, rfl⟩ | ⟨_, _, ⟨htotal, rfl⟩, _, _, rfl, hregister⟩⟩⟩ := h
  · exact .inl ⟨fun hchecked => hamount hchecked.1, rfl⟩
  · exact .inl ⟨fun hchecked => hstable hchecked.2.1, rfl⟩
  · rw [Balance.checkedAdd_eq_none] at hoverflow
    exact .inl ⟨fun hchecked => hoverflow hchecked.2.2, rfl⟩
  · obtain ⟨rfl, hle⟩ := Balance.checkedAdd_eq_some.mp htotal
    obtain ⟨hids, rfl⟩ := newRegisterAuction_error hregister
    exact .inr ⟨⟨hamount, hstable, hle⟩, hids, rfl⟩

/-! ## Bids -/

/-- The references after a bid: one more for the bidder, one less for the last one. -/
def swapped (r : References A) (newBidder : A) (lastBidder : Option A) : References A :=
  let r' := (r.incConsumers newBidder).getD r
  lastBidder.elim r' r'.decConsumers

theorem transfer_ok {c : CurrencyId} {source dest : A} {amount : ℕ}
    (h : (transfer cfg c source dest amount).run s = .ok u s') :
    ∃ l, s' = { s with ledger := l } := by
  obtain ⟨l, -, rfl⟩ := Dispatch.run_onComponent_ok.mp h
  exact ⟨l, rfl⟩

theorem payFix_changes {c : CurrencyId} {newBidder : A} {lastBidder : Option A} {fix : ℕ}
    (h : (payFix cfg c newBidder lastBidder fix (transfer cfg c newBidder cfg.accountId fix)).run s
      = .ok u s') : ∃ l, s' = { s with ledger := l } := by
  cases lastBidder with
  | none => exact transfer_ok h
  | some lastBidder => exact transfer_ok h

theorem refundLastBid_changes {newBidder : A} {newBidPrice burnAmount : ℕ}
    {last : Option (Bid A)}
    (h : (refundLastBid cfg newBidder newBidPrice last).run s = .ok burnAmount s') :
    ∃ l, s' = { s with ledger := l } := by
  cases last with
  | none =>
      obtain ⟨-, rfl⟩ := Dispatch.run_pure_ok.mp h
      exact ⟨_, rfl⟩
  | some b =>
      simp only [refundLastBid, Dispatch.run_bind_ok, Dispatch.run_pure_ok] at h
      obtain ⟨_, _, htransfer, -, rfl⟩ := h
      exact transfer_ok htransfer

/-- What a bid that a diamond auction accepts does. -/
theorem diamondAuctionBidHandler_spec {now id newEnd : ℕ} {new : Bid A} {last : Option (Bid A)}
    (h : (diamondAuctionBidHandler cfg now id new last).run s = .ok newEnd s') :
    ∃ item s₁, s.diamondAuctions.lookup id = some item ∧
      checkMinimumIncrement new.2 (lastBidPrice last) item.fix
        (getDiamondAuctionMinimumIncrementSize cfg now item.startTime) = true ∧
      item.fix ≤ new.2 ∧
      (payFix cfg cfg.setterCurrencyId new.1 (last.map Prod.fst) item.fix
        (depositSetter cfg new.1 item.fix)).run s = .ok () s₁ ∧
      s' = { s₁ with
        system := swapped s₁.system new.1 (last.map Prod.fst)
        diamondAuctions := s₁.diamondAuctions.insert id
          { item with amount := item.amountForSale (lastBidPrice last) new.2 } } := by
  rw [diamondAuctionBidHandler, Dispatch.run_transactional_ok] at h
  simp only [Dispatch.run_bind_ok, Dispatch.run_get_ok, Dispatch.run_okOr_ok,
    Dispatch.run_ensure_ok, swapBidders, Dispatch.run_modify_ok, Dispatch.run_pure_ok] at h
  obtain ⟨_, _, ⟨rfl, rfl⟩, item, _, ⟨hitem, rfl⟩, _, _, ⟨⟨hcheck, hfix⟩, rfl⟩, _, s₁, hpay, _, _,
    rfl, _, _, rfl, -, rfl⟩ := h
  exact ⟨item, s₁, hitem, hcheck, hfix, hpay, rfl⟩

/-- What a bid that a setter auction accepts does. -/
theorem setterAuctionBidHandler_spec {now id newEnd : ℕ} {new : Bid A} {last : Option (Bid A)}
    (h : (setterAuctionBidHandler cfg now id new last).run s = .ok newEnd s') :
    ∃ item s₁, s.setterAuctions.lookup id = some item ∧
      checkMinimumIncrement new.2 (lastBidPrice last) item.fix
        (getSetterAuctionMinimumIncrementSize cfg now item.startTime) = true ∧
      item.fix ≤ new.2 ∧
      (payFix cfg item.currency new.1 (last.map Prod.fst) item.fix
        (depositSerplus cfg item.currency new.1 item.fix)).run s = .ok () s₁ ∧
      s' = { s₁ with
        system := swapped s₁.system new.1 (last.map Prod.fst)
        setterAuctions := s₁.setterAuctions.insert id
          { item with amount := item.amountForSale (lastBidPrice last) new.2 } } := by
  rw [setterAuctionBidHandler, Dispatch.run_transactional_ok] at h
  simp only [Dispatch.run_bind_ok, Dispatch.run_get_ok, Dispatch.run_okOr_ok,
    Dispatch.run_ensure_ok, swapBidders, Dispatch.run_modify_ok, Dispatch.run_pure_ok] at h
  obtain ⟨_, _, ⟨rfl, rfl⟩, item, _, ⟨hitem, rfl⟩, _, _, ⟨⟨hcheck, hfix⟩, rfl⟩, _, _, ⟨-, rfl⟩,
    _, s₁, hpay, _, _, rfl, _, _, rfl, -, rfl⟩ := h
  exact ⟨item, s₁, hitem, hcheck, hfix, hpay, rfl⟩

/-- What a bid that a serplus auction accepts does. -/
theorem serplusAuctionBidHandler_spec {now id newEnd : ℕ} {new : Bid A} {last : Option (Bid A)}
    (h : (serplusAuctionBidHandler cfg now id new last).run s = .ok newEnd s') :
    ∃ item burnAmount s₁ s₂, s.serplusAuctions.lookup id = some item ∧
      checkMinimumIncrement new.2 (lastBidPrice last) 0
        (getSerplusAuctionMinimumIncrementSize cfg now item.startTime) = true ∧
      (refundLastBid cfg new.1 new.2 last).run s = .ok burnAmount s₁ ∧
      (withdraw cfg cfg.nativeCurrencyId new.1 burnAmount).run s₁ = .ok () s₂ ∧
      s' = { s₂ with system := swapped s₂.system new.1 (last.map Prod.fst) } := by
  rw [serplusAuctionBidHandler, Dispatch.run_transactional_ok] at h
  simp only [Dispatch.run_bind_ok, Dispatch.run_get_ok, Dispatch.run_okOr_ok,
    Dispatch.run_ensure_ok, swapBidders, Dispatch.run_modify_ok, Dispatch.run_pure_ok] at h
  obtain ⟨_, _, ⟨-, rfl⟩, _, _, ⟨rfl, rfl⟩, item, _, ⟨hitem, rfl⟩, _, _, ⟨hcheck, rfl⟩,
    burnAmount, s₁, hrefund, _, s₂, hburn, _, _, rfl, -, rfl⟩ := h
  exact ⟨item, burnAmount, s₁, s₂, hitem, hcheck, hrefund, hburn, rfl⟩

/-- An accepted bid is one that its handler accepted, with the last bid of the register. -/
theorem bid_spec {who : A} {id price : ℕ} (h : (bid cfg who id price).run s = .ok u s') :
    ∃ auction newEnd s₁, s.auctions.info.lookup id = some auction ∧
      (bidHandler cfg s s.blockNumber id (who, price) auction.bid).run s = .ok newEnd s₁ ∧
      s' = { s₁ with
        auctions := s₁.auctions.recordBid id (who, price) (some (some newEnd)) } := by
  rw [bid, Dispatch.run_transactional_ok] at h
  simp only [onNewBid, Dispatch.run_bind_ok, Dispatch.run_get_ok, Dispatch.run_okOr_ok,
    Dispatch.run_ensure_ok, Dispatch.run_modify_ok, Dispatch.run_attempt_ok] at h
  obtain ⟨_, _, ⟨rfl, rfl⟩, auction, _, ⟨hauction, rfl⟩, _, _, ⟨-, rfl⟩, result, s₁,
    ⟨_, _, ⟨rfl, rfl⟩, outcome, _, houtcome, hresult⟩, _, _, ⟨haccept, rfl⟩, rfl⟩ := h
  rcases houtcome with ⟨newEnd, hhandler, rfl⟩ | ⟨e, -, rfl⟩
  · obtain ⟨rfl, rfl⟩ := Dispatch.run_pure_ok.mp hresult
    exact ⟨auction, newEnd, _, hauction, hhandler, rfl⟩
  · obtain ⟨rfl, -⟩ := Dispatch.run_pure_ok.mp hresult
    cases haccept

/-- What a bid does to the auctions: at most the amount for sale of its own one changes. -/
inductive Rebid (s : State A) (id : ℕ) : State A → Prop
  | diamond (item item' : DiamondAuctionItem) (hitem : s.diamondAuctions.lookup id = some item)
      (hfix : item'.fix = item.fix) :
      Rebid s id { s with diamondAuctions := s.diamondAuctions.insert id item' }
  | setter (item item' : SetterAuctionItem) (hitem : s.setterAuctions.lookup id = some item)
      (hcurrency : item'.currency = item.currency) (hfix : item'.fix = item.fix) :
      Rebid s id { s with setterAuctions := s.setterAuctions.insert id item' }
  | serplus (item : SerplusAuctionItem) (hitem : s.serplusAuctions.lookup id = some item) :
      Rebid s id s

omit [DecidableEq A] in
theorem Rebid.auctions_eq {id : ℕ} (h : Rebid s id s') : s'.auctions = s.auctions := by
  cases h <;> rfl

/-- An accepted bid changes the ledger, swaps the bidders and sets the amount for sale. -/
theorem bidHandler_changes {now id newEnd : ℕ} {new : Bid A} {last : Option (Bid A)}
    (h : (bidHandler cfg s now id new last).run s = .ok newEnd s') :
    ∃ s₁ l, Rebid s id s₁ ∧
      s' = { s₁ with
        ledger := l
        system := swapped s.system new.1 (last.map Prod.fst) } := by
  unfold bidHandler at h
  split at h
  · obtain ⟨item, s₁, hitem, -, -, hpay, rfl⟩ := diamondAuctionBidHandler_spec h
    obtain ⟨l, rfl⟩ := payFix_changes hpay
    let item' := { item with amount := item.amountForSale (lastBidPrice last) new.2 }
    exact ⟨_, l, .diamond item item' hitem rfl, rfl⟩
  · split at h
    · obtain ⟨item, s₁, hitem, -, -, hpay, rfl⟩ := setterAuctionBidHandler_spec h
      obtain ⟨l, rfl⟩ := payFix_changes hpay
      let item' := { item with amount := item.amountForSale (lastBidPrice last) new.2 }
      exact ⟨_, l, .setter item item' hitem rfl rfl, rfl⟩
    · split at h
      · obtain ⟨item, burnAmount, s₁, s₂, hitem, -, hrefund, hburn, rfl⟩ :=
          serplusAuctionBidHandler_spec h
        obtain ⟨l₁, rfl⟩ := refundLastBid_changes hrefund
        obtain ⟨l, -, rfl⟩ := Dispatch.run_onComponent_ok.mp hburn
        exact ⟨_, l, .serplus item hitem, rfl⟩
      · cases h

/-- An accepted bid, with what the register records. -/
theorem bid_changes {who : A} {id price : ℕ} (h : (bid cfg who id price).run s = .ok u s') :
    ∃ auction newEnd s₁ l,
      s.auctions.info.lookup id = some auction ∧ Rebid s id s₁ ∧
      s' = { s₁ with
        ledger := l
        system := swapped s.system who (auction.bid.map Prod.fst)
        auctions := s.auctions.recordBid id (who, price) newEnd } := by
  obtain ⟨auction, newEnd, s₂, hauction, hhandler, rfl⟩ := bid_spec h
  obtain ⟨s₁, l, hrebid, rfl⟩ := bidHandler_changes hhandler
  refine ⟨auction, some (some newEnd), s₁, l, hauction, hrebid, ?_⟩
  simp only [hrebid.auctions_eq]

/-! ## Ends and cancellations -/

/-- An auction is taken out of its map and its amount off the total. -/
inductive Closed (s : State A) (id : ℕ) : State A → Prop
  | diamond (item : DiamondAuctionItem) (hitem : s.diamondAuctions.lookup id = some item) :
      Closed s id { s with
        diamondAuctions := s.diamondAuctions.erase id
        totalSetterInAuction := s.totalSetterInAuction - item.fix }
  | setter (item : SetterAuctionItem) (hitem : s.setterAuctions.lookup id = some item) :
      Closed s id { s with
        setterAuctions := s.setterAuctions.erase id
        totalSettCurrencyInAuction :=
          store 0 s.totalSettCurrencyInAuction item.currency
            (StorageMap.get 0 s.totalSettCurrencyInAuction item.currency - item.fix) }
  | serplus (item : SerplusAuctionItem) (hitem : s.serplusAuctions.lookup id = some item) :
      Closed s id { s with
        serplusAuctions := s.serplusAuctions.erase id
        totalSerplusInAuction :=
          store 0 s.totalSerplusInAuction item.currency
            (StorageMap.get 0 s.totalSerplusInAuction item.currency - item.amount) }

/-- An auction is taken out of its map and its amount left in the total. -/
inductive Dropped (s : State A) (id : ℕ) : State A → Prop
  | diamond (item : DiamondAuctionItem) (hitem : s.diamondAuctions.lookup id = some item) :
      Dropped s id { s with diamondAuctions := s.diamondAuctions.erase id }
  | setter (item : SetterAuctionItem) (hitem : s.setterAuctions.lookup id = some item) :
      Dropped s id { s with setterAuctions := s.setterAuctions.erase id }
  | serplus (item : SerplusAuctionItem) (hitem : s.serplusAuctions.lookup id = some item) :
      Dropped s id { s with serplusAuctions := s.serplusAuctions.erase id }

/-- The auction is in one of the maps. -/
def InAuction (s : State A) (id : ℕ) : Prop :=
  id ∈ s.diamondAuctions ∨ id ∈ s.setterAuctions ∨ id ∈ s.serplusAuctions

/-- The reference of the last bidder, if any, is dropped. -/
def released (r : References A) (lastBidder : Option A) : References A :=
  lastBidder.elim r r.decConsumers

omit [DecidableEq A] in
/-- What a winner is dealt changes the ledger alone. -/
theorem deal_ok {winner : Option (Bid A)} {issue : A → SerpM A Unit}
    (hissue : ∀ who, ∃ l, Dispatch.commit (issue who) s = { s with ledger := l })
    (h : (deal winner issue).run s = .ok u s') : ∃ l, s' = { s with ledger := l } := by
  cases winner with
  | none =>
      obtain ⟨-, rfl⟩ := Dispatch.run_pure_ok.mp h
      exact ⟨_, rfl⟩
  | some b =>
      rw [← Dispatch.run_ignore_ok.mp h]
      exact hissue b.1

theorem deposit_onlyLedger (cfg : Config A) (c : CurrencyId) (who : A) (amount : ℕ) (s : State A) :
    ∃ l, Dispatch.commit (deposit cfg c who amount) s = { s with ledger := l } := by
  cases h : (deposit cfg c who amount).run s with
  | ok u s' =>
      obtain ⟨l, -, rfl⟩ := Dispatch.run_onComponent_ok.mp h
      exact ⟨l, Dispatch.commit_of_ok h⟩
  | error e s' =>
      obtain ⟨-, rfl⟩ := Dispatch.run_onComponent_error.mp h
      exact ⟨s.ledger, Dispatch.commit_of_error h⟩

theorem takeEnded_ok {id : ℕ} {winner : Option (Bid A)}
    (h : (takeEnded cfg s id winner).run s = .ok u s') :
    ∃ s₁ l, (Closed s id s₁ ∨ (s₁ = s ∧ ¬ InAuction s id)) ∧ s' = { s₁ with ledger := l } := by
  unfold takeEnded at h
  split at h
  · rename_i item hitem
    simp only [diamondAuctionEndHandler, Dispatch.run_bind_ok, Dispatch.run_modify_ok] at h
    obtain ⟨_, _, rfl, _, _, hdeal, rfl⟩ := h
    obtain ⟨l, rfl⟩ := deal_ok (fun who => deposit_onlyLedger _ _ who _ _) hdeal
    exact ⟨_, l, .inl (.diamond item hitem), rfl⟩
  · rename_i item _ hitem
    simp only [setterAuctionEndHandler, Dispatch.run_bind_ok, Dispatch.run_modify_ok] at h
    obtain ⟨_, _, rfl, _, _, hdeal, rfl⟩ := h
    obtain ⟨l, rfl⟩ := deal_ok (fun who => deposit_onlyLedger _ _ who _ _) hdeal
    exact ⟨_, l, .inl (.setter item hitem), rfl⟩
  · rename_i item _ _ hitem
    simp only [serplusAuctionEndHandler, Dispatch.run_bind_ok, Dispatch.run_modify_ok] at h
    obtain ⟨_, _, rfl, _, _, hdeal, rfl⟩ := h
    obtain ⟨l, rfl⟩ := deal_ok (fun who => deposit_onlyLedger _ _ who _ _) hdeal
    exact ⟨_, l, .inl (.serplus item hitem), rfl⟩
  · rename_i hdiamond hsetter hserplus
    obtain ⟨-, rfl⟩ := Dispatch.run_pure_ok.mp h
    refine ⟨s, s.ledger, .inr ⟨rfl, ?_⟩, rfl⟩
    rintro (hid | hid | hid)
    · exact AList.lookup_eq_none.mp hdiamond hid
    · exact AList.lookup_eq_none.mp hsetter hid
    · exact AList.lookup_eq_none.mp hserplus hid

/-- An end takes the auction out of the register and its map and releases the winner. -/
theorem endAuction_closes {id : ℕ} (h : (endAuction cfg id).run s = .ok u s') :
    ∃ auction s₁ l, s.auctions.info.lookup id = some auction ∧
      (Closed s id s₁ ∨ (s₁ = s ∧ ¬ InAuction s id)) ∧
      s' = { s₁ with
        ledger := l
        system := released s.system (auction.bid.map Prod.fst)
        auctions := s.auctions.remove id } := by
  simp only [endAuction, onAuctionEnded, Dispatch.run_bind_ok, Dispatch.run_get_ok,
    Dispatch.run_okOr_ok, Dispatch.run_modify_ok] at h
  obtain ⟨_, _, ⟨rfl, rfl⟩, auction, _, ⟨hauction, rfl⟩, _, _, rfl, _, _, ⟨rfl, rfl⟩, _, s₂,
    htake, rfl⟩ := h
  obtain ⟨s₁, l, hclosed, rfl⟩ := takeEnded_ok htake
  rcases hclosed with hclosed | ⟨rfl, hnot⟩
  · cases hclosed with
    | diamond item hitem => exact ⟨auction, _, l, hauction, .inl (.diamond item hitem), rfl⟩
    | setter item hitem => exact ⟨auction, _, l, hauction, .inl (.setter item hitem), rfl⟩
    | serplus item hitem => exact ⟨auction, _, l, hauction, .inl (.serplus item hitem), rfl⟩
  · exact ⟨auction, s, l, hauction, .inr ⟨rfl, hnot⟩, rfl⟩

omit [DecidableEq A] in
theorem neverFails_deal (winner : Option (Bid A)) (issue : A → SerpM A Unit) :
    Dispatch.NeverFails (deal winner issue) := by
  cases winner with
  | none => exact Dispatch.neverFails_pure ()
  | some b => exact Dispatch.neverFails_ignore _

theorem neverFails_takeEnded (s : State A) (id : ℕ) (winner : Option (Bid A)) :
    Dispatch.NeverFails (takeEnded cfg s id winner) := by
  unfold takeEnded
  split
  · refine Dispatch.neverFails_bind (Dispatch.neverFails_modify _) fun _ => ?_
    exact Dispatch.neverFails_bind (neverFails_deal _ _) fun _ => Dispatch.neverFails_modify _
  · refine Dispatch.neverFails_bind (Dispatch.neverFails_modify _) fun _ => ?_
    exact Dispatch.neverFails_bind (neverFails_deal _ _) fun _ => Dispatch.neverFails_modify _
  · refine Dispatch.neverFails_bind (Dispatch.neverFails_modify _) fun _ => ?_
    exact Dispatch.neverFails_bind (neverFails_deal _ _) fun _ => Dispatch.neverFails_modify _
  · exact Dispatch.neverFails_pure ()

/-- An end fails for an auction that the register does not have, and changes nothing. -/
theorem failsClean_endAuction (id : ℕ) : Dispatch.FailsClean (endAuction cfg id) := by
  refine Dispatch.failsClean_bind Dispatch.silent_get fun s => ?_
  refine Dispatch.failsClean_bind Dispatch.silent_okOr fun auction => ?_
  refine (Dispatch.neverFails_bind (Dispatch.neverFails_modify _) fun _ => ?_).failsClean
  refine Dispatch.neverFails_bind Dispatch.neverFails_get fun s => ?_
  exact Dispatch.neverFails_bind (neverFails_takeEnded s id _) fun _ =>
    Dispatch.neverFails_modify _

/-- What a cancellation owes to the last bidder of an auction. -/
def refundDue (cfg : Config A) (s : State A) (id : ℕ) : Option (CurrencyId × A × ℕ) :=
  (s.auctions.lastBid id).bind fun (bidder, bidPrice) =>
    match s.setterAuctions.lookup id, s.diamondAuctions.lookup id,
        s.serplusAuctions.lookup id with
    | some item, _, _ => some (item.currency, bidder, item.fix)
    | none, some item, _ => some (cfg.setterCurrencyId, bidder, item.fix)
    | none, none, some _ => some (cfg.nativeCurrencyId, bidder, bidPrice)
    | none, none, none => none

/-- The ledger does not take the refund. -/
def refundRefused (cfg : Config A) (s : State A) (id : ℕ) : Bool :=
  match refundDue cfg s id with
  | some (c, bidder, amount) => !(Ledger.deposit cfg.rules c bidder amount s.ledger).isOk
  | none => false

/-- The ledger after a refund that may be due. -/
def Refunded (cfg : Config A) (l : Ledger CurrencyId A) :
    Option (CurrencyId × A × ℕ) → Ledger CurrencyId A → Prop
  | some (c, bidder, amount), l' => Ledger.deposit cfg.rules c bidder amount l = .ok l'
  | none, l' => l' = l

theorem Refunded.accepted {id : ℕ} {l : Ledger CurrencyId A}
    (h : Refunded cfg s.ledger (refundDue cfg s id) l) : refundRefused cfg s id = false := by
  unfold refundRefused
  cases hdue : refundDue cfg s id with
  | none => rfl
  | some due =>
      obtain ⟨c, bidder, amount⟩ := due
      rw [hdue] at h
      have hdeposit : Ledger.deposit cfg.rules c bidder amount s.ledger = .ok l := h
      simp only [hdeposit]
      rfl

theorem refundBidder_spec {id : ℕ} {c : CurrencyId} (amount : Bid A → ℕ)
    (h : (refundBidder id fun b => deposit cfg c b.1 (amount b)).run s = .ok u s') :
    ∃ l, Refunded cfg s.ledger ((s.auctions.lastBid id).map fun b => (c, b.1, amount b)) l ∧
      s' = { s with
        ledger := l
        system := released s.system ((s.auctions.lastBid id).map Prod.fst) } := by
  simp only [refundBidder, Dispatch.run_bind_ok, Dispatch.run_get_ok] at h
  obtain ⟨_, _, ⟨rfl, rfl⟩, h⟩ := h
  cases hlast : s.auctions.lastBid id with
  | none =>
      rw [hlast] at h
      obtain ⟨-, rfl⟩ := Dispatch.run_pure_ok.mp h
      exact ⟨s.ledger, rfl, rfl⟩
  | some b =>
      rw [hlast] at h
      simp only [Dispatch.run_bind_ok, Dispatch.run_modify_ok] at h
      obtain ⟨_, s₁, hrefund, rfl⟩ := h
      obtain ⟨l, hl, rfl⟩ := Dispatch.run_onComponent_ok.mp hrefund
      exact ⟨l, hl, rfl⟩

/-- A refund that fails changes nothing by itself. -/
theorem refundBidder_error {id : ℕ} {c : CurrencyId} (amount : Bid A → ℕ)
    (h : (refundBidder id fun b => deposit cfg c b.1 (amount b)).run s = .error e s') :
    s' = s ∧ ∃ b, s.auctions.lastBid id = some b ∧
      (Ledger.deposit cfg.rules c b.1 (amount b) s.ledger).isOk = false := by
  simp only [refundBidder, Dispatch.run_bind_error, Dispatch.run_get_error, Dispatch.run_get_ok,
    false_or] at h
  obtain ⟨_, _, ⟨rfl, rfl⟩, h⟩ := h
  cases hlast : s.auctions.lastBid id with
  | none =>
      rw [hlast] at h
      exact absurd h (by simp)
  | some b =>
      rw [hlast] at h
      simp only [Dispatch.run_bind_error, Dispatch.run_modify_error, and_false, exists_false,
        or_false] at h
      obtain ⟨⟨e', he', -⟩, rfl⟩ := Dispatch.run_onComponent_error.mp h
      refine ⟨rfl, b, rfl, ?_⟩
      rw [he']
      rfl

/-- A cancellation closes the auction, refunds the last bidder and releases it. -/
theorem cancelAuction_closes {id : ℕ} (h : (cancelAuction cfg id).run s = .ok u s') :
    ∃ s₁ l, Refunded cfg s.ledger (refundDue cfg s id) l ∧ Closed s id s₁ ∧
      s' = { s₁ with
        ledger := l
        system := released s.system ((s.auctions.lastBid id).map Prod.fst)
        auctions := s.auctions.remove id } := by
  simp only [cancelAuction, Dispatch.run_bind_ok, Dispatch.run_get_ok,
    Dispatch.run_modify_ok] at h
  obtain ⟨_, _, ⟨rfl, rfl⟩, _, s₂, htake, rfl⟩ := h
  unfold takeCancelled at htake
  unfold refundDue
  split at htake
  · rename_i item hitem
    simp only [cancelSetterAuction, Dispatch.run_bind_ok, Dispatch.run_modify_ok] at htake
    obtain ⟨_, _, rfl, _, s₂, hrefund, rfl⟩ := htake
    obtain ⟨l, hl, rfl⟩ := refundBidder_spec (fun _ => item.fix) hrefund
    refine ⟨_, l, ?_, .setter item hitem, rfl⟩
    simpa only [hitem, Option.map_eq_bind, Function.comp_def] using hl
  · rename_i item hsetter hitem
    simp only [cancelDiamondAuction, Dispatch.run_bind_ok, Dispatch.run_modify_ok] at htake
    obtain ⟨_, _, rfl, _, s₂, hrefund, rfl⟩ := htake
    obtain ⟨l, hl, rfl⟩ := refundBidder_spec (fun _ => item.fix) hrefund
    refine ⟨_, l, ?_, .diamond item hitem, rfl⟩
    simpa only [hsetter, hitem, Option.map_eq_bind, Function.comp_def] using hl
  · rename_i item hsetter hdiamond hitem
    simp only [cancelSerplusAuction, Dispatch.run_bind_ok, Dispatch.run_modify_ok] at htake
    obtain ⟨_, _, rfl, _, s₂, hrefund, rfl⟩ := htake
    obtain ⟨l, hl, rfl⟩ := refundBidder_spec Prod.snd hrefund
    refine ⟨_, l, ?_, .serplus item hitem, rfl⟩
    simpa only [hsetter, hdiamond, hitem, Option.map_eq_bind, Function.comp_def] using hl
  · cases htake

/-- A cancellation whose refund is refused has dropped the auction from its map. -/
theorem cancelAuction_error {id : ℕ} (h : (cancelAuction cfg id).run s = .error e s') :
    (refundRefused cfg s id = false ∧ s' = s) ∨
      (refundRefused cfg s id = true ∧ Dropped s id s') := by
  simp only [cancelAuction, Dispatch.run_bind_error, Dispatch.run_get_error, Dispatch.run_get_ok,
    Dispatch.run_modify_error, false_or, and_false, exists_false, or_false] at h
  obtain ⟨_, _, ⟨rfl, rfl⟩, htake⟩ := h
  unfold takeCancelled at htake
  split at htake
  · rename_i item hitem
    simp only [cancelSetterAuction, Dispatch.run_bind_error, Dispatch.run_modify_error,
      Dispatch.run_modify_ok, false_or, and_false, exists_false, or_false] at htake
    obtain ⟨_, _, rfl, hrefund⟩ := htake
    obtain ⟨rfl, b, hlast, hrefused⟩ := refundBidder_error (fun _ => item.fix) hrefund
    simp only at hlast hrefused
    exact .inr ⟨by simp [refundRefused, refundDue, hlast, hitem, hrefused], .setter item hitem⟩
  · rename_i item hsetter hitem
    simp only [cancelDiamondAuction, Dispatch.run_bind_error, Dispatch.run_modify_error,
      Dispatch.run_modify_ok, false_or, and_false, exists_false, or_false] at htake
    obtain ⟨_, _, rfl, hrefund⟩ := htake
    obtain ⟨rfl, b, hlast, hrefused⟩ := refundBidder_error (fun _ => item.fix) hrefund
    simp only at hlast hrefused
    exact .inr ⟨by simp [refundRefused, refundDue, hlast, hsetter, hitem, hrefused],
      .diamond item hitem⟩
  · rename_i item hsetter hdiamond hitem
    simp only [cancelSerplusAuction, Dispatch.run_bind_error, Dispatch.run_modify_error,
      Dispatch.run_modify_ok, false_or, and_false, exists_false, or_false] at htake
    obtain ⟨_, _, rfl, hrefund⟩ := htake
    obtain ⟨rfl, b, hlast, hrefused⟩ := refundBidder_error Prod.snd hrefund
    simp only at hlast hrefused
    exact .inr ⟨by simp [refundRefused, refundDue, hlast, hsetter, hdiamond, hitem, hrefused],
      .serplus item hitem⟩
  · rename_i hsetter hdiamond hserplus
    obtain ⟨-, rfl⟩ := Dispatch.run_throw_error.mp htake
    refine .inl ⟨?_, rfl⟩
    cases hlast : s.auctions.lastBid id with
    | none => simp [refundRefused, refundDue, hlast]
    | some b => simp [refundRefused, refundDue, hlast, hsetter, hdiamond, hserplus]

/-! ## Runs of calls -/

/-- A call of the auction manager or of its register. -/
inductive AuctionCall (A : Type)
  | newDiamondAuction (initialAmount fixSetter : ℕ)
  | newSetterAuction (initialAmount fixSettcurrency : ℕ) (settcurrencyId : CurrencyId)
  | newSerplusAuction (amount : ℕ) (currencyId : CurrencyId)
  | bid (who : A) (id price : ℕ)
  | endAuction (id : ℕ)
  | cancelAuction (id : ℕ)

variable (cfg)

def AuctionCall.call : AuctionCall A → SerpM A Unit
  | .newDiamondAuction initialAmount fix => Serp.newDiamondAuction cfg initialAmount fix
  | .newSetterAuction initialAmount fix c => Serp.newSetterAuction cfg initialAmount fix c
  | .newSerplusAuction amount c => Serp.newSerplusAuction cfg amount c
  | .bid who id price => Serp.bid cfg who id price
  | .endAuction id => Serp.endAuction cfg id
  | .cancelAuction id => Serp.cancelAuction cfg id

/-- A step of the chain. The treasury's extrinsics make their calls in a storage layer that is
dropped when the call fails; other callers make them directly. Time passes, and the rest of the
chain moves balances and prices. -/
inductive AuctionStep (A : Type)
  | extrinsic (c : AuctionCall A)
  | direct (c : AuctionCall A)
  | elsewhere (blockNumber : ℕ) (ledger : Ledger CurrencyId A) (prices : Prices)

def auctionStep (s : State A) : AuctionStep A → State A
  | .extrinsic c => Dispatch.commit (Dispatch.transactional (c.call cfg)) s
  | .direct c => Dispatch.commit (c.call cfg) s
  | .elsewhere blockNumber ledger prices =>
      { s with blockNumber := blockNumber, ledger := ledger, prices := prices }

/-- A creation passes its checks and then finds no free id or has a refused currency; a
cancellation owes a refund that the ledger does not take. -/
def AuctionCall.failsLate (s : State A) : AuctionCall A → Prop
  | .newDiamondAuction initialAmount fix =>
      ((0 < initialAmount ∧ 0 < fix) ∧ s.totalSetterInAuction + fix ≤ Balance.maxValue) ∧
        ¬ s.auctions.index < cfg.maxAuctionId
  | .newSetterAuction initialAmount fix c =>
      ((0 < initialAmount ∧ 0 < fix) ∧ c ∈ cfg.stableCurrencyIds ∧
        StorageMap.get 0 s.totalSettCurrencyInAuction c + fix ≤ Balance.maxValue) ∧
        (¬ s.auctions.index < cfg.maxAuctionId ∨ c = cfg.setterCurrencyId)
  | .newSerplusAuction amount c =>
      (amount ≠ 0 ∧ c ∈ cfg.stableCurrencyIds ∧
        StorageMap.get 0 s.totalSerplusInAuction c + amount ≤ Balance.maxValue) ∧
        ¬ s.auctions.index < cfg.maxAuctionId
  | .bid _ _ _ => False
  | .endAuction _ => False
  | .cancelAuction id => refundRefused cfg s id = true

/-- Only a call made directly can fail late. -/
def FailsLate (s : State A) : AuctionStep A → Prop
  | .direct c => c.failsLate cfg s
  | _ => False

instance AuctionCall.decidableFailsLate (s : State A) :
    (c : AuctionCall A) → Decidable (c.failsLate cfg s)
  | .newDiamondAuction _ _ => inferInstanceAs (Decidable (_ ∧ _))
  | .newSetterAuction _ _ _ => inferInstanceAs (Decidable (_ ∧ _))
  | .newSerplusAuction _ _ => inferInstanceAs (Decidable (_ ∧ _))
  | .bid _ _ _ => inferInstanceAs (Decidable False)
  | .endAuction _ => inferInstanceAs (Decidable False)
  | .cancelAuction _ => inferInstanceAs (Decidable (_ = _))

instance decidableFailsLate (s : State A) : (a : AuctionStep A) → Decidable (FailsLate cfg s a)
  | .direct c => inferInstanceAs (Decidable (c.failsLate cfg s))
  | .extrinsic _ => inferInstanceAs (Decidable False)
  | .elsewhere _ _ _ => inferInstanceAs (Decidable False)

end Setheum.Serp
