import Setheum.Serp.Calls
import Setheum.Serp.Elasticity

/-!
# What bidders pay and get back

Over any history of bids on one auction, accepted or rejected, the only account that is out of
pocket is the last accepted bidder. What it paid is with the treasury for a diamond or a setter
auction, and burned for a serplus auction. A cancellation refunds the bidder by issuing new units,
which restores the supply in the second case only.

* `bid_ok` — what one accepted bid does, for the three kinds of auction at once.
* `bidLaw_run` — the law of bids, over every history of bids.
* `bids_conserved` — the law, and when a cancellation restores what there was before.
-/

set_option autoImplicit false

namespace Setheum.Serp

variable {A : Type} [DecidableEq A]

/-- The terms of an auction: the currency bidders pay in and, for a diamond or a setter auction,
the fixed amount they pay. -/
structure Terms where
  currency : CurrencyId
  fix : Option ℕ

/-- What a bid at this price costs the bidder. -/
def Terms.cost (t : Terms) (price : ℕ) : ℕ := t.fix.getD price

/-- What the treasury holds of a bid. -/
def Terms.held (t : Terms) : Option (Bid A) → ℕ
  | some _ => t.fix.getD 0
  | none => 0

/-- What has been burned for a bid. -/
def Terms.burned (t : Terms) : Option (Bid A) → ℕ
  | some (_, price) => t.fix.elim price fun _ => 0
  | none => 0

/-- What an account has paid for a bid. -/
def Terms.outlay (t : Terms) (a : A) : Option (Bid A) → ℕ
  | some (who, price) => if who = a then t.cost price else 0
  | none => 0

/-- The auction is in one of the three maps, with these terms. -/
inductive Live (cfg : Config A) (s : State A) (id : ℕ) : Terms → Prop
  | diamond (item : DiamondAuctionItem) (hitem : s.diamondAuctions.lookup id = some item)
      (hsetter : id ∉ s.setterAuctions) (hserplus : id ∉ s.serplusAuctions) :
      Live cfg s id ⟨cfg.setterCurrencyId, some item.fix⟩
  | setter (item : SetterAuctionItem) (hitem : s.setterAuctions.lookup id = some item)
      (hdiamond : id ∉ s.diamondAuctions) (hserplus : id ∉ s.serplusAuctions) :
      Live cfg s id ⟨item.currency, some item.fix⟩
  | serplus (item : SerplusAuctionItem) (hitem : s.serplusAuctions.lookup id = some item)
      (hdiamond : id ∉ s.diamondAuctions) (hsetter : id ∉ s.setterAuctions) :
      Live cfg s id ⟨cfg.nativeCurrencyId, none⟩

omit [DecidableEq A] in
/-- Nothing but the three maps matters. -/
theorem Live.of_maps_eq {cfg : Config A} {s s' : State A} {id : ℕ} {t : Terms}
    (h : Live cfg s id t) (hdiamond : s'.diamondAuctions = s.diamondAuctions)
    (hsetter : s'.setterAuctions = s.setterAuctions)
    (hserplus : s'.serplusAuctions = s.serplusAuctions) : Live cfg s' id t := by
  cases h with
  | diamond item hitem hs hp =>
      exact .diamond item (hdiamond ▸ hitem) (hsetter ▸ hs) (hserplus ▸ hp)
  | setter item hitem hd hp =>
      exact .setter item (hsetter ▸ hitem) (hdiamond ▸ hd) (hserplus ▸ hp)
  | serplus item hitem hd hs =>
      exact .serplus item (hserplus ▸ hitem) (hdiamond ▸ hd) (hsetter ▸ hs)

/-! ## One bid -/

/-- The change of the ledger when the bid `new` replaces the bid `last`. -/
structure Replaces (cfg : Config A) (t : Terms) (last : Option (Bid A)) (new : Bid A)
    (l l' : Ledger CurrencyId A) : Prop where
  accounts : ∀ a, a ≠ cfg.accountId →
    l'.free t.currency a + t.outlay a (some new) = l.free t.currency a + t.outlay a last
  treasury : l'.free t.currency cfg.accountId + t.held last
    = l.free t.currency cfg.accountId + t.held (some new)
  issuance : l'.issuance t.currency + t.burned (some new)
    = l.issuance t.currency + t.burned last

variable {cfg : Config A} {s s' : State A} {id now : ℕ} {who : A} {price : ℕ}
  {last : Option (Bid A)}

/-- A fixed amount goes from the new bidder to the last one, or to the treasury. -/
theorem payFix_ok {c : CurrencyId} {fix : ℕ} {u : Unit} (price : ℕ) (hwho : who ≠ cfg.accountId)
    (hlast : ∀ b ∈ last, b.1 ≠ cfg.accountId)
    (h : (payFix cfg c who (last.map Prod.fst) fix (transfer cfg c who cfg.accountId fix)).run s
      = .ok u s') :
    ∃ l, s' = { s with ledger := l } ∧
      Replaces cfg ⟨c, some fix⟩ last (who, price) s.ledger l := by
  cases last with
  | none =>
      obtain ⟨l, hl, rfl⟩ := Dispatch.run_onComponent_ok.mp h
      refine ⟨l, rfl, ?_, ?_, ?_⟩
      · intro a ha
        have hfree := Ledger.transfer_free hl c a
        simp only [Terms.outlay, Terms.cost, Option.getD_some]
        grind
      · have hfree := Ledger.transfer_free hl c cfg.accountId
        simp only [Terms.held, Option.getD_some]
        grind
      · have hissuance := Ledger.transfer_issuance hl
        simp [Terms.burned, hissuance]
  | some b =>
      obtain ⟨lastBidder, lastPrice⟩ := b
      have hne : lastBidder ≠ cfg.accountId := hlast _ rfl
      obtain ⟨l, hl, rfl⟩ := Dispatch.run_onComponent_ok.mp h
      refine ⟨l, rfl, ?_, ?_, ?_⟩
      · intro a ha
        have hfree := Ledger.transfer_free hl c a
        simp only [Terms.outlay, Terms.cost, Option.getD_some]
        grind
      · have hfree := Ledger.transfer_free hl c cfg.accountId
        simp only [Terms.held, Option.getD_some]
        grind
      · have hissuance := Ledger.transfer_issuance hl
        simp [Terms.burned, hissuance]

/-- A bid that passes the increment check is not below the last one. -/
theorem le_of_checkMinimumIncrement {newPrice lastPrice target increment : ℕ}
    (h : checkMinimumIncrement newPrice lastPrice target increment = true) :
    lastPrice ≤ newPrice := by
  unfold checkMinimumIncrement at h
  split at h
  · rename_i hresult
    have hsub := Balance.checkedSub_eq_some.mp hresult
    omega
  · cases h

/-- The last price goes from the new bidder to the last one, and the rest is burned. -/
theorem refundLastBid_ok {burnAmount : ℕ} {s₁ : State A} {u : Unit}
    (hwho : who ≠ cfg.accountId) (hlast : ∀ b ∈ last, b.1 ≠ cfg.accountId)
    (hprice : lastBidPrice last ≤ price)
    (h : (refundLastBid cfg who price last).run s = .ok burnAmount s₁)
    (hburn : (withdraw cfg cfg.nativeCurrencyId who burnAmount).run s₁ = .ok u s') :
    ∃ l, s' = { s with ledger := l } ∧
      Replaces cfg ⟨cfg.nativeCurrencyId, none⟩ last (who, price) s.ledger l := by
  obtain ⟨l, hl, rfl⟩ := Dispatch.run_onComponent_ok.mp hburn
  have hfree := Ledger.withdraw_free hl cfg.nativeCurrencyId
  have hissuance := Ledger.withdraw_issuance hl cfg.nativeCurrencyId
  cases last with
  | none =>
      obtain ⟨rfl, rfl⟩ := Dispatch.run_pure_ok.mp h
      refine ⟨l, rfl, ?_, ?_, ?_⟩
      · intro a ha
        have ha' := hfree a
        simp only [Terms.outlay, Terms.cost, Option.getD_none]
        grind
      · have ha' := hfree cfg.accountId
        simp only [Terms.held, Option.getD_none]
        grind
      · simp only [Terms.burned, Option.elim_none]
        simpa using hissuance
  | some b =>
      obtain ⟨lastBidder, lastPrice⟩ := b
      have hne : lastBidder ≠ cfg.accountId := hlast _ rfl
      have hle : lastPrice ≤ price := hprice
      simp only [refundLastBid, Dispatch.run_bind_ok, Dispatch.run_pure_ok] at h
      obtain ⟨_, _, htransfer, rfl, rfl⟩ := h
      obtain ⟨l₁, hl₁, rfl⟩ := Dispatch.run_onComponent_ok.mp htransfer
      have hfree₁ := Ledger.transfer_free hl₁ cfg.nativeCurrencyId
      have hissuance₁ := Ledger.transfer_issuance hl₁
      refine ⟨l, rfl, ?_, ?_, ?_⟩
      · intro a ha
        have ha' := hfree a
        have ha₁ := hfree₁ a
        simp only [Terms.outlay, Terms.cost, Option.getD_none]
        simp only [true_and] at ha' ha₁
        grind
      · have ha' := hfree cfg.accountId
        have ha₁ := hfree₁ cfg.accountId
        simp only [Terms.held, Option.getD_none]
        simp only [true_and] at ha' ha₁
        grind
      · simp only [Terms.burned, Option.elim_none]
        simp only [if_true, hissuance₁] at hissuance
        omega

/-- The handler of an auction replaces the last bid by the new one and keeps the auction. -/
theorem bidHandler_ok {t : Terms} {newEnd : ℕ} (hlive : Live cfg s id t)
    (hwho : who ≠ cfg.accountId) (hlast : ∀ b ∈ last, b.1 ≠ cfg.accountId)
    (h : (bidHandler cfg s now id (who, price) last).run s = .ok newEnd s') :
    Live cfg s' id t ∧ s'.auctions = s.auctions ∧
      Replaces cfg t last (who, price) s.ledger s'.ledger := by
  unfold bidHandler at h
  cases hlive with
  | diamond item hitem hsetter hserplus =>
      have hmem : id ∈ s.diamondAuctions := AList.lookup_isSome.mp (by rw [hitem]; rfl)
      rw [if_pos hmem] at h
      obtain ⟨item', s₁, hitem', -, -, hpay, rfl⟩ := diamondAuctionBidHandler_spec h
      rw [hitem] at hitem'
      cases hitem'
      obtain ⟨l, rfl, hreplaces⟩ := payFix_ok price hwho hlast hpay
      let item' := { item with amount := item.amountForSale (lastBidPrice last) price }
      have hlookup : (s.diamondAuctions.insert id item').lookup id = some item' :=
        AList.lookup_insert _
      exact ⟨.diamond item' hlookup hsetter hserplus, rfl, hreplaces⟩
  | setter item hitem hdiamond hserplus =>
      have hmem : id ∈ s.setterAuctions := AList.lookup_isSome.mp (by rw [hitem]; rfl)
      rw [if_neg hdiamond, if_pos hmem] at h
      obtain ⟨item', s₁, hitem', -, -, hpay, rfl⟩ := setterAuctionBidHandler_spec h
      rw [hitem] at hitem'
      cases hitem'
      obtain ⟨l, rfl, hreplaces⟩ := payFix_ok price hwho hlast hpay
      let item' := { item with amount := item.amountForSale (lastBidPrice last) price }
      have hlookup : (s.setterAuctions.insert id item').lookup id = some item' :=
        AList.lookup_insert _
      exact ⟨.setter item' hlookup hdiamond hserplus, rfl, hreplaces⟩
  | serplus item hitem hdiamond hsetter =>
      have hmem : id ∈ s.serplusAuctions := AList.lookup_isSome.mp (by rw [hitem]; rfl)
      rw [if_neg hdiamond, if_neg hsetter, if_pos hmem] at h
      obtain ⟨item', burnAmount, s₁, s₂, -, hcheck, hrefund, hburn, rfl⟩ :=
        serplusAuctionBidHandler_spec h
      obtain ⟨l, rfl, hreplaces⟩ :=
        refundLastBid_ok hwho hlast (le_of_checkMinimumIncrement hcheck) hrefund hburn
      exact ⟨.serplus item hitem hdiamond hsetter, rfl, hreplaces⟩

/-- **An accepted bid replaces the last one**: it becomes the last bid, and the accounts, the
treasury and the issuance change by what the two bids cost. -/
theorem bid_ok {t : Terms} {u : Unit} (hlive : Live cfg s id t) (hwho : who ≠ cfg.accountId)
    (hlast : ∀ b ∈ s.auctions.lastBid id, b.1 ≠ cfg.accountId)
    (h : (bid cfg who id price).run s = .ok u s') :
    Live cfg s' id t ∧ s'.auctions.lastBid id = some (who, price) ∧
      Replaces cfg t (s.auctions.lastBid id) (who, price) s.ledger s'.ledger := by
  obtain ⟨auction, newEnd, s₁, hauction, hhandler, rfl⟩ := bid_spec h
  rw [Auctions.lastBid_eq_of_lookup hauction] at hlast ⊢
  obtain ⟨hlive', hsame, hreplaces⟩ := bidHandler_ok hlive hwho hlast hhandler
  refine ⟨?_, ?_, hreplaces⟩
  · exact hlive'.of_maps_eq rfl rfl rfl
  · rw [← hsame] at hauction
    exact Auctions.lastBid_recordBid hauction _ _

/-! ## A history of bids -/

/-- A bid put to the auction register at a block. -/
structure BidAt (cfg : Config A) where
  block : ℕ
  who : Signer cfg
  price : ℕ

/-- The state after a bid, accepted or rejected. -/
def bidStep (cfg : Config A) (id : ℕ) (s : State A) (b : BidAt cfg) : State A :=
  Dispatch.commit (bid cfg b.who.1 id b.price) { s with blockNumber := b.block }

/-- Since the state `s₀` before the first bid, the last accepted bidder has paid its bid and no
other account has changed; the treasury holds the fixed amount, or the price has been burned. -/
structure BidLaw (cfg : Config A) (id : ℕ) (t : Terms) (s₀ s : State A) : Prop where
  live : Live cfg s id t
  bidder : ∀ b ∈ s.auctions.lastBid id, b.1 ≠ cfg.accountId
  accounts : ∀ a, a ≠ cfg.accountId →
    s.ledger.free t.currency a + t.outlay a (s.auctions.lastBid id) = s₀.ledger.free t.currency a
  treasury : s.ledger.free t.currency cfg.accountId
    = s₀.ledger.free t.currency cfg.accountId + t.held (s.auctions.lastBid id)
  issuance : s.ledger.issuance t.currency + t.burned (s.auctions.lastBid id)
    = s₀.ledger.issuance t.currency

theorem BidLaw.initial {t : Terms} (hlive : Live cfg s id t) (hnew : s.auctions.lastBid id = none) :
    BidLaw cfg id t s s where
  live := hlive
  bidder := by simp [hnew]
  accounts a _ := by simp [hnew, Terms.outlay]
  treasury := by simp [hnew, Terms.held]
  issuance := by simp [hnew, Terms.burned]

/-- Every bid keeps the law, accepted or rejected. -/
theorem BidLaw.step {t : Terms} {s₀ : State A} (h : BidLaw cfg id t s₀ s) (b : BidAt cfg) :
    BidLaw cfg id t s₀ (bidStep cfg id s b) := by
  have hatBlock : BidLaw cfg id t s₀ { s with blockNumber := b.block } :=
    ⟨h.live.of_maps_eq rfl rfl rfl, h.bidder, h.accounts, h.treasury, h.issuance⟩
  refine Dispatch.commit_transactional_invariant hatBlock fun u s' hrun => ?_
  have hbid := Dispatch.run_transactional_ok.mpr hrun
  obtain ⟨hlive, hlast, hreplaces⟩ := bid_ok hatBlock.live b.who.2 hatBlock.bidder hbid
  refine ⟨hlive, ?_, ?_, ?_, ?_⟩ <;> rw [hlast]
  · rintro _ ⟨⟩
    exact b.who.2
  · intro a ha
    rw [hreplaces.accounts a ha]
    exact h.accounts a ha
  · have htreasury := hreplaces.treasury
    have hbefore := hatBlock.treasury
    omega
  · rw [hreplaces.issuance]
    exact h.issuance

theorem bidLaw_run {t : Terms} {s₀ : State A} (hlive : Live cfg s₀ id t)
    (hnew : s₀.auctions.lastBid id = none) (bids : List (BidAt cfg)) :
    BidLaw cfg id t s₀ (Machine.run (bidStep cfg id) s₀ bids) :=
  Machine.run_invariant_always (fun _ b h => h.step b) (BidLaw.initial hlive hnew) bids

/-! ## Cancellation -/

/-- The balances and the issuance of the payment currency are what they were in `s₀`. -/
structure Restored (cfg : Config A) (t : Terms) (s₀ s : State A) : Prop where
  accounts : ∀ a, a ≠ cfg.accountId →
    s.ledger.free t.currency a = s₀.ledger.free t.currency a
  treasury : s.ledger.free t.currency cfg.accountId = s₀.ledger.free t.currency cfg.accountId
  issuance : s.ledger.issuance t.currency = s₀.ledger.issuance t.currency

omit [DecidableEq A] in
/-- What a cancellation of a live auction owes is what the last bid cost. -/
theorem Live.refundDue {t : Terms} (h : Live cfg s id t) :
    refundDue cfg s id
      = (s.auctions.lastBid id).map fun b => (t.currency, b.1, t.cost b.2) := by
  cases h with
  | diamond item hitem hsetter hserplus =>
      simp only [Serp.refundDue, AList.lookup_eq_none.mpr hsetter, hitem, Option.map_eq_bind]
      rfl
  | setter item hitem hdiamond hserplus =>
      simp only [Serp.refundDue, hitem, Option.map_eq_bind]
      rfl
  | serplus item hitem hdiamond hsetter =>
      simp only [Serp.refundDue, AList.lookup_eq_none.mpr hsetter,
        AList.lookup_eq_none.mpr hdiamond, hitem, Option.map_eq_bind]
      rfl

/-- A cancellation issues to the last bidder what it paid. -/
theorem cancelAuction_ok {t : Terms} {u : Unit} (hlive : Live cfg s id t)
    (h : (cancelAuction cfg id).run s = .ok u s') :
    (s.auctions.lastBid id = none ∧ s'.ledger = s.ledger) ∨
      ∃ b, s.auctions.lastBid id = some b ∧
        Ledger.deposit cfg.rules t.currency b.1 (t.cost b.2) s.ledger = .ok s'.ledger := by
  obtain ⟨s₁, l, hrefunded, -, rfl⟩ := cancelAuction_closes h
  rw [hlive.refundDue] at hrefunded
  cases hlast : s.auctions.lastBid id with
  | none =>
      rw [hlast] at hrefunded
      exact .inl ⟨rfl, hrefunded⟩
  | some b =>
      rw [hlast] at hrefunded
      exact .inr ⟨b, rfl, hrefunded⟩

omit [DecidableEq A] in
/-- The fixed amount of a live auction is not zero. -/
theorem Live.fix_pos {t : Terms} {fix : ℕ} (h : Live cfg s id t) (hfix : t.fix = some fix) :
    0 < fix := by
  cases h with
  | diamond item hitem hsetter hserplus =>
      cases hfix
      exact item.fix_pos
  | setter item hitem hdiamond hserplus =>
      cases hfix
      exact item.fix_pos
  | serplus item hitem hdiamond hsetter => cases hfix

/-- What a cancellation restores: everything if nothing was paid or the payment was burned. -/
theorem restored_iff {t : Terms} {s₀ : State A} {u : Unit} (h : BidLaw cfg id t s₀ s)
    (hcancel : (cancelAuction cfg id).run s = .ok u s') :
    Restored cfg t s₀ s' ↔ t.fix = none ∨ s.auctions.lastBid id = none := by
  rcases cancelAuction_ok h.live hcancel with ⟨hnone, hledger⟩ | ⟨b, hlast, hdeposit⟩
  · refine ⟨fun _ => .inr hnone, fun _ => ⟨fun a ha => ?_, ?_, ?_⟩⟩ <;> rw [hledger]
    · have haccount := h.accounts a ha
      rwa [hnone] at haccount
    · have htreasury := h.treasury
      rwa [hnone] at htreasury
    · have hissuance := h.issuance
      rwa [hnone] at hissuance
  · obtain ⟨who, price⟩ := b
    have hwho : who ≠ cfg.accountId := h.bidder _ (by rw [hlast]; rfl)
    have hfree := Ledger.deposit_free hdeposit t.currency
    have hissued := Ledger.deposit_issuance hdeposit t.currency
    have hissuance := h.issuance
    rw [hlast] at hissuance
    cases hfix : t.fix with
    | none =>
        refine ⟨fun _ => .inl rfl, fun _ => ⟨fun a ha => ?_, ?_, ?_⟩⟩
        · have haccount := h.accounts a ha
          rw [hlast] at haccount
          rw [hfree a, ← haccount]
          simp only [true_and, Terms.outlay, eq_comm]
        · have htreasury := h.treasury
          rw [hfree cfg.accountId, htreasury, hlast]
          simp [Terms.held, hfix, hwho.symm]
        · rw [hissued, if_pos rfl, ← hissuance]
          simp [Terms.burned, Terms.cost, hfix]
    | some fix =>
        have hpos : 0 < fix := h.live.fix_pos hfix
        constructor
        · intro hrestored
          -- the units issued to the bidder are on top of those the treasury holds
          have hsame := hrestored.issuance
          rw [hissued, if_pos rfl, ← hissuance] at hsame
          simp only [Terms.burned, Terms.cost, hfix, Option.getD_some, Option.elim_some] at hsame
          omega
        · rintro (hcontra | hcontra)
          · cases hcontra
          · rw [hlast] at hcontra
            cases hcontra

/-- **Bids are conserved; cancellations conserve what was burned.** Over every history of bids on
a new auction the law of bids holds, and a cancellation after it restores what there was before
the first bid if and only if the auction is a serplus auction or has no accepted bid. -/
theorem bids_conserved (cfg : Config A) (s₀ : State A) (id : ℕ) (t : Terms)
    (hlive : Live cfg s₀ id t) (hnew : s₀.auctions.lastBid id = none) (bids : List (BidAt cfg)) :
    BidLaw cfg id t s₀ (Machine.run (bidStep cfg id) s₀ bids) ∧
      ∀ u s', (cancelAuction cfg id).run (Machine.run (bidStep cfg id) s₀ bids) = .ok u s' →
        (Restored cfg t s₀ s' ↔
          t.fix = none ∨ (Machine.run (bidStep cfg id) s₀ bids).auctions.lastBid id = none) := by
  have hlaw := bidLaw_run hlive hnew bids
  exact ⟨hlaw, fun u s' hcancel => restored_iff hlaw hcancel⟩

/-- A new diamond auction: 200 units of native currency for a fixed amount of 100 Setter. -/
def sampleAuction : State ℕ :=
  Dispatch.commit (newDiamondAuction sampleConfig 200 100) (sampleState (10 ^ 18))

def sampleTerms : Terms := ⟨.Token .SETT, some 100⟩

theorem sampleAuction_live : Live sampleConfig sampleAuction 0 sampleTerms :=
  .diamond ⟨200, 200, 100, 1, by decide, by decide⟩ (by decide +kernel) (by decide +kernel)
    (by decide +kernel)

/-- Account 1 bids, is outbid by 2, and 3 bids too little. -/
def sampleBids : List (BidAt sampleConfig) :=
  [⟨2, ⟨1, by decide⟩, 100⟩, ⟨3, ⟨2, by decide⟩, 200⟩, ⟨4, ⟨3, by decide⟩, 201⟩]

theorem sampleBids_conserved :
    BidLaw sampleConfig 0 sampleTerms sampleAuction
        (Machine.run (bidStep sampleConfig 0) sampleAuction sampleBids) ∧
      ∀ u s', (cancelAuction sampleConfig 0).run
          (Machine.run (bidStep sampleConfig 0) sampleAuction sampleBids) = .ok u s' →
        (Restored sampleConfig sampleTerms sampleAuction s' ↔
          sampleTerms.fix = none ∨
            (Machine.run (bidStep sampleConfig 0) sampleAuction sampleBids).auctions.lastBid 0
              = none) :=
  bids_conserved sampleConfig sampleAuction 0 sampleTerms sampleAuction_live
    (by decide +kernel) sampleBids

/-- **Cancelling a diamond auction after a bid adds the fixed amount to the supply of Setter.** -/
theorem cancelled_with_bid_inflates :
    ¬ ∀ (bids : List (BidAt sampleConfig)) (u : Unit) (s' : State ℕ),
      (cancelAuction sampleConfig 0).run
          (Machine.run (bidStep sampleConfig 0) sampleAuction bids) = .ok u s' →
        Restored sampleConfig sampleTerms sampleAuction s' := by
  intro h
  have hrestored := h sampleBids () _ (Dispatch.run_eq_commit (by decide +kernel))
  have hissuance := hrestored.issuance
  revert hissuance
  decide +kernel

end Setheum.Serp
