import Setheum.Serp.Bids
import Setheum.Serp.Calls

/-!
# The amount for sale

In a diamond and in a setter auction a bid above the fixed amount lowers the amount for sale in the
ratio of the last price to the new one. Price times amount for sale stays what it was before the
first bid, but for rounding: it goes down, except for quotients of products above 128 bits, which go
to the nearest integer.

* `amountForSale_le`, `amountForSale_mul_le` — one bid.
* `bid_sale` — what an accepted bid does to the sale.
* `saleLaw` — the law of a sale, after every history of bids.
* `sale_telescopes` — the same for the next accepted bid.
-/

set_option autoImplicit false

namespace Setheum.Serp

/-! ## One bid price -/

section Amount

variable {amount fix last new : ℕ}

/-- The ratio of the two prices, or its product with the amount, has no representation. -/
def FallsBack (amount fix last new : ℕ) : Prop :=
  (last < new ∧ fix < new) ∧ ((FixedU128.checkedFromRational (max last fix) new).bind fun n =>
    FixedU128.checkedMulInt n amount) = none

/-- The most that rounding up can add, in fixed-point units; nothing where both quotients are
rounded down. -/
def roundingUp (amount fix last new : ℕ) : ℕ :=
  if (last < new ∧ fix < new) ∧ ¬ FixedU128.PartRoundsDown (max last fix) new amount then
    new * (amount + FixedU128.accuracy)
  else 0

/-- Prices above the last one and the fixed amount have a ratio of at most one. -/
theorem ratio_spec (hnew : last < new ∧ fix < new) (hamount : amount ≤ Balance.maxValue) :
    ∃ ratio amount', FixedU128.checkedFromRational (max last fix) new = some ratio ∧
      FixedU128.checkedMulInt ratio amount = some amount' ∧ amount' ≤ amount := by
  have hmax : max last fix ≤ new := by omega
  have hpos : 0 < new := by omega
  have hratio : FixedU128.quotient (max last fix * FixedU128.accuracy) new
      ≤ FixedU128.accuracy := by
    apply FixedU128.quotient_le
    rw [Nat.mul_comm FixedU128.accuracy]
    exact Nat.mul_le_mul_right _ hmax
  generalize hr : FixedU128.quotient (max last fix * FixedU128.accuracy) new = ratio at hratio
  have hproduct : FixedU128.quotient (ratio * amount) FixedU128.accuracy ≤ amount := by
    apply FixedU128.quotient_le
    rw [Nat.mul_comm amount]
    exact Nat.mul_le_mul_right _ hratio
  refine ⟨ratio, FixedU128.quotient (ratio * amount) FixedU128.accuracy, ?_, ?_, hproduct⟩
  · apply FixedU128.checkedFromRational_eq_some.mpr
    refine ⟨hpos, hr, hratio.trans ?_⟩
    decide
  · apply (FixedU128.multiplyByRational_eq_some (by decide)).mpr
    exact ⟨rfl, hproduct.trans hamount⟩

/-- The fallback is never taken. -/
theorem not_fallsBack (hamount : amount ≤ Balance.maxValue) : ¬ FallsBack amount fix last new := by
  rintro ⟨hnew, hnone⟩
  obtain ⟨ratio, amount', hratio, hmul, -⟩ := ratio_spec hnew hamount
  rw [hratio, Option.bind_some, hmul] at hnone
  cases hnone

theorem amountForSale_le (hamount : amount ≤ Balance.maxValue) :
    amountForSale amount fix last new ≤ amount := by
  unfold amountForSale
  split
  · rename_i hnew
    obtain ⟨ratio, amount', hratio, hmul, hle⟩ := ratio_spec hnew hamount
    rw [hratio, Option.bind_some, hmul, Option.getD_some]
    exact hle
  · exact Nat.le_refl _

/-- A first bid of the fixed amount, or below, leaves the amount. -/
theorem amountForSale_of_le (h : new ≤ fix) : amountForSale amount fix last new = amount := by
  unfold amountForSale
  rw [if_neg (by omega)]

/-- **A bid keeps price times amount**, or lowers it, up to rounding. -/
theorem amountForSale_mul_le (hlast : last ≤ new) (hfix : fix ≤ new)
    (hamount : amount ≤ Balance.maxValue) :
    amountForSale amount fix last new * new * FixedU128.accuracy
      ≤ amount * max last fix * FixedU128.accuracy + roundingUp amount fix last new := by
  by_cases hnew : last < new ∧ fix < new
  · obtain ⟨ratio, amount', hratio, hmul, -⟩ := ratio_spec hnew hamount
    have hbind : ((FixedU128.checkedFromRational (max last fix) new).bind fun n =>
        FixedU128.checkedMulInt n amount) = some amount' := by
      rw [hratio, Option.bind_some, hmul]
    have hafter : amountForSale amount fix last new = amount' := by
      unfold amountForSale
      rw [if_pos hnew, hbind, Option.getD_some]
    rw [hafter]
    by_cases hdown : FixedU128.PartRoundsDown (max last fix) new amount
    · obtain ⟨-, hle⟩ := FixedU128.checkedMulInt_mul_le hdown hbind
      rw [Nat.mul_comm (max last fix)] at hle
      exact (Nat.mul_le_mul_right _ hle).trans (Nat.le_add_right _ _)
    · -- each quotient is less than one unit above the exact one
      rw [roundingUp, if_pos ⟨hnew, hdown⟩]
      obtain ⟨hpos, hr, -⟩ := FixedU128.checkedFromRational_eq_some.mp hratio
      have hprice := (FixedU128.quotient_within (max last fix * FixedU128.accuracy) hpos).1
      rw [hr] at hprice
      obtain ⟨ha, -⟩ := (FixedU128.multiplyByRational_eq_some (by decide)).mp hmul
      have hproduct := (FixedU128.quotient_within (ratio * amount)
        (by decide : 0 < FixedU128.accuracy)).1
      rw [ha] at hproduct
      calc amount' * new * FixedU128.accuracy
          = amount' * FixedU128.accuracy * new := by ring
        _ ≤ (ratio * amount + FixedU128.accuracy) * new := Nat.mul_le_mul_right _ hproduct.le
        _ = ratio * new * amount + new * FixedU128.accuracy := by ring
        _ ≤ (max last fix * FixedU128.accuracy + new) * amount + new * FixedU128.accuracy :=
            Nat.add_le_add_right (Nat.mul_le_mul_right _ hprice.le) _
        _ = amount * max last fix * FixedU128.accuracy + new * (amount + FixedU128.accuracy) := by
            ring
  · have hmax : max last fix = new := by omega
    have hsame : amountForSale amount fix last new = amount := by
      unfold amountForSale
      rw [if_neg hnew]
    rw [hsame, hmax]
    exact Nat.le_add_right _ _

end Amount

/-! ## The sale of an auction -/

/-- What a diamond or a setter auction sells, and the fixed amount that is paid for it. -/
structure Sale where
  initialAmount : ℕ
  amount : ℕ
  fix : ℕ
  deriving DecidableEq

variable {A : Type} [DecidableEq A] {cfg : Config A} {s s' : State A} {id now price : ℕ} {who : A}
  {u : Unit}

/-- The sale of an auction, in the order in which the handlers look for it. -/
def saleOf (s : State A) (id : ℕ) : Option Sale :=
  match s.diamondAuctions.lookup id, s.setterAuctions.lookup id with
  | some item, _ => some ⟨item.initialAmount, item.amount, item.fix⟩
  | none, some item => some ⟨item.initialAmount, item.amount, item.fix⟩
  | none, none => none

/-- The price of the last accepted bid. -/
def lastPrice (s : State A) (id : ℕ) : ℕ := lastBidPrice (s.auctions.lastBid id)

/-- A sale after a bid. -/
def Sale.rebid (sale : Sale) (last new : ℕ) : Sale :=
  { sale with amount := amountForSale sale.amount sale.fix last new }

/-- The handler of a diamond or a setter auction lowers the amount for sale. -/
theorem bidHandler_sale {sale : Sale} {last : Option (Bid A)} {newEnd : ℕ}
    (hsale : saleOf s id = some sale)
    (h : (bidHandler cfg s now id (who, price) last).run s = .ok newEnd s') :
    saleOf s' id = some (sale.rebid (lastBidPrice last) price) ∧ s'.auctions = s.auctions ∧
      lastBidPrice last ≤ price ∧ sale.fix ≤ price := by
  unfold bidHandler at h
  split at h
  · obtain ⟨item, s₁, hitem, hcheck, hfix, hpay, rfl⟩ := diamondAuctionBidHandler_spec h
    obtain ⟨l, rfl⟩ := payFix_changes hpay
    unfold saleOf at hsale ⊢
    rw [hitem] at hsale
    cases hsale
    refine ⟨?_, rfl, le_of_checkMinimumIncrement hcheck, hfix⟩
    dsimp only
    rw [AList.lookup_insert]
    rfl
  · rename_i hdiamond
    have hnone : s.diamondAuctions.lookup id = none := AList.lookup_eq_none.mpr hdiamond
    split at h
    · obtain ⟨item, s₁, hitem, hcheck, hfix, hpay, rfl⟩ := setterAuctionBidHandler_spec h
      obtain ⟨l, rfl⟩ := payFix_changes hpay
      unfold saleOf at hsale ⊢
      rw [hnone, hitem] at hsale
      cases hsale
      refine ⟨?_, rfl, le_of_checkMinimumIncrement hcheck, hfix⟩
      dsimp only
      rw [hnone, AList.lookup_insert]
      rfl
    · rename_i hsetter
      have hnone' : s.setterAuctions.lookup id = none := AList.lookup_eq_none.mpr hsetter
      unfold saleOf at hsale
      rw [hnone, hnone'] at hsale
      cases hsale

/-- **An accepted bid lowers the amount for sale**, at a price that is not below the last one and
the fixed amount. -/
theorem bid_sale {sale : Sale} (hsale : saleOf s id = some sale)
    (h : (bid cfg who id price).run s = .ok u s') :
    saleOf s' id = some (sale.rebid (lastPrice s id) price) ∧ lastPrice s' id = price ∧
      lastPrice s id ≤ price ∧ sale.fix ≤ price := by
  obtain ⟨auction, newEnd, s₁, hauction, hhandler, rfl⟩ := bid_spec h
  have hlast : lastPrice s id = lastBidPrice auction.bid := by
    rw [lastPrice, Auctions.lastBid_eq_of_lookup hauction]
  obtain ⟨hafter, hsame, hle, hfix⟩ := bidHandler_sale hsale hhandler
  rw [hlast]
  refine ⟨hafter, ?_, hle, hfix⟩
  rw [← hsame] at hauction
  unfold lastPrice
  dsimp only
  rw [Auctions.lastBid_recordBid hauction]
  rfl

/-! ## A history of bids -/

/-- What rounding a bid on an auction can add to price times amount. -/
def roundedUp (s : State A) (id price : ℕ) : ℕ :=
  (saleOf s id).elim 0 fun sale => roundingUp sale.amount sale.fix (lastPrice s id) price

/-- A history of an auction, with what rounding can have added in it: bids that are accepted, and
anything that leaves the auction and its last bid as they are. -/
inductive Sold (cfg : Config A) (id : ℕ) (s₀ : State A) : ℕ → State A → Prop
  | start : Sold cfg id s₀ 0 s₀
  | elsewhere {n : ℕ} {s s' : State A} (hsold : Sold cfg id s₀ n s)
      (hsale : saleOf s' id = saleOf s id)
      (hlast : s'.auctions.lastBid id = s.auctions.lastBid id) : Sold cfg id s₀ n s'
  | bid {n price : ℕ} {s s' : State A} {who : A} {u : Unit} (hsold : Sold cfg id s₀ n s)
      (hbid : (bid cfg who id price).run s = .ok u s') :
      Sold cfg id s₀ (n + roundedUp s id price) s'

/-- The law of a sale: the amount does not exceed the initial one, price times amount does not
exceed what it was at the fixed amount, up to rounding, and the amount is the initial one as long
as nobody has bid more than the fixed amount. -/
structure SaleLaw (initialAmount fix rounding last amount : ℕ) : Prop where
  le_initial : amount ≤ initialAmount
  telescopes : amount * max last fix * FixedU128.accuracy
    ≤ initialAmount * fix * FixedU128.accuracy + rounding
  unchanged : last ≤ fix → amount = initialAmount

/-- A bid keeps the law. -/
theorem SaleLaw.bid {n fix rounding last amount : ℕ} (h : SaleLaw n fix rounding last amount)
    (hn : n ≤ Balance.maxValue) (hlast : last ≤ price) (hfix : fix ≤ price) :
    SaleLaw n fix (rounding + roundingUp amount fix last price) price
      (amountForSale amount fix last price) := by
  have hamount := h.le_initial.trans hn
  refine ⟨(amountForSale_le hamount).trans h.le_initial, ?_, ?_⟩
  · have hbid := amountForSale_mul_le hlast hfix hamount
    have hbefore := h.telescopes
    rw [Nat.max_eq_left hfix]
    omega
  · intro hprice
    rw [amountForSale_of_le hprice]
    exact h.unchanged (by omega)

/-- **The law of a sale**, after every history of bids. -/
theorem saleLaw {s₀ : State A} {n fix rounding : ℕ} (hfresh : saleOf s₀ id = some ⟨n, n, fix⟩)
    (hnew : s₀.auctions.lastBid id = none) (hn : n ≤ Balance.maxValue)
    (hsold : Sold cfg id s₀ rounding s) :
    ∃ amount, saleOf s id = some ⟨n, amount, fix⟩ ∧
      SaleLaw n fix rounding (lastPrice s id) amount := by
  induction hsold with
  | start =>
      have hlast : lastPrice s₀ id = 0 := by
        rw [lastPrice, hnew]
        rfl
      rw [hlast]
      refine ⟨n, hfresh, Nat.le_refl _, ?_, fun _ => rfl⟩
      rw [Nat.zero_max]
      exact Nat.le_add_right _ _
  | @elsewhere _ s s' hsold hsale hlast ih =>
      obtain ⟨amount, hbefore, hlaw⟩ := ih
      have hprice : lastPrice s' id = lastPrice s id := congrArg lastBidPrice hlast
      refine ⟨amount, hsale.trans hbefore, ?_⟩
      rw [hprice]
      exact hlaw
  | bid hsold hbid ih =>
      obtain ⟨amount, hbefore, hlaw⟩ := ih
      obtain ⟨hafter, hprice, hlast, hfix⟩ := bid_sale hbefore hbid
      refine ⟨_, hafter, ?_⟩
      rw [hprice, roundedUp, hbefore]
      exact hlaw.bid hn hlast hfix

/-- **The amount for sale telescopes.** Whatever has been bid on a diamond or a setter auction, the
next accepted bid does not raise the amount for sale, leaves at most the initial amount times the
fixed amount as its price times the amount, up to rounding, leaves the initial amount if it is the
fixed amount, and does not take the fallback. -/
theorem sale_telescopes {s₀ : State A} {n fix rounding : ℕ}
    (hfresh : saleOf s₀ id = some ⟨n, n, fix⟩) (hnew : s₀.auctions.lastBid id = none)
    (hn : n ≤ Balance.maxValue) (hsold : Sold cfg id s₀ rounding s)
    (hbid : (bid cfg who id price).run s = .ok u s') :
    ∃ amount amount', saleOf s id = some ⟨n, amount, fix⟩ ∧
      saleOf s' id = some ⟨n, amount', fix⟩ ∧ amount' ≤ amount ∧
      amount' * price * FixedU128.accuracy
        ≤ n * fix * FixedU128.accuracy + (rounding + roundedUp s id price) ∧
      (price = fix → amount' = n) ∧ ¬ FallsBack amount fix (lastPrice s id) price := by
  obtain ⟨amount, hbefore, hlaw⟩ := saleLaw hfresh hnew hn hsold
  obtain ⟨hafter, -, hlast, hfix⟩ := bid_sale hbefore hbid
  have hamount := hlaw.le_initial.trans hn
  obtain ⟨-, htelescopes, hunchanged⟩ := hlaw.bid hn hlast hfix
  refine ⟨amount, _, hbefore, hafter, amountForSale_le hamount, ?_, ?_, not_fallsBack hamount⟩
  · rw [Nat.max_eq_left hfix] at htelescopes
    rw [roundedUp, hbefore]
    exact htelescopes
  · intro hprice
    exact hunchanged hprice.le

/-- A diamond auction of `10 ^ 20` units for `10 ^ 21` Setter, which everybody has. -/
def largeAuction : State ℕ :=
  Dispatch.commit (newDiamondAuction sampleConfig (10 ^ 20) (10 ^ 21))
    { sampleState (10 ^ 18) with
      ledger :=
        { free := fun _ _ => 10 ^ 22
          issuance := fun _ => 10 ^ 24
          free_le := fun _ _ => by decide
          issuance_le := fun _ => by decide } }

/-- The auction after a bid of one and a half times the fixed amount. -/
def largeBid : State ℕ := Dispatch.commit (bid sampleConfig 1 0 (15 * 10 ^ 20)) largeAuction

theorem sale_telescopes_largeBid :
    ∃ amount amount', saleOf largeAuction 0 = some ⟨10 ^ 20, amount, 10 ^ 21⟩ ∧
      saleOf largeBid 0 = some ⟨10 ^ 20, amount', 10 ^ 21⟩ ∧ amount' ≤ amount ∧
      amount' * (15 * 10 ^ 20) * FixedU128.accuracy
        ≤ 10 ^ 20 * 10 ^ 21 * FixedU128.accuracy
          + (0 + roundedUp largeAuction 0 (15 * 10 ^ 20)) ∧
      (15 * 10 ^ 20 = 10 ^ 21 → amount' = 10 ^ 20) ∧
      ¬ FallsBack amount (10 ^ 21) (lastPrice largeAuction 0) (15 * 10 ^ 20) :=
  sale_telescopes (by decide +kernel) (by decide +kernel) (by decide) .start
    (Dispatch.run_eq_commit (by decide +kernel) :
      (bid sampleConfig 1 0 (15 * 10 ^ 20)).run largeAuction = .ok () largeBid)

/-- **Price times amount can exceed what it was.** The ratio of two thirds is rounded up. -/
theorem sale_rounded_up :
    saleOf largeAuction 0 = some ⟨10 ^ 20, 10 ^ 20, 10 ^ 21⟩ ∧
      largeBid.auctions.lastBid 0 = some (1, 15 * 10 ^ 20) ∧
      saleOf largeBid 0 = some ⟨10 ^ 20, 66666666666666666700, 10 ^ 21⟩ ∧
      ¬ 66666666666666666700 * (15 * 10 ^ 20) ≤ 10 ^ 20 * 10 ^ 21 := by
  decide +kernel

end Setheum.Serp
