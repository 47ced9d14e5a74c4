import Setheum.Serp.Totals

/-!
# Creating an auction

A creation that goes through opens one auction, in the register and in one map, and raises one
total. A creation that fails changes nothing, unless it fails late: it raises the total before it
asks the register for an id, and a setter auction is opened in the register before its currency is
refused.

* `Creation.opens` — a creation that goes through.
* `creation_atomic_iff` — when a creation, called directly, is atomic.
-/

set_option autoImplicit false

namespace Setheum.Serp

open StorageMap

variable {A : Type} [DecidableEq A] {cfg : Config A} {s s' : State A}

/-- A creation of an auction. -/
inductive Creation
  | newDiamondAuction (initialAmount fixSetter : ℕ)
  | newSetterAuction (initialAmount fixSettcurrency : ℕ) (settcurrencyId : CurrencyId)
  | newSerplusAuction (amount : ℕ) (currencyId : CurrencyId)

def Creation.call {A : Type} : Creation → AuctionCall A
  | .newDiamondAuction initialAmount fix => .newDiamondAuction initialAmount fix
  | .newSetterAuction initialAmount fix c => .newSetterAuction initialAmount fix c
  | .newSerplusAuction amount c => .newSerplusAuction amount c

/-- The totals, the maps and the auctions of the register are the same. -/
structure SameAuctions (s s' : State A) : Prop where
  setter : s'.totalSetterInAuction = s.totalSetterInAuction
  settCurrency : s'.totalSettCurrencyInAuction = s.totalSettCurrencyInAuction
  serplus : s'.totalSerplusInAuction = s.totalSerplusInAuction
  diamondAuctions : s'.diamondAuctions = s.diamondAuctions
  setterAuctions : s'.setterAuctions = s.setterAuctions
  serplusAuctions : s'.serplusAuctions = s.serplusAuctions
  register : s'.auctions.info = s.auctions.info

/-- The register has one auction more. Its id is in no map yet, where ids in use have been handed
out. -/
structure Registers (s s' : State A) (id : ℕ) : Prop where
  fresh : id ∉ s.auctions.info
  register : ∃ auction, s'.auctions.info = s.auctions.info.insert id auction
  unused : Shape s → ¬ InAuction s id

/-- One auction is opened, in the register and in one map, and one total raised by its amount. -/
def Creation.Opens (c : Creation) (s s' : State A) : Prop :=
  ∃ id, Registers s s' id ∧
    match c with
    | .newDiamondAuction _ fix => ∃ item : DiamondAuctionItem, item.fix = fix ∧
        s' = { s with
          totalSetterInAuction := s.totalSetterInAuction + fix
          auctions := s'.auctions
          diamondAuctions := s.diamondAuctions.insert id item }
    | .newSetterAuction _ fix c => ∃ item : SetterAuctionItem, item.currency = c ∧ item.fix = fix ∧
        s' = { s with
          totalSettCurrencyInAuction :=
            store 0 s.totalSettCurrencyInAuction c
              (StorageMap.get 0 s.totalSettCurrencyInAuction c + fix)
          auctions := s'.auctions
          setterAuctions := s.setterAuctions.insert id item }
    | .newSerplusAuction amount c => ∃ item : SerplusAuctionItem, item.currency = c ∧
        item.amount = amount ∧
        s' = { s with
          totalSerplusInAuction :=
            store 0 s.totalSerplusInAuction c
              (StorageMap.get 0 s.totalSerplusInAuction c + amount)
          auctions := s'.auctions
          serplusAuctions := s.serplusAuctions.insert id item }

/-- A creation opens an auction or, if it fails, leaves everything as it was. -/
def Atomic (cfg : Config A) (c : Creation) (s : State A) : Prop :=
  match (c.call.call cfg).run s with
  | .ok _ s' => c.Opens s s'
  | .error _ s' => SameAuctions s s'

omit [DecidableEq A] in
theorem SameAuctions.refl (s : State A) : SameAuctions s s :=
  ⟨rfl, rfl, rfl, rfl, rfl, rfl, rfl⟩

omit [DecidableEq A] in
/-- An id from the register is fresh. -/
theorem registers_of_newAuction {start id : ℕ} {endBlock : Option ℕ}
    (hnew : s.auctions.newAuction cfg.maxAuctionId start endBlock = some (id, s'.auctions)) :
    Registers s s' id := by
  obtain ⟨rfl, hfresh, -, -⟩ := Auctions.newAuction_spec hnew
  refine ⟨hfresh, ⟨_, Auctions.newAuction_info hnew⟩, ?_⟩
  rintro hshape (hdiamond | hsetter | hserplus)
  · exact Nat.lt_irrefl _ (hshape.diamond _ hdiamond)
  · exact Nat.lt_irrefl _ (hshape.setter _ hsetter)
  · exact Nat.lt_irrefl _ (hshape.serplus _ hserplus)

/-- **A creation that goes through opens one auction**, and has not failed late. -/
theorem Creation.opens {u : Unit} (c : Creation) (h : (c.call.call cfg).run s = .ok u s') :
    c.Opens s s' ∧ ¬ c.call.failsLate cfg s := by
  cases c with
  | newDiamondAuction initialAmount fix =>
      obtain ⟨item, id, endBlock, auctions, hfix, hnew, rfl⟩ := newDiamondAuction_ok h
      refine ⟨⟨id, registers_of_newAuction hnew, item, hfix, rfl⟩, ?_⟩
      rintro ⟨-, hnone⟩
      exact hnone (Auctions.newAuction_index hnew).1
  | newSetterAuction initialAmount fix c =>
      obtain ⟨hne, item, id, endBlock, auctions, hcurrency, hfix, hnew, rfl⟩ :=
        newSetterAuction_ok h
      refine ⟨⟨id, registers_of_newAuction hnew, item, hcurrency, hfix, rfl⟩, ?_⟩
      rintro ⟨-, hnone | hsetter⟩
      · exact hnone (Auctions.newAuction_index hnew).1
      · exact hne hsetter
  | newSerplusAuction amount c =>
      obtain ⟨-, item, id, auctions, hcurrency, hamount, hnew, rfl⟩ := newSerplusAuction_ok h
      refine ⟨⟨id, registers_of_newAuction hnew, item, hcurrency, hamount, rfl⟩, ?_⟩
      rintro ⟨-, hnone⟩
      exact hnone (Auctions.newAuction_index hnew).1

omit [DecidableEq A] in
/-- A total that is raised by something is another one. -/
theorem store_add_ne {m : Map CurrencyId ℕ} {c : CurrencyId} {n : ℕ} (hn : 0 < n) :
    store 0 m c (StorageMap.get 0 m c + n) ≠ m := by
  intro heq
  have hget := get_store_add m c c n
  rw [heq, if_pos rfl] at hget
  omega

/-- A creation that fails changes something exactly if it fails late. -/
theorem Creation.fails {e : DispatchError} (c : Creation)
    (h : (c.call.call cfg).run s = .error e s') :
    SameAuctions s s' ↔ ¬ c.call.failsLate cfg s := by
  cases c with
  | newDiamondAuction initialAmount fix =>
      rcases newDiamondAuction_error h with ⟨hchecks, rfl⟩ | ⟨hchecks, hids, hs'⟩
      · exact ⟨fun _ hlate => hchecks hlate.1, fun _ => SameAuctions.refl _⟩
      · refine ⟨fun hsame => ?_, fun hlate => absurd ⟨hchecks, hids⟩ hlate⟩
        have htotal := hsame.setter
        rw [hs'] at htotal
        have hfix := hchecks.1.2
        simp only at htotal
        omega
  | newSetterAuction initialAmount fix c =>
      rcases newSetterAuction_error h with ⟨hchecks, rfl⟩ | ⟨hchecks, hlate, hs'⟩
      · exact ⟨fun _ hlate => hchecks hlate.1, fun _ => SameAuctions.refl _⟩
      · constructor
        · intro hsame
          have htotal := hsame.settCurrency
          rw [hs'] at htotal
          exact absurd htotal (store_add_ne hchecks.1.2)
        · intro hnot
          refine absurd ⟨hchecks, ?_⟩ hnot
          rcases hlate with ⟨hids, -⟩ | ⟨hsetter, -⟩
          · exact .inl hids
          · exact .inr hsetter
  | newSerplusAuction amount c =>
      rcases newSerplusAuction_error h with ⟨hchecks, rfl⟩ | ⟨hchecks, hids, hs'⟩
      · exact ⟨fun _ hlate => hchecks hlate.1, fun _ => SameAuctions.refl _⟩
      · refine ⟨fun hsame => ?_, fun hlate => absurd ⟨hchecks, hids⟩ hlate⟩
        have htotal := hsame.serplus
        rw [hs'] at htotal
        exact absurd htotal (store_add_ne (Nat.pos_of_ne_zero hchecks.1))

/-- **A creation is atomic exactly if it does not fail late**: if it passes its checks, the register
has an id left and the currency is not refused. -/
theorem creation_atomic_iff (cfg : Config A) (c : Creation) (s : State A) :
    Atomic cfg c s ↔ ¬ c.call.failsLate cfg s := by
  unfold Atomic
  cases h : (c.call.call cfg).run s with
  | ok u s' => exact ⟨fun _ => (c.opens h).2, fun _ => (c.opens h).1⟩
  | error e s' => exact c.fails h

/-- **A refused setter auction is half created**: it is in the register and its amount in the
total, but in no map. -/
theorem refused_half_created :
    let call := newSetterAuction sampleConfig 10 10 (.Token .SETT)
    let s := sampleState (10 ^ 18)
    Dispatch.succeeds call s = false ∧
      StorageMap.get 0 s.totalSettCurrencyInAuction (.Token .SETT) = 0 ∧
      StorageMap.get 0 (Dispatch.commit call s).totalSettCurrencyInAuction (.Token .SETT) = 10 ∧
      0 ∈ (Dispatch.commit call s).auctions.info ∧
      0 ∉ (Dispatch.commit call s).setterAuctions := by
  decide +kernel

end Setheum.Serp
