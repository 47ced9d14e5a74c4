import Setheum.Serp.Totals

/-!
# The references of bidders

The manager holds a consumer reference on the last accepted bidder of every auction of the
register. A bid takes one for the new bidder before it gives up that of the last one, who may be
the same account; an end and a cancellation give it up. A call that fails late leaves both the
bid and the reference where they were.

* `Held.step` — every step keeps the count, whatever the outcome of its call.
* `Registered.step` — the register has the auctions of the maps, unless a call fails late.
* `run_consumers` — in every run, the references held are those of the last accepted bidders.
-/

set_option autoImplicit false

namespace Setheum.Serp

open StorageMap

variable {A : Type} [DecidableEq A] {cfg : Config A} {s s' : State A} {base : A → ℕ}

/-! ## References and bids -/

/-- Every account has a provider, and on top of the references of others it has one for every
auction in which it is the last accepted bidder. -/
structure Held (base : A → ℕ) (s : State A) : Prop where
  provided : ∀ a, 0 < s.system.providers a
  consumers : ∀ a, s.system.consumers a = base a + s.auctions.liveBids a

/-- What has the same providers and as many references as bids, more or fewer. -/
theorem Held.of_eq (h : Held base s) (hproviders : s'.system.providers = s.system.providers)
    (hconsumers : ∀ a, s'.system.consumers a + s.auctions.liveBids a
      = s.system.consumers a + s'.auctions.liveBids a) : Held base s' where
  provided a := hproviders ▸ h.provided a
  consumers a := by
    have hbefore := h.consumers a
    have hchange := hconsumers a
    omega

theorem released_consumers {r : References A} (last : Option (Bid A)) (a : A) :
    (released r (last.map Prod.fst)).providers = r.providers ∧
      (released r (last.map Prod.fst)).consumers a = r.consumers a - Auctions.bidBy a last := by
  cases last with
  | none => exact ⟨rfl, rfl⟩
  | some b =>
      refine ⟨rfl, ?_⟩
      by_cases ha : a = b.1
      · simp [released, References.decConsumers_consumers, Auctions.bidBy, ha]
      · simp [released, References.decConsumers_consumers, Auctions.bidBy, ha, Ne.symm ha]

/-- The new bidder's reference is taken before the last one's is dropped. -/
theorem swapped_consumers {r : References A} (new : Bid A) (h : 0 < r.providers new.1)
    (last : Option (Bid A)) (a : A) :
    (swapped r new.1 (last.map Prod.fst)).providers = r.providers ∧
      (swapped r new.1 (last.map Prod.fst)).consumers a
        = r.consumers a + Auctions.bidBy a (some new) - Auctions.bidBy a last := by
  obtain ⟨r', hr', hproviders, hconsumers⟩ := References.incConsumers_spec h
  have hswapped : swapped r new.1 (last.map Prod.fst) = released r' (last.map Prod.fst) := by
    simp only [swapped, hr', Option.getD_some, released]
  have htaken : r'.consumers a = r.consumers a + Auctions.bidBy a (some new) := by
    rw [hconsumers a]
    by_cases ha : a = new.1
    · simp [Auctions.bidBy, ha]
    · simp [Auctions.bidBy, ha, Ne.symm ha]
  obtain ⟨hsame, hreleased⟩ := released_consumers (r := r') last a
  exact ⟨by rw [hswapped, hsame, hproviders], by rw [hswapped, hreleased, htaken]⟩

/-- No account has more bids in one auction than it has in all of them. -/
theorem bidBy_le_liveBids (auctions : Auctions A) (id : ℕ) (a : A) :
    Auctions.bidBy a (auctions.lastBid id) ≤ auctions.liveBids a := by
  have hremove := auctions.liveBids_remove id a
  omega

/-! ## One call -/

theorem bid_held {u : Unit} {who : A} {id price : ℕ} (h : Held base s)
    (hrun : (bid cfg who id price).run s = .ok u s') : Held base s' := by
  obtain ⟨auction, newEnd, s₁, l, hauction, hrebid, rfl⟩ := bid_changes hrun
  have hswapped := swapped_consumers (who, price) (h.provided who) auction.bid
  refine h.of_eq (hswapped who).1 fun a => ?_
  have hle := bidBy_le_liveBids s.auctions id a
  have hheld := h.consumers a
  have hrecord := Auctions.liveBids_recordBid hauction (who, price) newEnd a
  rw [Auctions.lastBid_eq_of_lookup hauction] at hle
  simp only [(hswapped a).2]
  omega

/-- Giving up an auction gives up the reference of its last bidder. -/
theorem Held.remove (h : Held base s) (id : ℕ)
    (hsystem : s'.system = released s.system ((s.auctions.lastBid id).map Prod.fst))
    (hauctions : s'.auctions = s.auctions.remove id) : Held base s' := by
  have hreleased := released_consumers (r := s.system) (s.auctions.lastBid id)
  refine ⟨fun a => ?_, fun a => ?_⟩
  · rw [hsystem, (hreleased a).1]
    exact h.provided a
  · have hremove := s.auctions.liveBids_remove id a
    have hheld := h.consumers a
    rw [hsystem, hauctions, (hreleased a).2]
    omega

theorem endAuction_held {u : Unit} {id : ℕ} (h : Held base s)
    (hrun : (endAuction cfg id).run s = .ok u s') : Held base s' := by
  obtain ⟨auction, s₁, l, hauction, -, rfl⟩ := endAuction_closes hrun
  refine h.remove id ?_ rfl
  rw [Auctions.lastBid_eq_of_lookup hauction]

theorem cancelAuction_held {u : Unit} {id : ℕ} (h : Held base s)
    (hrun : (cancelAuction cfg id).run s = .ok u s') : Held base s' := by
  obtain ⟨s₁, l, -, -, rfl⟩ := cancelAuction_closes hrun
  exact h.remove id rfl rfl

/-- A new auction has no bidder. -/
theorem Held.newAuction (h : Held base s) {maxId start id : ℕ} {endBlock : Option ℕ}
    (hsystem : s'.system = s.system)
    (hnew : s.auctions.newAuction maxId start endBlock = some (id, s'.auctions)) :
    Held base s' := by
  refine h.of_eq (by rw [hsystem]) fun a => ?_
  rw [hsystem, Auctions.liveBids_newAuction hnew]

theorem AuctionCall.held_of_ok {u : Unit} (c : AuctionCall A) (h : Held base s)
    (hrun : (c.call cfg).run s = .ok u s') : Held base s' := by
  cases c with
  | newDiamondAuction initialAmount fix =>
      obtain ⟨item, id, endBlock, auctions, -, hnew, rfl⟩ := newDiamondAuction_ok hrun
      exact h.newAuction rfl hnew
  | newSetterAuction initialAmount fix c =>
      obtain ⟨-, item, id, endBlock, auctions, -, -, hnew, rfl⟩ := newSetterAuction_ok hrun
      exact h.newAuction rfl hnew
  | newSerplusAuction amount c =>
      obtain ⟨-, item, id, auctions, -, -, hnew, rfl⟩ := newSerplusAuction_ok hrun
      exact h.newAuction rfl hnew
  | bid who id price => exact bid_held h hrun
  | endAuction id => exact endAuction_held h hrun
  | cancelAuction id => exact cancelAuction_held h hrun

/-- A call that fails late drops neither a bid nor a reference. -/
theorem AuctionCall.held_of_error {e : DispatchError} (c : AuctionCall A) (h : Held base s)
    (hrun : (c.call cfg).run s = .error e s') : Held base s' := by
  cases c with
  | newDiamondAuction initialAmount fix =>
      rcases newDiamondAuction_error hrun with ⟨-, rfl⟩ | ⟨-, -, rfl⟩
      · exact h
      · exact h.of_eq rfl fun _ => rfl
  | newSetterAuction initialAmount fix c =>
      rcases newSetterAuction_error hrun with ⟨-, rfl⟩ | ⟨-, hauctions, hs'⟩
      · exact h
      · have hsystem : s'.system = s.system := by rw [hs']
        rcases hauctions with ⟨-, hsame⟩ | ⟨-, id, endBlock, hnew⟩
        · exact h.of_eq (by rw [hsystem]) fun a => by rw [hsystem, hsame]
        · exact h.newAuction hsystem hnew
  | newSerplusAuction amount c =>
      rcases newSerplusAuction_error hrun with ⟨-, rfl⟩ | ⟨-, -, rfl⟩
      · exact h
      · exact h.of_eq rfl fun _ => rfl
  | bid who id price =>
      obtain rfl := Dispatch.transactional_error hrun
      exact h
  | endAuction id =>
      obtain rfl := failsClean_endAuction id hrun
      exact h
  | cancelAuction id =>
      rcases cancelAuction_error hrun with ⟨-, rfl⟩ | ⟨-, hdropped⟩
      · exact h
      · cases hdropped <;> exact h.of_eq rfl fun _ => rfl

/-- **Every step keeps the count.** -/
theorem Held.step (h : Held base s) (a : AuctionStep A) : Held base (auctionStep cfg s a) := by
  cases a with
  | extrinsic c =>
      exact Dispatch.commit_transactional_invariant h fun u s' hrun => c.held_of_ok h hrun
  | direct c =>
      rw [auctionStep]
      cases hrun : (c.call cfg).run s with
      | ok u s' =>
          rw [Dispatch.commit_of_ok hrun]
          exact c.held_of_ok h hrun
      | error e s' =>
          rw [Dispatch.commit_of_error hrun]
          exact c.held_of_error h hrun
  | elsewhere blockNumber ledger prices => exact ⟨h.provided, h.consumers⟩

/-! ## The register and the maps -/

/-- The auctions of the register are those of the maps. -/
def Registered (s : State A) : Prop := ∀ id, id ∈ s.auctions.info ↔ InAuction s id

omit [DecidableEq A] in
theorem mem_info_recordBid {auctions : Auctions A} {id : ℕ} {auction : AuctionInfo A}
    (h : auctions.info.lookup id = some auction) (bid : Bid A) (newEnd : Option (Option ℕ))
    (id' : ℕ) : id' ∈ (auctions.recordBid id bid newEnd).info ↔ id' ∈ auctions.info := by
  rw [Auctions.recordBid_info h, AList.mem_insert]
  exact or_iff_right_of_imp fun hid => hid ▸ mem_of_lookup h

omit [DecidableEq A] in
theorem inAuction_rebid {id id' : ℕ} (h : Rebid s id s') : InAuction s' id' ↔ InAuction s id' := by
  cases h with
  | diamond item item' hitem hfix =>
      simp only [InAuction, AList.mem_insert]
      exact or_congr_left (or_iff_right_of_imp fun hid => hid ▸ mem_of_lookup hitem)
  | setter item item' hitem hcurrency hfix =>
      simp only [InAuction, AList.mem_insert]
      refine or_congr_right (or_congr_left ?_)
      exact or_iff_right_of_imp fun hid => hid ▸ mem_of_lookup hitem
  | serplus item hitem => exact Iff.rfl

omit [DecidableEq A] in
/-- A closed auction was in one map, and is in none. -/
theorem inAuction_closed {id : ℕ} (h : Shape s) (hclosed : Closed s id s') (id' : ℕ) :
    InAuction s' id' ↔ id' ≠ id ∧ InAuction s id' := by
  cases hclosed with
  | diamond item hitem =>
      have hmem := mem_of_lookup hitem
      have hsetter := h.diamond_setter id hmem
      have hserplus := h.diamond_serplus id hmem
      simp only [InAuction, AList.mem_erase]
      grind
  | setter item hitem =>
      have hmem := mem_of_lookup hitem
      have hdiamond : id ∉ s.diamondAuctions := fun hid => h.diamond_setter id hid hmem
      have hserplus := h.setter_serplus id hmem
      simp only [InAuction, AList.mem_erase]
      grind
  | serplus item hitem =>
      have hmem := mem_of_lookup hitem
      have hdiamond : id ∉ s.diamondAuctions := fun hid => h.diamond_serplus id hid hmem
      have hsetter : id ∉ s.setterAuctions := fun hid => h.setter_serplus id hid hmem
      simp only [InAuction, AList.mem_erase]
      grind

omit [DecidableEq A] in
/-- A new auction is in the register and in a map. -/
theorem Registered.newAuction (h : Registered s) {maxId start id : ℕ} {endBlock : Option ℕ}
    (hnew : s.auctions.newAuction maxId start endBlock = some (id, s'.auctions))
    (hmaps : ∀ id', InAuction s' id' ↔ id' = id ∨ InAuction s id') : Registered s' := by
  intro id'
  rw [Auctions.newAuction_info hnew, AList.mem_insert, hmaps, h id']

omit [DecidableEq A] in
/-- The register and the maps lose the same auction. -/
theorem Registered.remove (h : Registered s) {id : ℕ}
    (hauctions : s'.auctions = s.auctions.remove id)
    (hmaps : ∀ id', InAuction s' id' ↔ id' ≠ id ∧ InAuction s id') : Registered s' := by
  intro id'
  rw [hauctions, hmaps, ← h id']
  exact AList.mem_erase

theorem AuctionCall.registered_of_ok {u : Unit} (c : AuctionCall A) (hshape : Shape s)
    (h : Registered s) (hrun : (c.call cfg).run s = .ok u s') : Registered s' := by
  cases c with
  | newDiamondAuction initialAmount fix =>
      obtain ⟨item, id, endBlock, auctions, -, hnew, rfl⟩ := newDiamondAuction_ok hrun
      refine h.newAuction hnew fun id' => ?_
      simp only [InAuction, AList.mem_insert, or_assoc]
  | newSetterAuction initialAmount fix c =>
      obtain ⟨-, item, id, endBlock, auctions, -, -, hnew, rfl⟩ := newSetterAuction_ok hrun
      refine h.newAuction hnew fun id' => ?_
      simp only [InAuction, AList.mem_insert]
      tauto
  | newSerplusAuction amount c =>
      obtain ⟨-, item, id, auctions, -, -, hnew, rfl⟩ := newSerplusAuction_ok hrun
      refine h.newAuction hnew fun id' => ?_
      simp only [InAuction, AList.mem_insert]
      tauto
  | bid who id price =>
      obtain ⟨auction, newEnd, s₁, l, hauction, hrebid, rfl⟩ := bid_changes hrun
      intro id'
      rw [mem_info_recordBid hauction, h id']
      exact (inAuction_rebid hrebid).symm
  | endAuction id =>
      obtain ⟨auction, s₁, l, hauction, hclosed | ⟨rfl, hnot⟩, rfl⟩ := endAuction_closes hrun
      · have hmaps := inAuction_closed hshape hclosed
        exact h.remove rfl hmaps
      · exact absurd ((h id).mp (mem_of_lookup hauction)) hnot
  | cancelAuction id =>
      obtain ⟨s₁, l, -, hclosed, rfl⟩ := cancelAuction_closes hrun
      have hmaps := inAuction_closed hshape hclosed
      exact h.remove rfl hmaps

theorem Registered.step (h : Registered s) (hshape : Shape s) {a : AuctionStep A}
    (hlate : ¬ FailsLate cfg s a) : Registered (auctionStep cfg s a) := by
  cases a with
  | extrinsic c =>
      exact Dispatch.commit_transactional_invariant h fun u s' hrun =>
        c.registered_of_ok hshape h hrun
  | direct c =>
      rw [auctionStep]
      cases hrun : (c.call cfg).run s with
      | ok u s' =>
          rw [Dispatch.commit_of_ok hrun]
          exact c.registered_of_ok hshape h hrun
      | error e s' =>
          rw [Dispatch.commit_of_error hrun]
          rcases c.call_error hshape hrun with ⟨-, rfl⟩ | ⟨hlate', -⟩
          · exact h
          · exact absurd hlate' hlate
  | elsewhere blockNumber ledger prices => exact h

/-! ## Runs -/

omit [DecidableEq A] in
theorem Genesis.registered (h : Genesis s) : Registered s := by
  intro id
  simp [InAuction, h.info, h.diamondAuctions, h.setterAuctions, h.serplusAuctions,
    AList.notMem_empty]

theorem Genesis.held (h : Genesis s) (hprovided : ∀ a, 0 < s.system.providers a) :
    Held s.system.consumers s where
  provided := hprovided
  consumers a := by simp [Auctions.liveBids, h.info]

/-- **A bidder is held exactly as often as it leads.** In every run, an account has gained one
consumer reference for every auction in which it is the last accepted bidder; and unless a call
fails late, the auctions of the register are those of the manager's maps. -/
theorem run_consumers (cfg : Config A) (s₀ : State A) (h : Genesis s₀)
    (hprovided : ∀ a, 0 < s₀.system.providers a) (steps : List (AuctionStep A)) :
    (∀ a, (Machine.run (auctionStep cfg) s₀ steps).system.consumers a
      = s₀.system.consumers a
        + (Machine.run (auctionStep cfg) s₀ steps).auctions.liveBids a) ∧
      (Machine.StepsMeet (auctionStep cfg) (fun s a => ¬ FailsLate cfg s a) s₀ steps →
        Registered (Machine.run (auctionStep cfg) s₀ steps)) := by
  constructor
  · have hheld : Held s₀.system.consumers (Machine.run (auctionStep cfg) s₀ steps) :=
      Machine.run_invariant_always (fun _ a hs => hs.step a) (h.held hprovided) steps
    exact hheld.consumers
  · intro hmeet
    have hboth : Shape (Machine.run (auctionStep cfg) s₀ steps) ∧
        Registered (Machine.run (auctionStep cfg) s₀ steps) :=
      Machine.run_invariant (P := fun s => Shape s ∧ Registered s)
        (fun _ a hs hlate => ⟨hs.1.step a, hs.2.step hs.1 hlate⟩) ⟨h.shape, h.registered⟩ hmeet
    exact hboth.2

/-- Account 1 outbids itself, and account 2 outbids it. -/
def outbidSteps : List (AuctionStep ℕ) :=
  [.extrinsic (.newDiamondAuction 200 100), .direct (.bid 1 0 100), .direct (.bid 1 0 200),
    .direct (.bid 2 0 300)]

theorem outbidSteps_consumers :
    (∀ a, (Machine.run (auctionStep sampleConfig) (sampleState (10 ^ 18))
          outbidSteps).system.consumers a
      = (sampleState (10 ^ 18)).system.consumers a
        + (Machine.run (auctionStep sampleConfig) (sampleState (10 ^ 18))
            outbidSteps).auctions.liveBids a) ∧
      (Machine.StepsMeet (auctionStep sampleConfig) (fun s a => ¬ FailsLate sampleConfig s a)
          (sampleState (10 ^ 18)) outbidSteps →
        Registered (Machine.run (auctionStep sampleConfig) (sampleState (10 ^ 18))
          outbidSteps)) :=
  run_consumers sampleConfig (sampleState (10 ^ 18)) sampleState_genesis
    (fun _ => Nat.one_pos) outbidSteps

end Setheum.Serp
