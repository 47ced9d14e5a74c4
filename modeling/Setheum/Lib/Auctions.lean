import Setheum.Lib.StorageMap

/-!
# A register of auctions

The register hands out auction ids, keeps the last accepted bid of every auction, and drops an
auction when it ends or is removed. Which bids it puts to the auction's handler, and when it ends
an auction, is left to its user.

* `newAuction_spec` — a new auction has a fresh id and no bid, and the others are untouched.
* `lastBid_recordBid` — an accepted bid becomes the last bid of its auction.
* `liveBids_newAuction`, `liveBids_recordBid`, `liveBids_remove` — in how many auctions an account
  is the last accepted bidder.
-/

set_option autoImplicit false

open StorageMap

/-- The state of one auction in the register. -/
structure AuctionInfo (A : Type) where
  bid : Option (A × ℕ)
  start : ℕ
  endBlock : Option ℕ
  deriving DecidableEq

/-- The auctions under way and the next id; ids in use are below it. -/
structure Auctions (A : Type) where
  info : Map ℕ (AuctionInfo A)
  index : ℕ
  fresh : ∀ id ∈ info, id < index

namespace Auctions

variable {A : Type}

/-- The register before any auction. -/
def empty : Auctions A where
  info := ∅
  index := 0
  fresh _ h := absurd h (AList.notMem_empty _)

/-- Open an auction; `none` when the ids are used up. -/
def newAuction (maxId start : ℕ) (endBlock : Option ℕ) (t : Auctions A) :
    Option (ℕ × Auctions A) :=
  if t.index < maxId then
    some (t.index,
      { info := t.info.insert t.index ⟨none, start, endBlock⟩
        index := t.index + 1
        fresh := by
          intro id hid
          rcases (AList.mem_insert _).mp hid with rfl | hid
          · omega
          · have hlt := t.fresh id hid
            omega })
  else none

/-- Record an accepted bid, and the new end of the auction if it changes. -/
def recordBid (id : ℕ) (bid : A × ℕ) (newEnd : Option (Option ℕ)) (t : Auctions A) : Auctions A :=
  match h : t.info.lookup id with
  | none => t
  | some auction =>
      { info := t.info.insert id ⟨some bid, auction.start, newEnd.getD auction.endBlock⟩
        index := t.index
        fresh := by
          intro id' hid'
          rcases (AList.mem_insert _).mp hid' with rfl | hid'
          · exact t.fresh id' (AList.lookup_isSome.mp (by rw [h]; rfl))
          · exact t.fresh id' hid' }

/-- Drop an auction. -/
def remove (id : ℕ) (t : Auctions A) : Auctions A where
  info := t.info.erase id
  index := t.index
  fresh id' h := t.fresh id' (AList.mem_erase.mp h).2

/-- The last accepted bid of an auction. -/
def lastBid (t : Auctions A) (id : ℕ) : Option (A × ℕ) := (t.info.lookup id).bind AuctionInfo.bid

theorem lastBid_eq_of_lookup {t : Auctions A} {id : ℕ} {auction : AuctionInfo A}
    (h : t.info.lookup id = some auction) : t.lastBid id = auction.bid := by
  simp [lastBid, h]

/-- A new auction has a fresh id and no bid. -/
theorem newAuction_spec {maxId start id : ℕ} {endBlock : Option ℕ} {t t' : Auctions A}
    (h : newAuction maxId start endBlock t = some (id, t')) :
    id = t.index ∧ id ∉ t.info ∧ t'.info.lookup id = some ⟨none, start, endBlock⟩ ∧
      ∀ id' ≠ id, t'.info.lookup id' = t.info.lookup id' := by
  unfold newAuction at h
  split at h
  · cases h
    refine ⟨rfl, fun hmem => absurd (t.fresh _ hmem) (Nat.lt_irrefl _), ?_, ?_⟩
    · exact AList.lookup_insert _
    · intro id' hne
      exact AList.lookup_insert_ne hne
  · cases h

theorem newAuction_eq_none {maxId start : ℕ} {endBlock : Option ℕ} {t : Auctions A} :
    newAuction maxId start endBlock t = none ↔ ¬ t.index < maxId := by
  unfold newAuction
  split
  · rename_i h
    simp [h]
  · rename_i h
    simp [h]

theorem newAuction_index {maxId start id : ℕ} {endBlock : Option ℕ} {t t' : Auctions A}
    (h : newAuction maxId start endBlock t = some (id, t')) :
    t.index < maxId ∧ t'.index = t.index + 1 := by
  unfold newAuction at h
  split at h
  · rename_i hlt
    cases h
    exact ⟨hlt, rfl⟩
  · cases h

@[simp] theorem recordBid_index (t : Auctions A) (id : ℕ) (bid : A × ℕ)
    (newEnd : Option (Option ℕ)) : (t.recordBid id bid newEnd).index = t.index := by
  unfold recordBid
  split <;> rfl

@[simp] theorem remove_index (t : Auctions A) (id : ℕ) : (t.remove id).index = t.index := rfl

/-- An accepted bid becomes the last bid of its auction. -/
theorem lastBid_recordBid {t : Auctions A} {id : ℕ} {auction : AuctionInfo A}
    (h : t.info.lookup id = some auction) (bid : A × ℕ) (newEnd : Option (Option ℕ)) :
    (t.recordBid id bid newEnd).lastBid id = some bid := by
  unfold recordBid
  split
  · rename_i hnone
    rw [h] at hnone
    cases hnone
  · simp [lastBid]

theorem newAuction_info {maxId start id : ℕ} {endBlock : Option ℕ} {t t' : Auctions A}
    (h : newAuction maxId start endBlock t = some (id, t')) :
    t'.info = t.info.insert id ⟨none, start, endBlock⟩ := by
  unfold newAuction at h
  split at h
  · cases h
    rfl
  · cases h

theorem recordBid_info {t : Auctions A} {id : ℕ} {auction : AuctionInfo A}
    (h : t.info.lookup id = some auction) (bid : A × ℕ) (newEnd : Option (Option ℕ)) :
    (t.recordBid id bid newEnd).info
      = t.info.insert id ⟨some bid, auction.start, newEnd.getD auction.endBlock⟩ := by
  unfold recordBid
  split
  · rename_i hnone
    rw [h] at hnone
    cases hnone
  · rename_i auction' hauction'
    rw [h] at hauction'
    cases hauction'
    rfl

/-! ## Last accepted bidders -/

section LiveBids

variable [DecidableEq A]

/-- One for a bid of `a`. -/
def bidBy (a : A) (bid : Option (A × ℕ)) : ℕ := if bid.map Prod.fst = some a then 1 else 0

/-- The number of auctions in which `a` is the last accepted bidder. -/
def liveBids (t : Auctions A) (a : A) : ℕ :=
  sumBy (fun _ auction => bidBy a auction.bid) t.info

theorem liveBids_newAuction {maxId start id : ℕ} {endBlock : Option ℕ} {t t' : Auctions A}
    (h : newAuction maxId start endBlock t = some (id, t')) (a : A) :
    liveBids t' a = liveBids t a := by
  obtain ⟨-, hfresh, -⟩ := newAuction_spec h
  have hinsert := sumBy_insert_add (fun _ auction => bidBy a auction.bid) t.info id
    (⟨none, start, endBlock⟩ : AuctionInfo A)
  rw [weightAt_of_notMem _ (AList.lookup_eq_none.mpr hfresh), ← newAuction_info h] at hinsert
  exact hinsert

/-- An accepted bid takes the place of the last one. -/
theorem liveBids_recordBid {t : Auctions A} {id : ℕ} {auction : AuctionInfo A}
    (h : t.info.lookup id = some auction) (bid : A × ℕ) (newEnd : Option (Option ℕ)) (a : A) :
    liveBids (t.recordBid id bid newEnd) a + bidBy a auction.bid
      = liveBids t a + bidBy a (some bid) := by
  have hinsert := sumBy_insert_add (fun _ auction => bidBy a auction.bid) t.info id
    (⟨some bid, auction.start, newEnd.getD auction.endBlock⟩ : AuctionInfo A)
  rw [weightAt_of_lookup _ h, ← recordBid_info h] at hinsert
  exact hinsert

/-- Dropping an auction drops its last bid. -/
theorem liveBids_remove (t : Auctions A) (id : ℕ) (a : A) :
    liveBids (t.remove id) a + bidBy a (t.lastBid id) = liveBids t a := by
  have herase := sumBy_erase_add (fun _ auction => bidBy a auction.bid) t.info id
  have hweight : weightAt (fun _ auction => bidBy a auction.bid) t.info id
      = bidBy a (t.lastBid id) := by
    unfold weightAt lastBid
    cases t.info.lookup id <;> rfl
  rwa [hweight] at herase

end LiveBids

end Auctions
