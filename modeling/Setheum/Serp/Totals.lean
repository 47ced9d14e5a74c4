import Setheum.Lib.RunningTotals
import Setheum.Serp.Calls
import Setheum.Serp.Elasticity

/-!
# The totals in auction

The manager keeps the total of the fixed amounts of its diamond auctions, and per currency those
of its setter auctions and the amounts of its serplus auctions. The treasury reads the last. They
are the sums over the auctions as long as no call that is made directly fails after its first
write.

* `Shape.step` — ids are below the register's next one and each is in at most one map, always.
* `Balanced.step_iff` — a step keeps the totals exactly when it does not fail late.
* `run_balanced_iff` — so the totals are right all along a run exactly when no step of it does.
-/

set_option autoImplicit false

namespace Setheum.Serp

open StorageMap

variable {A : Type} [DecidableEq A] {cfg : Config A} {s s' : State A}

/-! ## Where ids are -/

/-- Ids in use have been handed out, no id is in two of the maps, and no serplus auction is
empty. -/
structure Shape (s : State A) : Prop where
  diamond : ∀ id ∈ s.diamondAuctions, id < s.auctions.index
  setter : ∀ id ∈ s.setterAuctions, id < s.auctions.index
  serplus : ∀ id ∈ s.serplusAuctions, id < s.auctions.index
  diamond_setter : ∀ id ∈ s.diamondAuctions, id ∉ s.setterAuctions
  diamond_serplus : ∀ id ∈ s.diamondAuctions, id ∉ s.serplusAuctions
  setter_serplus : ∀ id ∈ s.setterAuctions, id ∉ s.serplusAuctions
  amount_pos : ∀ id item, s.serplusAuctions.lookup id = some item → 0 < item.amount

omit [DecidableEq A] in
theorem mem_of_lookup {ν : Type} {m : Map ℕ ν} {id : ℕ} {v : ν} (h : m.lookup id = some v) :
    id ∈ m := AList.lookup_isSome.mp (by rw [h]; rfl)

/-- The kinds of auctions, one map each. -/
inductive Kind
  | diamond
  | setter
  | serplus

/-- The id was handed out between the two states. -/
def HandedOut (s s' : State A) (id : ℕ) : Prop :=
  s.auctions.index ≤ id ∧ id < s'.auctions.index

omit [DecidableEq A] in
/-- Auctions may go, and those that come have new ids and are of one kind. -/
theorem Shape.grow (h : Shape s) (k : Kind) (hindex : s.auctions.index ≤ s'.auctions.index)
    (hdiamond : ∀ id ∈ s'.diamondAuctions,
      id ∈ s.diamondAuctions ∨ HandedOut s s' id ∧ k = .diamond)
    (hsetter : ∀ id ∈ s'.setterAuctions,
      id ∈ s.setterAuctions ∨ HandedOut s s' id ∧ k = .setter)
    (hserplus : ∀ id ∈ s'.serplusAuctions,
      id ∈ s.serplusAuctions ∨ HandedOut s s' id ∧ k = .serplus)
    (hpos : ∀ id item, s'.serplusAuctions.lookup id = some item → 0 < item.amount) :
    Shape s' := by
  have hfresh : ∀ {id}, HandedOut s s' id →
      id ∉ s.diamondAuctions ∧ id ∉ s.setterAuctions ∧ id ∉ s.serplusAuctions := by
    intro id hnew
    refine ⟨fun hid => ?_, fun hid => ?_, fun hid => ?_⟩
    · exact absurd (h.diamond id hid) (Nat.not_lt.mpr hnew.1)
    · exact absurd (h.setter id hid) (Nat.not_lt.mpr hnew.1)
    · exact absurd (h.serplus id hid) (Nat.not_lt.mpr hnew.1)
  constructor
  · intro id hid
    rcases hdiamond id hid with hid | ⟨hnew, -⟩
    · exact (h.diamond id hid).trans_le hindex
    · exact hnew.2
  · intro id hid
    rcases hsetter id hid with hid | ⟨hnew, -⟩
    · exact (h.setter id hid).trans_le hindex
    · exact hnew.2
  · intro id hid
    rcases hserplus id hid with hid | ⟨hnew, -⟩
    · exact (h.serplus id hid).trans_le hindex
    · exact hnew.2
  · intro id hid hid'
    rcases hdiamond id hid with hid | ⟨hnew, rfl⟩
    · rcases hsetter id hid' with hid' | ⟨hnew', -⟩
      · exact h.diamond_setter id hid hid'
      · exact (hfresh hnew').1 hid
    · rcases hsetter id hid' with hid' | ⟨-, hk⟩
      · exact (hfresh hnew).2.1 hid'
      · cases hk
  · intro id hid hid'
    rcases hdiamond id hid with hid | ⟨hnew, rfl⟩
    · rcases hserplus id hid' with hid' | ⟨hnew', -⟩
      · exact h.diamond_serplus id hid hid'
      · exact (hfresh hnew').1 hid
    · rcases hserplus id hid' with hid' | ⟨-, hk⟩
      · exact (hfresh hnew).2.2 hid'
      · cases hk
  · intro id hid hid'
    rcases hsetter id hid with hid | ⟨hnew, rfl⟩
    · rcases hserplus id hid' with hid' | ⟨hnew', -⟩
      · exact h.setter_serplus id hid hid'
      · exact (hfresh hnew').2.1 hid
    · rcases hserplus id hid' with hid' | ⟨-, hk⟩
      · exact (hfresh hnew).2.2 hid'
      · cases hk
  · exact hpos

omit [DecidableEq A] in
/-- No auction comes. -/
theorem Shape.of_subset (h : Shape s) (hindex : s.auctions.index ≤ s'.auctions.index)
    (hdiamond : ∀ id ∈ s'.diamondAuctions, id ∈ s.diamondAuctions)
    (hsetter : ∀ id ∈ s'.setterAuctions, id ∈ s.setterAuctions)
    (hserplus : ∀ id item, s'.serplusAuctions.lookup id = some item →
      s.serplusAuctions.lookup id = some item) : Shape s' := by
  refine h.grow .diamond hindex (fun id hid => .inl (hdiamond id hid))
    (fun id hid => .inl (hsetter id hid)) (fun id hid => .inl ?_)
    fun id item hitem => h.amount_pos id item (hserplus id item hitem)
  obtain ⟨item, hitem⟩ := Option.isSome_iff_exists.mp (AList.lookup_isSome.mpr hid)
  exact mem_of_lookup (hserplus id item hitem)

omit [DecidableEq A] in
theorem Shape.rebid {id : ℕ} (h : Shape s) (hrebid : Rebid s id s') : Shape s' := by
  cases hrebid with
  | diamond item item' hitem hfix =>
      refine h.of_subset le_rfl (fun id' hid' => ?_) (fun _ hid => hid) fun _ _ hitem => hitem
      rcases (AList.mem_insert _).mp hid' with rfl | hid'
      · exact mem_of_lookup hitem
      · exact hid'
  | setter item item' hitem hcurrency hfix =>
      refine h.of_subset le_rfl (fun _ hid => hid) (fun id' hid' => ?_) fun _ _ hitem => hitem
      rcases (AList.mem_insert _).mp hid' with rfl | hid'
      · exact mem_of_lookup hitem
      · exact hid'
  | serplus item hitem => exact h

theorem lookup_of_lookup_erase {ν : Type} {m : Map ℕ ν} {id id' : ℕ} {v : ν}
    (h : (m.erase id).lookup id' = some v) : m.lookup id' = some v := by
  by_cases hid : id' = id
  · subst hid
    rw [AList.lookup_erase] at h
    cases h
  · rwa [AList.lookup_erase_ne hid] at h

omit [DecidableEq A] in
theorem Shape.closed {id : ℕ} (h : Shape s) (hclosed : Closed s id s') : Shape s' := by
  cases hclosed with
  | diamond item hitem =>
      exact h.of_subset le_rfl (fun _ hid => (AList.mem_erase.mp hid).2) (fun _ hid => hid)
        fun _ _ hitem => hitem
  | setter item hitem =>
      exact h.of_subset le_rfl (fun _ hid => hid) (fun _ hid => (AList.mem_erase.mp hid).2)
        fun _ _ hitem => hitem
  | serplus item hitem =>
      exact h.of_subset le_rfl (fun _ hid => hid) (fun _ hid => hid)
        fun _ _ => lookup_of_lookup_erase

omit [DecidableEq A] in
theorem Shape.dropped {id : ℕ} (h : Shape s) (hdropped : Dropped s id s') : Shape s' := by
  cases hdropped with
  | diamond item hitem =>
      exact h.of_subset le_rfl (fun _ hid => (AList.mem_erase.mp hid).2) (fun _ hid => hid)
        fun _ _ hitem => hitem
  | setter item hitem =>
      exact h.of_subset le_rfl (fun _ hid => hid) (fun _ hid => (AList.mem_erase.mp hid).2)
        fun _ _ hitem => hitem
  | serplus item hitem =>
      exact h.of_subset le_rfl (fun _ hid => hid) (fun _ hid => hid)
        fun _ _ => lookup_of_lookup_erase

/-! ## The totals -/

/-- The totals are those of the auctions, and no id is in two of the maps. -/
structure Balanced (s : State A) : Prop where
  setter : s.totalSetterInAuction = sumBy (fun _ item => item.fix) s.diamondAuctions
  settCurrency : ∀ c, StorageMap.get 0 s.totalSettCurrencyInAuction c
    = sumBy (fun _ item => if item.currency = c then item.fix else 0) s.setterAuctions
  serplus : ∀ c, StorageMap.get 0 s.totalSerplusInAuction c
    = sumBy (fun _ item => if item.currency = c then item.amount else 0) s.serplusAuctions
  once : ∀ id, (id ∈ s.diamondAuctions → id ∉ s.setterAuctions ∧ id ∉ s.serplusAuctions) ∧
    (id ∈ s.setterAuctions → id ∉ s.serplusAuctions)

omit [DecidableEq A] in
theorem Balanced.of_tracks (h : Shape s)
    (hsetter : Tracks (fun _ => ()) DiamondAuctionItem.fix (fun _ => s.totalSetterInAuction)
      s.diamondAuctions)
    (hsettCurrency : Tracks SetterAuctionItem.currency SetterAuctionItem.fix
      (StorageMap.get 0 s.totalSettCurrencyInAuction) s.setterAuctions)
    (hserplus : Tracks SerplusAuctionItem.currency SerplusAuctionItem.amount
      (StorageMap.get 0 s.totalSerplusInAuction) s.serplusAuctions) : Balanced s where
  setter := tracks_unit.mp hsetter
  settCurrency := hsettCurrency
  serplus := hserplus
  once id := ⟨fun hid => ⟨h.diamond_setter id hid, h.diamond_serplus id hid⟩,
    h.setter_serplus id⟩

omit [DecidableEq A] in
theorem Balanced.tracks (h : Balanced s) :
    Tracks (fun _ => ()) DiamondAuctionItem.fix (fun _ => s.totalSetterInAuction)
        s.diamondAuctions ∧
      Tracks SetterAuctionItem.currency SetterAuctionItem.fix
        (StorageMap.get 0 s.totalSettCurrencyInAuction) s.setterAuctions ∧
      Tracks SerplusAuctionItem.currency SerplusAuctionItem.amount
        (StorageMap.get 0 s.totalSerplusInAuction) s.serplusAuctions :=
  ⟨tracks_unit.mpr h.setter, h.settCurrency, h.serplus⟩

/-- A total that is raised by the weight under its own key. -/
theorem get_store_add (m : Map CurrencyId ℕ) (c c' : CurrencyId) (n : ℕ) :
    StorageMap.get 0 (store 0 m c (StorageMap.get 0 m c + n)) c'
      = StorageMap.get 0 m c' + if c = c' then n else 0 := by
  by_cases hc : c' = c
  · subst hc
    rw [get_store, if_pos rfl]
  · rw [get_store_ne 0 m _ hc, if_neg (Ne.symm hc), Nat.add_zero]

/-- A total that is lowered by the weight under its own key. -/
theorem get_store_sub (m : Map CurrencyId ℕ) (c c' : CurrencyId) (n : ℕ) :
    StorageMap.get 0 (store 0 m c (StorageMap.get 0 m c - n)) c'
      = StorageMap.get 0 m c' - if c = c' then n else 0 := by
  by_cases hc : c' = c
  · subst hc
    rw [get_store, if_pos rfl]
  · rw [get_store_ne 0 m _ hc, if_neg (Ne.symm hc), Nat.sub_zero]

omit [DecidableEq A] in
theorem Balanced.rebid {id : ℕ} (h : Balanced s) (hshape : Shape s) (hrebid : Rebid s id s') :
    Balanced s' := by
  have hshape' := hshape.rebid hrebid
  obtain ⟨hsetter, hsettCurrency, hserplus⟩ := h.tracks
  cases hrebid with
  | diamond item item' hitem hfix =>
      exact .of_tracks hshape' (hsetter.replace hitem rfl hfix) hsettCurrency hserplus
  | setter item item' hitem hcurrency hfix =>
      exact .of_tracks hshape' hsetter (hsettCurrency.replace hitem hcurrency hfix) hserplus
  | serplus item hitem => exact h

omit [DecidableEq A] in
theorem Balanced.closed {id : ℕ} (h : Balanced s) (hshape : Shape s)
    (hclosed : Closed s id s') : Balanced s' := by
  have hshape' := hshape.closed hclosed
  obtain ⟨hsetter, hsettCurrency, hserplus⟩ := h.tracks
  cases hclosed with
  | diamond item hitem =>
      exact .of_tracks hshape' (hsetter.erase hitem fun _ => rfl) hsettCurrency hserplus
  | setter item hitem =>
      exact .of_tracks hshape' hsetter
        (hsettCurrency.erase hitem fun c => get_store_sub _ _ c _) hserplus
  | serplus item hitem =>
      exact .of_tracks hshape' hsetter hsettCurrency
        (hserplus.erase hitem fun c => get_store_sub _ _ c _)

omit [DecidableEq A] in
/-- An auction that is dropped leaves its amount in the total. -/
theorem Balanced.not_dropped {id : ℕ} (h : Balanced s) (hshape : Shape s)
    (hdropped : Dropped s id s') : ¬ Balanced s' := by
  intro h'
  obtain ⟨hsetter, hsettCurrency, hserplus⟩ := h.tracks
  obtain ⟨hsetter', hsettCurrency', hserplus'⟩ := h'.tracks
  cases hdropped with
  | diamond item hitem => exact hsetter.not_erase hitem item.fix_pos hsetter'
  | setter item hitem => exact hsettCurrency.not_erase hitem item.fix_pos hsettCurrency'
  | serplus item hitem =>
      exact hserplus.not_erase hitem (hshape.amount_pos id item hitem) hserplus'

/-! ## One call -/

omit [DecidableEq A] in
theorem lookup_index_eq_none {ν : Type} {m : Map ℕ ν} {n : ℕ} (h : ∀ id ∈ m, id < n) :
    m.lookup n = none :=
  AList.lookup_eq_none.mpr fun hid => Nat.lt_irrefl _ (h n hid)

omit [DecidableEq A] in
/-- Ids of a map into which the next one was inserted. -/
theorem mem_insert_handedOut {ν : Type} {m : Map ℕ ν} {v : ν} {k k' : Kind}
    (hindex : s'.auctions.index = s.auctions.index + 1) (hk : k = k') :
    ∀ id ∈ m.insert s.auctions.index v, id ∈ m ∨ HandedOut s s' id ∧ k = k' := by
  intro id hid
  rcases (AList.mem_insert _).mp hid with rfl | hid
  · exact .inr ⟨⟨le_rfl, by omega⟩, hk⟩
  · exact .inl hid

/-- A call that succeeds keeps the books. -/
structure Keeps (s s' : State A) : Prop where
  shape : Shape s'
  balanced : Balanced s → Balanced s'

omit [DecidableEq A] in
theorem newDiamondAuction_keeps {u : Unit} {initialAmount fix : ℕ} (h : Shape s)
    (hrun : (newDiamondAuction cfg initialAmount fix).run s = .ok u s') : Keeps s s' := by
  obtain ⟨item, id, endBlock, auctions, rfl, hnew, rfl⟩ := newDiamondAuction_ok hrun
  obtain ⟨rfl, -⟩ := Auctions.newAuction_spec hnew
  obtain ⟨-, hindex⟩ := Auctions.newAuction_index hnew
  have hshape : Shape { s with
      totalSetterInAuction := s.totalSetterInAuction + item.fix
      auctions := auctions
      diamondAuctions := s.diamondAuctions.insert s.auctions.index item } :=
    h.grow .diamond (by simp [hindex]) (mem_insert_handedOut hindex rfl)
      (fun _ hid => .inl hid) (fun _ hid => .inl hid) h.amount_pos
  refine ⟨hshape, fun hbalanced => ?_⟩
  obtain ⟨hsetter, hsettCurrency, hserplus⟩ := hbalanced.tracks
  exact .of_tracks hshape
    (hsetter.insert (lookup_index_eq_none h.diamond) fun _ => by rw [if_pos rfl])
    hsettCurrency hserplus

omit [DecidableEq A] in
theorem newSetterAuction_keeps {u : Unit} {initialAmount fix : ℕ} {c : CurrencyId} (h : Shape s)
    (hrun : (newSetterAuction cfg initialAmount fix c).run s = .ok u s') : Keeps s s' := by
  obtain ⟨-, item, id, endBlock, auctions, rfl, rfl, hnew, rfl⟩ := newSetterAuction_ok hrun
  obtain ⟨rfl, -⟩ := Auctions.newAuction_spec hnew
  obtain ⟨-, hindex⟩ := Auctions.newAuction_index hnew
  have hshape : Shape { s with
      totalSettCurrencyInAuction := store 0 s.totalSettCurrencyInAuction item.currency
        (StorageMap.get 0 s.totalSettCurrencyInAuction item.currency + item.fix)
      auctions := auctions
      setterAuctions := s.setterAuctions.insert s.auctions.index item } :=
    h.grow .setter (by simp [hindex]) (fun _ hid => .inl hid) (mem_insert_handedOut hindex rfl)
      (fun _ hid => .inl hid) h.amount_pos
  refine ⟨hshape, fun hbalanced => ?_⟩
  obtain ⟨hsetter, hsettCurrency, hserplus⟩ := hbalanced.tracks
  exact .of_tracks hshape hsetter
    (hsettCurrency.insert (lookup_index_eq_none h.setter) fun c => get_store_add _ _ c _)
    hserplus

omit [DecidableEq A] in
theorem newSerplusAuction_keeps {u : Unit} {amount : ℕ} {c : CurrencyId} (h : Shape s)
    (hrun : (newSerplusAuction cfg amount c).run s = .ok u s') : Keeps s s' := by
  obtain ⟨hamount, item, id, auctions, rfl, rfl, hnew, rfl⟩ := newSerplusAuction_ok hrun
  obtain ⟨rfl, -⟩ := Auctions.newAuction_spec hnew
  obtain ⟨-, hindex⟩ := Auctions.newAuction_index hnew
  have hshape : Shape { s with
      totalSerplusInAuction := store 0 s.totalSerplusInAuction item.currency
        (StorageMap.get 0 s.totalSerplusInAuction item.currency + item.amount)
      auctions := auctions
      serplusAuctions := s.serplusAuctions.insert s.auctions.index item } := by
    refine h.grow .serplus (by simp [hindex]) (fun _ hid => .inl hid) (fun _ hid => .inl hid)
      (mem_insert_handedOut hindex rfl) fun id item' hitem' => ?_
    by_cases hid : id = s.auctions.index
    · subst hid
      rw [AList.lookup_insert] at hitem'
      exact Option.some.inj hitem' ▸ Nat.pos_of_ne_zero hamount
    · rw [AList.lookup_insert_ne hid] at hitem'
      exact h.amount_pos id item' hitem'
  refine ⟨hshape, fun hbalanced => ?_⟩
  obtain ⟨hsetter, hsettCurrency, hserplus⟩ := hbalanced.tracks
  exact .of_tracks hshape hsetter hsettCurrency
    (hserplus.insert (lookup_index_eq_none h.serplus) fun c => get_store_add _ _ c _)

omit [DecidableEq A] in
/-- Balances, references and bids are not in the books. -/
theorem Keeps.elsewhere {s₁ : State A} (h : Keeps s s₁) (l : Ledger CurrencyId A)
    (r : References A) {auctions : Auctions A} (hindex : auctions.index = s₁.auctions.index) :
    Keeps s { s₁ with ledger := l, system := r, auctions := auctions } where
  shape := h.shape.of_subset hindex.ge (fun _ hid => hid) (fun _ hid => hid) fun _ _ hitem => hitem
  balanced hs :=
    have hbalanced := h.balanced hs
    ⟨hbalanced.setter, hbalanced.settCurrency, hbalanced.serplus, hbalanced.once⟩

theorem bid_keeps {u : Unit} {who : A} {id price : ℕ} (h : Shape s)
    (hrun : (bid cfg who id price).run s = .ok u s') : Keeps s s' := by
  obtain ⟨auction, newEnd, s₁, l, -, hrebid, rfl⟩ := bid_changes hrun
  have hkeeps : Keeps s s₁ := ⟨h.rebid hrebid, fun hbalanced => hbalanced.rebid h hrebid⟩
  exact hkeeps.elsewhere l _ (by simp [hrebid.auctions_eq])

omit [DecidableEq A] in
theorem Closed.auctions_eq {id : ℕ} (h : Closed s id s') : s'.auctions = s.auctions := by
  cases h <;> rfl

theorem endAuction_keeps {u : Unit} {id : ℕ} (h : Shape s)
    (hrun : (endAuction cfg id).run s = .ok u s') : Keeps s s' := by
  obtain ⟨auction, s₁, l, -, hclosed | ⟨rfl, -⟩, rfl⟩ := endAuction_closes hrun
  · have hkeeps : Keeps s s₁ := ⟨h.closed hclosed, fun hbalanced => hbalanced.closed h hclosed⟩
    exact hkeeps.elsewhere l _ (by simp [hclosed.auctions_eq])
  · have hkeeps : Keeps s₁ s₁ := ⟨h, fun hbalanced => hbalanced⟩
    exact hkeeps.elsewhere l _ rfl

theorem cancelAuction_keeps {u : Unit} {id : ℕ} (h : Shape s)
    (hrun : (cancelAuction cfg id).run s = .ok u s') : Keeps s s' := by
  obtain ⟨s₁, l, -, hclosed, rfl⟩ := cancelAuction_closes hrun
  have hkeeps : Keeps s s₁ := ⟨h.closed hclosed, fun hbalanced => hbalanced.closed h hclosed⟩
  exact hkeeps.elsewhere l _ (by simp [hclosed.auctions_eq])

/-- **A call that succeeds keeps the books**, and does not fail late. -/
theorem AuctionCall.call_ok {u : Unit} (c : AuctionCall A) (h : Shape s)
    (hrun : (c.call cfg).run s = .ok u s') : ¬ c.failsLate cfg s ∧ Keeps s s' := by
  cases c with
  | newDiamondAuction initialAmount fix =>
      refine ⟨fun hlate => hlate.2 ?_, newDiamondAuction_keeps h hrun⟩
      obtain ⟨item, id, endBlock, auctions, -, hnew, -⟩ := newDiamondAuction_ok hrun
      exact (Auctions.newAuction_index hnew).1
  | newSetterAuction initialAmount fix c =>
      refine ⟨fun hlate => ?_, newSetterAuction_keeps h hrun⟩
      obtain ⟨hc, item, id, endBlock, auctions, -, -, hnew, -⟩ := newSetterAuction_ok hrun
      exact hlate.2.elim (fun hids => hids (Auctions.newAuction_index hnew).1) hc
  | newSerplusAuction amount c =>
      refine ⟨fun hlate => hlate.2 ?_, newSerplusAuction_keeps h hrun⟩
      obtain ⟨-, item, id, auctions, -, -, hnew, -⟩ := newSerplusAuction_ok hrun
      exact (Auctions.newAuction_index hnew).1
  | bid who id price => exact ⟨fun hlate => hlate, bid_keeps h hrun⟩
  | endAuction id => exact ⟨fun hlate => hlate, endAuction_keeps h hrun⟩
  | cancelAuction id =>
      refine ⟨fun hlate => ?_, cancelAuction_keeps h hrun⟩
      obtain ⟨s₁, l, hrefunded, -⟩ := cancelAuction_closes hrun
      rw [AuctionCall.failsLate, hrefunded.accepted] at hlate
      cases hlate

/-- **A call that fails changes nothing or breaks the books**, the latter if it fails late. -/
theorem AuctionCall.call_error {e : DispatchError} (c : AuctionCall A) (h : Shape s)
    (hrun : (c.call cfg).run s = .error e s') :
    (¬ c.failsLate cfg s ∧ s' = s) ∨
      (c.failsLate cfg s ∧ Shape s' ∧ (Balanced s → ¬ Balanced s')) := by
  cases c with
  | newDiamondAuction initialAmount fix =>
      rcases newDiamondAuction_error hrun with ⟨hchecked, rfl⟩ | ⟨hchecked, hids, rfl⟩
      · exact .inl ⟨fun hlate => hchecked hlate.1, rfl⟩
      · refine .inr ⟨⟨hchecked, hids⟩, ?_, fun hbalanced hbalanced' => ?_⟩
        · exact h.of_subset le_rfl (fun _ hid => hid) (fun _ hid => hid) fun _ _ hitem => hitem
        · have hbefore := hbalanced.setter
          have hafter := hbalanced'.setter
          have hpos := hchecked.1.2
          simp only at hafter
          omega
  | newSetterAuction initialAmount fix c =>
      rcases newSetterAuction_error hrun with ⟨hchecked, rfl⟩ | ⟨hchecked, hrefused, hs'⟩
      · exact .inl ⟨fun hlate => hchecked hlate.1, rfl⟩
      · refine .inr ⟨⟨hchecked, hrefused.imp And.left And.left⟩, ?_,
          fun hbalanced hbalanced' => ?_⟩
        · rw [hs']
          refine h.of_subset ?_ (fun _ hid => hid) (fun _ hid => hid) fun _ _ hitem => hitem
          rcases hrefused with ⟨-, hauctions⟩ | ⟨-, id, endBlock, hnew⟩
          · exact (congrArg Auctions.index hauctions).ge
          · exact (Nat.le_succ _).trans (Auctions.newAuction_index hnew).2.ge
        · have hbefore := hbalanced.settCurrency c
          have hafter := hbalanced'.settCurrency c
          have hpos := hchecked.1.2
          rw [hs'] at hafter
          simp only [get_store] at hafter
          omega
  | newSerplusAuction amount c =>
      rcases newSerplusAuction_error hrun with ⟨hchecked, rfl⟩ | ⟨hchecked, hids, rfl⟩
      · exact .inl ⟨fun hlate => hchecked hlate.1, rfl⟩
      · refine .inr ⟨⟨hchecked, hids⟩, ?_, fun hbalanced hbalanced' => ?_⟩
        · exact h.of_subset le_rfl (fun _ hid => hid) (fun _ hid => hid) fun _ _ hitem => hitem
        · have hbefore := hbalanced.serplus c
          have hafter := hbalanced'.serplus c
          have hpos := hchecked.1
          simp only [get_store] at hafter
          omega
  | bid who id price =>
      exact .inl ⟨fun hlate => hlate, Dispatch.transactional_error hrun⟩
  | endAuction id =>
      exact .inl ⟨fun hlate => hlate, failsClean_endAuction id hrun⟩
  | cancelAuction id =>
      rcases cancelAuction_error hrun with ⟨hrefund, rfl⟩ | ⟨hrefund, hdropped⟩
      · refine .inl ⟨fun hlate => ?_, rfl⟩
        rw [AuctionCall.failsLate, hrefund] at hlate
        cases hlate
      · exact .inr ⟨hrefund, h.dropped hdropped, fun hbalanced =>
          hbalanced.not_dropped h hdropped⟩

/-! ## Runs -/

/-- No auction has been opened yet. -/
structure Genesis (s : State A) : Prop where
  info : s.auctions.info = ∅
  diamondAuctions : s.diamondAuctions = ∅
  setterAuctions : s.setterAuctions = ∅
  serplusAuctions : s.serplusAuctions = ∅
  totalSetterInAuction : s.totalSetterInAuction = 0
  totalSettCurrencyInAuction : s.totalSettCurrencyInAuction = ∅
  totalSerplusInAuction : s.totalSerplusInAuction = ∅

omit [DecidableEq A] in
theorem Genesis.shape (h : Genesis s) : Shape s := by
  constructor <;>
    simp [h.diamondAuctions, h.setterAuctions, h.serplusAuctions, AList.notMem_empty]

omit [DecidableEq A] in
theorem Genesis.balanced (h : Genesis s) : Balanced s := by
  constructor <;>
    simp [h.diamondAuctions, h.setterAuctions, h.serplusAuctions, h.totalSetterInAuction,
      h.totalSettCurrencyInAuction, h.totalSerplusInAuction, AList.notMem_empty]

/-- A call that is made in a storage layer keeps the books, whatever its outcome. -/
theorem AuctionCall.extrinsic_keeps (c : AuctionCall A) (h : Shape s) :
    Keeps s (Dispatch.commit (Dispatch.transactional (c.call cfg)) s) := by
  rcases Dispatch.commit_transactional (c.call cfg) s with ⟨u, s', hrun, hc⟩ | ⟨-, hc⟩
  · rw [hc]
    exact (c.call_ok h hrun).2
  · rw [hc]
    exact ⟨h, fun hbalanced => hbalanced⟩

/-- Every step keeps the ids where they belong. -/
theorem Shape.step (h : Shape s) (a : AuctionStep A) : Shape (auctionStep cfg s a) := by
  cases a with
  | extrinsic c => exact (c.extrinsic_keeps h).shape
  | direct c =>
      rw [auctionStep]
      cases hrun : (c.call cfg).run s with
      | ok u s' =>
          rw [Dispatch.commit_of_ok hrun]
          exact (c.call_ok h hrun).2.shape
      | error e s' =>
          rw [Dispatch.commit_of_error hrun]
          rcases c.call_error h hrun with ⟨-, rfl⟩ | ⟨-, hshape, -⟩
          · exact h
          · exact hshape
  | elsewhere blockNumber ledger prices =>
      exact h.of_subset le_rfl (fun _ hid => hid) (fun _ hid => hid) fun _ _ hitem => hitem

/-- **A step keeps the totals exactly when it does not fail late.** -/
theorem Balanced.step_iff (hbalanced : Balanced s) (h : Shape s) (a : AuctionStep A) :
    Balanced (auctionStep cfg s a) ↔ ¬ FailsLate cfg s a := by
  cases a with
  | extrinsic c =>
      exact iff_of_true ((c.extrinsic_keeps h).balanced hbalanced) fun hlate => hlate
  | direct c =>
      rw [auctionStep, FailsLate]
      cases hrun : (c.call cfg).run s with
      | ok u s' =>
          rw [Dispatch.commit_of_ok hrun]
          obtain ⟨hlate, hkeeps⟩ := c.call_ok h hrun
          exact iff_of_true (hkeeps.balanced hbalanced) hlate
      | error e s' =>
          rw [Dispatch.commit_of_error hrun]
          rcases c.call_error h hrun with ⟨hlate, rfl⟩ | ⟨hlate, -, hbroken⟩
          · exact iff_of_true hbalanced hlate
          · exact iff_of_false (hbroken hbalanced) (not_not.mpr hlate)
  | elsewhere blockNumber ledger prices =>
      refine iff_of_true ?_ fun hlate => hlate
      exact ⟨hbalanced.setter, hbalanced.settCurrency, hbalanced.serplus, hbalanced.once⟩

/-- **The totals in auction are right all along a run exactly when no call of it fails late.** -/
theorem run_balanced_iff (cfg : Config A) (s₀ : State A) (h : Genesis s₀)
    (steps : List (AuctionStep A)) :
    (∀ n, Balanced (Machine.run (auctionStep cfg) s₀ (steps.take n))) ↔
      Machine.StepsMeet (auctionStep cfg) (fun s a => ¬ FailsLate cfg s a) s₀ steps := by
  have hshape : ∀ n, Shape (Machine.run (auctionStep cfg) s₀ (steps.take n)) := fun n =>
    Machine.run_invariant_always (fun _ a hs => hs.step a) h.shape _
  have hstep : ∀ s a, Shape s ∧ Balanced s →
      (Shape (auctionStep cfg s a) ∧ Balanced (auctionStep cfg s a) ↔ ¬ FailsLate cfg s a) := by
    rintro s a ⟨hs, hbalanced⟩
    rw [← hbalanced.step_iff hs a]
    exact and_iff_right (hs.step a)
  rw [← Machine.run_invariant_iff hstep ⟨h.shape, h.balanced⟩ steps]
  exact forall_congr' fun n => (and_iff_right (hshape n)).symm

/-- A diamond auction is opened and bid on twice, and ends; a setter auction in Setter is asked
for by the treasury, a serplus auction opened and cancelled. -/
def sampleSteps : List (AuctionStep ℕ) :=
  [.extrinsic (.newDiamondAuction 200 100), .direct (.bid 1 0 100), .direct (.bid 2 0 200),
    .direct (.endAuction 0), .extrinsic (.newSetterAuction 10 10 (.Token .SETT)),
    .extrinsic (.newSerplusAuction 50 (.Token .USDJ)), .direct (.cancelAuction 1)]

theorem sampleState_genesis : Genesis (sampleState (10 ^ 18)) :=
  ⟨rfl, rfl, rfl, rfl, rfl, rfl, rfl⟩

theorem sampleSteps_balanced :
    Balanced (Machine.run (auctionStep sampleConfig) (sampleState (10 ^ 18))
      (sampleSteps.take 7)) :=
  (run_balanced_iff sampleConfig (sampleState (10 ^ 18)) sampleState_genesis sampleSteps).mpr
    (by decide +kernel) 7

/-- A setter auction in Setter, asked for outside a storage layer, is refused after the total is
raised. -/
def refusedSteps : List (AuctionStep ℕ) := [.direct (.newSetterAuction 10 10 (.Token .SETT))]

/-- The ledger when as much Setter has been issued as there can be. -/
def fullLedger : Ledger CurrencyId ℕ where
  free _ _ := 0
  issuance _ := Balance.maxValue
  free_le _ _ := Nat.zero_le _
  issuance_le _ := le_rfl

/-- The refund of a cancelled diamond auction cannot be issued. -/
def unrefundedSteps : List (AuctionStep ℕ) :=
  [.direct (.newDiamondAuction 200 100), .direct (.bid 1 0 100),
    .elsewhere 5 fullLedger (sampleState (10 ^ 18)).prices, .direct (.cancelAuction 0)]

/-- **Calls that fail late leave a total without its auction.** -/
theorem failed_late_unbalanced :
    Genesis (sampleState (10 ^ 18)) ∧
      ¬ Balanced (Machine.run (auctionStep sampleConfig) (sampleState (10 ^ 18)) refusedSteps) ∧
      ¬ Balanced
        (Machine.run (auctionStep sampleConfig) (sampleState (10 ^ 18)) unrefundedSteps) := by
  refine ⟨sampleState_genesis, ?_, ?_⟩
  · intro h
    have hsettCurrency := h.settCurrency (.Token .SETT)
    revert hsettCurrency
    decide +kernel
  · intro h
    have hsetter := h.setter
    revert hsetter
    decide +kernel

end Setheum.Serp
