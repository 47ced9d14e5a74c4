import Setheum.Democracy.Deposits
import Setheum.Democracy.Locks

/-!
# Are the deposits of democracy conserved?

The books list the deposits that were placed on each proposal, as the calls placed them. What an
account has reserved in a currency should be what it placed in that currency on the proposals that
are queued, with its deposits for preimages.

The record of a proposal has one currency for all depositors, that of the last one. A proposal
that leaves the queue is settled in it, whatever the deposits were placed in; and the queue can be
cleared without settling anything.

* `Placed`, `record` — the books, and how the chain's moves fill them.
* `Booked` — what the records of the chain have in common with the books in every state.
* `conserved_release`, `conserved_cleared` — when the ways out of the queue keep the deposits.
* `conserved_of_run` — over every run, exactly when every move is `Respectful`.
-/

set_option autoImplicit false

namespace Setheum.Democracy

open StorageMap

variable {A H : Type} [DecidableEq A] [DecidableEq H]

/-! ## The books -/

/-- A deposit as it was placed. -/
structure Placed (A : Type) where
  who : A
  currency : CurrencyId
  amount : ℕ
  deriving DecidableEq

/-- The deposits placed on each proposal, in order. -/
abbrev Books (A : Type) := ℕ → List (Placed A)

/-- The deposit that a successful call places, with the proposal it is for. -/
def Call.places (s : State A H) : Call A H → Option (ℕ × Placed A)
  | .propose who _ c value => some (s.publicPropCount, ⟨who, c, value⟩)
  | .second who proposal c _ =>
      (s.depositOf.lookup proposal).map fun d => (proposal, ⟨who, c, d.amount⟩)
  | _ => none

/-- Enter a deposit. -/
def Books.place (books : Books A) (i : ℕ) (e : Placed A) : Books A :=
  Function.update books i (books i ++ [e])

/-- The books after a move. -/
def enter (cfg : Config A H) (st : State A H × Books A) : Move A H → Books A
  | .act (.call c) =>
      match c.places st.1 with
      | some (i, e) => if Dispatch.succeeds (c.call cfg) st.1 then st.2.place i e else st.2
      | none => st.2
  | _ => st.2

/-- The chain with the books kept beside it. -/
def record (cfg : Config A H) (st : State A H × Books A) (m : Move A H) : State A H × Books A :=
  (move cfg st.1 m, enter cfg st m)

/-- What an account placed in a currency. -/
def placedBy (l : List (Placed A)) (c : CurrencyId) (who : A) : ℕ :=
  (l.map fun e => if e.currency = c ∧ e.who = who then e.amount else 0).sum

/-- The deposit for a preimage, if it is the account's and in the currency. -/
def PreimageStatus.depositBy (c : CurrencyId) (who : A) : PreimageStatus A → ℕ
  | missing _ => 0
  | available p => if p.currency = c ∧ p.provider = who then p.deposit else 0

/-- What an account placed in a currency on the proposals that are queued. -/
def Deposits.onQueue (v : Deposits A H) (books : Books A) (c : CurrencyId) (who : A) : ℕ :=
  (v.queue.map fun i => placedBy (books i) c who).sum

/-- The outstanding deposits of an account for preimages. -/
def Deposits.onPreimages (v : Deposits A H) (c : CurrencyId) (who : A) : ℕ :=
  sumBy (fun _ p => p.depositBy c who) v.preimages

/-- Every reserved balance is the account's deposits. -/
def Deposits.Conserved (v : Deposits A H) (books : Books A) : Prop :=
  ∀ c who, (v.tokens c).reserved who = v.onQueue books c who + v.onPreimages c who

/-- What the records say agrees with the books, but for the currencies. -/
structure Booked (v : Deposits A H) (books : Books A) : Prop where
  nodup : v.queue.Nodup
  fresh : ∀ i, v.publicPropCount ≤ i → books i = [] ∧ v.depositOf.lookup i = none
  recorded : ∀ i ∈ v.queue, ∃ d, v.depositOf.lookup i = some d
  agrees : ∀ i d, v.depositOf.lookup i = some d →
    books i ≠ [] ∧ (books i).map Placed.who = d.depositors ∧ ∀ e ∈ books i, e.amount = d.amount
  /-- What is on record for a proposal that is not queued weighs nothing. -/
  leftover : ∀ i d, v.depositOf.lookup i = some d → i ∉ v.queue → d.amount = 0
  conserved : v.Conserved books

/-- All deposits on a proposal were placed in the currency on record, or amount to nothing. -/
def InCurrency (v : Deposits A H) (books : Books A) (i : ℕ) : Prop :=
  ∀ d, v.depositOf.lookup i = some d → d.amount = 0 ∨ ∀ e ∈ books i, e.currency = d.currency

/-! ## What is placed -/

omit [DecidableEq A] in
theorem sum_map_update {l : List ℕ} (hl : l.Nodup) (f : ℕ → ℕ) (i n : ℕ) :
    (l.map (Function.update f i (f i + n))).sum = (l.map f).sum + if i ∈ l then n else 0 := by
  induction l with
  | nil => simp
  | cons j l ih =>
      obtain ⟨hj, hl⟩ := List.nodup_cons.mp hl
      rw [List.map_cons, List.sum_cons, List.map_cons, List.sum_cons, ih hl]
      by_cases hij : i = j
      · subst hij
        simp [hj]
        omega
      · rw [Function.update_of_ne (Ne.symm hij)]
        simp [hij]
        omega

section Placing

variable {v v' : Deposits A H} {books : Books A} {c : CurrencyId} {who : A} {i : ℕ}

@[simp] theorem placedBy_nil (c : CurrencyId) (who : A) : placedBy [] c who = 0 := rfl

theorem placedBy_append (l l' : List (Placed A)) (c : CurrencyId) (who : A) :
    placedBy (l ++ l') c who = placedBy l c who + placedBy l' c who := by
  simp [placedBy]

theorem placedBy_singleton (e : Placed A) (c : CurrencyId) (who : A) :
    placedBy [e] c who = if e.currency = c ∧ e.who = who then e.amount else 0 := by
  simp [placedBy]

theorem amount_le_placedBy {l : List (Placed A)} {e : Placed A} (he : e ∈ l) :
    e.amount ≤ placedBy l e.currency e.who := by
  have hmem : e.amount ∈
      l.map fun e' => if e'.currency = e.currency ∧ e'.who = e.who then e'.amount else 0 :=
    List.mem_map.mpr ⟨e, he, by simp⟩
  exact List.single_le_sum (fun _ _ => Nat.zero_le _) _ hmem

/-- Deposits of one amount in one currency. -/
theorem placedBy_of_uniform {l : List (Placed A)} {n : ℕ} (c₀ : CurrencyId)
    (hamount : ∀ e ∈ l, e.amount = n) (hcurrency : n = 0 ∨ ∀ e ∈ l, e.currency = c₀)
    (c : CurrencyId) (who : A) :
    placedBy l c who = if c = c₀ then (l.map Placed.who).count who * n else 0 := by
  induction l with
  | nil => simp
  | cons e l ih =>
      have he : e.amount = n := hamount e List.mem_cons_self
      have hrest := ih (fun e' he' => hamount e' (List.mem_cons_of_mem e he'))
        (hcurrency.imp_right fun h e' he' => h e' (List.mem_cons_of_mem e he'))
      have hcons : placedBy (e :: l) c who =
          (if e.currency = c ∧ e.who = who then e.amount else 0) + placedBy l c who := by
        simp [placedBy]
      rw [hcons, hrest, he, List.map_cons, List.count_cons]
      rcases hcurrency with hn | hc₀
      · simp [hn]
      · rw [hc₀ e List.mem_cons_self]
        by_cases hc : c = c₀
        · subst hc
          by_cases hwho : e.who = who
          · subst hwho
            simp [Nat.add_mul]
            omega
          · simp [hwho]
        · simp [hc, Ne.symm hc]

omit [DecidableEq H] in
/-- A deposit counts if its proposal is queued. -/
theorem onQueue_place (hnodup : v.queue.Nodup) (books : Books A) (i : ℕ) (e : Placed A)
    (c : CurrencyId) (who : A) :
    v.onQueue (books.place i e) c who =
      v.onQueue books c who + if i ∈ v.queue then placedBy [e] c who else 0 := by
  rw [Deposits.onQueue, Deposits.onQueue, ← sum_map_update hnodup]
  congr 1
  refine List.map_congr_left fun j _ => ?_
  by_cases hj : j = i
  · subst hj
    simp [Books.place, placedBy_append]
  · simp [Books.place, Function.update_of_ne hj]

omit [DecidableEq H] in
theorem Booked.placed_zero (h : Booked v books) {d : Deposit A}
    (hd : v.depositOf.lookup i = some d) (hzero : d.amount = 0) (c : CurrencyId) (who : A) :
    placedBy (books i) c who = 0 := by
  have hamount := (h.agrees i d hd).2.2
  rw [placedBy_of_uniform (n := 0) c (fun e he => by rw [hamount e he, hzero]) (.inl rfl)]
  simp

end Placing

/-! ## What keeps the books right -/

section Keeping

variable {v v' : Deposits A H} {books : Books A} {c : CurrencyId} {who : A} {i : ℕ}

omit [DecidableEq H] in
/-- Only balances and preimages change. -/
theorem Booked.of_sameQueue (h : Booked v books) (hcount : v'.publicPropCount = v.publicPropCount)
    (hprops : v'.publicProps = v.publicProps) (hdepositOf : v'.depositOf = v.depositOf)
    (hconserved : v'.Conserved books) : Booked v' books := by
  have hqueue : v'.queue = v.queue := by rw [Deposits.queue, hprops, Deposits.queue]
  exact
    { nodup := by rw [hqueue]; exact h.nodup
      fresh := by rw [hcount, hdepositOf]; exact h.fresh
      recorded := by rw [hqueue, hdepositOf]; exact h.recorded
      agrees := by rw [hdepositOf]; exact h.agrees
      leftover := by rw [hqueue, hdepositOf]; exact h.leftover
      conserved := hconserved }

omit [DecidableEq H] in
/-- What is reserved or freed is a deposit for a preimage. -/
theorem Deposits.Conserved.of_preimages (h : v.Conserved books)
    (hprops : v'.publicProps = v.publicProps)
    (hreserved : ∀ c who, (v'.tokens c).reserved who + v.onPreimages c who
      = (v.tokens c).reserved who + v'.onPreimages c who) : v'.Conserved books := by
  intro c who
  have hsame : v'.onQueue books c who = v.onQueue books c who := by
    rw [Deposits.onQueue, Deposits.queue, hprops, Deposits.onQueue, Deposits.queue]
  have hbefore := h c who
  have hafter := hreserved c who
  omega

omit [DecidableEq H] in
/-- What is reserved beyond the preimages is what is placed. -/
theorem Deposits.Conserved.of_place (h : v.Conserved books) {e : Placed A} {r : Reserves A}
    {rules : Reserves.Rules A}
    (hr : Reserves.reserve rules e.who e.amount (v.tokens e.currency) = .ok r)
    (htokens : v'.tokens = fun c => if c = e.currency then r else v.tokens c)
    (hpreimages : v'.preimages = v.preimages)
    (hqueue : ∀ c who, v'.onQueue (books.place i e) c who =
      v.onQueue books c who + placedBy [e] c who) : v'.Conserved (books.place i e) := by
  intro c who
  have hbefore := h c who
  rw [hqueue c who, Deposits.onPreimages, hpreimages, htokens]
  dsimp only
  rw [placedBy_singleton]
  unfold Deposits.onPreimages at hbefore
  by_cases hc : c = e.currency
  · subst hc
    rw [if_pos rfl, Reserves.reserve_reserved hr]
    by_cases hwho : who = e.who
    · subst hwho
      simp
      omega
    · simp [hwho, Ne.symm hwho]
      omega
  · rw [if_neg hc]
    simp [Ne.symm hc]
    omega

omit [DecidableEq H] in
/-- A new proposal, with the deposit of its proposer. -/
theorem Booked.propose (h : Booked v books) {c : CurrencyId} {who : A} {value : ℕ} {r : Reserves A}
    {rules : Reserves.Rules A} (proposal : H)
    (hr : Reserves.reserve rules who value (v.tokens c) = .ok r) :
    Booked { v with
        tokens := fun c' => if c' = c then r else v.tokens c'
        publicPropCount := v.publicPropCount + 1
        depositOf := v.depositOf.insert v.publicPropCount ⟨[who], c, value⟩
        publicProps := v.publicProps ++ [(v.publicPropCount, proposal, who)] }
      (books.place v.publicPropCount ⟨who, c, value⟩) := by
  obtain ⟨hempty, hnone⟩ := h.fresh v.publicPropCount le_rfl
  have hnew : v.publicPropCount ∉ v.queue := fun hmem => by
    obtain ⟨d, hd⟩ := h.recorded _ hmem
    rw [hnone] at hd
    cases hd
  set v' : Deposits A H := { v with
        tokens := fun c' => if c' = c then r else v.tokens c'
        publicPropCount := v.publicPropCount + 1
        depositOf := v.depositOf.insert v.publicPropCount ⟨[who], c, value⟩
        publicProps := v.publicProps ++ [(v.publicPropCount, proposal, who)] } with hv'
  have hqueue : v'.queue = v.queue ++ [v.publicPropCount] := by
    simp [hv', Deposits.queue]
  have hnodup : v'.queue.Nodup := by
    rw [hqueue]
    exact List.Nodup.append h.nodup (List.nodup_singleton _)
      fun x hx hx' => hnew (List.mem_singleton.mp hx' ▸ hx)
  refine
    { nodup := hnodup
      fresh := fun i hi => ?_
      recorded := fun i hi => ?_
      agrees := fun i d hd => ?_
      leftover := fun i d hd hi => ?_
      conserved := ?_ }
  · have hne : i ≠ v.publicPropCount := by
      have : v.publicPropCount + 1 ≤ i := hi
      omega
    obtain ⟨hempty, hnone⟩ := h.fresh i (by have : v.publicPropCount + 1 ≤ i := hi; omega)
    refine ⟨?_, (AList.lookup_insert_ne hne).trans hnone⟩
    rw [Books.place, Function.update_of_ne hne, hempty]
  · by_cases hne : i = v.publicPropCount
    · subst hne
      exact ⟨_, AList.lookup_insert _⟩
    · rw [hqueue, List.mem_append, List.mem_singleton] at hi
      obtain ⟨d, hd⟩ := h.recorded i (hi.resolve_right hne)
      exact ⟨d, (AList.lookup_insert_ne hne).trans hd⟩
  · by_cases hne : i = v.publicPropCount
    · subst hne
      cases (AList.lookup_insert _).symm.trans hd
      simp [Books.place, hempty]
    · rw [Books.place, Function.update_of_ne hne]
      exact h.agrees i d ((AList.lookup_insert_ne hne).symm.trans hd)
  · rw [hqueue, List.mem_append, List.mem_singleton, not_or] at hi
    exact h.leftover i d ((AList.lookup_insert_ne hi.2).symm.trans hd) hi.1
  · refine h.conserved.of_place hr rfl rfl fun c' who' => ?_
    have hsame : (v.queue.map fun i => placedBy
        (books.place v.publicPropCount ⟨who, c, value⟩ i) c' who') =
        v.queue.map fun i => placedBy (books i) c' who' := by
      refine List.map_congr_left fun i hi => ?_
      have hne : i ≠ v.publicPropCount := fun he => hnew (he ▸ hi)
      rw [Books.place, Function.update_of_ne hne]
    rw [Deposits.onQueue, hqueue, List.map_append, List.sum_append, hsame, Deposits.onQueue]
    simp [Books.place, hempty]

omit [DecidableEq H] in
/-- A seconder's deposit, in whatever currency. -/
theorem Booked.second (h : Booked v books) {c : CurrencyId} {who : A} {d : Deposit A}
    {r : Reserves A} {rules : Reserves.Rules A} (hd : v.depositOf.lookup i = some d)
    (hr : Reserves.reserve rules who d.amount (v.tokens c) = .ok r) :
    Booked { v with
        tokens := fun c' => if c' = c then r else v.tokens c'
        depositOf := v.depositOf.insert i ⟨d.depositors ++ [who], c, d.amount⟩ }
      (books.place i ⟨who, c, d.amount⟩) := by
  obtain ⟨hne, hwhos, hamounts⟩ := h.agrees i d hd
  have hlt : i < v.publicPropCount := by
    by_contra hge
    rw [(h.fresh i (Nat.not_lt.mp hge)).2] at hd
    cases hd
  refine
    { nodup := h.nodup
      fresh := fun j hj => ?_
      recorded := fun j hj => ?_
      agrees := fun j d' hd' => ?_
      leftover := fun j d' hd' hj => ?_
      conserved := ?_ }
  · have hji : j ≠ i := by
      have : v.publicPropCount ≤ j := hj
      omega
    obtain ⟨hempty, hnone⟩ := h.fresh j hj
    refine ⟨?_, (AList.lookup_insert_ne hji).trans hnone⟩
    rw [Books.place, Function.update_of_ne hji, hempty]
  · by_cases hji : j = i
    · subst hji
      exact ⟨_, AList.lookup_insert _⟩
    · obtain ⟨d', hd'⟩ := h.recorded j hj
      exact ⟨d', (AList.lookup_insert_ne hji).trans hd'⟩
  · by_cases hji : j = i
    · subst hji
      cases (AList.lookup_insert _).symm.trans hd'
      simp only [Books.place, Function.update_self, List.map_append, hwhos]
      refine ⟨by simp, rfl, fun e he => ?_⟩
      rcases List.mem_append.mp he with he | he
      · exact hamounts e he
      · rw [List.mem_singleton.mp he]
    · rw [Books.place, Function.update_of_ne hji]
      exact h.agrees j d' ((AList.lookup_insert_ne hji).symm.trans hd')
  · by_cases hji : j = i
    · subst hji
      cases (AList.lookup_insert _).symm.trans hd'
      exact h.leftover j d hd hj
    · exact h.leftover j d' ((AList.lookup_insert_ne hji).symm.trans hd') hj
  · refine h.conserved.of_place hr rfl rfl fun c' who' => ?_
    have hplace := onQueue_place h.nodup books i ⟨who, c, d.amount⟩ c' who'
    by_cases hi : i ∈ v.queue
    · rw [if_pos hi] at hplace
      exact hplace
    · rw [if_neg hi] at hplace
      have hzero : placedBy [(⟨who, c, d.amount⟩ : Placed A)] c' who' = 0 := by
        rw [placedBy_singleton]
        simp [h.leftover i d hd hi]
      rw [hzero]
      exact hplace

/-! ## Leaving the queue -/

/-- The proposal is taken off the queue, or was not queued. -/
def TakenOff (i : ℕ) (props props' : List (ℕ × H × A)) : Prop :=
  (∃ p, p.1 = i ∧ props.Perm (p :: props')) ∨ (i ∉ props.map Prod.fst ∧ props' = props)

variable {d : Deposit A} {props' : List (ℕ × H × A)} {take : A → Reserves A → Reserves A}

omit [DecidableEq A] [DecidableEq H] in
theorem TakenOff.perm {props : List (ℕ × H × A)} (h : TakenOff i props props')
    (hi : i ∈ props.map Prod.fst) : (props.map Prod.fst).Perm (i :: props'.map Prod.fst) := by
  rcases h with ⟨p, rfl, hperm⟩ | ⟨hnot, -⟩
  · exact hperm.map Prod.fst
  · exact absurd hi hnot

omit [DecidableEq A] [DecidableEq H] in
theorem TakenOff.mem_iff {props : List (ℕ × H × A)} (h : TakenOff i props props')
    (hnodup : (props.map Prod.fst).Nodup) (j : ℕ) :
    j ∈ props'.map Prod.fst ↔ j ∈ props.map Prod.fst ∧ j ≠ i := by
  by_cases hi : i ∈ props.map Prod.fst
  · have hperm := h.perm hi
    have hnew : i ∉ props'.map Prod.fst := (List.nodup_cons.mp (hperm.nodup_iff.mp hnodup)).1
    rw [hperm.mem_iff, List.mem_cons]
    constructor
    · exact fun hj => ⟨.inr hj, fun hji => hnew (hji ▸ hj)⟩
    · exact fun hj => hj.1.resolve_left hj.2
  · rcases h with ⟨p, rfl, hperm⟩ | ⟨-, rfl⟩
    · exact absurd ((hperm.map Prod.fst).mem_iff.mpr List.mem_cons_self) hi
    · exact ⟨fun hj => ⟨hj, fun hji => hi (hji ▸ hj)⟩, And.left⟩

omit [DecidableEq H] in
/-- What is on the queue is what stays and what leaves. -/
theorem Booked.onQueue_takenOff (h : Booked v books) (hd : v.depositOf.lookup i = some d)
    (hoff : TakenOff i v.publicProps props') (take : A → Reserves A → Reserves A)
    (c : CurrencyId) (who : A) :
    v.onQueue books c who =
      (v.release i d props' take).onQueue books c who + placedBy (books i) c who := by
  by_cases hi : i ∈ v.queue
  · have hperm := hoff.perm hi
    rw [Deposits.onQueue, Deposits.queue, (hperm.map _).sum_eq, List.map_cons, List.sum_cons,
      Nat.add_comm]
    rfl
  · have hsame : props' = v.publicProps := by
      rcases hoff with ⟨p, rfl, hperm⟩ | ⟨-, hsame⟩
      · exact absurd ((hperm.map Prod.fst).mem_iff.mpr List.mem_cons_self) hi
      · exact hsame
    rw [h.placed_zero hd (h.leftover i d hd hi), Nat.add_zero, hsame]
    rfl

omit [DecidableEq H] in
theorem release_reserved
    (htake : ∀ who r a, (take who r).reserved a = r.reserved a - if a = who then d.amount else 0)
    (c : CurrencyId) (who : A) :
    ((v.release i d props' take).tokens c).reserved who = (v.tokens c).reserved who -
      if c = d.currency then d.depositors.count who * d.amount else 0 := by
  dsimp only [Deposits.release]
  split
  · exact Reserves.foldl_reserved htake d.depositors _ who
  · rfl

omit [DecidableEq H] in
/-- Every depositor loses what it placed, if it placed it in the currency on record. -/
theorem Booked.release_reserved_add (h : Booked v books) (hd : v.depositOf.lookup i = some d)
    (hoff : TakenOff i v.publicProps props')
    (htake : ∀ who r a, (take who r).reserved a = r.reserved a - if a = who then d.amount else 0)
    (hin : InCurrency v books i) (c : CurrencyId) (who : A) :
    ((v.release i d props' take).tokens c).reserved who + placedBy (books i) c who =
      (v.tokens c).reserved who := by
  obtain ⟨-, hwhos, hamounts⟩ := h.agrees i d hd
  have hbefore := h.conserved c who
  have hqueue := h.onQueue_takenOff hd hoff take c who
  have hplaced := placedBy_of_uniform d.currency hamounts (hin d hd) c who
  rw [hwhos] at hplaced
  rw [release_reserved htake]
  omega

omit [DecidableEq H] in
/-- **A proposal that leaves is settled** if its deposits were placed in the currency on record. -/
theorem Booked.release (h : Booked v books) (hd : v.depositOf.lookup i = some d)
    (hoff : TakenOff i v.publicProps props')
    (htake : ∀ who r a, (take who r).reserved a = r.reserved a - if a = who then d.amount else 0)
    (hin : InCurrency v books i) : Booked (v.release i d props' take) books := by
  have hmem : ∀ j, j ∈ (v.release i d props' take).queue ↔ j ∈ v.queue ∧ j ≠ i :=
    hoff.mem_iff h.nodup
  have hlookup : ∀ j, j ≠ i →
      (v.release i d props' take).depositOf.lookup j = v.depositOf.lookup j :=
    fun j hj => AList.lookup_erase_ne hj
  have herased : (v.release i d props' take).depositOf.lookup i = none :=
    AList.lookup_erase i _
  refine
    { nodup := ?_
      fresh := fun j hj => ?_
      recorded := fun j hj => ?_
      agrees := fun j d' hd' => ?_
      leftover := fun j d' hd' hj => ?_
      conserved := fun c who => ?_ }
  · by_cases hi : i ∈ v.queue
    · exact (List.nodup_cons.mp ((hoff.perm hi).nodup_iff.mp h.nodup)).2
    · rcases hoff with ⟨p, rfl, hperm⟩ | ⟨-, rfl⟩
      · exact absurd ((hperm.map Prod.fst).mem_iff.mpr List.mem_cons_self) hi
      · exact h.nodup
  · obtain ⟨hempty, hnone⟩ := h.fresh j hj
    refine ⟨hempty, ?_⟩
    by_cases hji : j = i
    · rw [hji, herased]
    · rw [hlookup j hji, hnone]
  · obtain ⟨hj, hji⟩ := (hmem j).mp hj
    rw [hlookup j hji]
    exact h.recorded j hj
  · have hji : j ≠ i := by
      rintro rfl
      rw [herased] at hd'
      cases hd'
    exact h.agrees j d' ((hlookup j hji).symm.trans hd')
  · have hji : j ≠ i := by
      rintro rfl
      rw [herased] at hd'
      cases hd'
    exact h.leftover j d' ((hlookup j hji).symm.trans hd') fun hq => hj ((hmem j).mpr ⟨hq, hji⟩)
  · have hbefore := h.conserved c who
    have hqueue := h.onQueue_takenOff hd hoff take c who
    have hreserved := h.release_reserved_add hd hoff htake hin c who
    have hsame : (v.release i d props' take).onPreimages c who = v.onPreimages c who := rfl
    omega

omit [DecidableEq H] in
/-- It is not settled otherwise: nobody gets a deposit in another currency back. -/
theorem Booked.inCurrency_of_release (h : Booked v books)
    (hd : v.depositOf.lookup i = some d) (hoff : TakenOff i v.publicProps props')
    (htake : ∀ who r a, (take who r).reserved a = r.reserved a - if a = who then d.amount else 0)
    (hafter : (v.release i d props' take).Conserved books) : InCurrency v books i := by
  intro d' hd'
  cases hd.symm.trans hd'
  refine or_iff_not_imp_left.mpr fun hpos e he => ?_
  by_contra hne
  have hplaced : placedBy (books i) e.currency e.who = 0 := by
    have hbefore := h.conserved e.currency e.who
    have hlater := hafter e.currency e.who
    have hqueue := h.onQueue_takenOff hd hoff take e.currency e.who
    rw [release_reserved htake, if_neg hne] at hlater
    have hsame : (v.release i d props' take).onPreimages e.currency e.who =
        v.onPreimages e.currency e.who := rfl
    omega
  have hle := amount_le_placedBy he
  rw [(h.agrees i d hd).2.2 e he, hplaced] at hle
  exact hpos (Nat.le_zero.mp hle)

/-- Nothing of value is on the queue. -/
def NothingQueued (v : Deposits A H) : Prop :=
  ∀ i ∈ v.queue, ∀ d, v.depositOf.lookup i = some d → d.amount = 0

omit [DecidableEq H] in
theorem Booked.onQueue_eq_zero (h : Booked v books) (hnothing : NothingQueued v) (c : CurrencyId)
    (who : A) : v.onQueue books c who = 0 := by
  refine List.sum_eq_zero fun x hx => ?_
  obtain ⟨i, hi, rfl⟩ := List.mem_map.mp hx
  obtain ⟨d, hd⟩ := h.recorded i hi
  exact h.placed_zero hd (hnothing i hi d hd) c who

omit [DecidableEq H] in
/-- The queue can be cleared when nothing of value is on it. -/
theorem Booked.clear (h : Booked v books) (hnothing : NothingQueued v) :
    Booked { v with publicProps := [] } books where
  nodup := List.nodup_nil
  fresh := h.fresh
  recorded _ hi := nomatch hi
  agrees := h.agrees
  leftover i d hd _ := by
    by_cases hi : i ∈ v.queue
    · exact hnothing i hi d hd
    · exact h.leftover i d hd hi
  conserved c who := by
    have hbefore := h.conserved c who
    rw [h.onQueue_eq_zero hnothing] at hbefore
    exact hbefore

omit [DecidableEq H] in
/-- And only then. -/
theorem Booked.nothingQueued_of_clear (h : Booked v books)
    (hafter : ({ v with publicProps := [] } : Deposits A H).Conserved books) :
    NothingQueued v := by
  intro i hi d hd
  obtain ⟨hne, -, hamounts⟩ := h.agrees i d hd
  obtain ⟨e, he⟩ := List.exists_mem_of_ne_nil _ hne
  have hzero : v.onQueue books e.currency e.who = 0 := by
    have hbefore := h.conserved e.currency e.who
    have hlater : (v.tokens e.currency).reserved e.who =
        0 + v.onPreimages e.currency e.who := hafter e.currency e.who
    omega
  have hle : placedBy (books i) e.currency e.who ≤ v.onQueue books e.currency e.who :=
    List.single_le_sum (fun _ _ => Nat.zero_le _) _ (List.mem_map.mpr ⟨i, hi, rfl⟩)
  have hamount := amount_le_placedBy he
  rw [hamounts e he] at hamount
  omega

/-! ## Preimages -/

theorem depositBy_available (p : Preimage A) (c : CurrencyId) (who : A) :
    (PreimageStatus.available p).depositBy c who =
      if p.currency = c ∧ p.provider = who then p.deposit else 0 := rfl

/-- The deposit for a preimage leaves with it. -/
theorem Booked.takePreimage (h : Booked v books) {hash : H} {p : Preimage A} {r : Reserves A}
    (hp : v.preimages.lookup hash = some (.available p))
    (hr : ∀ a, r.reserved a =
      (v.tokens p.currency).reserved a - if a = p.provider then p.deposit else 0) :
    Booked { v with
        tokens := fun c => if c = p.currency then r else v.tokens c
        preimages := v.preimages.erase hash } books := by
  refine h.of_sameQueue rfl rfl rfl (h.conserved.of_preimages rfl fun c who => ?_)
  have herase := sumBy_erase_add (fun _ q => q.depositBy c who) v.preimages hash
  rw [weightAt_of_lookup _ hp] at herase
  rw [depositBy_available] at herase
  have hconserved := h.conserved c who
  have hbefore : v.onPreimages c who = sumBy (fun _ q => q.depositBy c who) v.preimages := rfl
  unfold Deposits.onPreimages
  dsimp only
  by_cases hc : c = p.currency
  · subst hc
    rw [if_pos rfl, hr]
    by_cases hwho : who = p.provider
    · subst hwho
      rw [if_pos ⟨rfl, rfl⟩] at herase
      rw [if_pos rfl]
      omega
    · have hne : ¬ (p.currency = p.currency ∧ p.provider = who) := fun h' => hwho h'.2.symm
      rw [if_neg hne] at herase
      rw [if_neg hwho]
      omega
  · have hne : ¬ (p.currency = c ∧ p.provider = who) := fun h' => hc h'.1.symm
    rw [if_neg hne] at herase
    rw [if_neg hc]
    omega

/-- What is known of a preimage changes, but not its deposit. -/
theorem Booked.setPreimage (h : Booked v books) {hash : H} {p : PreimageStatus A}
    (hp : ∀ c who, p.depositBy c who =
      weightAt (fun _ q => q.depositBy c who) v.preimages hash) :
    Booked { v with preimages := v.preimages.insert hash p } books := by
  refine h.of_sameQueue rfl rfl rfl (h.conserved.of_preimages rfl fun c who => ?_)
  have hinsert := sumBy_insert_add (fun _ q => q.depositBy c who) v.preimages hash p
  have hsame := hp c who
  unfold Deposits.onPreimages
  dsimp only at hinsert ⊢
  omega

/-- A deposit for a new preimage. -/
theorem Booked.placePreimage (h : Booked v books) {hash : H} {p : Preimage A} {r : Reserves A}
    {rules : Reserves.Rules A} (hnew : v.preimages.lookup hash = none)
    (hr : Reserves.reserve rules p.provider p.deposit (v.tokens p.currency) = .ok r) :
    Booked { v with
        tokens := fun c => if c = p.currency then r else v.tokens c
        preimages := v.preimages.insert hash (.available p) } books := by
  refine h.of_sameQueue rfl rfl rfl (h.conserved.of_preimages rfl fun c who => ?_)
  have hinsert := sumBy_insert_add (fun _ q => q.depositBy c who) v.preimages hash (.available p)
  rw [weightAt_of_notMem _ hnew] at hinsert
  rw [depositBy_available] at hinsert
  unfold Deposits.onPreimages
  dsimp only
  by_cases hc : c = p.currency
  · subst hc
    rw [if_pos rfl, Reserves.reserve_reserved hr]
    by_cases hwho : who = p.provider
    · subst hwho
      rw [if_pos ⟨rfl, rfl⟩] at hinsert
      rw [if_pos rfl]
      omega
    · have hne : ¬ (p.currency = p.currency ∧ p.provider = who) := fun h' => hwho h'.2.symm
      rw [if_neg hne] at hinsert
      rw [if_neg hwho]
      omega
  · have hne : ¬ (p.currency = c ∧ p.provider = who) := fun h' => hc h'.1.symm
    rw [if_neg hne] at hinsert
    rw [if_neg hc]
    omega

/-- A preimage without a deposit is given up. -/
theorem Booked.forgetPreimage (h : Booked v books) {hash : H}
    (hp : ∀ c who, weightAt (fun _ q => q.depositBy c who) v.preimages hash = 0) :
    Booked { v with preimages := v.preimages.erase hash } books := by
  refine h.of_sameQueue rfl rfl rfl (h.conserved.of_preimages rfl fun c who => ?_)
  have herase := sumBy_erase_add (fun _ q => q.depositBy c who) v.preimages hash
  have hzero := hp c who
  unfold Deposits.onPreimages
  dsimp only at herase ⊢
  omega

end Keeping

/-! ## What each move does to the books -/

section Moves

variable {cfg : Config A H} {s : State A H} {books : Books A}

omit [DecidableEq A] in
theorem lookup_of_availablePreimage {hash : H} {p : Preimage A}
    (h : s.availablePreimage hash = some p) : s.preimages.lookup hash = some (.available p) := by
  obtain ⟨status, hstatus, hp⟩ := Option.bind_eq_some_iff.mp h
  cases status with
  | missing expiry => cases hp
  | available q =>
      cases hp
      exact hstatus

theorem depositBy_of_notAvailable {hash : H} (h : s.availablePreimage hash = none)
    (c : CurrencyId) (who : A) :
    weightAt (fun _ q => q.depositBy c who) s.preimages hash = 0 := by
  cases hlookup : s.preimages.lookup hash with
  | none => exact weightAt_of_notMem _ hlookup
  | some status =>
      rw [weightAt_of_lookup _ hlookup]
      cases status with
      | missing expiry => rfl
      | available p =>
          rw [State.availablePreimage, hlookup] at h
          cases h

omit [DecidableEq A] [DecidableEq H] in
theorem takenOff_filter {i : ℕ} {props : List (ℕ × H × A)}
    (hnodup : (props.map Prod.fst).Nodup) :
    TakenOff i props (props.filter fun p => p.1 ≠ i) := by
  induction props with
  | nil => exact .inr ⟨List.not_mem_nil, rfl⟩
  | cons p props ih =>
      obtain ⟨hp, hnodup⟩ := List.nodup_cons.mp hnodup
      by_cases hi : p.1 = i
      · have hkept : ∀ q ∈ props, decide (q.1 ≠ i) = true := by
          intro q hq
          refine decide_eq_true fun hqi => hp (List.mem_map.mpr ⟨q, hq, ?_⟩)
          rw [hqi, hi]
        have hfilter : (p :: props).filter (fun p => p.1 ≠ i) = props := by
          rw [List.filter_cons_of_neg (by simp [hi]), List.filter_eq_self.mpr hkept]
        exact .inl ⟨p, hi, by rw [hfilter]⟩
      · have hfilter : (p :: props).filter (fun p => p.1 ≠ i) =
            p :: props.filter fun p => p.1 ≠ i := List.filter_cons_of_pos (by simp [hi])
        rw [hfilter]
        rcases ih hnodup with ⟨q, hq, hperm⟩ | ⟨hnot, hsame⟩
        · exact .inl ⟨q, hq, (hperm.cons p).trans (List.Perm.swap q p _)⟩
        · refine .inr ⟨?_, by rw [hsame]⟩
          rw [List.map_cons, List.mem_cons, not_or]
          exact ⟨fun h => hi h.symm, hnot⟩

omit [DecidableEq A] in
theorem takenOff_eraseP {hash : H} {p : ℕ × H × A} {props : List (ℕ × H × A)}
    (hfind : props.find? (fun p => p.2.1 = hash) = some p) :
    TakenOff p.1 props (props.eraseP fun p => p.2.1 = hash) := by
  obtain ⟨hp, before, after, rfl, hbefore⟩ := List.find?_eq_some_iff_append.mp hfind
  have hskip : ∀ q ∈ before, ¬ decide (q.2.1 = hash) = true := by
    intro q hq
    simpa using hbefore q hq
  rw [List.eraseP_append_right _ hskip,
    List.eraseP_cons_of_pos (p := fun q : ℕ × H × A => decide (q.2.1 = hash)) hp]
  exact .inl ⟨p, rfl, List.perm_middle⟩

/-- Which moves settle what they take off the queue. -/
def Respectful (st : State A H × Books A) : Move A H → Prop
  | .act (.launch _) => ∀ w ∈ st.1.tabled, InCurrency st.1.deposits st.2 w.2
  | .act (.call (.cancelProposal i)) => InCurrency st.1.deposits st.2 i
  | .act (.call (.blacklist h _)) =>
      ∀ p ∈ st.1.publicProps.find? fun p => p.2.1 = h, InCurrency st.1.deposits st.2 p.1
  | .act (.call .clearPublicProposals) => NothingQueued st.1.deposits
  | _ => True

/-- A launch gives every depositor of the tabled proposal back what it placed. -/
def Refunds (cfg : Config A H) (st : State A H × Books A) : Move A H → Prop
  | .act (.launch now) => ∀ w ∈ st.1.tabled, ∀ c who,
      ((act cfg st.1 (.launch now)).tokens c).reserved who + placedBy (st.2 w.2) c who =
        (st.1.tokens c).reserved who ∧
      ((act cfg st.1 (.launch now)).tokens c).free who =
        (st.1.tokens c).free who + placedBy (st.2 w.2) c who
  | _ => True

/-- What a move does to the books: it keeps them right if it is respectful, and the deposits only
if it is. -/
def Settles (cfg : Config A H) (st : State A H × Books A) (m : Move A H) : Prop :=
  (Respectful st m → Booked (record cfg st m).1.deposits (record cfg st m).2) ∧
    ((record cfg st m).1.deposits.Conserved (record cfg st m).2 → Respectful st m)

/-- A move that takes nothing off the queue only has to keep the books right. -/
theorem settles_of_booked {st : State A H × Books A} {m : Move A H} (hm : Respectful st m)
    (h : Booked (record cfg st m).1.deposits (record cfg st m).2) : Settles cfg st m :=
  ⟨fun _ => h, fun _ => hm⟩

theorem enter_of_none {c : Call A H} (hplaces : c.places s = none) :
    enter cfg (s, books) (.act (.call c)) = books := by
  simp [enter, hplaces]

theorem enter_of_ok {c : Call A H} {u : Unit} {s' : State A H} {i : ℕ} {e : Placed A}
    (hrun : (c.call cfg).run s = .ok u s') (hplaces : c.places s = some (i, e)) :
    enter cfg (s, books) (.act (.call c)) = books.place i e := by
  simp [enter, hplaces, Dispatch.succeeds_of_ok hrun]

/-- A call that fails leaves the chain and the books as they were. -/
theorem record_of_error {c : Call A H} {e : Error} {s' : State A H}
    (hrun : (c.call cfg).run s = .error e s') :
    record cfg (s, books) (.act (.call c)) = (s, books) := by
  have hsame : s' = s := Call.failsClean cfg c hrun
  have hmove : move cfg s (.act (.call c)) = s := (Dispatch.commit_of_error hrun).trans hsame
  have henter : enter cfg (s, books) (.act (.call c)) = books := by
    cases hplaces : c.places s with
    | none => exact enter_of_none hplaces
    | some p => simp [enter, hplaces, Dispatch.succeeds, hrun]
  rw [record, hmove, henter]

omit [DecidableEq A] in
theorem places_of_notAbout (s : State A H) (books : Books A) {c : Call A H}
    (hc : c.aboutDeposits = false) :
    c.places s = none ∧ Respectful (s, books) (.act (.call c)) := by
  cases c <;> first | exact ⟨rfl, trivial⟩ | cases hc

omit [DecidableEq H] in
/-- **A proposal that is cancelled or blacklisted.** -/
theorem Booked.slashProposal (cfg : Config A H) (h : Booked s.deposits books) {i : ℕ}
    {props' : List (ℕ × H × A)}
    (hoff : TakenOff i s.publicProps props') :
    (InCurrency s.deposits books i →
      Booked ({ s with publicProps := props' }.slashProposal cfg i).deposits books) ∧
    (({ s with publicProps := props' }.slashProposal cfg i).deposits.Conserved books →
      InCurrency s.deposits books i) := by
  cases hd : s.depositOf.lookup i with
  | none =>
      have hnot : i ∉ s.publicProps.map Prod.fst := fun hi => by
        obtain ⟨d, hd'⟩ := h.recorded i hi
        rw [State.deposits, hd] at hd'
        cases hd'
      have hprops : props' = s.publicProps := by
        rcases hoff with ⟨p, rfl, hperm⟩ | ⟨-, hsame⟩
        · exact absurd ((hperm.map Prod.fst).mem_iff.mpr List.mem_cons_self) hnot
        · exact hsame
      have hsame : ({ s with publicProps := props' }.slashProposal cfg i).deposits =
          s.deposits := by
        simp only [State.slashProposal, hd, hprops]
      rw [hsame]
      refine ⟨fun _ => h, fun _ d' hd' => ?_⟩
      rw [State.deposits, hd] at hd'
      cases hd'
  | some d =>
      have hafter : ({ s with publicProps := props' }.slashProposal cfg i).deposits =
          s.deposits.release i d props'
            (fun who => Reserves.slashReserved who cfg.treasury d.amount) :=
        deposits_slashProposal (s := { s with publicProps := props' }) hd
      have htake := fun who r a =>
        Reserves.slashReserved_reserved_sub (A := A) who cfg.treasury d.amount r a
      rw [hafter]
      exact ⟨fun hin => h.release hd hoff htake hin,
        fun hc => h.inCurrency_of_release hd hoff htake hc⟩

omit [DecidableEq H] in
/-- The tabled proposal has a record, and is taken off the queue. -/
theorem tabled_takenOff (h : Booked s.deposits books) {w : ℕ × ℕ} (hw : s.tabled = some w) :
    ∃ d, s.depositOf.lookup w.2 = some d ∧
      TakenOff w.2 s.publicProps (swapRemove s.publicProps w.1) := by
  unfold State.tabled at hw
  split at hw
  · obtain ⟨x, hx, rfl⟩ := Option.map_eq_some_iff.mp hw
    have hperm := perm_swapRemove (getElem?_of_maxByKey hx)
    obtain ⟨d, hd⟩ := h.recorded x.2.1
      ((hperm.map Prod.fst).mem_iff.mpr List.mem_cons_self)
    exact ⟨d, hd, .inl ⟨x.2, rfl, hperm⟩⟩
  · cases hw

/-- What is needed is what was known, with a block. -/
theorem depositBy_imminent (hash : H) (block : ℕ) (c : CurrencyId) (who : A) :
    (imminent block (s.preimages.lookup hash)).depositBy c who =
      weightAt (fun _ q => q.depositBy c who) s.preimages hash := by
  cases hlookup : s.preimages.lookup hash with
  | none =>
      rw [weightAt_of_notMem _ hlookup]
      rfl
  | some status =>
      rw [weightAt_of_lookup _ hlookup]
      cases status with
      | missing expiry => rfl
      | available p => rfl

/-- **A call.** -/
theorem settles_call
    (hmoves : ∀ r slashed beneficiary n, cfg.rules.repatriateAllowed r slashed beneficiary n = true)
    (h : Booked s.deposits books) (c : Call A H) : Settles cfg (s, books) (.act (.call c)) := by
  cases hrun : (c.call cfg).run s with
  | error e s' =>
      rw [Settles, record_of_error hrun]
      refine ⟨fun _ => h, fun _ => ?_⟩
      cases c with
      | clearPublicProposals => cases hrun
      | blacklist hash maybeRefIndex => cases hrun
      | cancelProposal i => cases hrun
      | _ => trivial
  | ok u s' =>
      have hafter : (record cfg (s, books) (.act (.call c))).1 = s' := Dispatch.commit_of_ok hrun
      cases hc : c.aboutDeposits with
      | false =>
          obtain ⟨hplaces, hok⟩ := places_of_notAbout s books hc
          refine settles_of_booked hok ?_
          rw [record, enter_of_none hplaces]
          exact (deposits_call cfg s hc) ▸ h
      | true =>
          cases c with
          | propose who proposal c value =>
              refine settles_of_booked trivial ?_
              obtain ⟨-, r, -, -, -, hr, rfl⟩ := propose_ok hrun
              rw [hafter, record, enter_of_ok hrun rfl]
              exact h.propose proposal hr
          | second who i c bound =>
              refine settles_of_booked trivial ?_
              obtain ⟨d, r, hd, hr, rfl⟩ := second_ok hrun
              have hplaces : (Call.second who i c bound : Call A H).places s =
                  some (i, ⟨who, c, d.amount⟩) := by
                rw [Call.places, hd]
                rfl
              rw [hafter, record, enter_of_ok hrun hplaces]
              exact h.second hd hr
          | clearPublicProposals =>
              rw [Settles, record, enter_of_none rfl]
              exact ⟨fun hnothing => h.clear hnothing, fun hc => h.nothingQueued_of_clear hc⟩
          | notePreimage who c data =>
              refine settles_of_booked trivial ?_
              obtain ⟨hnew, r, hr, rfl⟩ := notePreimage_ok hrun
              rw [hafter, record, enter_of_none rfl]
              exact h.placePreimage (p := ⟨data, who, c, _, s.blockNumber, none⟩)
                (AList.lookup_eq_none.mpr hnew) hr
          | noteImminentPreimage who c data =>
              refine settles_of_booked trivial ?_
              obtain ⟨expiry, hmissing, rfl⟩ := noteImminentPreimage_ok hrun
              rw [hafter, record, enter_of_none rfl]
              refine h.setPreimage fun c' who' => ?_
              have hlookup : s.deposits.preimages.lookup (cfg.hashing data) =
                  some (.missing expiry) := hmissing
              rw [weightAt_of_lookup _ hlookup, depositBy_available]
              exact ite_self 0
          | reapPreimage who hash bound =>
              refine settles_of_booked trivial ?_
              obtain ⟨p, hp, rfl⟩ := reapPreimage_ok hrun
              rw [hafter, record, enter_of_none rfl]
              obtain ⟨r, hr⟩ := Reserves.repatriateFree_ok
                (hmoves (s.tokens p.currency) p.provider who p.deposit)
              rw [hr]
              exact h.takePreimage (lookup_of_availablePreimage hp)
                (Reserves.repatriateFree_reserved hr)
          | blacklist hash maybeRefIndex =>
              rw [Settles, record, enter_of_none rfl]
              have hdeposits := deposits_blacklist cfg s hash maybeRefIndex
              have hlisted : Booked (State.deposits { s with
                  blacklist := s.blacklist.insert hash (cfg.maxBlockNumber, []) }) books := h
              rw [move, act, Call.call, hdeposits, State.removeQueued]
              dsimp only [Respectful]
              cases hfind : s.publicProps.find? fun p => p.2.1 = hash with
              | none => exact ⟨fun _ => h, fun _ p hp => absurd hp.symm (Option.some_ne_none p)⟩
              | some p =>
                  have hslash := hlisted.slashProposal cfg (takenOff_eraseP hfind)
                  refine ⟨fun hin => hslash.1 (hin p rfl), fun hc q hq => ?_⟩
                  cases hq
                  exact hslash.2 hc
          | cancelProposal i =>
              rw [Settles, record, enter_of_none rfl]
              exact h.slashProposal cfg (takenOff_filter h.nodup)
          | _ => cases hc

/-- A launch leaves the proposal it tables settled, and nothing changes without one. -/
theorem settles_launch (h : Booked s.deposits books) (now : ℕ) :
    Settles cfg (s, books) (.act (.launch now)) := by
  have hdeposits : (record cfg (s, books) (.act (.launch now))).1.deposits =
      s.tabled.elim s.deposits fun w => (s.table w.1 w.2).deposits :=
    deposits_launchNext cfg now s
  have hbooks : (record cfg (s, books) (.act (.launch now))).2 = books := rfl
  rw [Settles, hdeposits, hbooks]
  cases htabled : s.tabled with
  | none => exact ⟨fun _ => h, fun _ w hw => by rw [htabled] at hw; cases hw⟩
  | some w =>
      obtain ⟨d, hd, hoff⟩ := tabled_takenOff h htabled
      rw [Option.elim_some, deposits_table hd]
      have htake := fun who r a => Reserves.unreserve_reserved_sub (A := A) who d.amount r a
      refine ⟨fun hok => h.release hd hoff htake (hok w htabled), fun hc w' hw' => ?_⟩
      cases htabled.symm.trans hw'
      exact h.inCurrency_of_release hd hoff htake hc

/-- **Every move settles what it takes off the queue, if it is respectful.** -/
theorem settles
    (hmoves : ∀ r slashed beneficiary n, cfg.rules.repatriateAllowed r slashed beneficiary n = true)
    (h : Booked s.deposits books) (m : Move A H) : Settles cfg (s, books) m := by
  cases m with
  | nextBlock => exact settles_of_booked trivial h
  | act a =>
      cases a with
      | call c => exact settles_call hmoves h c
      | launch now => exact settles_launch h now
      | giveBack hash =>
          refine settles_of_booked trivial ?_
          cases hp : s.availablePreimage hash with
          | none =>
              have hsame : act cfg s (.giveBack hash) = s := by simp [act, hp]
              rw [record, move, hsame]
              exact h
          | some p =>
              have hback : act cfg s (.giveBack hash) = s.giveBack p hash := by simp [act, hp]
              rw [record, move, hback]
              exact h.takePreimage (lookup_of_availablePreimage hp)
                (Reserves.unreserve_reserved_sub p.provider p.deposit _)
      | slash hash =>
          refine settles_of_booked trivial ?_
          cases hp : s.availablePreimage hash with
          | none =>
              have hsame : act cfg s (.slash hash) = s := by simp [act, hp]
              rw [record, move, hsame]
              exact h
          | some p =>
              have hslash : act cfg s (.slash hash) = s.slashPreimage cfg p hash := by
                simp [act, hp]
              rw [record, move, hslash]
              exact h.takePreimage (lookup_of_availablePreimage hp)
                (Reserves.slashReserved_reserved_sub p.provider cfg.treasury p.deposit _)
      | forget hash =>
          refine settles_of_booked trivial ?_
          by_cases hp : s.availablePreimage hash = none
          · have hforget : act cfg s (.forget hash) =
                { s with preimages := s.preimages.erase hash } := by simp [act, hp]
            rw [record, move, hforget]
            exact h.forgetPreimage (depositBy_of_notAvailable hp)
          · have hsame : act cfg s (.forget hash) = s := by simp [act, hp]
            rw [record, move, hsame]
            exact h
      | need hash block =>
          refine settles_of_booked trivial (h.setPreimage fun c who => ?_)
          exact depositBy_imminent hash block c who
      | finish refIndex approved now => exact settles_of_booked trivial h
      | elsewhere o =>
          refine settles_of_booked trivial ?_
          exact h.of_sameQueue rfl rfl rfl (h.conserved.of_preimages rfl fun c who => rfl)

/-- A launch refunds what was placed in the currency on record. -/
theorem refunds_of_respectful (h : Booked s.deposits books) {m : Move A H}
    (hok : Respectful (s, books) m) : Refunds cfg (s, books) m := by
  unfold Refunds
  split
  · rename_i now
    intro w hw c who
    obtain ⟨d, hd, hoff⟩ := tabled_takenOff h hw
    have hdeposits : (act cfg s (.launch now)).deposits =
        s.deposits.release w.2 d (swapRemove s.publicProps w.1)
          (fun who => Reserves.unreserve who d.amount) := by
      have hlaunch := deposits_launchNext cfg now s
      rw [hw, Option.elim_some, deposits_table hd] at hlaunch
      exact hlaunch
    have htokens : (act cfg s (.launch now)).tokens =
        (s.deposits.release w.2 d (swapRemove s.publicProps w.1)
          (fun who => Reserves.unreserve who d.amount)).tokens :=
      congrArg Deposits.tokens hdeposits
    have hreserved : ((act cfg s (.launch now)).tokens c).reserved who +
        placedBy (books w.2) c who = (s.tokens c).reserved who := by
      rw [htokens]
      exact h.release_reserved_add hd hoff
        (fun who r a => Reserves.unreserve_reserved_sub who d.amount r a) (hok w hw) c who
    have htotal : ((act cfg s (.launch now)).tokens c).free who +
        ((act cfg s (.launch now)).tokens c).reserved who =
        (s.tokens c).free who + (s.tokens c).reserved who := by
      rw [htokens]
      dsimp only [Deposits.release]
      split
      · exact Reserves.foldl_unreserve_total d.depositors d.amount _ who
      · rfl
    refine ⟨hreserved, ?_⟩
    dsimp only
    omega
  · trivial

end Moves

/-! ## Every run -/

omit [DecidableEq H] in
/-- At the start nothing is placed. -/
theorem booked_genesis {s : State A H} (hs : Genesis s) : Booked s.deposits fun _ => [] := by
  have hqueue : s.deposits.queue = [] := by
    rw [Deposits.queue, State.deposits, hs.publicProps]
    rfl
  have hrecords : ∀ i, s.deposits.depositOf.lookup i = none := by
    intro i
    rw [State.deposits, hs.depositOf]
    exact AList.lookup_empty i
  refine
    { nodup := by rw [hqueue]; exact List.nodup_nil
      fresh := fun i _ => ⟨rfl, hrecords i⟩
      recorded := fun i hi => by rw [hqueue] at hi; cases hi
      agrees := fun i d hd => by rw [hrecords i] at hd; cases hd
      leftover := fun i d hd _ => by rw [hrecords i] at hd; cases hd
      conserved := fun c who => ?_ }
  have hpreimages : s.deposits.onPreimages c who = 0 := by
    rw [Deposits.onPreimages, State.deposits, hs.preimages]
    rfl
  have honQueue : s.deposits.onQueue (fun _ => []) c who = 0 := by
    rw [Deposits.onQueue, hqueue]
    rfl
  rw [honQueue, hpreimages]
  exact hs.reserved c who

/-- Along a respectful run every launch refunds. -/
theorem stepsMeet_refunds {cfg : Config A H}
    (hmoves : ∀ r slashed beneficiary n, cfg.rules.repatriateAllowed r slashed beneficiary n = true)
    {st : State A H × Books A} {moves : List (Move A H)} (h : Booked st.1.deposits st.2)
    (hok : Machine.StepsMeet (record cfg) Respectful st moves) :
    Machine.StepsMeet (record cfg) (Refunds cfg) st moves := by
  induction moves generalizing st with
  | nil => trivial
  | cons m moves ih =>
      exact ⟨refunds_of_respectful h hok.1, ih ((settles hmoves h m).1 hok.1) hok.2⟩

/-- **The deposits of every run.** All along a run from a genesis, every reserved balance is what
the account placed on queued proposals and preimages, and every launch gives the depositors back
what they placed, exactly if every move settles what it takes off the queue: what is tabled,
cancelled or blacklisted has all its deposits in the currency on record, and the queue is cleared
when nothing of value is on it. The runs of the chain's steps are such runs. -/
theorem conserved_of_run (cfg : Config A H)
    (hmoves : ∀ r slashed beneficiary n, cfg.rules.repatriateAllowed r slashed beneficiary n = true)
    {s : State A H} (hs : Genesis s) (moves : List (Move A H)) :
    (((∀ n,
          let st := Machine.run (record cfg) (s, fun _ => []) (moves.take n)
          st.1.deposits.Conserved st.2) ∧
        Machine.StepsMeet (record cfg) (Refunds cfg) (s, fun _ => []) moves) ↔
      Machine.StepsMeet (record cfg) Respectful (s, fun _ => []) moves) ∧
    ∀ (rt : Runtime A H) (steps : List (Step A H)), ∃ moves' : List (Move A H),
      Machine.run (move cfg) s moves' = Machine.run (step cfg rt) s steps := by
  have hkeep : ∀ (st : State A H × Books A) (m : Move A H), Booked st.1.deposits st.2 →
      Respectful st m → Booked (record cfg st m).1.deposits (record cfg st m).2 :=
    fun st m h hok => (settles hmoves h m).1 hok
  have hhold : ∀ st : State A H × Books A, Booked st.1.deposits st.2 →
      st.1.deposits.Conserved st.2 := fun _ h => h.conserved
  have hexact : ∀ (st : State A H × Books A) (m : Move A H), Booked st.1.deposits st.2 →
      ((record cfg st m).1.deposits.Conserved (record cfg st m).2 ↔ Respectful st m) :=
    fun st m h => ⟨(settles hmoves h m).2, fun hok => (hkeep st m h hok).conserved⟩
  have hstart : Booked s.deposits fun _ => [] := booked_genesis hs
  have hrun := Machine.run_holds_iff hkeep hhold hexact (s := (s, fun _ => [])) hstart moves
  refine ⟨⟨fun h => hrun.mp h.1, fun hok => ?_⟩, fun rt => run_eq_moves cfg rt s⟩
  exact ⟨hrun.mpr hok, stepsMeet_refunds hmoves hstart hok⟩

/-! ## A seconder in another currency -/

/-- Account 1 proposes, account 2 seconds in a currency, and the proposal is tabled. -/
def secondedIn (c : CurrencyId) : List (Move ℕ ℕ) :=
  [.act (.call (.propose 1 7 (.Token .SETT) 10)), .act (.call (.second 2 0 c 1)),
    .act (.launch 2)]

theorem secondedAlike_respectful :
    Machine.StepsMeet (record sampleConfig) Respectful (sampleGenesis, fun _ => [])
      (secondedIn (.Token .SETT)) := by
  refine ⟨trivial, trivial, fun w hw d hd => .inr ?_, trivial⟩
  have hw' : w = (0, 0) := by
    have htabled : (Machine.run (record sampleConfig) (sampleGenesis, fun _ => [])
        ((secondedIn (.Token .SETT)).take 2)).1.tabled = some (0, 0) := by decide +kernel
    exact (Option.some.inj (htabled.symm.trans hw)).symm
  subst hw'
  have hrecord : (Machine.run (record sampleConfig) (sampleGenesis, fun _ => [])
      ((secondedIn (.Token .SETT)).take 2)).1.deposits.depositOf.lookup 0 =
        some ⟨[1, 2], .Token .SETT, 10⟩ := by decide +kernel
  cases hrecord.symm.trans hd
  decide +kernel

/-- Both in the same currency: both get their deposits back. -/
theorem secondedAlike_conserved :
    let st := Machine.run (record sampleConfig) (sampleGenesis, fun _ => [])
      ((secondedIn (.Token .SETT)).take 3)
    st.1.deposits.Conserved st.2 :=
  ((conserved_of_run sampleConfig (fun _ _ _ _ => rfl) sampleGenesis_genesis
    (secondedIn (.Token .SETT))).1.mpr secondedAlike_respectful).1 3

/-- In another currency: after the launch nothing is queued, but the proposer's deposit is still
reserved. So it is when the queue is cleared. -/
theorem secondedOtherwise_kept :
    let st := Machine.run (record sampleConfig) (sampleGenesis, fun _ => [])
      (secondedIn (.Token .DRAM))
    let cleared := Machine.run (record sampleConfig) (sampleGenesis, fun _ => [])
      [.act (.call (.propose 1 7 (.Token .SETT) 10)), .act (.call .clearPublicProposals)]
    ((st.1.tokens (.Token .SETT)).reserved 1 = 10 ∧ st.1.publicProps = [] ∧
      ¬ st.1.deposits.Conserved st.2) ∧
    ((cleared.1.tokens (.Token .SETT)).reserved 1 = 10 ∧ cleared.1.publicProps = [] ∧
      ¬ cleared.1.deposits.Conserved cleared.2) :=
  ⟨⟨by decide +kernel, by decide +kernel,
      fun h => absurd (h (.Token .SETT) 1) (by decide +kernel)⟩,
    ⟨by decide +kernel, by decide +kernel,
      fun h => absurd (h (.Token .SETT) 1) (by decide +kernel)⟩⟩

end Setheum.Democracy
