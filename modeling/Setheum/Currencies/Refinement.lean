import Mathlib.Algebra.BigOperators.Group.Finset.Basic
import Setheum.Currencies.Erc20
import Setheum.Lib.Reserves
import Setheum.Lib.Run

/-!
# The ERC-20 reserves refine a ledger of free and reserved balances

The abstract ledger keeps a free and a reserved balance for every EVM address. The contract's
tokens at an address and at its reserve address are these two balances, where no two addresses in
use share a reserve address and none is one.

* `Conforming` — what the contract is relied on for: a transfer that succeeds moves the amount, and
  balances are answered.
* `Represents` — the tokens of the contract are an abstract ledger.
* `Refines` — what a call does to the abstract ledger and what it returns.
* `erc20_refines` — every call of every run refines its abstract operation, and no tokens are lost
  or gained.
-/

set_option autoImplicit false

namespace Setheum.Currencies

open EvmAccounts Dispatch

variable {T : Type} {cfg : Config T} {contract : EvmAddress} {held : T → EvmAddress → ℕ}

/-! ## The contract and the addresses -/

/-- A contract that holds tokens for addresses. A transfer moves exactly the amount or fails, and
balances are answered as they are. -/
structure Conforming (bridge : EVMBridge T) (contract : EvmAddress)
    (held : T → EvmAddress → ℕ) : Prop where
  balanceOf : ∀ context address t, context.contract = contract →
    bridge.balanceOf context address t = some (held t address)
  transfer : ∀ context dest n t t', context.contract = contract →
    bridge.transfer context dest n t = some t' → n ≤ held t context.sender ∧
      ∀ x, held t' x + (if x = context.sender then n else 0)
        = held t x + if x = dest then n else 0

/-- No two of the addresses share a reserve address, and none of them is one. -/
structure CollisionFree (cfg : Config T) (U : Set EvmAddress) : Prop where
  injOn : Set.InjOn (reserveAddress cfg) U
  disjoint : ∀ x ∈ U, ∀ y ∈ U, reserveAddress cfg x ≠ y

/-- The address that an account has, or the one it would be given. -/
def holder (cfg : Config T) (s : State T) (who : AccountId) : EvmAddress :=
  (s.maps.getOrCreateEvmAddress cfg.params who).1

theorem holder_of_some {s : State T} {who : AccountId} {address : EvmAddress}
    (h : s.maps.getEvmAddress who = some address) : holder cfg s who = address := by
  unfold holder Maps.getOrCreateEvmAddress
  rw [h]

/-- All that became of the maps is that one account may have been given an address. -/
def OnlyLinks (cfg : Config T) (s s' : State T) (who : AccountId) : Prop :=
  s'.maps = s.maps ∨ s'.maps = (s.maps.getOrCreateEvmAddress cfg.params who).2

/-- Every account is where it was, and no account lost its address. -/
structure SameHolders (cfg : Config T) (s s' : State T) : Prop where
  holder : ∀ a, holder cfg s' a = holder cfg s a
  kept : ∀ a address, s.maps.getEvmAddress a = some address →
    s'.maps.getEvmAddress a = some address

theorem SameHolders.refl (s : State T) : SameHolders cfg s s :=
  ⟨fun _ => rfl, fun _ _ h => h⟩

theorem SameHolders.trans {s s' s'' : State T} (h : SameHolders cfg s s')
    (h' : SameHolders cfg s' s'') : SameHolders cfg s s'' where
  holder a := (h'.holder a).trans (h.holder a)
  kept a address ha := h'.kept a address (h.kept a address ha)

theorem SameHolders.of_maps {s s' : State T} (h : s'.maps = s.maps) : SameHolders cfg s s' := by
  refine ⟨fun a => ?_, fun a address ha => ?_⟩
  · unfold Currencies.holder
    rw [h]
  · rw [h]
    exact ha

theorem OnlyLinks.sameHolders {s s' : State T} {who : AccountId} (h : OnlyLinks cfg s s' who) :
    SameHolders cfg s s' := by
  obtain h | h := h
  · exact .of_maps h
  · cases hwho : s.maps.getEvmAddress who with
    | some own =>
        refine .of_maps ?_
        rw [h, Maps.getOrCreateEvmAddress, hwho]
    | none =>
        have hget : ∀ a, s'.maps.getEvmAddress a =
            if a = who then some (cfg.params.accountToDefaultEvmAddress who)
            else s.maps.getEvmAddress a := by
          intro a
          rw [h, Maps.getOrCreateEvmAddress, hwho]
          exact Maps.getEvmAddress_link ..
        refine ⟨fun a => ?_, fun a address ha => ?_⟩
        · unfold holder Maps.getOrCreateEvmAddress
          by_cases heq : a = who
          · rw [hget, if_pos heq, heq, hwho]
          · rw [hget, if_neg heq]
            cases s.maps.getEvmAddress a <;> rfl
        · have hne : a ≠ who := by
            rintro rfl
            rw [hwho] at ha
            cases ha
          rw [hget, if_neg hne, ha]

/-! ## The abstract ledger -/

/-- The tokens at the addresses in use and at their reserve addresses are an abstract ledger, and
that is what the accounts there are told. -/
structure Represents (cfg : Config T) (contract : EvmAddress) (held : T → EvmAddress → ℕ)
    (U : Set EvmAddress) (s : State T) (r : Reserves EvmAddress) : Prop where
  free : ∀ x ∈ U, held s.token x = r.free x
  reserved : ∀ x ∈ U, held s.token (reserveAddress cfg x) = r.reserved x
  accounts : ∀ a, ∀ x ∈ U, s.maps.getEvmAddress a = some x →
    freeBalance cfg contract a s = r.free x ∧ reservedBalance cfg contract a s = r.reserved x

/-- The ledger that the tokens are. -/
def ledger (cfg : Config T) (held : T → EvmAddress → ℕ) (t : T) : Reserves EvmAddress where
  free x := held t x
  reserved x := held t (reserveAddress cfg x)

/-- The abstract repatriation with either target. -/
def repatriate (status : BalanceStatus) (slashed beneficiary : EvmAddress) (n : ℕ)
    (r : Reserves EvmAddress) : Except Reserves.Error (Reserves EvmAddress) :=
  match status with
  | .Free => Reserves.repatriateFree Reserves.Rules.permissive slashed beneficiary n r
  | .Reserved => Reserves.repatriateReserved Reserves.Rules.permissive slashed beneficiary n r

/-- What the abstract currency makes of a call: what is left of its value, and the ledger. No more
is taken than what the account has reserved. -/
def Call.spec (cfg : Config T) (contract : EvmAddress) (s : State T) (r : Reserves EvmAddress) :
    Call → Except Reserves.Error (ℕ × Reserves EvmAddress)
  | .reserve who value => do
      let r' ← Reserves.reserve Reserves.Rules.permissive (holder cfg s who) value r
      pure (0, r')
  | .unreserve who value =>
      let actual := min (reservedBalance cfg contract who s) value
      .ok (value - actual, Reserves.unreserve (holder cfg s who) actual r)
  | .repatriateReserved slashed beneficiary value status => do
      let actual := min (reservedBalance cfg contract slashed s) value
      let r' ← repatriate status (holder cfg s slashed) (holder cfg s beneficiary) actual r
      pure (value - actual, r')

/-- The account whose reserve a call frees for the account itself, and the value. -/
def Call.frees : Call → Option (AccountId × ℕ)
  | .reserve _ _ => none
  | .unreserve who value => some (who, value)
  | .repatriateReserved slashed beneficiary value status =>
      if slashed = beneficiary ∧ status = .Free then some (slashed, value) else none

/-- The contract refuses to give the account back what it has reserved. -/
def FreeingFails (cfg : Config T) (contract : EvmAddress) (s : State T) (who : AccountId)
    (value : ℕ) : Prop :=
  ∃ address, s.maps.getEvmAddress who = some address ∧
    cfg.bridge.transfer ⟨contract, reserveAddress cfg address, address⟩ address
      (min (reservedBalance cfg contract who s) value) s.token = none

/-- Only a repatriation gives an account an address, and only the beneficiary. -/
def Call.mapsAfter (cfg : Config T) (s s' : State T) : Call → Prop
  | .reserve _ _ => s'.maps = s.maps
  | .unreserve _ _ => s'.maps = s.maps
  | .repatriateReserved _ beneficiary _ _ => OnlyLinks cfg s s' beneficiary

/-- Where a repatriation sends the tokens. -/
def target (cfg : Config T) (beneficiary : EvmAddress) : BalanceStatus → EvmAddress
  | .Free => beneficiary
  | .Reserved => reserveAddress cfg beneficiary

/-- The account has no address, or the contract refuses the transfer from its address or its
reserve address. -/
def Call.refused (cfg : Config T) (contract : EvmAddress) (s : State T) : Call → Prop
  | .reserve who value => ∀ address, s.maps.getEvmAddress who = some address →
      cfg.bridge.transfer ⟨contract, address, address⟩ (reserveAddress cfg address) value s.token
        = none
  | .unreserve _ _ => False
  | .repatriateReserved slashed beneficiary value status => slashed ≠ beneficiary ∧
      ∀ address, s.maps.getEvmAddress slashed = some address →
        cfg.bridge.transfer ⟨contract, reserveAddress cfg address, address⟩
          (target cfg (holder cfg s beneficiary) status)
          (min (reservedBalance cfg contract slashed s) value) s.token = none

/-- **What one call does.** It does what the abstract currency does, or the contract refused to
free the account's own reserve, all of the value is left and nothing changed. A call fails only if
it is refused, and leaves all tokens where they were. -/
def Refines (cfg : Config T) (contract : EvmAddress) (held : T → EvmAddress → ℕ)
    (U : Set EvmAddress) (s : State T) (c : Call) : Prop :=
  match (c.call cfg contract).run s with
  | .ok rest s' => c.mapsAfter cfg s s' ∧
      ((∃ r, c.spec cfg contract s (ledger cfg held s.token) = .ok (rest, r) ∧
          Represents cfg contract held U s' r) ∨
        ∃ who, c.frees = some (who, rest) ∧ FreeingFails cfg contract s who rest ∧ s' = s)
  | .error _ s' => c.mapsAfter cfg s s' ∧ s'.token = s.token ∧ c.refused cfg contract s

variable {U : Set EvmAddress}

/-! ## Transfers as abstract operations -/

theorem Represents.of_tokens (hconf : Conforming cfg.bridge contract held) {s : State T}
    {r : Reserves EvmAddress} (hfree : ∀ x ∈ U, held s.token x = r.free x)
    (hreserved : ∀ x ∈ U, held s.token (reserveAddress cfg x) = r.reserved x) :
    Represents cfg contract held U s r := by
  refine ⟨hfree, hreserved, fun a x hx ha => ⟨?_, ?_⟩⟩
  · rw [freeBalance, ha, ← hfree x hx]
    dsimp only
    rw [balanceOf, hconf.balanceOf _ _ _ rfl, Option.getD_some]
  · rw [reservedBalance, ha, ← hreserved x hx]
    dsimp only
    rw [balanceOf, hconf.balanceOf _ _ _ rfl, Option.getD_some]

/-- What is there before a call. -/
theorem represents_ledger (hconf : Conforming cfg.bridge contract held) (s : State T) :
    Represents cfg contract held U s (ledger cfg held s.token) :=
  .of_tokens hconf (fun _ _ => rfl) fun _ _ => rfl

theorem reservedBalance_eq (hconf : Conforming cfg.bridge contract held) {s : State T}
    {who : AccountId} {address : EvmAddress} (h : s.maps.getEvmAddress who = some address) :
    reservedBalance cfg contract who s = (ledger cfg held s.token).reserved address :=
  ((represents_ledger (U := Set.univ) hconf s).accounts who address trivial h).2

theorem Conforming.moved (hconf : Conforming cfg.bridge contract held)
    {a b origin : EvmAddress} {n : ℕ} {t t' : T}
    (h : cfg.bridge.transfer ⟨contract, a, origin⟩ b n t = some t') :
    n ≤ held t a ∧
      ∀ x, held t' x + (if x = a then n else 0) = held t x + if x = b then n else 0 :=
  hconf.transfer ⟨contract, a, origin⟩ b n t t' rfl h

/-- Reserving is the transfer to the reserve address. -/
theorem represents_reserve (hconf : Conforming cfg.bridge contract held)
    (hU : CollisionFree cfg U) {x origin : EvmAddress} {n : ℕ} {s s' : State T} (hx : x ∈ U)
    (h : cfg.bridge.transfer ⟨contract, x, origin⟩ (reserveAddress cfg x) n s.token
      = some s'.token) :
    ∃ r, Reserves.reserve Reserves.Rules.permissive x n (ledger cfg held s.token) = .ok r ∧
      Represents cfg contract held U s' r := by
  obtain ⟨hle, hmoved⟩ := hconf.moved h
  obtain ⟨r, hr, hafter⟩ := Reserves.reserve_of_le Reserves.Rules.permissive
    (ledger cfg held s.token) rfl hle
  refine ⟨r, hr, .of_tokens hconf (fun y hy => ?_) fun y hy => ?_⟩
  · have hfree := (hafter y).1
    have hy' := hmoved y
    rw [if_neg (hU.disjoint x hx y hy).symm] at hy'
    dsimp only [ledger] at hfree
    omega
  · have hreserved := (hafter y).2
    have hy' := hmoved (reserveAddress cfg y)
    rw [if_neg (hU.disjoint y hy x hx)] at hy'
    simp only [hU.injOn.eq_iff hy hx] at hy'
    dsimp only [ledger] at hreserved
    omega

/-- Repatriating to the free balance is the transfer from the reserve address to the address. -/
theorem represents_repatriateFree (hconf : Conforming cfg.bridge contract held)
    (hU : CollisionFree cfg U) {x y origin : EvmAddress} {n : ℕ} {s s' : State T} (hx : x ∈ U)
    (hy : y ∈ U)
    (h : cfg.bridge.transfer ⟨contract, reserveAddress cfg x, origin⟩ y n s.token
      = some s'.token) :
    ∃ r, Reserves.repatriateFree Reserves.Rules.permissive x y n (ledger cfg held s.token)
        = .ok r ∧ Represents cfg contract held U s' r := by
  obtain ⟨hle, hmoved⟩ := hconf.moved h
  obtain ⟨r, hr, hafter⟩ := Reserves.repatriateFree_of_le Reserves.Rules.permissive
    (ledger cfg held s.token) y rfl hle
  refine ⟨r, hr, .of_tokens hconf (fun z hz => ?_) fun z hz => ?_⟩
  · have hfree := (hafter z).1
    have hz' := hmoved z
    rw [if_neg (hU.disjoint x hx z hz).symm] at hz'
    dsimp only [ledger] at hfree
    omega
  · have hreserved := (hafter z).2
    have hz' := hmoved (reserveAddress cfg z)
    rw [if_neg (hU.disjoint z hz y hy)] at hz'
    simp only [hU.injOn.eq_iff hz hx] at hz'
    dsimp only [ledger] at hreserved
    omega

/-- Repatriating to the reserved balance is the transfer between the reserve addresses. -/
theorem represents_repatriateReserved (hconf : Conforming cfg.bridge contract held)
    (hU : CollisionFree cfg U) {x y origin : EvmAddress} {n : ℕ} {s s' : State T} (hx : x ∈ U)
    (hy : y ∈ U)
    (h : cfg.bridge.transfer ⟨contract, reserveAddress cfg x, origin⟩ (reserveAddress cfg y) n
      s.token = some s'.token) :
    ∃ r, Reserves.repatriateReserved Reserves.Rules.permissive x y n (ledger cfg held s.token)
        = .ok r ∧ Represents cfg contract held U s' r := by
  obtain ⟨hle, hmoved⟩ := hconf.moved h
  obtain ⟨r, hr, hfree, hshifted⟩ := Reserves.repatriateReserved_of_le
    Reserves.Rules.permissive (ledger cfg held s.token) y rfl hle
  refine ⟨r, hr, .of_tokens hconf (fun z hz => ?_) fun z hz => ?_⟩
  · have hz' := hmoved z
    rw [if_neg (hU.disjoint x hx z hz).symm, if_neg (hU.disjoint y hy z hz).symm] at hz'
    rw [hfree]
    exact hz'
  · have hz' := hmoved (reserveAddress cfg z)
    have hreserved := hshifted z
    simp only [hU.injOn.eq_iff hz hx, hU.injOn.eq_iff hz hy] at hz'
    dsimp only [ledger] at hreserved
    omega

theorem represents_unreserve (hconf : Conforming cfg.bridge contract held)
    (hU : CollisionFree cfg U) {x origin : EvmAddress} {n : ℕ} {s s' : State T} (hx : x ∈ U)
    (h : cfg.bridge.transfer ⟨contract, reserveAddress cfg x, origin⟩ x n s.token
      = some s'.token) :
    Represents cfg contract held U s' (Reserves.unreserve x n (ledger cfg held s.token)) := by
  obtain ⟨r, hr, hafter⟩ := represents_repatriateFree hconf hU hx hx h
  rw [Reserves.repatriateFree, if_pos rfl] at hr
  cases hr
  exact hafter

/-- An operation on nothing. -/
theorem represents_unreserve_zero (hconf : Conforming cfg.bridge contract held)
    (x : EvmAddress) (s : State T) :
    Represents cfg contract held U s (Reserves.unreserve x 0 (ledger cfg held s.token)) := by
  have hzero := Reserves.unreserve_of_le (Nat.zero_le ((ledger cfg held s.token).reserved x))
  simp only [ite_self, Nat.add_zero] at hzero
  exact .of_tokens hconf (fun y _ => (hzero y).1.symm) fun y _ => (hzero y).2.symm

theorem represents_repatriate_zero (hconf : Conforming cfg.bridge contract held)
    (s : State T) (status : BalanceStatus) (x y : EvmAddress) :
    ∃ r, repatriate status x y 0 (ledger cfg held s.token) = .ok r ∧
      Represents cfg contract held U s r := by
  cases status with
  | Free =>
      by_cases hxy : x = y
      · exact ⟨_, if_pos hxy, represents_unreserve_zero hconf x s⟩
      · refine ⟨_, ?_, represents_ledger hconf s⟩
        rw [repatriate, Reserves.repatriateFree, if_neg hxy, if_pos rfl]
  | Reserved =>
      refine ⟨_, ?_, represents_ledger hconf s⟩
      rw [repatriate, Reserves.repatriateReserved, if_pos (.inl rfl)]

/-! ## What the functions do -/

theorem bridgeTransfer_ok {context : InvokeContext} {dest : EvmAddress} {n : ℕ} {s s' : State T}
    {u : Unit} (h : (bridgeTransfer cfg context dest n).run s = .ok u s') :
    cfg.bridge.transfer context dest n s.token = some s'.token ∧ s'.maps = s.maps := by
  obtain ⟨t, ht, rfl⟩ := run_onComponent_ok.mp h
  cases htransfer : cfg.bridge.transfer context dest n s.token with
  | none =>
      rw [htransfer] at ht
      cases ht
  | some t' =>
      rw [htransfer] at ht
      cases ht
      exact ⟨rfl, rfl⟩

theorem bridgeTransfer_error {context : InvokeContext} {dest : EvmAddress} {n : ℕ}
    {s s' : State T} {e : Error} (h : (bridgeTransfer cfg context dest n).run s = .error e s') :
    cfg.bridge.transfer context dest n s.token = none ∧ s' = s := by
  obtain ⟨⟨e', he, -⟩, rfl⟩ := run_onComponent_error.mp h
  cases htransfer : cfg.bridge.transfer context dest n s.token with
  | none => exact ⟨rfl, rfl⟩
  | some t =>
      rw [htransfer] at he
      cases he

theorem reserve_ok {who : AccountId} {n : ℕ} {s s' : State T} {u : Unit}
    (h : (reserve cfg contract who n).run s = .ok u s') :
    (n = 0 ∧ s' = s) ∨ ∃ address, s.maps.getEvmAddress who = some address ∧
      cfg.bridge.transfer ⟨contract, address, address⟩ (reserveAddress cfg address) n s.token
        = some s'.token ∧ s'.maps = s.maps := by
  unfold reserve at h
  split at h
  · rename_i hzero
    obtain ⟨-, rfl⟩ := run_pure_ok.mp h
    exact .inl ⟨hzero, rfl⟩
  · rw [run_get_bind] at h
    obtain ⟨address, s₁, h1, h⟩ := run_bind_ok.mp h
    obtain ⟨haddress, rfl⟩ := run_okOr_ok.mp h1
    exact .inr ⟨address, haddress, bridgeTransfer_ok h⟩

theorem reserve_error {who : AccountId} {n : ℕ} {s s' : State T} {e : Error}
    (h : (reserve cfg contract who n).run s = .error e s') :
    s' = s ∧ (Call.reserve who n).refused cfg contract s := by
  unfold reserve at h
  split at h
  · exact (run_pure_error.mp h).elim
  · rw [run_get_bind] at h
    obtain h | ⟨address, s₁, h1, h⟩ := run_bind_error.mp h
    · obtain ⟨hnone, -, rfl⟩ := run_okOr_error.mp h
      refine ⟨rfl, fun address haddress => ?_⟩
      rw [hnone] at haddress
      cases haddress
    · obtain ⟨hsome, rfl⟩ := run_okOr_ok.mp h1
      obtain ⟨htransfer, rfl⟩ := bridgeTransfer_error h
      refine ⟨rfl, fun own hown => ?_⟩
      rw [hsome] at hown
      cases hown
      exact htransfer

/-- Unreserving transfers what there is and reports the rest, or the transfer fails. -/
theorem unreserve_ok {who : AccountId} {n rest : ℕ} {s s' : State T}
    (h : (unreserve cfg contract who n).run s = .ok rest s') :
    ((n = 0 ∨ s.maps.getEvmAddress who = none) ∧ rest = n ∧ s' = s) ∨
      (∃ address, s.maps.getEvmAddress who = some address ∧
        cfg.bridge.transfer ⟨contract, reserveAddress cfg address, address⟩ address
          (min (reservedBalance cfg contract who s) n) s.token = some s'.token ∧
        s'.maps = s.maps ∧ rest = n - min (reservedBalance cfg contract who s) n) ∨
      (FreeingFails cfg contract s who n ∧ rest = n ∧ s' = s) := by
  unfold unreserve at h
  split at h
  · rename_i hzero
    obtain ⟨rfl, rfl⟩ := run_pure_ok.mp h
    exact .inl ⟨.inl hzero, rfl, rfl⟩
  · rw [run_get_bind] at h
    cases hget : s.maps.getEvmAddress who with
    | none =>
        rw [hget] at h
        obtain ⟨rfl, rfl⟩ := run_pure_ok.mp h
        exact .inl ⟨.inr rfl, rfl, rfl⟩
    | some address =>
        have hactual : reservedBalance cfg contract who s
            = balanceOf cfg contract (reserveAddress cfg address) s := by
          rw [reservedBalance, hget]
        rw [hget] at h
        obtain ⟨outcome, s₁, h1, h⟩ := run_bind_ok.mp h
        obtain ⟨u, hok, rfl⟩ | ⟨e, hfail, rfl⟩ := run_attempt_ok.mp h1
        · obtain ⟨hrest, rfl⟩ := run_pure_ok.mp h
          obtain ⟨htransfer, hmaps⟩ := bridgeTransfer_ok hok
          rw [← hactual] at htransfer hrest
          exact .inr (.inl ⟨address, rfl, htransfer, hmaps, hrest.symm⟩)
        · obtain ⟨hrest, rfl⟩ := run_pure_ok.mp h
          obtain ⟨htransfer, rfl⟩ := bridgeTransfer_error hfail
          rw [← hactual] at htransfer
          exact .inr (.inr ⟨⟨address, hget, htransfer⟩, hrest.symm, rfl⟩)

theorem unreserve_error {who : AccountId} {n : ℕ} {s s' : State T} {e : Error} :
    ¬ (unreserve cfg contract who n).run s = .error e s' := by
  intro h
  unfold unreserve at h
  split at h
  · exact run_pure_error.mp h
  · rw [run_get_bind] at h
    cases hget : s.maps.getEvmAddress who with
    | none =>
        rw [hget] at h
        exact run_pure_error.mp h
    | some address =>
        rw [hget] at h
        obtain h | ⟨outcome, s₁, -, h⟩ := run_bind_error.mp h
        · exact run_attempt_error.mp h
        · cases outcome with
          | ok u => exact run_pure_error.mp h
          | error e => exact run_pure_error.mp h

theorem getOrCreateEvmAddress_ok {who : AccountId} {address : EvmAddress} {s s' : State T}
    (h : (getOrCreateEvmAddress cfg who).run s = .ok address s') :
    address = holder cfg s who ∧ s'.token = s.token ∧ OnlyLinks cfg s s' who := by
  unfold getOrCreateEvmAddress at h
  rw [run_get_bind] at h
  obtain ⟨u, s₁, h1, h⟩ := run_bind_ok.mp h
  have hset := run_set_ok.mp h1
  obtain ⟨rfl, rfl⟩ := run_pure_ok.mp h
  subst hset
  exact ⟨rfl, rfl, .inr rfl⟩

theorem getOrCreateEvmAddress_error {who : AccountId} {e : Error} {s s' : State T} :
    ¬ (getOrCreateEvmAddress cfg who).run s = .error e s' := by
  intro h
  unfold getOrCreateEvmAddress at h
  rw [run_get_bind] at h
  obtain h | ⟨u, s₁, -, h⟩ := run_bind_error.mp h
  · exact run_set_error.mp h
  · exact run_pure_error.mp h

theorem repatriateReserved_self {who : AccountId} {n rest : ℕ} {status : BalanceStatus}
    {s s' : State T}
    (h : (repatriateReserved cfg contract who who n status).run s = .ok rest s') :
    (status = .Free ∧ (unreserve cfg contract who n).run s = .ok rest s') ∨
      (status = .Reserved ∧ rest = n - min (reservedBalance cfg contract who s) n ∧ s' = s) := by
  unfold repatriateReserved at h
  split at h
  · rename_i hzero
    cases status with
    | Free =>
        rw [unreserve, if_pos hzero]
        exact .inl ⟨rfl, h⟩
    | Reserved =>
        obtain ⟨rfl, rfl⟩ := run_pure_ok.mp h
        exact .inr ⟨rfl, by omega, rfl⟩
  · rw [if_pos rfl] at h
    cases status with
    | Free => exact .inl ⟨rfl, h⟩
    | Reserved =>
        dsimp only at h
        rw [run_get_bind] at h
        obtain ⟨rfl, rfl⟩ := run_pure_ok.mp h
        exact .inr ⟨rfl, by omega, rfl⟩

theorem repatriateReserved_ok {slashed beneficiary : AccountId} {n rest : ℕ}
    {status : BalanceStatus} {s s' : State T} (hne : slashed ≠ beneficiary)
    (h : (repatriateReserved cfg contract slashed beneficiary n status).run s = .ok rest s') :
    (n = 0 ∧ rest = 0 ∧ s' = s) ∨ ∃ address, s.maps.getEvmAddress slashed = some address ∧
      cfg.bridge.transfer ⟨contract, reserveAddress cfg address, address⟩
        (target cfg (holder cfg s beneficiary) status)
        (min (reservedBalance cfg contract slashed s) n) s.token = some s'.token ∧
      OnlyLinks cfg s s' beneficiary ∧
      rest = n - min (reservedBalance cfg contract slashed s) n := by
  unfold repatriateReserved at h
  split at h
  · rename_i hzero
    obtain ⟨hrest, rfl⟩ := run_pure_ok.mp h
    exact .inl ⟨hzero, hrest ▸ hzero, rfl⟩
  · rw [run_get_bind] at h
    obtain ⟨address, s₁, h1, h⟩ := run_bind_ok.mp h
    obtain ⟨haddress, rfl⟩ := run_okOr_ok.mp h1
    obtain ⟨beneficiaryAddress, s₂, h2, h⟩ := run_bind_ok.mp h
    obtain ⟨rfl, htoken, hlinks⟩ := getOrCreateEvmAddress_ok h2
    obtain ⟨u, s₃, h3, h⟩ := run_bind_ok.mp h
    obtain ⟨htransfer, hmaps⟩ := bridgeTransfer_ok h3
    obtain ⟨hrest, rfl⟩ := run_pure_ok.mp h
    have hactual : reservedBalance cfg contract slashed s
        = balanceOf cfg contract (reserveAddress cfg address) s := by
      rw [reservedBalance, haddress]
    rw [← hactual, htoken] at htransfer
    rw [← hactual] at hrest
    refine .inr ⟨address, haddress, ?_, ?_, hrest.symm⟩
    · cases status with
      | Free => exact htransfer
      | Reserved => exact htransfer
    · rw [OnlyLinks, hmaps]
      exact hlinks

theorem repatriateReserved_error {slashed beneficiary : AccountId} {n : ℕ}
    {status : BalanceStatus} {s s' : State T} {e : Error}
    (h : (repatriateReserved cfg contract slashed beneficiary n status).run s = .error e s') :
    OnlyLinks cfg s s' beneficiary ∧ s'.token = s.token ∧
      (Call.repatriateReserved slashed beneficiary n status).refused cfg contract s := by
  unfold repatriateReserved at h
  split at h
  · exact (run_pure_error.mp h).elim
  · split at h
    · cases status with
      | Free => exact (unreserve_error h).elim
      | Reserved =>
          dsimp only at h
          rw [run_get_bind] at h
          exact (run_pure_error.mp h).elim
    · rename_i hne
      rw [run_get_bind] at h
      obtain h | ⟨address, s₁, h1, h⟩ := run_bind_error.mp h
      · obtain ⟨hnone, -, rfl⟩ := run_okOr_error.mp h
        refine ⟨.inl rfl, rfl, hne, fun address haddress => ?_⟩
        rw [hnone] at haddress
        cases haddress
      · obtain ⟨hsome, rfl⟩ := run_okOr_ok.mp h1
        obtain h | ⟨beneficiaryAddress, s₂, h2, h⟩ := run_bind_error.mp h
        · exact (getOrCreateEvmAddress_error h).elim
        · obtain ⟨rfl, htoken, hlinks⟩ := getOrCreateEvmAddress_ok h2
          obtain h | ⟨u, s₃, -, h⟩ := run_bind_error.mp h
          · obtain ⟨htransfer, rfl⟩ := bridgeTransfer_error h
            refine ⟨hlinks, htoken, hne, fun own hown => ?_⟩
            rw [hsome] at hown
            cases hown
            rw [reservedBalance, hsome]
            rw [htoken] at htransfer
            cases status with
            | Free => exact htransfer
            | Reserved => exact htransfer
          · exact (run_pure_error.mp h).elim

/-! ## One call -/

variable {s : State T}

theorem refines_reserve (hconf : Conforming cfg.bridge contract held)
    (hU : CollisionFree cfg U) {who : AccountId} {n : ℕ} (hwho : holder cfg s who ∈ U) :
    Refines cfg contract held U s (.reserve who n) := by
  unfold Refines
  cases h : ((Call.reserve who n).call cfg contract).run s with
  | ok rest s' =>
      obtain ⟨u, s₁, h1, h⟩ := run_bind_ok.mp h
      obtain ⟨rfl, rfl⟩ := run_pure_ok.mp h
      obtain ⟨rfl, rfl⟩ | ⟨address, haddress, htransfer, hmaps⟩ := reserve_ok h1
      · refine ⟨rfl, .inl ⟨_, rfl, represents_ledger hconf _⟩⟩
      · rw [holder_of_some haddress] at hwho
        obtain ⟨r, hr, hafter⟩ := represents_reserve hconf hU hwho htransfer
        refine ⟨hmaps, .inl ⟨r, ?_, hafter⟩⟩
        rw [Call.spec, holder_of_some haddress, hr]
        rfl
  | error e s' =>
      obtain h | ⟨u, s₁, -, h⟩ := run_bind_error.mp h
      · obtain ⟨rfl, hrefused⟩ := reserve_error h
        exact ⟨rfl, rfl, hrefused⟩
      · exact (run_pure_error.mp h).elim

theorem reservedBalance_of_none {who : AccountId} (h : s.maps.getEvmAddress who = none) :
    reservedBalance cfg contract who s = 0 := by
  rw [reservedBalance, h]

/-- Freeing the account's own reserve, by an `unreserve` or a repatriation to oneself. -/
theorem unreserve_refines (hconf : Conforming cfg.bridge contract held)
    (hU : CollisionFree cfg U) {who : AccountId} {n rest : ℕ} {s' : State T}
    (hwho : holder cfg s who ∈ U)
    (h : (unreserve cfg contract who n).run s = .ok rest s') :
    s'.maps = s.maps ∧
      ((rest = n - min (reservedBalance cfg contract who s) n ∧
          Represents cfg contract held U s' (Reserves.unreserve (holder cfg s who)
            (min (reservedBalance cfg contract who s) n) (ledger cfg held s.token))) ∨
        (rest = n ∧ FreeingFails cfg contract s who n ∧ s' = s)) := by
  obtain ⟨hnone, rfl, rfl⟩ | ⟨address, haddress, htransfer, hmaps, hrest⟩ |
    ⟨hfails, hrest, rfl⟩ := unreserve_ok h
  · have hactual : min (reservedBalance cfg contract who s') rest = 0 := by
      obtain rfl | hnone := hnone
      · exact Nat.min_zero _
      · rw [reservedBalance_of_none hnone, Nat.zero_min]
    rw [hactual]
    exact ⟨rfl, .inl ⟨rfl, represents_unreserve_zero hconf _ _⟩⟩
  · rw [holder_of_some haddress] at hwho ⊢
    exact ⟨hmaps, .inl ⟨hrest, represents_unreserve hconf hU hwho htransfer⟩⟩
  · exact ⟨rfl, .inr ⟨hrest, hfails, rfl⟩⟩

theorem refines_unreserve (hconf : Conforming cfg.bridge contract held)
    (hU : CollisionFree cfg U) {who : AccountId} {n : ℕ} (hwho : holder cfg s who ∈ U) :
    Refines cfg contract held U s (.unreserve who n) := by
  unfold Refines
  cases h : ((Call.unreserve who n).call cfg contract).run s with
  | ok rest s' =>
      obtain ⟨hmaps, ⟨rfl, hafter⟩ | ⟨rfl, hfails, rfl⟩⟩ :=
        unreserve_refines hconf hU hwho h
      · exact ⟨hmaps, .inl ⟨_, rfl, hafter⟩⟩
      · exact ⟨rfl, .inr ⟨who, rfl, hfails, rfl⟩⟩
  | error e s' => exact (unreserve_error h).elim

theorem refines_repatriateReserved (hconf : Conforming cfg.bridge contract held)
    (hU : CollisionFree cfg U) {slashed beneficiary : AccountId} {n : ℕ} {status : BalanceStatus}
    (hslashed : holder cfg s slashed ∈ U) (hbeneficiary : holder cfg s beneficiary ∈ U) :
    Refines cfg contract held U s (.repatriateReserved slashed beneficiary n status) := by
  unfold Refines
  cases h : ((Call.repatriateReserved slashed beneficiary n status).call cfg contract).run s with
  | ok rest s' =>
      by_cases hself : slashed = beneficiary
      · subst hself
        obtain ⟨rfl, hfree⟩ | ⟨rfl, rfl, rfl⟩ := repatriateReserved_self h
        · obtain ⟨hmaps, ⟨rfl, hafter⟩ | ⟨rfl, hfails, rfl⟩⟩ :=
            unreserve_refines hconf hU hslashed hfree
          · refine ⟨.inl hmaps, .inl ⟨_, ?_, hafter⟩⟩
            rw [Call.spec, repatriate, Reserves.repatriateFree, if_pos rfl]
            rfl
          · exact ⟨.inl rfl, .inr ⟨slashed, if_pos ⟨rfl, rfl⟩, hfails, rfl⟩⟩
        · refine ⟨.inl rfl, .inl ⟨_, ?_, represents_ledger hconf _⟩⟩
          rw [Call.spec, repatriate, Reserves.repatriateReserved, if_pos (.inr rfl)]
          rfl
      · obtain ⟨rfl, rfl, rfl⟩ | ⟨address, haddress, htransfer, hlinks, rfl⟩ :=
          repatriateReserved_ok hself h
        · obtain ⟨r, hr, hafter⟩ := represents_repatriate_zero (U := U) hconf s' status
            (holder cfg s' slashed) (holder cfg s' beneficiary)
          refine ⟨.inl rfl, .inl ⟨r, ?_, hafter⟩⟩
          rw [Call.spec, Nat.min_zero, hr]
          rfl
        · rw [holder_of_some haddress] at hslashed
          cases status with
          | Free =>
              obtain ⟨r, hr, hafter⟩ :=
                represents_repatriateFree hconf hU hslashed hbeneficiary htransfer
              refine ⟨hlinks, .inl ⟨r, ?_, hafter⟩⟩
              rw [Call.spec, holder_of_some haddress, repatriate, hr]
              rfl
          | Reserved =>
              obtain ⟨r, hr, hafter⟩ :=
                represents_repatriateReserved hconf hU hslashed hbeneficiary htransfer
              refine ⟨hlinks, .inl ⟨r, ?_, hafter⟩⟩
              rw [Call.spec, holder_of_some haddress, repatriate, hr]
              rfl
  | error e s' => exact repatriateReserved_error h

theorem refines_call (hconf : Conforming cfg.bridge contract held) (hU : CollisionFree cfg U)
    (c : Call) (hc : ∀ a ∈ c.accounts, holder cfg s a ∈ U) : Refines cfg contract held U s c := by
  cases c with
  | reserve who n => exact refines_reserve hconf hU (hc who List.mem_cons_self)
  | unreserve who n => exact refines_unreserve hconf hU (hc who List.mem_cons_self)
  | repatriateReserved slashed beneficiary n status =>
      exact refines_repatriateReserved hconf hU (hc slashed List.mem_cons_self)
        (hc beneficiary (List.mem_cons_of_mem _ List.mem_cons_self))

/-! ## Runs -/

theorem reservedBalance_le (hconf : Conforming cfg.bridge contract held) (who : AccountId) :
    reservedBalance cfg contract who s
      ≤ (ledger cfg held s.token).reserved (holder cfg s who) := by
  cases h : s.maps.getEvmAddress who with
  | some address => rw [reservedBalance_eq hconf h, holder_of_some h]
  | none =>
      rw [reservedBalance_of_none h]
      exact Nat.zero_le _

/-- The abstract operations move tokens between the holders. -/
theorem totalOver_spec (hconf : Conforming cfg.bridge contract held) {c : Call} {rest : ℕ}
    {r : Reserves EvmAddress} {X : Finset EvmAddress}
    (hX : ∀ a ∈ c.accounts, holder cfg s a ∈ X)
    (h : c.spec cfg contract s (ledger cfg held s.token) = .ok (rest, r)) :
    r.totalOver X = (ledger cfg held s.token).totalOver X := by
  cases c with
  | reserve who n =>
      cases hr : Reserves.reserve Reserves.Rules.permissive (holder cfg s who) n
          (ledger cfg held s.token) with
      | error e =>
          rw [Call.spec, hr] at h
          cases h
      | ok r₁ =>
          rw [Call.spec, hr] at h
          cases h
          exact Reserves.reserve_totalOver hr
  | unreserve who n =>
      cases h
      exact Reserves.unreserve_totalOver ..
  | repatriateReserved slashed beneficiary n status =>
      have hslashed := hX slashed List.mem_cons_self
      have hbeneficiary := hX beneficiary (List.mem_cons_of_mem _ List.mem_cons_self)
      have hactual : min (reservedBalance cfg contract slashed s) n
          ≤ (ledger cfg held s.token).reserved (holder cfg s slashed) :=
        Nat.le_trans (Nat.min_le_left _ _) (reservedBalance_le hconf slashed)
      cases hr : repatriate status (holder cfg s slashed) (holder cfg s beneficiary)
          (min (reservedBalance cfg contract slashed s) n) (ledger cfg held s.token) with
      | error e =>
          rw [Call.spec, hr] at h
          cases h
      | ok r₁ =>
          rw [Call.spec, hr] at h
          cases h
          cases status with
          | Free =>
              exact Reserves.repatriateFree_totalOver hslashed hbeneficiary hactual rfl hr
          | Reserved =>
              exact Reserves.repatriateReserved_totalOver hslashed hbeneficiary hactual rfl hr

/-- What one call keeps: the holders of the accounts, and the tokens of the addresses in use. -/
theorem Refines.step {c : Call} (hconf : Conforming cfg.bridge contract held)
    (h : Refines cfg contract held U s c) :
    SameHolders cfg s (Currencies.step cfg contract s c) ∧ ∀ X : Finset EvmAddress, ↑X ⊆ U →
      (∀ a ∈ c.accounts, holder cfg s a ∈ X) →
        (ledger cfg held (Currencies.step cfg contract s c).token).totalOver X
          = (ledger cfg held s.token).totalOver X := by
  have hmaps : ∀ s', c.mapsAfter cfg s s' → SameHolders cfg s s' := by
    intro s' hs'
    cases c with
    | reserve who n => exact .of_maps hs'
    | unreserve who n => exact .of_maps hs'
    | repatriateReserved slashed beneficiary n status => exact OnlyLinks.sameHolders hs'
  unfold Refines at h
  unfold Currencies.step
  cases hrun : (c.call cfg contract).run s with
  | ok rest s' =>
      rw [hrun] at h
      rw [commit_of_ok hrun]
      refine ⟨hmaps s' h.1, fun X hX hc => ?_⟩
      obtain ⟨r, hr, hafter⟩ | ⟨who, -, -, rfl⟩ := h.2
      · rw [← totalOver_spec hconf hc hr]
        refine Finset.sum_congr rfl fun x hx => ?_
        dsimp only [ledger]
        rw [hafter.free x (hX hx), hafter.reserved x (hX hx)]
      · rfl
  | error e s' =>
      rw [hrun] at h
      rw [commit_of_error hrun]
      refine ⟨hmaps s' h.1, fun X hX hc => ?_⟩
      rw [h.2.1]

/-- **The reserves of ERC-20 currencies.** Every call of a run refines its abstract operation, and
the addresses in use have as much together after the run as before it. -/
theorem erc20_refines (hconf : Conforming cfg.bridge contract held) (hU : CollisionFree cfg U)
    {calls : List Call} (hcalls : ∀ c ∈ calls, ∀ a ∈ c.accounts, holder cfg s a ∈ U) :
    Machine.StepsMeet (step cfg contract) (Refines cfg contract held U) s calls ∧
      ∀ X : Finset EvmAddress, ↑X ⊆ U →
        (∀ c ∈ calls, ∀ a ∈ c.accounts, holder cfg s a ∈ X) →
          (ledger cfg held (Machine.run (step cfg contract) s calls).token).totalOver X
            = (ledger cfg held s.token).totalOver X := by
  induction calls generalizing s with
  | nil => exact ⟨trivial, fun _ _ _ => rfl⟩
  | cons c calls ih =>
      have hc := refines_call hconf hU c (hcalls c List.mem_cons_self)
      obtain ⟨hsame, htotal⟩ := hc.step hconf
      have hrest : ∀ c' ∈ calls, ∀ a ∈ c'.accounts, holder cfg (step cfg contract s c) a ∈ U := by
        intro c' hc' a ha
        rw [hsame.holder]
        exact hcalls c' (List.mem_cons_of_mem c hc') a ha
      obtain ⟨hsteps, hrun⟩ := ih hrest
      refine ⟨⟨hc, hsteps⟩, fun X hX hholders => ?_⟩
      rw [Machine.run_cons, hrun X hX ?_, htotal X hX (hholders c List.mem_cons_self)]
      intro c' hc' a ha
      rw [hsame.holder]
      exact hholders c' (List.mem_cons_of_mem c hc') a ha

/-! ## A token that can be paused -/

section Sample

/-- What addresses hold of a token, and whether its transfers are refused. -/
structure SampleToken where
  paused : Bool
  held : EvmAddress → ℕ

/-- The default address of the account 1. -/
def bobEvmAddress : EvmAddress := 0x019357256740e3dbc88acd1a082cd068d874aed0

def bob : AccountId := 1

def sampleBridge : EVMBridge SampleToken where
  balanceOf _ address t := some (t.held address)
  transfer context dest n t :=
    if t.paused ∨ t.held context.sender < n then none
    else
      some
        { t with
          held := fun x =>
            t.held x - (if x = context.sender then n else 0) + if x = dest then n else 0 }

/-- The hashes of the two addresses, and the default address of the account that has none. -/
def sampleConfig : Config SampleToken where
  params :=
    { sampleParams with
      accountToDefaultEvmAddress := fun accountId => if accountId = bob then bobEvmAddress else 0 }
  bridge := sampleBridge
  blake2_256 bytes :=
    if bytes = erc20Prefix ++ BigEndian.toBytes 20 aliceEvmAddress.toNat then
      0xcee0a19b62d695ee27f287870f39d5b6b3101141ca8ff0de749d26d878926575
    else if bytes = erc20Prefix ++ BigEndian.toBytes 20 bobEvmAddress.toNat then
      0x6aa6e48e92cc88299bc3dd575767db90045753f7e8f74fe08bc840b908a025da
    else 0

/-- One account has an address, 20 tokens and 10 reserved. The default address of the other holds
3 tokens that were sent there. -/
def sampleState (paused : Bool) : State SampleToken where
  maps := Maps.empty.link aliceEvmAddress alice
  token :=
    { paused := paused
      held := fun x =>
        if x = aliceEvmAddress then 20
        else if x = reserveAddress sampleConfig aliceEvmAddress then 10
        else if x = bobEvmAddress then 3 else 0 }

def sampleUsed : Finset EvmAddress := {aliceEvmAddress, bobEvmAddress}

theorem sampleBridge_conforming : Conforming sampleConfig.bridge 0 SampleToken.held where
  balanceOf _ _ _ _ := rfl
  transfer context dest n t t' _ h := by
    change (if t.paused ∨ t.held context.sender < n then none else _) = some t' at h
    split at h
    · cases h
    · rename_i hallowed
      have hn : n ≤ t.held context.sender := by
        by_contra hlt
        exact hallowed (.inr (Nat.lt_of_not_le hlt))
      cases h
      refine ⟨hn, fun x => ?_⟩
      dsimp only
      by_cases hx : x = context.sender
      · rw [if_pos hx, hx]
        omega
      · rw [if_neg hx]
        omega

theorem sampleUsed_collisionFree : CollisionFree sampleConfig (↑sampleUsed) := by
  have hmem : ∀ x ∈ (↑sampleUsed : Set EvmAddress), x = aliceEvmAddress ∨ x = bobEvmAddress := by
    intro x hx
    simpa [sampleUsed] using hx
  constructor
  · intro x hx y hy h
    obtain rfl | rfl := hmem x hx
    · obtain rfl | rfl := hmem y hy
      · rfl
      · exact absurd h (by decide +kernel)
    · obtain rfl | rfl := hmem y hy
      · exact absurd h (by decide +kernel)
      · rfl
  · intro x hx y hy
    obtain rfl | rfl := hmem x hx
    · obtain rfl | rfl := hmem y hy
      · decide +kernel
      · decide +kernel
    · obtain rfl | rfl := hmem y hy
      · decide +kernel
      · decide +kernel

def sampleCalls : List Call :=
  [.reserve alice 5, .unreserve alice 2, .repatriateReserved alice bob 4 .Free,
    .repatriateReserved alice bob 100 .Reserved, .reserve bob 7,
    .repatriateReserved bob bob 3 .Free]

theorem sampleCalls_holders : ∀ c ∈ sampleCalls, ∀ a ∈ c.accounts,
    holder sampleConfig (sampleState false) a ∈ sampleUsed := by
  have haccounts : sampleCalls.flatMap Call.accounts
      = [alice, alice, alice, bob, alice, bob, bob, bob, bob] := rfl
  intro c hc a ha
  have hmem := List.mem_flatMap.mpr ⟨c, hc, ha⟩
  rw [haccounts] at hmem
  have hcases : a = alice ∨ a = bob := by
    simp only [List.mem_cons, List.not_mem_nil] at hmem
    tauto
  obtain rfl | rfl := hcases
  · decide +kernel
  · decide +kernel

theorem sampleCalls_refine :
    Machine.StepsMeet (step sampleConfig 0)
        (Refines sampleConfig 0 SampleToken.held (↑sampleUsed)) (sampleState false) sampleCalls ∧
      (ledger sampleConfig SampleToken.held
          (Machine.run (step sampleConfig 0) (sampleState false) sampleCalls).token).totalOver
          sampleUsed
        = (ledger sampleConfig SampleToken.held (sampleState false).token).totalOver sampleUsed :=
  have h := erc20_refines sampleBridge_conforming sampleUsed_collisionFree
    (s := sampleState false) sampleCalls_holders
  ⟨h.1, h.2 sampleUsed (fun _ hx => hx) sampleCalls_holders⟩

/-- What a call returns, if it does. -/
def returned (c : Call) (s : State SampleToken) : Option ℕ :=
  match (c.call sampleConfig 0).run s with
  | .ok rest _ => some rest
  | .error _ _ => none

/-- **Where a call does not do what an abstract one on accounts would.** While the token is paused,
all of a value is left although twice of it is reserved. A repatriation to an account that has no
address gives it what its default address holds besides; if it fails, that is all it does. -/
theorem erc20_deviates :
    Conforming sampleConfig.bridge 0 SampleToken.held ∧
    CollisionFree sampleConfig (↑sampleUsed) ∧
    (returned (.unreserve alice 5) (sampleState true) = some 5 ∧
      reservedBalance sampleConfig 0 alice (sampleState true) = 10 ∧
      reservedBalance sampleConfig 0 alice
        (step sampleConfig 0 (sampleState true) (.unreserve alice 5)) = 10) ∧
    (returned (.repatriateReserved alice bob 4 .Free) (sampleState false) = some 0 ∧
      freeBalance sampleConfig 0 bob (sampleState false) = 0 ∧
      freeBalance sampleConfig 0 bob
        (step sampleConfig 0 (sampleState false) (.repatriateReserved alice bob 4 .Free)) = 7) ∧
    (returned (.repatriateReserved alice bob 4 .Free) (sampleState true) = none ∧
      freeBalance sampleConfig 0 bob (sampleState true) = 0 ∧
      freeBalance sampleConfig 0 bob
        (step sampleConfig 0 (sampleState true) (.repatriateReserved alice bob 4 .Free)) = 3) := by
  refine ⟨sampleBridge_conforming, sampleUsed_collisionFree, ?_⟩
  decide +kernel

end Sample

end Setheum.Currencies
