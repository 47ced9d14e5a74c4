import Setheum.Lib.BigEndian
import Setheum.Lib.Dispatch
import Setheum.Lib.Run
import Setheum.Lib.StorageMap
import Setheum.Primitives.Currency

/-!
# Accounts as EVM addresses

An account can be bound to one EVM address: to one that it proves to own, or to a default one
that is hashed from the account. The pair is stored in two maps. An address that is bound to no
account stands for the account that is the address itself, after four bytes `evm:` and padded
with zeros.

* `Maps.run_consistent` — the two maps mirror each other in every reachable state.
* `Maps.getAccountId_getEvmAddress` — the address of an account leads back to it, or to the
  account that the address has been bound to since.

The hash of default addresses and the recovery of an address from a signature are parameters.
-/

set_option autoImplicit false

namespace Setheum.EvmAccounts

open BigEndian StorageMap Dispatch

/-- A 32-byte account, as the number its big-endian bytes spell. -/
abbrev AccountId := BitVec 256

def AccountId.asBytes (accountId : AccountId) : List UInt8 := toBytes 32 accountId.toNat

/-- The bytes `evm:`. -/
def evmPrefix : List UInt8 := [0x65, 0x76, 0x6d, 0x3a]

/-- The account that stands for an address which is bound to none. -/
def padded (address : EvmAddress) : AccountId :=
  BitVec.ofNat 256 (ofBytes (evmPrefix ++ toBytes 20 address.toNat ++ List.replicate 8 0))

/-- The recovery of the address that signed a message which names an account, and the default
address of an account. -/
structure Params where
  Signature : Type
  ethRecover : Signature → AccountId → Option EvmAddress
  accountToDefaultEvmAddress : AccountId → EvmAddress

inductive Error
  | AccountIdHasMapped
  | EthAddressHasMapped
  | BadSignature
  | InvalidSignature
  | transferAll
  | onClaim
  deriving DecidableEq, Repr

/-- `Accounts` and `EvmAddresses`. -/
structure Maps where
  accounts : Map EvmAddress AccountId
  evmAddresses : Map AccountId EvmAddress

/-- What the other pallets do in a claim: whether the padded account exists, whether its funds
can be moved and that ends it, and whether the hook on claims accepts. -/
structure ClaimEnvironment where
  accountExists : Bool
  transferAll : Option Bool
  onClaim : Bool

namespace Maps

variable (p : Params) (m : Maps)

def getAccountId (address : EvmAddress) : AccountId :=
  (m.accounts.lookup address).getD (padded address)

/-- The address that an account is bound to, or the one inside of an account that starts with
`evm:`. What follows that address in the account is not looked at. -/
def getEvmAddress (accountId : AccountId) : Option EvmAddress :=
  match m.evmAddresses.lookup accountId with
  | some address => some address
  | none =>
      if evmPrefix.isPrefixOf accountId.asBytes then
        some (BitVec.ofNat 160 (ofBytes ((accountId.asBytes.drop 4).take 20)))
      else none

def link (address : EvmAddress) (accountId : AccountId) : Maps :=
  ⟨m.accounts.insert address accountId, m.evmAddresses.insert accountId address⟩

/-- The maps after `get_or_create_evm_address`, and its result. -/
def getOrCreateEvmAddress (accountId : AccountId) : EvmAddress × Maps :=
  match m.getEvmAddress accountId with
  | some address => (address, m)
  | none =>
      let address := p.accountToDefaultEvmAddress accountId
      (address, m.link address accountId)

def isLinked (accountId : AccountId) (evm : EvmAddress) : Bool :=
  m.getEvmAddress accountId = some evm || p.accountToDefaultEvmAddress accountId = evm

def onKilledAccount (who : AccountId) : Maps :=
  let accounts := m.accounts.erase (p.accountToDefaultEvmAddress who)
  match m.evmAddresses.lookup who with
  | some address => ⟨accounts.erase address, m.evmAddresses.erase who⟩
  | none => ⟨accounts, m.evmAddresses⟩

end Maps

variable (p : Params)

def claimAccount (who : AccountId) (ethAddress : EvmAddress) (ethSignature : p.Signature)
    (environment : ClaimEnvironment) : Dispatch Error Maps Unit :=
  transactional do
    let m ← get
    ensure (m.evmAddresses.lookup who = none) .AccountIdHasMapped
    ensure (m.accounts.lookup ethAddress = none) .EthAddressHasMapped
    let address ← okOr (p.ethRecover ethSignature who) .BadSignature
    ensure (ethAddress = address) .InvalidSignature
    when environment.accountExists do
      let ends ← okOr environment.transferAll .transferAll
      when ends (modify (·.onKilledAccount p (m.getAccountId ethAddress)))
    modify (·.link ethAddress who)
    ensure environment.onClaim .onClaim

def claimDefaultAccount (who : AccountId) (onClaim : Bool) : Dispatch Error Maps Unit := do
  let m ← get
  ensure (m.evmAddresses.lookup who = none) .AccountIdHasMapped
  set (m.getOrCreateEvmAddress p who).2
  ensure onClaim .onClaim

/-- What happens to the maps. -/
inductive Op
  | claimAccount (who : AccountId) (ethAddress : EvmAddress) (ethSignature : p.Signature)
      (environment : ClaimEnvironment)
  | claimDefaultAccount (who : AccountId) (onClaim : Bool)
  | getOrCreateEvmAddress (who : AccountId)
  | onKilledAccount (who : AccountId)

/-- The accounts that an operation is about. -/
def Op.about : Op p → List AccountId
  | .claimAccount who ethAddress _ _ => [who, padded ethAddress]
  | .claimDefaultAccount who _ => [who]
  | .getOrCreateEvmAddress who => [who]
  | .onKilledAccount who => [who]

/-- Nobody signs a claim for the default address of an account of the set. -/
def Op.Unforged (S : Set AccountId) : Op p → Prop
  | .claimAccount who _ ethSignature _ =>
      ∀ a ∈ S, p.ethRecover ethSignature who ≠ some (p.accountToDefaultEvmAddress a)
  | _ => True

/-- An operation about accounts of the set which nobody forged. -/
structure Op.Admissible (S : Set AccountId) (op : Op p) : Prop where
  about : ∀ a ∈ op.about, a ∈ S
  unforged : op.Unforged p S

def Maps.step (m : Maps) : Op p → Maps
  | .claimAccount who ethAddress ethSignature environment =>
      commit (EvmAccounts.claimAccount p who ethAddress ethSignature environment) m
  | .claimDefaultAccount who onClaim => commit (EvmAccounts.claimDefaultAccount p who onClaim) m
  | .getOrCreateEvmAddress who => (m.getOrCreateEvmAddress p who).2
  | .onKilledAccount who => m.onKilledAccount p who

def Maps.empty : Maps := ⟨∅, ∅⟩

/-! ## The two maps mirror each other -/

/-- The maps mirror each other, over the accounts of a set, and only an account itself is bound
to its default address. -/
structure Maps.Consistent (S : Set AccountId) (m : Maps) : Prop where
  mirrors : Mirrors m.accounts m.evmAddresses
  member : ∀ address accountId, m.accounts.lookup address = some accountId → accountId ∈ S
  default : ∀ a ∈ S, ∀ b, m.accounts.lookup (p.accountToDefaultEvmAddress a) = some b → b = a

variable {p} {S : Set AccountId} {m m' : Maps} {who : AccountId} {address : EvmAddress}

namespace Maps.Consistent

/-- An address is bound to an account that has none, if it is bound to none, and is the default
address of no other. -/
theorem link (h : m.Consistent p S) (hwho : who ∈ S) (haddress : m.accounts.lookup address = none)
    (hnone : m.evmAddresses.lookup who = none)
    (hdefault : ∀ a ∈ S, p.accountToDefaultEvmAddress a = address → who = a) :
    (m.link address who).Consistent p S := by
  refine ⟨h.mirrors.insert haddress hnone, fun e a ha => ?_, fun a ha b hb => ?_⟩
  · by_cases he : e = address
    · rw [Maps.link, he, AList.lookup_insert] at ha
      cases ha
      exact hwho
    · rw [Maps.link, AList.lookup_insert_ne he] at ha
      exact h.member e a ha
  · by_cases he : p.accountToDefaultEvmAddress a = address
    · rw [Maps.link, he, AList.lookup_insert] at hb
      cases hb
      exact hdefault a ha he
    · rw [Maps.link, AList.lookup_insert_ne he] at hb
      exact h.default a ha b hb

/-- A default address is bound to its account or to none. -/
theorem evmAddresses_of_default (h : m.Consistent p S) (hwho : who ∈ S) {b : AccountId}
    (hb : m.accounts.lookup (p.accountToDefaultEvmAddress who) = some b) :
    m.evmAddresses.lookup who = some (p.accountToDefaultEvmAddress who) := by
  have hbound := (h.mirrors _ _).mp hb
  rwa [h.default who hwho b hb] at hbound

/-- Fewer bindings are consistent too. -/
theorem of_sub (h : m.Consistent p S) (hmirrors : Mirrors m'.accounts m'.evmAddresses)
    (hsub : ∀ e a, m'.accounts.lookup e = some a → m.accounts.lookup e = some a) :
    m'.Consistent p S :=
  ⟨hmirrors, fun e a ha => h.member e a (hsub e a ha),
    fun a ha b hb => h.default a ha b (hsub _ b hb)⟩

theorem onKilledAccount (h : m.Consistent p S) (hwho : who ∈ S) :
    (m.onKilledAccount p who).Consistent p S := by
  set d := p.accountToDefaultEvmAddress who with hd
  cases hbound : m.evmAddresses.lookup who with
  | none =>
      have hfree : m.accounts.lookup d = none := by
        by_contra hsome
        obtain ⟨b, hb⟩ := Option.ne_none_iff_exists'.mp hsome
        rw [h.evmAddresses_of_default hwho hb] at hbound
        cases hbound
      have hkilled : m.onKilledAccount p who = ⟨m.accounts.erase d, m.evmAddresses⟩ := by
        rw [Maps.onKilledAccount, hbound]
      have hsame : ∀ e, (m.accounts.erase d).lookup e = m.accounts.lookup e := fun e => by
        by_cases he : e = d
        · rw [he, AList.lookup_erase, hfree]
        · rw [AList.lookup_erase_ne he]
      rw [hkilled]
      exact h.of_sub (h.mirrors.congr hsame fun _ => rfl) fun e a ha => by rwa [hsame] at ha
  | some address =>
      have hkilled : m.onKilledAccount p who
          = ⟨(m.accounts.erase d).erase address, m.evmAddresses.erase who⟩ := by
        rw [Maps.onKilledAccount, hbound]
      have hsame : ∀ e, ((m.accounts.erase d).erase address).lookup e
          = (m.accounts.erase address).lookup e := fun e => by
        by_cases he : e = address
        · rw [he, AList.lookup_erase, AList.lookup_erase]
        · rw [AList.lookup_erase_ne he, AList.lookup_erase_ne he]
          by_cases hed : e = d
          · rw [hed, AList.lookup_erase]
            by_contra hsome
            obtain ⟨b, hb⟩ := Option.ne_none_iff_exists'.mp (Ne.symm hsome)
            rw [h.evmAddresses_of_default hwho hb] at hbound
            exact he (hed.trans (Option.some.inj hbound))
          · rw [AList.lookup_erase_ne hed]
      rw [hkilled]
      have hpair := (h.mirrors address who).mpr hbound
      refine h.of_sub ((h.mirrors.erase hpair).congr hsame fun _ => rfl) fun e a ha => ?_
      have hsub : (m.accounts.erase address).lookup e = some a := by rwa [hsame] at ha
      by_cases he : e = address
      · rw [he, AList.lookup_erase] at hsub
        cases hsub
      · rwa [AList.lookup_erase_ne he] at hsub

theorem getOrCreateEvmAddress (h : m.Consistent p S)
    (hinj : Set.InjOn p.accountToDefaultEvmAddress S) (hwho : who ∈ S) :
    (m.getOrCreateEvmAddress p who).2.Consistent p S := by
  unfold Maps.getOrCreateEvmAddress
  cases hget : m.getEvmAddress who with
  | some address => exact h
  | none =>
      have hnone : m.evmAddresses.lookup who = none := by
        by_contra hsome
        obtain ⟨e, he⟩ := Option.ne_none_iff_exists'.mp hsome
        rw [getEvmAddress, he] at hget
        cases hget
      have hfree : m.accounts.lookup (p.accountToDefaultEvmAddress who) = none := by
        by_contra hsome
        obtain ⟨b, hb⟩ := Option.ne_none_iff_exists'.mp hsome
        rw [h.evmAddresses_of_default hwho hb] at hnone
        cases hnone
      exact h.link hwho hfree hnone fun a ha heq => (hinj ha hwho heq).symm

end Maps.Consistent

theorem Maps.getEvmAddress_link (m : Maps) (address : EvmAddress) (who a : AccountId) :
    (m.link address who).getEvmAddress a = if a = who then some address else m.getEvmAddress a := by
  unfold link getEvmAddress
  by_cases ha : a = who
  · rw [if_pos ha, ha, AList.lookup_insert]
  · rw [if_neg ha, AList.lookup_insert_ne ha]

/-- The address that an account gets, or has, is linked to it. -/
theorem Maps.isLinked_getOrCreateEvmAddress (p : Params) (m : Maps) (accountId : AccountId) :
    (m.getOrCreateEvmAddress p accountId).2.isLinked p accountId
      (m.getOrCreateEvmAddress p accountId).1 = true := by
  unfold getOrCreateEvmAddress isLinked
  cases hget : m.getEvmAddress accountId with
  | some address =>
      dsimp only
      rw [hget, decide_eq_true rfl, Bool.true_or]
  | none =>
      dsimp only
      rw [decide_eq_true rfl, Bool.or_true]

/-- Killing an account binds nothing. -/
theorem Maps.onKilledAccount_none (p : Params) (m : Maps) (killed : AccountId) :
    (∀ e, m.accounts.lookup e = none → (m.onKilledAccount p killed).accounts.lookup e = none) ∧
      ∀ a, m.evmAddresses.lookup a = none →
        (m.onKilledAccount p killed).evmAddresses.lookup a = none := by
  have herase : ∀ {κ ν : Type} [DecidableEq κ] (n : Map κ ν) (i k : κ),
      n.lookup i = none → (n.erase k).lookup i = none := by
    intro κ ν _ n i k hnone
    by_cases hi : i = k
    · rw [hi, AList.lookup_erase]
    · rw [AList.lookup_erase_ne hi, hnone]
  unfold onKilledAccount
  cases m.evmAddresses.lookup killed with
  | none => exact ⟨fun e he => herase _ _ _ he, fun a ha => ha⟩
  | some address =>
      exact ⟨fun e he => herase _ _ _ (herase _ _ _ he), fun a ha => herase _ _ _ ha⟩

/-- A claim that succeeds binds the address that was recovered from the signature, after it may
have ended the padded account. -/
theorem claimAccount_spec {ethSignature : p.Signature} {environment : ClaimEnvironment}
    (h : (claimAccount p who address ethSignature environment).run m = .ok () m') :
    p.ethRecover ethSignature who = some address ∧ m.evmAddresses.lookup who = none ∧
      m.accounts.lookup address = none ∧
      (m' = m.link address who ∨ m' = (m.onKilledAccount p (padded address)).link address who) := by
  obtain ⟨_, s, h1, h⟩ := run_bind_ok.mp (run_transactional_ok.mp h)
  obtain ⟨rfl, rfl⟩ := run_get_ok.mp h1
  obtain ⟨_, s, h1, h⟩ := run_bind_ok.mp h
  obtain ⟨hwho, rfl⟩ := run_ensure_ok.mp h1
  obtain ⟨_, s, h1, h⟩ := run_bind_ok.mp h
  obtain ⟨haddress, rfl⟩ := run_ensure_ok.mp h1
  obtain ⟨recovered, s, h1, h⟩ := run_bind_ok.mp h
  obtain ⟨hrecover, rfl⟩ := run_okOr_ok.mp h1
  obtain ⟨_, s, h1, h⟩ := run_bind_ok.mp h
  obtain ⟨rfl, rfl⟩ := run_ensure_ok.mp h1
  obtain ⟨_, m₁, hmerge, h⟩ := run_bind_ok.mp h
  obtain ⟨_, m₂, hlink, h⟩ := run_bind_ok.mp h
  obtain ⟨-, rfl⟩ := run_ensure_ok.mp h
  rw [← run_modify_ok.mp hlink]
  refine ⟨hrecover, hwho, haddress, ?_⟩
  obtain ⟨-, hmerge⟩ | ⟨-, rfl⟩ := run_when_ok.mp hmerge
  · obtain ⟨ends, s, h1, hmerge⟩ := run_bind_ok.mp hmerge
    obtain ⟨-, rfl⟩ := run_okOr_ok.mp h1
    obtain ⟨-, hkill⟩ | ⟨-, rfl⟩ := run_when_ok.mp hmerge
    · refine .inr ?_
      have hpadded : m.getAccountId address = padded address := by
        rw [Maps.getAccountId, haddress]
        rfl
      rw [← run_modify_ok.mp hkill, hpadded]
    · exact .inl rfl
  · exact .inl rfl

/-- A claim of the default address is not taken back if the hook on claims refuses. -/
theorem commit_claimDefaultAccount (p : Params) (m : Maps) (who : AccountId) (onClaim : Bool) :
    commit (claimDefaultAccount p who onClaim) m = (m.getOrCreateEvmAddress p who).2 ∨
      commit (claimDefaultAccount p who onClaim) m = m := by
  have hstart : commit (claimDefaultAccount p who onClaim) m
      = commit (ensure (m.evmAddresses.lookup who = none) Error.AccountIdHasMapped >>= fun _ => do
          set (m.getOrCreateEvmAddress p who).2
          ensure onClaim .onClaim : Dispatch Error Maps Unit) m := rfl
  by_cases hnone : m.evmAddresses.lookup who = none
  · have hensure : (ensure (m.evmAddresses.lookup who = none) Error.AccountIdHasMapped
        : Dispatch Error Maps Unit) = pure () := if_pos hnone
    rw [hstart, hensure]
    exact .inl (silent_ensure.commit_eq (m.getOrCreateEvmAddress p who).2)
  · have hensure : (ensure (m.evmAddresses.lookup who = none) Error.AccountIdHasMapped
        : Dispatch Error Maps Unit) = throw .AccountIdHasMapped := if_neg hnone
    rw [hstart, hensure]
    exact .inr rfl

/-- One operation keeps the maps consistent. -/
theorem Maps.Consistent.step (h : m.Consistent p S)
    (hinj : Set.InjOn p.accountToDefaultEvmAddress S) (op : Op p) (hop : op.Admissible p S) :
    (m.step p op).Consistent p S := by
  cases op with
  | claimAccount who ethAddress ethSignature environment =>
      have hwho : who ∈ S := hop.about who List.mem_cons_self
      have hpadded : padded ethAddress ∈ S :=
        hop.about _ (List.mem_cons_of_mem _ List.mem_cons_self)
      refine commit_transactional_invariant (P := fun m => Maps.Consistent p S m) h
        fun _ m' hrun => ?_
      obtain ⟨hrecover, hnone, hfree, hm'⟩ := claimAccount_spec (run_transactional_ok.mpr hrun)
      have hdefault : ∀ a ∈ S, p.accountToDefaultEvmAddress a = ethAddress → who = a := by
        intro a ha heq
        rw [← heq] at hrecover
        exact absurd hrecover (hop.unforged a ha)
      obtain rfl | rfl := hm'
      · exact h.link hwho hfree hnone hdefault
      · obtain ⟨haccounts, haddresses⟩ := m.onKilledAccount_none p (padded ethAddress)
        exact (h.onKilledAccount hpadded).link hwho (haccounts _ hfree) (haddresses _ hnone)
          hdefault
  | claimDefaultAccount who onClaim =>
      have hwho : who ∈ S := hop.about who List.mem_cons_self
      obtain hcommit | hcommit := commit_claimDefaultAccount p m who onClaim
      · rw [Maps.step, hcommit]
        exact h.getOrCreateEvmAddress hinj hwho
      · rw [Maps.step, hcommit]
        exact h
  | getOrCreateEvmAddress who =>
      exact h.getOrCreateEvmAddress hinj (hop.about who List.mem_cons_self)
  | onKilledAccount who => exact h.onKilledAccount (hop.about who List.mem_cons_self)

variable (S) in
/-- The maps stay consistent if the accounts have different default addresses and no claim of the
run is signed for one of these. -/
theorem Maps.run_consistent (hinj : Set.InjOn p.accountToDefaultEvmAddress S)
    {ops : List (Op p)} (hops : ∀ op ∈ ops, op.Admissible p S) :
    (Machine.run (Maps.step p) .empty ops).Consistent p S := by
  have hempty : Maps.empty.Consistent p S := by
    refine ⟨fun _ _ => iff_of_false nofun nofun, fun _ _ h => ?_, fun _ _ _ h => ?_⟩
    · cases h
    · cases h
  exact Machine.run_invariant (fun m op hm hop => hm.step hinj op hop) hempty
    (.of_forall hops Maps.empty)

/-- **In every reachable state an address is bound to an account exactly if the account is bound
to the address.** -/
theorem Maps.run_accounts_iff (hinj : Set.InjOn p.accountToDefaultEvmAddress S)
    {ops : List (Op p)} (hops : ∀ op ∈ ops, op.Admissible p S) (e : EvmAddress)
    (a : AccountId) :
    (Machine.run (Maps.step p) .empty ops).accounts.lookup e = some a ↔
      (Machine.run (Maps.step p) .empty ops).evmAddresses.lookup a = some e :=
  (Maps.run_consistent S hinj hops).mirrors e a

/-! ## From an account to its address and back -/

theorem AccountId.length_asBytes (a : AccountId) : (AccountId.asBytes a).length = 32 :=
  length_toBytes ..

/-- An account that starts with `evm:` and ends in eight zeros is the padded account of the
address in between. -/
theorem padded_eq {a : AccountId} (hstart : evmPrefix.isPrefixOf a.asBytes)
    (htail : a.asBytes.drop 24 = List.replicate 8 0) :
    padded (BitVec.ofNat 160 (ofBytes ((a.asBytes.drop 4).take 20))) = a := by
  have hlength := AccountId.length_asBytes a
  set inner := (a.asBytes.drop 4).take 20
  have hinner : inner.length = 20 := by
    rw [List.length_take, List.length_drop, hlength]
    rfl
  have hlt : ofBytes inner < 2 ^ 160 := by
    have hlt := ofBytes_lt inner
    rwa [hinner] at hlt
  have hbytes : evmPrefix ++ inner ++ List.replicate 8 0 = a.asBytes := by
    have hfront : a.asBytes.take 4 = evmPrefix := by
      rw [List.isPrefixOf_iff_prefix, List.prefix_iff_eq_take] at hstart
      exact hstart.symm
    have hrest : inner ++ a.asBytes.drop 24 = a.asBytes.drop 4 := by
      have hsplit := List.take_append_drop 20 (a.asBytes.drop 4)
      rwa [List.drop_drop] at hsplit
    rw [List.append_assoc, ← htail, hrest, ← hfront, List.take_append_drop]
  rw [padded, BitVec.toNat_ofNat, Nat.mod_eq_of_lt hlt, toBytes_ofBytes inner hinner, hbytes,
    AccountId.asBytes, ofBytes_toBytes]
  refine BitVec.eq_of_toNat_eq ?_
  have ha := a.isLt
  rw [BitVec.toNat_ofNat]
  omega

/-- **The address of an account leads back to the account**, or, if the account is not bound and
was only padded from the address, to the account that the address has been bound to since. -/
theorem Maps.getAccountId_getEvmAddress (hinj : Set.InjOn p.accountToDefaultEvmAddress S)
    {ops : List (Op p)} (hops : ∀ op ∈ ops, op.Admissible p S) {e : EvmAddress}
    {a : AccountId}
    (htail : (Machine.run (Maps.step p) .empty ops).evmAddresses.lookup a = none →
      a.asBytes.drop 24 = List.replicate 8 0)
    (h : (Machine.run (Maps.step p) .empty ops).getEvmAddress a = some e) :
    (Machine.run (Maps.step p) .empty ops).getAccountId e = a ∨
      ((Machine.run (Maps.step p) .empty ops).evmAddresses.lookup a = none ∧ a = padded e ∧
        (Machine.run (Maps.step p) .empty ops).evmAddresses.lookup
          ((Machine.run (Maps.step p) .empty ops).getAccountId e) = some e) := by
  have hmirrors := (Maps.run_consistent S hinj hops).mirrors
  generalize Machine.run (Maps.step p) .empty ops = m at htail h hmirrors
  unfold getEvmAddress at h
  cases hbound : m.evmAddresses.lookup a with
  | some address =>
      rw [hbound] at h
      cases h
      refine .inl ?_
      rw [getAccountId, (hmirrors e a).mpr hbound]
      rfl
  | none =>
      rw [hbound] at h
      dsimp only at h
      split at h
      · rename_i hstart
        have hpadded := padded_eq hstart (htail hbound)
        rw [Option.some.inj h] at hpadded
        cases haccount : m.accounts.lookup e with
        | none =>
            refine .inl ?_
            rw [getAccountId, haccount]
            exact hpadded
        | some b =>
            refine .inr ⟨rfl, hpadded.symm, ?_⟩
            rw [getAccountId, haccount]
            exact (hmirrors _ b).mp haccount
      · cases h

/-! ## A padded account and the account that claims its address -/

section Sample

/-- The account of 32 zero bytes, and an address that it has a signature of. -/
def alice : AccountId := 0

def aliceEvmAddress : EvmAddress := 0xbf0b5a4099f0bf6c8bc4252ebec548bae95602ea

def aliceSignature : BitVec 520 :=
  BitVec.ofNat 520 (0x03748df2f9c9bb7ffd700010778d0c35d353d257daea2fda314440c94601ce7a * 2 ^ 264
    + 0x0cb093569262e8c2f28c8cefb60b507c990b2407097dacefae850833d1280e83 * 2 ^ 8 + 0)

/-- The recovery and the hash on the inputs that the sample has. -/
def sampleParams : Params where
  Signature := BitVec 520
  ethRecover signature who :=
    if signature = aliceSignature ∧ who = alice then some aliceEvmAddress else none
  accountToDefaultEvmAddress accountId :=
    if accountId = alice then 0xf0bd9ffde7f9f4394d8cc1d86bf24d87e5d5a9a9
    else if accountId = padded aliceEvmAddress then 0x8b7679a1e36c2cf945cfb4e978b2e330c99cd1f7
    else 0

/-- An account claims its address, and the padded account that had it until then ends. -/
def sampleClaim : Op sampleParams :=
  .claimAccount alice aliceEvmAddress aliceSignature ⟨true, some true, true⟩

def sampleAccounts : Set AccountId := {alice, padded aliceEvmAddress}

theorem sampleAccounts_injOn :
    Set.InjOn sampleParams.accountToDefaultEvmAddress sampleAccounts := by
  rintro a (rfl | rfl) b (rfl | rfl) h
  · rfl
  · exact absurd h (by decide)
  · exact absurd h (by decide)
  · rfl

theorem sampleClaim_admissible :
    ∀ op ∈ [sampleClaim], op.Admissible sampleParams sampleAccounts := by
  intro op hop
  rw [List.mem_singleton.mp hop]
  refine ⟨fun a ha => ?_, fun a ha => ?_⟩
  · obtain rfl | ha := List.mem_cons.mp ha
    · exact .inl rfl
    · exact .inr (List.mem_singleton.mp ha)
  · have hrecover : sampleParams.ethRecover aliceSignature alice = some aliceEvmAddress := by
      simp [sampleParams]
    rw [hrecover]
    obtain rfl | rfl := ha
    · decide
    · decide

theorem run_accounts_iff_sample :
    (Machine.run (Maps.step sampleParams) .empty [sampleClaim]).accounts.lookup aliceEvmAddress
        = some alice ↔
      (Machine.run (Maps.step sampleParams) .empty [sampleClaim]).evmAddresses.lookup alice
        = some aliceEvmAddress :=
  Maps.run_accounts_iff sampleAccounts_injOn sampleClaim_admissible _ _

/-- Once its address is claimed, the padded account has an address still that leads to the
account which claimed it. -/
theorem padded_leads_to_claimer :
    let m := Machine.run (Maps.step sampleParams) .empty [sampleClaim]
    m.getEvmAddress (padded aliceEvmAddress) = some aliceEvmAddress ∧
      m.getAccountId aliceEvmAddress = alice ∧ alice ≠ padded aliceEvmAddress := by
  decide +kernel

theorem getAccountId_getEvmAddress_sample :
    let m := Machine.run (Maps.step sampleParams) .empty [sampleClaim]
    m.getAccountId aliceEvmAddress = alice ∨
      (m.evmAddresses.lookup alice = none ∧ alice = padded aliceEvmAddress ∧
        m.evmAddresses.lookup (m.getAccountId aliceEvmAddress) = some aliceEvmAddress) :=
  Maps.getAccountId_getEvmAddress sampleAccounts_injOn sampleClaim_admissible (fun _ => by decide +kernel) (by decide +kernel)

end Sample

end Setheum.EvmAccounts
