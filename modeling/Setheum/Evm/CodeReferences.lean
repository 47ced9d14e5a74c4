import Setheum.Lib.Interned
import Setheum.Lib.Run
import Setheum.Evm.Creation

/-!
# References to codes

Contracts that have the same code share one copy of it, which is kept under a count of them. The
code goes with the last contract that has it.

* `World.CodesCounted` — a code is stored for as long as a contract has it, with its length and
  the number of those contracts.
* `World.initialisations` — the contracts that an operation installs for good.
* `World.run_codesCounted` — every run keeps the codes counted, as long as no contract is
  installed over another one and no code is replaced.
-/

set_option autoImplicit false

namespace Setheum.Evm

open StorageMap Dispatch

variable {A N : Type}

/-! ## Counted codes -/

/-- How often an account with this contract, or without one, refers to a code. -/
def refers (contract : Option ContractInfo) (h : H256) : ℕ :=
  if contract.map ContractInfo.codeHash = some h then 1 else 0

@[simp] theorem refers_none (h : H256) : refers none h = 0 := if_neg nofun

theorem refers_some (contract : ContractInfo) (h : H256) :
    refers (some contract) h = if h = contract.codeHash then 1 else 0 := by
  have hiff : (some contract).map ContractInfo.codeHash = some h ↔ h = contract.codeHash :=
    Option.some_inj.trans eq_comm
  exact if_congr hiff rfl rfl

namespace World

section Users

variable (w : World A N)

/-- The number of accounts that host a contract with this code. -/
def users (h : H256) : ℕ := sumBy (fun _ info => refers info.contractInfo h) w.accounts

/-- Every code in use is stored once, and counted. -/
structure CodesCounted (p : Params A N) : Prop where
  info_iff : ∀ h, (w.codeInfos.lookup h).isSome ↔ (w.codes.lookup h).isSome
  code_iff : ∀ h, (w.codes.lookup h).isSome ↔
    ∃ address contract, w.contractInfo address = some contract ∧ contract.codeHash = h
  refCount : ∀ h info, w.codeInfos.lookup h = some info → info.refCount = w.users h
  code : ∀ h info, w.codeInfos.lookup h = some info → ∃ code, w.codes.lookup h = some code ∧
    p.keccak256 code = h ∧ info.codeSize = code.length

/-- The stored codes as values under reference counts. -/
def codeStore : Interned.Store H256 Code where
  values h := w.codes.lookup h
  infos h := (w.codeInfos.lookup h).map fun info => (info.codeSize, info.refCount)

theorem weightAt_refers (a : EvmAddress) (h : H256) :
    weightAt (fun _ info => refers info.contractInfo h) w.accounts a
      = refers (w.contractInfo a) h := by
  unfold weightAt contractInfo
  cases w.accounts.lookup a with
  | none => exact (refers_none h).symm
  | some info => rfl

theorem users_putAccount (a : EvmAddress) (info : AccountInfo) (h : H256) :
    (w.putAccount a info).users h + refers (w.contractInfo a) h
      = w.users h + refers info.contractInfo h := by
  have hsum := sumBy_insert_add (fun _ info => refers info.contractInfo h) w.accounts a info
  rw [weightAt_refers] at hsum
  exact hsum

/-- An account whose contract, or lack of one, stays is no change to the users. -/
theorem users_putAccount_same (a : EvmAddress) (info : AccountInfo)
    (hinfo : info.contractInfo = w.contractInfo a) : (w.putAccount a info).users = w.users := by
  funext h
  have hput := w.users_putAccount a info h
  rw [hinfo] at hput
  exact Nat.add_right_cancel hput

theorem users_erase (a : EvmAddress) (h : H256) :
    ({ w with accounts := w.accounts.erase a }).users h + refers (w.contractInfo a) h
      = w.users h := by
  rw [← weightAt_refers]
  exact sumBy_erase_add _ w.accounts a

theorem users_ne_zero_iff (h : H256) :
    w.users h ≠ 0 ↔
      ∃ address contract, w.contractInfo address = some contract ∧ contract.codeHash = h := by
  constructor
  · intro hne
    by_contra hnone
    refine hne (sumBy_eq_zero _ fun e he => ?_)
    cases hcontract : e.2.contractInfo with
    | none => exact refers_none h
    | some contract =>
        refine if_neg fun hhash => hnone ⟨e.1, contract, ?_, Option.some.inj hhash⟩
        rw [contractInfo, mem_entries_iff.mp he]
        exact hcontract
  · rintro ⟨address, contract, hcontract, rfl⟩
    have hle := weightAt_le_sumBy (fun _ info => refers info.contractInfo contract.codeHash)
      w.accounts address
    rw [weightAt_refers, hcontract, refers_some, if_pos rfl] at hle
    exact Nat.ne_of_gt hle

/-- The codes are counted as values under reference counts are. -/
theorem codesCounted_iff (p : Params A N) :
    w.CodesCounted p ↔ Interned.Counted p.keccak256 List.length w.users w.codeStore := by
  constructor
  · intro hw
    refine ⟨fun h hzero => ?_, fun h hne => ?_⟩
    · have hcode : ¬ (w.codes.lookup h).isSome := by
        rw [hw.code_iff, ← users_ne_zero_iff]
        exact fun hne => hne hzero
      have hinfo : ¬ (w.codeInfos.lookup h).isSome := by rwa [hw.info_iff]
      simp only [Option.not_isSome_iff_eq_none] at hcode hinfo
      exact ⟨by simp only [codeStore, hinfo, Option.map_none], hcode⟩
    · have hsome : (w.codeInfos.lookup h).isSome := by
        rw [hw.info_iff, hw.code_iff, ← users_ne_zero_iff]
        exact hne
      obtain ⟨info, hinfo⟩ := Option.isSome_iff_exists.mp hsome
      obtain ⟨code, hcode, hhash, hsize⟩ := hw.code h info hinfo
      refine ⟨code, hcode, hhash, ?_⟩
      simp only [codeStore, hinfo, Option.map_some, hw.refCount h info hinfo, hsize]
  · intro hc
    have hinfos : ∀ h info, w.codeInfos.lookup h = some info →
        w.codeStore.infos h = some (info.codeSize, info.refCount) := by
      intro h info hinfo
      simp only [codeStore, hinfo, Option.map_some]
    have hiff : ∀ h, (w.codes.lookup h).isSome ↔ w.users h ≠ 0 := by
      intro h
      constructor
      · intro hcode hzero
        have hnone : w.codes.lookup h = none := (hc.absent h hzero).2
        rw [hnone] at hcode
        cases hcode
      · intro hne
        obtain ⟨code, hcode, -⟩ := hc.present h hne
        exact Option.isSome_iff_exists.mpr ⟨code, hcode⟩
    refine ⟨fun h => ?_, fun h => (hiff h).trans (w.users_ne_zero_iff h), fun h info hinfo => ?_,
      fun h info hinfo => ?_⟩
    · rw [hiff]
      constructor
      · intro hsome
        obtain ⟨info, hinfo⟩ := Option.isSome_iff_exists.mp hsome
        intro hzero
        have hnone := (hc.absent h hzero).1
        rw [hinfos h info hinfo] at hnone
        cases hnone
      · intro hne
        obtain ⟨code, -, -, hinfo⟩ := hc.present h hne
        have hmap : ((w.codeInfos.lookup h).map fun info => (info.codeSize, info.refCount)).isSome
            := Option.isSome_iff_exists.mpr ⟨_, hinfo⟩
        rwa [Option.isSome_map] at hmap
    · exact (hc.infos_eq_some (hinfos h info hinfo)).1
    · obtain ⟨-, code, hcode, hhash, hsize⟩ := hc.infos_eq_some (hinfos h info hinfo)
      exact ⟨code, hcode, hhash, hsize⟩

/-! ## What keeps the codes counted -/

variable {w} {w' : World A N} {p : Params A N}

/-- Codes and the contracts that have them are all that counts. -/
theorem CodesCounted.congr (h : w.CodesCounted p) (husers : w'.users = w.users)
    (hcodes : w'.codes = w.codes) (hinfos : w'.codeInfos = w.codeInfos) : w'.CodesCounted p := by
  have hstore : w'.codeStore = w.codeStore := by rw [codeStore, codeStore, hcodes, hinfos]
  rw [codesCounted_iff] at h ⊢
  rwa [husers, hstore]

theorem CodesCounted.withChain (h : w.CodesCounted p) (s : Chain A) :
    (w.withChain s).CodesCounted p := h.congr rfl rfl rfl

theorem CodesCounted.putAccount (h : w.CodesCounted p) {a : EvmAddress} {info : AccountInfo}
    (hinfo : info.contractInfo = w.contractInfo a) : (w.putAccount a info).CodesCounted p :=
  h.congr (w.users_putAccount_same a info hinfo) rfl rfl

theorem CodesCounted.incNonce (h : w.CodesCounted p) (a : EvmAddress) :
    (w.incNonce a).CodesCounted p := h.putAccount (w.accountInfo_contractInfo a)

variable (w) in
theorem codeStore_referenceCode (p : Params A N) (code : Code) :
    (w.referenceCode p code).codeStore
      = Interned.intern p.keccak256 List.length maxRefCount code w.codeStore := by
  unfold referenceCode Interned.intern
  cases hinfo : w.codeInfos.lookup (p.keccak256 code) with
  | some info =>
      simp only [codeStore, hinfo, Option.map_some]
      congr 1
      funext h
      by_cases hh : h = p.keccak256 code
      · rw [hh, AList.lookup_insert, Function.update_self]
        rfl
      · rw [AList.lookup_insert_ne hh, Function.update_of_ne hh]
  | none =>
      simp only [codeStore, hinfo, Option.map_none]
      congr 1
      · funext h
        by_cases hh : h = p.keccak256 code
        · rw [hh, AList.lookup_insert, Function.update_self]
        · rw [AList.lookup_insert_ne hh, Function.update_of_ne hh]
      · funext h
        by_cases hh : h = p.keccak256 code
        · rw [hh, AList.lookup_insert, Function.update_self]
          rfl
        · rw [AList.lookup_insert_ne hh, Function.update_of_ne hh]

variable (w) in
theorem codeStore_dereferenceCode (hash : H256) :
    (w.dereferenceCode hash).codeStore = Interned.release hash w.codeStore := by
  unfold dereferenceCode Interned.release
  cases hinfo : w.codeInfos.lookup hash with
  | none => simp only [codeStore, hinfo, Option.map_none]
  | some info =>
      simp only [codeStore, hinfo, Option.map_some]
      split
      · congr 1
        · funext h
          by_cases hh : h = hash
          · rw [hh, AList.lookup_erase, Function.update_self]
          · rw [AList.lookup_erase_ne hh, Function.update_of_ne hh]
        · funext h
          by_cases hh : h = hash
          · rw [hh, AList.lookup_erase, Function.update_self]
            rfl
          · rw [AList.lookup_erase_ne hh, Function.update_of_ne hh]
      · congr 1
        funext h
        by_cases hh : h = hash
        · rw [hh, AList.lookup_insert, Function.update_self]
          rfl
        · rw [AList.lookup_insert_ne hh, Function.update_of_ne hh]

theorem accounts_referenceCode (w : World A N) (p : Params A N) (code : Code) :
    (w.referenceCode p code).accounts = w.accounts := by
  unfold referenceCode
  split <;> rfl

theorem accounts_dereferenceCode (w : World A N) (hash : H256) :
    (w.dereferenceCode hash).accounts = w.accounts := by
  unfold dereferenceCode
  split
  · split <;> rfl
  · rfl

/-- Dropping the reference of a contract that goes, whatever else happens to its account. -/
theorem CodesCounted.dereferenceCode (h : w.CodesCounted p) (hash : H256)
    (hstore : w'.codeStore = Interned.release hash w.codeStore)
    (husers : ∀ i, w'.users i + (if i = hash then 1 else 0) = w.users i) :
    w'.CodesCounted p := by
  rw [codesCounted_iff] at h ⊢
  rw [hstore]
  exact h.release husers

theorem CodesCounted.removeAccount (h : w.CodesCounted p) (a : EvmAddress) :
    (w.removeAccount a).CodesCounted p := by
  have herase := w.users_erase a
  unfold World.removeAccount
  cases hcontract : w.contractInfo a with
  | none =>
      refine h.congr (funext fun i => ?_) rfl rfl
      have hi := herase i
      rwa [hcontract, refers_none, Nat.add_zero] at hi
  | some contract =>
      refine h.dereferenceCode _ (w.codeStore_dereferenceCode contract.codeHash) fun i => ?_
      have hi := herase i
      rw [hcontract, refers_some] at hi
      rw [← hi]
      show sumBy _ ((w.dereferenceCode contract.codeHash).accounts.erase a) + _
        = sumBy _ (w.accounts.erase a) + _
      rw [accounts_dereferenceCode]

theorem CodesCounted.onKilledAccount (h : w.CodesCounted p) (who : A) :
    (w.onKilledAccount p who).CodesCounted p := by
  unfold World.onKilledAccount
  cases p.evmAddress who with
  | none => exact h.removeAccount _
  | some address => exact (h.removeAccount address).removeAccount _

theorem CodesCounted.moved (h : w.CodesCounted p) (s : Chain A) :
    (w.moved p s).CodesCounted p := by
  have hfold : ∀ (whos : List A) (w : World A N), w.CodesCounted p →
      (whos.foldl (fun w who => w.onKilledAccount p who) w).CodesCounted p := by
    intro whos
    induction whos with
    | nil => exact fun w hw => hw
    | cons who whos ih => exact fun w hw => ih _ (hw.onKilledAccount who)
  exact hfold _ _ (h.withChain s)

/-- A new contract is one more user of its code, and a contract that it is put over one less of
its own. -/
theorem users_onContractInitialization {address maintainer : EvmAddress} {code : Code}
    (hw' : w.onContractInitialization p address maintainer code = some w') (h : H256) :
    w'.users h + refers (w.contractInfo address) h
      = w.users h + if h = p.keccak256 code then 1 else 0 := by
  unfold World.onContractInitialization at hw'
  split at hw'
  · cases hw'
  · cases hw'
    set w₁ := w.withChain (w.toChain.growContract address (code.length + p.newContractExtraBytes))
    have haccounts := w₁.accounts_referenceCode p code
    have hput := (w₁.referenceCode p code).users_putAccount address
      { (w₁.referenceCode p code).accountInfo address with
        contractInfo := some ⟨p.keccak256 code, maintainer, false⟩ } h
    rw [contractInfo, users, users, haccounts, refers_some] at hput
    exact hput

theorem contractInfo_onContractInitialization {address maintainer : EvmAddress} {code : Code}
    (hw' : w.onContractInitialization p address maintainer code = some w') {b : EvmAddress}
    (hb : b ≠ address) : w'.contractInfo b = w.contractInfo b := by
  unfold World.onContractInitialization at hw'
  split at hw'
  · cases hw'
  · cases hw'
    rw [contractInfo_putAccount, if_neg hb, contractInfo, accounts_referenceCode]
    rfl

/-- A contract may be installed where there is none, if one more reference can be counted. -/
theorem CodesCounted.onContractInitialization (h : w.CodesCounted p)
    {address maintainer : EvmAddress} {code : Code} (hfree : w.contractInfo address = none)
    (hroom : w.users (p.keccak256 code) < maxRefCount)
    (hw' : w.onContractInitialization p address maintainer code = some w') :
    w'.CodesCounted p := by
  have husers := users_onContractInitialization hw'
  unfold World.onContractInitialization at hw'
  split at hw'
  · cases hw'
  · cases hw'
    have hcounted := (w.codesCounted_iff p).mp h
    rw [codesCounted_iff]
    show Interned.Counted _ _ _ (World.referenceCode _ _ _).codeStore
    rw [codeStore_referenceCode]
    refine hcounted.intern hroom fun k => ?_
    have hk := husers k
    rwa [hfree, refers_none] at hk

end Users

end World

/-! ## Calls that install no contract -/

section Calls

variable {p : Params A N} {w w' : World A N} {address dest contract : EvmAddress} {who : A}

theorem decProviders_codes (h : w.CodesCounted p)
    (hx : (decProviders p address).run w = .ok () w') : w'.CodesCounted p := by
  obtain ⟨_, s, h1, hx⟩ := run_bind_ok.mp hx
  obtain ⟨rfl, rfl⟩ := run_get_ok.mp h1
  cases hdec : p.decProviders (p.accountId address) w.currency w.pallets with
  | «exists» =>
      rw [hdec] at hx
      obtain ⟨-, rfl⟩ := run_pure_ok.mp hx
      exact h
  | reaped =>
      rw [hdec] at hx
      rw [← run_set_ok.mp hx]
      exact h.onKilledAccount _
  | consumerRemaining =>
      rw [hdec] at hx
      cases hx

/-- A contract that is removed drops its reference. -/
theorem removeContract_codes {size : ℕ} (h : w.CodesCounted p)
    (hx : (removeContract p address dest).run w = .ok size w') : w'.CodesCounted p := by
  obtain ⟨_, s, h1, hx⟩ := run_bind_ok.mp (run_transactional_ok.mp hx)
  obtain ⟨rfl, rfl⟩ := run_get_ok.mp h1
  obtain ⟨info, s, h1, hx⟩ := run_bind_ok.mp hx
  obtain ⟨hinfo, rfl⟩ := run_okOr_ok.mp h1
  obtain ⟨contract, s, h1, hx⟩ := run_bind_ok.mp hx
  obtain ⟨hcontract, rfl⟩ := run_okOr_ok.mp h1
  obtain ⟨_, w₁, h1, hx⟩ := run_bind_ok.mp hx
  obtain ⟨_, s, h2, h1⟩ := run_bind_ok.mp h1
  obtain ⟨rfl, rfl⟩ := run_get_ok.mp h2
  obtain ⟨⟨currency, pallets⟩, s, h2, h1⟩ := run_bind_ok.mp h1
  obtain ⟨-, rfl⟩ := run_okOr_ok.mp h2
  have hw₁ := run_set_ok.mp h1
  obtain ⟨_, w₂, h1, hx⟩ := run_bind_ok.mp hx
  have hw₂ := run_modify_ok.mp h1
  obtain ⟨_, w₃, h1, hx⟩ := run_bind_ok.mp hx
  have hw₃ := run_modify_ok.mp h1
  obtain ⟨_, s, h1, hx⟩ := run_bind_ok.mp hx
  obtain ⟨rfl, rfl⟩ := run_get_ok.mp h1
  obtain ⟨_, w₄, h1, hx⟩ := run_bind_ok.mp hx
  have hw₄ := run_set_ok.mp h1
  obtain ⟨_, w₅, h1, hx⟩ := run_bind_ok.mp hx
  obtain ⟨-, rfl⟩ := run_pure_ok.mp hx
  refine decProviders_codes ?_ h1
  have hfound : w.contractInfo address = some contract := by
    rw [World.contractInfo, hinfo]
    exact hcontract
  have haccounts : w₃.accounts = w.accounts := by
    rw [← hw₃, ← hw₂, ← hw₁]
    exact World.accounts_dereferenceCode ..
  refine World.CodesCounted.dereferenceCode h contract.codeHash ?_ fun i => ?_
  · rw [← hw₄, ← hw₃, ← hw₂, ← hw₁]
    exact World.codeStore_dereferenceCode ..
  · have hput := w₃.users_putAccount address { info with contractInfo := none } i
    have hcontract₃ : w₃.contractInfo address = some contract := by
      rw [World.contractInfo, haccounts]
      exact hfound
    have husers₃ : w₃.users i = w.users i := by rw [World.users, haccounts, World.users]
    rw [hcontract₃, refers_some, husers₃] at hput
    rw [← hw₄]
    exact hput

theorem mutateContract_spec {f : ContractInfo → Except Error ContractInfo}
    (hx : (mutateContract contract f).run w = .ok () w') :
    ∃ info before after, w.accounts.lookup contract = some info ∧
      info.contractInfo = some before ∧ f before = .ok after ∧
      w' = w.putAccount contract { info with contractInfo := some after } := by
  obtain ⟨_, s, h1, hx⟩ := run_bind_ok.mp hx
  obtain ⟨rfl, rfl⟩ := run_get_ok.mp h1
  obtain ⟨info, s, h1, hx⟩ := run_bind_ok.mp hx
  obtain ⟨hinfo, rfl⟩ := run_okOr_ok.mp h1
  obtain ⟨before, s, h1, hx⟩ := run_bind_ok.mp hx
  obtain ⟨hbefore, rfl⟩ := run_okOr_ok.mp h1
  obtain ⟨after, s, h1, hx⟩ := run_bind_ok.mp hx
  obtain ⟨hafter, rfl⟩ := run_ofExcept_ok.mp h1
  exact ⟨info, before, after, hinfo, hbefore, hafter, (run_set_ok.mp hx).symm⟩

/-- A change of a contract that leaves its code is no change to the users. -/
theorem mutateContract_users {f : ContractInfo → Except Error ContractInfo}
    (hf : ∀ before after, f before = .ok after → after.codeHash = before.codeHash)
    (hx : (mutateContract contract f).run w = .ok () w') : w'.users = w.users := by
  obtain ⟨info, before, after, hinfo, hbefore, hafter, rfl⟩ := mutateContract_spec hx
  have hfound : w.contractInfo contract = some before := by
    rw [World.contractInfo, hinfo]
    exact hbefore
  funext i
  have hput := w.users_putAccount contract { info with contractInfo := some after } i
  rw [hfound, refers_some, refers_some, hf before after hafter] at hput
  exact Nat.add_right_cancel hput

theorem mutateContract_codes {f : ContractInfo → Except Error ContractInfo} (h : w.CodesCounted p)
    (hf : ∀ before after, f before = .ok after → after.codeHash = before.codeHash)
    (hx : (mutateContract contract f).run w = .ok () w') : w'.CodesCounted p := by
  have husers := mutateContract_users hf hx
  obtain ⟨info, before, after, -, -, -, rfl⟩ := mutateContract_spec hx
  exact h.congr husers rfl rfl

theorem doTransferMaintainer_codes {newMaintainer : EvmAddress} (h : w.CodesCounted p)
    (hx : (doTransferMaintainer p who contract newMaintainer).run w = .ok () w') :
    w'.CodesCounted p := by
  refine mutateContract_codes h (fun before after hf => ?_) hx
  split at hf
  · cases hf
  · split at hf
    · cases hf
      rfl
    · cases hf

theorem markDeployed_codeHash {maintainer : Option EvmAddress} (before after : ContractInfo)
    (hf : (if maintainer.any (fun m => before.maintainer != m) then
        (.error .NoPermission : Except Error ContractInfo)
      else if before.deployed then .error .ContractAlreadyDeployed
      else .ok { before with deployed := true }) = .ok after) :
    after.codeHash = before.codeHash := by
  split at hf
  · cases hf
  · split at hf
    · cases hf
    · cases hf
      rfl

theorem markDeployed_codes {maintainer : Option EvmAddress} (h : w.CodesCounted p)
    (hx : (markDeployed contract maintainer).run w = .ok () w') : w'.CodesCounted p :=
  mutateContract_codes h markDeployed_codeHash hx

theorem onCurrency_codes {f : Reserves A → Except Reserves.Error (Reserves A)}
    (h : w.CodesCounted p) (hx : (onCurrency p f).run w = .ok () w') : w'.CodesCounted p := by
  obtain ⟨_, s, h1, hx⟩ := run_bind_ok.mp hx
  obtain ⟨rfl, rfl⟩ := run_get_ok.mp h1
  cases hf : f w.currency with
  | ok r =>
      rw [hf] at hx
      rw [← run_set_ok.mp hx]
      exact h.moved _
  | error e =>
      rw [hf] at hx
      cases hx

variable [DecidableEq A]

theorem doSelfdestruct_codes {maintainer : EvmAddress} (h : w.CodesCounted p)
    (hx : (doSelfdestruct p who maintainer contract).run w = .ok () w') : w'.CodesCounted p := by
  obtain ⟨_, s, h1, hx⟩ := run_bind_ok.mp hx
  obtain ⟨rfl, rfl⟩ := run_get_ok.mp h1
  obtain ⟨info, s, h1, hx⟩ := run_bind_ok.mp hx
  obtain ⟨-, rfl⟩ := run_okOr_ok.mp h1
  obtain ⟨_, s, h1, hx⟩ := run_bind_ok.mp hx
  obtain ⟨-, rfl⟩ := run_ensure_ok.mp h1
  obtain ⟨_, s, h1, hx⟩ := run_bind_ok.mp hx
  obtain ⟨-, rfl⟩ := run_ensure_ok.mp h1
  obtain ⟨storage, w₁, h1, hx⟩ := run_bind_ok.mp hx
  exact onCurrency_codes (removeContract_codes h h1) hx

theorem enableContractDevelopment_codes (h : w.CodesCounted p)
    (hx : (enableContractDevelopment p who address).run w = .ok () w') : w'.CodesCounted p := by
  obtain ⟨_, w₁, h1, hx⟩ := run_bind_ok.mp hx
  have hw₁ := onCurrency_codes h h1
  obtain ⟨_, s, h1, hx⟩ := run_bind_ok.mp hx
  obtain ⟨rfl, rfl⟩ := run_get_ok.mp h1
  obtain ⟨_, s, h1, hx⟩ := run_bind_ok.mp hx
  obtain ⟨-, rfl⟩ := run_ensure_ok.mp h1
  rw [← run_set_ok.mp hx]
  exact hw₁.putAccount (World.accountInfo_contractInfo ..)

theorem disableContractDevelopment_codes (h : w.CodesCounted p)
    (hx : (disableContractDevelopment p who).run w = .ok () w') : w'.CodesCounted p := by
  obtain ⟨address, s, h1, hx⟩ := run_bind_ok.mp hx
  obtain ⟨-, rfl⟩ := run_okOr_ok.mp h1
  obtain ⟨_, s, h1, hx⟩ := run_bind_ok.mp hx
  obtain ⟨rfl, rfl⟩ := run_get_ok.mp h1
  obtain ⟨info, s, h1, hx⟩ := run_bind_ok.mp hx
  obtain ⟨hinfo, rfl⟩ := run_okOr_ok.mp h1
  obtain ⟨amount, s, h1, hx⟩ := run_bind_ok.mp hx
  obtain ⟨-, rfl⟩ := run_okOr_ok.mp h1
  obtain ⟨_, w₁, h1, hx⟩ := run_bind_ok.mp hx
  have hw₁ := run_set_ok.mp h1
  refine onCurrency_codes ?_ hx
  rw [← hw₁]
  refine h.putAccount ?_
  rw [World.contractInfo, hinfo]
  rfl

theorem deploy_codes (h : w.CodesCounted p) (hx : (deploy p who contract).run w = .ok () w') :
    w'.CodesCounted p := by
  obtain ⟨address, s, h1, hx⟩ := run_bind_ok.mp hx
  obtain ⟨-, rfl⟩ := run_okOr_ok.mp h1
  obtain ⟨_, w₁, h1, hx⟩ := run_bind_ok.mp hx
  exact markDeployed_codes (onCurrency_codes h h1) hx

end Calls

/-! ## The contracts that a run installs -/

/-- A code that becomes a contract, in the world where it does. -/
structure Installation (A N : Type) where
  address : EvmAddress
  code : Code
  world : World A N

/-- There is no contract at the address, and one more reference to the code can be counted. -/
def Installation.Fresh (p : Params A N) (i : Installation A N) : Prop :=
  i.world.contractInfo i.address = none ∧
    i.world.users (p.keccak256 i.code) < maxRefCount

instance (p : Params A N) (i : Installation A N) : Decidable (i.Fresh p) :=
  inferInstanceAs (Decidable (_ ∧ _))

variable [DecidableEq A] (p : Params A N)

/-- What a creation that succeeds installs: what its init code does, and then its contract. -/
def Creation.installs (c : Creation A) (run : Interpreter A N)
    (below : Frame A → World A N → List (Installation A N)) (w : World A N) :
    List (Installation A N) :=
  if (c.perform p run w).1 then
    match (c.target p w).bind fun address => (c.entry p address w).map (address, ·) with
    | some (address, f, w₀) =>
        match w₀.transfer p ⟨c.caller, address, c.value⟩ with
        | .ok w₁ =>
            let o := run f w₁
            below f w₁ ++ [⟨address, o.output, o.world.incNonce address⟩]
        | .error _ => []
    | none => []
  else []

/-- What the code of a call installs; `below` tells it for a contract's code and for a precompile's
pallet. -/
def Handler.calleeInstalls (below : Bool → Frame A → World A N → List (Installation A N))
    (target : CallTarget) (f : Frame A) (w : World A N) : List (Installation A N) :=
  match AllPrecompiles.request target.codeAddress target.input target.caller with
  | none => below false f w
  | some (.perform action) => if action.writes then below true f w else []
  | some _ => []

/-- What a call by the code of a frame installs, if it succeeds. -/
def Handler.callInstalls (origin : EvmAddress) (code pallet : Interpreter A N)
    (below : Bool → Frame A → World A N → List (Installation A N)) (target : CallTarget)
    (transfer : Option Transfer) (isStatic : Bool) (f : Frame A) (w : World A N) :
    List (Installation A N) :=
  if (Handler.call p origin code pallet target transfer isStatic f w).1.1 = .succeed then
    let child : Frame A :=
      ⟨f.meter.childMeter target.address, f.isStatic || isStatic, false, w.toChain⟩
    match transfer.elim (.ok w) fun t => w.transfer p t with
    | .ok w₁ => calleeInstalls below target child w₁
    | .error _ => []
  else []

/-- What a dispatched call of a contract installs, if it succeeds. -/
def Runner.callInstalls (run : Interpreter A N)
    (below : Frame A → World A N → List (Installation A N)) (sender origin target : EvmAddress)
    (value storageLimit : ℕ) (w : World A N) : List (Installation A N) :=
  match (Runner.call p run sender origin target value storageLimit).run w with
  | .ok info _ =>
      if info.exitReason = .succeed then
        let w₁ := w.incNonce sender
        match reserveStorage p.toConfig origin storageLimit w₁.toChain with
        | .ok s =>
            match (w₁.withChain s).transfer p ⟨sender, target, value⟩ with
            | .ok w₂ => below ⟨.new target storageLimit, false, false, w₁.toChain⟩ w₂
            | .error _ => []
        | .error _ => []
      else []
  | .error _ _ => []

/-- The contracts that a run of a code installs, but for those in frames that are rolled back. -/
def installs : Script A N → EvmAddress → Bool → Frame A → World A N → List (Installation A N)
  | .exit _ _, _, _, _, _ => []
  | .setStorage index value next, origin, false, f, w =>
      match setStorage f index value w.toChain with
      | some (f', s) => installs next origin false f' (w.withChain s)
      | none => []
  | .create salt value init next, origin, false, f, w =>
      let r := Handler.create p origin (exec p init origin false) salt value f w
      (Creation.nested origin salt value f).installs p (exec p init origin false)
          (installs init origin false) w
        ++ installs next origin false r.2.1 r.2.2
  | .call target scheme callee next, origin, false, f, w =>
      let r := Handler.call p origin (exec p callee origin false) (exec p callee origin true)
        target scheme.transfer scheme.isStatic f w
      Handler.callInstalls p origin (exec p callee origin false) (exec p callee origin true)
          (installs callee origin) target scheme.transfer scheme.isStatic f w
        ++ installs next origin false r.2.1 r.2.2
  | .pallets change next, origin, true, f, w =>
      match change w.currency w.pallets with
      | some (currency, pallets) =>
          installs next origin true f
            { w.moved p { w.toChain with currency := currency } with pallets := pallets }
      | none => []
  | .transferMaintainer who contract newMaintainer next, origin, true, f, w =>
      match (doTransferMaintainer p who contract newMaintainer).run w with
      | .ok _ w' => installs next origin true f w'
      | .error _ _ => []
  | .execute context value storageLimit mode callee next, origin, true, f, w =>
      (if mode = .Execute then
        Runner.callInstalls p (exec p callee context.origin false)
          (installs callee context.origin false) context.sender context.origin context.contract
          value storageLimit w
      else [])
        ++ installs next origin true f
          (execute p (exec p callee context.origin false) context value storageLimit mode w)
  | _, _, _, _, _ => []

/-! ## Every run keeps the codes counted -/

/-- A code that keeps the codes counted if what it installs is fresh. -/
def KeepsCodes (run : Interpreter A N)
    (below : Frame A → World A N → List (Installation A N)) : Prop :=
  ∀ f w, w.CodesCounted p → (∀ i ∈ below f w, i.Fresh p) → (run f w).world.CodesCounted p

variable {p} {w w' : World A N} {run : Interpreter A N}
  {below : Frame A → World A N → List (Installation A N)}

theorem transfer_codes {t : Transfer} (h : w.CodesCounted p) (hw' : w.transfer p t = .ok w') :
    w'.CodesCounted p := by
  unfold World.transfer at hw'
  split at hw'
  · cases hw'
    exact h.moved _
  · cases hw'

theorem settle_codes {origin : EvmAddress} {outer : List (Frame A)} {f : Frame A}
    (h : w.CodesCounted p) (hw' : (settle p origin outer f w).2 = .ok w') :
    w'.CodesCounted p := by
  unfold settle at hw'
  split at hw'
  · cases hw'
    exact h.moved _
  · cases hw'

namespace Creation

variable {c : Creation A} {address : EvmAddress}

theorem entry_codes {f : Frame A} {w₀ : World A N} (h : w.CodesCounted p)
    (hentry : c.entry p address w = some (f, w₀)) : w₀.CodesCounted p := by
  cases c with
  | dispatched source init assigned salt value limit =>
      unfold entry at hentry
      dsimp only at hentry
      split at hentry
      · cases hentry
        exact (h.incNonce _).withChain _
      · cases hentry
  | nested origin salt value frame =>
      unfold entry at hentry
      dsimp only at hentry
      split at hentry
      · cases hentry
      · cases hentry
        exact h.incNonce _

/-- Without an address, a creation changes nothing. -/
theorem perform_of_no_target (h : c.target p w = none) : (c.perform p run w).2 = w := by
  cases c with
  | dispatched source init assigned salt value limit =>
      have hrun : (Runner.innerCreate p run source init value limit assigned salt).run w
          = .error .ConflictContractAddress w := by
        have hnone : Runner.creationAddress p source init assigned salt w = none := h
        show ((okOr (Runner.creationAddress p source init assigned salt w)
          Error.ConflictContractAddress : Dispatch Error (World A N) EvmAddress) >>= _).run w = _
        rw [hnone]
        rfl
      rw [perform, hrun]
  | nested origin salt value f =>
      have hnone : w.createAddress p (Handler.creationScheme f salt) = none := h
      unfold perform Handler.create
      dsimp only
      split
      · rfl
      · rw [hnone]

/-- A creation keeps the codes counted if what it installs is fresh. -/
theorem perform_codes (hrun : KeepsCodes p run below) (h : w.CodesCounted p)
    (hfresh : ∀ i ∈ c.installs p run below w, i.Fresh p) :
    (c.perform p run w).2.CodesCounted p := by
  cases htarget : c.target p w with
  | none =>
      rw [perform_of_no_target htarget]
      exact h
  | some address =>
      have hends := c.ends p run w htarget
      cases hsucceeds : (c.perform p run w).1 with
      | false =>
          obtain hw | hw := hends.kept hsucceeds
          · rw [hw]
            exact h.incNonce _
          · rw [hw]
            exact h
      | true =>
          obtain ⟨f₀, w₀, w₁, w₂, hentry, htransfer, -, hinit, hsettle⟩ :=
            hends.completes hsucceeds
          have hinstalls : c.installs p run below w = below f₀ w₁ ++
              [⟨address, (run f₀ w₁).output, (run f₀ w₁).world.incNonce address⟩] := by
            simp only [installs, hsucceeds, if_true, htarget, Option.bind_some, hentry,
              Option.map_some, htransfer]
          rw [hinstalls] at hfresh
          obtain ⟨hbelow, hown⟩ := List.forall_mem_append.mp hfresh
          obtain ⟨hfree, hroom⟩ := hown _ (List.mem_singleton.mpr rfl)
          have hw₁ := transfer_codes (entry_codes h hentry) htransfer
          have hrun₁ := (hrun f₀ w₁ hw₁ hbelow).incNonce address
          exact settle_codes (hrun₁.onContractInitialization hfree hroom hinit) hsettle

end Creation

variable (p run) in
/-- The body of a call that commits, once its value is sent. -/
theorem messageCall_cases (transfer : Option Transfer) (f : Frame A) (w : World A N) :
    (messageCall p run transfer f w).commits = false ∨
      ∃ w₁, (transfer.elim (.ok w) fun t => w.transfer p t) = .ok w₁ ∧
        (run f w₁).reason = .succeed ∧ messageCall p run transfer f w
          = ⟨.ok ⟨.succeed, (run f w₁).output⟩, true, (run f w₁).frame, (run f w₁).world⟩ := by
  unfold messageCall
  cases hsent : transfer.elim (.ok w) fun t => w.transfer p t with
  | error e => exact .inl rfl
  | ok w₁ =>
      by_cases hreason : (run f w₁).reason = .succeed
      · refine .inr ⟨w₁, rfl, hreason, ?_⟩
        simp only [hreason, decide_true]
      · exact .inl (decide_eq_false hreason)

theorem sent_codes {transfer : Option Transfer} (h : w.CodesCounted p)
    (hsent : (transfer.elim (.ok w) fun t => w.transfer p t) = .ok w') : w'.CodesCounted p := by
  cases transfer with
  | none =>
      cases hsent
      exact h
  | some t => exact transfer_codes h hsent

omit [DecidableEq A] in
theorem Handler.callee_codes {code pallet : Interpreter A N}
    {below : Bool → Frame A → World A N → List (Installation A N)} (target : CallTarget)
    (hcode : KeepsCodes p code (below false)) (hpallet : KeepsCodes p pallet (below true)) :
    KeepsCodes p (callee code pallet target) (calleeInstalls below target) := by
  intro f w h hfresh
  revert hfresh
  unfold callee calleeInstalls
  cases AllPrecompiles.request target.codeAddress target.input target.caller with
  | none => exact hcode f w h
  | some request =>
      cases request with
      | refused => exact fun _ => h
      | compute => exact fun _ => h
      | perform action =>
          unfold precompile
          dsimp only
          split
          · exact hpallet f w h
          · exact fun _ => h

/-- A call by the code of a frame keeps the codes counted if what it installs is fresh. -/
theorem Handler.call_codes {origin : EvmAddress} {code pallet : Interpreter A N}
    {below : Bool → Frame A → World A N → List (Installation A N)} {target : CallTarget}
    {transfer : Option Transfer} {isStatic : Bool} {f : Frame A}
    (hcallee : KeepsCodes p (callee code pallet target) (calleeInstalls below target))
    (h : w.CodesCounted p)
    (hfresh : ∀ i ∈ Handler.callInstalls p origin code pallet below target transfer isStatic f w,
      i.Fresh p) :
    (Handler.call p origin code pallet target transfer isStatic f w).2.2.CodesCounted p := by
  revert hfresh
  unfold Handler.callInstalls Handler.call
  split
  · exact fun _ => h
  · dsimp only
    set child : Frame A :=
      ⟨f.meter.childMeter target.address, f.isStatic || isStatic, false, w.toChain⟩
    obtain ⟨f', hx⟩ := runSubTransaction_cases p origin target.address (f.isStatic || isStatic)
      false (messageCall p (callee code pallet target) transfer) f w
    obtain ⟨-, hx⟩ | ⟨hcommits, w', hsettle, hx⟩ | ⟨-, e, -, hx⟩ := hx
    · rw [hx]
      exact fun _ => h
    · rw [hx]
      obtain hrolled | ⟨w₁, hsent, -, ht⟩ := messageCall_cases p
        (callee code pallet target) transfer child w
      · cases hcommits.symm.trans hrolled
      · rw [ht] at hsettle ⊢
        intro hfresh
        simp only [called, hsent, if_true] at hfresh
        exact settle_codes (hcallee child w₁ (sent_codes h hsent) hfresh) hsettle
    · rw [hx]
      exact fun _ => h

variable (p run) in
/-- A dispatched call, once the caller may call the contract. -/
theorem Runner.call_run {sender target : EvmAddress} (origin : EvmAddress) (value limit : ℕ)
    (h : w.canCallContract target sender = true) :
    (Runner.call p run sender origin target value limit).run w
      = match (runTransaction p origin target false false limit
          (messageCall p run (some ⟨sender, target, value⟩))).run (w.incNonce sender) with
        | .ok (.ok info) w' => .ok info w'
        | .ok (.error e) w' => .error e w'
        | .error e w' => .error e w' := by
  have hensure : (ensure (w.canCallContract target sender = true) Error.NoPermission
      : Dispatch Error (World A N) Unit) = pure () := if_pos h
  show ((ensure (w.canCallContract target sender = true) Error.NoPermission
    : Dispatch Error (World A N) Unit) >>= _).run w = _
  rw [hensure]
  show EStateM.bind (runTransaction p origin target false false limit
    (messageCall p run (some ⟨sender, target, value⟩))) Dispatch.ofExcept (w.incNonce sender) = _
  unfold EStateM.bind EStateM.run
  cases runTransaction p origin target false false limit
    (messageCall p run (some ⟨sender, target, value⟩)) (w.incNonce sender) with
  | error e w' => rfl
  | ok info w' => cases info <;> rfl

theorem Runner.call_refused {sender origin target : EvmAddress} {value limit : ℕ}
    (h : ¬ w.canCallContract target sender = true) :
    (Runner.call p run sender origin target value limit).run w = .error .NoPermission w := by
  have hensure : (ensure (w.canCallContract target sender = true) Error.NoPermission
      : Dispatch Error (World A N) Unit) = throw .NoPermission := if_neg h
  show ((ensure (w.canCallContract target sender = true) Error.NoPermission
    : Dispatch Error (World A N) Unit) >>= _).run w = _
  rw [hensure]
  rfl

/-- So does a dispatched call. -/
theorem Runner.call_codes {sender origin target : EvmAddress} {value limit : ℕ}
    (hrun : KeepsCodes p run below) (h : w.CodesCounted p)
    (hfresh : ∀ i ∈ Runner.callInstalls p run below sender origin target value limit w,
      i.Fresh p) :
    (commit (Runner.call p run sender origin target value limit) w).CodesCounted p := by
  by_cases hcan : w.canCallContract target sender = true
  · have hcall := Runner.call_run p run origin value limit hcan
    unfold commit
    unfold Runner.callInstalls at hfresh
    have hnonce := h.incNonce sender
    obtain ⟨e, hreserve, hx⟩ | ⟨s, t, hreserve, ht, hx⟩ := runTransaction_cases p origin target
      false false limit (messageCall p run (some ⟨sender, target, value⟩)) (w.incNonce sender)
    · rw [hcall, hx]
      exact hnonce
    · obtain ⟨-, hx⟩ | ⟨hcommits, w', hsettle, hx⟩ | ⟨-, e, -, hx⟩ := hx
      · rw [hcall, hx]
        cases t.result with
        | ok info => exact hnonce
        | error e => exact hnonce
      · obtain hrolled | ⟨w₁, hsent, -, hbody⟩ := messageCall_cases p run
          (some ⟨sender, target, value⟩)
          ⟨.new target limit, false, false, (w.incNonce sender).toChain⟩
          ((w.incNonce sender).withChain s)
        · rw [← ht] at hrolled
          cases hcommits.symm.trans hrolled
        · rw [← ht] at hbody
          rw [hbody] at hsettle hx
          rw [hcall, hx] at hfresh ⊢
          have hsent : ((w.incNonce sender).withChain s).transfer p ⟨sender, target, value⟩
            = .ok w₁ := hsent
          simp only [if_true, hreserve, hsent] at hfresh
          exact settle_codes (hrun _ w₁ (transfer_codes (hnonce.withChain s) hsent) hfresh) hsettle
      · rw [hcall, hx]
        exact hnonce
  · unfold commit
    rw [Runner.call_refused hcan]
    exact h

/-- So does a call by another pallet. -/
theorem execute_codes {context : InvokeContext} {value limit : ℕ} {mode : ExecutionMode}
    (hrun : KeepsCodes p run below) (h : w.CodesCounted p)
    (hfresh : ∀ i ∈ (if mode = .Execute then
        Runner.callInstalls p run below context.sender context.origin context.contract value limit w
      else []), i.Fresh p) :
    (execute p run context value limit mode w).CodesCounted p := by
  unfold execute
  split
  · rename_i info w' hx
    split
    · rename_i hkept
      rw [if_pos hkept.1] at hfresh
      rw [← commit_of_ok hx]
      exact Runner.call_codes hrun h hfresh
    · exact h
  · exact h

variable (p) in
/-- **Every code keeps the codes counted** if what it installs is fresh. -/
theorem exec_codes (script : Script A N) (origin : EvmAddress) (native : Bool) :
    KeepsCodes p (exec p script origin native) (installs p script origin native) := by
  induction script generalizing origin native with
  | exit reason output => exact fun _ _ h _ => h
  | setStorage index value next ih =>
      cases native with
      | true => exact fun _ _ h _ => h
      | false =>
          intro f w h hfresh
          rw [installs] at hfresh
          rw [exec]
          cases hset : setStorage f index value w.toChain with
          | none => exact h
          | some set =>
              rw [hset] at hfresh
              exact ih origin false set.1 _ (h.withChain set.2) hfresh
  | markDelete target =>
      cases native with
      | true => exact fun _ _ h _ => h
      | false =>
          intro f w h _
          rw [exec, Handler.markDelete]
          split
          · exact h
          · split
            · rename_i storage w' hx
              exact removeContract_codes h hx
            · exact h
  | create salt value init next ihInit ihNext =>
      cases native with
      | true => exact fun _ _ h _ => h
      | false =>
          intro f w h hfresh
          rw [installs] at hfresh
          rw [exec]
          obtain ⟨hcreate, hnext⟩ := List.forall_mem_append.mp hfresh
          have hcreated := Creation.perform_codes (ihInit origin false) h hcreate
          exact ihNext origin false _ _ hcreated hnext
  | call target scheme callee next ihCallee ihNext =>
      cases native with
      | true => exact fun _ _ h _ => h
      | false =>
          intro f w h hfresh
          rw [installs] at hfresh
          rw [exec]
          obtain ⟨hcall, hnext⟩ := List.forall_mem_append.mp hfresh
          have hcallee := Handler.callee_codes target (ihCallee origin false) (ihCallee origin true)
          exact ihNext origin false _ _ (Handler.call_codes hcallee h hcall) hnext
  | pallets change next ih =>
      cases native with
      | false => exact fun _ _ h _ => h
      | true =>
          intro f w h hfresh
          rw [installs] at hfresh
          rw [exec]
          cases hchange : change w.currency w.pallets with
          | none => exact h
          | some changed =>
              rw [hchange] at hfresh
              refine ih origin true f _ ?_ hfresh
              exact (h.moved { w.toChain with currency := changed.1 }).congr rfl rfl rfl
  | transferMaintainer who contract newMaintainer next ih =>
      cases native with
      | false => exact fun _ _ h _ => h
      | true =>
          intro f w h hfresh
          rw [installs] at hfresh
          rw [exec]
          cases hx : (doTransferMaintainer p who contract newMaintainer).run w with
          | error e w' => exact h
          | ok u w' =>
              rw [hx] at hfresh
              exact ih origin true f w' (doTransferMaintainer_codes h hx) hfresh
  | execute context value storageLimit mode callee next ihCallee ihNext =>
      cases native with
      | false => exact fun _ _ h _ => h
      | true =>
          intro f w h hfresh
          rw [installs] at hfresh
          rw [exec]
          obtain ⟨hcall, hnext⟩ := List.forall_mem_append.mp hfresh
          exact ihNext origin true f _ (execute_codes (ihCallee context.origin false) h hcall) hnext

/-! ## Operations -/

variable (p) in
/-- The contracts that an operation installs for good, in the frames that it enters. -/
def Op.installs (w : World A N) : Op A N → List (Installation A N)
  | .call sender target value limit script =>
      Runner.callInstalls p (exec p script sender false) (Evm.installs p script sender false) sender
        sender target value limit w
  | .create source init value limit script =>
      (Creation.dispatched source init none none value limit).installs p
        (exec p script source false) (Evm.installs p script source false) w
  | .create2 source init salt value limit script =>
      (Creation.dispatched source init none (some salt) value limit).installs p
        (exec p script source false) (Evm.installs p script source false) w
  | .createNetworkContract init value limit script =>
      let source := p.networkContractSource
      let address := BitVec.ofNat 160 w.networkContractIndex
      (Creation.dispatched source init (some address) none value limit).installs p
        (exec p script source false) (Evm.installs p script source false) w
  | .execute context value limit mode script =>
      if mode = .Execute then
        Runner.callInstalls p (exec p script context.origin false)
          (Evm.installs p script context.origin false) context.sender context.origin
          context.contract value limit w
      else []
  | _ => []

variable (p) in
/-- A new code is set for a contract: it is not the one the contract has, and what it returns is
installed. -/
def Op.ReplacesCode (w : World A N) : Op A N → Prop
  | .setCode rootOrSigned contract code script =>
      ∃ info source, w.contractInfo contract = some info ∧
        setCodeSource p rootOrSigned info = .ok source ∧ p.keccak256 code ≠ info.codeHash ∧
        code.length ≤ p.maxCodeSize ∧
        (Creation.dispatched source code (some contract) none 0 SET_CODE_STORAGE_LIMIT).Completes p
          (exec p script source false) contract w
  | _ => False

variable (p) in
/-- The operation replaces no contract and no code. -/
structure Op.ReplacesNothing (w : World A N) (op : Op A N) : Prop where
  fresh : ∀ i ∈ op.installs p w, i.Fresh p
  code : ¬ op.ReplacesCode p w

theorem commit_innerCreate {source : EvmAddress} {init : Code} {value limit : ℕ}
    {assigned : Option EvmAddress} {salt : Option H256} :
    commit (Runner.innerCreate p run source init value limit assigned salt) w
      = ((Creation.dispatched source init assigned salt value limit).perform p run w).2 := by
  unfold commit Creation.perform
  dsimp only
  cases (Runner.innerCreate p run source init value limit assigned salt).run w <;> rfl

theorem createNetworkContract_codes {init : Code} {value limit : ℕ}
    (h : (commit (Runner.innerCreate p run p.networkContractSource init value limit
      (some (BitVec.ofNat 160 w.networkContractIndex)) none) w).CodesCounted p) :
    (commit (createNetworkContract p run init value limit) w).CodesCounted p := by
  revert h
  unfold commit
  have hrun : (createNetworkContract p run init value limit).run w
      = EStateM.bind (Runner.innerCreate p run p.networkContractSource init value limit
          (some (BitVec.ofNat 160 w.networkContractIndex)) none)
        (fun _ => modify fun w =>
          { w with networkContractIndex := min (w.networkContractIndex + 1) (2 ^ 64 - 1) }) w :=
    rfl
  rw [hrun]
  unfold EStateM.bind EStateM.run
  cases Runner.innerCreate p run p.networkContractSource init value limit
    (some (BitVec.ofNat 160 w.networkContractIndex)) none w with
  | ok info w' => exact fun h => h.congr rfl rfl rfl
  | error e w' => exact fun h => h

/-- What a successful call to set a code does: nothing if the contract has the hash of that code
already, else a creation, and then the account that was read before goes back. -/
theorem doSetCode_spec {rootOrSigned : Option A} {contract : EvmAddress} {code : Code}
    {run : EvmAddress → Interpreter A N}
    (hx : (doSetCode p rootOrSigned contract code run).run w = .ok () w') :
    ∃ info before source, w.accounts.lookup contract = some info ∧
      info.contractInfo = some before ∧ setCodeSource p rootOrSigned before = .ok source ∧
      ((p.keccak256 code = before.codeHash ∧ w' = w) ∨
        p.keccak256 code ≠ before.codeHash ∧ code.length ≤ p.maxCodeSize ∧
          ∃ created w₁, (Runner.innerCreate p (run source) source code 0 SET_CODE_STORAGE_LIMIT
            (some contract) none).run w = .ok created w₁ ∧ w' = w₁.putAccount contract info) := by
  obtain ⟨_, s, h1, hx⟩ := run_bind_ok.mp hx
  obtain ⟨rfl, rfl⟩ := run_get_ok.mp h1
  obtain ⟨info, s, h1, hx⟩ := run_bind_ok.mp hx
  obtain ⟨hinfo, rfl⟩ := run_okOr_ok.mp h1
  obtain ⟨before, s, h1, hx⟩ := run_bind_ok.mp hx
  obtain ⟨hbefore, rfl⟩ := run_okOr_ok.mp h1
  obtain ⟨source, s, h1, hx⟩ := run_bind_ok.mp hx
  obtain ⟨hsource, rfl⟩ := run_ofExcept_ok.mp h1
  refine ⟨info, before, source, hinfo, hbefore, hsource, ?_⟩
  obtain ⟨hhash, hx⟩ | ⟨hhash, rfl⟩ := run_when_ok.mp hx
  · obtain ⟨_, s, h1, hx⟩ := run_bind_ok.mp hx
    obtain ⟨hsize, rfl⟩ := run_ensure_ok.mp h1
    obtain ⟨created, w₁, h1, hx⟩ := run_bind_ok.mp hx
    exact .inr ⟨hhash, hsize, created, w₁, h1, (run_modify_ok.mp hx).symm⟩
  · exact .inl ⟨not_not.mp hhash, rfl⟩

/-- Setting a code that is not installed leaves the contract with its own. -/
theorem doSetCode_codes {rootOrSigned : Option A} {contract : EvmAddress} {code : Code}
    {script : Script A N} (h : w.CodesCounted p)
    (hkeeps : ¬ (Op.setCode rootOrSigned contract code script).ReplacesCode p w)
    (hx : (doSetCode p rootOrSigned contract code fun source => exec p script source false).run w
      = .ok () w') : w'.CodesCounted p := by
  obtain ⟨info, before, source, hinfo, hbefore, hsource, ⟨-, rfl⟩ |
    ⟨hhash, hsize, created, w₁, hcreate, rfl⟩⟩ := doSetCode_spec hx
  · exact h
  · have hfound : w.contractInfo contract = some before := by
      rw [World.contractInfo, hinfo]
      exact hbefore
    set c : Creation A := .dispatched source code (some contract) none 0 SET_CODE_STORAGE_LIMIT
    have htarget : c.target p w = some contract := rfl
    have hends := c.ends p (exec p script source false) w htarget
    have hw₁ : (c.perform p (exec p script source false) w).2 = w₁ := by
      rw [← commit_innerCreate, commit_of_ok hcreate]
    have hfails : (c.perform p (exec p script source false) w).1 = false := by
      rw [← Bool.not_eq_true]
      exact fun hsucceeds => hkeeps ⟨before, source, hfound, hsource, hhash, hsize,
        _, hends.completes hsucceeds⟩
    have hkept := hends.kept hfails
    rw [hw₁] at hkept
    -- The account that is written back still has the contract that is there.
    obtain rfl | rfl := hkept
    · refine (h.incNonce c.caller).putAccount ?_
      rw [World.contractInfo_incNonce, hfound]
      exact hbefore
    · refine h.putAccount ?_
      rw [hfound]
      exact hbefore

omit [DecidableEq A] in
theorem transactional_codes {x : Dispatch Error (World A N) Unit} (h : w.CodesCounted p)
    (hok : ∀ w', x.run w = .ok () w' → w'.CodesCounted p) :
    (commit (transactional x) w).CodesCounted p :=
  commit_transactional_invariant (P := fun w : World A N => w.CodesCounted p) h fun _ => hok

variable (p w) in
/-- **One operation** that replaces nothing keeps the codes counted, also if it fails. -/
theorem World.step_codesCounted (op : Op A N) (h : w.CodesCounted p)
    (hop : op.ReplacesNothing p w) : (w.step p op).CodesCounted p := by
  have hfresh := hop.fresh
  unfold World.step
  cases op with
  | call sender target value limit script =>
      rw [dispatch, commit_bind_pure]
      exact Runner.call_codes (exec_codes p script sender false) h hfresh
  | create source init value limit script =>
      rw [dispatch, commit_bind_pure, commit_innerCreate]
      exact Creation.perform_codes (exec_codes p script source false) h hfresh
  | create2 source init salt value limit script =>
      rw [dispatch, commit_bind_pure, commit_innerCreate]
      exact Creation.perform_codes (exec_codes p script source false) h hfresh
  | createNetworkContract init value limit script =>
      refine createNetworkContract_codes ?_
      rw [commit_innerCreate]
      exact Creation.perform_codes (exec_codes p script p.networkContractSource false) h hfresh
  | setCode rootOrSigned contract code script =>
      exact transactional_codes h fun _ hx => doSetCode_codes h hop.code hx
  | selfdestruct who contract =>
      refine transactional_codes h fun w' hx => ?_
      obtain ⟨maintainer, s, h1, hx⟩ := run_bind_ok.mp hx
      obtain ⟨-, rfl⟩ := run_okOr_ok.mp h1
      exact doSelfdestruct_codes h hx
  | transferMaintainer who contract newMaintainer =>
      exact transactional_codes h fun _ hx => doTransferMaintainer_codes h hx
  | deploy who contract => exact transactional_codes h fun _ hx => deploy_codes h hx
  | deployFree contract =>
      exact transactional_codes h fun _ hx => markDeployed_codes h hx
  | enableContractDevelopment who address =>
      exact transactional_codes h fun _ hx => enableContractDevelopment_codes h hx
  | disableContractDevelopment who =>
      exact transactional_codes h fun _ hx => disableContractDevelopment_codes h hx
  | execute context value limit mode script =>
      exact execute_codes (exec_codes p script context.origin false) h hfresh
  | pallets change =>
      show (commit (match change w.currency w.pallets with
        | some (currency, pallets) =>
            set { w.moved p { w.toChain with currency := currency } with pallets := pallets }
        | none => pure () : Dispatch Error (World A N) Unit) w).CodesCounted p
      cases change w.currency w.pallets with
      | none => exact h
      | some changed =>
          exact (h.moved { w.toChain with currency := changed.1 }).congr rfl rfl rfl
  | killAccount who => exact h.onKilledAccount who

/-! ## From genesis -/

omit [DecidableEq A] in
theorem World.codesCounted_empty (currency : Reserves A) (pallets : N) (index : ℕ) :
    (World.empty currency pallets index).CodesCounted p := by
  rw [codesCounted_iff]
  exact ⟨fun h _ => ⟨rfl, rfl⟩, fun h hne => (hne rfl).elim⟩

omit [DecidableEq A] in
/-- One account of the genesis configuration is one more user at most, and touches no other. -/
theorem World.buildAccount_codes {address : EvmAddress} {account : GenesisAccount}
    (h : w.CodesCounted p) (hfree : w.contractInfo address = none)
    (hroom : ∀ hash, w.users hash < maxRefCount)
    (hw' : w.buildAccount p address account = some w') :
    w'.CodesCounted p ∧ (∀ hash, w'.users hash ≤ w.users hash + 1) ∧
      ∀ b, b ≠ address → w'.contractInfo b = w.contractInfo b := by
  unfold World.buildAccount at hw'
  set w₁ := w.putAccount address (.new account.nonce none)
  have husers₁ : w₁.users = w.users := w.users_putAccount_same address _ hfree.symm
  have hw₁ : w₁.CodesCounted p := h.putAccount hfree.symm
  have hother₁ : ∀ b, b ≠ address → w₁.contractInfo b = w.contractInfo b := fun b hb => by
    rw [contractInfo_putAccount, if_neg hb]
  have hfree₁ : w₁.contractInfo address = none := by
    rw [contractInfo_putAccount, if_pos rfl]
    rfl
  cases hcode : account.code with
  | none =>
      rw [hcode] at hw'
      rw [← Option.some.inj hw']
      refine ⟨hw₁, fun hash => ?_, hother₁⟩
      rw [husers₁]
      omega
  | some code =>
      rw [hcode] at hw'
      obtain ⟨w₂, hinit, hw'⟩ := Option.bind_eq_some_iff.mp hw'
      have hw₂ := hw₁.onContractInitialization hfree₁ (by rw [husers₁]; exact hroom _) hinit
      have husers₂ := World.users_onContractInitialization hinit
      split at hw'
      · rename_i u w₃ hx
        cases hw'
        have hw₃ := markDeployed_codes hw₂ hx
        have husers₃ := mutateContract_users markDeployed_codeHash hx
        refine ⟨hw₃.congr rfl rfl rfl, fun hash => ?_, fun b hb => ?_⟩
        · have hle := husers₂ hash
          rw [hfree₁, refers_none, husers₁] at hle
          show w₃.users hash ≤ _
          rw [husers₃]
          split at hle <;> omega
        · obtain ⟨info, before, after, -, -, -, rfl⟩ := mutateContract_spec hx
          show (w₂.putAccount address _).contractInfo b = _
          rw [contractInfo_putAccount, if_neg hb,
            contractInfo_onContractInitialization hinit hb, hother₁ b hb]
      · cases hw'

omit [DecidableEq A] in
/-- The accounts of a genesis configuration, each listed once, keep the codes counted. -/
theorem World.build_codes {accounts : List (EvmAddress × GenesisAccount)}
    (hdistinct : (accounts.map Prod.fst).Nodup) (h : w.CodesCounted p)
    (hfree : ∀ address ∈ accounts.map Prod.fst, w.contractInfo address = none)
    (hroom : ∀ hash, w.users hash + accounts.length ≤ maxRefCount)
    (hw' : w.build p accounts = some w') : w'.CodesCounted p := by
  induction accounts generalizing w with
  | nil =>
      cases hw'
      exact h
  | cons entry rest ih =>
      obtain ⟨address, account⟩ := entry
      obtain ⟨hnew, hdistinct⟩ := List.nodup_cons.mp hdistinct
      obtain ⟨w₁, hbuild, hw'⟩ := Option.bind_eq_some_iff.mp hw'
      have hlength : ((address, account) :: rest).length = rest.length + 1 := rfl
      have hspare : ∀ hash, w.users hash < maxRefCount := fun hash => by
        have hhash := hroom hash
        omega
      obtain ⟨hw₁, husers, hother⟩ :=
        World.buildAccount_codes h (hfree address List.mem_cons_self) hspare hbuild
      refine ih hdistinct hw₁ (fun b hb => ?_) (fun hash => ?_) hw'
      · have hne : b ≠ address := fun hb' => hnew (hb' ▸ hb)
        rw [hother b hne]
        exact hfree b (List.mem_cons_of_mem _ hb)
      · have hhash := hroom hash
        have hle := husers hash
        omega

/-- **In every run from a genesis configuration, the codes are counted** as long as no operation
installs a contract over another one or sets a new code. -/
theorem World.run_codesCounted {currency : Reserves A} {pallets : N} {index : ℕ}
    {accounts : List (EvmAddress × GenesisAccount)} {genesis : World A N} {ops : List (Op A N)}
    (hdistinct : (accounts.map Prod.fst).Nodup) (hcount : accounts.length ≤ maxRefCount)
    (hbuild : (World.empty currency pallets index).build p accounts = some genesis)
    (hops : Machine.StepsMeet (World.step p) (fun w op => op.ReplacesNothing p w) genesis ops) :
    (Machine.run (World.step p) genesis ops).CodesCounted p := by
  have hempty := World.codesCounted_empty (p := p) currency pallets index
  have hgenesis : genesis.CodesCounted p := by
    refine World.build_codes hdistinct hempty (fun _ _ => rfl) (fun hash => ?_) hbuild
    show 0 + accounts.length ≤ maxRefCount
    omega
  exact Machine.run_invariant (P := fun w : World A N => w.CodesCounted p)
    (fun w op hw hop => w.step_codesCounted p op hw hop) hgenesis hops

/-! ## Codes that outlive their contracts -/

section Sample

/-- The sample's chain, with funds for the storage limit of setting a code. -/
def fundedWorld : World EvmAddress Unit :=
  .empty ⟨fun a => if a = sampleSource then 10000000 else 0, fun _ => 0⟩ () 0x2000000

/-- Set a new code for the sample's contract, which happens to return the code that is there. -/
def sampleSetCode : Op EvmAddress Unit :=
  .setCode (some sampleSource) sampleContract sampleInit (.exit .succeed [0x00])

/-- Create, destroy and create again: the one contract is counted. -/
theorem run_codesCounted_sample :
    (Machine.run (World.step sampleParams) fundedWorld
      [sampleCreate2, .selfdestruct sampleSource sampleContract, sampleCreate2]).CodesCounted
      sampleParams := by
  have hnone : (([] : List (EvmAddress × GenesisAccount)).map Prod.fst).Nodup := List.nodup_nil
  refine World.run_codesCounted hnone (Nat.zero_le _) rfl ?_
  exact ⟨⟨by decide +kernel, not_false⟩, ⟨by decide +kernel, not_false⟩,
    ⟨by decide +kernel, not_false⟩, trivial⟩

/-- One contract refers to its code, which is counted twice once a code was set. When the contract
is destroyed, the code stays behind without one. -/
theorem setCode_leaks :
    let step := World.step sampleParams
    let w := Machine.run step fundedWorld [sampleCreate2, sampleSetCode]
    let w' := step w (.selfdestruct sampleSource sampleContract)
    let hash := sampleKeccak [0x00]
    w.users hash = 1 ∧ w.codeInfos.lookup hash = some ⟨1, 2⟩ ∧ ¬ w.CodesCounted sampleParams ∧
      w'.users hash = 0 ∧ w'.codes.lookup hash = some [0x00] ∧
      ¬ w'.CodesCounted sampleParams := by
  intro step w w' hash
  have husers : w.users hash = 1 := by decide +kernel
  have hinfo : w.codeInfos.lookup hash = some ⟨1, 2⟩ := by decide +kernel
  have husers' : w'.users hash = 0 := by decide +kernel
  have hcode' : w'.codes.lookup hash = some [0x00] := by decide +kernel
  refine ⟨husers, hinfo, fun h => ?_, husers', hcode', fun h => ?_⟩
  · have hcount := h.refCount hash _ hinfo
    rw [husers] at hcount
    cases hcount
  · obtain hused := (h.code_iff hash).mp (by rw [hcode']; rfl)
    rw [← World.users_ne_zero_iff] at hused
    exact hused husers'

end Sample

end Setheum.Evm
