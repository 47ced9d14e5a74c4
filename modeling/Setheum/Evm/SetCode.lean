import Setheum.Evm.CodeReferences

/-!
# Setting the code of a contract

`set_code` runs an init code at the address of a contract, which installs what that returns like a
new contract there. All of this happens while the account of the contract is being mutated, and the
account that was read before is written back at the end.

* `Creation.initRun` — the run of the init code.
* `CodeWasSet` — the call returned, the init code ran, and the creation around it succeeded.
* `storageSize_settle` — settling a frame moves deposits, not sizes.
* `setCode_takesEffect_iff` — the new code takes effect only where it is the old one, and then only
  if a contract is charged for nothing.
-/

set_option autoImplicit false

namespace Setheum.Evm

open StorageMap Dispatch

variable {A N : Type}

/-! ## Sizes -/

theorem toChain_dereferenceCode (w : World A N) (hash : H256) :
    (w.dereferenceCode hash).toChain = w.toChain := by
  unfold World.dereferenceCode
  split
  · split <;> rfl
  · rfl

theorem toChain_referenceCode (w : World A N) (p : Params A N) (code : Code) :
    (w.referenceCode p code).toChain = w.toChain := by
  unfold World.referenceCode
  split <;> rfl

theorem toChain_removeAccount (w : World A N) (address : EvmAddress) :
    (w.removeAccount address).toChain = w.toChain := by
  unfold World.removeAccount
  cases w.contractInfo address with
  | none => rfl
  | some contract => exact toChain_dereferenceCode w contract.codeHash

theorem toChain_onKilledAccount (w : World A N) (p : Params A N) (who : A) :
    (w.onKilledAccount p who).toChain = w.toChain := by
  unfold World.onKilledAccount
  cases p.evmAddress who with
  | none => exact toChain_removeAccount w _
  | some address =>
      exact (toChain_removeAccount _ _).trans (toChain_removeAccount w address)

/-- Accounts that go leave the chain as it is. -/
theorem toChain_moved (w : World A N) (p : Params A N) (s : Chain A) :
    (w.moved p s).toChain = s := by
  have hfold : ∀ (whos : List A) (w : World A N),
      (whos.foldl (fun w who => w.onKilledAccount p who) w).toChain = w.toChain := by
    intro whos
    induction whos with
    | nil => exact fun w => rfl
    | cons who whos ih => exact fun w => (ih _).trans (toChain_onKilledAccount w p who)
  exact hfold _ (w.withChain s)

/-- What a contract is charged for when it is installed. -/
theorem storageSize_onContractInitialization {w w' : World A N} {p : Params A N}
    {address maintainer : EvmAddress} {code : Code}
    (hw' : w.onContractInitialization p address maintainer code = some w') :
    w'.storageSize address = w.storageSize address + (code.length + p.newContractExtraBytes) := by
  unfold World.onContractInitialization at hw'
  split at hw'
  · cases hw'
  · cases hw'
    rw [World.toChain_putAccount, toChain_referenceCode]
    show (w.toChain.growContract address _).storageSize address = _
    rw [Chain.growContract_storageSize, if_pos rfl]

variable [DecidableEq A] {p : Params A N}

theorem sizes_chargeStorage {cfg : Config A} {origin contract : EvmAddress} {used refunded : ℕ}
    {s s' : Chain A} (h : chargeStorage cfg origin contract used refunded s = .ok s') :
    s'.contractStorageSizes = s.contractStorageSizes := by
  unfold chargeStorage at h
  split at h
  · cases h
    rfl
  · split at h
    · cases h
      rfl
    · cases h

theorem sizes_unreserveStorage {cfg : Config A} {origin : EvmAddress} {limit used refunded : ℕ}
    {s : Chain A} : (unreserveStorage cfg origin limit used refunded s).contractStorageSizes
      = s.contractStorageSizes := by
  unfold unreserveStorage
  dsimp only
  split <;> rfl

/-- **Settling a frame moves deposits, not sizes.** -/
theorem storageSize_settle {origin address : EvmAddress} {f : Frame A} {w w' : World A N}
    (h : (settle p origin [] f w).2 = .ok w') : w'.storageSize address = w.storageSize address := by
  unfold settle StorageMeter.finish at h
  by_cases hlimit : f.meter.limit < f.meter.totalUsed - f.meter.totalRefunded
  · simp only [if_pos hlimit] at h
    cases h
  · simp only [if_neg hlimit, chargeThrough, List.isEmpty_nil, if_true] at h
    cases hcharge : chargeStorage p.toConfig origin f.meter.contract f.meter.selfUsed
        f.meter.selfRefunded w.toChain with
    | error e =>
        rw [hcharge] at h
        cases h
    | ok s =>
        rw [hcharge] at h
        cases h
        show get 0 _ address = get 0 _ address
        rw [toChain_moved, sizes_unreserveStorage, sizes_chargeStorage hcharge]

/-! ## Setting a code -/

/-- The run of the init code of a creation, unless it is not reached. -/
def Creation.initRun (p : Params A N) (run : Interpreter A N) (c : Creation A)
    (address : EvmAddress) (w : World A N) : Option (Outcome A N) :=
  match c.entry p address w with
  | none => none
  | some (f₀, w₀) =>
      match w₀.transfer p ⟨c.caller, address, c.value⟩ with
      | .ok w₁ => some (run f₀ w₁)
      | .error _ => none

/-- What a creation that completes leaves at its address, next to what its init code left. -/
theorem Creation.CompletesTo.storageSize {run : Interpreter A N} {source address : EvmAddress}
    {init : Code} {assigned : Option EvmAddress} {salt : Option H256} {value limit : ℕ}
    {w w' : World A N} {o : Outcome A N}
    (h : (Creation.dispatched source init assigned salt value limit).CompletesTo p run address w w')
    (ho : (Creation.dispatched source init assigned salt value limit).initRun p run address w
      = some o) :
    w'.storageSize address
      = o.world.storageSize address + (o.output.length + p.newContractExtraBytes) := by
  obtain ⟨f₀, w₀, w₁, w₂, hentry, htransfer, -, hinit, hsettle⟩ := h
  simp only [initRun, hentry, htransfer, Option.some.injEq] at ho
  subst ho
  rw [storageSize_settle hsettle, storageSize_onContractInitialization hinit]
  rfl

/-- The creation that a call to set a code performs. -/
def setCodeCreation (source contract : EvmAddress) (code : Code) : Creation A :=
  .dispatched source code (some contract) none 0 SET_CODE_STORAGE_LIMIT

/-- The contract is `before`, the caller may set its code, the call returned `Ok`, the init code ran
as `o`, and the creation succeeded. -/
structure CodeWasSet (p : Params A N) (run : EvmAddress → Interpreter A N)
    (rootOrSigned : Option A) (contract : EvmAddress) (code : Code) (before : ContractInfo)
    (o : Outcome A N) (w w' : World A N) : Prop where
  hosted : w.contractInfo contract = some before
  returned : (doSetCode p rootOrSigned contract code run).run w = .ok () w'
  ran : ∃ source, setCodeSource p rootOrSigned before = .ok source ∧
    p.keccak256 code ≠ before.codeHash ∧
    (setCodeCreation source contract code).initRun p (run source) contract w = some o ∧
    ((setCodeCreation source contract code).perform p (run source) w).1 = true

/-- The references that are counted for a code. -/
def World.refCount (w : World A N) (h : H256) : ℕ :=
  (w.codeInfos.lookup h).elim 0 CodeInfo.refCount

/-- `codes`: the code with a hash, the empty one by default. -/
def World.codeOf (w : World A N) (h : H256) : Code := get [] w.codes h

/-- Setting a code is to put the code that the init code returned in the place of the previous one,
on top of what the init code did itself. -/
structure TakesEffect (p : Params A N) (contract : EvmAddress) (before : ContractInfo)
    (o : Outcome A N) (w w' : World A N) : Prop where
  contractInfo : w'.contractInfo contract
    = some { before with codeHash := p.keccak256 o.output }
  references : before.codeHash ≠ p.keccak256 o.output →
    w'.refCount before.codeHash + 1 = o.world.refCount before.codeHash ∧
      w'.refCount (p.keccak256 o.output) = o.world.refCount (p.keccak256 o.output) + 1
  storageSize : w'.storageSize contract + (w.codeOf before.codeHash).length
    = o.world.storageSize contract + o.output.length

/-- **What a successful call leaves behind**: the contract that it found, at the expense of another
one. -/
theorem CodeWasSet.effect {run : EvmAddress → Interpreter A N} {rootOrSigned : Option A}
    {contract : EvmAddress} {code : Code} {before : ContractInfo} {o : Outcome A N}
    {w w' : World A N} (h : CodeWasSet p run rootOrSigned contract code before o w w') :
    w'.contractInfo contract = some before ∧
      w'.storageSize contract
        = o.world.storageSize contract + (o.output.length + p.newContractExtraBytes) := by
  obtain ⟨hhosted, hreturned, source, hsource, hhash, ho, hsucceeds⟩ := h
  obtain ⟨info, before', source', hinfo, hbefore, hsource', ⟨hsame, -⟩ |
    ⟨-, -, created, w₁, hcreate, rfl⟩⟩ := doSetCode_spec hreturned
  · rw [World.contractInfo, hinfo] at hhosted
    cases hbefore.symm.trans hhosted
    exact absurd hsame hhash
  · rw [World.contractInfo, hinfo] at hhosted
    cases hbefore.symm.trans hhosted
    cases hsource.symm.trans hsource'
    have hends := (setCodeCreation source contract code).ends p (run source) w rfl
    have hcompletes := hends.completes hsucceeds
    have hw₁ : ((setCodeCreation source contract code).perform p (run source) w).2 = w₁ := by
      rw [setCodeCreation, ← commit_innerCreate, commit_of_ok hcreate]
    rw [hw₁] at hcompletes
    refine ⟨?_, hcompletes.storageSize ho⟩
    rw [World.contractInfo_putAccount, if_pos rfl]
    exact hbefore

/-- **Setting a code takes effect** only where the init code returns the code that the contract has,
so that there is nothing to set, and only if a contract is charged for nothing: the code is empty,
and there are no extra bytes. -/
theorem setCode_takesEffect_iff (p : Params A N) (run : EvmAddress → Interpreter A N)
    (rootOrSigned : Option A) (contract : EvmAddress) (code : Code) (before : ContractInfo)
    (o : Outcome A N) (w w' : World A N)
    (h : CodeWasSet p run rootOrSigned contract code before o w w') :
    TakesEffect p contract before o w w' ↔
      p.keccak256 o.output = before.codeHash ∧ w.codeOf before.codeHash = [] ∧
        p.newContractExtraBytes = 0 := by
  obtain ⟨hinfo, hsize⟩ := h.effect
  constructor
  · rintro ⟨hcontract, -, hstorage⟩
    rw [hinfo] at hcontract
    have hcode : before.codeHash = p.keccak256 o.output :=
      congrArg ContractInfo.codeHash (Option.some.inj hcontract)
    have hnothing : (w.codeOf before.codeHash).length = 0 ∧ p.newContractExtraBytes = 0 := by
      omega
    exact ⟨hcode.symm, List.length_eq_zero_iff.mp hnothing.1, hnothing.2⟩
  · rintro ⟨hcode, hempty, hextra⟩
    refine ⟨?_, fun hne => absurd hcode.symm hne, ?_⟩
    · rw [hinfo, hcode]
    · rw [hsize, hempty, hextra]
      rfl

/-! ## A code that is set in vain -/

section Sample

/-- An init code, `PUSH1 2 PUSH1 0 RETURN`, that returns the code `STOP STOP`. -/
def newInit : Code := [0x60, 0x02, 0x60, 0x00, 0xf3]

def newHash : H256 := 0x54a8c0ab653c15bfb48b47fd011ba2b9617af01cb45cab344acd57c924d56798

/-- The sample's chain, with Keccak-256 on the new codes too. -/
def newParams : Params EvmAddress Unit :=
  { sampleParams with
    keccak256 := fun bytes =>
      if bytes = newInit then 0x0c61185c4ce87660654ebf1223898e3aa5edb7d704156a334f07ad3077822fb9
      else if bytes = [0x00, 0x00] then newHash
      else sampleKeccak bytes }

/-- The chain once the sample's contract is created. -/
def createdWorld : World EvmAddress Unit :=
  Machine.run (World.step newParams) fundedWorld [sampleCreate2]

/-- The contract as it was created. -/
def createdInfo : ContractInfo := ⟨sampleKeccak [0x00], sampleSource, false⟩

def newRun (source : EvmAddress) : Interpreter EvmAddress Unit :=
  exec newParams (.exit .succeed [0x00, 0x00]) source false

/-- What the maintainer leaves by setting the new code. -/
def setWorld : World EvmAddress Unit :=
  commit (doSetCode newParams (some sampleSource) sampleContract newInit newRun) createdWorld

theorem newCode_wasSet : ∃ o, o.output = [0x00, 0x00] ∧
    CodeWasSet newParams newRun (some sampleSource) sampleContract newInit createdInfo o
      createdWorld setWorld := by
  have hran : ((setCodeCreation sampleSource sampleContract newInit).initRun newParams
      (newRun sampleSource) sampleContract createdWorld).map Outcome.output
      = some [0x00, 0x00] := by
    decide +kernel
  obtain ⟨o, ho, houtput⟩ := Option.map_eq_some_iff.mp hran
  refine ⟨o, houtput, ⟨by decide +kernel, run_eq_commit (by decide +kernel), sampleSource, rfl,
    by decide +kernel, ho, by decide +kernel⟩⟩

theorem setCode_takesEffect_sample : ∃ o, o.output = [0x00, 0x00] ∧
    (TakesEffect newParams sampleContract createdInfo o createdWorld setWorld ↔
      newParams.keccak256 o.output = createdInfo.codeHash ∧
        createdWorld.codeOf createdInfo.codeHash = [] ∧ newParams.newContractExtraBytes = 0) := by
  obtain ⟨o, houtput, h⟩ := newCode_wasSet
  exact ⟨o, houtput, setCode_takesEffect_iff newParams newRun (some sampleSource) sampleContract
    newInit createdInfo o createdWorld setWorld h⟩

/-- The call returns, the init code returned `STOP STOP`, and the contract keeps the code `STOP`;
the new code is stored for no one, and the storage size grows by 102 bytes. -/
theorem setCode_without_effect : ∃ o, o.output = [0x00, 0x00] ∧
    CodeWasSet newParams newRun (some sampleSource) sampleContract newInit createdInfo o
      createdWorld setWorld ∧
    setWorld.contractInfo sampleContract = some createdInfo ∧
    setWorld.refCount newHash = 1 ∧ setWorld.users newHash = 0 ∧
    createdWorld.storageSize sampleContract = 101 ∧ setWorld.storageSize sampleContract = 203 ∧
    ¬ TakesEffect newParams sampleContract createdInfo o createdWorld setWorld := by
  obtain ⟨o, houtput, h⟩ := newCode_wasSet
  have hinfo : setWorld.contractInfo sampleContract = some createdInfo := by decide +kernel
  refine ⟨o, houtput, h, hinfo, by decide +kernel, by decide +kernel, by decide +kernel,
    by decide +kernel, fun heffect => ?_⟩
  have hcontract := heffect.contractInfo
  rw [hinfo, houtput] at hcontract
  exact absurd hcontract (by decide +kernel)

end Sample

end Setheum.Evm
