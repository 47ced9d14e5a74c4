import Setheum.Lib.Dispatch
import Setheum.Lib.Ledger
import Setheum.Lib.Run
import Setheum.Lib.StorageMap
import Setheum.Primitives.Currency

/-!
# The chain bridge and its registry

A resource is what the bridged chains call a currency. Its last byte tells the chain it comes from.
A currency of this chain is locked in the bridge's account when it leaves and released when it
comes back; one of another chain is burned and minted. Which resource stands for which currency is
registered in two maps, one for each direction.

The bridge pallet itself is a parameter: which chains it knows and what it does with a transfer.
The calls are modelled past the checks of their origins.

* `Registry` — the two maps are each other's inverse, and link each resource to its own kind of
  currency.
* `registry_of_run` — in every state that is reached.
-/

set_option autoImplicit false

namespace Setheum.ChainBridge

open StorageMap

abbrev Byte := BitVec 8

abbrev ChainId := BitVec 8

inductive Error
  | InvalidDestChainId
  | ResourceIdAlreadyRegistered
  | ResourceIdNotRegistered
  | ResourceIdCurrencyIdNotMatch
  deriving DecidableEq, Repr

inductive DispatchError
  | module (e : Error)
  | currency (e : Ledger.Error)
  /-- The bridge pallet refuses a transfer. -/
  | bridge
  deriving DecidableEq, Repr

/-- The currencies, the registry, and the storages of the bridge pallet. -/
structure State (A E : Type) where
  ledger : Ledger CurrencyId A
  resourceIds : Map CurrencyId ResourceId
  currencyIds : Map ResourceId CurrencyId
  bridge : E

structure Config (A E : Type) where
  rules : Ledger.Rules CurrencyId A
  nativeCurrencyId : CurrencyId
  chainId : ChainId
  /-- The account of the bridge pallet. -/
  accountId : A
  chainWhitelisted : E → ChainId → Bool
  transferFungible : ChainId → ResourceId → List Byte → ℕ → E → Except Unit E

/-- An account other than the bridge's, which has no key and is no recipient. -/
abbrev Outsider {A E : Type} (cfg : Config A E) := {a : A // a ≠ cfg.accountId}

abbrev BridgeM (A E : Type) := Dispatch DispatchError (State A E)

variable {A E : Type} [DecidableEq A] (cfg : Config A E)

/-- The last of the resource's bytes is the id of this chain. -/
def isOriginChainResource (resourceId : ResourceId) : Bool :=
  resourceId.setWidth 8 == cfg.chainId

/-- A bridged currency carries the resource it stands for. -/
def bridgedResource : CurrencyId → Option ResourceId
  | .ChainBridge resource => some resource
  | _ => none

/-! ## Currencies -/

def onLedger {E : Type} (f : Ledger CurrencyId A → Except Ledger.Error (Ledger CurrencyId A)) :
    BridgeM A E Unit :=
  Dispatch.onComponent State.ledger (fun l s => { s with ledger := l }) .currency f

def transfer (currencyId : CurrencyId) (source dest : A) (amount : ℕ) : BridgeM A E Unit :=
  onLedger (Ledger.transfer cfg.rules currencyId source dest amount)

def deposit (currencyId : CurrencyId) (who : A) (amount : ℕ) : BridgeM A E Unit :=
  onLedger (Ledger.deposit cfg.rules currencyId who amount)

def withdraw (currencyId : CurrencyId) (who : A) (amount : ℕ) : BridgeM A E Unit :=
  onLedger (Ledger.withdraw cfg.rules currencyId who amount)

/-! ## Calls -/

omit [DecidableEq A] in
/-- The resource may stand for the currency: a resource of this chain for any that is not bridged,
one of another chain for the bridged currency that carries it. -/
def checkMatch (resourceId : ResourceId) (currencyId : CurrencyId) : Bool :=
  if isOriginChainResource cfg resourceId then (bridgedResource currencyId).isNone
  else bridgedResource currencyId == some resourceId

def registerResourceId (resourceId : ResourceId) (currencyId : CurrencyId) :
    BridgeM A E Unit := do
  let s ← get
  Dispatch.ensure (currencyId ∉ s.resourceIds ∧ resourceId ∉ s.currencyIds)
    (.module .ResourceIdAlreadyRegistered)
  Dispatch.ensure (checkMatch cfg resourceId currencyId = true)
    (.module .ResourceIdCurrencyIdNotMatch)
  set { s with
    resourceIds := s.resourceIds.insert currencyId resourceId
    currencyIds := s.currencyIds.insert resourceId currencyId }

def removeResourceId (resourceId : ResourceId) : BridgeM A E Unit :=
  modify fun s =>
    match s.currencyIds.lookup resourceId with
    | some currencyId =>
        { s with
          currencyIds := s.currencyIds.erase resourceId
          resourceIds := s.resourceIds.erase currencyId }
    | none => s

/-- Lock or burn, and tell the bridge pallet. -/
def doTransferToBridge (who : A) (currencyId : CurrencyId) (destChainId : ChainId)
    (recipient : List Byte) (amount : ℕ) : BridgeM A E Unit := do
  let s ← get
  Dispatch.ensure (cfg.chainWhitelisted s.bridge destChainId = true) (.module .InvalidDestChainId)
  let resourceId ← Dispatch.okOr (s.resourceIds.lookup currencyId)
    (.module .ResourceIdNotRegistered)
  if isOriginChainResource cfg resourceId then transfer cfg currencyId who cfg.accountId amount
  else withdraw cfg currencyId who amount
  Dispatch.onComponent State.bridge (fun e s => { s with bridge := e }) (fun _ => .bridge)
    (cfg.transferFungible destChainId resourceId recipient amount)

/-- Release or mint. -/
def transferFromBridge (recipient : A) (amount : ℕ) (resourceId : ResourceId) :
    BridgeM A E Unit := do
  let s ← get
  let currencyId ← Dispatch.okOr (s.currencyIds.lookup resourceId)
    (.module .ResourceIdNotRegistered)
  if isOriginChainResource cfg resourceId then
    transfer cfg currencyId cfg.accountId recipient amount
  else deposit cfg currencyId recipient amount

inductive Call (cfg : Config A E)
  | registerResourceId (resourceId : ResourceId) (currencyId : CurrencyId)
  | removeResourceId (resourceId : ResourceId)
  | transferToBridge (who : Outsider cfg) (currencyId : CurrencyId) (destChainId : ChainId)
      (recipient : List Byte) (amount : ℕ)
  | transferNativeToBridge (who : Outsider cfg) (destChainId : ChainId) (recipient : List Byte)
      (amount : ℕ)
  | transferFromBridge (recipient : Outsider cfg) (amount : ℕ) (resourceId : ResourceId)

def Call.body : Call cfg → BridgeM A E Unit
  | .registerResourceId resourceId currencyId =>
      ChainBridge.registerResourceId cfg resourceId currencyId
  | .removeResourceId resourceId => ChainBridge.removeResourceId resourceId
  | .transferToBridge who currencyId destChainId recipient amount =>
      doTransferToBridge cfg who currencyId destChainId recipient amount
  | .transferNativeToBridge who destChainId recipient amount =>
      doTransferToBridge cfg who cfg.nativeCurrencyId destChainId recipient amount
  | .transferFromBridge recipient amount resourceId =>
      ChainBridge.transferFromBridge cfg recipient amount resourceId

/-- Every call runs in a storage layer of its own. -/
def Call.call (c : Call cfg) : BridgeM A E Unit := Dispatch.transactional (c.body cfg)

def step (s : State A E) (c : Call cfg) : State A E := Dispatch.commit (c.call cfg) s

/-- A state that the chain can start in: nothing is registered. -/
structure Genesis (s : State A E) : Prop where
  resourceIds : s.resourceIds = ∅
  currencyIds : s.currencyIds = ∅

/-! ## The registry -/

/-- The registry is a one-to-one correspondence in which a resource of this chain stands for a
currency that is not bridged, and one of another chain for the bridged currency that carries it. -/
structure Registry (s : State A E) : Prop where
  mirrors : Mirrors s.resourceIds s.currencyIds
  foreign : ∀ resource currency, s.currencyIds.lookup resource = some currency →
    isOriginChainResource cfg resource = false → currency = .ChainBridge resource
  origin : ∀ resource currency, s.currencyIds.lookup resource = some currency →
    isOriginChainResource cfg resource = true → ∀ r, currency ≠ .ChainBridge r

omit [DecidableEq A] in
theorem Genesis.registry {s : State A E} (h : Genesis s) : Registry cfg s where
  mirrors k v := by
    rw [h.resourceIds, h.currencyIds]
    exact iff_of_false nofun nofun
  foreign r c hr := by
    rw [h.currencyIds] at hr
    cases hr
  origin r c hr := by
    rw [h.currencyIds] at hr
    cases hr

variable {cfg}

section Registry

variable {s s' : State A E}

omit [DecidableEq A] in
/-- The ledger and the bridge pallet have no part in it. -/
theorem Registry.congr (h : Registry cfg s) (hr : s'.resourceIds = s.resourceIds)
    (hc : s'.currencyIds = s.currencyIds) : Registry cfg s' where
  mirrors := by
    rw [hr, hc]
    exact h.mirrors
  foreign := by
    rw [hc]
    exact h.foreign
  origin := by
    rw [hc]
    exact h.origin

omit [DecidableEq A] in
/-- A registered resource is linked to its own kind of currency. -/
theorem Registry.bridgedResource_eq (h : Registry cfg s) {resource : ResourceId}
    {currency : CurrencyId} (hr : s.currencyIds.lookup resource = some currency) :
    bridgedResource currency
      = if isOriginChainResource cfg resource then none else some resource := by
  cases ho : isOriginChainResource cfg resource with
  | true =>
      have hne := h.origin resource currency hr ho
      cases currency with
      | ChainBridge r => exact absurd rfl (hne r)
      | _ => rfl
  | false =>
      rw [h.foreign resource currency hr ho]
      rfl

end Registry

/-! ## What a successful call does -/

section Inversion

variable {s s' : State A E} {u : Unit}

omit [DecidableEq A] in
theorem registerResourceId_ok {resourceId : ResourceId} {currencyId : CurrencyId}
    (h : (registerResourceId cfg resourceId currencyId).run s = .ok u s') :
    s.resourceIds.lookup currencyId = none ∧ s.currencyIds.lookup resourceId = none ∧
      checkMatch cfg resourceId currencyId = true ∧
      s' = { s with
        resourceIds := s.resourceIds.insert currencyId resourceId
        currencyIds := s.currencyIds.insert resourceId currencyId } := by
  simp only [registerResourceId, Dispatch.run_bind_ok, Dispatch.run_get_ok,
    Dispatch.run_ensure_ok, Dispatch.run_set_ok] at h
  obtain ⟨t, s₁, ⟨rfl, rfl⟩, _, s₂, ⟨⟨hc, hr⟩, rfl⟩, _, s₃, ⟨hm, rfl⟩, rfl⟩ := h
  exact ⟨AList.lookup_eq_none.mpr hc, AList.lookup_eq_none.mpr hr, hm, rfl⟩

omit [DecidableEq A] in
theorem onLedger_ok {f : Ledger CurrencyId A → Except Ledger.Error (Ledger CurrencyId A)}
    (h : (onLedger f : BridgeM A E Unit).run s = .ok u s') :
    ∃ l, f s.ledger = .ok l ∧ s' = { s with ledger := l } := by
  obtain ⟨l, hl, rfl⟩ := Dispatch.run_onComponent_ok.mp h
  exact ⟨l, hl, rfl⟩

/-- What leaves is locked or burned, by what its resource says. -/
theorem doTransferToBridge_ok {who : A} {currencyId : CurrencyId} {destChainId : ChainId}
    {recipient : List Byte} {amount : ℕ}
    (h : (doTransferToBridge cfg who currencyId destChainId recipient amount).run s = .ok u s') :
    ∃ resourceId l e, s.resourceIds.lookup currencyId = some resourceId ∧
      (if isOriginChainResource cfg resourceId then
        Ledger.transfer cfg.rules currencyId who cfg.accountId amount s.ledger
      else Ledger.withdraw cfg.rules currencyId who amount s.ledger) = .ok l ∧
      s' = { s with ledger := l, bridge := e } := by
  simp only [doTransferToBridge, Dispatch.run_bind_ok, Dispatch.run_get_ok,
    Dispatch.run_ensure_ok, Dispatch.run_okOr_ok] at h
  obtain ⟨t, s₁, ⟨rfl, rfl⟩, _, s₂, ⟨-, rfl⟩, resourceId, s₃, ⟨hr, rfl⟩, h⟩ := h
  split at h
  · rename_i ho
    obtain ⟨_, s₄, hmove, hsend⟩ := Dispatch.run_bind_ok.mp h
    obtain ⟨l, hl, rfl⟩ := onLedger_ok hmove
    obtain ⟨e, -, rfl⟩ := Dispatch.run_onComponent_ok.mp hsend
    exact ⟨resourceId, l, e, hr, by rw [if_pos ho]; exact hl, rfl⟩
  · rename_i ho
    obtain ⟨_, s₄, hmove, hsend⟩ := Dispatch.run_bind_ok.mp h
    obtain ⟨l, hl, rfl⟩ := onLedger_ok hmove
    obtain ⟨e, -, rfl⟩ := Dispatch.run_onComponent_ok.mp hsend
    exact ⟨resourceId, l, e, hr, by rw [if_neg ho]; exact hl, rfl⟩

/-- What comes in is released or minted, by what its resource says. -/
theorem transferFromBridge_ok {recipient : A} {amount : ℕ} {resourceId : ResourceId}
    (h : (transferFromBridge cfg recipient amount resourceId).run s = .ok u s') :
    ∃ currencyId l, s.currencyIds.lookup resourceId = some currencyId ∧
      (if isOriginChainResource cfg resourceId then
        Ledger.transfer cfg.rules currencyId cfg.accountId recipient amount s.ledger
      else Ledger.deposit cfg.rules currencyId recipient amount s.ledger) = .ok l ∧
      s' = { s with ledger := l } := by
  simp only [transferFromBridge, Dispatch.run_bind_ok, Dispatch.run_get_ok,
    Dispatch.run_okOr_ok] at h
  obtain ⟨t, s₁, ⟨rfl, rfl⟩, currencyId, s₂, ⟨hc, rfl⟩, hmove⟩ := h
  split at hmove
  · rename_i ho
    obtain ⟨l, hl, rfl⟩ := onLedger_ok hmove
    exact ⟨currencyId, l, hc, by rw [if_pos ho]; exact hl, rfl⟩
  · rename_i ho
    obtain ⟨l, hl, rfl⟩ := onLedger_ok hmove
    exact ⟨currencyId, l, hc, by rw [if_neg ho]; exact hl, rfl⟩

end Inversion

/-! ## Runs -/

omit [DecidableEq A] in
theorem Registry.registerResourceId {s s' : State A E} {u : Unit} (hs : Registry cfg s)
    {resourceId : ResourceId} {currencyId : CurrencyId}
    (h : (registerResourceId cfg resourceId currencyId).run s = .ok u s') :
    Registry cfg s' := by
  obtain ⟨hc, hr, hm, rfl⟩ := registerResourceId_ok h
  unfold checkMatch at hm
  refine ⟨hs.mirrors.insert hc hr, fun r c hl ho => ?_, fun r c hl ho r' => ?_⟩
  · by_cases hrr : r = resourceId
    · subst hrr
      obtain rfl : currencyId = c := by simpa using hl
      rw [ho] at hm
      cases currencyId with
      | ChainBridge r' =>
          obtain rfl : r' = r := by simpa [bridgedResource] using hm
          rfl
      | _ => simp [bridgedResource] at hm
    · rw [AList.lookup_insert_ne hrr] at hl
      exact hs.foreign r c hl ho
  · by_cases hrr : r = resourceId
    · subst hrr
      obtain rfl : currencyId = c := by simpa using hl
      rw [ho] at hm
      rintro rfl
      simp [bridgedResource] at hm
    · rw [AList.lookup_insert_ne hrr] at hl
      exact hs.origin r c hl ho r'

omit [DecidableEq A] in
theorem Registry.removeResourceId {s s' : State A E} {u : Unit} (hs : Registry cfg s)
    {resourceId : ResourceId} (h : (removeResourceId resourceId).run s = .ok u s') :
    Registry cfg s' := by
  obtain rfl := Dispatch.run_modify_ok.mp h
  cases hc : s.currencyIds.lookup resourceId with
  | none => simpa only [hc] using hs
  | some currencyId =>
      have hlookup : ∀ r c, (s.currencyIds.erase resourceId).lookup r = some c →
          s.currencyIds.lookup r = some c := by
        intro r c hl
        by_cases hr : r = resourceId
        · subst hr
          rw [AList.lookup_erase] at hl
          cases hl
        · rwa [AList.lookup_erase_ne hr] at hl
      exact ⟨hs.mirrors.erase ((hs.mirrors currencyId resourceId).mpr hc),
        fun r c hl => hs.foreign r c (hlookup r c hl),
        fun r c hl => hs.origin r c (hlookup r c hl)⟩

theorem Registry.body {s s' : State A E} {u : Unit} (hs : Registry cfg s) {c : Call cfg}
    (h : (c.body cfg).run s = .ok u s') : Registry cfg s' := by
  cases c with
  | registerResourceId resourceId currencyId => exact hs.registerResourceId h
  | removeResourceId resourceId => exact hs.removeResourceId h
  | transferToBridge who currencyId destChainId recipient amount =>
      obtain ⟨r, l, e, -, -, rfl⟩ := doTransferToBridge_ok h
      exact hs.congr rfl rfl
  | transferNativeToBridge who destChainId recipient amount =>
      obtain ⟨r, l, e, -, -, rfl⟩ := doTransferToBridge_ok h
      exact hs.congr rfl rfl
  | transferFromBridge recipient amount resourceId =>
      obtain ⟨c, l, -, -, rfl⟩ := transferFromBridge_ok h
      exact hs.congr rfl rfl

theorem Registry.step {s : State A E} (hs : Registry cfg s) (c : Call cfg) :
    Registry cfg (step cfg s c) :=
  Dispatch.commit_transactional_invariant hs fun _ _ h => hs.body h

/-- **The two maps of the registry stay each other's inverse, and every registered resource is
linked to its own kind of currency.** -/
theorem registry_of_run {s : State A E} (hs : Genesis s) (calls : List (Call cfg)) :
    Registry cfg (Machine.run (step cfg) s calls) :=
  Machine.run_invariant_always (fun _ c h => h.step c) (hs.registry cfg) calls

/-- A chain with id 1 whose bridge account is 0. -/
def sampleConfig : Config (Fin 3) Unit where
  rules := .permissive
  nativeCurrencyId := .Token .DNAR
  chainId := 1
  accountId := 0
  chainWhitelisted _ _ := true
  transferFungible _ _ _ _ e := .ok e

/-- Account 1 holds a hundred of the native currency. -/
def sampleState : State (Fin 3) Unit where
  ledger := (Ledger.empty.setFree (.Token .DNAR) 1 100 (by decide)).setIssuance
    (.Token .DNAR) 100 (by decide)
  resourceIds := ∅
  currencyIds := ∅
  bridge := ()

theorem sampleState_genesis : Genesis sampleState := ⟨rfl, rfl⟩

/-- Both kinds of resource are registered and cross; the bridged one is then taken out. -/
def sampleCalls : List (Call sampleConfig) :=
  [.registerResourceId 1 (.Token .DNAR), .registerResourceId 2 (.ChainBridge 2),
    .registerResourceId 2 (.Token .DRAM),
    .transferFromBridge ⟨1, by decide⟩ 50 2, .transferNativeToBridge ⟨1, by decide⟩ 3 [] 30,
    .transferToBridge ⟨1, by decide⟩ (.ChainBridge 2) 3 [] 20,
    .transferFromBridge ⟨2, by decide⟩ 10 1, .removeResourceId 2,
    .transferToBridge ⟨1, by decide⟩ (.ChainBridge 2) 3 [] 5]

theorem sampleCalls_registry :
    Registry sampleConfig (Machine.run (step sampleConfig) sampleState sampleCalls) :=
  registry_of_run sampleState_genesis sampleCalls

end Setheum.ChainBridge
