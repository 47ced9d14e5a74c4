import Setheum.Evm.Deposits
import Setheum.Evm.Operations

/-!
# Creations and the contracts they meet

A creation, by a dispatched call or by the code of a frame, computes the address of the new
contract and runs the init code there. Nothing on the way asks whether the address hosts a
contract already.

* `Creation.perform` — either kind of creation, with its outcome.
* `Creation.Completes` — the value can be moved, the init code succeeds, and what it returns can
  be stored and paid for.
* `Creation.keepsContract_iff` — a contract that is met stays exactly if the creation does not
  complete.
-/

set_option autoImplicit false

namespace Setheum.Evm

open StorageMap Dispatch

variable {A N : Type}

/-! ## What a contract is -/

/-- The contract at an address is the same in both worlds. -/
structure World.SameContract (cfg : Config A) (address : EvmAddress) (w w' : World A N) : Prop where
  info : w'.contractInfo address = w.contractInfo address
  storage : ∀ index, w'.storage address index = w.storage address index
  storageSize : w'.storageSize address = w.storageSize address
  deposit : w'.reserved cfg address = w.reserved cfg address

theorem World.SameContract.rfl {cfg : Config A} {address : EvmAddress} {w : World A N} :
    SameContract cfg address w w :=
  ⟨Eq.refl _, fun _ => Eq.refl _, Eq.refl _, Eq.refl _⟩

section Accounts

variable (w : World A N) (a b : EvmAddress)

@[simp] theorem World.toChain_putAccount (info : AccountInfo) :
    (w.putAccount a info).toChain = w.toChain := rfl

theorem World.contractInfo_putAccount (info : AccountInfo) :
    (w.putAccount a info).contractInfo b
      = if b = a then info.contractInfo else w.contractInfo b := by
  by_cases hb : b = a
  · subst hb
    simp [contractInfo, putAccount]
  · simp [contractInfo, putAccount, AList.lookup_insert_ne hb, hb]

theorem World.accountInfo_contractInfo : (w.accountInfo a).contractInfo = w.contractInfo a := by
  unfold accountInfo contractInfo
  cases w.accounts.lookup a <;> rfl

/-- A nonce is not part of a contract. -/
@[simp] theorem World.contractInfo_incNonce :
    (w.incNonce a).contractInfo b = w.contractInfo b := by
  rw [incNonce, contractInfo_putAccount]
  split
  · rename_i hb
    rw [hb]
    exact w.accountInfo_contractInfo a
  · rfl

theorem World.sameContract_incNonce (cfg : Config A) :
    SameContract cfg b w (w.incNonce a) :=
  ⟨w.contractInfo_incNonce a b, fun _ => Eq.refl _, Eq.refl _, Eq.refl _⟩

end Accounts

/-! ## One creation -/

variable [DecidableEq A] (p : Params A N) (run : Interpreter A N)

/-- The frame of an init code that succeeded, charged for the code. -/
def chargedFrame (o : Outcome A N) : Frame A :=
  { o.frame with meter := o.frame.meter.charge (o.output.length + p.newContractExtraBytes) }

/-- A creation by a dispatched call, `create` or with a salt `create2` or at an assigned address,
or, in the frame of a contract, by its code. -/
inductive Creation (A : Type)
  | dispatched (source : EvmAddress) (init : Code) (assigned : Option EvmAddress)
      (salt : Option H256) (value storageLimit : ℕ)
  | nested (origin : EvmAddress) (salt : Option (H256 × H256)) (value : ℕ) (frame : Frame A)

namespace Creation

variable (c : Creation A)

/-- The address that the creation computes. -/
def target (w : World A N) : Option EvmAddress :=
  match c with
  | .dispatched source init assigned salt _ _ =>
      Runner.creationAddress p source init assigned salt w
  | .nested _ salt _ f => w.createAddress p (Handler.creationScheme f salt)

/-- Whether the creation succeeds, and the world it leaves. -/
def perform (w : World A N) : Bool × World A N :=
  match c with
  | .dispatched source init assigned salt value limit =>
      match (Runner.innerCreate p run source init value limit assigned salt).run w with
      | .ok info w' => (info.exitReason = .succeed, w')
      | .error _ w' => (false, w')
  | .nested origin salt value f =>
      let r := Handler.create p origin run salt value f w
      (r.1.1 = .succeed, r.2.2)

/-- Who creates. -/
def caller : EvmAddress :=
  match c with
  | .dispatched source _ _ _ _ _ => source
  | .nested _ _ _ f => f.meter.contract

/-- Who maintains the new contract. -/
def maintainer : EvmAddress :=
  match c with
  | .dispatched source _ _ _ _ _ => source
  | .nested origin _ _ _ => origin

def value : ℕ :=
  match c with
  | .dispatched _ _ _ _ value _ => value
  | .nested _ _ value _ => value

/-- The frame of the init code and the world it is entered in, unless the storage limit cannot be
reserved or the frame around is static. -/
def entry (address : EvmAddress) (w : World A N) : Option (Frame A × World A N) :=
  let w₁ := w.incNonce c.caller
  match c with
  | .dispatched source _ _ _ _ limit =>
      match reserveStorage p.toConfig source limit w₁.toChain with
      | .ok s => some (⟨.new address limit, false, true, w₁.toChain⟩, w₁.withChain s)
      | .error _ => none
  | .nested _ _ _ f =>
      if f.isStatic then none
      else some (⟨f.meter.childMeter address, f.isStatic, true, w₁.toChain⟩, w₁)

/-- The frames that a charge goes through after the frame of the init code. -/
def outer (g : Frame A) : List (Frame A) :=
  match c with
  | .dispatched _ _ _ _ _ _ => []
  | .nested _ _ _ f => [f.hear g]

/-- The value can be moved, the init code succeeds, what it returns is not too long for a code,
and the storage of the frame can be paid for, which leaves the second world. -/
def CompletesTo (address : EvmAddress) (w w' : World A N) : Prop :=
  ∃ f₀ w₀ w₁ w₂, c.entry p address w = some (f₀, w₀) ∧
    w₀.transfer p ⟨c.caller, address, c.value⟩ = .ok w₁ ∧
    (run f₀ w₁).reason = .succeed ∧
    ((run f₀ w₁).world.incNonce address).onContractInitialization p address c.maintainer
      (run f₀ w₁).output = some w₂ ∧
    let f := chargedFrame p (run f₀ w₁)
    (settle p c.maintainer (c.outer f) f w₂).2 = .ok w'

def Completes (address : EvmAddress) (w : World A N) : Prop :=
  ∃ w', c.CompletesTo p run address w w'

/-- A contract that the creation meets at its address is left as it was. -/
def KeepsContract (w : World A N) : Prop :=
  ∀ address, c.target p w = some address → (w.contractInfo address).isSome →
    (c.perform p run w).1 = false ∧
      World.SameContract p.toConfig address w (c.perform p run w).2

end Creation

/-! ## The frame of the init code -/

variable {p run} {caller address maintainer : EvmAddress} {value : ℕ} {f : Frame A}
  {w w₁ w₂ : World A N}

/-- The body of a creation in the case that it commits. -/
theorem creation_eq (htransfer : w.transfer p ⟨caller, address, value⟩ = .ok w₁)
    (hreason : (run f w₁).reason = .succeed)
    (hinit : ((run f w₁).world.incNonce address).onContractInitialization p address maintainer
      (run f w₁).output = some w₂) :
    creation p run caller address value maintainer f w
      = ⟨.ok ⟨.succeed, address, []⟩, true, chargedFrame p (run f w₁), w₂⟩ := by
  unfold creation
  simp only [htransfer, hreason, hinit, if_true, chargedFrame]

variable (p run caller address maintainer value f w) in
/-- It commits in no other case, and then it did not succeed. -/
theorem creation_cases :
    (∃ w₁ w₂, w.transfer p ⟨caller, address, value⟩ = .ok w₁ ∧ (run f w₁).reason = .succeed ∧
      ((run f w₁).world.incNonce address).onContractInitialization p address maintainer
        (run f w₁).output = some w₂) ∨
    ((creation p run caller address value maintainer f w).commits = false ∧
      ∀ info, (creation p run caller address value maintainer f w).result = .ok info →
        info.exitReason ≠ .succeed) := by
  unfold creation
  cases htransfer : w.transfer p ⟨caller, address, value⟩ with
  | error e => exact .inr ⟨rfl, nofun⟩
  | ok w₁ =>
      by_cases hreason : (run f w₁).reason = .succeed
      · cases hinit : ((run f w₁).world.incNonce address).onContractInitialization p address
          maintainer (run f w₁).output with
        | some w₂ => exact .inl ⟨w₁, w₂, rfl, hreason, hinit⟩
        | none =>
            refine .inr ⟨by simp only [hreason, hinit, if_true], fun info h => ?_⟩
            simp only [hreason, hinit, if_true] at h
            cases h
            exact nofun
      · refine .inr ⟨by simp only [hreason, if_false], fun info h => ?_⟩
        simp only [hreason, if_false] at h
        cases h
        exact hreason

/-! ## The outcome of a creation -/

variable (run value) in
theorem Runner.innerCreate_run {source : EvmAddress} {init : Code} (limit : ℕ)
    {assigned : Option EvmAddress} {salt : Option H256}
    (h : creationAddress p source init assigned salt w = some address) :
    (innerCreate p run source init value limit assigned salt).run w
      = match (runTransaction p source address false true limit
          (creation p run source address value source)).run (w.incNonce source) with
        | .ok (.ok info) w' => .ok info w'
        | .ok (.error e) w' => .error e w'
        | .error e w' => .error e w' := by
  have hokOr : (okOr (creationAddress p source init assigned salt w) Error.ConflictContractAddress
      : Dispatch Error (World A N) EvmAddress) = pure address := by
    rw [h]
    rfl
  have hstart : (innerCreate p run source init value limit assigned salt).run w
      = (do
          modify (·.incNonce source)
          let info ← runTransaction p source address false true limit
            (creation p run source address value source)
          Dispatch.ofExcept info : Dispatch Error (World A N) CreateInfo).run w := by
    show ((okOr (creationAddress p source init assigned salt w) Error.ConflictContractAddress
      : Dispatch Error (World A N) EvmAddress) >>= _).run w = _
    rw [hokOr]
    rfl
  rw [hstart]
  show EStateM.bind (runTransaction p source address false true limit
      (creation p run source address value source)) Dispatch.ofExcept (w.incNonce source) = _
  unfold EStateM.bind EStateM.run
  cases runTransaction p source address false true limit
      (creation p run source address value source) (w.incNonce source) with
  | error e w' => rfl
  | ok info w' => cases info <;> rfl

/-- How a creation can end: it completes, or it leaves no more than nonces. -/
structure Creation.Ends (p : Params A N) (run : Interpreter A N) (c : Creation A)
    (address : EvmAddress) (w : World A N) (r : Bool × World A N) : Prop where
  completes : r.1 = true → c.CompletesTo p run address w r.2
  not_completes : r.1 = false → ¬ c.Completes p run address w
  kept : r.1 = false → r.2 = w.incNonce c.caller ∨ r.2 = w

theorem Creation.Ends.completed {c : Creation A} {w' : World A N}
    (h : c.CompletesTo p run address w w') : Creation.Ends p run c address w (true, w') :=
  ⟨fun _ => h, nofun, nofun⟩

theorem Creation.Ends.failed {c : Creation A} {w' : World A N}
    (h : ¬ c.Completes p run address w) (hw : w' = w.incNonce c.caller ∨ w' = w) :
    Creation.Ends p run c address w (false, w') :=
  ⟨nofun, fun _ => h, fun _ => hw⟩

variable {c : Creation A}

variable (run) in
/-- The body commits and its frame settles exactly if the creation completes. -/
theorem Creation.completesTo_iff {f₀ : Frame A} {w₀ : World A N} (w' : World A N)
    (hentry : c.entry p address w = some (f₀, w₀)) :
    let t := creation p run c.caller address c.value c.maintainer f₀ w₀
    c.CompletesTo p run address w w' ↔ t.commits = true ∧
      (settle p c.maintainer (c.outer t.frame) t.frame t.world).2 = .ok w' := by
  intro t
  constructor
  · rintro ⟨f, w₀', w₁, w₂, hentry', htransfer, hreason, hinit, hsettle⟩
    rw [hentry] at hentry'
    cases hentry'
    have ht : t = _ := creation_eq htransfer hreason hinit
    rw [ht]
    exact ⟨rfl, hsettle⟩
  · rintro ⟨hcommits, hsettle⟩
    obtain ⟨w₁, w₂, htransfer, hreason, hinit⟩ | ⟨hrolled, -⟩ :=
      creation_cases p run c.caller address c.maintainer c.value f₀ w₀
    · have ht : t = _ := creation_eq htransfer hreason hinit
      rw [ht] at hsettle
      exact ⟨f₀, w₀, w₁, w₂, hentry, htransfer, hreason, hinit, hsettle⟩
    · rw [hcommits] at hrolled
      cases hrolled

variable (p run caller address maintainer value f w) in
/-- What a committing body returns, and what another one does not. -/
theorem creation_result :
    let t := creation p run caller address value maintainer f w
    (t.commits = true → t.result = .ok ⟨.succeed, address, []⟩) ∧
      (t.commits = false → ∀ info, t.result = .ok info → info.exitReason ≠ .succeed) := by
  intro t
  obtain ⟨w₁, w₂, htransfer, hreason, hinit⟩ | ⟨hrolled, hresult⟩ :=
    creation_cases p run caller address maintainer value f w
  · have ht : t = _ := creation_eq htransfer hreason hinit
    rw [ht]
    exact ⟨fun _ => rfl, nofun⟩
  · exact ⟨fun hcommits => (Bool.false_ne_true (hrolled.symm.trans hcommits)).elim,
      fun _ => hresult⟩

/-- A dispatched creation completes or fails. -/
theorem Creation.ends_dispatched {source : EvmAddress} {init : Code}
    {assigned : Option EvmAddress} {salt : Option H256} {limit : ℕ}
    (h : Runner.creationAddress p source init assigned salt w = some address) :
    Creation.Ends p run (.dispatched source init assigned salt value limit) address w
      ((Creation.dispatched source init assigned salt value limit).perform p run w) := by
  have hrun := Runner.innerCreate_run run value limit h
  unfold perform
  obtain ⟨e, hreserve, hx⟩ | ⟨s, t, hreserve, ht, hx⟩ := runTransaction_cases p source address
    false true limit (creation p run source address value source) (w.incNonce source)
  · rw [hx] at hrun
    simp only [hrun]
    refine .failed ?_ (.inl rfl)
    rintro ⟨w', f₀, w₀, -, -, hentry, -⟩
    simp only [entry, caller, hreserve] at hentry
    cases hentry
  · have hentry : (Creation.dispatched source init assigned salt value limit).entry p address w
        = some (⟨.new address limit, false, true, (w.incNonce source).toChain⟩,
          (w.incNonce source).withChain s) := by
      simp only [entry, caller, hreserve]
    have hiff : ∀ w', CompletesTo p run (.dispatched source init assigned salt value limit)
        address w w' ↔ t.commits = true ∧ (settle p source [] t.frame t.world).2 = .ok w' := by
      rw [ht]
      exact fun w' => completesTo_iff run w' hentry
    have hresult := creation_result p run source address source value
      ⟨.new address limit, false, true, (w.incNonce source).toChain⟩
      ((w.incNonce source).withChain s)
    rw [← ht] at hresult
    obtain ⟨hcommits, hx⟩ | ⟨hcommits, w', hsettle, hx⟩ | ⟨hcommits, e, hsettle, hx⟩ := hx
    · have hnot : ¬ Completes p run (.dispatched source init assigned salt value limit) address
          w := by
        rintro ⟨w', hw'⟩
        exact Bool.false_ne_true (hcommits.symm.trans ((hiff w').mp hw').1)
      cases hres : t.result with
      | error e =>
          rw [hx, hres] at hrun
          simp only [hrun]
          exact .failed hnot (.inl rfl)
      | ok info =>
          rw [hx, hres] at hrun
          simp only [hrun, hresult.2 hcommits info hres, decide_false]
          exact .failed hnot (.inl rfl)
    · rw [hx, hresult.1 hcommits] at hrun
      simp only [hrun, decide_true]
      exact .completed ((hiff w').mpr ⟨hcommits, hsettle⟩)
    · rw [hx] at hrun
      simp only [hrun]
      refine .failed ?_ (.inl rfl)
      rintro ⟨w', hw'⟩
      cases hsettle.symm.trans ((hiff w').mp hw').2

/-- So does a creation by the code of a frame. -/
theorem Creation.ends_nested {origin : EvmAddress} {salt : Option (H256 × H256)}
    (h : w.createAddress p (Handler.creationScheme f salt) = some address) :
    Creation.Ends p run (.nested origin salt value f) address w
      ((Creation.nested origin salt value f).perform p run w) := by
  cases hstatic : f.isStatic with
  | true =>
      have hperform : (Creation.nested origin salt value f).perform p run w = (false, w) := by
        rw [perform, Handler.create, hstatic, if_pos rfl]
        rfl
      rw [hperform]
      refine .failed ?_ (.inr rfl)
      rintro ⟨w', f₀, w₀, -, -, hentry, -⟩
      simp only [entry, hstatic, if_true] at hentry
      cases hentry
  | false =>
      have hentry : (Creation.nested origin salt value f).entry p address w
          = some (⟨f.meter.childMeter address, f.isStatic, true,
            (w.incNonce f.meter.contract).toChain⟩, w.incNonce f.meter.contract) := by
        rw [entry, hstatic, if_neg Bool.false_ne_true]
        rfl
      have hiff := fun w' => completesTo_iff run w' hentry
      have hresult := creation_result p run f.meter.contract address origin value
        ⟨f.meter.childMeter address, f.isStatic, true, (w.incNonce f.meter.contract).toChain⟩
        (w.incNonce f.meter.contract)
      have hperform : ∀ r, runSubTransaction p origin address f.isStatic true
          (creation p run f.meter.contract address value origin) f
          (w.incNonce f.meter.contract) = r →
          (Creation.nested origin salt value f).perform p run w
            = (decide ((Handler.created address r.1).1 = .succeed), r.2.2) := by
        rintro r rfl
        rw [perform, Handler.create, hstatic, if_neg Bool.false_ne_true, h]
      obtain ⟨f', hx⟩ := runSubTransaction_cases p origin address f.isStatic true
        (creation p run f.meter.contract address value origin) f (w.incNonce f.meter.contract)
      obtain ⟨hcommits, hx⟩ | ⟨hcommits, w', hsettle, hx⟩ | ⟨hcommits, e, hsettle, hx⟩ := hx
      · have hfails : (Handler.created address (.ok (creation p run f.meter.contract address
            value origin ⟨f.meter.childMeter address, f.isStatic, true,
              (w.incNonce f.meter.contract).toChain⟩ (w.incNonce f.meter.contract)).result)).1
            ≠ .succeed := by
          cases hres : (creation p run f.meter.contract address value origin
            ⟨f.meter.childMeter address, f.isStatic, true,
              (w.incNonce f.meter.contract).toChain⟩ (w.incNonce f.meter.contract)).result with
          | error e => exact nofun
          | ok info => exact hresult.2 hcommits info hres
        rw [hperform _ hx, decide_eq_false hfails]
        refine .failed ?_ (.inl rfl)
        rintro ⟨w', hw'⟩
        exact Bool.false_ne_true (hcommits.symm.trans ((hiff w').mp hw').1)
      · rw [hperform _ hx, hresult.1 hcommits]
        exact .completed ((hiff w').mpr ⟨hcommits, hsettle⟩)
      · rw [hperform _ hx]
        refine .failed ?_ (.inl rfl)
        rintro ⟨w', hw'⟩
        cases hsettle.symm.trans ((hiff w').mp hw').2

variable (p run c w) in
/-- **A creation completes or leaves no more than nonces.** -/
theorem Creation.ends (h : c.target p w = some address) :
    Creation.Ends p run c address w (c.perform p run w) := by
  cases c with
  | dispatched source init assigned salt value limit => exact ends_dispatched h
  | nested origin salt value f => exact ends_nested h

variable (p run c w) in
/-- **A contract that a creation meets at its address stays as it was exactly if the creation does
not complete**: it is refused by a static frame, or for want of funds or storage, its init code
does not succeed, or what that returns is too long. -/
theorem Creation.keepsContract_iff :
    c.KeepsContract p run w ↔
      ∀ address, c.target p w = some address → (w.contractInfo address).isSome →
        ¬ c.Completes p run address w := by
  refine forall_congr' fun address => forall_congr' fun htarget => forall_congr' fun _ => ?_
  have hends := c.ends p run w htarget
  constructor
  · rintro ⟨hfails, -⟩
    exact hends.not_completes hfails
  · intro hnot
    have hfails : (c.perform p run w).1 = false := by
      rw [← Bool.not_eq_true]
      exact fun hsucceeds => hnot ⟨_, hends.completes hsucceeds⟩
    refine ⟨hfails, ?_⟩
    obtain hw | hw := hends.kept hfails
    · rw [hw]
      exact w.sameContract_incNonce c.caller address p.toConfig
    · rw [hw]
      exact .rfl

/-- The same `create2` twice: the second one finds the contract of the first at its address,
succeeds nevertheless, and counts the storage of the contract a second time. -/
theorem create2_overwrites :
    let w := sampleWorld.step sampleParams sampleCreate2
    let run := exec sampleParams (.exit .succeed [0x00]) sampleSource false
    let c : Creation EvmAddress := .dispatched sampleSource sampleInit none (some 0) 0 1000
    c.target sampleParams w = some sampleContract ∧ (w.contractInfo sampleContract).isSome ∧
      (c.perform sampleParams run w).1 = true ∧ w.storageSize sampleContract = 101 ∧
      (c.perform sampleParams run w).2.storageSize sampleContract = 202 ∧
      ¬ c.KeepsContract sampleParams run w := by
  intro w run c
  have htarget : c.target sampleParams w = some sampleContract := by decide +kernel
  have hhosts : (w.contractInfo sampleContract).isSome := by decide +kernel
  have hsucceeds : (c.perform sampleParams run w).1 = true := by decide +kernel
  refine ⟨htarget, hhosts, hsucceeds, by decide +kernel, by decide +kernel, fun h => ?_⟩
  rw [(h sampleContract htarget hhosts).1] at hsucceeds
  cases hsucceeds

end Setheum.Evm
