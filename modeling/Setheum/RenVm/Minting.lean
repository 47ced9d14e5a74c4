import Setheum.Lib.ReplayGuard
import Setheum.RenVm.Bridge

/-!
# What the signature blacklist protects

The bridge accepts a mint extrinsic when it validates and the deposit fits, and then spends its
signature. So no signature is used twice, whatever else happens in between. The right to mint
belongs to the message, though, and a message has more signatures than the one RenVM made.

* `step_mint` — an accepted mint credits its destination and blacklists its signature; any other
  changes nothing.
* `minted_once_iff` — every message is credited at most once exactly when accepted mints of one
  message carry one signature.
* `mirror_minted_twice` — a message of the bridge's own test vectors, minted a second time with
  the mirrored signature.
-/

set_option autoImplicit false

namespace Setheum.RenVm

open StorageMap

variable {A E : Type} [DecidableEq A]

/-- What RenVM signs: the message of a mint. -/
structure MintMessage (A : Type) where
  who : A
  pHash : Bytes 32
  amount : Bytes 16
  nHash : Bytes 32
  deriving DecidableEq

def MintMessage.call (m : MintMessage A) (sig : EcdsaSignature) : Call A :=
  .mint m.who m.pHash m.amount m.nHash sig

/-- The message and the signature of a mint extrinsic, whoever sends it. -/
def mintOf : Extrinsic A E → Option (MintMessage A × EcdsaSignature)
  | .unsigned (.mint who pHash amount nHash sig) => some (⟨who, pHash, amount, nHash⟩, sig)
  | .signed _ (.mint who pHash amount nHash sig) => some (⟨who, pHash, amount, nHash⟩, sig)
  | _ => none

variable (cfg : Config A E)

/-- The extrinsic validates, and the issuance and the balance have room for the deposit. -/
def Accepts (s : State A E) (m : MintMessage A) (sig : EcdsaSignature) : Prop :=
  (validateUnsigned cfg s (m.call sig)).isOk = true ∧
    (Ledger.deposit cfg.rules () m.who m.amount.toNat s.bridgedToken).isOk = true

instance (s : State A E) (m : MintMessage A) (sig : EcdsaSignature) :
    Decidable (Accepts cfg s m sig) :=
  inferInstanceAs (Decidable (_ ∧ _))

/-- The mint that goes through in this state, with its message and signature. -/
def accepted (s : State A E) : Extrinsic A E → Option (MintMessage A × EcdsaSignature)
  | .unsigned (.mint who pHash amount nHash sig) =>
      if Accepts cfg s ⟨who, pHash, amount, nHash⟩ sig then
        some (⟨who, pHash, amount, nHash⟩, sig)
      else none
  | _ => none

/-- The message an extrinsic credits: that of a mint whose execution succeeds. -/
def credited (s : State A E) (e : Extrinsic A E) : Option (MintMessage A) :=
  if (execute cfg e).succeeds s then (mintOf e).map Prod.fst else none

/-! ## What one extrinsic does -/

variable {cfg} {s : State A E}

omit [DecidableEq A] in
theorem notMem_of_validateSigned {sig : EcdsaSignature} {verified : Except Error Unit}
    (h : (validateSigned cfg s sig verified).isOk = true) : sig ∉ s.signatures := by
  intro hmem
  simp [validateSigned, hmem, Except.isOk, Except.toBool] at h

/-- The state after a mint whose deposit turned the ledger into `l`. -/
def State.minted (s : State A E) (cfg : Config A E) (m : MintMessage A) (sig : EcdsaSignature)
    (l : Ledger Unit A) : State A E :=
  { s with bridgedToken := l, signatures := s.signatures.insert sig (),
           external := cfg.chargeFee m.who s.external }

theorem execute_mint_ok {m : MintMessage A} {sig : EcdsaSignature} {s' : State A E} {u : Unit} :
    (execute cfg (.unsigned (m.call sig))).run s = .ok u s' ↔
      (validateUnsigned cfg s (m.call sig)).isOk = true ∧
        ∃ l, Ledger.deposit cfg.rules () m.who m.amount.toNat s.bridgedToken = .ok l ∧
          s.minted cfg m sig l = s' := by
  simp only [execute, Dispatch.run_bind_ok, Dispatch.run_get_ok]
  constructor
  · rintro ⟨s₀, s₁, ⟨rfl, rfl⟩, h⟩
    split at h
    · rename_i v hv
      simp only [MintMessage.call, dispatch, mint, doMint, deposit, Dispatch.run_bind_ok,
        Dispatch.run_ensure_ok, Dispatch.run_onComponent_ok, Dispatch.run_modify_ok] at h
      obtain ⟨_, _, ⟨-, rfl⟩, _, _, ⟨_, _, ⟨l, hl, rfl⟩, rfl⟩, rfl⟩ := h
      exact ⟨by rw [hv]; rfl, l, hl, rfl⟩
    · exact (Dispatch.run_throw_ok.mp h).elim
  · rintro ⟨hv, l, hl, rfl⟩
    refine ⟨s, s, ⟨rfl, rfl⟩, ?_⟩
    split
    · simp only [MintMessage.call, dispatch, mint, doMint, deposit, Dispatch.run_bind_ok,
        Dispatch.run_ensure_ok, Dispatch.run_onComponent_ok, Dispatch.run_modify_ok]
      exact ⟨(), s, ⟨trivial, rfl⟩, (), _, ⟨(), _, ⟨l, hl, rfl⟩, rfl⟩, rfl⟩
    · rename_i e he
      rw [he] at hv
      cases hv

/-- **An accepted mint credits its destination and spends its signature.** -/
theorem step_of_accepted {e : Extrinsic A E} {m : MintMessage A} {sig : EcdsaSignature}
    (h : accepted cfg s e = some (m, sig)) :
    sig ∉ s.signatures ∧ (execute cfg e).succeeds s = true ∧ mintOf e = some (m, sig) ∧
      ∃ l, Ledger.deposit cfg.rules () m.who m.amount.toNat s.bridgedToken = .ok l ∧
        step cfg s e = s.minted cfg m sig l := by
  unfold accepted at h
  split at h
  · rename_i who pHash amount nHash sig'
    split at h
    · rename_i hgo
      cases h
      obtain ⟨hv, hfits⟩ := hgo
      cases hl : Ledger.deposit cfg.rules () who amount.toNat s.bridgedToken with
      | error err =>
          rw [hl] at hfits
          cases hfits
      | ok l =>
          have hrun := execute_mint_ok (u := ()).mpr ⟨hv, l, hl, rfl⟩
          exact ⟨notMem_of_validateSigned hv, Dispatch.succeeds_of_ok hrun, rfl, l, rfl,
            Dispatch.commit_of_ok hrun⟩
    · cases h
  · cases h

/-- Only accepted mints credit a message. -/
theorem credited_eq (e : Extrinsic A E) :
    credited cfg s e = (accepted cfg s e).map Prod.fst := by
  cases ha : accepted cfg s e with
  | some p =>
      obtain ⟨m, sig⟩ := p
      obtain ⟨-, hsucc, hmint, -⟩ := step_of_accepted ha
      simp [credited, hsucc, hmint]
  | none =>
      unfold credited
      split
      · rename_i hsucc
        have hrun := Dispatch.run_eq_commit hsucc
        cases e with
        | unsigned call =>
            cases call with
            | mint who pHash amount nHash sig =>
                obtain ⟨hv, l, hl, -⟩ := execute_mint_ok (m := ⟨who, pHash, amount, nHash⟩).mp hrun
                have hgo : Accepts cfg s ⟨who, pHash, amount, nHash⟩ sig := ⟨hv, by rw [hl]; rfl⟩
                simp [accepted, hgo] at ha
            | burn dest amount => rfl
            | rotateKey newKey sig => rfl
        | signed who call =>
            cases call with
            | mint dest pHash amount nHash sig =>
                simp only [execute, dispatch, mint, Dispatch.run_bind_ok,
                  Dispatch.run_ensure_ok] at hrun
                obtain ⟨_, _, ⟨horigin, -⟩, -⟩ := hrun
                cases horigin
            | burn dest amount => rfl
            | rotateKey newKey sig => rfl
        | outside bridgedToken blockNumber external => rfl
      · rfl

/-- A spent signature stays spent, whatever is executed and whether it succeeds. -/
theorem signature_kept (sig : EcdsaSignature) (e : Extrinsic A E) :
    Dispatch.Preserves (fun s : State A E => sig ∈ s.signatures) (execute cfg e) := by
  have hdispatch : ∀ (origin : Origin A) (call : Call A),
      Dispatch.Preserves (fun s : State A E => sig ∈ s.signatures) (dispatch cfg origin call) := by
    intro origin call
    have hinsert : ∀ (s : State A E) (sig' : EcdsaSignature), sig ∈ s.signatures →
        sig ∈ s.signatures.insert sig' () := by
      intro s sig' h
      exact (AList.mem_insert _).mpr (.inr h)
    cases call with
    | mint who pHash amount nHash sig' =>
        refine Dispatch.preserves_bind Dispatch.preserves_ensure fun _ => ?_
        refine Dispatch.preserves_bind (Dispatch.preserves_bind ?_ fun _ => ?_) fun _ => ?_
        · exact Dispatch.preserves_onComponent fun _ _ h => h
        · exact Dispatch.preserves_modify fun s h => hinsert s sig' h
        · exact Dispatch.preserves_modify fun _ h => h
    | burn dest amount =>
        refine Dispatch.preserves_bind Dispatch.preserves_okOr fun _ => ?_
        refine Dispatch.preserves_bind Dispatch.preserves_get fun _ => ?_
        refine Dispatch.preserves_bind Dispatch.preserves_ensure fun _ => ?_
        refine Dispatch.preserves_bind ?_ fun _ => ?_
        · exact Dispatch.preserves_onComponent fun _ _ h => h
        · exact Dispatch.preserves_modify fun _ h => h
    | rotateKey newKey sig' =>
        refine Dispatch.preserves_bind Dispatch.preserves_ensure fun _ => ?_
        exact Dispatch.preserves_modify fun s h => hinsert s sig' h
  cases e with
  | unsigned call =>
      refine Dispatch.preserves_bind Dispatch.preserves_get fun s₀ => ?_
      split
      · exact hdispatch none call
      · exact Dispatch.preserves_throw _
  | signed who call => exact hdispatch (some who) call
  | outside bridgedToken blockNumber external => exact Dispatch.preserves_modify fun _ h => h

/-! ## What a run does -/

variable (cfg)

/-- The blacklist as a replay guard: signatures are the tokens. -/
def blacklist : ReplayGuard (State A E) (Extrinsic A E) (MintMessage A × EcdsaSignature)
    EcdsaSignature where
  step := step cfg
  accepted := accepted cfg
  token := Prod.snd
  Spent s sig := sig ∈ s.signatures
  fresh h := (step_of_accepted h).1
  spends h := by
    obtain ⟨-, -, -, l, -, hstep⟩ := step_of_accepted h
    rw [hstep]
    exact (AList.mem_insert _).mpr (.inl rfl)
  keeps e h := signature_kept _ e _ h

/-- The mints a run accepts, oldest first. -/
def acceptedMints (s : State A E) (run : List (Extrinsic A E)) :
    List (MintMessage A × EcdsaSignature) := (blacklist cfg).history s run

/-- The messages a run credits, oldest first. -/
def creditedMessages : State A E → List (Extrinsic A E) → List (MintMessage A)
  | _, [] => []
  | s, e :: run => (credited cfg s e).toList ++ creditedMessages (step cfg s e) run

theorem creditedMessages_eq (s : State A E) (run : List (Extrinsic A E)) :
    creditedMessages cfg s run = (acceptedMints cfg s run).map Prod.fst := by
  induction run generalizing s with
  | nil => rfl
  | cons e run ih =>
      show (credited cfg s e).toList ++ creditedMessages cfg (step cfg s e) run
        = ((accepted cfg s e).toList ++ acceptedMints cfg (step cfg s e) run).map Prod.fst
      rw [ih, credited_eq, List.map_append]
      cases accepted cfg s e <;> rfl

/-- **RenVM mints once per signature.** In every run from any state, every message is credited at
most once exactly when no two accepted mints of one message carry different signatures. -/
theorem minted_once_iff (s : State A E) (run : List (Extrinsic A E)) :
    (∀ m, (creditedMessages cfg s run).count m ≤ 1) ↔
      ∀ mint ∈ acceptedMints cfg s run, ∀ mint' ∈ acceptedMints cfg s run,
        mint.1 = mint'.1 → mint.2 = mint'.2 := by
  rw [← List.nodup_iff_count_le_one, creditedMessages_eq]
  exact ReplayGuard.identities_nodup_iff (g := blacklist cfg) Prod.fst s run

/-! ## A message and its mirrored signature -/

/-- A message of the bridge's test vectors. -/
def renMessage : MintMessage (Bytes 32) where
  who := 0xd43593c715fdd31c61141abd04a99fd6822c8558854ccde39a5684e7a56da27d
  pHash := 0x67028f26328144de6ef80b8cd3b05e0cefb488762c340d1574c0542f752996cb
  amount := 93963
  nHash := 0xf6a75cc370a2dda6dfc8d016529766bb6099d7fa0d787d9fe5d3a7e60c9ac2a0

def renCurrencyIdentifier : Bytes 32 :=
  0xf6b5b360905f856404bd4cf39021b82209908faa44159e68ea207ab8a5e13197

def renMessageHash : Bytes 32 :=
  0x2673c7fdedd3601d2d1cf3b247e30937e886dd26e50331550b43ac4941a4b5d8

def signature (r s : Bytes 32) (v : Byte) : EcdsaSignature := r ++ s ++ v

/-- The order of the curve's group. -/
def curveOrder : Bytes 32 := 0xfffffffffffffffffffffffffffffffebaaedce6af48a03bbfd25e8cd0364141

def renR : Bytes 32 := 0xdefda6eef01da2e2a90ce30ba73e90d32204ae84cae782b485f01d16b69061e0

def renS : Bytes 32 := 0x381a69cafed3deb6112af044c42ed0f7c73ee0eec7b533334d31a06db50fc40e

/-- The signature RenVM made. -/
def renSignature : EcdsaSignature := signature renR renS 27

/-- Its mirror, with `N - s` for `s` and the other recovery id, which anyone can compute. -/
def renMirroredSignature : EcdsaSignature := signature renR (curveOrder - renS) 28

/-- The curve point both of them recover. -/
def renPoint : Bytes 64 :=
  (0xc6a5f3f18704a72900c698e522e6531911d99a8174dfb99f85ec26753366b690 : Bytes 32) ++
    (0x96400524945811475b4e438d23c91659ef7410a088e92e95632eca651e8c9421 : Bytes 32)

def renPublicKey : PublicKey := 0x4b939fc8ade87cb50b78987b1dda927460dc456a

/-- The hash and the recovery at the values the message needs. -/
def renConfig : Config (Bytes 32) Unit where
  rules := Ledger.Rules.permissive
  currencyIdentifier := renCurrencyIdentifier
  unsignedPriority := 2 ^ 20
  encode := Bytes.toList
  keccak256 message :=
    if message = signableMintMessage renMessage.pHash renMessage.amount renMessage.who.toList
        renMessage.nHash renCurrencyIdentifier then renMessageHash
    else if message = renPoint.toList then
      0xf7edb5390b1397c924e9d8524b939fc8ade87cb50b78987b1dda927460dc456a
    else 0
  secp256k1EcdsaRecover sig hash :=
    if hash = renMessageHash ∧ (sig = renSignature ∨ sig = renMirroredSignature) then some renPoint
    else none
  chargeFee _ e := e

def renState : State (Bytes 32) Unit where
  bridgedToken := Ledger.empty
  renVmPublicKey := some renPublicKey
  signatures := ∅
  burnEvents := ∅
  nextBurnEventId := 0
  blockNumber := 1
  external := ()

/-- An unsigned mint that passes `validateUnsigned` in this state. -/
def ValidMint (cfg : Config A E) (s : State A E) : Extrinsic A E → Prop
  | .unsigned (.mint who pHash amount nHash sig) =>
      (validateUnsigned cfg s (.mint who pHash amount nHash sig)).isOk = true
  | _ => False

/-- **The mirrored signature mints the message again.** -/
theorem mirror_minted_twice :
    ¬ ∀ run : List (Extrinsic (Bytes 32) Unit),
      Machine.StepsMeet (step renConfig) (ValidMint renConfig) renState run →
        ∀ m, (creditedMessages renConfig renState run).count m ≤ 1 := by
  intro h
  have hvalid : Machine.StepsMeet (step renConfig) (ValidMint renConfig) renState
      [.unsigned (renMessage.call renSignature),
        .unsigned (renMessage.call renMirroredSignature)] := by
    refine ⟨?_, ?_, trivial⟩
    · show (validateUnsigned renConfig _ _).isOk = true
      decide +kernel
    · show (validateUnsigned renConfig _ _).isOk = true
      decide +kernel
  have honce := h _ hvalid renMessage
  revert honce
  decide +kernel

end Setheum.RenVm
