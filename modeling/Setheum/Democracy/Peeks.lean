import Setheum.Democracy.Referenda
import Setheum.Primitives.Encoding

/-!
# Democracy: the start of a stored value

Three functions of the pallet do not decode the value they ask about. They have the host copy the
first bytes of its encoding into a buffer, and decode a length or the index of a variant there. How
the runtime encodes accounts, balances and block numbers is a parameter, and so is the host.

* `State.lenOfDepositOf_eq` — five bytes tell how many depositors there are.
* `State.checkPreImageIsMissing_eq` — one byte tells whether the preimage is there.
* `State.preImageDataLen_eq` — six bytes tell how long it is.
* `Peeking.second_run` — a call that peeks does what it does on the values themselves.
-/

set_option autoImplicit false

namespace Setheum.Democracy

open Scale StorageMap

variable {A H : Type} [DecidableEq H]

/-! ## Encodings -/

/-- The encodings of the types that the runtime chooses. -/
structure Codecs (A : Type) where
  accountId : Codec A
  balance : Codec ℕ
  blockNumber : Codec ℕ

namespace Codecs

variable (codecs : Codecs A)

/-- The depositors, the currency and the amount. -/
def deposit : Codec (Deposit A) :=
  (codecs.accountId.vec.prod (CurrencyId.codec.prod codecs.balance)).map
    (fun d => codecs.accountId.vec.Valid d.depositors ∧ codecs.balance.Valid d.amount)
    (fun d => ⟨d.1, d.2.1, d.2.2⟩)
    (fun d => (d.depositors, d.currency, d.amount))
    (fun ⟨hdepositors, hamount⟩ => ⟨⟨hdepositors, trivial, hamount⟩, rfl⟩)

/-- The fields of an available preimage, in their order. -/
def preimage : Codec (Preimage A) :=
  ((Codec.word 1).vec.prod (codecs.accountId.prod (CurrencyId.codec.prod (codecs.balance.prod
      (codecs.blockNumber.prod codecs.blockNumber.option))))).map
    (fun p => p.data.length < 2 ^ 32 ∧ codecs.accountId.Valid p.provider ∧
      codecs.balance.Valid p.deposit ∧ codecs.blockNumber.Valid p.since ∧
      ∀ n ∈ p.expiry, codecs.blockNumber.Valid n)
    (fun p => ⟨p.1, p.2.1, p.2.2.1, p.2.2.2.1, p.2.2.2.2.1, p.2.2.2.2.2⟩)
    (fun p => (p.data, p.provider, p.currency, p.deposit, p.since, p.expiry))
    (fun ⟨hdata, hprovider, hdeposit, hsince, hexpiry⟩ =>
      ⟨⟨⟨hdata, fun _ _ => trivial⟩, hprovider, trivial, hdeposit, hsince, hexpiry⟩, rfl⟩)

/-- Read the fields of a variant. -/
def readStatus (i : UInt8) (bs : List UInt8) : Option (PreimageStatus A × List UInt8) :=
  match i with
  | 0 => codecs.blockNumber.decodeAs .missing bs
  | 1 => codecs.preimage.decodeAs .available bs
  | _ => none

def preimageStatus : Codec (PreimageStatus A) :=
  .enum
    (fun
      | .missing expiry => codecs.blockNumber.Valid expiry
      | .available preimage => codecs.preimage.Valid preimage)
    (fun
      | .missing _ => 0
      | .available _ => 1)
    (fun
      | .missing expiry => codecs.blockNumber.encode expiry
      | .available preimage => codecs.preimage.encode preimage)
    codecs.readStatus
    (by
      intro status hstatus rest
      cases status with
      | missing expiry => exact codecs.blockNumber.decodeAs_encode _ hstatus rest
      | available preimage => exact codecs.preimage.decodeAs_encode _ hstatus rest)

end Codecs

/-! ## Storage -/

/-- The key of an entry of the two storages. -/
inductive StorageKey (H : Type)
  | depositOf (proposal : ℕ)
  | preimages (proposalHash : H)

/-- The host's `storage::read` of a value: it returns how many bytes the value has, and the buffer
with as many of them as it takes copied over its front. -/
structure StorageRead where
  read : List UInt8 → List UInt8 → ℕ × List UInt8
  fst_read : ∀ value buf, (read value buf).1 = value.length
  length_read : ∀ value buf, (read value buf).2.length = buf.length
  take_read : ∀ value buf, (read value buf).2.take value.length = value.take buf.length

namespace State

variable (codecs : Codecs A) (storage : StorageRead) (s : State A H)

/-- The bytes under a key. -/
def raw : StorageKey H → Option (List UInt8)
  | .depositOf proposal => (s.depositOf.lookup proposal).map codecs.deposit.encode
  | .preimages proposalHash =>
      (s.preimages.lookup proposalHash).map codecs.preimageStatus.encode

/-- The record of a deposit, decoded as a whole. -/
def getDepositOf (proposal : ℕ) : Option (Deposit A) :=
  codecs.deposit.decodeEntry (s.raw codecs (.depositOf proposal))

/-- The status of a preimage, decoded as a whole. -/
def getPreimage (proposalHash : H) : Option (PreimageStatus A) :=
  codecs.preimageStatus.decodeEntry (s.raw codecs (.preimages proposalHash))

/-- What a buffer takes of the value under a key. -/
def readInput (key : StorageKey H) (buf : List UInt8) : Option (List UInt8) := do
  let value ← s.raw codecs key
  let (bytes, buf) := storage.read value buf
  -- the value may be smaller than the buffer
  some (buf.take (min buf.length bytes))

/-- Decode `Compact<u32>` from the trie at given key. -/
def decodeCompactU32At (key : StorageKey H) : Option ℕ := do
  let input ← s.readInput codecs storage key (List.replicate 5 0)
  (readCompact input).map Prod.fst

/-- Reads the length of account in `DepositOf` without getting the complete value. -/
def lenOfDepositOf (proposal : ℕ) : Option ℕ :=
  s.decodeCompactU32At codecs storage (.depositOf proposal)

/-- Check that the preimage exists and its value is `Missing`. -/
def checkPreImageIsMissing (proposalHash : H) : Except Error Unit :=
  match s.readInput codecs storage (.preimages proposalHash) (List.replicate 1 0) with
  | none => .error .NotImminent
  | some (0 :: _) => .ok ()
  | some (1 :: _) => .error .DuplicatePreimage
  -- failed to decode the variant
  | some _ => .error .NotImminent

/-- Check that the preimage exists, its value is `Available`, and decode the length of `data`. -/
def preImageDataLen (proposalHash : H) : Except Error ℕ :=
  match s.readInput codecs storage (.preimages proposalHash) (List.replicate 6 0) with
  | none => .error .PreimageMissing
  | some (1 :: input) =>
      match readCompact input with
      | some (len, _) => .ok len
      | none => .error .PreimageMissing
  | some (0 :: _) => .error .PreimageMissing
  | some _ => .error .PreimageMissing

/-- Every entry is a value that has an encoding: a vector of `2 ^ 32` elements has none. -/
structure Storable : Prop where
  depositOf : ∀ {proposal : ℕ} {deposit : Deposit A}, s.depositOf.lookup proposal = some deposit →
    codecs.deposit.Valid deposit
  preimages : ∀ {proposalHash : H} {status : PreimageStatus A},
    s.preimages.lookup proposalHash = some status → codecs.preimageStatus.Valid status

variable {codecs s}

/-! ## Decoding as a whole -/

theorem getDepositOf_eq (hs : s.Storable codecs) (proposal : ℕ) :
    s.getDepositOf codecs proposal = s.depositOf.lookup proposal :=
  codecs.deposit.decodeEntry_encode fun _ hdeposit => hs.depositOf hdeposit

theorem getPreimage_eq (hs : s.Storable codecs) (proposalHash : H) :
    s.getPreimage codecs proposalHash = s.preimages.lookup proposalHash :=
  codecs.preimageStatus.decodeEntry_encode fun _ hstatus => hs.preimages hstatus

/-! ## Decoding the start -/

/-- The buffer takes as many bytes as it is long. -/
theorem readInput_eq (key : StorageKey H) (buf : List UInt8) :
    s.readInput codecs storage key buf
      = (s.raw codecs key).map fun value => value.take buf.length := by
  rw [readInput]
  cases s.raw codecs key with
  | none => rfl
  | some value =>
      have htake : (storage.read value buf).2.take (min buf.length value.length)
          = value.take buf.length := by
        rw [← List.take_take, storage.take_read, List.take_take, Nat.min_self]
      change some ((storage.read value buf).2.take
        (min (storage.read value buf).2.length (storage.read value buf).1))
          = some (value.take buf.length)
      rw [storage.length_read, storage.fst_read, htake]

theorem lenOfDepositOf_eq (hs : s.Storable codecs) (proposal : ℕ) :
    s.lenOfDepositOf codecs storage proposal
      = (s.depositOf.lookup proposal).map fun deposit => deposit.depositors.length := by
  rw [lenOfDepositOf, decodeCompactU32At, readInput_eq, raw]
  cases hlookup : s.depositOf.lookup proposal with
  | none => rfl
  | some deposit =>
      have hvalid : codecs.accountId.vec.Valid deposit.depositors := (hs.depositOf hlookup).1
      -- the depositors are the first field
      exact readCompact_take_vec codecs.accountId hvalid.1
        ((CurrencyId.codec.prod codecs.balance).encode (deposit.currency, deposit.amount))
        (Nat.le_refl 5)

theorem checkPreImageIsMissing_eq (proposalHash : H) :
    s.checkPreImageIsMissing codecs storage proposalHash
      = match s.preimages.lookup proposalHash with
        | none => .error .NotImminent
        | some (.missing _) => .ok ()
        | some (.available _) => .error .DuplicatePreimage := by
  rw [checkPreImageIsMissing, readInput_eq, raw]
  cases s.preimages.lookup proposalHash with
  | none => rfl
  | some status => cases status <;> rfl

theorem preImageDataLen_eq (hs : s.Storable codecs) (proposalHash : H) :
    s.preImageDataLen codecs storage proposalHash
      = match s.preimages.lookup proposalHash with
        | some (.available preimage) => .ok preimage.data.length
        | _ => .error .PreimageMissing := by
  rw [preImageDataLen, readInput_eq, raw]
  cases hlookup : s.preimages.lookup proposalHash with
  | none => rfl
  | some status =>
      cases status with
      | missing expiry => rfl
      | available p =>
          have hvalid : codecs.preimage.Valid p := hs.preimages hlookup
          -- behind the index of the variant the data are the first field
          have hread := readCompact_take_vec (Codec.word 1) hvalid.1
            ((codecs.accountId.prod (CurrencyId.codec.prod (codecs.balance.prod
              (codecs.blockNumber.prod codecs.blockNumber.option)))).encode
                (p.provider, p.currency, p.deposit, p.since, p.expiry))
            (Nat.le_refl 5)
          obtain ⟨⟨len, rest⟩, hcompact, hlen⟩ := Option.map_eq_some_iff.mp hread
          have hencode : (codecs.preimageStatus.encode (.available p)).take 6
              = 1 :: (codecs.preimage.encode p).take 5 := rfl
          have hdata : readCompact ((codecs.preimage.encode p).take 5) = some (len, rest) :=
            hcompact
          simp only [Option.map_some, List.length_replicate, hencode, hdata]
          exact congrArg Except.ok hlen

end State

/-- **Peeking agrees with decoding.** An entry that was stored decodes to the value stored, and
the functions that read only the start of its bytes answer as its whole value says. -/
theorem peeks_agree (codecs : Codecs A) (storage : StorageRead) {s : State A H}
    (hs : s.Storable codecs) :
    (∀ proposal,
      s.getDepositOf codecs proposal = s.depositOf.lookup proposal ∧
      s.lenOfDepositOf codecs storage proposal
        = (s.getDepositOf codecs proposal).map fun deposit => deposit.depositors.length) ∧
    ∀ proposalHash,
      s.getPreimage codecs proposalHash = s.preimages.lookup proposalHash ∧
      s.checkPreImageIsMissing codecs storage proposalHash
        = (match s.getPreimage codecs proposalHash with
          | none => .error .NotImminent
          | some (.missing _) => .ok ()
          | some (.available _) => .error .DuplicatePreimage) ∧
      s.preImageDataLen codecs storage proposalHash
        = match s.getPreimage codecs proposalHash with
          | some (.available preimage) => .ok preimage.data.length
          | _ => .error .PreimageMissing := by
  refine ⟨fun proposal => ⟨State.getDepositOf_eq hs proposal, ?_⟩,
    fun proposalHash => ⟨State.getPreimage_eq hs proposalHash, ?_, ?_⟩⟩
  · rw [State.getDepositOf_eq hs, State.lenOfDepositOf_eq storage hs]
  · rw [State.getPreimage_eq hs, State.checkPreImageIsMissing_eq]
  · rw [State.getPreimage_eq hs, State.preImageDataLen_eq storage hs]

/-! ## The calls that peek -/

namespace Peeking

section Calls

variable [DecidableEq A] (cfg : Config A H) (codecs : Codecs A) (storage : StorageRead)

/-- Signals agreement with a particular proposal. -/
def second (who : A) (proposal : ℕ) (currencyId : CurrencyId) (secondsUpperBound : ℕ) :
    DemocracyM A H Unit := do
  Dispatch.ensure (currencyId ∈ cfg.governanceCurrencyIds) .InvalidCurrencyType
  let s ← get
  let seconds ← Dispatch.okOr (s.lenOfDepositOf codecs storage proposal) .ProposalMissing
  Dispatch.ensure (seconds ≤ secondsUpperBound) .WrongUpperBound
  let deposit ← Dispatch.okOr (s.getDepositOf codecs proposal) .ProposalMissing
  reserve cfg currencyId who deposit.amount
  modify fun s =>
    { s with
      depositOf := s.depositOf.insert proposal
        ⟨deposit.depositors ++ [who], currencyId, deposit.amount⟩ }

omit [DecidableEq A] in
/-- Register the preimage for a proposal in the dispatch queue; no deposit is needed. -/
def noteImminentPreimage (who : A) (currencyId : CurrencyId) (encodedProposal : List Byte) :
    DemocracyM A H Unit := do
  let proposalHash := cfg.hashing encodedProposal
  let s ← get
  Dispatch.ofExcept (s.checkPreImageIsMissing codecs storage proposalHash)
  Dispatch.ensure (currencyId ∈ cfg.governanceCurrencyIds) .InvalidCurrencyType
  let status ← Dispatch.okOr (s.getPreimage codecs proposalHash) .NotImminent
  let expiry ← Dispatch.okOr status.toMissingExpiry .DuplicatePreimage
  set { s with
    preimages := s.preimages.insert proposalHash
      (.available ⟨encodedProposal, who, currencyId, 0, s.blockNumber, some expiry⟩) }

/-- Remove an expired proposal preimage and collect the deposit. -/
def reapPreimage (who : A) (proposalHash : H) (proposalLenUpperBound : ℕ) :
    DemocracyM A H Unit := do
  let s ← get
  let len ← Dispatch.ofExcept (s.preImageDataLen codecs storage proposalHash)
  Dispatch.ensure (len ≤ proposalLenUpperBound) .WrongUpperBound
  let preimage ← Dispatch.okOr
    ((s.getPreimage codecs proposalHash).bind PreimageStatus.available?) .PreimageMissing
  let additional := if who = preimage.provider then 0 else cfg.enactmentPeriod
  Dispatch.ensure (preimage.since + cfg.votingPeriod + additional ≤ s.blockNumber) .TooEarly
  Dispatch.ensure (preimage.expiry.all (· < s.blockNumber) = true) .Imminent
  let repatriated := Reserves.repatriateFree cfg.rules preimage.provider who preimage.deposit
    (s.tokens preimage.currency)
  -- the outcome is dropped
  set { s.setTokens preimage.currency (repatriated.toOption.getD (s.tokens preimage.currency)) with
    preimages := s.preimages.erase proposalHash }

variable {codecs} {s : State A H} (hs : s.Storable codecs)

include hs

/-- With the reads of the bytes in them the calls do what they do on the values. -/
theorem second_run (who : A) (proposal : ℕ) (currencyId : CurrencyId) (secondsUpperBound : ℕ) :
    (second cfg codecs storage who proposal currencyId secondsUpperBound).run s
      = (Democracy.second cfg who proposal currencyId secondsUpperBound).run s := by
  unfold second Democracy.second
  by_cases hc : currencyId ∈ cfg.governanceCurrencyIds
  · simp only [Dispatch.ensure, if_pos hc, pure_bind, Dispatch.run_get_bind,
      State.lenOfDepositOf_eq storage hs, State.getDepositOf_eq hs]
    cases s.depositOf.lookup proposal with
    | none => rfl
    | some deposit => rfl
  · simp only [Dispatch.ensure, if_neg hc]
    rfl

omit [DecidableEq A] in
theorem noteImminentPreimage_run (who : A) (currencyId : CurrencyId)
    (encodedProposal : List Byte) :
    (noteImminentPreimage cfg codecs storage who currencyId encodedProposal).run s
      = (Democracy.noteImminentPreimage cfg who currencyId encodedProposal).run s := by
  unfold noteImminentPreimage Democracy.noteImminentPreimage
  simp only [Dispatch.run_get_bind, State.checkPreImageIsMissing_eq storage,
    State.getPreimage_eq hs]
  cases s.preimages.lookup (cfg.hashing encodedProposal) with
  | none => rfl
  | some status =>
      cases status with
      | missing expiry => rfl
      | available preimage => rfl

theorem reapPreimage_run (who : A) (proposalHash : H) (proposalLenUpperBound : ℕ) :
    (reapPreimage cfg codecs storage who proposalHash proposalLenUpperBound).run s
      = (Democracy.reapPreimage cfg who proposalHash proposalLenUpperBound).run s := by
  unfold reapPreimage Democracy.reapPreimage State.availablePreimage
  simp only [Dispatch.run_get_bind, State.preImageDataLen_eq storage hs, State.getPreimage_eq hs]
  cases s.preimages.lookup proposalHash with
  | none => rfl
  | some status =>
      cases status with
      | missing expiry => rfl
      | available preimage => rfl

end Calls

end Peeking

/-! ## Storages with entries of every kind -/

/-- A host that copies what fits. -/
def copying : StorageRead where
  read value buf := (value.length, value.take buf.length ++ buf.drop value.length)
  fst_read _ _ := rfl
  length_read value buf := by
    rw [List.length_append, List.length_take, List.length_drop]
    omega
  take_read value buf := by
    rcases Nat.le_total value.length buf.length with hfits | hlonger
    · rw [List.take_of_length_le hfits, List.take_left]
    · rw [List.drop_of_length_le hlonger, List.append_nil, List.take_take, Nat.min_eq_right hlonger]

/-- Account identifiers of 8 bytes, and the balances and block numbers of the runtime. -/
def sampleCodecs : Codecs ℕ where
  accountId := .uint 8
  balance := .uint 16
  blockNumber := .uint 4

/-- A proposal with 100 depositors, a preimage that is missing and one of 70 bytes. -/
def peekedState : State ℕ ℕ :=
  { sampleGenesis with
    depositOf := (∅ : Map ℕ (Deposit ℕ)).insert 0 ⟨List.range 100, .Token .SETT, 10⟩
    preimages := ((∅ : Map ℕ (PreimageStatus ℕ)).insert 0 (.missing 7)).insert 1
      (.available ⟨List.replicate 70 0, 3, .Erc20 5, 700, 2, some 9⟩) }

theorem peekedState_storable : peekedState.Storable sampleCodecs where
  depositOf := by
    intro proposal deposit hlookup
    by_cases hproposal : proposal = 0
    · subst hproposal
      have hdeposit : peekedState.depositOf.lookup 0
          = some ⟨List.range 100, .Token .SETT, 10⟩ := rfl
      cases hdeposit.symm.trans hlookup
      have hdepositors : ∀ a ∈ List.range 100, a < 256 ^ 8 := by decide
      have hamount : 10 < 256 ^ 16 := by decide
      exact ⟨⟨by decide, hdepositors⟩, hamount⟩
    · have hnone : peekedState.depositOf.lookup proposal = none :=
        AList.lookup_insert_ne hproposal
      cases hnone.symm.trans hlookup
  preimages := by
    intro proposalHash status hlookup
    by_cases havailable : proposalHash = 1
    · subst havailable
      have hstatus : peekedState.preimages.lookup 1
          = some (.available ⟨List.replicate 70 0, 3, .Erc20 5, 700, 2, some 9⟩) := rfl
      cases hstatus.symm.trans hlookup
      have hprovider : 3 < 256 ^ 8 := by decide
      have hdeposit : 700 < 256 ^ 16 := by decide
      have hsince : 2 < 256 ^ 4 := by decide
      have hexpiry : 9 < 256 ^ 4 := by decide
      exact ⟨by decide, hprovider, hdeposit, hsince, fun n hn => by cases hn; exact hexpiry⟩
    · by_cases hmissing : proposalHash = 0
      · subst hmissing
        have hstatus : peekedState.preimages.lookup 0 = some (.missing 7) := rfl
        cases hstatus.symm.trans hlookup
        have hexpiry : 7 < 256 ^ 4 := by decide
        exact hexpiry
      · have hnone : peekedState.preimages.lookup proposalHash = none :=
          (AList.lookup_insert_ne havailable).trans (AList.lookup_insert_ne hmissing)
        cases hnone.symm.trans hlookup

/-- The lengths are read from two bytes, and the missing preimage has fewer bytes than the
buffer. -/
theorem peeks_agree_peekedState :
    peekedState.lenOfDepositOf sampleCodecs copying 0 = some 100 ∧
      peekedState.checkPreImageIsMissing sampleCodecs copying 0 = .ok () ∧
      peekedState.preImageDataLen sampleCodecs copying 0 = .error .PreimageMissing ∧
      peekedState.preImageDataLen sampleCodecs copying 1 = .ok 70 := by
  obtain ⟨hdeposits, hpreimages⟩ := peeks_agree sampleCodecs copying peekedState_storable
  obtain ⟨hdeposit, hseconds⟩ := hdeposits 0
  obtain ⟨hmissing, hcheck, hnoLength⟩ := hpreimages 0
  obtain ⟨havailable, -, hlength⟩ := hpreimages 1
  rw [hdeposit] at hseconds
  rw [hmissing] at hcheck hnoLength
  rw [havailable] at hlength
  exact ⟨hseconds, hcheck, hnoLength, hlength⟩

end Setheum.Democracy
