import Setheum.Democracy.Maturity

/-!
# Who decides the electorate

Votes are counted in one currency. The tally of a referendum is compared with the issuance of
another one: the currency in which whoever noted the preimage made the deposit.

* `bakeReferendum_decision` — what the decision depends on.
* `electorate_iff` — the decision does not depend on the deposit exactly if the issuances agree.
* `flipped_by_deposit` — the same votes pass or fail, by the currency of the deposit.
-/

set_option autoImplicit false

namespace Setheum.Democracy

open StorageMap

variable {A H : Type} [DecidableEq A] [DecidableEq H] {cfg : Config A H} {rt : Runtime A H}
variable {s s' : State A H}

/-- The states agree on everything but who noted the preimage of a hash, in which currency and
with which deposit. -/
structure AgreeBut (h : H) (p p' : Preimage A) (s s' : State A H) : Prop where
  available : s.availablePreimage h = some p
  available' : s'.availablePreimage h = some p'
  preimage : p' = { p with provider := p'.provider, currency := p'.currency, deposit := p'.deposit }
  preimages : ∀ h', h' ≠ h → s'.preimages.lookup h' = s.preimages.lookup h'
  rest : s' = { s with preimages := s'.preimages }

/-- The decision on a referendum. -/
def Decides (cfg : Config A H) (rt : Runtime A H) (now : ℕ) (status : ReferendumStatus H)
    (s : State A H) (approved : Bool) : Prop :=
  ∃ t, (bakeReferendum cfg rt now status).run s = .ok approved t

/-- **The decision depends on the threshold, the tally and the issuance of the currency of the
deposit.** -/
theorem bakeReferendum_decision {now : ℕ} {status : ReferendumStatus H} {p : Preimage A}
    (hp : s.availablePreimage status.proposalHash = some p) (approved : Bool) :
    Decides cfg rt now status s approved ↔
      approved = cfg.approved status.threshold status.tally (s.tokenIssuance p.currency) := by
  constructor
  · rintro ⟨t, hrun⟩
    obtain ⟨p', hp', happroved, -⟩ := bakeReferendum_ok hrun
    rw [hp] at hp'
    cases hp'
    exact happroved
  · rintro rfl
    cases hrun : (bakeReferendum cfg rt now status).run s with
    | ok approved t =>
        obtain ⟨p', hp', happroved, -⟩ := bakeReferendum_ok hrun
        rw [hp] at hp'
        cases hp'
        exact ⟨t, happroved ▸ hrun⟩
    | error e t =>
        rw [(bakeReferendum_error hrun).1] at hp
        cases hp

/-- **Approval and the deposit.** Between two states that agree on everything but the deposit of
the preimage: the decision is the same and the tally is compared with the issuance of the currency
of the votes exactly if both currencies of the deposit have that issuance; and the decision alone
is the same exactly if the threshold does not tell their issuances apart. -/
theorem electorate_iff (cfg : Config A H) (rt : Runtime A H) (now : ℕ)
    (status : ReferendumStatus H) (p p' : Preimage A)
    (h : AgreeBut status.proposalHash p p' s s') :
    (((∃ approved, Decides cfg rt now status s approved ∧ Decides cfg rt now status s' approved) ∧
        s.electorate p = s.issuance ∧ s'.electorate p' = s'.issuance) ↔
      s.tokenIssuance p.currency = s.issuance ∧ s.tokenIssuance p'.currency = s.issuance) ∧
    ((∃ approved, Decides cfg rt now status s approved ∧ Decides cfg rt now status s' approved) ↔
      cfg.approved status.threshold status.tally (s.tokenIssuance p.currency) =
        cfg.approved status.threshold status.tally (s.tokenIssuance p'.currency)) := by
  have htokens : s'.tokenIssuance = s.tokenIssuance := by rw [h.rest]
  have hissuance : s'.issuance = s.issuance := by rw [h.rest]
  have hsame : (∃ approved, Decides cfg rt now status s approved ∧
      Decides cfg rt now status s' approved) ↔
        cfg.approved status.threshold status.tally (s.tokenIssuance p.currency) =
          cfg.approved status.threshold status.tally (s.tokenIssuance p'.currency) := by
    simp only [bakeReferendum_decision h.available, bakeReferendum_decision h.available',
      htokens, exists_eq_left]
  refine ⟨?_, hsame⟩
  unfold State.electorate
  rw [hsame, htokens, hissuance]
  constructor
  · exact fun h => h.2
  · rintro ⟨hp, hp'⟩
    exact ⟨by rw [hp, hp'], hp, hp'⟩

/-! ## A vote that the deposit decides -/

omit [DecidableEq A] [DecidableEq H] in
theorem State.setTokens_self (s : State A H) (c : CurrencyId) :
    s.setTokens c (s.tokens c) = s := by
  have htokens : (fun c' => if c' = c then s.tokens c else s.tokens c') = s.tokens := by
    funext c'
    split
    · rename_i hc'
      rw [hc']
    · rfl
  unfold State.setTokens
  rw [htokens]

/-- Noting a preimage for nothing changes the preimages only. -/
theorem commit_notePreimage_free (hfree : cfg.preimageByteDeposit = 0) (who : A) {c : CurrencyId}
    (hc : c ∈ cfg.governanceCurrencyIds) {data : List Byte}
    (hfresh : cfg.hashing data ∉ s.preimages) :
    Dispatch.commit (notePreimage cfg who c data) s =
      { s with
        preimages := s.preimages.insert (cfg.hashing data)
          (.available ⟨data, who, c, 0, s.blockNumber, none⟩) } := by
  have hreserve : (reserve cfg c who (data.length * cfg.preimageByteDeposit)).run s = .ok () s := by
    refine Dispatch.run_onComponent_ok.mpr ⟨s.tokens c, ?_, s.setTokens_self c⟩
    rw [hfree, Nat.mul_zero]
    exact if_pos rfl
  refine Dispatch.commit_of_ok (a := ()) ?_
  simp only [notePreimage, Dispatch.run_bind_ok, Dispatch.run_get_ok, Dispatch.run_ensure_ok,
    Dispatch.run_modify_ok]
  refine ⟨s, s, ⟨rfl, rfl⟩, (), s, ⟨hfresh, rfl⟩, (), s, ⟨hc, rfl⟩, (), s, hreserve, ?_⟩
  rw [hfree, Nat.mul_zero]

/-- Two accounts vote on a referendum without a preimage: twenty for it, nine against. -/
def voted : State ℕ ℕ :=
  Machine.run (step sampleConfig sampleRuntime) sampleGenesis
    [.call (.externalPropose 1), .nextBlock, .nextBlock,
      .call (.vote 1 0 (.standard true .locked1x 20)),
      .call (.vote 2 0 (.standard false .locked1x 9)), .nextBlock]

/-- The referendum that they vote on. -/
def votedStatus : ReferendumStatus ℕ := ⟨4, 1, .superMajorityApprove, 2, ⟨20, 9, 29⟩⟩

/-- Then the first one notes the preimage, without a deposit, and names a currency. -/
def noted (c : CurrencyId) : State ℕ ℕ :=
  step sampleConfig sampleRuntime voted (.call (.notePreimage 1 c [0]))

def notedPreimage (c : CurrencyId) : Preimage ℕ := ⟨[0], 1, c, 0, 3, none⟩

theorem noted_eq {c : CurrencyId} (hc : c ∈ sampleConfig.governanceCurrencyIds) :
    noted c = { voted with
      preimages := voted.preimages.insert 1 (.available (notedPreimage c)) } := by
  have hfresh : sampleConfig.hashing [0] ∉ voted.preimages := by decide +kernel
  have hblock : voted.blockNumber = 3 := by decide +kernel
  have hnoted := commit_notePreimage_free rfl 1 hc hfresh
  rw [hblock] at hnoted
  exact hnoted

theorem noted_agreeBut {c c' : CurrencyId} (hc : c ∈ sampleConfig.governanceCurrencyIds)
    (hc' : c' ∈ sampleConfig.governanceCurrencyIds) :
    AgreeBut 1 (notedPreimage c) (notedPreimage c') (noted c) (noted c') := by
  rw [noted_eq hc, noted_eq hc']
  exact
    { available := by simp [State.availablePreimage, PreimageStatus.available?]
      available' := by simp [State.availablePreimage, PreimageStatus.available?]
      preimage := rfl
      preimages := fun h' hne => by simp [AList.lookup_insert_ne hne]
      rest := rfl }

/-- Between two currencies with the same issuance it makes no difference. -/
theorem noted_same : ∃ approved,
    Decides sampleConfig sampleRuntime 4 votedStatus (noted (.Token .SETT)) approved ∧
      Decides sampleConfig sampleRuntime 4 votedStatus (noted (.Token .DRAM)) approved :=
  (electorate_iff sampleConfig sampleRuntime 4 votedStatus (notedPreimage (.Token .SETT))
    (notedPreimage (.Token .DRAM)) (noted_agreeBut (by decide) (by decide))).2.mpr
    (by decide +kernel)

/-- **The currency of the deposit decides the vote.** -/
theorem flipped_by_deposit :
    AgreeBut 1 (notedPreimage (.Token .DNAR)) (notedPreimage (.Token .SETT))
      (noted (.Token .DNAR)) (noted (.Token .SETT)) ∧
    (noted (.Token .DNAR)).referendumInfoOf.lookup 0 = some (.ongoing votedStatus) ∧
    Decides sampleConfig sampleRuntime 4 votedStatus (noted (.Token .DNAR)) true ∧
    Decides sampleConfig sampleRuntime 4 votedStatus (noted (.Token .SETT)) false ∧
    (noted (.Token .SETT)).electorate (notedPreimage (.Token .SETT)) ≠
      (noted (.Token .SETT)).issuance := by
  have hagree : AgreeBut 1 (notedPreimage (.Token .DNAR)) (notedPreimage (.Token .SETT))
      (noted (.Token .DNAR)) (noted (.Token .SETT)) := noted_agreeBut (by decide) (by decide)
  refine ⟨hagree, by decide +kernel, ?_, ?_, by decide +kernel⟩
  · exact (bakeReferendum_decision hagree.available true).mpr (by decide +kernel)
  · exact (bakeReferendum_decision hagree.available' false).mpr (by decide +kernel)

end Setheum.Democracy
