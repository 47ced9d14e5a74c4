import Mathlib.Data.Nat.Size
import Setheum.EvmRpc.Reverts

/-!
# The search for an estimate

The search halves an interval of gas limits and stops when what is used changes by no more than a
tenth. It ends whatever the node answers: a test that runs out of gas halves the interval, and one
that succeeds, if the search goes on, lowers what is used by more than a tenth.

* `Search.progresses` — a pass keeps the bounds in order and lowers the measure.
* `search_comes` — what a search can come to.
* `search_of_threshold` — what it comes to where the use of gas does not depend on the limit.
* `estimateResources_outcome` — what an estimate says.
-/

set_option autoImplicit false

namespace Setheum.EvmRpc

open Checked

/-! ## The operations -/

theorem u256_eq {ε : Type} {n : ℕ} (h : n ≤ 1000000000000) : (u256 n : Checked ε ℕ) = .ok n :=
  if_pos (lt_of_le_of_lt h (by decide))

theorem middle_eq {ε : Type} {lower upper : ℕ} (hl : lower ≤ highestLimit)
    (hu : upper ≤ highestLimit) :
    (middle lower upper : Checked ε ℕ) = .ok ((lower + upper + 1) / 2) := by
  unfold highestLimit at hl hu
  unfold middle
  rw [u256_eq (by omega), ok_bind, u256_eq (by omega), ok_bind]
  rfl

/-! ## A pass -/

section Pass

variable {test : ℕ → ℕ → Checked RpcError (ℕ × ℤ)}

/-- The bounds are in order, `mid` is in the upper half, and what is best is what a test used that
succeeded at the upper bound, if there was one. -/
structure Search.Sound (test : ℕ → ℕ → Checked RpcError (ℕ × ℤ)) (s : Search) : Prop where
  lowest : lowestLimit ≤ s.lower
  lower : s.lower ≤ s.mid
  upper : s.mid ≤ s.upper
  highest : s.upper ≤ highestLimit
  half : 2 * (s.upper - s.mid) ≤ s.upper - s.lower
  best : s.best ≤ highestLimit
  tested : s = .start ∨ ∃ round, test round s.upper = .ok (s.best, s.storage)

theorem Search.start_sound : Search.start.Sound test where
  lowest := le_refl _
  lower := by decide
  upper := le_refl _
  highest := le_refl _
  half := by decide
  best := le_refl _
  tested := .inl rfl

/-- A success changes what is best. -/
theorem Search.pass_success {s : Search} (hs : s.Sound test) {gas : ℕ} {storage : ℤ}
    (h : test s.round s.mid = .ok (gas, storage)) :
    s.pass test =
      if gas ≤ s.best then
        .ok (if thresholdPct < 100 * (s.best - gas) / s.best then
          .again ⟨s.round + 1, s.lower, s.mid, (s.lower + s.mid + 1) / 2, gas, storage⟩
        else .done (gas, storage))
      else panicked := by
  have hmid : s.mid ≤ highestLimit := hs.upper.trans hs.highest
  have hbest := hs.best
  unfold Search.pass subBest
  rw [h]
  dsimp only
  split
  · unfold highestLimit at hbest
    rw [ok_bind, u256_eq (by omega), ok_bind, middle_eq (hs.lower.trans hmid) hmid, ok_bind]
    split <;> rfl
  · rfl

/-- Running out of gas raises the lower bound. -/
theorem Search.pass_outOfGas {s : Search} (hs : s.Sound test) {e : RpcError}
    (h : test s.round s.mid = fail e) (he : e.code = .ServerError 0) :
    s.pass test =
      .ok (if (s.mid + s.upper + 1) / 2 = s.mid then .done (s.best, s.storage)
        else .again ⟨s.round + 1, s.mid, s.upper, (s.mid + s.upper + 1) / 2, s.best, s.storage⟩) := by
  unfold Search.pass
  rw [h]
  dsimp only [fail]
  rw [if_pos he, middle_eq (hs.upper.trans hs.highest) hs.highest, ok_bind]
  split <;> rfl

theorem Search.pass_failure {s : Search} {e : RpcError} (h : test s.round s.mid = fail e)
    (he : e.code ≠ .ServerError 0) : s.pass test = fail e := by
  unfold Search.pass
  rw [h]
  exact if_neg he

/-- Going on after a success takes more than a tenth off what is best. -/
theorem lowered {best gas : ℕ} (hle : gas ≤ best)
    (h : thresholdPct < 100 * (best - gas) / best) : 100 * gas ≤ 89 * best ∧ best ≠ 0 := by
  have hbest : best ≠ 0 := by
    rintro rfl
    rw [Nat.div_zero] at h
    omega
  have hscaled : 11 * best ≤ 100 * (best - gas) :=
    (Nat.le_div_iff_mul_le (Nat.pos_of_ne_zero hbest)).mp h
  exact ⟨by omega, hbest⟩

theorem Search.Sound.again {s t : Search} (hs : s.Sound test) (h : s.pass test = .ok (.again t)) :
    t.Sound test := by
  have hlower := hs.lower
  have hupper := hs.upper
  have hhighest := hs.highest
  have hlowest := hs.lowest
  have hbest := hs.best
  cases hanswer : test s.round s.mid with
  | ok used =>
      obtain ⟨gas, storage⟩ := used
      rw [pass_success hs hanswer] at h
      split at h
      · split at h
        · cases h
          exact ⟨hlowest, by dsimp only; omega, by dsimp only; omega, by dsimp only; omega,
            by dsimp only; omega, by dsimp only; omega, .inr ⟨s.round, hanswer⟩⟩
        · cases h
      · cases h
  | error failure =>
      cases failure with
      | error e =>
          by_cases he : e.code = .ServerError 0
          · rw [pass_outOfGas hs hanswer he] at h
            split at h
            · cases h
            · rename_i hmoved
              cases h
              refine ⟨by dsimp only; omega, by dsimp only; omega, by dsimp only; omega, hhighest,
                by dsimp only; omega, hbest, ?_⟩
              rcases hs.tested with rfl | ⟨round, htested⟩
              · exact absurd (by decide) hmoved
              · exact .inr ⟨round, htested⟩
          · rw [pass_failure hanswer he] at h
            cases h
      | panic =>
          unfold Search.pass at h
          rw [hanswer] at h
          cases h

/-- The digits of the interval, and those of the sixth power of what is best: a tenth off six times
is less than a half. -/
def Search.measure (s : Search) : ℕ := Nat.size (s.best ^ 6) + Nat.size (s.upper - s.lower)

theorem size_lt_of_two_mul_le {m n : ℕ} (hn : n ≠ 0) (h : 2 * m ≤ n) : Nat.size m < Nat.size n := by
  by_cases hm : m = 0
  · subst hm
    rw [Nat.size_zero]
    exact Nat.size_pos.mpr (Nat.pos_of_ne_zero hn)
  · refine Nat.lt_size.mpr ?_
    have hpos : 0 < m.size := Nat.size_pos.mpr (Nat.pos_of_ne_zero hm)
    obtain ⟨k, hk⟩ := Nat.exists_eq_add_of_lt hpos
    rw [Nat.zero_add] at hk
    have hle : 2 ^ k ≤ m := Nat.lt_size.mp (by omega)
    rw [hk, Nat.pow_succ]
    omega

theorem pow_six_lowered {best gas : ℕ} (h : 100 * gas ≤ 89 * best) :
    2 * gas ^ 6 ≤ best ^ 6 := by
  have hpow : (100 * gas) ^ 6 ≤ (89 * best) ^ 6 := Nat.pow_le_pow_left h 6
  rw [Nat.mul_pow, Nat.mul_pow] at hpow
  norm_num at hpow
  omega

theorem Search.measure_lt {s t : Search} (hs : s.Sound test) (h : s.pass test = .ok (.again t)) :
    t.measure < s.measure := by
  have hlower := hs.lower
  have hupper := hs.upper
  have hhalf := hs.half
  unfold measure
  cases hanswer : test s.round s.mid with
  | ok used =>
      obtain ⟨gas, storage⟩ := used
      rw [pass_success hs hanswer] at h
      split at h
      · rename_i hle
        split at h
        · rename_i hchange
          cases h
          obtain ⟨hlowered, hbest⟩ := lowered hle hchange
          have hsize : Nat.size (gas ^ 6) < Nat.size (s.best ^ 6) :=
            size_lt_of_two_mul_le (pow_ne_zero 6 hbest) (pow_six_lowered hlowered)
          have hgap : Nat.size (s.mid - s.lower) ≤ Nat.size (s.upper - s.lower) :=
            Nat.size_le_size (by omega)
          dsimp only
          omega
        · cases h
      · cases h
  | error failure =>
      cases failure with
      | error e =>
          by_cases he : e.code = .ServerError 0
          · rw [pass_outOfGas hs hanswer he] at h
            split at h
            · cases h
            · rename_i hmoved
              cases h
              have hgap : Nat.size (s.upper - s.mid) < Nat.size (s.upper - s.lower) :=
                size_lt_of_two_mul_le (by omega) hhalf
              dsimp only
              omega
          · rw [pass_failure hanswer he] at h
            cases h
      | panic =>
          unfold Search.pass at h
          rw [hanswer] at h
          cases h

/-- **A pass keeps the bounds in order and lowers the measure.** -/
theorem Search.progresses :
    Loop.Progresses (Search.pass test) (Search.Sound test) Search.measure where
  keeps _ _ hs h := hs.again h
  lowers _ _ hs h := measure_lt hs h

theorem Search.start_measure : Search.start.measure < passes := by
  have hbest : Nat.size (highestLimit ^ 6) ≤ 180 := Nat.size_le.mpr (by decide)
  have hgap : Nat.size (highestLimit - lowestLimit) ≤ 30 := Nat.size_le.mpr (by decide)
  unfold measure start passes
  dsimp only
  omega

end Pass

/-! ## The search -/

/-- The gas used rose although the limit did not, or it is more than any limit. -/
def Rises (test : ℕ → ℕ → Checked RpcError (ℕ × ℤ)) : Prop :=
  ∃ round limit gas storage, test round limit = .ok (gas, storage) ∧
    (highestLimit < gas ∨ ∃ round' limit' gas' storage', limit ≤ limit' ∧
      test round' limit' = .ok (gas', storage') ∧ gas' < gas)

/-- What a search can come to. -/
inductive Comes (test : ℕ → ℕ → Checked RpcError (ℕ × ℤ)) : Checked RpcError (ℕ × ℤ) → Prop
  | used (round limit gas : ℕ) (storage : ℤ) (hlow : lowestLimit ≤ limit)
      (hhigh : limit ≤ highestLimit) (h : test round limit = .ok (gas, storage)) :
      Comes test (.ok (gas, storage))
  | neverEnough (e : RpcError) (h : test 0 highestLimit = fail e) (he : e.code = .ServerError 0) :
      Comes test (.ok (highestLimit, 0))
  | fails (round limit : ℕ) (e : RpcError) (h : test round limit = fail e)
      (he : e.code ≠ .ServerError 0) : Comes test (fail e)
  | panics (h : Rises test ∨ ∃ round limit, test round limit = panicked) : Comes test panicked

/-- The last pass of a search. -/
theorem Search.Sound.comes {test : ℕ → ℕ → Checked RpcError (ℕ × ℤ)} {s : Search}
    (hs : s.Sound test) :
    (∀ r, s.pass test = .ok (.done r) → Comes test (.ok r)) ∧
      ∀ failure, s.pass test = .error failure → Comes test (.error failure) := by
  have hlow : lowestLimit ≤ s.mid := hs.lowest.trans hs.lower
  cases hanswer : test s.round s.mid with
  | ok used =>
      obtain ⟨gas, storage⟩ := used
      rw [pass_success hs hanswer]
      split
      · refine ⟨fun r h => ?_, nofun⟩
        split at h
        · cases h
        · cases h
          exact .used s.round s.mid gas storage hlow (hs.upper.trans hs.highest) hanswer
      · rename_i hless
        refine ⟨nofun, fun failure h => ?_⟩
        cases h
        refine .panics (.inl ⟨s.round, s.mid, gas, storage, hanswer, ?_⟩)
        rcases hs.tested with rfl | ⟨round, htested⟩
        · exact .inl (not_le.mp hless)
        · exact .inr ⟨round, s.upper, s.best, s.storage, hs.upper, htested, not_le.mp hless⟩
  | error failure =>
      cases failure with
      | error e =>
          by_cases he : e.code = .ServerError 0
          · rw [pass_outOfGas hs hanswer he]
            refine ⟨fun r h => ?_, nofun⟩
            split at h
            · cases h
              rcases hs.tested with rfl | ⟨round, htested⟩
              · exact .neverEnough e hanswer he
              · exact .used round s.upper s.best s.storage (hlow.trans hs.upper) hs.highest htested
            · cases h
          · rw [pass_failure hanswer he]
            refine ⟨nofun, fun failure h => ?_⟩
            cases h
            exact .fails s.round s.mid e hanswer he
      | panic =>
          have hpass : s.pass test = panicked := by
            unfold Search.pass
            rw [hanswer]
          rw [hpass]
          refine ⟨nofun, fun failure h => ?_⟩
          cases h
          exact .panics (.inr ⟨s.round, s.mid, hanswer⟩)

/-- **What a search can come to**; it ends whatever the node answers. -/
theorem search_comes (test : ℕ → ℕ → Checked RpcError (ℕ × ℤ)) : Comes test (search test) := by
  obtain ⟨s, -, hs, ⟨r, hpass, hrun⟩ | ⟨failure, hpass, hrun⟩⟩ :=
    Loop.run_outcome .panic Search.progresses Search.start_sound Search.start_measure
  · rw [search, hrun]
    exact hs.comes.1 r hpass
  · rw [search, hrun]
    exact hs.comes.2 failure hpass

/-- **Where a request uses the same gas under every limit that is enough for it, and any limit up to
the highest is, the estimate is what it uses.** -/
theorem search_of_threshold {enough gas : ℕ} {storage : ℤ} {e : RpcError}
    (henough : enough ≤ highestLimit) (hgas : gas ≤ highestLimit) (he : e.code = .ServerError 0) :
    search (fun _ limit => if enough ≤ limit then .ok (gas, storage) else fail e)
      = .ok (gas, storage) := by
  generalize htest : (fun _ limit => if enough ≤ limit then .ok (gas, storage) else fail e :
    ℕ → ℕ → Checked RpcError (ℕ × ℤ)) = test
  have hok : ∀ round limit used, test round limit = .ok used → used = (gas, storage) := by
    intro round limit used h
    rw [← htest] at h
    dsimp only at h
    split at h
    · exact (Except.ok.inj h).symm
    · cases h
  have hfirst : test 0 highestLimit = .ok (gas, storage) := by
    rw [← htest]
    exact if_pos henough
  have hfail : ∀ round limit e', test round limit = fail e' → e' = e := by
    intro round limit e' h
    rw [← htest] at h
    dsimp only at h
    split at h
    · cases h
    · cases h
      rfl
  have hcomes := search_comes test
  generalize search test = r at hcomes
  cases hcomes with
  | used round limit gas' storage' _ _ h => exact congrArg _ (hok round limit _ h)
  | neverEnough e' h _ =>
      rw [hfirst] at h
      cases h
  | fails round limit e' h he' => exact absurd (hfail round limit e' h ▸ he) he'
  | panics h =>
      obtain ⟨round, limit, gas', storage', h, hmore⟩ | ⟨round, limit, h⟩ := h
      · obtain ⟨rfl, -⟩ := Prod.mk.inj (hok round limit _ h)
        obtain hhigh | ⟨round', limit', gas', storage'', -, h', hless⟩ := hmore
        · omega
        · obtain ⟨rfl, -⟩ := Prod.mk.inj (hok round' limit' _ h')
          omega
      · rw [← htest] at h
        dsimp only at h
        split at h <;> cases h

/-- The estimate is what is used, here less than the limit that it takes. -/
theorem search_of_threshold_sample :
    search (fun _ limit => if 50000 ≤ limit then .ok (40000, 7)
      else fail ⟨.ServerError 0, "out of gas", none⟩) = .ok (40000, 7) :=
  search_of_threshold (by decide) (by decide) rfl

/-! ## The request -/

section Requests

variable {Hash Extrinsic : Type} (b : Build) (node : Node Hash Extrinsic)

/-- No answer of a runtime makes a test panic. -/
theorem calculateGasUsed_ne_panicked {b : Build} {node : Node Hash Extrinsic}
    (houtput : ∀ hash x info, node.execute hash x = .ok (.ok info) → info.output.length < b.usize)
    (hash : Hash) (request : CallRequest) : calculateGasUsed b node hash request ≠ panicked := by
  have hanswered : ∀ x, (answered (node.execute hash x) = panicked → False) ∧
      ∀ info, answered (node.execute hash x) = .ok info → info.output.length < b.usize := by
    intro x
    cases hx : node.execute hash x with
    | error err => exact ⟨nofun, nofun⟩
    | ok answer =>
        cases answer with
        | error err => exact ⟨nofun, nofun⟩
        | ok info =>
            refine ⟨nofun, fun info' h => ?_⟩
            cases h
            exact houtput hash x info hx
  intro hpanic
  unfold calculateGasUsed execute at hpanic
  cases hvalue : balanceValue node request.value with
  | error failure =>
      rw [hvalue] at hpanic
      cases hpanic
      unfold balanceValue at hvalue
      split at hvalue
      · cases hvalue
      · unfold okOr at hvalue
        cases hbalance : (toU128 _).bind node.tryIntoBalance with
        | none =>
            rw [hbalance] at hvalue
            cases hvalue
        | some n =>
            rw [hbalance] at hvalue
            cases hvalue
  | ok value =>
      rw [hvalue, ok_bind] at hpanic
      generalize hx : answered (node.execute hash _) = answer at hpanic
      cases answer with
      | error failure =>
          cases hpanic
          exact (hanswered _).1 hx
      | ok info =>
          have hlength := (hanswered _).2 info hx
          rw [ok_bind] at hpanic
          have hshown : (if request.target.isSome then info.output else []).length < b.usize := by
            split
            · exact hlength
            · exact b.usize_pos
          rcases errorOnExecutionFailure_outcome info.exitReason hshown with
            ⟨hok, -⟩ | ⟨e, he, -⟩
          · rw [hok] at hpanic
            cases hpanic
          · rw [he] at hpanic
            cases hpanic

/-- What an estimate by a search says. -/
def EstimateOutcome (hash : Hash) (sender : EvmAddress) (unsignedExtrinsic : List UInt8) :
    Checked RpcError EstimateResourcesResponse → Prop
  | .ok response => ∃ request,
      node.getEstimateResourcesRequest hash unsignedExtrinsic = .ok (.ok request) ∧
      Comes (testLimit b node (.ofEstimate sender request))
        (.ok (response.gas, response.storage)) ∧
      ∃ uxt fee, node.decodeExtrinsic unsignedExtrinsic = .ok uxt ∧
        node.queryFeeDetails hash uxt (unsignedExtrinsic.length % 2 ^ 32) = .ok fee ∧
        response.weightFee = fee.getD 0
  | .error (.error e) => e.code = .ServerError 0 → node.checkIfSafe = .error e
  | .error .panic => ∃ request,
      node.getEstimateResourcesRequest hash unsignedExtrinsic = .ok (.ok request) ∧
      Rises (testLimit b node (.ofEstimate sender request))

variable {b node}

theorem answered_cases {α : Type} (answer : Except String (Except String α)) :
    (∃ a, answer = .ok (.ok a) ∧ answered answer = .ok a) ∨
      ∃ e, e.code ≠ .ServerError 0 ∧ answered answer = fail e := by
  cases answer with
  | error err =>
      refine .inr ⟨_, ?_, rfl⟩
      exact nofun
  | ok answer =>
      cases answer with
      | error err =>
          refine .inr ⟨_, ?_, rfl⟩
          exact nofun
      | ok a => exact .inl ⟨a, rfl, rfl⟩

theorem orErr_cases {α : Type} (message : String) (answer : Except String α) :
    (∃ a, answer = .ok a ∧ orErr message answer = .ok a) ∨
      ∃ e, e.code ≠ .ServerError 0 ∧ orErr message answer = fail e := by
  cases answer with
  | error err =>
      refine .inr ⟨_, ?_, rfl⟩
      exact nofun
  | ok a => exact .inl ⟨a, rfl, rfl⟩

/-- **What an estimate says.** It is what a test used that succeeded, with a limit between the two
bounds, or the highest limit where that was not enough; running out of gas is never reported to the
caller; and the RPC panics only if a test used more gas than a test with a higher limit. -/
theorem estimateResources_outcome
    (houtput : ∀ hash x info, node.execute hash x = .ok (.ok info) → info.output.length < b.usize)
    (sender : EvmAddress) (unsignedExtrinsic : List UInt8) (at' : Option Hash) :
    EstimateOutcome b node (at'.getD (node.bestHash 0)) sender unsignedExtrinsic
      (estimateResources b node true sender unsignedExtrinsic at') := by
  unfold estimateResources
  cases hsafe : node.checkIfSafe with
  | error e => exact fun _ => hsafe
  | ok u =>
      rw [lift, ok_bind]
      dsimp only
      generalize at'.getD (node.bestHash 0) = hash
      rcases answered_cases (node.getEstimateResourcesRequest hash unsignedExtrinsic) with
        ⟨request, hrequest, hanswer⟩ | ⟨e, he, hanswer⟩
      · rw [hanswer, ok_bind, if_pos rfl]
        have hcomes := search_comes (testLimit b node (.ofEstimate sender request))
        cases hsearch : search (testLimit b node (.ofEstimate sender request)) with
        | ok used =>
            rw [hsearch] at hcomes
            rw [ok_bind]
            rcases orErr_cases "Unable to dry run extrinsic."
              (node.decodeExtrinsic unsignedExtrinsic) with ⟨uxt, huxt, hor⟩ | ⟨e, he, hor⟩
            · rw [hor, ok_bind]
              rcases orErr_cases "Unable to query fee details."
                (node.queryFeeDetails hash uxt (unsignedExtrinsic.length % 2 ^ 32)) with
                ⟨fee, hfee, hor'⟩ | ⟨e, he, hor'⟩
              · rw [hor', ok_bind]
                exact ⟨request, hrequest, hcomes, uxt, fee, huxt, hfee, rfl⟩
              · rw [hor']
                exact fun h => absurd h he
            · rw [hor]
              exact fun h => absurd h he
        | error failure =>
            rw [hsearch] at hcomes
            cases hcomes with
            | fails round limit e h he => exact fun h' => absurd h' he
            | panics h =>
                obtain hrises | ⟨round, limit, hpanic⟩ := h
                · exact ⟨request, hrequest, hrises⟩
                · exact absurd hpanic (calculateGasUsed_ne_panicked houtput _ _)
      · rw [hanswer]
        exact fun h => absurd h he

end Requests

/-- A node whose runtime uses the same for all requests. -/
def sampleNode : Node Unit Unit where
  checkIfSafe := .ok ()
  bestHash _ := ()
  execute _ _ := .ok (.ok ⟨.Succeed, [], 30000, 5⟩)
  getEstimateResourcesRequest _ _ := .ok (.ok ⟨none, none, none, none, none⟩)
  decodeExtrinsic _ := .ok ()
  queryFeeDetails _ _ _ := .ok (some 12)
  tryIntoBalance n := some n
  debugNumber _ := "0"

theorem estimateResources_outcome_sample :
    EstimateOutcome ⟨64, by decide, true⟩ sampleNode () 1 []
      (estimateResources ⟨64, by decide, true⟩ sampleNode true 1 [] none) :=
  estimateResources_outcome (fun _ _ _ h => by cases h; exact Build.usize_pos _) 1 [] none

end Setheum.EvmRpc
