import Setheum.Democracy.Calls
import Setheum.Lib.Run

/-!
# Referenda: launch, maturity and enactment

At the start of a block the next referendum is launched, if it is time, and the referenda that end
at the block are baked one after the other. The preimage of a referendum is looked up before it is
decided, and its deposit's currency gives the electorate. An error ends the loop.
-/

set_option autoImplicit false

namespace Setheum.Democracy

open StorageMap

/-- The last of the elements with the greatest key, with its position. -/
def maxByKey {α : Type} (key : α → ℕ) (l : List α) : Option (ℕ × α) :=
  l.zipIdx.foldl
    (fun best e =>
      match best with
      | some (i, x) => if key x ≤ key e.1 then some (e.2, e.1) else some (i, x)
      | none => some (e.2, e.1))
    none

/-- Remove an element and put the last one in its place. -/
def swapRemove {α : Type} (l : List α) (i : ℕ) : List α :=
  match l.getLast? with
  | some last => (l.set i last).dropLast
  | none => []

theorem getElem?_of_maxByKey {α : Type} {key : α → ℕ} {l : List α} {i : ℕ} {x : α}
    (h : maxByKey key l = some (i, x)) : l[i]? = some x := by
  have hfold : ∀ (es : List (α × ℕ)) (best : Option (ℕ × α)),
      (∀ w ∈ best, l[w.1]? = some w.2) → (∀ e ∈ es, l[e.2]? = some e.1) →
      ∀ w ∈ es.foldl (fun best e =>
        match best with
        | some (i, x) => if key x ≤ key e.1 then some (e.2, e.1) else some (i, x)
        | none => some (e.2, e.1)) best, l[w.1]? = some w.2 := by
    intro es
    induction es with
    | nil => exact fun best hbest _ => hbest
    | cons e es ih =>
        intro best hbest hes
        have he : l[e.2]? = some e.1 := hes e List.mem_cons_self
        refine ih _ ?_ fun e' he' => hes e' (List.mem_cons_of_mem e he')
        intro w hw
        cases best with
        | none =>
            cases hw
            exact he
        | some b =>
            dsimp only at hw
            split at hw
            · cases hw
              exact he
            · exact hbest w hw
  refine hfold l.zipIdx none (fun w hw => nomatch hw) (fun e he => ?_) (i, x) h
  exact List.mem_zipIdx_iff_getElem?.mp he

/-- The removed element and the rest are what there was. -/
theorem perm_swapRemove {α : Type} {l : List α} {i : ℕ} {x : α} (h : l[i]? = some x) :
    l.Perm (x :: swapRemove l i) := by
  obtain ⟨hi, hx⟩ := List.getElem?_eq_some_iff.mp h
  rcases List.eq_nil_or_concat l with rfl | ⟨init, last, rfl⟩
  · exact absurd hi (Nat.not_lt_zero i)
  · have hlast : (init ++ [last]).getLast? = some last := List.getLast?_concat
    simp only [List.concat_eq_append] at hi hx ⊢
    simp only [swapRemove, hlast]
    rcases Nat.lt_or_ge i init.length with hlt | hge
    · rw [List.getElem_append_left hlt] at hx
      rw [List.set_append_left _ _ hlt, List.dropLast_concat,
        List.set_eq_take_append_cons_drop, if_pos hlt]
      have hsplit : init = init.take i ++ x :: init.drop (i + 1) := by
        rw [← hx, ← List.drop_eq_getElem_cons hlt, List.take_append_drop]
      calc (init ++ [last]).Perm (last :: init) := List.perm_append_singleton last init
        _ = last :: (init.take i ++ x :: init.drop (i + 1)) := by rw [← hsplit]
        (last :: (init.take i ++ x :: init.drop (i + 1))).Perm
          (last :: x :: (init.take i ++ init.drop (i + 1))) := List.perm_middle.cons last
        (last :: x :: (init.take i ++ init.drop (i + 1))).Perm
          (x :: last :: (init.take i ++ init.drop (i + 1))) := List.Perm.swap x last _
        (x :: last :: (init.take i ++ init.drop (i + 1))).Perm
          (x :: (init.take i ++ last :: init.drop (i + 1))) := List.perm_middle.symm.cons x
    · have hi' : i = init.length := by
        simp only [List.length_append, List.length_singleton] at hi
        omega
      subst hi'
      simp only [List.getElem_concat_length] at hx
      subst hx
      simp [List.set_append_right, List.perm_append_singleton]

variable {A H : Type} [DecidableEq A] [DecidableEq H] (cfg : Config A H)

/-! ## Launch -/

/-- The amount locked in support of a proposal. -/
def State.backingFor (s : State A H) (proposal : ℕ) : Option ℕ :=
  (s.depositOf.lookup proposal).map fun d => d.amount * d.depositors.length

/-- Table the waiting external proposal for a vote, if there is one. -/
def launchExternal (now : ℕ) : DemocracyM A H Unit := do
  let s ← get
  match s.nextExternal with
  | some (proposal, threshold) =>
      set ({ s with nextExternal := none, lastTabledWasExternal := true }.injectReferendum
        (now + cfg.votingPeriod) proposal threshold cfg.enactmentPeriod)
  | none => throw .NoneWaiting

/-- Unreserve the deposits of everybody who backed a proposal. -/
def State.refundDepositors (s : State A H) (deposit : Deposit A) : State A H :=
  deposit.depositors.foldl (fun s d => s.unreserve deposit.currency d deposit.amount) s

/-- Take a proposal off the queue and give its deposits back. -/
def State.table (s : State A H) (winnerIndex propIndex : ℕ) : State A H :=
  let s := { s with publicProps := swapRemove s.publicProps winnerIndex }
  match s.depositOf.lookup propIndex with
  | some deposit => { s with depositOf := s.depositOf.erase propIndex }.refundDepositors deposit
  | none => s

/-- Table the waiting public proposal with the highest backing for a vote. -/
def launchPublic (now : ℕ) : DemocracyM A H Unit := do
  let s ← get
  match maxByKey (fun p => (s.backingFor p.1).getD 0) s.publicProps with
  | some (winnerIndex, (propIndex, proposal, _)) =>
      if propIndex ∈ s.depositOf then
        set ((s.table winnerIndex propIndex).injectReferendum (now + cfg.votingPeriod) proposal
          .superMajorityApprove cfg.enactmentPeriod)
      else set (s.table winnerIndex propIndex)
  | none => throw .NoneWaiting

/-- Run the second call if the first one fails. -/
def orElse (x y : DemocracyM A H Unit) : DemocracyM A H Unit := do
  match ← Dispatch.attempt x with
  | .ok _ => pure ()
  | .error _ => y

/-- Table the next waiting proposal for a vote. -/
def launchNext (now : ℕ) : DemocracyM A H Unit := do
  let s ← get
  set { s with lastTabledWasExternal := false }
  if s.lastTabledWasExternal then orElse (launchPublic cfg now) (launchExternal cfg now)
  else orElse (launchExternal cfg now) (launchPublic cfg now)

/-! ## Enactment -/

/-- Note that a preimage is needed at a block. -/
def imminent (block : ℕ) : Option (PreimageStatus A) → PreimageStatus A
  | some (.available preimage) => .available { preimage with expiry := some block }
  | _ => .missing block

def State.finish (s : State A H) (refIndex : ℕ) (approved : Bool) (now : ℕ) : State A H :=
  { s with referendumInfoOf := s.referendumInfoOf.insert refIndex (.finished approved now) }

/-- What the rest of the chain moves: balances, issuances and prices. -/
structure Outside (A : Type) where
  freeBalance : A → ℕ
  issuance : ℕ
  free : CurrencyId → A → ℕ
  tokenIssuance : CurrencyId → ℕ
  setterFixedPrice : Option ℕ
  price : CurrencyId → Option ℕ

def State.outside (s : State A H) (o : Outside A) : State A H :=
  { s with
    freeBalance := o.freeBalance
    issuance := o.issuance
    tokens := fun c => { s.tokens c with free := o.free c }
    tokenIssuance := o.tokenIssuance
    setterFixedPrice := o.setterFixedPrice
    price := o.price }

/-- Give the deposit of an available preimage back, and the preimage up. -/
def State.giveBack (s : State A H) (preimage : Preimage A) (h : H) : State A H :=
  { s with preimages := s.preimages.erase h }.unreserve preimage.currency preimage.provider
    preimage.deposit

/-- Slash the deposit of an available preimage, and give the preimage up. -/
def State.slashPreimage (s : State A H) (preimage : Preimage A) (h : H) : State A H :=
  { s with preimages := s.preimages.erase h }.slashReserved cfg preimage.currency
    preimage.provider preimage.deposit

/-- Note that the preimage of a proposal is needed at a block. -/
def State.need (s : State A H) (h : H) (block : ℕ) : State A H :=
  { s with preimages := s.preimages.insert h (imminent block (s.preimages.lookup h)) }

/-- What can happen to the pallet within a block: a call, a launch, the parts of an enactment and
of the end of a referendum, and what the rest of the chain does. -/
inductive Act (A H : Type)
  | call (c : Call A H)
  | launch (now : ℕ)
  | giveBack (h : H)
  | slash (h : H)
  | forget (h : H)
  | need (h : H) (block : ℕ)
  | finish (refIndex : ℕ) (approved : Bool) (now : ℕ)
  | elsewhere (o : Outside A)

def act (s : State A H) : Act A H → State A H
  | .call c => Dispatch.commit (c.call cfg) s
  | .launch now => Dispatch.commit (launchNext cfg now) s
  | .giveBack h => (s.availablePreimage h).elim s fun preimage => s.giveBack preimage h
  | .slash h => (s.availablePreimage h).elim s fun preimage => s.slashPreimage cfg preimage h
  | .forget h =>
      if s.availablePreimage h = none then { s with preimages := s.preimages.erase h } else s
  | .need h block => s.need h block
  | .finish refIndex approved now => s.finish refIndex approved now
  | .elsewhere o => s.outside o

/-- The proposals of a runtime: how they are decoded, and what dispatching one as root does to the
pallet, which can itself make calls of the pallet. -/
structure Runtime (A H : Type) where
  Proposal : Type
  decode : List Byte → Option Proposal
  acts : Proposal → State A H → List (Act A H)

/-- Dispatch a proposal as root. -/
def Runtime.dispatch (rt : Runtime A H) (proposal : rt.Proposal) (s : State A H) : State A H :=
  Machine.run (act cfg) s (rt.acts proposal s)

variable (rt : Runtime A H)

/-- Take the preimage of a proposal, give back or slash the deposit, and dispatch it. -/
def doEnactProposal (proposalHash : H) : DemocracyM A H Unit := do
  let s ← get
  match s.availablePreimage proposalHash with
  | some preimage =>
      match rt.decode preimage.data with
      | some proposal =>
          -- whether the dispatch succeeds is only reported
          set (rt.dispatch cfg proposal (s.giveBack preimage proposalHash))
      | none => do
          set (s.slashPreimage cfg preimage proposalHash)
          throw .PreimageInvalid
  | none => do
      set { s with preimages := s.preimages.erase proposalHash }
      throw .PreimageMissing

/-- What the tally of a referendum is compared with. -/
def State.electorate (s : State A H) (preimage : Preimage A) : ℕ :=
  s.tokenIssuance preimage.currency

def bakeReferendum (now : ℕ) (status : ReferendumStatus H) : DemocracyM A H Bool := do
  let s ← get
  let preimage ← Dispatch.okOr (s.availablePreimage status.proposalHash) .PreimageMissing
  let approved := cfg.approved status.threshold status.tally (s.electorate preimage)
  if approved then
    if status.delay = 0 then Dispatch.ignore (doEnactProposal cfg rt status.proposalHash)
    else set (s.need status.proposalHash (now + status.delay))
  pure approved

/-! ## The start of a block -/

/-- All referenda ready for tally at block `n`. -/
def State.maturingReferendaAtInner (s : State A H) (n next last : ℕ) :
    List (ℕ × ReferendumStatus H) :=
  (List.range' next (last - next)).filterMap fun i =>
    match s.referendumInfoOf.lookup i with
    | some (.ongoing status) => if status.endBlock = n then some (i, status) else none
    | _ => none

/-- Tally up votes for the expiring referenda. -/
def bakeReferenda (now : ℕ) : List (ℕ × ReferendumStatus H) → DemocracyM A H Unit
  | [] => pure ()
  | (index, status) :: rest => do
      let approved ← bakeReferendum cfg rt now status
      modify fun s => s.finish index approved now
      bakeReferenda now rest

def beginBlock (now : ℕ) : DemocracyM A H Unit := do
  if now % cfg.launchPeriod = 0 then Dispatch.ignore (launchNext cfg now)
  let s ← get
  bakeReferenda cfg rt now (s.maturingReferendaAtInner now s.lowestUnbaked s.referendumCount)

/-! ## Runs -/

/-- A step of the chain: a call, a scheduled or requested enactment, the start of the next block,
or a step that democracy takes no part in. -/
inductive Step (A H : Type)
  | call (c : Call A H)
  | enactProposal (proposalHash : H)
  | nextBlock
  | elsewhere (o : Outside A)

def step (s : State A H) : Step A H → State A H
  | .call c => Dispatch.commit (c.call cfg) s
  | .enactProposal h => Dispatch.commit (doEnactProposal cfg rt h) s
  | .nextBlock =>
      Dispatch.commit (beginBlock cfg rt (s.blockNumber + 1))
        { s with blockNumber := s.blockNumber + 1 }
  | .elsewhere o => s.outside o

variable {cfg rt} {s s₀ : State A H}

/-- The second state is reached from the first by acts. -/
def Happens (cfg : Config A H) (s s' : State A H) : Prop :=
  ∃ acts, Machine.run (act cfg) s acts = s'

theorem Happens.refl (s : State A H) : Happens cfg s s := ⟨[], rfl⟩

theorem Happens.trans {s s₁ s₂ : State A H} (h : Happens cfg s s₁) (h' : Happens cfg s₁ s₂) :
    Happens cfg s s₂ := by
  obtain ⟨acts, rfl⟩ := h
  obtain ⟨acts', rfl⟩ := h'
  exact ⟨acts ++ acts', Machine.run_append _ _ _ _⟩

theorem happens_act (cfg : Config A H) (s : State A H) (a : Act A H) :
    Happens cfg s (act cfg s a) :=
  ⟨[a], rfl⟩

/-- What every act preserves, they all preserve. -/
theorem Happens.invariant {P : State A H → Prop} (hact : ∀ s a, P s → P (act cfg s a))
    {s' : State A H} (h : Happens cfg s s') (hs : P s) : P s' := by
  obtain ⟨acts, rfl⟩ := h
  exact Machine.run_invariant_always hact hs acts

/-- A call changes the state by what it leaves behind, whether it succeeds or fails. -/
theorem happens_commit {α : Type} {x : DemocracyM A H α}
    (hok : ∀ a s', x.run s = .ok a s' → Happens cfg s s')
    (herror : ∀ e s', x.run s = .error e s' → Happens cfg s s') :
    Happens cfg s (Dispatch.commit x s) := by
  cases hrun : x.run s with
  | ok a s' => exact Dispatch.commit_of_ok hrun ▸ hok a s' hrun
  | error e s' => exact Dispatch.commit_of_error hrun ▸ herror e s' hrun

theorem doEnactProposal_ok {h : H} {u : Unit} {s' : State A H}
    (hrun : (doEnactProposal cfg rt h).run s = .ok u s') :
    ∃ preimage proposal, s.availablePreimage h = some preimage ∧
      rt.decode preimage.data = some proposal ∧
      s' = rt.dispatch cfg proposal (s.giveBack preimage h) := by
  simp only [doEnactProposal, Dispatch.run_bind_ok, Dispatch.run_get_ok] at hrun
  obtain ⟨_, _, ⟨rfl, rfl⟩, hrun⟩ := hrun
  split at hrun
  · rename_i preimage hpreimage
    split at hrun
    · rename_i proposal hproposal
      exact ⟨preimage, proposal, hpreimage, hproposal, (Dispatch.run_set_ok.mp hrun).symm⟩
    · simp only [Dispatch.run_bind_ok, Dispatch.run_throw_ok, and_false, exists_false] at hrun
  · simp only [Dispatch.run_bind_ok, Dispatch.run_throw_ok, and_false, exists_false] at hrun

theorem doEnactProposal_error {h : H} {e : Error} {s' : State A H}
    (hrun : (doEnactProposal cfg rt h).run s = .error e s') :
    (∃ preimage, s.availablePreimage h = some preimage ∧
      s' = s.slashPreimage cfg preimage h) ∨
      (s.availablePreimage h = none ∧ s' = { s with preimages := s.preimages.erase h }) := by
  simp only [doEnactProposal, Dispatch.run_bind_error, Dispatch.run_get_error,
    Dispatch.run_get_ok, false_or] at hrun
  obtain ⟨_, _, ⟨rfl, rfl⟩, hrun⟩ := hrun
  split at hrun
  · rename_i preimage hpreimage
    split at hrun
    · exact absurd (Dispatch.run_set_error.mp hrun) not_false
    · simp only [Dispatch.run_bind_error, Dispatch.run_set_error, Dispatch.run_set_ok,
        Dispatch.run_throw_error, false_or] at hrun
      obtain ⟨_, _, rfl, -, rfl⟩ := hrun
      exact .inl ⟨preimage, hpreimage, rfl⟩
  · rename_i hnone
    simp only [Dispatch.run_bind_error, Dispatch.run_set_error, Dispatch.run_set_ok,
      Dispatch.run_throw_error, false_or] at hrun
    obtain ⟨_, _, rfl, -, rfl⟩ := hrun
    exact .inr ⟨hnone, rfl⟩

theorem happens_doEnactProposal (rt : Runtime A H) (s : State A H) (h : H) :
    Happens cfg s (Dispatch.commit (doEnactProposal cfg rt h) s) := by
  refine happens_commit (fun u s' hrun => ?_) fun e s' hrun => ?_
  · obtain ⟨preimage, proposal, hpreimage, -, rfl⟩ := doEnactProposal_ok hrun
    have hback : act cfg s (.giveBack h) = s.giveBack preimage h := by
      simp [act, hpreimage]
    exact (hback ▸ happens_act cfg s (.giveBack h)).trans ⟨_, rfl⟩
  · rcases doEnactProposal_error hrun with ⟨preimage, hpreimage, rfl⟩ | ⟨hnone, rfl⟩
    · have hslash : act cfg s (.slash h) = s.slashPreimage cfg preimage h := by
        simp [act, hpreimage]
      exact hslash ▸ happens_act cfg s (.slash h)
    · have hforget : act cfg s (.forget h) = { s with preimages := s.preimages.erase h } := by
        simp [act, hnone]
      exact hforget ▸ happens_act cfg s (.forget h)

/-- What a referendum that is baked leaves behind, by its decision. -/
theorem bakeReferendum_ok {now : ℕ} {status : ReferendumStatus H} {approved : Bool}
    {s' : State A H} (hrun : (bakeReferendum cfg rt now status).run s = .ok approved s') :
    ∃ preimage, s.availablePreimage status.proposalHash = some preimage ∧
      approved = cfg.approved status.threshold status.tally (s.electorate preimage) ∧
      s' =
        if approved then
          if status.delay = 0 then
            Dispatch.commit (doEnactProposal cfg rt status.proposalHash) s
          else s.need status.proposalHash (now + status.delay)
        else s := by
  simp only [bakeReferendum, Dispatch.run_bind_ok, Dispatch.run_get_ok,
    Dispatch.run_okOr_ok] at hrun
  obtain ⟨_, _, ⟨rfl, rfl⟩, preimage, _, ⟨hpreimage, rfl⟩, hrun⟩ := hrun
  split at hrun
  · rename_i happroved
    split at hrun
    · rename_i hdelay
      simp only [Dispatch.run_bind_ok, Dispatch.run_ignore_ok, Dispatch.run_pure_ok] at hrun
      obtain ⟨_, _, rfl, rfl, rfl⟩ := hrun
      exact ⟨preimage, hpreimage, rfl, by rw [if_pos happroved, if_pos hdelay]⟩
    · rename_i hdelay
      simp only [Dispatch.run_bind_ok, Dispatch.run_set_ok, Dispatch.run_pure_ok] at hrun
      obtain ⟨_, _, rfl, rfl, rfl⟩ := hrun
      exact ⟨preimage, hpreimage, rfl, by rw [if_pos happroved, if_neg hdelay]⟩
  · rename_i happroved
    obtain ⟨rfl, rfl⟩ := Dispatch.run_pure_ok.mp hrun
    exact ⟨preimage, hpreimage, rfl, by rw [if_neg happroved]⟩

/-- A referendum cannot be baked without its preimage, and changes nothing then. -/
theorem bakeReferendum_error {now : ℕ} {status : ReferendumStatus H} {e : Error}
    {s' : State A H} (hrun : (bakeReferendum cfg rt now status).run s = .error e s') :
    s.availablePreimage status.proposalHash = none ∧ s' = s := by
  simp only [bakeReferendum, Dispatch.run_bind_error, Dispatch.run_get_error,
    Dispatch.run_get_ok, Dispatch.run_okOr_error, Dispatch.run_okOr_ok, false_or] at hrun
  obtain ⟨_, _, ⟨rfl, rfl⟩, ⟨hnone, -, rfl⟩ | ⟨preimage, _, ⟨-, rfl⟩, hrun⟩⟩ := hrun
  · exact ⟨hnone, rfl⟩
  · split at hrun
    · split at hrun
      · simp only [Dispatch.run_bind_error, Dispatch.run_ignore_error, Dispatch.run_pure_error,
          and_false, exists_false, or_false] at hrun
      · simp only [Dispatch.run_bind_error, Dispatch.run_set_error, Dispatch.run_pure_error,
          and_false, exists_false, or_false] at hrun
    · exact absurd (Dispatch.run_pure_error.mp hrun) not_false

theorem happens_bakeReferendum_ok {now : ℕ} {status : ReferendumStatus H} {approved : Bool}
    {s' : State A H} (hrun : (bakeReferendum cfg rt now status).run s = .ok approved s') :
    Happens cfg s s' := by
  obtain ⟨preimage, -, -, rfl⟩ := bakeReferendum_ok hrun
  split
  · split
    · exact happens_doEnactProposal rt s _
    · exact happens_act cfg s (.need _ _)
  · exact Happens.refl s

theorem happens_bakeReferenda (rt : Runtime A H) (now : ℕ)
    (maturing : List (ℕ × ReferendumStatus H)) (s : State A H) :
    Happens cfg s (Dispatch.commit (bakeReferenda cfg rt now maturing) s) := by
  induction maturing generalizing s with
  | nil => exact Happens.refl s
  | cons r rest ih =>
      obtain ⟨index, status⟩ := r
      refine happens_commit (fun u s' hrun => ?_) fun e s' hrun => ?_
      · simp only [bakeReferenda, Dispatch.run_bind_ok, Dispatch.run_modify_ok] at hrun
        obtain ⟨approved, s₁, hbake, _, _, rfl, hrest⟩ := hrun
        have hfinish := happens_act cfg s₁ (.finish index approved now)
        exact ((happens_bakeReferendum_ok hbake).trans hfinish).trans
          (Dispatch.commit_of_ok hrest ▸ ih _)
      · simp only [bakeReferenda, Dispatch.run_bind_error, Dispatch.run_modify_error,
          Dispatch.run_modify_ok, false_or] at hrun
        rcases hrun with hbake | ⟨approved, s₁, hbake, _, _, rfl, hrest⟩
        · rw [(bakeReferendum_error hbake).2]
          exact Happens.refl s
        · have hfinish := happens_act cfg s₁ (.finish index approved now)
          exact ((happens_bakeReferendum_ok hbake).trans hfinish).trans
            (Dispatch.commit_of_error hrest ▸ ih _)

/-- The state in which the referenda of a block are baked: the next one has been launched. -/
def State.launched (cfg : Config A H) (s : State A H) (now : ℕ) : State A H :=
  if now % cfg.launchPeriod = 0 then Dispatch.commit (launchNext cfg now) s else s

theorem commit_beginBlock (rt : Runtime A H) (now : ℕ) (s : State A H) :
    Dispatch.commit (beginBlock cfg rt now) s =
      Dispatch.commit (bakeReferenda cfg rt now
        ((s.launched cfg now).maturingReferendaAtInner now (s.launched cfg now).lowestUnbaked
          (s.launched cfg now).referendumCount)) (s.launched cfg now) := by
  unfold beginBlock State.launched
  split <;> rfl

theorem happens_launched (s : State A H) (now : ℕ) : Happens cfg s (s.launched cfg now) := by
  unfold State.launched
  split
  · exact happens_act cfg s (.launch now)
  · exact Happens.refl s

theorem happens_beginBlock (rt : Runtime A H) (now : ℕ) (s : State A H) :
    Happens cfg s (Dispatch.commit (beginBlock cfg rt now) s) := by
  rw [commit_beginBlock]
  exact (happens_launched s now).trans (happens_bakeReferenda rt now _ _)

/-- **The rule of runs.** What every act preserves, and the passing of a block, every step does. -/
theorem step_invariant {P : State A H → Prop} (hact : ∀ s a, P s → P (act cfg s a))
    (hblock : ∀ s : State A H, P s → P { s with blockNumber := s.blockNumber + 1 })
    (l : Step A H) (hs : P s) : P (step cfg rt s l) := by
  cases l with
  | call c => exact hact s (.call c) hs
  | enactProposal h => exact (happens_doEnactProposal rt s h).invariant hact hs
  | nextBlock => exact (happens_beginBlock rt _ _).invariant hact (hblock s hs)
  | elsewhere o => exact hact s (.elsewhere o) hs

/-- A move of the chain at its finest: an act within a block, or the passing of the block. -/
inductive Move (A H : Type)
  | act (a : Act A H)
  | nextBlock

def move (cfg : Config A H) (s : State A H) : Move A H → State A H
  | .act a => act cfg s a
  | .nextBlock => { s with blockNumber := s.blockNumber + 1 }

/-- The acts of a sequence are moves. -/
theorem run_move_acts (cfg : Config A H) (s : State A H) (acts : List (Act A H)) :
    Machine.run (move cfg) s (acts.map Move.act) = Machine.run (act cfg) s acts := by
  induction acts generalizing s with
  | nil => rfl
  | cons a acts ih => exact ih (act cfg s a)

/-- **Every step of the chain is a sequence of moves.** -/
theorem step_eq_moves (cfg : Config A H) (rt : Runtime A H) (s : State A H) (l : Step A H) :
    ∃ moves, Machine.run (move cfg) s moves = step cfg rt s l := by
  have hacts : ∀ s s' : State A H, Happens cfg s s' →
      ∃ moves, Machine.run (move cfg) s moves = s' := by
    rintro s s' ⟨acts, rfl⟩
    exact ⟨acts.map Move.act, run_move_acts cfg s acts⟩
  cases l with
  | call c => exact ⟨[.act (.call c)], rfl⟩
  | enactProposal h => exact hacts s _ (happens_doEnactProposal rt s h)
  | nextBlock =>
      obtain ⟨moves, hmoves⟩ := hacts _ _
        (happens_beginBlock rt (s.blockNumber + 1) { s with blockNumber := s.blockNumber + 1 })
      exact ⟨.nextBlock :: moves, hmoves⟩
  | elsewhere o => exact ⟨[.act (.elsewhere o)], rfl⟩

/-- So is every run of it. -/
theorem run_eq_moves (cfg : Config A H) (rt : Runtime A H) (s : State A H) (ls : List (Step A H)) :
    ∃ moves, Machine.run (move cfg) s moves = Machine.run (step cfg rt) s ls := by
  induction ls generalizing s with
  | nil => exact ⟨[], rfl⟩
  | cons l ls ih =>
      obtain ⟨moves, hmoves⟩ := step_eq_moves cfg rt s l
      obtain ⟨moves', hmoves'⟩ := ih (step cfg rt s l)
      refine ⟨moves ++ moves', ?_⟩
      rw [Machine.run_append, hmoves, hmoves']
      rfl

/-- A state that the chain can start in. -/
structure Genesis (s : State A H) : Prop where
  lock : ∀ who, s.lock who = 0
  reserved : ∀ c who, (s.tokens c).reserved who = 0
  publicPropCount : s.publicPropCount = 0
  publicProps : s.publicProps = []
  depositOf : s.depositOf = ∅
  preimages : s.preimages = ∅
  referendumCount : s.referendumCount = 0
  lowestUnbaked : s.lowestUnbaked = 0
  referendumInfoOf : s.referendumInfoOf = ∅
  votingOf : s.votingOf = ∅

/-! ## A sample chain -/

section Sample

/-- The square root, rounded down. -/
def integerSqrt (n : ℕ) : ℕ := Nat.findGreatest (fun r => r * r ≤ n) n

/-- The threshold functions. -/
def VoteThreshold.approved (threshold : VoteThreshold) (tally : Tally) (electorate : ℕ) : Bool :=
  let sqrtVoters := integerSqrt tally.turnout
  let sqrtElectorate := integerSqrt electorate
  if sqrtVoters = 0 then false
  else
    match threshold with
    | superMajorityApprove => tally.nays * sqrtElectorate < tally.ayes * sqrtVoters
    | superMajorityAgainst => tally.nays * sqrtVoters < tally.ayes * sqrtElectorate
    | simpleMajority => tally.nays < tally.ayes

/-- Blocks of two for a launch and for a vote; deposits of one; proposals without effect. -/
def sampleConfig : Config ℕ ℕ where
  enactmentPeriod := 2
  launchPeriod := 2
  votingPeriod := 2
  fastTrackVotingPeriod := 1
  cooloffPeriod := 2
  governanceCurrencyIds := [.Token .DNAR, .Token .SETT, .Token .DRAM]
  nativeCurrencyId := .Token .DNAR
  dexCurrencyId := .Token .DRAM
  setterCurrencyId := .Token .SETT
  minimumDeposit := 1
  goldenMinimumDepositMultiple := 1
  setterMinimumDepositMultiple := 1
  silverMinimumDepositMultiple := 1
  instantAllowed := true
  preimageByteDeposit := 0
  maxVotes := 100
  maxProposals := 100
  maxBlockNumber := 1000000
  rules := Reserves.Rules.permissive
  treasury := 0
  hashing := List.length
  approved := VoteThreshold.approved

def sampleRuntime : Runtime ℕ ℕ where
  Proposal := Unit
  decode _ := some ()
  acts _ _ := []

/-- Four accounts hold 25 each of the voting currency and of the native one, and 100 each of every
other. -/
def sampleGenesis : State ℕ ℕ where
  blockNumber := 0
  freeBalance who := if who < 4 then 25 else 0
  issuance := 100
  lock _ := 0
  tokens c := ⟨fun who => if who < 4 then if c = .Token .DNAR then 25 else 100 else 0, fun _ => 0⟩
  tokenIssuance c := if c = .Token .DNAR then 100 else 400
  setterFixedPrice := some FixedU128.accuracy
  price _ := some FixedU128.accuracy
  publicPropCount := 0
  publicProps := []
  depositOf := ∅
  preimages := ∅
  referendumCount := 0
  lowestUnbaked := 0
  referendumInfoOf := ∅
  votingOf := ∅
  lastTabledWasExternal := false
  nextExternal := none
  blacklist := ∅
  cancellations := ∅

theorem sampleGenesis_genesis : Genesis sampleGenesis where
  lock _ := rfl
  reserved _ _ := rfl
  publicPropCount := rfl
  publicProps := rfl
  depositOf := rfl
  preimages := rfl
  referendumCount := rfl
  lowestUnbaked := rfl
  referendumInfoOf := rfl
  votingOf := rfl

end Sample

end Setheum.Democracy
