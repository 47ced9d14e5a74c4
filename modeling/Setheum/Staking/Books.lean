import Setheum.Lib.Index
import Setheum.Staking.Clock

/-!
# The books of the bonded stashes

A bonded stash names its controller, and the controller's ledger names the stash. `Sound` says that
the two storages agree and that every ledger adds up; every step keeps it.

The staking lock of a stash is meant to equal the total of its ledger. `update_ledger` sets the lock
to the total, but a currency leaves a lock as it is when asked to set it to zero. So a ledger that
is emptied and stays keeps the lock it had: a slash can take everything, and where the minimum
balance is zero, a withdrawal too.

* `sound_step` — every step keeps the books sound.
* `locked_step_iff` — a step keeps the locks right exactly when it empties no ledger that stays.
-/

set_option autoImplicit false

namespace Setheum.Staking

variable {A : Type} [DecidableEq A] {cfg : Config A}

/-- What the pallet keeps about bonded stashes. -/
structure BondRecords (A : Type) where
  bonded : A → Option A
  ledger : A → Option (StakingLedger A)
  stakingLock : A → Option ℕ

omit [DecidableEq A] in
/-- The records of a state about bonded stashes. -/
def State.bonds (s : State A) : BondRecords A where
  bonded := s.bonded
  ledger := s.ledger
  stakingLock := s.stakingLock

/-- Bonded stashes and ledgers lead to each other, and the ledgers are well formed. -/
structure Sound (horizon : ℕ) (r : BondRecords A) : Prop where
  paired : Index.Paired StakingLedger.stash r.bonded r.ledger
  wellFormed : ∀ controller l, r.ledger controller = some l → l.WellFormed horizon

/-- The lock of a bonded stash is the total of its ledger, and no other stash has a lock. -/
structure Locked (r : BondRecords A) : Prop where
  bonded : ∀ controller l, r.ledger controller = some l →
    (r.stakingLock l.stash).getD 0 = l.total
  unbonded : ∀ stash, r.bonded stash = none → r.stakingLock stash = none

/-- The first era in which nothing that is unlocking is left. -/
def State.horizon (cfg : Config A) (s : State A) : ℕ := s.currentEra.getD 0 + cfg.bondingDuration

/-- `set_lock` leaves the lock as it is when the amount is zero. -/
def IgnoresZero (setLock : Option ℕ → ℕ → Option ℕ) : Prop :=
  ∀ lock n, setLock lock n = if n = 0 then lock else some n

/-! ## Changes to the books -/

section Changes

variable {horizon : ℕ} {r : BondRecords A} {controller : A} {l l' : StakingLedger A}

omit [DecidableEq A] in
theorem Sound.mono {horizon' : ℕ} (hr : Sound horizon r) (hle : horizon ≤ horizon') :
    Sound horizon' r where
  paired := hr.paired
  wellFormed controller l hl := (hr.wellFormed controller l hl).mono hle

/-- Storing a ledger under a controller, with the lock of its stash. -/
def BondRecords.store (cfg : Config A) (controller : A) (l : StakingLedger A) (r : BondRecords A) :
    BondRecords A :=
  { r with
    stakingLock := Function.update r.stakingLock l.stash
      (cfg.setLock (r.stakingLock l.stash) l.total)
    ledger := Function.update r.ledger controller (some l) }

/-- Whatever becomes of the locks, a well-formed ledger of the same stash keeps the books sound. -/
theorem Sound.replace (hr : Sound horizon r) (hl : r.ledger controller = some l)
    (hstash : l'.stash = l.stash) (hl' : l'.WellFormed horizon) (locks : A → Option ℕ) :
    Sound horizon ⟨r.bonded, Function.update r.ledger controller (some l'), locks⟩ where
  paired := hr.paired.replace hl hstash
  wellFormed := Index.forall_update hr.wellFormed fun _ hm => Option.some.inj hm ▸ hl'

/-- A new stash under a free controller. -/
theorem Sound.bond (hr : Sound horizon r) (hbonded : r.bonded l.stash = none)
    (hledger : r.ledger controller = none) (hl : l.WellFormed horizon) (locks : A → Option ℕ) :
    Sound horizon ⟨Function.update r.bonded l.stash (some controller),
      Function.update r.ledger controller (some l), locks⟩ where
  paired := hr.paired.insert hbonded hledger
  wellFormed := Index.forall_update hr.wellFormed fun _ hm => Option.some.inj hm ▸ hl

/-- A stash leaves the books. -/
theorem Sound.kill {stash : A} (hr : Sound horizon r) (hbonded : r.bonded stash = some controller)
    (locks : A → Option ℕ) :
    Sound horizon ⟨Function.update r.bonded stash none, Function.update r.ledger controller none,
      locks⟩ where
  paired := hr.paired.erase hbonded
  wellFormed := Index.forall_update hr.wellFormed nofun

/-- A ledger moves to a free controller. -/
theorem Sound.move {controller' : A} (hr : Sound horizon r) (hl : r.ledger controller = some l)
    (hledger : r.ledger controller' = none) (locks : A → Option ℕ) :
    Sound horizon ⟨Function.update r.bonded l.stash (some controller'),
      Function.update (Function.update r.ledger controller none) controller' (some l), locks⟩ where
  paired := hr.paired.move (hr.paired.index_eq hl) hledger
  wellFormed := by
    refine Index.forall_update (Index.forall_update hr.wellFormed ?_) ?_
    · exact nofun
    · intro m hm
      cases hm
      exact hr.wellFormed controller l hl

/-- Storing a ledger keeps the locks right unless it empties the ledger. -/
theorem Locked.store (hlock : IgnoresZero cfg.setLock) (hr : Sound horizon r) (hlocked : Locked r)
    (hl : r.ledger controller = some l) (hstash : l'.stash = l.stash)
    (hfull : l'.total = 0 → l.total = 0) : Locked (r.store cfg controller l') where
  bonded c m hm := by
    simp only [BondRecords.store] at hm ⊢
    by_cases hc : c = controller
    · subst hc
      rw [Function.update_self] at hm
      cases hm
      rw [Function.update_self, hlock]
      split
      · rename_i hzero
        rw [hzero, hstash, hlocked.bonded c l hl, hfull hzero]
      · rfl
    · rw [Function.update_of_ne hc] at hm
      have hne : m.stash ≠ l'.stash := fun h => hc (hr.paired.cell_eq hm hl (h.trans hstash))
      rw [Function.update_of_ne hne]
      exact hlocked.bonded c m hm
  unbonded stash hstash' := by
    simp only [BondRecords.store] at hstash' ⊢
    have hne : stash ≠ l'.stash := by
      rintro rfl
      rw [hstash, hr.paired.index_eq hl] at hstash'
      cases hstash'
    rw [Function.update_of_ne hne]
    exact hlocked.unbonded stash hstash'

/-- A ledger of the same stash with the same total keeps the locks right. -/
theorem Locked.replace (hlocked : Locked r) (hl : r.ledger controller = some l)
    (hstash : l'.stash = l.stash) (htotal : l'.total = l.total) :
    Locked ⟨r.bonded, Function.update r.ledger controller (some l'), r.stakingLock⟩ where
  bonded := by
    refine Index.forall_update hlocked.bonded fun m hm => ?_
    cases hm
    rw [hstash, htotal]
    exact hlocked.bonded controller l hl
  unbonded := hlocked.unbonded

/-- A new stash is locked for its total. -/
theorem Locked.bond (hlock : IgnoresZero cfg.setLock) (hr : Sound horizon r) (hlocked : Locked r)
    (hbonded : r.bonded l.stash = none) :
    Locked (BondRecords.store cfg controller l
      { r with bonded := Function.update r.bonded l.stash (some controller) }) where
  bonded := by
    refine Index.forall_update (fun c m hm => ?_) fun m hm => ?_
    · have hne : m.stash ≠ l.stash := by
        intro h
        have hindex := hr.paired.index_eq hm
        rw [h, hbonded] at hindex
        cases hindex
      simp only [BondRecords.store]
      rw [Function.update_of_ne hne]
      exact hlocked.bonded c m hm
    · cases hm
      simp only [BondRecords.store]
      rw [Function.update_self, hlock, hlocked.unbonded l.stash hbonded]
      split
      · rename_i hzero
        exact hzero.symm
      · rfl
  unbonded stash hstash := by
    simp only [BondRecords.store] at hstash ⊢
    have hne : stash ≠ l.stash := by
      rintro rfl
      rw [Function.update_self] at hstash
      cases hstash
    rw [Function.update_of_ne hne] at hstash ⊢
    exact hlocked.unbonded stash hstash

/-- A stash leaves the books together with its lock. -/
theorem Locked.kill {stash : A} (hr : Sound horizon r) (hlocked : Locked r)
    (hbonded : r.bonded stash = some controller) :
    Locked ⟨Function.update r.bonded stash none, Function.update r.ledger controller none,
      Function.update r.stakingLock stash none⟩ where
  bonded c m hm := by
    dsimp only at hm ⊢
    have hc : c ≠ controller := by
      rintro rfl
      rw [Function.update_self] at hm
      cases hm
    rw [Function.update_of_ne hc] at hm
    have hne : m.stash ≠ stash := by
      intro h
      have hindex := hr.paired.index_eq hm
      rw [h, hbonded] at hindex
      exact hc (Option.some.inj hindex).symm
    rw [Function.update_of_ne hne]
    exact hlocked.bonded c m hm
  unbonded a ha := by
    dsimp only at ha ⊢
    by_cases hne : a = stash
    · rw [hne, Function.update_self]
    · rw [Function.update_of_ne hne] at ha ⊢
      exact hlocked.unbonded a ha

/-- Moving a ledger leaves the locks alone. -/
theorem Locked.move {controller' : A} (hlocked : Locked r) (hl : r.ledger controller = some l) :
    Locked ⟨Function.update r.bonded l.stash (some controller'),
      Function.update (Function.update r.ledger controller none) controller' (some l),
      r.stakingLock⟩ where
  bonded := by
    refine Index.forall_update (Index.forall_update hlocked.bonded ?_) ?_
    · exact nofun
    · intro m hm
      cases hm
      exact hlocked.bonded controller l hl
  unbonded stash hstash := by
    dsimp only at hstash
    have hne : stash ≠ l.stash := by
      rintro rfl
      rw [Function.update_self] at hstash
      cases hstash
    rw [Function.update_of_ne hne] at hstash
    exact hlocked.unbonded stash hstash

end Changes

/-! ## What leaves the books alone -/

section Frame

@[simp] theorem updateLedger_bonds (controller : A) (l : StakingLedger A) (s : State A) :
    (updateLedger cfg controller l s).bonds = s.bonds.store cfg controller l := rfl

@[simp] theorem mint_bonds (allowed : Bool) (who : A) (n : ℕ) (s : State A) :
    (mint allowed who n s).bonds = s.bonds := by
  unfold mint
  split <;> rfl

@[simp] theorem chillStash_bonds (stash : A) (s : State A) :
    (chillStash stash s).bonds = s.bonds := by
  rw [withRoles_chillStash]
  rfl

variable (cfg) in
@[simp] theorem makeSetterPayout_bonds (stash : A) (n : ℕ) (s : State A) :
    (makeSetterPayout cfg stash n s).bonds = s.bonds := by
  unfold makeSetterPayout
  dsimp only
  split
  · split <;> rfl
  · split <;> rfl
  · rfl

omit [DecidableEq A] in
theorem clearEras_bonds (eras : List ℕ) (s : State A) : (clearEras eras s).bonds = s.bonds := by
  induction eras generalizing s with
  | nil => rfl
  | cons era eras ih => exact ih (clearEraInformation era s)

theorem newSession_bonds (j : ℕ) (election : Election A) (s : State A) :
    (newSession cfg j election s).bonds = s.bonds := by
  have htrigger : ∀ exposures, (triggerNewEra cfg j exposures s).bonds = s.bonds := by
    intro exposures
    unfold triggerNewEra clearOldEra
    split <;> rfl
  have htry : (tryTriggerNewEra cfg j election s).1.bonds = s.bonds := by
    unfold tryTriggerNewEra
    split
    · rfl
    · split
      · dsimp only
        split <;> rfl
      · exact htrigger _
  have hforcing : ∀ r : State A × Bool, (endForcing r).bonds = r.1.bonds := by
    intro r
    unfold endForcing
    split <;> rfl
  unfold newSession
  split
  · exact htry
  · split
    · rw [hforcing, htry]
    · rfl

omit [DecidableEq A] in
theorem startSession_bonds (j : ℕ) (s : State A) : (startSession j s).bonds = s.bonds := by
  rcases startSession_cases j s with ⟨hstarted, -⟩ | ⟨hsame, -⟩
  · rw [hstarted]
    rfl
  · rw [hsame]

theorem endSession_bonds (i now : ℕ) (s : State A) :
    (endSession cfg i now s).bonds = s.bonds := by
  have hend : ∀ a : ActiveEraInfo, (endEra cfg a now s).bonds = s.bonds := by
    intro a
    unfold endEra
    split
    · rfl
    · exact mint_bonds _ _ _ s
  rcases endSession_cases cfg i now s with ⟨a, -, -, hended⟩ | ⟨-, hsame⟩
  · rw [hended, hend]
  · rw [hsame]

theorem noteOffence_bonds (stash : A) (spans : SlashingSpans) (chills forces : Bool)
    (s : State A) : (noteOffence stash spans chills forces s).bonds = s.bonds := by
  have hensure : ∀ t : State A, (ensureNewEra t).bonds = t.bonds := by
    intro t
    unfold ensureNewEra
    split <;> rfl
  unfold noteOffence
  dsimp only
  split
  · rw [hensure]
    split
    · rw [chillStash_bonds]
      rfl
    · rfl
  · split
    · rw [chillStash_bonds]
      rfl
    · rfl

variable (cfg) in
/-- **Only calls and slashes touch the books.** -/
theorem step_bonds_cases (s : State A) (act : Act A) :
    (step cfg s act).bonds = s.bonds ∨ (∃ origin c, act = .call origin c) ∨
      ∃ stash value, act = .slash stash value := by
  cases act with
  | call origin c => exact .inr (.inl ⟨origin, c, rfl⟩)
  | slash stash value => exact .inr (.inr ⟨stash, value, rfl⟩)
  | genesisSessions first second =>
      left
      rw [step]
      unfold genesisSessions
      split
      · rfl
      · rw [startSession_bonds, newSession_bonds, newSession_bonds]
        rfl
  | rotateSession now election =>
      left
      rw [step]
      unfold rotateSession
      split
      · rfl
      · rw [newSession_bonds, startSession_bonds, endSession_bonds]
        rfl
  | onFinalize now =>
      left
      rw [step]
      unfold onFinalize
      split <;> rfl
  | rewardByIds points =>
      left
      rw [step]
      unfold rewardByIds
      split <;> rfl
  | offence stash spans chills forces =>
      exact .inl (noteOffence_bonds stash spans chills forces s)
  | outside => exact .inl rfl

end Frame

/-! ## Calls -/

section Calls

variable {s s' : State A} {origin : Origin A} {call : Call A} {l l' : StakingLedger A}

omit [DecidableEq A] in
theorem StakingLedger.WellFormed.stake {horizon : ℕ} (hl : l.WellFormed horizon) (n : ℕ) :
    (l.stake n).WellFormed horizon where
  total_eq := by
    have htotal := hl.total_eq
    simp only [StakingLedger.stake]
    omega
  sorted := hl.sorted
  length_le := hl.length_le
  era_le := hl.era_le
  value_pos := hl.value_pos

omit [DecidableEq A] in
/-- Funds that unlock at the horizon unlock after all others. -/
theorem StakingLedger.WellFormed.unbond {horizon value : ℕ} (hl : l.WellFormed horizon)
    (hpos : 0 < value) (hvalue : value ≤ l.active)
    (hlength : l.unlocking.length < maxUnlockingChunks) :
    (l.unbond value horizon).WellFormed horizon where
  total_eq := by
    have htotal := hl.total_eq
    simp only [StakingLedger.unbond, unlockingValue, List.map_append, List.map_cons,
      List.map_nil, List.sum_append, List.sum_cons, List.sum_nil] at htotal ⊢
    omega
  sorted := by
    simp only [StakingLedger.unbond, List.map_append, List.map_cons, List.map_nil]
    refine List.pairwise_append.mpr ⟨hl.sorted, List.pairwise_singleton _ _, ?_⟩
    intro era hera era' hera'
    rw [List.mem_singleton.mp hera']
    exact hl.era_le era hera
  length_le := by
    simp only [StakingLedger.unbond, List.length_append, List.length_cons, List.length_nil]
    omega
  era_le := by
    intro era hera
    simp only [StakingLedger.unbond, List.map_append, List.map_cons, List.map_nil,
      List.mem_append, List.mem_singleton] at hera
    rcases hera with hera | rfl
    · exact hl.era_le era hera
    · exact Nat.le_refl _
  value_pos := by
    intro chunk hchunk
    simp only [StakingLedger.unbond, List.mem_append, List.mem_singleton] at hchunk
    rcases hchunk with hchunk | rfl
    · exact hl.value_pos chunk hchunk
    · exact hpos

omit [DecidableEq A] in
theorem StakingLedger.WellFormed.withdraw {horizon : ℕ} (hl : l.WellFormed horizon)
    (currentEra : Option ℕ) : (l.withdraw currentEra).WellFormed horizon := by
  cases currentEra with
  | none => exact hl
  | some era => exact hl.consolidateUnlocked era

omit [DecidableEq A] in
@[simp] theorem StakingLedger.withdraw_stash (l : StakingLedger A) (currentEra : Option ℕ) :
    (l.withdraw currentEra).stash = l.stash := by
  cases currentEra <;> rfl

omit [DecidableEq A] in
/-- **When a withdrawal leaves nothing**: nothing is active and everything that was unlocking is
due. -/
theorem StakingLedger.WellFormed.withdraw_total_eq_zero_iff {horizon : ℕ}
    (hl : l.WellFormed horizon) (currentEra : Option ℕ) :
    (l.withdraw currentEra).total = 0 ↔
      l.active = 0 ∧ ∀ chunk ∈ l.unlocking, ∃ era ∈ currentEra, chunk.era ≤ era := by
  rw [(hl.withdraw currentEra).total_eq_zero_iff]
  cases currentEra with
  | none =>
      simp only [StakingLedger.withdraw, Option.mem_def, reduceCtorEq, false_and, exists_false,
        imp_false]
      exact and_congr_right fun _ => List.eq_nil_iff_forall_not_mem
  | some era =>
      simp [StakingLedger.withdraw, StakingLedger.consolidateUnlocked, List.filter_eq_nil_iff]

omit [DecidableEq A] in
theorem Rewrite.stash_eq (h : Rewrite cfg s l l') : l'.stash = l.stash := by
  cases h <;> rfl

omit [DecidableEq A] in
theorem Rewrite.wellFormed (h : Rewrite cfg s l l') (hl : l.WellFormed (s.horizon cfg)) :
    l'.WellFormed (s.horizon cfg) := by
  cases h with
  | stake n => exact hl.stake n
  | unbond value hpos hvalue hlength => exact hl.unbond hpos hvalue hlength
  | rebond value => exact hl.rebond value

omit [DecidableEq A] in
theorem Rewrite.total_le (h : Rewrite cfg s l l') : l.total ≤ l'.total := by
  cases h with
  | stake n => exact Nat.le_add_right _ n
  | unbond => exact Nat.le_refl _
  | rebond => exact Nat.le_refl _

omit [DecidableEq A] in
theorem newLedger_wellFormed (s : State A) (stash : A) (value horizon : ℕ) :
    (newLedger s stash value).WellFormed horizon where
  total_eq := rfl
  sorted := List.Pairwise.nil
  length_le := Nat.zero_le _
  era_le := nofun
  value_pos := nofun

variable (cfg) in
/-- A payment leaves the books alone or adds to the stake of one ledger. -/
theorem makePayout_bonds_cases (s : State A) (payment : A × ℕ × ℕ) :
    (makePayout cfg s payment).bonds = s.bonds ∨ ∃ controller l,
      s.bonds.ledger controller = some l ∧ 0 < payment.2.2 ∧
        (makePayout cfg s payment).bonds = s.bonds.store cfg controller (l.stake payment.2.2) := by
  unfold makePayout
  have hsetter := makeSetterPayout_bonds cfg payment.1 payment.2.1 s
  generalize makeSetterPayout cfg payment.1 payment.2.1 s = t at hsetter ⊢
  rw [← hsetter]
  unfold makeNativePayout depositCreating depositIntoExisting
  split
  · exact .inl rfl
  · rename_i hne
    split
    · split
      · exact .inl (mint_bonds _ _ _ t)
      · exact .inl rfl
    · exact .inl (mint_bonds _ _ _ t)
    · split
      · exact .inl rfl
      · split
        · exact .inl rfl
        · rename_i controller _ _ l hl
          right
          refine ⟨controller, l, hl, Nat.pos_of_ne_zero hne, ?_⟩
          rw [updateLedger_bonds, mint_bonds]
    · exact .inl (mint_bonds _ _ _ t)
    · exact .inl rfl

theorem Sound.foldl_makePayout {horizon : ℕ} (payments : List (A × ℕ × ℕ))
    (hs : Sound horizon s.bonds) : Sound horizon (payments.foldl (makePayout cfg) s).bonds := by
  induction payments generalizing s with
  | nil => exact hs
  | cons payment payments ih =>
      apply ih
      rcases makePayout_bonds_cases cfg s payment with hsame | ⟨c, l, hl, -, hstored⟩
      · rw [hsame]
        exact hs
      · rw [hstored]
        have hstash : (l.stake payment.2.2).stash = l.stash := rfl
        exact hs.replace hl hstash ((hs.wellFormed c l hl).stake _) _

theorem Locked.foldl_makePayout (hlock : IgnoresZero cfg.setLock) {horizon : ℕ}
    (payments : List (A × ℕ × ℕ)) (hs : Sound horizon s.bonds) (hlocked : Locked s.bonds) :
    Locked (payments.foldl (makePayout cfg) s).bonds := by
  induction payments generalizing s with
  | nil => exact hlocked
  | cons payment payments ih =>
      refine ih (hs.foldl_makePayout [payment]) ?_
      rcases makePayout_bonds_cases cfg s payment with hsame | ⟨c, l, hl, hpos, hstored⟩
      · rw [hsame]
        exact hlocked
      · rw [hstored]
        refine hlocked.store hlock hs hl rfl fun hzero => ?_
        have htotal : l.total + payment.2.2 = 0 := hzero
        omega

theorem kill_bonds (stash controller : A) (spans : A → Option SlashingSpans) (s : State A) :
    (removeLock stash (forgetStash stash controller { s with slashingSpans := spans })).bonds
      = ⟨Function.update s.bonded stash none, Function.update s.ledger controller none,
          Function.update s.stakingLock stash none⟩ := by
  have hforget : (forgetStash stash controller { s with slashingSpans := spans }).bonds
      = ⟨Function.update s.bonded stash none, Function.update s.ledger controller none,
          s.stakingLock⟩ := by
    unfold forgetStash
    exact chillStash_bonds stash _
  obtain ⟨hbonded, hledger, hstakingLock⟩ := BondRecords.mk.inj hforget
  show BondRecords.mk _ _ _ = _
  simp only [removeLock, hbonded, hledger, hstakingLock]

theorem moveLedger_bonds {stash oldController controller : A}
    (hl : s.ledger oldController = some l) :
    (moveLedger s stash oldController controller).bonds
      = ⟨Function.update s.bonded stash (some controller),
          Function.update (Function.update s.ledger oldController none) controller (some l),
          s.stakingLock⟩ := by
  unfold moveLedger
  rw [hl]
  rfl

/-- **No call unsettles the books.** -/
theorem Sound.effect (hs : Sound (s.horizon cfg) s.bonds) (h : Effect cfg origin call s s') :
    Sound (s.horizon cfg) s'.bonds := by
  cases h with
  | bond stash controller value payee system hbonded hledger =>
      exact hs.bond (l := newLedger s stash value) hbonded hledger
        (newLedger_wellFormed s stash value _) _
  | rewrite controller l l' hl hl' =>
      exact hs.replace hl hl'.stash_eq (hl'.wellFormed (hs.wellFormed controller l hl)) _
  | withdraw controller l n horigin hcall hl hkept =>
      exact hs.replace hl (l.withdraw_stash _) ((hs.wellFormed controller l hl).withdraw _) _
  | kill stash controller spans hbonded =>
      rw [kill_bonds]
      exact hs.kill hbonded _
  | setController stash oldController controller hbonded hledger hne =>
      obtain ⟨l, hl, hstash⟩ := hs.paired.lookup hbonded
      have hl' : s.ledger oldController = some l := hl
      rw [moveLedger_bonds hl', ← hstash]
      exact hs.move hl hledger _
  | roles => exact hs
  | limits => exact hs
  | forcing => exact hs
  | payout validatorStash controller l era payout hpayout hbonded hledger hclaim =>
      refine Sound.foldl_makePayout _ ?_
      have hl := hs.wellFormed controller l hledger
      have hclaim : (claim s l era).WellFormed (s.horizon cfg) :=
        ⟨hl.total_eq, hl.sorted, hl.length_le, hl.era_le, hl.value_pos⟩
      have hstash : (claim s l era).stash = l.stash := rfl
      exact hs.replace hledger hstash hclaim _
  | history currentEra depth hcurrent =>
      have hbonds := clearEras_bonds (List.range' s.lastKept (currentEra - depth - s.lastKept)) s
      have hframe : ({ clearEras (List.range' s.lastKept (currentEra - depth - s.lastKept)) s with
        historyDepth := depth } : State A).bonds = s.bonds := hbonds
      rw [hframe]
      exact hs

/-- A call keeps the locks right if a withdrawal leaves something in a ledger that had something. -/
theorem Locked.effect (hlock : IgnoresZero cfg.setLock) (hs : Sound (s.horizon cfg) s.bonds)
    (hlocked : Locked s.bonds) (h : Effect cfg origin call s s')
    (hfull : ∀ controller l n, origin = .signed controller → call = .withdrawUnbonded n →
      s.ledger controller = some l → 0 < l.total → cfg.minimumBalance = 0 →
        (l.withdraw s.currentEra).total ≠ 0) :
    Locked s'.bonds := by
  cases h with
  | bond stash controller value payee system hbonded hledger =>
      exact hlocked.bond (l := newLedger s stash value) hlock hs hbonded
  | rewrite controller l l' hl hl' =>
      refine hlocked.store hlock hs hl hl'.stash_eq fun hzero => ?_
      have hle := hl'.total_le
      omega
  | withdraw controller l n horigin hcall hl hkept =>
      refine hlocked.store hlock hs hl (l.withdraw_stash _) fun hzero => ?_
      by_contra hne
      have hwf := (hs.wellFormed controller l hl).withdraw s.currentEra
      -- an emptied ledger has nothing active, so only a minimum balance of zero keeps it
      obtain ⟨hactive, hunlocking⟩ := hwf.total_eq_zero_iff.mp hzero
      have hminimum : cfg.minimumBalance = 0 := by
        by_contra hne'
        exact hkept ⟨hunlocking, by omega⟩
      exact hfull controller l n horigin hcall hl (by omega) hminimum hzero
  | kill stash controller spans hbonded =>
      rw [kill_bonds]
      exact hlocked.kill hs hbonded
  | setController stash oldController controller hbonded hledger hne =>
      obtain ⟨l, hl, hstash⟩ := hs.paired.lookup hbonded
      have hl' : s.ledger oldController = some l := hl
      rw [moveLedger_bonds hl', ← hstash]
      exact hlocked.move hl
  | roles => exact hlocked
  | limits => exact hlocked
  | forcing => exact hlocked
  | payout validatorStash controller l era payout hpayout hbonded hledger hclaim =>
      have hl := hs.wellFormed controller l hledger
      have hclaimed : (claim s l era).WellFormed (s.horizon cfg) :=
        ⟨hl.total_eq, hl.sorted, hl.length_le, hl.era_le, hl.value_pos⟩
      have hstash : (claim s l era).stash = l.stash := rfl
      refine Locked.foldl_makePayout hlock _ (hs.replace hledger hstash hclaimed _) ?_
      exact hlocked.replace hledger hstash rfl
  | history currentEra depth hcurrent =>
      have hbonds := clearEras_bonds (List.range' s.lastKept (currentEra - depth - s.lastKept)) s
      have hframe : ({ clearEras (List.range' s.lastKept (currentEra - depth - s.lastKept)) s with
        historyDepth := depth } : State A).bonds = s.bonds := hbonds
      rw [hframe]
      exact hlocked

end Calls

/-! ## Every step -/

section Steps

variable {s : State A}

variable (cfg) in
/-- A slash of a stash leaves the books alone or stores the slashed ledger. -/
theorem doSlash_bonds_cases (stash : A) (value : ℕ) (s : State A) :
    (doSlash cfg stash value s).bonds = s.bonds ∨ ∃ controller l,
      s.bonded stash = some controller ∧ s.ledger controller = some l ∧
        (doSlash cfg stash value s).bonds
          = s.bonds.store cfg controller (l.slash value cfg.minimumBalance) := by
  unfold doSlash
  split
  · exact .inl rfl
  · rename_i controller hbonded
    split
    · exact .inl rfl
    · rename_i l hl
      split
      · exact .inl rfl
      · exact .inr ⟨controller, l, hbonded, hl, rfl⟩

/-- **Every step keeps the books sound.** -/
theorem Sound.step (hs : Sound (s.horizon cfg) s.bonds) (act : Act A) :
    Sound ((step cfg s act).horizon cfg) (Staking.step cfg s act).bonds := by
  have hle : s.horizon cfg ≤ (Staking.step cfg s act).horizon cfg :=
    Nat.add_le_add_right (step_currentEra_le cfg s act) cfg.bondingDuration
  apply Sound.mono _ hle
  rcases step_bonds_cases cfg s act with hsame | ⟨origin, c, rfl⟩ | ⟨stash, value, rfl⟩
  · rw [hsame]
    exact hs
  · rcases dispatch_cases cfg origin c s with hsame | heffect
    · rw [Staking.step, hsame]
      exact hs
    · exact hs.effect heffect
  · rcases doSlash_bonds_cases cfg stash value s with hsame | ⟨controller, l, -, hl, hstored⟩
    · rw [Staking.step, hsame]
      exact hs
    · rw [Staking.step, hstored]
      exact hs.replace hl (l.slash_stash _ _) ((hs.wellFormed controller l hl).slash _ _) _

/-- What a step must leave in a ledger that has something and stays. A slash spares more than the
minimum balance of the total or the funds it would reach last; a withdrawal that no minimum balance
turns into the end of the stash leaves active funds or funds that are not due. -/
def SparesFunds (cfg : Config A) (s : State A) : Act A → Prop
  | .slash stash value => ∀ controller ∈ s.bonded stash, ∀ l ∈ s.ledger controller, 0 < l.total →
      value + cfg.minimumBalance < l.total ∨ value + l.lastFunds ≤ l.total
  | .call (.signed controller) (.withdrawUnbonded _) => cfg.minimumBalance = 0 →
      ∀ l ∈ s.ledger controller, 0 < l.total →
        l.active ≠ 0 ∨ ∃ chunk ∈ l.unlocking, ∀ era ∈ s.currentEra, era < chunk.era
  | _ => True

omit [DecidableEq A] in
/-- A withdrawal spares funds exactly when it does not leave the ledger without any. -/
theorem withdraw_spares_iff {horizon : ℕ} {l : StakingLedger A} (hl : l.WellFormed horizon)
    (currentEra : Option ℕ) :
    (l.active ≠ 0 ∨ ∃ chunk ∈ l.unlocking, ∀ era ∈ currentEra, era < chunk.era) ↔
      (l.withdraw currentEra).total ≠ 0 := by
  refine Iff.trans ?_ (not_congr (hl.withdraw_total_eq_zero_iff currentEra)).symm
  rw [not_and_or]
  refine or_congr Iff.rfl ?_
  push Not
  rfl

/-- An emptied ledger keeps its lock. -/
theorem not_locked_store (hlock : IgnoresZero cfg.setLock) {r : BondRecords A} {controller : A}
    {l l' : StakingLedger A} (hr : Locked r) (hl : r.ledger controller = some l)
    (hstash : l'.stash = l.stash) (hpos : 0 < l.total) (hzero : l'.total = 0) :
    ¬ Locked (r.store cfg controller l') := by
  intro h
  have hnew := h.bonded controller l' (Function.update_self _ _ _)
  simp only [BondRecords.store, Function.update_self] at hnew
  rw [hlock, if_pos hzero, hstash, hr.bonded controller l hl] at hnew
  omega

/-- Without a minimum balance, a withdrawal stores the ledger it leaves. -/
theorem withdrawUnbonded_commit (hminimum : cfg.minimumBalance = 0) {controller : A}
    {l : StakingLedger A} (hl : s.ledger controller = some l) (n : ℕ) :
    (dispatch cfg (.signed controller) (.withdrawUnbonded n)).commit s
      = updateLedger cfg controller (l.withdraw s.currentEra) s := by
  have hkept : ¬ ((l.withdraw s.currentEra).unlocking = []
      ∧ (l.withdraw s.currentEra).active < cfg.minimumBalance) := by
    rintro ⟨-, hlt⟩
    omega
  have hrun : (withdrawUnbonded cfg (.signed controller) n).run s
      = .ok () (updateLedger cfg controller (l.withdraw s.currentEra) s) := by
    unfold withdrawUnbonded
    refine Dispatch.run_bind_ok.mpr ⟨controller, s, rfl, ?_⟩
    refine Dispatch.run_bind_ok.mpr ⟨s, s, rfl, ?_⟩
    refine Dispatch.run_bind_ok.mpr ⟨l, s, Dispatch.run_okOr_ok.mpr ⟨hl, rfl⟩, ?_⟩
    rw [if_neg hkept]
    exact Dispatch.run_modify_ok.mpr rfl
  exact Dispatch.commit_of_ok hrun

/-- **A step keeps the locks right exactly when it spares funds.** -/
theorem Locked.step_iff (hlock : IgnoresZero cfg.setLock) (hs : Sound (s.horizon cfg) s.bonds)
    (hlocked : Locked s.bonds) (act : Act A) :
    Locked (step cfg s act).bonds ↔ SparesFunds cfg s act := by
  constructor
  · intro h
    unfold SparesFunds
    split
    · rename_i stash value
      intro controller hb l hl hpos
      by_contra hspared
      have hwf := hs.wellFormed controller l hl
      have hzero : (l.slash value cfg.minimumBalance).total = 0 :=
        (hwf.slash_total_eq_zero_iff (by omega) value cfg.minimumBalance).mpr (by omega)
      have hslashed : l.slashed value cfg.minimumBalance ≠ 0 := by
        unfold StakingLedger.slashed
        omega
      have hstored : (doSlash cfg stash value s).bonds
          = s.bonds.store cfg controller (l.slash value cfg.minimumBalance) := by
        rw [Option.mem_def] at hb hl
        simp only [doSlash, hb, hl, if_neg hslashed]
        rfl
      rw [Staking.step, hstored] at h
      exact not_locked_store hlock hlocked hl (l.slash_stash _ _) hpos hzero h
    · rename_i controller n
      intro hminimum l hl hpos
      refine (withdraw_spares_iff (hs.wellFormed controller l hl) s.currentEra).mpr fun hzero => ?_
      rw [Staking.step, withdrawUnbonded_commit hminimum hl n, updateLedger_bonds] at h
      exact not_locked_store hlock hlocked hl (l.withdraw_stash _) hpos hzero h
    · trivial
  · intro hspares
    rcases step_bonds_cases cfg s act with hsame | ⟨origin, c, rfl⟩ | ⟨stash, value, rfl⟩
    · rw [hsame]
      exact hlocked
    · rcases dispatch_cases cfg origin c s with hsame | heffect
      · rw [Staking.step, hsame]
        exact hlocked
      · refine hlocked.effect hlock hs heffect fun controller l n ho hc hl hpos hminimum => ?_
        subst ho hc
        have hwf := hs.wellFormed controller l hl
        exact (withdraw_spares_iff hwf s.currentEra).mp (hspares hminimum l hl hpos)
    · rcases doSlash_bonds_cases cfg stash value s with hsame | ⟨controller, l, hb, hl, hstored⟩
      · rw [Staking.step, hsame]
        exact hlocked
      · rw [Staking.step, hstored]
        refine hlocked.store hlock hs hl (l.slash_stash _ _) fun hzero => ?_
        by_contra hne
        have hempty := ((hs.wellFormed controller l hl).slash_total_eq_zero_iff hne value
          cfg.minimumBalance).mp hzero
        have hspared := hspares controller hb l hl (by omega)
        omega

end Steps

/-! ## Runs -/

/-- The books are sound and the locks are right. -/
def Consistent (cfg : Config A) (s : State A) : Prop :=
  Sound (s.horizon cfg) s.bonds ∧ Locked s.bonds

omit [DecidableEq A] in
theorem Genesis.consistent {s : State A} (hs : Genesis s) : Consistent cfg s := by
  have hledger : ∀ c l, s.bonds.ledger c ≠ some l := by
    intro c l hl
    have hnone : s.bonds.ledger c = none := hs.ledger c
    rw [hnone] at hl
    cases hl
  refine ⟨⟨Index.Paired.empty hs.bonded hs.ledger, ?_⟩, ⟨?_, fun stash _ => hs.stakingLock stash⟩⟩
  · exact fun c l hl => absurd hl (hledger c l)
  · exact fun c l hl => absurd hl (hledger c l)

/-- **The books are consistent in every state of a run exactly when no step empties a ledger that
stays**: bonded stashes and ledgers lead to each other, ledgers add up and their chunks are in
order, and locks equal totals. -/
theorem consistent_iff (hlock : IgnoresZero cfg.setLock) {s : State A} (hs : Genesis s)
    (acts : List (Act A)) :
    (∀ n, Consistent cfg (Machine.run (step cfg) s (acts.take n))) ↔
      Machine.StepsMeet (step cfg) (SparesFunds cfg) s acts := by
  refine Machine.run_invariant_iff (fun t act ht => ?_) hs.consistent acts
  obtain ⟨hsound, hlocked⟩ := ht
  have hiff := hlocked.step_iff hlock hsound act
  exact ⟨fun h => hiff.mp h.2, fun h => ⟨hsound.step act, hiff.mpr h⟩⟩

/-- A currency whose `set_lock` leaves the lock as it is for a zero amount. -/
def lockingConfig (minimumBalance : ℕ) : Config ℕ :=
  { sampleConfig 4032 144000 (fun _ _ eraDuration => eraDuration) with
    minimumBalance := minimumBalance
    setLock := fun lock n => if n = 0 then lock else some n }

theorem lockingConfig_ignoresZero (minimumBalance : ℕ) :
    IgnoresZero (lockingConfig minimumBalance).setLock := fun _ _ => rfl

/-- A stash bonds, part of its stake is slashed, and the rest is unbonded. -/
def slashedInPart : List (Act ℕ) :=
  [.call (.signed 1) (.bond 2 1000 .Stash), .slash 1 400, .call (.signed 2) (.unbond 600)]

theorem consistent_slashedInPart : Consistent (lockingConfig 1)
    (Machine.run (step (lockingConfig 1)) sampleGenesis (slashedInPart.take 3)) := by
  refine (consistent_iff (lockingConfig_ignoresZero 1) sampleGenesis_genesis _).mpr ?_ 3
  refine ⟨trivial, ?_, trivial, trivial⟩
  intro controller hc l hl hpos
  cases hc
  cases hl
  exact .inl (by decide)

/-- A stash bonds and all its stake is slashed. -/
def slashedInFull : List (Act ℕ) :=
  [.call (.signed 1) (.bond 2 1000 .Stash), .slash 1 1000]

/-- A stash bonds, unbonds everything, and withdraws it three eras later. -/
def withdrawnInFull : List (Act ℕ) :=
  [.call (.signed 1) (.bond 2 1000 .Stash), .call (.signed 2) (.unbond 1000),
    .genesisSessions sampleElection sampleElection, .rotateSession 0 sampleElection,
    .rotateSession 0 sampleElection, .call (.signed 2) (.withdrawUnbonded 0)]

/-- **A lock outlives the funds it was for**: after a slash of all that was bonded, and after the
withdrawal of all that was bonded where the minimum balance is zero. -/
theorem lock_outlives_funds :
    ¬ Consistent (lockingConfig 1)
        (Machine.run (step (lockingConfig 1)) sampleGenesis slashedInFull) ∧
      ¬ Consistent (lockingConfig 0)
        (Machine.run (step (lockingConfig 0)) sampleGenesis withdrawnInFull) := by
  constructor
  · rintro ⟨-, hlocked⟩
    have hlock := hlocked.bonded 2 _ rfl
    revert hlock
    decide
  · rintro ⟨-, hlocked⟩
    have hlock := hlocked.bonded 2 _ rfl
    revert hlock
    decide

end Setheum.Staking
