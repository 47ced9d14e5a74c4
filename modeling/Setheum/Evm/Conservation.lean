import Setheum.Evm.Deposits

/-!
# Conservation of storage deposits over a transaction

* `StepOk` — when an act keeps the law. A frame inside others that is rolled back must have nothing
  booked: the rollback puts the chain back, but what the frames below it booked stays on the meters
  around it. A frame that is finished must find the reserves that its charge moves, and the
  outermost one must not have more booked than its limit.
* `step_invariant` — every such act keeps the invariant of a transaction.
* `rolledBack_restores` — with no condition at all, a transaction that is rolled back leaves the
  chain it found.
* `deposits_conserved` — a run of such acts that commits conserves the deposits.
-/

set_option autoImplicit false

namespace Setheum.Evm

open StorageMap

variable {A : Type} [DecidableEq A] {cfg : Config A} {origin : EvmAddress} {base s s' : Chain A}
  {limit : ℕ} {b : ℤ} {f f' : Frame A} {outer : List (Frame A)}

/-! ## What an act can do -/

theorem chargeThrough_eq (contract : EvmAddress) (used refunded : ℕ) (s : Chain A)
    (frames : List (Frame A)) :
    chargeThrough cfg origin contract used refunded s frames
      = (bookAll used refunded frames, chargeStorage cfg origin contract used refunded s) := by
  induction frames with
  | nil => rfl
  | cons f outer ih => rw [chargeThrough, ih, bookAll_cons]

/-- A frame that took too much storage is rolled back. -/
theorem leaveCommitted_outOfStorage
    (hlimit : f.meter.limit < f.meter.totalUsed - f.meter.totalRefunded) :
    leaveCommitted cfg origin f outer s = leaveRolledBack f outer := by
  rw [leaveCommitted, StorageMeter.finish, if_pos hlimit]

/-- A frame whose charge is refused is rolled back, and the charge stays booked. -/
theorem leaveCommitted_refused
    (hlimit : ¬ f.meter.limit < f.meter.totalUsed - f.meter.totalRefunded) {e : Reserves.Error}
    (hcharge : chargeStorage cfg origin f.meter.contract f.meter.selfUsed f.meter.selfRefunded s
      = .error e) :
    leaveCommitted cfg origin f outer s
      = leaveRolledBack f (bookAll f.meter.selfUsed f.meter.selfRefunded outer) := by
  rw [leaveCommitted, StorageMeter.finish, if_neg hlimit, chargeThrough_eq, hcharge]

theorem leaveCommitted_inner
    (hlimit : ¬ f.meter.limit < f.meter.totalUsed - f.meter.totalRefunded)
    (hcharge : chargeStorage cfg origin f.meter.contract f.meter.selfUsed f.meter.selfRefunded s
      = .ok s') (houter : outer ≠ []) :
    leaveCommitted cfg origin f outer s
      = ⟨s', bookAll f.meter.selfUsed f.meter.selfRefunded outer, .running⟩ := by
  have hisEmpty : outer.isEmpty = false := List.isEmpty_eq_false_iff.mpr houter
  rw [leaveCommitted, StorageMeter.finish, if_neg hlimit, chargeThrough_eq, hcharge]
  simp only [hisEmpty, Bool.false_eq_true, if_false]

theorem leaveCommitted_outermost
    (hlimit : ¬ f.meter.limit < f.meter.totalUsed - f.meter.totalRefunded)
    (hcharge : chargeStorage cfg origin f.meter.contract f.meter.selfUsed f.meter.selfRefunded s
      = .ok s') :
    leaveCommitted cfg origin f [] s
      = ⟨unreserveStorage cfg origin f.meter.newLimit f.meter.selfUsed f.meter.selfRefunded s',
          [], .committed⟩ := by
  rw [leaveCommitted, StorageMeter.finish, if_neg hlimit, chargeThrough_eq, hcharge]
  rfl

/-! ## The outermost frame -/

/-- The outermost frame has the limit and the chain of the beginning. -/
def FromBase (base : Chain A) (limit : ℕ) : List (Frame A) → Prop
  | [] => True
  | [root] => root.meter.limit = limit ∧ root.snapshot = base
  | _ :: g :: outer => FromBase base limit (g :: outer)

/-- What holds of a transaction whatever its frames do. -/
structure Rooted (base : Chain A) (limit : ℕ) (e : Execution A) : Prop where
  fromBase : FromBase base limit e.frames
  running : e.frames ≠ [] → e.status = .running
  rolledBack : e.status = .rolledBack → e.chain = base

omit [DecidableEq A] in
theorem FromBase.tail (h : FromBase base limit (f :: outer)) : FromBase base limit outer := by
  cases outer with
  | nil => trivial
  | cons g outer => exact h

omit [DecidableEq A] in
/-- What a frame counts is not asked of the outermost one. -/
theorem FromBase.head (h : FromBase base limit (f :: outer))
    (hlimit : f'.meter.limit = f.meter.limit) (hsnapshot : f'.snapshot = f.snapshot) :
    FromBase base limit (f' :: outer) := by
  cases outer with
  | nil => exact ⟨hlimit.trans h.1, hsnapshot.trans h.2⟩
  | cons g outer => exact h

omit [DecidableEq A] in
theorem FromBase.through (h : FromBase base limit (f :: outer)) (used refunded : ℕ) :
    FromBase base limit (f :: bookAll used refunded outer) := by
  induction outer generalizing f with
  | nil => exact h
  | cons g outer ih => exact ih (FromBase.head h rfl rfl)

omit [DecidableEq A] in
theorem Rooted.of_running (h : FromBase base limit outer) (s : Chain A) :
    Rooted base limit ⟨s, outer, .running⟩ :=
  ⟨h, fun _ => rfl, nofun⟩

omit [DecidableEq A] in
theorem Rooted.leaveRolledBack (h : FromBase base limit (f :: outer)) :
    Rooted base limit (leaveRolledBack f outer) := by
  cases outer with
  | nil => exact ⟨trivial, fun hne => absurd rfl hne, fun _ => h.2⟩
  | cons g outer => exact Rooted.of_running h.tail _

theorem Rooted.leaveCommitted (h : FromBase base limit (f :: outer)) (s : Chain A) :
    Rooted base limit (leaveCommitted cfg origin f outer s) := by
  by_cases hlimit : f.meter.limit < f.meter.totalUsed - f.meter.totalRefunded
  · rw [leaveCommitted_outOfStorage hlimit]
    exact Rooted.leaveRolledBack h
  · cases hcharge : chargeStorage cfg origin f.meter.contract f.meter.selfUsed
      f.meter.selfRefunded s with
    | error e =>
        rw [leaveCommitted_refused hlimit hcharge]
        exact Rooted.leaveRolledBack (h.through _ _)
    | ok s' =>
        by_cases houter : outer = []
        · subst houter
          rw [leaveCommitted_outermost hlimit hcharge]
          exact ⟨trivial, fun hne => absurd rfl hne, nofun⟩
        · rw [leaveCommitted_inner hlimit hcharge houter]
          exact Rooted.of_running (h.through _ _).tail _

/-- What a write and the code of a new contract leave of the frame they are counted on. -/
structure SameFrame (f f' : Frame A) : Prop where
  limit : f'.meter.limit = f.meter.limit
  booked : f'.meter.booked = f.meter.booked
  snapshot : f'.snapshot = f.snapshot

omit [DecidableEq A] in
/-- A write removes a slot, adds one, or does neither. -/
theorem setStorage_cases {index value : H256} (h : setStorage f index value s = some (f', s')) :
    (value = 0 ∧ s.storage f.meter.contract index ≠ 0 ∧
        f' = { f with meter := f.meter.refund STORAGE_SIZE } ∧
        s' = (s.write f.meter.contract index value).shrinkContract f.meter.contract STORAGE_SIZE) ∨
      (f' = { f with meter := f.meter.charge STORAGE_SIZE } ∧
        s' = (s.write f.meter.contract index value).growContract f.meter.contract STORAGE_SIZE) ∨
      f' = f ∧ s' = s.write f.meter.contract index value := by
  unfold setStorage at h
  split at h
  · cases h
  · split at h
    · rename_i hremoved
      cases h
      exact .inl ⟨hremoved.1, hremoved.2, rfl, rfl⟩
    · split at h
      · cases h
        exact .inr (.inl ⟨rfl, rfl⟩)
      · cases h
        exact .inr (.inr ⟨rfl, rfl⟩)

omit [DecidableEq A] in
theorem setStorage_eq_none {index value : H256} (h : setStorage f index value s = none) :
    f.isStatic := by
  unfold setStorage at h
  split_ifs at h with hstatic
  exact hstatic

omit [DecidableEq A] in
theorem setStorage_isStatic {index value : H256} {r : Frame A × Chain A}
    (h : setStorage f index value s = some r) : f.isStatic = false := by
  by_contra hstatic
  rw [Bool.not_eq_false] at hstatic
  rw [setStorage, if_pos hstatic] at h
  cases h

omit [DecidableEq A] in
theorem setStorage_sameFrame {index value : H256}
    (h : setStorage f index value s = some (f', s')) : SameFrame f f' := by
  obtain ⟨_, _, rfl, _⟩ | ⟨rfl, _⟩ | ⟨rfl, _⟩ := setStorage_cases h
  · exact ⟨rfl, StorageMeter.booked_refund _ _, rfl⟩
  · exact ⟨rfl, StorageMeter.booked_charge _ _, rfl⟩
  · exact ⟨rfl, rfl, rfl⟩

omit [DecidableEq A] in
theorem onContractInitialization_sameFrame {codeSize : ℕ}
    (h : onContractInitialization cfg codeSize f s = some (f', s')) : SameFrame f f' := by
  unfold onContractInitialization at h
  split at h
  · cases h
  · cases h
    exact ⟨rfl, StorageMeter.booked_charge _ _, rfl⟩

theorem transferValue_reserved {t : Transfer} (h : transferValue cfg t s = .ok s') :
    s'.currency.reserved = s.currency.reserved ∧
      s'.contractStorageSizes = s.contractStorageSizes := by
  unfold transferValue at h
  split at h
  · rename_i r htransfer
    cases h
    exact ⟨Reserves.transfer_reserved htransfer, rfl⟩
  · cases h

variable (cfg) in
/-- A call or a creation enters a frame, or leaves the transaction as it was. -/
theorem enter_cases (contract : EvmAddress) (transfer : Option Transfer) (isStatic creates : Bool)
    (f : Frame A) (outer : List (Frame A)) (s : Chain A) :
    enter cfg contract transfer isStatic creates f outer s = ⟨s, f :: outer, .running⟩ ∨
      ∃ s', s'.currency.reserved = s.currency.reserved ∧
        s'.contractStorageSizes = s.contractStorageSizes ∧
        enter cfg contract transfer isStatic creates f outer s
          = ⟨s', ⟨f.meter.childMeter contract, isStatic, creates, s⟩ :: f :: outer, .running⟩ := by
  unfold enter
  cases transfer with
  | none => exact .inr ⟨s, rfl, rfl, rfl⟩
  | some t =>
      cases htransfer : transferValue cfg t s with
      | ok s' =>
          right
          obtain ⟨hreserved, hsizes⟩ := transferValue_reserved htransfer
          refine ⟨s', hreserved, hsizes, ?_⟩
          simp only [Option.elim_some, htransfer]
      | error e =>
          left
          simp only [Option.elim_some, htransfer]

theorem Rooted.enter (h : FromBase base limit (f :: outer)) (contract : EvmAddress)
    (transfer : Option Transfer) (isStatic creates : Bool) (s : Chain A) :
    Rooted base limit (enter cfg contract transfer isStatic creates f outer s) := by
  obtain heq | ⟨s', -, -, heq⟩ := enter_cases cfg contract transfer isStatic creates f outer s
  · rw [heq]
    exact Rooted.of_running h s
  · rw [heq]
    exact ⟨h, fun _ => rfl, nofun⟩

/-- **No act loses the chain of the beginning.** -/
theorem step_rooted {e : Execution A} (h : Rooted base limit e) (act : Act) :
    Rooted base limit (step cfg origin e act) := by
  unfold step
  split
  · exact h
  · rename_i f outer hframes
    have hbase : FromBase base limit (f :: outer) := hframes ▸ h.fromBase
    split
    · split
      · rename_i hset
        have hsame := setStorage_sameFrame hset
        exact Rooted.of_running (hbase.head hsame.limit hsame.snapshot) _
      · exact Rooted.leaveRolledBack hbase
    · split
      · exact h
      · exact Rooted.enter hbase _ _ _ _ _
    · split
      · exact h
      · exact Rooted.enter hbase _ _ _ _ _
    · split
      · split
        · rename_i hinit
          have hsame := onContractInitialization_sameFrame hinit
          exact Rooted.leaveCommitted (hbase.head hsame.limit hsame.snapshot) _
        · exact Rooted.leaveRolledBack hbase
      · exact Rooted.leaveCommitted hbase _
    · exact Rooted.leaveRolledBack hbase

theorem reserveStorage_reserved (h : reserveStorage cfg origin limit s = .ok s') :
    s'.contractStorageSizes = s.contractStorageSizes ∧ ∀ a, s'.currency.reserved a
      = s.currency.reserved a + if a = cfg.accountId origin then deposit cfg limit else 0 := by
  unfold reserveStorage at h
  split at h
  · rename_i hzero
    cases h
    refine ⟨rfl, fun a => ?_⟩
    rw [hzero, deposit, Nat.mul_zero, ite_self, Nat.add_zero]
  · split at h
    · rename_i r hreserve
      cases h
      exact ⟨rfl, Reserves.reserve_reserved hreserve⟩
    · cases h

variable (cfg origin) in
/-- A transaction starts with its limit reserved, or is rolled back at once. -/
theorem begin_cases (contract : EvmAddress) (transfer : Transfer) (creates : Bool) (limit : ℕ)
    (s : Chain A) :
    begin cfg origin contract transfer creates limit s = ⟨s, [], .rolledBack⟩ ∨
      ∃ s', s'.contractStorageSizes = s.contractStorageSizes ∧
        (∀ a, s'.currency.reserved a
          = s.currency.reserved a + if a = cfg.accountId origin then deposit cfg limit else 0) ∧
        begin cfg origin contract transfer creates limit s
          = ⟨s', [⟨StorageMeter.new contract limit, false, creates, s⟩], .running⟩ := by
  unfold begin
  split
  · rename_i s₁ hreserve
    obtain ⟨hsizes, hreserved⟩ := reserveStorage_reserved hreserve
    split
    · rename_i s₂ htransfer
      obtain ⟨hreserved', hsizes'⟩ := transferValue_reserved htransfer
      right
      exact ⟨s₂, hsizes'.trans hsizes, fun a => hreserved' ▸ hreserved a, rfl⟩
    · exact .inl rfl
  · exact .inl rfl

theorem begin_rooted (contract : EvmAddress) (transfer : Transfer) (creates : Bool) (limit : ℕ)
    (s : Chain A) : Rooted s limit (begin cfg origin contract transfer creates limit s) := by
  obtain heq | ⟨s', -, -, heq⟩ := begin_cases cfg origin contract transfer
    creates limit s
  · rw [heq]
    exact ⟨trivial, fun hne => absurd rfl hne, fun _ => rfl⟩
  · rw [heq]
    exact ⟨⟨rfl, rfl⟩, fun _ => rfl, nofun⟩

/-- **A transaction that is rolled back leaves the chain it found.** -/
theorem rolledBack_restores (contract : EvmAddress) (transfer : Transfer) (creates : Bool)
    (limit : ℕ) (s : Chain A) (acts : List Act)
    (hend : (Machine.run (step cfg origin)
      (begin cfg origin contract transfer creates limit s) acts).status = .rolledBack) :
    (Machine.run (step cfg origin)
      (begin cfg origin contract transfer creates limit s) acts).chain = s := by
  have hbegin : Rooted s limit (begin cfg origin contract transfer creates limit s) :=
    begin_rooted contract transfer creates limit s
  have hrun : Rooted s limit (Machine.run (step cfg origin)
      (begin cfg origin contract transfer creates limit s) acts) :=
    Machine.run_invariant_always (P := Rooted s limit) (fun e act he => step_rooted he act) hbegin
      acts
  exact hrun.rolledBack hend

/-! ## Acts that keep the law -/

variable (cfg origin)

/-- A frame that is rolled back is the outermost one or has nothing booked. -/
def DropsNothing (f : Frame A) (outer : List (Frame A)) : Prop :=
  outer = [] ∨ f.meter.booked = 0

/-- A frame that is finished is dropped without a trace, also when the charge is refused, or the
charge finds what it moves; and the outermost frame has at most its limit booked. -/
def Settles (f : Frame A) (outer : List (Frame A)) (s : Chain A) : Prop :=
  if f.meter.limit < f.meter.totalUsed - f.meter.totalRefunded then DropsNothing f outer
  else if (chargeStorage cfg origin f.meter.contract f.meter.selfUsed f.meter.selfRefunded s).isOk
  then Covered cfg origin f.meter s ∧ (outer = [] → f.meter.booked ≤ f.meter.limit)
  else outer = [] ∨ f.meter.usedStorage = 0

/-- The condition under which an act keeps the law. -/
def StepOk (e : Execution A) (act : Act) : Prop :=
  match e.frames with
  | [] => True
  | f :: outer =>
      match act with
      | .setStorage index value =>
          if f.isStatic then DropsNothing f outer
          else value = 0 → e.chain.storage f.meter.contract index ≠ 0 →
            STORAGE_SIZE ≤ e.chain.storageSize f.meter.contract
      | .call _ _ _ => True
      | .create _ _ => True
      | .succeed outLen =>
          if f.creates then
            match onContractInitialization cfg outLen f e.chain with
            | some (f', s') => Settles cfg origin f' outer s'
            | none => DropsNothing f outer
          else Settles cfg origin f outer e.chain
      | .rollback => DropsNothing f outer

instance (f : Frame A) (outer : List (Frame A)) : Decidable (DropsNothing f outer) :=
  inferInstanceAs (Decidable (outer = [] ∨ f.meter.booked = 0))

instance (m : StorageMeter) (s : Chain A) : Decidable (Covered cfg origin m s) :=
  inferInstanceAs (Decidable (_ ∨ _))

instance (f : Frame A) (outer : List (Frame A)) (s : Chain A) :
    Decidable (Settles cfg origin f outer s) :=
  inferInstanceAs (Decidable
    (if f.meter.limit < f.meter.totalUsed - f.meter.totalRefunded then DropsNothing f outer
    else if (chargeStorage cfg origin f.meter.contract f.meter.selfUsed f.meter.selfRefunded s).isOk
    then Covered cfg origin f.meter s ∧ (outer = [] → f.meter.booked ≤ f.meter.limit)
    else outer = [] ∨ f.meter.usedStorage = 0))

instance StepOk.decidable : ∀ (e : Execution A) (act : Act), Decidable (StepOk cfg origin e act)
  | ⟨_, [], _⟩, _ => isTrue trivial
  | ⟨s, f :: outer, _⟩, .setStorage index value =>
      inferInstanceAs (Decidable (if f.isStatic then DropsNothing f outer
        else value = 0 → s.storage f.meter.contract index ≠ 0 →
          STORAGE_SIZE ≤ s.storageSize f.meter.contract))
  | ⟨_, _ :: _, _⟩, .call _ _ _ => isTrue trivial
  | ⟨_, _ :: _, _⟩, .create _ _ => isTrue trivial
  | ⟨s, f :: outer, _⟩, .succeed outLen =>
      have : Decidable (match onContractInitialization cfg outLen f s with
          | some (f', s') => Settles cfg origin f' outer s'
          | none => DropsNothing f outer) :=
        match onContractInitialization cfg outLen f s with
        | some (f', s') => inferInstanceAs (Decidable (Settles cfg origin f' outer s'))
        | none => inferInstanceAs (Decidable (DropsNothing f outer))
      inferInstanceAs (Decidable (if f.creates then _ else Settles cfg origin f outer s))
  | ⟨_, f :: outer, _⟩, .rollback => inferInstanceAs (Decidable (DropsNothing f outer))

/-- What holds of a transaction whose acts meet the condition. -/
structure Invariant (base : Chain A) (limit : ℕ) (e : Execution A) : Prop extends
    Rooted base limit e where
  lawful : e.frames ≠ [] → ∃ b, Law cfg origin base limit b e.frames e.chain ∧
    Entered cfg origin base limit b e.frames
  conserved : e.status = .committed → Conserved cfg origin limit base e.chain

variable {cfg origin}

omit [DecidableEq A] in
/-- A write keeps the law, if the slot it removes was recorded. -/
theorem Law.setStorage (h : Law cfg origin base limit b (f :: outer) s) {index value : H256}
    (hset : setStorage f index value s = some (f', s'))
    (hrecorded : value = 0 → s.storage f.meter.contract index ≠ 0 →
      STORAGE_SIZE ≤ s.storageSize f.meter.contract) :
    Law cfg origin base limit b (f' :: outer) s' := by
  have hwrite : Law cfg origin base limit b (f :: outer)
      (s.write f.meter.contract index value) := h.congr rfl rfl
  obtain ⟨hvalue, hslot, rfl, rfl⟩ | ⟨rfl, rfl⟩ | ⟨rfl, rfl⟩ := setStorage_cases hset
  · exact hwrite.shrink (hrecorded hvalue hslot)
  · exact hwrite.grow STORAGE_SIZE
  · exact hwrite

omit [DecidableEq A] in
theorem Law.onContractInitialization (h : Law cfg origin base limit b (f :: outer) s)
    {codeSize : ℕ} (hinit : onContractInitialization cfg codeSize f s = some (f', s')) :
    Law cfg origin base limit b (f' :: outer) s' := by
  unfold Evm.onContractInitialization at hinit
  split at hinit
  · cases hinit
  · cases hinit
    exact h.grow _

omit [DecidableEq A] in
/-- Acts in the innermost frame that book nothing leave what the frames were entered with. -/
theorem Entered.head (h : Entered cfg origin base limit b (f :: outer)) (hsame : SameFrame f f') :
    Entered cfg origin base limit b (f' :: outer) := by
  cases outer with
  | nil => exact hsame.booked.trans h
  | cons g outer =>
      refine ⟨?_, h.2⟩
      rw [hsame.booked, hsame.snapshot]
      exact h.1

omit [DecidableEq A] in
/-- A frame inside others that has nothing booked takes its law along when it is dropped. -/
theorem Entered.drop {g : Frame A} (h : Entered cfg origin base limit b (f :: g :: outer))
    (hbooked : f.meter.booked = 0) :
    Law cfg origin base limit b (g :: outer) f.snapshot := by
  have hlaw := h.1
  rwa [hbooked, sub_zero] at hlaw

variable (cfg origin) in
theorem unreserveStorage_reserved (m : StorageMeter) (s : Chain A) :
    (unreserveStorage cfg origin m.newLimit m.selfUsed m.selfRefunded s).contractStorageSizes
        = s.contractStorageSizes ∧
      ∀ c, (unreserveStorage cfg origin m.newLimit m.selfUsed m.selfRefunded s).reserved cfg c
        + (if c = origin then min (deposit cfg (m.newLimit + m.selfRefunded - m.selfUsed))
            (s.reserved cfg origin) else 0) = s.reserved cfg c := by
  unfold unreserveStorage
  by_cases hunused : m.newLimit + m.selfRefunded - m.selfUsed = 0
  · refine ⟨by simp only [hunused, if_true], fun c => ?_⟩
    simp only [hunused, if_true, deposit, Nat.mul_zero, Nat.zero_min, ite_self, Nat.add_zero]
  · refine ⟨by simp only [hunused, if_false], fun c => ?_⟩
    have hreserved := Reserves.unreserve_reserved (cfg.accountId origin)
      (deposit cfg (m.newLimit + m.selfRefunded - m.selfUsed)) s.currency (cfg.accountId c)
    simp only [cfg.accountId_injective.eq_iff] at hreserved
    simp only [hunused, if_false]
    exact hreserved

/-- **The books close**: with the unused limit unreserved, the law of the last charge is the law
of the transaction. -/
theorem Law.conserved {m : StorageMeter}
    (h : Law cfg origin base m.limit (m.booked + m.selfNet) [] s)
    (hbooked : m.booked ≤ m.limit) (hlimit : ¬ m.limit < m.totalUsed - m.totalRefunded) :
    Conserved cfg origin m.limit base
      (unreserveStorage cfg origin m.newLimit m.selfUsed m.selfRefunded s) := by
  obtain ⟨hsizes, hreserved⟩ := unreserveStorage_reserved cfg origin m s
  have hnew := m.newLimit_eq hbooked
  have hnet : m.booked + m.selfNet = m.usedStorage := by
    simp only [StorageMeter.booked]
    omega
  have hle : m.usedStorage ≤ m.limit := by
    simp only [StorageMeter.usedStorage]
    omega
  have hunused : ((m.newLimit + m.selfRefunded - m.selfUsed : ℕ) : ℤ)
      = m.limit - (m.booked + m.selfNet) := by
    simp only [StorageMeter.selfNet] at *
    omega
  have horigin : s.reserved cfg origin = base.reserved cfg origin
      + deposit cfg (m.newLimit + m.selfRefunded - m.selfUsed) := by
    have hlaw := h.origin_reserved
    rw [← hunused] at hlaw
    exact_mod_cast hlaw
  refine ⟨?_, fun c hc => ?_, ?_⟩
  · have hself := hreserved origin
    rw [if_pos rfl] at hself
    omega
  · have hother := hreserved c
    rw [if_neg hc, Nat.add_zero] at hother
    have hsize : (unreserveStorage cfg origin m.newLimit m.selfUsed m.selfRefunded s).storageSize c
        = s.storageSize c := by
      rw [Chain.storageSize, hsizes, ← Chain.storageSize]
    rw [hother, h.contract_reserved c hc, hsize, pending_nil]
    linear_combination
  · have htotal := h.total
    rw [pendingTotal_nil] at htotal
    rw [Chain.totalSize, hsizes, ← Chain.totalSize]
    omega

omit [DecidableEq A] in
theorem Invariant.of_running (hbase : FromBase base limit (f :: outer))
    (hlaw : Law cfg origin base limit b (f :: outer) s)
    (hentered : Entered cfg origin base limit b (f :: outer)) :
    Invariant cfg origin base limit ⟨s, f :: outer, .running⟩ :=
  ⟨Rooted.of_running hbase s, fun _ => ⟨b, hlaw, hentered⟩, nofun⟩

omit [DecidableEq A] in
/-- Dropping a frame with nothing booked keeps the invariant. -/
theorem Invariant.leaveRolledBack (hbase : FromBase base limit (f :: outer))
    (hentered : Entered cfg origin base limit b (f :: outer)) (hdrop : DropsNothing f outer) :
    Invariant cfg origin base limit (leaveRolledBack f outer) := by
  cases outer with
  | nil => exact ⟨Rooted.leaveRolledBack hbase, fun hne => absurd rfl hne, nofun⟩
  | cons g outer =>
      have hbooked : f.meter.booked = 0 := hdrop.resolve_left (List.cons_ne_nil g outer)
      exact Invariant.of_running hbase.tail (hentered.drop hbooked) hentered.2

omit [DecidableEq A] in
/-- A frame that is dropped after its charge was booked keeps the invariant if it used nothing. -/
theorem Invariant.leaveRefused (hbase : FromBase base limit (f :: outer))
    (hentered : Entered cfg origin base limit b (f :: outer))
    (hdrop : outer = [] ∨ f.meter.usedStorage = 0) :
    Invariant cfg origin base limit
      (Evm.leaveRolledBack f (bookAll f.meter.selfUsed f.meter.selfRefunded outer)) := by
  cases outer with
  | nil => exact Invariant.leaveRolledBack hbase hentered (.inl rfl)
  | cons g outer =>
      have hused : f.meter.usedStorage = 0 := hdrop.resolve_left (List.cons_ne_nil g outer)
      have hb : b - f.meter.booked = b + (f.meter.selfUsed - f.meter.selfRefunded) := by
        simp only [StorageMeter.booked, StorageMeter.selfNet]
        omega
      have hlaw := hentered.1.through f.meter.selfUsed f.meter.selfRefunded
      rw [hb] at hlaw
      exact Invariant.of_running (hbase.through _ _).tail hlaw (hentered.2.through _ _)

/-- **Finishing a frame that settles keeps the invariant.** -/
theorem Invariant.leaveCommitted (hbase : FromBase base limit (f :: outer))
    (hlaw : Law cfg origin base limit b (f :: outer) s)
    (hentered : Entered cfg origin base limit b (f :: outer))
    (hsettles : Settles cfg origin f outer s) :
    Invariant cfg origin base limit (leaveCommitted cfg origin f outer s) := by
  unfold Settles at hsettles
  by_cases hlimit : f.meter.limit < f.meter.totalUsed - f.meter.totalRefunded
  · rw [if_pos hlimit] at hsettles
    rw [leaveCommitted_outOfStorage hlimit]
    exact Invariant.leaveRolledBack hbase hentered hsettles
  · rw [if_neg hlimit] at hsettles
    cases hcharge : chargeStorage cfg origin f.meter.contract f.meter.selfUsed
      f.meter.selfRefunded s with
    | error e =>
        rw [hcharge] at hsettles
        rw [leaveCommitted_refused hlimit hcharge]
        exact Invariant.leaveRefused hbase hentered hsettles
    | ok s' =>
        rw [hcharge] at hsettles
        obtain ⟨hcovered, hbooked⟩ := hsettles
        have hcharged := hlaw.charge hcovered hcharge
        cases outer with
        | nil =>
            have hb : f.meter.booked = b := hentered
            have hbegun : f.meter.limit = limit := hbase.1
            subst hb hbegun
            rw [leaveCommitted_outermost hlimit hcharge]
            refine ⟨⟨trivial, fun hne => absurd rfl hne, nofun⟩, fun hne => absurd rfl hne, ?_⟩
            intro _
            exact hcharged.conserved (hbooked rfl) hlimit
        | cons g outer =>
            rw [leaveCommitted_inner hlimit hcharge (List.cons_ne_nil g outer)]
            exact Invariant.of_running (hbase.through _ _).tail hcharged (hentered.2.through _ _)

theorem Invariant.enter (hbase : FromBase base limit (f :: outer))
    (hlaw : Law cfg origin base limit b (f :: outer) s)
    (hentered : Entered cfg origin base limit b (f :: outer)) (contract : EvmAddress)
    (transfer : Option Transfer) (isStatic creates : Bool) :
    Invariant cfg origin base limit
      (enter cfg contract transfer isStatic creates f outer s) := by
  obtain heq | ⟨s', hreserved, hsizes, heq⟩ :=
    enter_cases cfg contract transfer isStatic creates f outer s
  · rw [heq]
    exact Invariant.of_running hbase hlaw hentered
  · rw [heq]
    have hlaw' : Law cfg origin base limit b (f :: outer) s' := hlaw.congr hreserved hsizes
    refine Invariant.of_running hbase (hlaw'.enter rfl) ⟨?_, hentered⟩
    rwa [show (f.meter.childMeter contract).booked = 0 from rfl, sub_zero]

/-- **Every act that meets the condition keeps the invariant.** -/
theorem step_invariant {e : Execution A} (h : Invariant cfg origin base limit e) {act : Act}
    (hok : StepOk cfg origin e act) : Invariant cfg origin base limit (step cfg origin e act) := by
  unfold StepOk at hok
  unfold step
  split
  · exact h
  · rename_i f outer hframes
    rw [hframes] at hok
    have hbase : FromBase base limit (f :: outer) := hframes ▸ h.fromBase
    have hne : e.frames ≠ [] := by simp [hframes]
    obtain ⟨b, hlaw, hentered⟩ := h.lawful hne
    rw [hframes] at hlaw hentered
    cases act with
    | setStorage index value =>
        simp only at hok ⊢
        cases hset : setStorage f index value e.chain with
        | none =>
            have hstatic : f.isStatic := setStorage_eq_none hset
            simp only [hstatic, if_true] at hok
            exact Invariant.leaveRolledBack hbase hentered hok
        | some fs =>
            have hsame := setStorage_sameFrame hset
            simp only [setStorage_isStatic hset, Bool.false_eq_true, if_false] at hok
            exact Invariant.of_running (hbase.head hsame.limit hsame.snapshot)
              (hlaw.setStorage hset hok) (hentered.head hsame)
    | call contract transfer isStatic =>
        simp only
        split
        · exact h
        · exact Invariant.enter hbase hlaw hentered _ _ _ _
    | create contract value =>
        simp only
        split
        · exact h
        · exact Invariant.enter hbase hlaw hentered _ _ _ _
    | succeed outLen =>
        simp only at hok ⊢
        by_cases hcreates : f.creates
        · rw [if_pos hcreates] at hok ⊢
          cases hinit : onContractInitialization cfg outLen f e.chain with
          | none =>
              rw [hinit] at hok
              exact Invariant.leaveRolledBack hbase hentered hok
          | some fs =>
              have hsame := onContractInitialization_sameFrame hinit
              rw [hinit] at hok
              exact Invariant.leaveCommitted (hbase.head hsame.limit hsame.snapshot)
                (hlaw.onContractInitialization hinit) (hentered.head hsame) hok
        · rw [if_neg hcreates] at hok ⊢
          exact Invariant.leaveCommitted hbase hlaw hentered hok
    | rollback => exact Invariant.leaveRolledBack hbase hentered hok

/-- The invariant holds when a transaction begins. -/
theorem begin_invariant (contract : EvmAddress) (transfer : Transfer) (creates : Bool) (limit : ℕ)
    (s : Chain A) :
    Invariant cfg origin s limit (begin cfg origin contract transfer creates limit s) := by
  obtain heq | ⟨s', hsizes, hreserved, heq⟩ := begin_cases cfg origin
    contract transfer creates limit s
  · rw [heq]
    exact ⟨⟨trivial, fun hne => absurd rfl hne, fun _ => rfl⟩, fun hne => absurd rfl hne, nofun⟩
  · rw [heq]
    refine Invariant.of_running (b := 0) ⟨rfl, rfl⟩ (Law.enter ?_ rfl) rfl
    have hr : ∀ c, s'.reserved cfg c
        = s.reserved cfg c + if c = origin then deposit cfg limit else 0 := fun c => by
      have hself := hreserved (cfg.accountId c)
      simp only [cfg.accountId_injective.eq_iff] at hself
      exact hself
    refine ⟨?_, fun c hc => ?_, ?_⟩
    · rw [hr, if_pos rfl, Nat.cast_add, deposit, Nat.cast_mul, sub_zero]
    · rw [hr, if_neg hc, Chain.storageSize, hsizes]
      simp [Chain.storageSize]
    · simp [Chain.totalSize, hsizes]

/-- **Conservation of storage deposits.** A transaction that is rolled back leaves the chain it
found; one that commits, whose acts all meet the condition, gives the origin its reserve back,
changes every contract's reserve by the deposit of its change of size, and stays in its limit. -/
theorem deposits_conserved (cfg : Config A) (origin contract : EvmAddress) (transfer : Transfer)
    (creates : Bool) (limit : ℕ) (s : Chain A) (acts : List Act) :
    let e := begin cfg origin contract transfer creates limit s
    let e' := Machine.run (step cfg origin) e acts
    (e'.status = .rolledBack → e'.chain = s) ∧
      (Machine.StepsMeet (step cfg origin) (StepOk cfg origin) e acts → e'.status = .committed →
        Conserved cfg origin limit s e'.chain) := by
  intro e e'
  refine ⟨rolledBack_restores contract transfer creates limit s acts, ?_⟩
  intro hok hcommitted
  have hrun : Invariant cfg origin s limit e' :=
    Machine.run_invariant (P := Invariant cfg origin s limit)
      (fun e act he hact => step_invariant he hact)
      (begin_invariant contract transfer creates limit s) hok
  exact hrun.conserved hcommitted

/-! ## Two transactions -/

section Sample

/-- Ten units a byte; accounts are addresses and nothing is refused. -/
def sampleConfig : Config EvmAddress where
  rules := Reserves.Rules.permissive
  accountId := id
  accountId_injective := Function.injective_id
  storageDepositPerByte := 10
  newContractExtraBytes := 100
  maxCodeSize := 1000

/-- Address 1 has funds, addresses 2 to 4 are contracts without storage. -/
def sampleChain : Chain EvmAddress where
  currency := { free := fun a => if a = 1 then 10000 else 0, reserved := fun _ => 0 }
  contractStorageSizes := ∅
  accountStorages := ∅

/-- Contract 2 writes a slot and calls contract 3, which writes one; then 2 clears its own. -/
def sampleActs : List Act :=
  [.setStorage 0 7, .call 3 none false, .setStorage 0 7, .succeed 0, .setStorage 0 0, .succeed 0]

/-- Contract 2 calls 3, which calls 4; 4 writes a slot and succeeds, 3 reverts, 2 succeeds. -/
def revertedActs : List Act :=
  [.call 3 none false, .call 4 none false, .setStorage 0 7, .succeed 0, .rollback, .succeed 0]

/-- The state after some acts of a call of contract 2 by address 1 with a limit of 200 bytes. -/
def sampleRun (acts : List Act) : Execution EvmAddress :=
  Machine.run (step sampleConfig 1) (begin sampleConfig 1 2 ⟨1, 2, 0⟩ false 200 sampleChain) acts

theorem conserved_sampleActs :
    (sampleRun sampleActs).status = .committed ∧
      Conserved sampleConfig 1 200 sampleChain (sampleRun sampleActs).chain := by
  have hcommitted : (sampleRun sampleActs).status = .committed := by decide +kernel
  exact ⟨hcommitted, (deposits_conserved sampleConfig 1 2 ⟨1, 2, 0⟩ false 200 sampleChain
    sampleActs).2 (by decide +kernel) hcommitted⟩

/-- A transaction that commits after a frame was reverted that had let another write a slot: the
deposit of the slot stays reserved on the origin. -/
theorem deposit_lost_on_revert :
    (sampleRun revertedActs).status = .committed ∧
      (sampleRun revertedActs).chain.reserved sampleConfig 1
        = sampleChain.reserved sampleConfig 1 + 640 ∧
      ¬ Conserved sampleConfig 1 200 sampleChain (sampleRun revertedActs).chain := by
  have hreserved : (sampleRun revertedActs).chain.reserved sampleConfig 1
      = sampleChain.reserved sampleConfig 1 + 640 := by decide +kernel
  refine ⟨by decide +kernel, hreserved, fun h => ?_⟩
  have hsame := h.origin_reserved
  omega

end Sample

end Setheum.Evm
