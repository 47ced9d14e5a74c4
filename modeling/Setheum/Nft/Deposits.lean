import Setheum.Nft.Model

/-!
# What is reserved for classes and tokens

A token's deposit is reserved with its owner and moves along with the token. The deposits of a
class, its own and that of its proxy, are reserved with the account that owns it.

* `Sound` — every reserved balance is the deposits recorded for the account.
* `doTransfer_sound`, `doBurn_sound`, … — each operation changes both alike.
* `reserved_of_run` — after every run, and what burning and destroying release.
-/

set_option autoImplicit false

namespace Setheum.Nft

open StorageMap

variable {A N P : Type} [DecidableEq A] {cfg : Config A N P} {s s' : State A N P} {u : Unit}

/-! ## The other pallets -/

omit [DecidableEq A] in
theorem onBalances_ok {f : Reserves A → Except Reserves.Error (Reserves A)}
    (h : (onBalances f : NftM A N P Unit).run s = .ok u s') :
    ∃ r, f s.balances = .ok r ∧ s' = { s with balances := r } := by
  obtain ⟨r, hr, rfl⟩ := Dispatch.run_onComponent_ok.mp h
  exact ⟨r, hr, rfl⟩

theorem currencyTransfer_ok {source dest : A} {n : ℕ}
    (h : (currencyTransfer cfg source dest n).run s = .ok u s') :
    ∃ r, r.reserved = s.balances.reserved ∧ s' = { s with balances := r } := by
  obtain ⟨r, hr, rfl⟩ := onBalances_ok h
  exact ⟨r, Reserves.transfer_reserved hr, rfl⟩

theorem reserve_ok {who : A} {n : ℕ} (h : (reserve cfg who n).run s = .ok u s') :
    ∃ r, (∀ a, r.reserved a = s.balances.reserved a + if a = who then n else 0) ∧
      s' = { s with balances := r } := by
  obtain ⟨r, hr, rfl⟩ := onBalances_ok h
  exact ⟨r, Reserves.reserve_reserved hr, rfl⟩

omit [DecidableEq A] in
theorem onNft_ok {f : N → Option N} (h : (onNft f : NftM A N P Unit).run s = .ok u s') :
    ∃ n, f s.nft = some n ∧ s' = { s with nft := n } := by
  obtain ⟨n, hn, rfl⟩ := Dispatch.run_onComponent_ok.mp h
  cases hf : f s.nft with
  | none =>
      rw [hf] at hn
      cases hn
  | some n' =>
      rw [hf] at hn
      cases hn
      exact ⟨_, rfl, rfl⟩

omit [DecidableEq A] in
theorem onProxy_ok {f : P × Reserves A → Option (P × Reserves A)}
    (h : (onProxy f : NftM A N P Unit).run s = .ok u s') :
    ∃ p r, f (s.proxy, s.balances) = some (p, r) ∧
      s' = { s with proxy := p, balances := r } := by
  obtain ⟨⟨p, r⟩, hpr, rfl⟩ := Dispatch.run_onComponent_ok.mp h
  cases hf : f (s.proxy, s.balances) with
  | none =>
      rw [hf] at hpr
      cases hpr
  | some pr' =>
      rw [hf] at hpr
      cases hpr
      exact ⟨_, _, rfl, rfl⟩

theorem getClass_ok {classId : ClassId} {info : ClassInfo A}
    (h : (getClass cfg classId).run s = .ok info s') :
    (cfg.nft.classes s.nft).lookup classId = some info ∧ s = s' := by
  simp only [getClass, Dispatch.run_bind_ok, Dispatch.run_get_ok, Dispatch.run_okOr_ok] at h
  obtain ⟨_, _, ⟨rfl, rfl⟩, hinfo, rfl⟩ := h
  exact ⟨hinfo, rfl⟩

theorem getToken_ok {token : ClassId × TokenId} {info : TokenInfo A}
    (h : (getToken cfg token).run s = .ok info s') :
    (cfg.nft.tokens s.nft).lookup token = some info ∧ s = s' := by
  simp only [getToken, Dispatch.run_bind_ok, Dispatch.run_get_ok, Dispatch.run_okOr_ok] at h
  obtain ⟨_, _, ⟨rfl, rfl⟩, hinfo, rfl⟩ := h
  exact ⟨hinfo, rfl⟩

/-! ## The deposits on record -/

/-- The deposit of a token or class, if the account owns it. -/
def TokenInfo.depositBy (a : A) (info : TokenInfo A) : ℕ :=
  if info.owner = a then info.data.deposit else 0

def ClassInfo.depositBy (a : A) (info : ClassInfo A) : ℕ :=
  if info.owner = a then info.data.deposit else 0

/-- The deposits of all tokens that an account owns. -/
def tokenDeposits (cfg : Config A N P) (n : N) (a : A) : ℕ :=
  sumBy (fun _ info => info.depositBy a) (cfg.nft.tokens n)

def classDeposits (cfg : Config A N P) (n : N) (a : A) : ℕ :=
  sumBy (fun _ info => info.depositBy a) (cfg.nft.classes n)

/-- The owner of a class, if there is such a class. -/
def ownerOf (cfg : Config A N P) (n : N) (c : ClassId) : Option A :=
  ((cfg.nft.classes n).lookup c).map ClassInfo.owner

/-- Every reserved balance is the deposits of the account's tokens, its class and the proxy of its
class. A class is owned by the account derived from its id, which has one proxy. -/
structure Sound (cfg : Config A N P) (s : State A N P) : Prop where
  reserved : ∀ a, s.balances.reserved a = tokenDeposits cfg s.nft a + classDeposits cfg s.nft a
    + cfg.proxy.depositOf s.proxy a
  owners : ∀ c a, ownerOf cfg s.nft c = some a →
    c < cfg.nft.nextClassId s.nft ∧ a = cfg.subAccount c
  proxied : ∀ c a, ownerOf cfg s.nft c = some a → (cfg.proxy.delegates s.proxy a).card = 1
  unproxied : ∀ a, (∀ c, ownerOf cfg s.nft c ≠ some a) → cfg.proxy.delegates s.proxy a = ∅
  recorded : ∀ a, cfg.proxy.depositOf s.proxy a
    = cfg.proxy.deposit (cfg.proxy.delegates s.proxy a).card

theorem Genesis.sound (h : Genesis cfg s) : Sound cfg s := by
  have hnone : ∀ c a, ownerOf cfg s.nft c ≠ some a := by
    intro c a
    unfold ownerOf
    rw [h.classes]
    exact nofun
  refine ⟨fun a => ?_, fun c a hca => absurd hca (hnone c a),
    fun c a hca => absurd hca (hnone c a), fun a _ => h.delegates a, fun a => ?_⟩
  · unfold tokenDeposits classDeposits
    rw [h.reserved, h.depositOf, h.tokens, h.classes]
    rfl
  · rw [h.depositOf, h.delegates, Finset.card_empty, cfg.proxy.deposit_zero]

/-- What is recorded for a token is reserved with its owner. -/
theorem Sound.deposit_le (hs : Sound cfg s) {token : ClassId × TokenId} {info : TokenInfo A}
    (h : (cfg.nft.tokens s.nft).lookup token = some info) :
    info.data.deposit ≤ s.balances.reserved info.owner := by
  have hweight := weightAt_le_sumBy (fun _ (info' : TokenInfo A) => info'.depositBy info.owner)
    (cfg.nft.tokens s.nft) token
  rw [weightAt_of_lookup _ h] at hweight
  have hdeposit : info.depositBy info.owner = info.data.deposit := if_pos rfl
  have hreserved := hs.reserved info.owner
  unfold tokenDeposits at hreserved
  omega

/-- An amount of what an account has reserved is released, and nobody else's. -/
def Releases (s s' : State A N P) (who : A) (n : ℕ) : Prop :=
  ∀ a, s'.balances.reserved a + (if who = a then n else 0) = s.balances.reserved a

/-! ## Tokens -/

/-- The classes of both have the same owners and deposits. -/
structure SameClasses (cfg : Config A N P) (n n' : N) : Prop where
  nextClassId : cfg.nft.nextClassId n' = cfg.nft.nextClassId n
  ownerOf : ownerOf cfg n' = ownerOf cfg n
  deposits : classDeposits cfg n' = classDeposits cfg n

theorem SameClasses.trans {n n' n'' : N} (h : SameClasses cfg n n')
    (h' : SameClasses cfg n' n'') : SameClasses cfg n n'' where
  nextClassId := h'.nextClassId.trans h.nextClassId
  ownerOf := h'.ownerOf.trans h.ownerOf
  deposits := h'.deposits.trans h.deposits

theorem SameClasses.of_eq {n n' : N} (hnext : cfg.nft.nextClassId n' = cfg.nft.nextClassId n)
    (hclasses : cfg.nft.classes n' = cfg.nft.classes n) : SameClasses cfg n n' where
  nextClassId := hnext
  ownerOf := by
    unfold Nft.ownerOf
    rw [hclasses]
  deposits := by
    unfold classDeposits
    rw [hclasses]

/-- The issuance of a class does not matter. -/
theorem SameClasses.of_insert {n n' : N} {c : ClassId} {info info' : ClassInfo A}
    (hnext : cfg.nft.nextClassId n' = cfg.nft.nextClassId n)
    (hinfo : (cfg.nft.classes n).lookup c = some info)
    (hclasses : cfg.nft.classes n' = (cfg.nft.classes n).insert c info')
    (howner : info'.owner = info.owner) (hdata : info'.data = info.data) :
    SameClasses cfg n n' where
  nextClassId := hnext
  ownerOf := by
    funext d
    unfold Nft.ownerOf
    rw [hclasses]
    by_cases hd : d = c
    · subst hd
      rw [AList.lookup_insert, hinfo]
      exact congrArg some howner
    · rw [AList.lookup_insert_ne hd]
  deposits := by
    funext a
    unfold classDeposits
    have hinsert := sumBy_insert_add (fun _ (i : ClassInfo A) => i.depositBy a)
      (cfg.nft.classes n) c info'
    have hsame : info'.depositBy a = info.depositBy a := by
      unfold ClassInfo.depositBy
      rw [howner, hdata]
    rw [weightAt_of_lookup _ hinfo, hsame] at hinsert
    rw [hclasses]
    exact Nat.add_right_cancel hinsert

/-- The classes stay, the tokens' deposits change by what the balances reserve, and the proxies are
left alone: the state stays sound. -/
theorem Sound.of_tokens (hs : Sound cfg s) (hclasses : SameClasses cfg s.nft s'.nft)
    (hproxy : s'.proxy = s.proxy)
    (hreserved : ∀ a, s'.balances.reserved a + tokenDeposits cfg s.nft a
      = s.balances.reserved a + tokenDeposits cfg s'.nft a) : Sound cfg s' where
  reserved a := by
    have hbefore := hs.reserved a
    have hchange := hreserved a
    rw [hclasses.deposits, hproxy]
    omega
  owners := by
    rw [hclasses.ownerOf, hclasses.nextClassId]
    exact hs.owners
  proxied := by
    rw [hclasses.ownerOf, hproxy]
    exact hs.proxied
  unproxied := by
    rw [hclasses.ownerOf, hproxy]
    exact hs.unproxied
  recorded := by
    rw [hproxy]
    exact hs.recorded

theorem mint_spec {dest : A} {classId : ClassId} {metadata : CID} {data : TokenData} {n n' : N}
    (h : cfg.nft.mint dest classId metadata data n = some n') :
    SameClasses cfg n n' ∧ ∀ a, tokenDeposits cfg n' a
      = tokenDeposits cfg n a + if dest = a then data.deposit else 0 := by
  obtain ⟨info, tokenId, hinfo, hnew, hnext, hclasses, htokens⟩ := cfg.nft.mint_spec h
  refine ⟨SameClasses.of_insert hnext hinfo hclasses rfl rfl, fun a => ?_⟩
  have hinsert := sumBy_insert_add (fun _ (i : TokenInfo A) => i.depositBy a)
    (cfg.nft.tokens n) (classId, tokenId) ⟨dest, data⟩
  rw [weightAt_of_notMem _ hnew, Nat.add_zero] at hinsert
  unfold tokenDeposits
  rw [htokens]
  exact hinsert

/-- A transfer of a token moves its deposit to the other account's. -/
theorem transfer_spec {source dest : A} {token : ClassId × TokenId} {info : TokenInfo A} {n n' : N}
    (hinfo : (cfg.nft.tokens n).lookup token = some info)
    (h : cfg.nft.transfer source dest token n = some n') :
    info.owner = source ∧ SameClasses cfg n n' ∧ ∀ a,
      tokenDeposits cfg n' a + (if source = a then info.data.deposit else 0)
        = tokenDeposits cfg n a + if dest = a then info.data.deposit else 0 := by
  obtain ⟨info', hinfo', howner, hnext, hclasses, htokens⟩ := cfg.nft.transfer_spec h
  cases hinfo.symm.trans hinfo'
  refine ⟨howner, SameClasses.of_eq hnext hclasses, fun a => ?_⟩
  unfold tokenDeposits
  rw [htokens]
  by_cases hself : source = dest
  · rw [if_pos hself, hself]
  · rw [if_neg hself]
    have hinsert := sumBy_insert_add (fun _ (i : TokenInfo A) => i.depositBy a)
      (cfg.nft.tokens n) token { info with owner := dest }
    rw [weightAt_of_lookup _ hinfo] at hinsert
    unfold TokenInfo.depositBy at hinsert ⊢
    rw [howner] at hinsert
    exact hinsert

theorem burn_spec {owner : A} {token : ClassId × TokenId} {info : TokenInfo A} {n n' : N}
    (hinfo : (cfg.nft.tokens n).lookup token = some info)
    (h : cfg.nft.burn owner token n = some n') :
    info.owner = owner ∧ SameClasses cfg n n' ∧ ∀ a,
      tokenDeposits cfg n' a + (if owner = a then info.data.deposit else 0)
        = tokenDeposits cfg n a := by
  obtain ⟨info', classInfo, hinfo', howner, hclass, hnext, hclasses, htokens⟩ :=
    cfg.nft.burn_spec h
  cases hinfo.symm.trans hinfo'
  refine ⟨howner, SameClasses.of_insert hnext hclass hclasses rfl rfl, fun a => ?_⟩
  have herase := sumBy_erase_add (fun _ (i : TokenInfo A) => i.depositBy a)
    (cfg.nft.tokens n) token
  rw [weightAt_of_lookup _ hinfo] at herase
  unfold TokenInfo.depositBy at herase
  rw [howner] at herase
  unfold tokenDeposits
  rw [htokens]
  exact herase

theorem mintTokens_ok {dest : A} {classId : ClassId} {metadata : CID} {data : TokenData}
    {quantity : ℕ} (h : (mintTokens cfg dest classId metadata data quantity).run s = .ok u s') :
    s'.balances = s.balances ∧ s'.proxy = s.proxy ∧ SameClasses cfg s.nft s'.nft ∧
      ∀ a, tokenDeposits cfg s'.nft a
        = tokenDeposits cfg s.nft a + if dest = a then data.deposit * quantity else 0 := by
  induction quantity generalizing s with
  | zero =>
      obtain ⟨rfl, rfl⟩ := Dispatch.run_pure_ok.mp h
      refine ⟨rfl, rfl, SameClasses.of_eq rfl rfl, fun a => ?_⟩
      rw [Nat.mul_zero, ite_self, Nat.add_zero]
  | succ quantity ih =>
      obtain ⟨_, s₁, hmint, hrest⟩ := Dispatch.run_bind_ok.mp h
      obtain ⟨n, hn, rfl⟩ := onNft_ok hmint
      obtain ⟨hclasses, htokens⟩ := mint_spec hn
      obtain ⟨hbalances, hproxy, hclasses', htokens'⟩ := ih hrest
      refine ⟨hbalances, hproxy, hclasses.trans hclasses', fun a => ?_⟩
      have hsum := htokens' a
      rw [htokens a] at hsum
      rw [hsum, Nat.mul_succ]
      split <;> omega

/-! ## Minting, transferring and burning -/

theorem mint_sound (hs : Sound cfg s) {who dest : A} {classId : ClassId} {metadata : CID}
    {quantity : Fin (2 ^ 32)}
    (h : (mint cfg who dest classId metadata quantity).run s = .ok u s') : Sound cfg s' := by
  simp only [mint, Dispatch.run_bind_ok, Dispatch.run_ensure_ok] at h
  obtain ⟨_, _, ⟨-, rfl⟩, classInfo, _, hclass, _, _, ⟨-, rfl⟩, _, s₁, htransfer, _, s₂, hreserve,
    hmint⟩ := h
  obtain ⟨-, rfl⟩ := getClass_ok hclass
  obtain ⟨r₁, hr₁, rfl⟩ := currencyTransfer_ok htransfer
  obtain ⟨r₂, hr₂, rfl⟩ := reserve_ok hreserve
  obtain ⟨hbalances, hproxy, hclasses, htokens⟩ := mintTokens_ok hmint
  -- no number of tokens that one call can mint saturates the total
  have htotal : Balance.saturatingMul cfg.createTokenDeposit quantity
      = cfg.createTokenDeposit * quantity := by
    have hquantity : cfg.createTokenDeposit * quantity ≤ cfg.createTokenDeposit * 2 ^ 32 :=
      Nat.mul_le_mul_left _ (Nat.le_of_lt quantity.isLt)
    exact Nat.min_eq_left (hquantity.trans cfg.createTokenDeposit_fits)
  refine hs.of_tokens hclasses hproxy fun a => ?_
  have hreserved := hr₂ a
  have hdeposits := htokens a
  dsimp only at hreserved hdeposits
  rw [hr₁, htotal] at hreserved
  rw [hbalances, hreserved, hdeposits]
  by_cases ha : a = dest
  · rw [if_pos ha, if_pos ha.symm]
    omega
  · rw [if_neg ha, if_neg (Ne.symm ha)]
    omega

theorem doTransfer_sound (hs : Sound cfg s) {source dest : A} {token : ClassId × TokenId}
    (h : (doTransfer cfg source dest token).run s = .ok u s') : Sound cfg s' := by
  have hrun := Dispatch.run_transactional_ok.mp h
  simp only [unreserve, Dispatch.run_bind_ok, Dispatch.run_ensure_ok, Dispatch.run_modify_ok]
    at hrun
  obtain ⟨classInfo, _, hclass, _, _, ⟨-, rfl⟩, info, _, htoken, _, s₁, hnft, _, _, rfl, _, s₂,
    htransfer, hreserve⟩ := hrun
  obtain ⟨-, rfl⟩ := getClass_ok hclass
  obtain ⟨hinfo, rfl⟩ := getToken_ok htoken
  obtain ⟨n, hn, rfl⟩ := onNft_ok hnft
  obtain ⟨r₁, hr₁, rfl⟩ := currencyTransfer_ok htransfer
  obtain ⟨r₂, hr₂, rfl⟩ := reserve_ok hreserve
  obtain ⟨howner, hclasses, htokens⟩ := transfer_spec hinfo hn
  refine hs.of_tokens hclasses rfl fun a => ?_
  have hheld := hs.deposit_le hinfo
  have hreserved := hr₂ a
  have hdeposits := htokens a
  dsimp only at hreserved ⊢
  rw [hr₁, Reserves.unreserve_reserved_sub] at hreserved
  dsimp only at hreserved
  subst howner
  rw [hreserved]
  by_cases hsource : a = info.owner
  · subst hsource
    simp only [if_true] at hdeposits ⊢
    by_cases hdest : info.owner = dest
    · rw [if_pos hdest.symm] at hdeposits
      rw [if_pos hdest]
      omega
    · rw [if_neg (Ne.symm hdest)] at hdeposits
      rw [if_neg hdest]
      omega
  · rw [if_neg (Ne.symm hsource)] at hdeposits
    rw [if_neg hsource]
    by_cases hdest : a = dest
    · rw [if_pos hdest.symm] at hdeposits
      rw [if_pos hdest]
      omega
    · rw [if_neg (Ne.symm hdest)] at hdeposits
      rw [if_neg hdest]
      omega

/-- What burning does: the deposit that was recorded is released, and nobody else's. -/
theorem doBurn_ok (hs : Sound cfg s) {who : A} {token : ClassId × TokenId}
    (h : (doBurn cfg who token).run s = .ok u s') :
    ∃ info, (cfg.nft.tokens s.nft).lookup token = some info ∧ info.owner = who ∧
      Releases s s' who info.data.deposit ∧
      (∀ a, s'.balances.free a
        = s.balances.free a + if who = a then info.data.deposit else 0) ∧
      Sound cfg s' := by
  have hrun := Dispatch.run_transactional_ok.mp h
  simp only [unreserve, Dispatch.run_bind_ok, Dispatch.run_ensure_ok, Dispatch.run_modify_ok]
    at hrun
  obtain ⟨classInfo, _, hclass, _, _, ⟨-, rfl⟩, info, _, htoken, _, _, ⟨rfl, rfl⟩, _, s₁, hnft,
    rfl⟩ := hrun
  obtain ⟨-, rfl⟩ := getClass_ok hclass
  obtain ⟨hinfo, rfl⟩ := getToken_ok htoken
  obtain ⟨n, hn, rfl⟩ := onNft_ok hnft
  obtain ⟨-, hclasses, htokens⟩ := burn_spec hinfo hn
  have hheld := hs.deposit_le hinfo
  have hreleased : ∀ a, (Reserves.unreserve info.owner info.data.deposit s.balances).reserved a
      + (if info.owner = a then info.data.deposit else 0) = s.balances.reserved a := by
    intro a
    rw [Reserves.unreserve_reserved_sub]
    by_cases ha : a = info.owner
    · subst ha
      rw [if_pos rfl]
      omega
    · rw [if_neg ha, if_neg (Ne.symm ha)]
      omega
  refine ⟨info, hinfo, rfl, hreleased, fun a => ?_, hs.of_tokens hclasses rfl fun a => ?_⟩
  · have htotal := Reserves.unreserve_total info.owner info.data.deposit s.balances a
    have hreserved := hreleased a
    dsimp only
    omega
  · have hreserved := hreleased a
    have hdeposits := htokens a
    dsimp only
    omega

/-! ## Creating and destroying classes -/

/-- A new class is owned by an account that owns no other. -/
theorem Sound.ownerOf_nextClassId (hs : Sound cfg s) :
    ownerOf cfg s.nft (cfg.nft.nextClassId s.nft) = none := by
  cases h : ownerOf cfg s.nft (cfg.nft.nextClassId s.nft) with
  | none => rfl
  | some a => exact absurd (hs.owners _ _ h).1 (Nat.lt_irrefl _)

theorem Sound.ownerOf_ne_next (hs : Sound cfg s) (c : ClassId) :
    ownerOf cfg s.nft c ≠ some (cfg.subAccount (cfg.nft.nextClassId s.nft)) := by
  intro h
  obtain ⟨hlt, heq⟩ := hs.owners c _ h
  exact absurd (cfg.subAccount_injective heq).symm (Nat.ne_of_lt hlt)

section Classes

variable {n n' : N} {c : ClassId} {info : ClassInfo A}

theorem ownerOf_of_insert (hnone : (cfg.nft.classes n).lookup c = none)
    (hclasses : cfg.nft.classes n' = (cfg.nft.classes n).insert c info) (c' : ClassId) (a : A) :
    ownerOf cfg n' c' = some a ↔ (c' = c ∧ a = info.owner) ∨ ownerOf cfg n c' = some a := by
  unfold ownerOf
  rw [hclasses]
  by_cases hc : c' = c
  · subst hc
    rw [AList.lookup_insert, hnone]
    simp [eq_comm]
  · rw [AList.lookup_insert_ne hc]
    simp [hc]

theorem ownerOf_of_erase (hclasses : cfg.nft.classes n' = (cfg.nft.classes n).erase c)
    (c' : ClassId) (a : A) :
    ownerOf cfg n' c' = some a ↔ c' ≠ c ∧ ownerOf cfg n c' = some a := by
  unfold ownerOf
  rw [hclasses]
  by_cases hc : c' = c
  · subst hc
    rw [AList.lookup_erase]
    simp
  · rw [AList.lookup_erase_ne hc]
    simp [hc]

theorem classDeposits_of_insert (hnone : (cfg.nft.classes n).lookup c = none)
    (hclasses : cfg.nft.classes n' = (cfg.nft.classes n).insert c info) (a : A) :
    classDeposits cfg n' a = classDeposits cfg n a + info.depositBy a := by
  have hinsert := sumBy_insert_add (fun _ (i : ClassInfo A) => i.depositBy a)
    (cfg.nft.classes n) c info
  rw [weightAt_of_notMem _ hnone, Nat.add_zero] at hinsert
  unfold classDeposits
  rw [hclasses]
  exact hinsert

theorem classDeposits_of_erase (hinfo : (cfg.nft.classes n).lookup c = some info)
    (hclasses : cfg.nft.classes n' = (cfg.nft.classes n).erase c) (a : A) :
    classDeposits cfg n' a + info.depositBy a = classDeposits cfg n a := by
  have herase := sumBy_erase_add (fun _ (i : ClassInfo A) => i.depositBy a)
    (cfg.nft.classes n) c
  rw [weightAt_of_lookup _ hinfo] at herase
  unfold classDeposits
  rw [hclasses]
  exact herase

theorem tokenDeposits_of_eq (htokens : cfg.nft.tokens n' = cfg.nft.tokens n) :
    tokenDeposits cfg n' = tokenDeposits cfg n := by
  unfold tokenDeposits
  rw [htokens]

end Classes

theorem createClass_sound (hs : Sound cfg s) {who : A} {metadata : CID} {properties : Properties}
    (h : (createClass cfg who metadata properties).run s = .ok u s') : Sound cfg s' := by
  simp only [createClass, Dispatch.run_bind_ok, Dispatch.run_get_ok] at h
  obtain ⟨_, _, ⟨rfl, rfl⟩, _, s₁, htransfer, _, s₂, hreserve, _, s₃, hproxy, hnft⟩ := h
  obtain ⟨r₁, hr₁, rfl⟩ := currencyTransfer_ok htransfer
  obtain ⟨r₂, hr₂, rfl⟩ := reserve_ok hreserve
  obtain ⟨p, r₃, hp, rfl⟩ := onProxy_ok hproxy
  obtain ⟨n, hn, rfl⟩ := onNft_ok hnft
  obtain ⟨hnext, hclasses, htokens⟩ := cfg.nft.createClass_spec hn
  obtain ⟨-, hdelegates, hdeposit, hreserved⟩ := cfg.proxy.addProxyDelegate_spec hp
  dsimp only at hnext hclasses htokens hdelegates hdeposit hreserved
  have hnone := hs.ownerOf_nextClassId
  have hclass : (cfg.nft.classes s.nft).lookup (cfg.nft.nextClassId s.nft) = none :=
    Option.map_eq_none_iff.mp hnone
  have howner := ownerOf_of_insert hclass hclasses
  refine ⟨fun a => ?_, fun c a hca => ?_, fun c a hca => ?_, fun a ha => ?_, fun a => ?_⟩
  · have hchange := hreserved a
    rw [hr₂, hr₁] at hchange
    have hbefore := hs.reserved a
    dsimp only at hchange ⊢
    rw [tokenDeposits_of_eq htokens, classDeposits_of_insert hclass hclasses, ClassInfo.depositBy]
    dsimp only
    by_cases ha : a = cfg.subAccount (cfg.nft.nextClassId s.nft)
    · rw [if_pos ha] at hchange
      rw [if_pos ha.symm]
      omega
    · rw [if_neg ha] at hchange
      rw [if_neg (Ne.symm ha)]
      omega
  · dsimp only at hca ⊢
    rw [hnext]
    rcases (howner c a).mp hca with ⟨rfl, rfl⟩ | hca
    · exact ⟨Nat.lt_succ_self _, rfl⟩
    · exact ⟨Nat.lt_succ_of_lt (hs.owners c a hca).1, (hs.owners c a hca).2⟩
  · dsimp only at hca ⊢
    rw [hdelegates]
    rcases (howner c a).mp hca with ⟨rfl, rfl⟩ | hca
    · rw [if_pos rfl, hs.unproxied _ hs.ownerOf_ne_next]
      rfl
    · have hne : a ≠ cfg.subAccount (cfg.nft.nextClassId s.nft) := by
        rintro rfl
        exact hs.ownerOf_ne_next c hca
      rw [if_neg hne]
      exact hs.proxied c a hca
  · dsimp only at ha ⊢
    have hne : a ≠ cfg.subAccount (cfg.nft.nextClassId s.nft) := by
      rintro rfl
      exact ha _ ((howner _ _).mpr (.inl ⟨rfl, rfl⟩))
    rw [hdelegates, if_neg hne]
    exact hs.unproxied a fun c hca => ha c ((howner c a).mpr (.inr hca))
  · dsimp only
    rw [hdeposit]
    split
    · rfl
    · rename_i hne
      rw [hdelegates, if_neg hne]
      exact hs.recorded a

/-- What destroying a class does: its deposit and that of its proxy are released, and nobody
else's. -/
theorem destroyClass_ok (hs : Sound cfg s) {who : A} {classId : ClassId} {dest : A}
    (h : (destroyClass cfg who classId dest).run s = .ok u s') :
    ∃ info, (cfg.nft.classes s.nft).lookup classId = some info ∧ info.owner = who ∧
      Releases s s' who (info.data.deposit + cfg.proxy.deposit 1) ∧ Sound cfg s' := by
  simp only [destroyClass, unreserve, Dispatch.run_bind_ok, Dispatch.run_ensure_ok,
    Dispatch.run_modify_ok, Dispatch.run_get_ok] at h
  obtain ⟨info, _, hclass, _, _, ⟨rfl, rfl⟩, _, _, ⟨-, rfl⟩, _, _, rfl, _, s₁, hnft, _, s₂, hproxy,
    _, _, ⟨rfl, rfl⟩, htransfer⟩ := h
  obtain ⟨hinfo, rfl⟩ := getClass_ok hclass
  obtain ⟨n, hn, rfl⟩ := onNft_ok hnft
  obtain ⟨p, r₂, hp, rfl⟩ := onProxy_ok hproxy
  obtain ⟨r₃, hr₃, rfl⟩ := currencyTransfer_ok htransfer
  obtain ⟨info', hinfo', -, -, hnext, hclasses, htokens⟩ := cfg.nft.destroyClass_spec hn
  cases hinfo.symm.trans hinfo'
  obtain ⟨hmem, hdelegates, hdeposit, hreserved⟩ := cfg.proxy.removeProxyDelegate_spec hp
  dsimp only at hnext hclasses htokens hmem hdelegates hdeposit hreserved hr₃ ⊢
  have howned : ownerOf cfg s.nft classId = some info.owner := by
    unfold ownerOf
    rw [hinfo]
    rfl
  -- the destination was the only proxy, so that nothing remains recorded for proxies
  have hempty : cfg.proxy.delegates p info.owner = ∅ := by
    rw [hdelegates, if_pos rfl, ← Finset.card_eq_zero, Finset.card_erase_of_mem hmem,
      hs.proxied _ _ howned]
  have hzero : cfg.proxy.depositOf p info.owner = 0 := by
    rw [hdeposit, if_pos rfl, hempty, Finset.card_empty, cfg.proxy.deposit_zero]
  have hclassDeposits := classDeposits_of_erase hinfo hclasses
  have hrecorded : cfg.proxy.depositOf s.proxy info.owner = cfg.proxy.deposit 1 := by
    rw [hs.recorded, hs.proxied _ _ howned]
  have hreleased : ∀ a, r₃.reserved a
      + (if info.owner = a then info.data.deposit + cfg.proxy.deposit 1 else 0)
        = s.balances.reserved a := by
    intro a
    have hbefore := hs.reserved a
    have hclass := hclassDeposits a
    unfold ClassInfo.depositBy at hclass
    rw [hr₃, hreserved, Reserves.unreserve_reserved_sub]
    by_cases ha : a = info.owner
    · subst ha
      rw [if_pos rfl] at hclass ⊢
      rw [if_pos rfl, hzero]
      omega
    · rw [if_neg ha, if_neg (Ne.symm ha), hdeposit, if_neg ha]
      omega
  have howner := ownerOf_of_erase hclasses
  -- an account owns no class but the one it is derived from
  have hne : ∀ c a, ownerOf cfg n c = some a → a ≠ info.owner := by
    rintro c a hca rfl
    obtain ⟨hc, hca⟩ := (howner c _).mp hca
    have hsame := (hs.owners c _ hca).2.symm.trans (hs.owners classId _ howned).2
    exact hc (cfg.subAccount_injective hsame)
  refine ⟨info, hinfo, rfl, hreleased, fun a => ?_, fun c a hca => ?_, fun c a hca => ?_,
    fun a ha => ?_, fun a => ?_⟩
  · have hbefore := hs.reserved a
    have hchange := hreleased a
    have hclass := hclassDeposits a
    unfold ClassInfo.depositBy at hclass
    dsimp only
    rw [tokenDeposits_of_eq htokens]
    by_cases ha : a = info.owner
    · subst ha
      rw [if_pos rfl] at hchange hclass
      rw [hzero]
      omega
    · rw [if_neg (Ne.symm ha)] at hchange hclass
      rw [hdeposit, if_neg ha]
      omega
  · dsimp only
    rw [hnext]
    exact hs.owners c a ((howner c a).mp hca).2
  · dsimp only
    rw [hdelegates, if_neg (hne c a hca)]
    exact hs.proxied c a ((howner c a).mp hca).2
  · dsimp only
    by_cases hwho : a = info.owner
    · rw [hwho, hempty]
    · rw [hdelegates, if_neg hwho]
      refine hs.unproxied a fun c hca => ha c ((howner c a).mpr ⟨?_, hca⟩)
      rintro rfl
      exact hwho (Option.some.inj (hca.symm.trans howned))
  · dsimp only
    rw [hdeposit]
    split
    · rfl
    · rename_i hwho
      rw [hdelegates, if_neg hwho]
      exact hs.recorded a

/-! ## Runs -/

theorem Sound.step (hs : Sound cfg s) (c : Call A) : Sound cfg (step cfg s c) := by
  have hburn : ∀ who token, Sound cfg
      (Dispatch.commit (Dispatch.transactional (doBurn cfg who token)) s) := by
    intro who token
    refine Dispatch.commit_transactional_invariant hs fun _ s' h => ?_
    obtain ⟨_, _, _, _, _, hsound⟩ := doBurn_ok hs h
    exact hsound
  cases c with
  | createClass who metadata properties =>
      exact Dispatch.commit_transactional_invariant hs fun _ _ h => createClass_sound hs h
  | mint who dest classId metadata quantity =>
      exact Dispatch.commit_transactional_invariant hs fun _ _ h => mint_sound hs h
  | transfer who dest token =>
      exact Dispatch.commit_transactional_invariant hs fun _ _ h => doTransfer_sound hs h
  | burn who token => exact hburn who token
  | burnWithRemark who token remark => exact hburn who token
  | destroyClass who classId dest =>
      refine Dispatch.commit_transactional_invariant hs fun _ s' h => ?_
      obtain ⟨_, _, _, _, hsound⟩ := destroyClass_ok hs h
      exact hsound
  | nftTransfer source dest token =>
      exact Dispatch.commit_transactional_invariant hs fun _ _ h =>
        doTransfer_sound hs (Dispatch.run_transactional_ok.mpr h)
  | other free => exact ⟨hs.reserved, hs.owners, hs.proxied, hs.unproxied, hs.recorded⟩

/-- The deposits of the class that an account owns, if it owns one, and of its proxy. -/
theorem Sound.class_reserved (hs : Sound cfg s) {c : ClassId} {info : ClassInfo A}
    (h : (cfg.nft.classes s.nft).lookup c = some info) :
    s.balances.reserved info.owner = tokenDeposits cfg s.nft info.owner
      + (info.data.deposit + cfg.proxy.deposit 1) := by
  have howned : ownerOf cfg s.nft c = some info.owner := by
    unfold ownerOf
    rw [h]
    rfl
  have hclass : classDeposits cfg s.nft info.owner = info.data.deposit := by
    unfold classDeposits
    rw [sumBy_eq_weightAt (k := c) _ ?_, weightAt_of_lookup _ h]
    · exact if_pos rfl
    · rintro ⟨c', info'⟩ hmem hc
      refine if_neg fun hsame => hc ?_
      have howned' : ownerOf cfg s.nft c' = some info.owner := by
        unfold ownerOf
        rw [mem_entries_iff.mp hmem]
        exact congrArg some hsame
      exact cfg.subAccount_injective
        ((hs.owners c' _ howned').2.symm.trans (hs.owners c _ howned).2)
  rw [hs.reserved, hclass, hs.recorded, hs.proxied c _ howned, Nat.add_assoc]

theorem Sound.other_reserved (hs : Sound cfg s) {a : A}
    (h : ∀ c info, (cfg.nft.classes s.nft).lookup c = some info → info.owner ≠ a) :
    s.balances.reserved a = tokenDeposits cfg s.nft a := by
  have hclass : classDeposits cfg s.nft a = 0 := by
    refine sumBy_eq_zero _ fun e he => if_neg ?_
    exact h e.1 e.2 (mem_entries_iff.mp he)
  have hnone : ∀ c, ownerOf cfg s.nft c ≠ some a := by
    intro c hca
    obtain ⟨info, hinfo, howner⟩ := Option.map_eq_some_iff.mp hca
    exact h c info hinfo howner
  rw [hs.reserved, hclass, hs.recorded, hs.unproxied a hnone, Finset.card_empty,
    cfg.proxy.deposit_zero]
  rfl

/-- A call that burns a token. -/
def Call.Burns (call : Call A) (who : A) (token : ClassId × TokenId) : Prop :=
  call = .burn who token ∨ ∃ remark, call = .burnWithRemark who token remark

theorem burns_released (hs : Sound cfg s) {call : Call A} {who : A} {token : ClassId × TokenId}
    (hcall : call.Burns who token) (h : Dispatch.succeeds (call.call cfg) s = true) :
    ∃ info, (cfg.nft.tokens s.nft).lookup token = some info ∧ info.owner = who ∧
      Releases s (step cfg s call) who info.data.deposit ∧
      ∀ a, (step cfg s call).balances.free a
        = s.balances.free a + if who = a then info.data.deposit else 0 := by
  have hburn : call.call cfg = Dispatch.transactional (doBurn cfg who token) := by
    rcases hcall with rfl | ⟨remark, rfl⟩ <;> rfl
  unfold step
  rw [hburn] at h ⊢
  rcases Dispatch.commit_transactional (doBurn cfg who token) s with ⟨_, s', hrun, hc⟩ | ⟨hfails, -⟩
  · rw [hc]
    obtain ⟨info, hinfo, howner, hreleased, hfree, -⟩ := doBurn_ok hs hrun
    exact ⟨info, hinfo, howner, hreleased, hfree⟩
  · rw [hfails] at h
    cases h

theorem destroys_released (hs : Sound cfg s) {who : A} {classId : ClassId} {dest : A}
    (h : Dispatch.succeeds ((Call.destroyClass who classId dest).call cfg) s = true) :
    ∃ info, (cfg.nft.classes s.nft).lookup classId = some info ∧ info.owner = who ∧
      Releases s (step cfg s (.destroyClass who classId dest)) who
        (info.data.deposit + cfg.proxy.deposit 1) := by
  unfold step
  rcases Dispatch.commit_transactional (Nft.destroyClass cfg who classId dest) s with
    ⟨_, s', hrun, hc⟩ | ⟨hfails, -⟩
  · obtain ⟨info, hinfo, howner, hreleased, -⟩ := destroyClass_ok hs hrun
    refine ⟨info, hinfo, howner, ?_⟩
    rw [show Dispatch.commit ((Call.destroyClass who classId dest).call cfg) s = s' from hc]
    exact hreleased
  · rw [show Dispatch.succeeds ((Call.destroyClass who classId dest).call cfg) s = false
      from hfails] at h
    cases h

/-- **After every run of calls, what is reserved with an account is the deposits of its tokens and,
if it owns a class, the deposits of the class and of its proxy.** Burning a token or destroying a
class then releases what is recorded for it. -/
theorem reserved_of_run (hs : Genesis cfg s) (calls : List (Call A)) :
    let last := Machine.run (step cfg) s calls
    (∀ c info, (cfg.nft.classes last.nft).lookup c = some info →
      last.balances.reserved info.owner = tokenDeposits cfg last.nft info.owner
        + (info.data.deposit + cfg.proxy.deposit 1)) ∧
    (∀ a, (∀ c info, (cfg.nft.classes last.nft).lookup c = some info → info.owner ≠ a) →
      last.balances.reserved a = tokenDeposits cfg last.nft a) ∧
    (∀ (call : Call A) who token, call.Burns who token →
      Dispatch.succeeds (call.call cfg) last = true →
        ∃ info, (cfg.nft.tokens last.nft).lookup token = some info ∧ info.owner = who ∧
          Releases last (step cfg last call) who info.data.deposit ∧
          ∀ a, (step cfg last call).balances.free a
            = last.balances.free a + if who = a then info.data.deposit else 0) ∧
    ∀ who classId dest,
      Dispatch.succeeds ((Call.destroyClass who classId dest).call cfg) last = true →
        ∃ info, (cfg.nft.classes last.nft).lookup classId = some info ∧ info.owner = who ∧
          Releases last (step cfg last (.destroyClass who classId dest)) who
            (info.data.deposit + cfg.proxy.deposit 1) := by
  intro last
  have hlast : Sound cfg last :=
    Machine.run_invariant_always (fun _ call ht => ht.step call) hs.sound calls
  exact ⟨fun _ _ h => hlast.class_reserved h, fun _ h => hlast.other_reserved h,
    fun _ _ _ hcall h => burns_released hlast hcall h,
    fun _ _ _ h => destroys_released hlast h⟩

/-! ## A class with three tokens -/

structure SampleNft where
  classes : Map ClassId (ClassInfo ℕ)
  tokens : Map (ClassId × TokenId) (TokenInfo ℕ)
  nextClassId : ClassId
  nextTokenId : ClassId → TokenId

def sampleNft : OrmlNft ℕ SampleNft where
  classes := SampleNft.classes
  tokens := SampleNft.tokens
  nextClassId := SampleNft.nextClassId
  createClass owner _ data n := some
    { n with
      classes := n.classes.insert n.nextClassId ⟨owner, 0, data⟩
      nextClassId := n.nextClassId + 1 }
  mint owner classId _ data n :=
    match n.classes.lookup classId, n.tokens.lookup (classId, n.nextTokenId classId) with
    | some info, none => some
        { n with
          classes := n.classes.insert classId { info with totalIssuance := info.totalIssuance + 1 }
          tokens := n.tokens.insert (classId, n.nextTokenId classId) ⟨owner, data⟩
          nextTokenId := Function.update n.nextTokenId classId (n.nextTokenId classId + 1) }
    | _, _ => none
  transfer source dest token n :=
    match n.tokens.lookup token with
    | some info =>
        if info.owner = source then
          if source = dest then some n
          else some { n with tokens := n.tokens.insert token { info with owner := dest } }
        else none
    | none => none
  burn owner token n :=
    match n.tokens.lookup token, n.classes.lookup token.1 with
    | some info, some classInfo =>
        if info.owner = owner then some
          { n with
            classes := n.classes.insert token.1
              { classInfo with totalIssuance := classInfo.totalIssuance - 1 }
            tokens := n.tokens.erase token }
        else none
    | _, _ => none
  destroyClass owner classId n :=
    match n.classes.lookup classId with
    | some info =>
        if info.owner = owner ∧ info.totalIssuance = 0 then some
          { n with
            classes := n.classes.erase classId
            nextTokenId := Function.update n.nextTokenId classId 0 }
        else none
    | none => none
  createClass_spec h := by
    cases h
    exact ⟨rfl, rfl, rfl⟩
  mint_spec h := by
    split at h
    · rename_i info hinfo hnew
      cases h
      exact ⟨info, _, hinfo, hnew, rfl, rfl, rfl⟩
    · cases h
  transfer_spec h := by
    split at h
    · rename_i info hinfo
      split at h
      · rename_i howner
        split at h
        · rename_i hself
          cases h
          exact ⟨info, hinfo, howner, rfl, rfl, (if_pos hself).symm⟩
        · rename_i hself
          cases h
          exact ⟨info, hinfo, howner, rfl, rfl, (if_neg hself).symm⟩
      · cases h
    · cases h
  burn_spec h := by
    split at h
    · rename_i info classInfo hinfo hclass
      split at h
      · rename_i howner
        cases h
        exact ⟨info, classInfo, hinfo, howner, hclass, rfl, rfl, rfl⟩
      · cases h
    · cases h
  destroyClass_spec h := by
    split at h
    · rename_i info hinfo
      split at h
      · rename_i howner
        cases h
        exact ⟨info, hinfo, howner.1, howner.2, rfl, rfl, rfl⟩
      · cases h
    · cases h

structure SampleProxies where
  delegates : ℕ → Finset ℕ
  depositOf : ℕ → ℕ

def sampleProxyDeposit (n : ℕ) : ℕ := if n = 0 then 0 else 20 + 10 * n

/-- Store the delegates of an account with the deposit for them. -/
def SampleProxies.store (p : SampleProxies) (delegator : ℕ) (delegates : Finset ℕ) :
    SampleProxies where
  delegates := Function.update p.delegates delegator delegates
  depositOf := Function.update p.depositOf delegator (sampleProxyDeposit delegates.card)

def sampleProxy : PalletProxy ℕ SampleProxies where
  delegates := SampleProxies.delegates
  depositOf := SampleProxies.depositOf
  deposit := sampleProxyDeposit
  addProxyDelegate delegator delegatee pr :=
    let p := pr.1.store delegator (insert delegatee (pr.1.delegates delegator))
    if delegatee ∈ insert delegator (pr.1.delegates delegator)
        ∨ p.depositOf delegator < pr.1.depositOf delegator then none
    else
      match Reserves.reserve Reserves.Rules.permissive delegator
          (p.depositOf delegator - pr.1.depositOf delegator) pr.2 with
      | .ok r => some (p, r)
      | .error _ => none
  removeProxyDelegate delegator delegatee pr :=
    let p := pr.1.store delegator ((pr.1.delegates delegator).erase delegatee)
    if delegatee ∈ pr.1.delegates delegator then
      some (p, Reserves.unreserve delegator
        (pr.1.depositOf delegator - p.depositOf delegator) pr.2)
    else none
  deposit_zero := rfl
  addProxyDelegate_spec {delegator delegatee p r p' r'} h := by
    dsimp only at h
    split at h
    · cases h
    · rename_i hnew
      obtain ⟨hmem, hle⟩ := not_or.mp hnew
      split at h
      · rename_i r₁ hr₁
        cases h
        refine ⟨fun hin => hmem (Finset.mem_insert_of_mem hin), fun a => ?_, fun a => ?_,
          fun a => ?_⟩
        · by_cases ha : a = delegator <;> simp [SampleProxies.store, ha]
        · by_cases ha : a = delegator <;> simp [SampleProxies.store, ha]
        · have hreserved := Reserves.reserve_reserved hr₁ a
          by_cases ha : a = delegator
          · subst ha
            rw [if_pos rfl] at hreserved
            omega
          · rw [if_neg ha] at hreserved
            rw [hreserved]
            simp [SampleProxies.store, ha]
      · cases h
  removeProxyDelegate_spec {delegator delegatee p r p' r'} h := by
    dsimp only at h
    split at h
    · rename_i hmem
      cases h
      refine ⟨hmem, fun a => ?_, fun a => ?_, fun a => ?_⟩
      · by_cases ha : a = delegator <;> simp [SampleProxies.store, ha]
      · by_cases ha : a = delegator <;> simp [SampleProxies.store, ha]
      · rw [Reserves.unreserve_reserved_sub]
        by_cases ha : a = delegator
        · rw [if_pos ha, ha]
        · simp [SampleProxies.store, ha]
    · cases h

def sampleConfig : Config ℕ SampleNft SampleProxies where
  rules := Reserves.Rules.permissive
  nft := sampleNft
  proxy := sampleProxy
  createClassDeposit := 200
  createTokenDeposit := 10
  subAccount c := 1000 + c
  subAccount_injective _ _ h := Nat.add_left_cancel h
  createTokenDeposit_fits := by decide

def sampleState : State ℕ SampleNft SampleProxies where
  balances := { free := fun _ => 500, reserved := fun _ => 0 }
  nft := ⟨∅, ∅, 0, fun _ => 0⟩
  proxy := ⟨fun _ => ∅, fun _ => 0⟩

theorem sampleState_genesis : Genesis sampleConfig sampleState where
  reserved _ := rfl
  classes := rfl
  tokens := rfl
  delegates _ := rfl
  depositOf _ := rfl

/-- Account 1 creates a class, whose owner mints three tokens to account 2. One of them goes to
account 3, which burns it, and one from account 2 to itself. -/
def sampleCalls : List (Call ℕ) :=
  [.createClass 1 [] ⟨true, true⟩, .mint 1000 2 0 [] 3, .transfer 2 3 (0, 1),
    .transfer 2 2 (0, 0), .burn 3 (0, 1)]

/-- The owner of the class has its deposit and that of its proxy reserved, account 2 those of the
two tokens it has left. The next token that account 2 burns releases one of them. -/
theorem sampleCalls_reserved :
    let last := Machine.run (step sampleConfig) sampleState sampleCalls
    last.balances.reserved 1000 = 230 ∧ last.balances.reserved 2 = 20 ∧
      last.balances.reserved 3 = 0 ∧
      Releases last (step sampleConfig last (.burn 2 (0, 2))) 2 10 := by
  intro last
  have hlast : last = Machine.run (step sampleConfig) sampleState sampleCalls := rfl
  obtain ⟨hclass, hother, hburn, -⟩ := reserved_of_run sampleState_genesis sampleCalls
  rw [← hlast] at hclass hother hburn
  have hlookup : (sampleNft.classes last.nft).lookup 0
      = some ⟨1000, 2, ⟨200, ⟨true, true⟩⟩⟩ := by decide +kernel
  have howners : ∀ e ∈ (sampleNft.classes last.nft).entries, e.2.owner = 1000 := by
    decide +kernel
  have htokens : tokenDeposits sampleConfig last.nft 1000 = 0 ∧
      tokenDeposits sampleConfig last.nft 2 = 20 ∧
      tokenDeposits sampleConfig last.nft 3 = 0 := by decide +kernel
  have hsucceeds : Dispatch.succeeds ((Call.burn 2 (0, 2)).call sampleConfig) last = true := by
    decide +kernel
  have hdeposit : (sampleNft.tokens last.nft).lookup (0, 2) = some ⟨2, ⟨10⟩⟩ := by decide +kernel
  -- from here on the calls need not be run again
  clear_value last
  have hne : ∀ a, a ≠ 1000 → ∀ c info,
      (sampleNft.classes last.nft).lookup c = some info → info.owner ≠ a := by
    rintro a ha c info hinfo rfl
    exact ha (howners _ (mem_entries_iff.mpr hinfo))
  obtain ⟨info, hinfo, -, hreleased, -⟩ := hburn _ 2 (0, 2) (.inl rfl) hsucceeds
  obtain rfl := Option.some.inj (hdeposit.symm.trans hinfo)
  have hreserved := hclass 0 _ hlookup
  rw [htokens.1] at hreserved
  exact ⟨hreserved, (hother 2 (hne 2 (by decide))).trans htokens.2.1,
    (hother 3 (hne 3 (by decide))).trans htokens.2.2, hreleased⟩

end Setheum.Nft
