import Mathlib.Logic.Basic

/-!
# Provider and consumer references of accounts

The system keeps, for every account, how many parties provide for its existence and how many
depend on it. An account that is depended on has a provider, which is a field of `References`. A
consumer reference needs a provider; dropping one that is not held is logged and does nothing.

* `incConsumers_spec` — a reference is added to the account exactly when it has a provider.
* `decConsumers_consumers` — a dropped reference is the account's own.
-/

set_option autoImplicit false

/-- The reference counters of every account. -/
structure References (A : Type) where
  providers : A → Nat
  consumers : A → Nat
  provided : ∀ a, 0 < consumers a → 0 < providers a

namespace References

variable {A : Type} [DecidableEq A]

/-- Add a consumer reference; `none` when the account has no provider. -/
def incConsumers (r : References A) (who : A) : Option (References A) :=
  if h : 0 < r.providers who then
    some
      { providers := r.providers
        consumers := fun a => if a = who then r.consumers a + 1 else r.consumers a
        provided := fun a ha => by
          by_cases hwho : a = who
          · exact hwho ▸ h
          · rw [if_neg hwho] at ha
            exact r.provided a ha }
  else none

/-- Drop a consumer reference if there is one. -/
def decConsumers (r : References A) (who : A) : References A where
  providers := r.providers
  consumers a := if a = who then r.consumers a - 1 else r.consumers a
  provided a ha := by
    refine r.provided a ?_
    by_cases hwho : a = who
    · rw [if_pos hwho] at ha
      omega
    · rw [if_neg hwho] at ha
      exact ha

/-- The counters when every account has one provider. -/
def provideAll : References A where
  providers _ := 1
  consumers _ := 0
  provided _ h := absurd h (Nat.lt_irrefl 0)

/-- With a provider, exactly one reference is added. -/
theorem incConsumers_spec {r : References A} {who : A} (h : 0 < r.providers who) :
    ∃ r', incConsumers r who = some r' ∧ r'.providers = r.providers ∧
      ∀ a, r'.consumers a = if a = who then r.consumers a + 1 else r.consumers a := by
  unfold incConsumers
  rw [dif_pos h]
  exact ⟨_, rfl, rfl, fun _ => rfl⟩

theorem incConsumers_eq_none {r : References A} {who : A} (h : r.providers who = 0) :
    incConsumers r who = none := by
  unfold incConsumers
  rw [dif_neg (by omega)]

@[simp] theorem decConsumers_providers (r : References A) (who : A) :
    (decConsumers r who).providers = r.providers := rfl

theorem decConsumers_consumers (r : References A) (who a : A) :
    (decConsumers r who).consumers a = if a = who then r.consumers a - 1 else r.consumers a := rfl

omit [DecidableEq A] in
/-- An account without providers has no consumers to lose. -/
theorem consumers_eq_zero {r : References A} {who : A} (h : r.providers who = 0) :
    r.consumers who = 0 :=
  Nat.eq_zero_of_not_pos fun hpos => by
    have hprovided := r.provided who hpos
    omega

end References
