import Mathlib.Data.List.Nodup

/-!
# Replay protection by spent tokens

A machine accepts events, and accepting one needs a token that has not been spent and spends it.
What is protected from replay is then the token. An event also has an identity, what it is a claim
to; whether an identity can be accepted twice depends on how identities and tokens are related.

* `tokens_nodup` — no token is accepted twice.
* `identities_nodup_iff` — no identity is accepted twice exactly when accepted events of one
  identity carry one token.
-/

set_option autoImplicit false

/-- A machine with states `S` and labels `L` that accepts events `E`, each with a token in `T`. -/
structure ReplayGuard (S L E T : Type*) where
  step : S → L → S
  accepted : S → L → Option E
  token : E → T
  Spent : S → T → Prop
  fresh : ∀ {s l e}, accepted s l = some e → ¬ Spent s (token e)
  spends : ∀ {s l e}, accepted s l = some e → Spent (step s l) (token e)
  keeps : ∀ {s t} (l : L), Spent s t → Spent (step s l) t

namespace ReplayGuard

variable {S L E T I : Type*} (g : ReplayGuard S L E T)

/-- The events a run accepts, oldest first. -/
def history : S → List L → List E
  | _, [] => []
  | s, l :: ls => (g.accepted s l).toList ++ history (g.step s l) ls

variable {g}

/-- What a run accepts had an unspent token when the run began. -/
theorem not_spent_of_mem {s : S} {ls : List L} {e : E} (he : e ∈ g.history s ls) :
    ¬ g.Spent s (g.token e) := by
  induction ls generalizing s with
  | nil => cases he
  | cons l ls ih =>
      rcases List.mem_append.mp he with hnow | hlater
      · exact g.fresh (Option.mem_toList.mp hnow)
      · intro hspent
        exact ih hlater (g.keeps l hspent)

/-- **No token is accepted twice.** -/
theorem tokens_nodup (s : S) (ls : List L) : ((g.history s ls).map g.token).Nodup := by
  induction ls generalizing s with
  | nil => exact List.nodup_nil
  | cons l ls ih =>
      rw [history]
      cases hl : g.accepted s l with
      | none => simpa using ih (g.step s l)
      | some e =>
          simp only [Option.toList_some, List.singleton_append, List.map_cons, List.nodup_cons]
          refine ⟨fun hmem => ?_, ih (g.step s l)⟩
          obtain ⟨e', he', heq⟩ := List.mem_map.mp hmem
          apply not_spent_of_mem he'
          rw [heq]
          exact g.spends hl

/-- **No identity is accepted twice exactly when accepted events of one identity carry one
token.** -/
theorem identities_nodup_iff (identity : E → I) (s : S) (ls : List L) :
    ((g.history s ls).map identity).Nodup ↔
      ∀ e ∈ g.history s ls, ∀ e' ∈ g.history s ls,
        identity e = identity e' → g.token e = g.token e' := by
  have htokens : ((g.history s ls).map g.token).Nodup := tokens_nodup s ls
  constructor
  · intro h e he e' he' heq
    rw [List.inj_on_of_nodup_map h he he' heq]
  · intro h
    apply (List.Nodup.of_map g.token htokens).map_on
    intro e he e' he' heq
    exact List.inj_on_of_nodup_map htokens he he' (h e he e' he' heq)

end ReplayGuard
