import Setheum.RewardCurve.Model

/-!
# The parameters of the reward curve

The macro accepts its parameters in one order, separated by commas and with an optional comma at the
end, when each is within its bounds; else it reports the first that is not.

* `parseField_tokens`, `parseField_eq_ok_iff` — a field, which may be refused.
* `parse_outcome` — what is accepted, and what is reported for parameters that are refused.
-/

set_option autoImplicit false

namespace Setheum.RewardCurve

/-- A field with its value and bounds. -/
structure Field where
  name : String
  value : ℕ
  bounds : Bounds

namespace Field

def tokens (field : Field) : List Token := [.ident field.name, .colon, .literal field.value]

/-- Why the value is refused, if it is. -/
def refusal (field : Field) : Option ParseError :=
  if u32Size ≤ field.value then some .tooLarge
  else if field.bounds.check field.value then none
  else some (invalidField field.name field.value field.bounds)

end Field

/-- The outcome for a value that may be refused. -/
def answer {α : Type} (refusal : Option ParseError) (a : α) : Except ParseError α :=
  refusal.elim (.ok a) .error

/-! ## Parsers -/

section Parsers

variable {α β : Type} {s s' : List Token}

theorem bind_eq_ok_iff {x : Parse α} {f : α → Parse β} {b : β} :
    (x >>= f).run s = .ok (b, s') ↔
      ∃ a t, x.run s = .ok (a, t) ∧ (f a).run t = .ok (b, s') := by
  rw [StateT.run_bind]
  cases hx : x.run s with
  | error e => simp [bind, Except.bind]
  | ok at' =>
      obtain ⟨a, t⟩ := at'
      simp [bind, Except.bind]

theorem pure_eq_ok_iff {a b : α} :
    (pure a : Parse α).run s = .ok (b, s') ↔ b = a ∧ s' = s := by
  rw [StateT.run_pure]
  show Except.ok (a, s) = .ok (b, s') ↔ _
  rw [Except.ok.injEq, Prod.mk.injEq, eq_comm, @eq_comm _ s]

theorem parseKeyword_run (name : String) (s : List Token) :
    (parseKeyword name).run s = match s with
      | .ident found :: rest => if found = name then .ok ((), rest) else .error (.expected name)
      | _ => .error (.expected name) := by
  rcases s with _ | ⟨t, s⟩
  · rfl
  · cases t with
    | ident found =>
        show StateT.run (if found = name then set s else throw (.expected name) : Parse Unit)
          (.ident found :: s) = if found = name then _ else _
        split <;> rfl
    | _ => rfl

theorem parseColon_run (s : List Token) :
    parseColon.run s = match s with
      | .colon :: rest => .ok ((), rest)
      | _ => .error (.expected ":") := by
  rcases s with _ | ⟨t, s⟩
  · rfl
  · cases t <;> rfl

theorem parseComma_run (s : List Token) :
    parseComma.run s = match s with
      | .comma :: rest => .ok ((), rest)
      | _ => .error (.expected ",") := by
  rcases s with _ | ⟨t, s⟩
  · rfl
  · cases t <;> rfl

theorem parseLiteral_run (s : List Token) :
    parseLiteral.run s = match s with
      | .literal value :: rest => .ok (value, rest)
      | _ => .error (.expected "integer literal") := by
  rcases s with _ | ⟨t, s⟩
  · rfl
  · cases t <;> rfl

theorem parseEnd_run (s : List Token) :
    parseEnd.run s = if s = [] ∨ s = [.comma] then .ok ((), []) else .error .trailing := by
  rcases s with _ | ⟨t, s⟩
  · rfl
  · cases t with
    | comma => cases s <;> rfl
    | _ => rfl

theorem parseKeyword_eq_ok_iff {name : String} {u : Unit} :
    (parseKeyword name).run s = .ok (u, s') ↔ s = .ident name :: s' := by
  rw [parseKeyword_run]
  split
  · rename_i found rest
    split
    · rename_i hfound
      simp [hfound]
    · rename_i hfound
      simp [hfound]
  · rename_i hs
    simpa using hs name s'

theorem parseColon_eq_ok_iff {u : Unit} : parseColon.run s = .ok (u, s') ↔ s = .colon :: s' := by
  rw [parseColon_run]
  split
  · simp
  · rename_i hs
    simpa using hs s'

theorem parseComma_eq_ok_iff {u : Unit} : parseComma.run s = .ok (u, s') ↔ s = .comma :: s' := by
  rw [parseComma_run]
  split
  · simp
  · rename_i hs
    simpa using hs s'

theorem parseLiteral_eq_ok_iff {value : ℕ} :
    parseLiteral.run s = .ok (value, s') ↔ s = .literal value :: s' := by
  rw [parseLiteral_run]
  split
  · simp
  · rename_i hs
    simpa using hs value s'

/-- A field that is there. -/
theorem parseField_tokens (name : String) (value : ℕ) (bounds : Bounds) (rest : List Token) :
    (parseField name bounds).run (Field.tokens ⟨name, value, bounds⟩ ++ rest)
      = answer (Field.refusal ⟨name, value, bounds⟩) (value, rest) := by
  have hkeyword : (parseKeyword name).run (Field.tokens ⟨name, value, bounds⟩ ++ rest)
      = .ok ((), .colon :: .literal value :: rest) :=
    parseKeyword_eq_ok_iff.mpr rfl
  unfold parseField
  rw [StateT.run_bind, hkeyword]
  show StateT.run (do
    unless value < u32Size do throw .tooLarge
    unless bounds.check value do throw (invalidField name value bounds)
    return value : Parse ℕ) rest = _
  unfold Field.refusal
  by_cases hlarge : u32Size ≤ value
  · rw [if_pos hlarge, if_neg (by omega)]
    rfl
  · rw [if_neg hlarge, if_pos (by omega)]
    cases hcheck : bounds.check value with
    | true => rfl
    | false => rfl

theorem parseField_eq_ok_iff {name : String} {bounds : Bounds} {value : ℕ} :
    (parseField name bounds).run s = .ok (value, s') ↔
      s = Field.tokens ⟨name, value, bounds⟩ ++ s' ∧ Field.refusal ⟨name, value, bounds⟩ = none := by
  constructor
  · intro h
    have hrun := h
    simp only [parseField, bind_eq_ok_iff, parseKeyword_eq_ok_iff, parseColon_eq_ok_iff,
      parseLiteral_eq_ok_iff] at hrun
    obtain ⟨-, t, rfl, -, t', rfl, value', t'', rfl, -⟩ := hrun
    have hgiven := h.symm.trans (parseField_tokens name value' bounds t'')
    cases hrefusal : Field.refusal ⟨name, value', bounds⟩ with
    | some e =>
        rw [hrefusal] at hgiven
        cases hgiven
    | none =>
        rw [hrefusal] at hgiven
        cases hgiven
        exact ⟨rfl, hrefusal⟩
  · rintro ⟨rfl, hrefusal⟩
    rw [parseField_tokens, hrefusal]
    rfl

/-- A field, and what is parsed after it. -/
theorem parseField_bind (name : String) (value : ℕ) (bounds : Bounds) (rest : List Token)
    (f : ℕ → Parse β) :
    (parseField name bounds >>= f).run (Field.tokens ⟨name, value, bounds⟩ ++ rest)
      = (Field.refusal ⟨name, value, bounds⟩).elim ((f value).run rest) .error := by
  rw [StateT.run_bind, parseField_tokens]
  cases Field.refusal ⟨name, value, bounds⟩ with
  | none => rfl
  | some e => rfl

theorem parseComma_bind (rest : List Token) (f : Unit → Parse β) :
    (parseComma >>= f).run (.comma :: rest) = (f ()).run rest := rfl

end Parsers

/-! ## Parameters -/

/-- Parameters within the bounds that the parser checks; the falloff's is higher than the one that is
documented. -/
structure INposInput.Valid (input : INposInput) : Prop where
  minInflation_pos : 0 < input.minInflation
  minInflation_lt : input.minInflation < input.maxInflation
  maxInflation_le : input.maxInflation ≤ 1000000
  idealStake_ge : 100000 ≤ input.idealStake
  idealStake_le : input.idealStake ≤ 900000
  falloff_ge : 10000 ≤ input.falloff
  falloff_le : input.falloff ≤ 1000000
  maxPieceCount_ge : 2 ≤ input.maxPieceCount
  maxPieceCount_le : input.maxPieceCount ≤ 1000
  testPrecision_le : input.testPrecision ≤ 1000000

/-- The parameters of the runtimes. -/
def INposInput.runtime : INposInput := ⟨25000, 500000, 100000, 50000, 40, 5000⟩

theorem INposInput.runtime_valid : INposInput.runtime.Valid := by
  constructor <;> decide

/-- The fields in the order in which they are given. -/
def INposInput.fields (input : INposInput) : List Field :=
  [⟨"min_inflation", input.minInflation, minInflationBounds⟩,
    ⟨"max_inflation", input.maxInflation, maxInflationBounds input.minInflation⟩,
    ⟨"ideal_stake", input.idealStake, idealStakeBounds⟩,
    ⟨"falloff", input.falloff, falloffBounds⟩,
    ⟨"max_piece_count", input.maxPieceCount, maxPieceCountBounds⟩,
    ⟨"test_precision", input.testPrecision, testPrecisionBounds⟩]

def INposInput.tokens (input : INposInput) : List Token :=
  [Token.comma].intercalate (input.fields.map Field.tokens)

theorem Bounds.check_iff {bounds : Bounds} {value : ℕ} :
    bounds.check value = true ↔
      (if bounds.minStrict then bounds.min < value else bounds.min ≤ value) ∧
        if bounds.maxStrict then value < bounds.max else value ≤ bounds.max := by
  obtain ⟨min, minStrict, max, maxStrict⟩ := bounds
  unfold check
  cases minStrict <;> cases maxStrict <;> simp

theorem Field.refusal_eq_none_iff {field : Field} :
    field.refusal = none ↔ field.value < u32Size ∧ field.bounds.check field.value = true := by
  unfold refusal
  split
  · rename_i hlarge
    simp [not_lt.mpr hlarge]
  · rename_i hsmall
    split
    · rename_i hcheck
      simp [not_le.mp hsmall, hcheck]
    · rename_i hcheck
      simp [hcheck]

/-- The parameters are within their bounds if no field is refused. -/
theorem INposInput.valid_iff {input : INposInput} :
    input.Valid ↔ ∀ field ∈ input.fields, field.refusal = none := by
  simp only [fields, List.forall_mem_cons, List.not_mem_nil, false_implies, implies_true,
    Field.refusal_eq_none_iff, Bounds.check_iff, minInflationBounds, maxInflationBounds,
    idealStakeBounds, falloffBounds, maxPieceCountBounds, testPrecisionBounds, u32Size,
    if_true, Bool.false_eq_true, if_false]
  constructor
  · intro hv
    have := hv.minInflation_lt
    have := hv.maxInflation_le
    have := hv.idealStake_le
    have := hv.falloff_le
    have := hv.maxPieceCount_le
    have := hv.testPrecision_le
    refine ⟨⟨?_, hv.minInflation_pos, ?_⟩, ⟨?_, hv.minInflation_lt, hv.maxInflation_le⟩,
      ⟨?_, hv.idealStake_ge, hv.idealStake_le⟩, ⟨?_, hv.falloff_ge, hv.falloff_le⟩,
      ⟨?_, hv.maxPieceCount_ge, hv.maxPieceCount_le⟩, ⟨?_, Nat.zero_le _, hv.testPrecision_le⟩,
      trivial⟩ <;> omega
  · rintro ⟨⟨-, hmin, -⟩, ⟨-, hlt, hmax⟩, ⟨-, hideal, hideal'⟩, ⟨-, hfalloff, hfalloff'⟩,
      ⟨-, hcount, hcount'⟩, ⟨-, -, hprecision⟩, -⟩
    exact ⟨hmin, hlt, hmax, hideal, hideal', hfalloff, hfalloff', hcount, hcount', hprecision⟩

/-- What is reported for these parameters. -/
def INposInput.refusal (input : INposInput) : Option ParseError :=
  input.fields.findSome? Field.refusal

theorem INposInput.refusal_eq_none_iff {input : INposInput} :
    input.refusal = none ↔ input.Valid := by
  rw [refusal, List.findSome?_eq_none_iff, valid_iff]

/-- The first of a list to be refused is its head, or else the first of the others. -/
theorem elim_findSome?_cons {α β γ : Type} (f : α → Option β) (a : α) (l : List α) (x : γ)
    (g : β → γ) :
    ((a :: l).findSome? f).elim x g = (f a).elim ((l.findSome? f).elim x g) g := by
  rw [List.findSome?_cons]
  cases f a with
  | none => rfl
  | some b => rfl

theorem INposInput.tokens_append (input : INposInput) (rest : List Token) :
    input.tokens ++ rest =
      Field.tokens ⟨"min_inflation", input.minInflation, minInflationBounds⟩ ++ .comma ::
      (Field.tokens ⟨"max_inflation", input.maxInflation, maxInflationBounds input.minInflation⟩
        ++ .comma ::
      (Field.tokens ⟨"ideal_stake", input.idealStake, idealStakeBounds⟩ ++ .comma ::
      (Field.tokens ⟨"falloff", input.falloff, falloffBounds⟩ ++ .comma ::
      (Field.tokens ⟨"max_piece_count", input.maxPieceCount, maxPieceCountBounds⟩ ++ .comma ::
      (Field.tokens ⟨"test_precision", input.testPrecision, testPrecisionBounds⟩ ++ rest))))) :=
  rfl

/-- The fields are read in order, and the first that is refused is reported. -/
theorem INposInput.parse_tokens (input : INposInput) (rest : List Token) :
    parse (input.tokens ++ rest) =
      input.refusal.elim (if rest = [] ∨ rest = [.comma] then .ok input else .error .trailing)
        .error := by
  have hrun : parseArgs.run (input.tokens ++ rest) = input.refusal.elim
      (if rest = [] ∨ rest = [.comma] then .ok (input, []) else .error .trailing) .error := by
    unfold parseArgs refusal fields
    rw [tokens_append, parseField_bind, parseComma_bind, parseField_bind, parseComma_bind,
      parseField_bind, parseComma_bind, parseField_bind, parseComma_bind, parseField_bind,
      parseComma_bind, parseField_bind, StateT.run_bind, parseEnd_run]
    simp only [elim_findSome?_cons, List.findSome?_nil, Option.elim_none]
    split <;> rfl
  unfold parse
  rw [StateT.run'_eq, hrun]
  cases input.refusal with
  | some e => rfl
  | none =>
      rw [Option.elim_none, Option.elim_none]
      split <;> rfl

/-- What is parsed is made of the tokens of the parameters. -/
theorem INposInput.tokens_of_parse {tokens : List Token} {input : INposInput}
    (h : parse tokens = .ok input) : ∃ rest, tokens = input.tokens ++ rest := by
  unfold parse at h
  rw [StateT.run'_eq] at h
  cases hrun : parseArgs.run tokens with
  | error e =>
      rw [hrun] at h
      cases h
  | ok at' =>
      obtain ⟨input', rest⟩ := at'
      obtain rfl : input' = input := by
        rw [hrun] at h
        exact Except.ok.inj h
      simp only [parseArgs, bind_eq_ok_iff, parseField_eq_ok_iff, parseComma_eq_ok_iff,
        pure_eq_ok_iff] at hrun
      obtain ⟨minInflation, -, ⟨rfl, -⟩, -, -, rfl, maxInflation, -, ⟨rfl, -⟩, -, -, rfl,
        idealStake, -, ⟨rfl, -⟩, -, -, rfl, falloff, -, ⟨rfl, -⟩, -, -, rfl,
        maxPieceCount, -, ⟨rfl, -⟩, -, -, rfl, testPrecision, rest', ⟨rfl, -⟩, -, -, -, rfl, -⟩ :=
        hrun
      exact ⟨rest', (tokens_append ⟨minInflation, idealStake, maxInflation, falloff,
        maxPieceCount, testPrecision⟩ rest').symm⟩

theorem INposInput.parse_eq_ok_iff {tokens : List Token} {input : INposInput} :
    parse tokens = .ok input ↔
      input.Valid ∧ (tokens = input.tokens ∨ tokens = input.tokens ++ [.comma]) := by
  constructor
  · intro h
    obtain ⟨rest, rfl⟩ := tokens_of_parse h
    rw [parse_tokens] at h
    cases hrefusal : input.refusal with
    | some e =>
        rw [hrefusal] at h
        cases h
    | none =>
        refine ⟨refusal_eq_none_iff.mp hrefusal, ?_⟩
        rw [hrefusal, Option.elim_none] at h
        split at h
        · rename_i hrest
          rcases hrest with rfl | rfl
          · exact .inl (List.append_nil _)
          · exact .inr rfl
        · cases h
  · rintro ⟨hv, rfl | rfl⟩
    · have hparse := input.parse_tokens []
      rwa [refusal_eq_none_iff.mpr hv, List.append_nil, Option.elim_none,
        if_pos (.inl rfl)] at hparse
    · rw [parse_tokens, refusal_eq_none_iff.mpr hv, Option.elim_none, if_pos (.inr rfl)]

/-- **The parameters are accepted in one form, if they are within their bounds; of parameters that
are not, the first that is refused is reported.** -/
theorem parse_outcome (tokens : List Token) (input : INposInput) :
    (INposInput.parse tokens = .ok input ↔
      input.Valid ∧ (tokens = input.tokens ∨ tokens = input.tokens ++ [.comma])) ∧
    ∀ rest, tokens = input.tokens ++ rest → ¬ input.Valid →
      ∃ before field after e, input.fields = before ++ field :: after ∧
        (∀ f ∈ before, f.refusal = none) ∧ field.refusal = some e ∧
        INposInput.parse tokens = .error e := by
  refine ⟨INposInput.parse_eq_ok_iff, ?_⟩
  rintro rest rfl hinvalid
  cases hrefusal : input.refusal with
  | none => exact absurd (INposInput.refusal_eq_none_iff.mp hrefusal) hinvalid
  | some e =>
      obtain ⟨before, field, after, hfields, hfield, hbefore⟩ :=
        List.findSome?_eq_some_iff.mp hrefusal
      refine ⟨before, field, after, e, hfields, hbefore, hfield, ?_⟩
      rw [INposInput.parse_tokens, hrefusal]
      rfl

/-- With the two inflations the other way around. -/
theorem parse_outcome_swapped :
    ∃ before field after e, INposInput.fields ⟨100000, 500000, 25000, 50000, 40, 5000⟩
        = before ++ field :: after ∧ (∀ f ∈ before, f.refusal = none) ∧ field.refusal = some e ∧
      INposInput.parse (INposInput.tokens ⟨100000, 500000, 25000, 50000, 40, 5000⟩) = .error e :=
  (parse_outcome _ ⟨100000, 500000, 25000, 50000, 40, 5000⟩).2 [] (List.append_nil _).symm
    fun hv => absurd hv.minInflation_lt (by decide)

end Setheum.RewardCurve
