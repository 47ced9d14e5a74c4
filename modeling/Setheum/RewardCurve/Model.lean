import Setheum.Lib.Loop
import Setheum.RewardCurve.Logarithm

/-!
# The reward curve macro

`build!` reads the parameters of an inflation curve, computes the points of a piecewise linear
approximation and generates the declaration. The parameters come as tokens; each is checked against
bounds, of which those of `max_inflation` depend on `min_inflation`. Fractions are millionths.

The curve rises to the ideal stake and then falls towards the minimal inflation. Its points are
found by walking down from the ideal stake in steps that are at most `max_length` high and wide.
-/

set_option autoImplicit false

namespace Setheum.RewardCurve

open Checked

/-! ## Parameters -/

structure Bounds where
  min : ℕ
  minStrict : Bool
  max : ℕ
  maxStrict : Bool
  deriving DecidableEq, Repr

namespace Bounds

def check (bounds : Bounds) (value : ℕ) : Bool :=
  let wrong := (bounds.minStrict && decide (value ≤ bounds.min))
    || (!bounds.minStrict && decide (value < bounds.min))
    || (bounds.maxStrict && decide (value ≥ bounds.max))
    || (!bounds.maxStrict && decide (value > bounds.max))
  !wrong

/-- A number with at least seven digits. -/
def sevenDigits (n : ℕ) : String :=
  let digits := toString n
  String.ofList (List.replicate (7 - digits.length) '0') ++ digits

def fmt (bounds : Bounds) : String :=
  (if bounds.minStrict then "]" else "[") ++ sevenDigits bounds.min ++ "; "
    ++ sevenDigits bounds.max ++ (if bounds.maxStrict then "[" else "]")

end Bounds

/-- The tokens of the curve's arguments. There is none for the rest of the language, nor for the
declaration `const NAME: TYPE = curve!(..)` around them. -/
inductive Token
  | ident (name : String)
  | colon
  | comma
  | literal (value : ℕ)
  deriving DecidableEq, Repr

inductive ParseError
  | expected (token : String)
  | tooLarge
  | invalid (message : String)
  | trailing
  deriving DecidableEq, Repr

abbrev Parse := StateT (List Token) (Except ParseError)

def parseKeyword (name : String) : Parse Unit := do
  match ← get with
  | .ident found :: rest => if found = name then set rest else throw (.expected name)
  | _ => throw (.expected name)

def parseColon : Parse Unit := do
  match ← get with
  | .colon :: rest => set rest
  | _ => throw (.expected ":")

def parseComma : Parse Unit := do
  match ← get with
  | .comma :: rest => set rest
  | _ => throw (.expected ",")

def parseLiteral : Parse ℕ := do
  match ← get with
  | .literal value :: rest => set rest; return value
  | _ => throw (.expected "integer literal")

/-- Why a value of a field is refused. -/
def invalidField (name : String) (value : ℕ) (bounds : Bounds) : ParseError :=
  .invalid ("Invalid " ++ name ++ ": " ++ toString value ++ ",  must be in " ++ bounds.fmt)

def parseField (name : String) (bounds : Bounds) : Parse ℕ := do
  parseKeyword name
  parseColon
  let value ← parseLiteral
  unless value < u32Size do throw .tooLarge
  unless bounds.check value do throw (invalidField name value bounds)
  return value

/-- An optional comma, and then nothing. -/
def parseEnd : Parse Unit := do
  match ← get with
  | .comma :: rest => set rest
  | _ => pure ()
  unless (← get).isEmpty do throw .trailing

structure INposInput where
  minInflation : ℕ
  idealStake : ℕ
  maxInflation : ℕ
  falloff : ℕ
  maxPieceCount : ℕ
  testPrecision : ℕ
  deriving DecidableEq, Repr

namespace INposInput

def minInflationBounds : Bounds := ⟨0, true, 1000000, false⟩

def maxInflationBounds (minInflation : ℕ) : Bounds := ⟨minInflation, true, 1000000, false⟩

def idealStakeBounds : Bounds := ⟨100000, false, 900000, false⟩

def falloffBounds : Bounds := ⟨10000, false, 1000000, false⟩

def maxPieceCountBounds : Bounds := ⟨2, false, 1000, false⟩

def testPrecisionBounds : Bounds := ⟨0, false, 1000000, false⟩

/-- The arguments of `curve!`, with an optional comma at the end. -/
def parseArgs : Parse INposInput := do
  let minInflation ← parseField "min_inflation" minInflationBounds
  parseComma
  let maxInflation ← parseField "max_inflation" (maxInflationBounds minInflation)
  parseComma
  let idealStake ← parseField "ideal_stake" idealStakeBounds
  parseComma
  let falloff ← parseField "falloff" falloffBounds
  parseComma
  let maxPieceCount ← parseField "max_piece_count" maxPieceCountBounds
  parseComma
  let testPrecision ← parseField "test_precision" testPrecisionBounds
  parseEnd
  return ⟨minInflation, idealStake, maxInflation, falloff, maxPieceCount, testPrecision⟩

def parse (tokens : List Token) : Except ParseError INposInput := parseArgs.run' tokens

end INposInput

/-! ## Points -/

def million : ℕ := 1000000

structure INPoS where
  i0 : ℕ
  iIdealTimesXIdeal : ℕ
  iIdeal : ℕ
  xIdeal : ℕ
  d : ℕ

namespace INPoS

def fromInput (input : INposInput) : Runs INPoS := do
  let quotient ← div (input.maxInflation * million) input.idealStake
  let iIdeal ← intoU32 quotient
  return ⟨input.minInflation, input.maxInflation, iIdeal, input.idealStake, input.falloff⟩

/-- The stake beyond the ideal one at which the inflation is `y`. -/
def computeOppositeAfterXIdeal (b : Build) (inpos : INPoS) (y : ℕ) : Runs ℕ :=
  if y = inpos.i0 then .ok (u32Size - 1)
  else do
    let p ← b.sub u32Size inpos.iIdealTimesXIdeal inpos.i0
    let q ← b.sub u32Size y inpos.i0
    let log ← log2 b p q
    let term ← intoU32 (inpos.d * log / 1000000)
    b.add u32Size inpos.xIdeal term

end INPoS

/-- A stake and its inflation. -/
abbrev Point := ℕ × ℕ

/-- The walk down the curve: the points so far, the height of the next step and the inflation
reached. -/
structure Walk where
  points : List Point
  deltaY : ℕ
  y : ℕ

/-- `points.last().unwrap()`. -/
def lastPoint (points : List Point) : Runs Point := points.getLast?.elim panicked .ok

/-- One pass of the loop. -/
def Walk.step (b : Build) (input : INposInput) (inpos : INPoS) (maxLength : ℕ) (walk : Walk) :
    Runs (Loop.Next Walk (List Point)) :=
  if walk.deltaY = 0 then .ok (.done (walk.points ++ [(1000000, inpos.i0)]))
  else do
    let nextY ← b.sub u32Size walk.y walk.deltaY
    if nextY ≤ input.minInflation then
      return .again { walk with deltaY := walk.deltaY - 1 }
    let nextX ← inpos.computeOppositeAfterXIdeal b nextY
    let prev ← lastPoint walk.points
    let width ← b.sub u32Size nextX prev.1
    if maxLength < width then
      return .again { walk with deltaY := walk.deltaY - 1 }
    if 1000000 ≤ nextX then
      -- the inflation at a stake of one, on the line from the previous point to this one
      let beyond ← b.sub u32Size nextX 1000000
      let height ← b.sub u32Size prev.2 nextY
      let quotient ← div (beyond * height) width
      let rise ← intoU32 quotient
      let y ← b.add u32Size nextY rise
      return .done (walk.points ++ [(1000000, y)])
    return .again ⟨walk.points ++ [(nextX, nextY)], walk.deltaY, nextY⟩

def Walk.run (b : Build) (input : INposInput) (inpos : INPoS) (maxLength fuel : ℕ) (walk : Walk) :
    Runs (List Point) :=
  Loop.run (Walk.step b input inpos maxLength) (.error .unfinished) fuel walk

/-- The greatest height and width of a piece. -/
def maxLength (b : Build) (input : INposInput) : Runs ℕ := do
  let range ← b.sub u32Size input.maxInflation input.minInflation
  let total ← b.add u32Size range 1000000
  let total ← b.sub u32Size total input.idealStake
  let pieces ← b.sub u32Size input.maxPieceCount 1
  div total pieces

/-- The walk from the ideal stake. Every pass lowers the height or the inflation, which bounds the
number of passes. -/
def computePoints (b : Build) (input : INposInput) : Runs (List Point) := do
  let inpos ← INPoS.fromInput input
  let maxLength ← maxLength b input
  let points := [(0, inpos.i0), (inpos.xIdeal, inpos.iIdealTimesXIdeal)]
  Walk.run b input inpos maxLength (maxLength + input.maxInflation + 1)
    ⟨points, maxLength, input.maxInflation⟩

/-! ## The declaration -/

/-- `Perbill::from_parts`, which does not go beyond one. -/
def fromParts (parts : ℕ) : ℕ := min parts 1000000000

/-- Points and the maximum of their inflation, in billionths. -/
structure PiecewiseLinear where
  points : List Point
  maximum : ℕ
  deriving DecidableEq, Repr

/-- `checked_mul(1_000)`. -/
def perbillOf (n : ℕ) : Option ℕ := if n * 1000 < u32Size then some (n * 1000) else none

def generatePoint (p : Point) : Runs Point :=
  match perbillOf p.1, perbillOf p.2 with
  | some x, some y => .ok (fromParts x, fromParts y)
  | _, _ => panicked

def generatePiecewiseLinear (points : List Point) : Runs PiecewiseLinear := do
  let max := (perbillOf ((points.map Prod.snd).max?.getD 0)).getD 1000000000
  let points ← points.mapM generatePoint
  return ⟨points, fromParts max⟩

/-- The macro: the tokens of the arguments to the declaration, or the error it reports. -/
def build (b : Build) (tokens : List Token) : Except ParseError (Runs PiecewiseLinear) := do
  let input ← INposInput.parse tokens
  return computePoints b input >>= generatePiecewiseLinear

end Setheum.RewardCurve
