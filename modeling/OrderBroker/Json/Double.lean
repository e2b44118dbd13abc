/-!
# Doubles as decimal text

The fewest decimal digits that read back as the same double, and of those the nearest to it. The
search is exact: a double is `m * 2 ^ q`, the decimals that round to it form an interval around it,
and for each number of digits only the two neighbours on that decimal grid can lie in the interval.

`Layout` says how the digits are then set: positional between two powers of ten, else with an
exponent that carries its sign.
-/

namespace OrderBroker.Json.Double

/-- The exact value of a finite double's magnitude: `significand * 2 ^ exponent`. -/
structure Parts where
  significand : Nat
  exponent : Int
  /-- The next smaller double is only half a step away. -/
  atPower : Bool

/-- The fraction of a double is less than this. -/
def fractionEnd : Nat := Nat.pow 2 52

/-- Reads the fields of a double. -/
def parts (bits : UInt64) : Parts :=
  let fraction : Nat := bits.toNat % fractionEnd
  let power : Nat := bits.toNat / fractionEnd % 2048
  if power = 0 then ⟨fraction, -1074, false⟩
  else ⟨fraction + fractionEnd, (power : Int) - 1075, fraction = 0 ∧ power > 1⟩

/-- The sign bit is set. -/
def isNegative (bits : UInt64) : Bool := fractionEnd * 2048 ≤ bits.toNat

/-- The digits of a natural number, the first one first. -/
def digits (n : Nat) : List Char := Nat.toDigits 10 n

/-- The power of ten that a positive quotient reaches. -/
def floorLog10 (num den : Nat) : Int :=
  if den ≤ num then ((digits (num / den)).length : Int) - 1
  else
    let tenths := (den + num - 1) / num
    let k := (digits tenths).length
    -- `den / num` rounded up has `k` digits: it is a power of ten exactly when one digit too many
    if tenths = Nat.pow 10 (k - 1) then -((k : Int) - 1) else -(k : Int)

/-- A decimal `digits * 10 ^ exponent`. -/
structure Decimal where
  digits : Nat
  exponent : Int

/-- The nearest decimal with `count` digits among those that round to the double, if any does.
The value is `4 * m` quarter steps, the interval reaches from `low` to `high` quarter steps, and a
quarter step is `unitNum / unitDen`. -/
def candidate? (m low high unitNum unitDen : Nat) (closed : Bool) (grid : Int) : Option Decimal :=
  let gridNum := if 0 ≤ grid then Nat.pow 10 grid.toNat else 1
  let gridDen := if 0 ≤ grid then 1 else Nat.pow 10 (-grid).toNat
  -- a grid point `a` lies at `a * point`, a quarter step at `step`, over one denominator
  let point := gridNum * unitDen
  let step := unitNum * gridDen
  let inside (a : Nat) : Bool :=
    if closed then low * step ≤ a * point ∧ a * point ≤ high * step
    else low * step < a * point ∧ a * point < high * step
  let value := 4 * m * step
  let below := value / point
  let above := below + 1
  match inside below, inside above with
  | true, true =>
    let down := value - below * point
    let up := above * point - value
    if down < up ∨ (down = up ∧ below % 2 = 0) then some ⟨below, grid⟩ else some ⟨above, grid⟩
  | true, false => some ⟨below, grid⟩
  | false, true => some ⟨above, grid⟩
  | false, false => none

/-- The first of the grids with one digit, two digits and so on that holds a candidate. -/
def shortestFrom (m low high unitNum unitDen : Nat) (closed : Bool) (top : Int) :
    Nat → Nat → Decimal
  | 0, _ => ⟨0, 0⟩
  | fuel + 1, count =>
    match candidate? m low high unitNum unitDen closed (top - count) with
    | some d => d
    | none => shortestFrom m low high unitNum unitDen closed top fuel (count + 1)

/-- The shortest decimal that reads back as the double, whose magnitude is positive and finite.
Seventeen digits always suffice. -/
def shortest (p : Parts) : Decimal :=
  let m := p.significand
  let unit := p.exponent - 2
  let unitNum := if 0 ≤ unit then Nat.pow 2 unit.toNat else 1
  let unitDen := if 0 ≤ unit then 1 else Nat.pow 2 (-unit).toNat
  let low := if p.atPower then 4 * m - 1 else 4 * m - 2
  let high := 4 * m + 2
  let top := floorLog10 (4 * m * unitNum) unitDen
  shortestFrom m low high unitNum unitDen (m % 2 = 0) top 18 0

/-! ## Setting the digits -/

/-- How the digits of a number are set. -/
structure Layout where
  /-- The least power of ten of the first digit that is still set positionally. -/
  lowest : Int
  /-- The least power of ten of the first digit that is set with an exponent again. -/
  highest : Int

/-- Powers from `-5` to `15` are set positionally, an integral value ends in `.0`, and an exponent
carries its sign. -/
def layout : Layout := ⟨-5, 16⟩

/-- The digits of a decimal without the zeros at their end, and the power of its first digit. -/
def normalDigits (d : Decimal) : List Char × Int :=
  let all := digits d.digits
  let kept := (all.reverse.dropWhile (· == '0')).reverse
  (kept, d.exponent + (all.length : Int) - 1)

/-- The text of a magnitude given by its digits and the power of the first. -/
def Layout.set (l : Layout) (ds : List Char) (power : Int) : List Char :=
  if l.lowest ≤ power ∧ power < l.highest then
    if power < 0 then
      '0' :: '.' :: (List.replicate (-power - 1).toNat '0' ++ ds)
    else
      let whole := power.toNat + 1
      let frac := ds.drop whole
      ds.take whole ++ List.replicate (whole - ds.length) '0' ++
        '.' :: (if frac.isEmpty then ['0'] else frac)
  else
    let mantissa := match ds with
      | [] => ['0']
      | [d] => [d]
      | d :: rest => d :: '.' :: rest
    mantissa ++ 'e' :: (if power < 0 then '-' else '+') :: digits power.natAbs

/-- The text of a finite double. -/
def text (bits : UInt64) : String :=
  let p := parts bits
  let magnitude :=
    if p.significand = 0 then ['0', '.', '0']
    else
      let (ds, power) := normalDigits (shortest p)
      layout.set ds power
  String.ofList (if isNegative bits then '-' :: magnitude else magnitude)

/-! ## Scaling a decimal significand -/

/-- A power of ten as a double; `n` is at most 308. -/
def tenTo (n : Nat) : Float := OfScientific.ofScientific 1 false n

/-- A 64-bit significand scaled by a power of ten in double arithmetic: one product or quotient
while the power is itself a double, and quotients by `1e308` before that where it is smaller still.
A result beyond the largest double does not exist. -/
def scale (f : Float) (exponent : Int) : Option Float :=
  if exponent.natAbs ≤ 308 then
    if 0 ≤ exponent then
      let g := f * tenTo exponent.natAbs
      if g.isInf then none else some g
    else some (f / tenTo exponent.natAbs)
  else if f == 0.0 then some f
  else if 0 ≤ exponent then none
  else scale (f / tenTo 308) (exponent + 308)
termination_by (-exponent).toNat
decreasing_by omega

end OrderBroker.Json.Double
