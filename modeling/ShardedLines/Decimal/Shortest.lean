/-!
The shortest decimal that reads back as a given double.

A finite double is a number `m · 2 ^ q`, and the reals that round to it form an interval, with its
ends if and only if `m` is even. On a grid of powers of ten the double has two neighbours. Grids
are tried from coarse to fine: the first one with a neighbour inside the interval gives the fewest
digits; of two such neighbours the nearer is taken, and of two equally near ones the even one.
-/

namespace ShardedLines.Decimal

/-- The decimal `digits · 10 ^ exponent`. -/
structure Scaled where
  digits : Nat
  exponent : Int
  deriving DecidableEq, Repr

/-- A double taken apart: `mantissa · 2 ^ exponent`. -/
structure Binary where
  negative : Bool
  mantissa : Nat
  exponent : Int
  /-- The gap below the number is half as wide as the gap above. -/
  narrowBelow : Bool
  deriving DecidableEq, Repr

/-- Takes the bits of a finite double apart. -/
def Binary.ofBits (bits : Nat) : Binary :=
  let fraction : Nat := bits % Nat.pow 2 52
  let biased : Nat := bits / Nat.pow 2 52 % Nat.pow 2 11
  { negative := Nat.pow 2 63 ≤ bits
    mantissa := if biased == 0 then fraction else Nat.pow 2 52 + fraction
    exponent := if biased == 0 then -1074 else (biased : Int) - 1075
    narrowBelow := fraction == 0 && 1 < biased }

/-- The numerators, over one denominator, of the lower end of the interval, the number itself and
the upper end. -/
structure Interval where
  lower : Nat
  value : Nat
  upper : Nat
  denominator : Nat
  closed : Bool

/-- The reals that round to a double. -/
def Binary.interval (b : Binary) : Interval :=
  let scale := Nat.pow 2 (b.exponent - 2).toNat
  { lower := (4 * b.mantissa - if b.narrowBelow then 1 else 2) * scale
    value := 4 * b.mantissa * scale
    upper := (4 * b.mantissa + 2) * scale
    denominator := Nat.pow 2 (2 - b.exponent).toNat
    closed := b.mantissa % 2 == 0 }

/-- The number of units of a grid that comes nearest to the value, if one lies in the interval. -/
def Interval.pick? (i : Interval) (exponent : Int) : Option Nat :=
  let zoom := Nat.pow 10 (-exponent).toNat
  let unit := Nat.pow 10 exponent.toNat * i.denominator
  let lower := i.lower * zoom
  let value := i.value * zoom
  let upper := i.upper * zoom
  let below := value / unit
  let above := below + 1
  let belowFits := below != 0 &&
    (if i.closed then lower ≤ below * unit else lower < below * unit)
  let aboveFits := if i.closed then above * unit ≤ upper else above * unit < upper
  let toBelow := value - below * unit
  let toAbove := above * unit - value
  if belowFits && aboveFits then
    if toBelow < toAbove then some below
    else if toAbove < toBelow then some above
    else if below % 2 == 0 then some below else some above
  else if belowFits then some below
  else if aboveFits then some above
  else none

/-- Tries grids from coarse to fine. -/
def Interval.search (i : Interval) : (tries : Nat) → (exponent : Int) → Scaled
  | 0, exponent =>
    ⟨i.value * Nat.pow 10 (-exponent).toNat / (Nat.pow 10 exponent.toNat * i.denominator), exponent⟩
  | tries + 1, exponent =>
    match i.pick? exponent with
    | some digits => ⟨digits, exponent⟩
    | none => i.search tries (exponent - 1)

/-- An exponent of ten of which the value is certainly less. -/
def Interval.ceiling (i : Interval) : Int :=
  if i.denominator ≤ i.value then (Nat.toDigits 10 (i.value / i.denominator)).length
  else 2 - ((Nat.toDigits 10 (i.denominator / i.value)).length : Int)

/-- The shortest decimal for a double that is finite and not zero. -/
def shortest (b : Binary) : Scaled :=
  b.interval.search 22 (b.interval.ceiling + 1)

end ShardedLines.Decimal
