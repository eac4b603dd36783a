/-
# Waitset.Binary64.Shortest -- the fewest decimal digits that read back

Every double is the nearest double to a whole interval of reals.  The shortest text of a double has
the fewest digits of all decimal numbers in that interval and, among those, the digits nearest to
the double itself.  Both are found in exact arithmetic: on the grid of `n`-digit decimals only the
two neighbours of the double can be the nearest ones inside the interval, so `n = 1, 2, …` is tried
until a neighbour lies inside.
-/
import Waitset.Binary64

namespace Waitset.Binary64

/-- A positive number `num / den` with the ends of the interval of reals that round to it, over the
same denominator; `closed` tells whether the ends belong to it. -/
structure Interval where
  low : Nat
  num : Nat
  high : Nat
  den : Nat
  closed : Bool

/-- The interval of `significand · 2 ^ exponent`.  It reaches half a step up and half a step down,
where the step down is half as long below a power of two.  An even significand owns both ends. -/
def interval (significand : Nat) (exponent : Int) : Interval :=
  let half := Nat.pow 2 exponent.toNat
  let down := if significand = Nat.pow 2 52 ∧ -1074 < exponent then half else 2 * half
  { low := 4 * significand * half - down
    num := 4 * significand * half
    high := 4 * significand * half + 2 * half
    den := 4 * Nat.pow 2 (-exponent).toNat
    closed := significand % 2 == 0 }

namespace Interval

/-- Whether `digits · unit` lies in the interval, where the unit is a fraction. -/
def holds (i : Interval) (digits unitNum unitDen : Nat) : Bool :=
  let scaled := digits * unitNum * i.den
  if i.closed then decide (i.low * unitDen ≤ scaled) && decide (scaled ≤ i.high * unitDen)
  else decide (i.low * unitDen < scaled) && decide (scaled < i.high * unitDen)

/-- The neighbour of the number on the grid of multiples of a unit that lies in the interval: of two
the nearer, and of two equally near the upper. -/
def neighbour? (i : Interval) (unitNum unitDen : Nat) : Option Nat :=
  let floor := i.num * unitDen / (i.den * unitNum)
  let rest := i.num * unitDen % (i.den * unitNum)
  match i.holds floor unitNum unitDen && decide (0 < floor), i.holds (floor + 1) unitNum unitDen with
  | false, false => none
  | true, false => some floor
  | false, true => some (floor + 1)
  | true, true => some (if 2 * rest < i.den * unitNum then floor else floor + 1)

/-- The first power of ten above the number, counted down from a start that is high enough. -/
def magnitude (i : Interval) : Nat → Int
  | 0 => -400
  | k + 1 =>
    let e : Int := (k : Int) - 400
    if i.num * Nat.pow 10 (-e).toNat < i.den * Nat.pow 10 e.toNat then magnitude i k else e + 1

/-- Tries grids of one digit, two digits and so on; seventeen digits always suffice. -/
def digitsFrom (i : Interval) (magnitude : Int) : Nat → Nat → Nat × Int
  | 0, _ => (0, 0)
  | fuel + 1, n =>
    let e := magnitude - (n : Int)
    match i.neighbour? (Nat.pow 10 e.toNat) (Nat.pow 10 (-e).toNat) with
    | some digits => (digits, e)
    | none => digitsFrom i magnitude fuel (n + 1)

end Interval

/-- The shortest decimal `digits · 10 ^ exponent` that reads back as the positive double
`significand · 2 ^ exponent`. -/
def shortestDigits (significand : Nat) (exponent : Int) : Nat × Int :=
  let i := interval significand exponent
  i.digitsFrom (i.magnitude 800) 17 1

/-- Positional notation of `digits · 10 ^ exponent`: no exponent, no superfluous zero, and a point
only before a fraction. -/
def positional (digits : Nat) (exponent : Int) : String :=
  let text := (toString digits).toList
  if 0 ≤ exponent then String.ofList (text ++ List.replicate exponent.toNat '0')
  else
    let places := (-exponent).toNat
    let padded := List.replicate (places + 1 - text.length) '0' ++ text
    let whole := padded.take (padded.length - places)
    let part := ((padded.drop (padded.length - places)).reverse.dropWhile (· == '0')).reverse
    if part.isEmpty then String.ofList whole
    else String.ofList whole ++ "." ++ String.ofList part

/-- The shortest text of a double. -/
def text (x : Binary64) : String :=
  match x.value with
  | .nan => "NaN"
  | .infinite negative => if negative then "-inf" else "inf"
  | .finite negative 0 _ => if negative then "-0" else "0"
  | .finite negative (m + 1) q =>
    let shortest := shortestDigits (m + 1) q
    (if negative then "-" else "") ++ positional shortest.1 shortest.2

end Waitset.Binary64
