/-
# Waitset.Binary64 -- double-precision numbers as exact fractions

The compaction threshold of a group is a double-precision number, given by its 64 bits.  Here such a
number is a value of exact arithmetic, `± m · 2 ^ q`, so that comparing it, and rounding a quotient
of two counts to it, are statements about natural numbers.
-/

namespace Waitset

/-- A double-precision number, given by its bits. -/
structure Binary64 where
  bits : UInt64
  deriving DecidableEq, Repr

namespace Binary64

/-- What a double-precision number stands for. -/
inductive Value where
  | nan
  | infinite (negative : Bool)
  /-- `± significand · 2 ^ exponent`. -/
  | finite (negative : Bool) (significand : Nat) (exponent : Int)
  deriving DecidableEq, Repr

/-- The sign bit. -/
def isNegative (x : Binary64) : Bool := x.bits.toNat / Nat.pow 2 63 % 2 == 1

/-- The eleven bits of the exponent. -/
def exponentField (x : Binary64) : Nat := x.bits.toNat / Nat.pow 2 52 % Nat.pow 2 11

/-- The fifty-two bits below the exponent. -/
def fractionField (x : Binary64) : Nat := x.bits.toNat % Nat.pow 2 52

/-- Decodes the bits: the top exponent means no number or infinity, the bottom one means that the
leading bit is missing. -/
def value (x : Binary64) : Value :=
  if x.exponentField = 2047 then
    if x.fractionField = 0 then .infinite x.isNegative else .nan
  else if x.exponentField = 0 then .finite x.isNegative x.fractionField (-1074)
  else .finite x.isNegative (Nat.pow 2 52 + x.fractionField) ((x.exponentField : Int) - 1075)

/-- `m₁ · 2 ^ q₁ < m₂ · 2 ^ q₂`, by bringing both to the lower exponent. -/
def scaledLt (m₁ : Nat) (q₁ : Int) (m₂ : Nat) (q₂ : Int) : Bool :=
  decide (m₁ * Nat.pow 2 (q₁ - min q₁ q₂).toNat < m₂ * Nat.pow 2 (q₂ - min q₁ q₂).toNat)

/-- Whether the number is above zero. -/
def isPositive (x : Binary64) : Bool :=
  match x.value with
  | .nan => false
  | .infinite negative => !negative
  | .finite negative m _ => !negative && decide (0 < m)

/-- Whether the number is at most one. -/
def atMostOne (x : Binary64) : Bool :=
  match x.value with
  | .nan => false
  | .infinite negative => negative
  | .finite negative m q => negative || !scaledLt 1 0 m q

/-- A threshold in (0, 1]. -/
def isThreshold (x : Binary64) : Bool := x.isPositive && x.atMostOne

/-! ## Quotients of counts -/

/-- A quotient rounded to the nearest whole number, a half to the even neighbour. -/
def divNearestEven (num den : Nat) : Nat :=
  let floor := num / den
  let rest := num % den
  if 2 * rest < den then floor
  else if den < 2 * rest then floor + 1
  else floor + floor % 2

/-- The exponent at which the quotient of two counts has fifty-three bits before the point. -/
def quotientExponent (num den : Nat) : Int :=
  let guess : Int := (Nat.log2 num : Int) - (Nat.log2 den : Int) - 52
  if scaledLt num 0 (Nat.pow 2 52 * den) guess then guess - 1 else guess

/-- The nearest double to `num / den`, as significand and exponent; the counts are positive and far
inside the range of doubles, so the result is neither subnormal nor infinite. -/
def nearestQuotient (num den : Nat) : Nat × Int :=
  let q := quotientExponent num den
  (divNearestEven (num * Nat.pow 2 (-q).toNat) (den * Nat.pow 2 q.toNat), q)

/-- Whether the quotient of two counts, rounded to the nearest double, is below the number. -/
def quotientBelow (num den : Nat) (x : Binary64) : Bool :=
  match x.value with
  | .nan => false
  | .infinite negative => !negative
  | .finite negative m q =>
    !negative && scaledLt (nearestQuotient num den).1 (nearestQuotient num den).2 m q

end Binary64

end Waitset
