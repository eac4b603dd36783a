/-
# Waitset.Duration -- spans of time in whole nanoseconds

A duration is a number of nanoseconds that fits 64-bit seconds and a fraction.  Sums that do not fit
do not exist: `add?` says so instead of wrapping.  `text` is the short form for people, in the
largest unit of which there is at least one.
-/

namespace Waitset

/-- A span of time, in nanoseconds. -/
structure Duration where
  nanos : Nat
  deriving DecidableEq, Repr

namespace Duration

/-- Nanoseconds in a second. -/
def perSecond : Nat := 1000000000

/-- Durations stop where 64-bit seconds stop. -/
def limit : Nat := Nat.pow 2 64 * perSecond

def zero : Duration := ⟨0⟩

/-- Seconds and the nanoseconds beyond them. -/
def ofParts (seconds nanos : Nat) : Duration := ⟨seconds * perSecond + nanos⟩

def ofMillis (millis : Nat) : Duration := ⟨millis * 1000000⟩

/-- Whole seconds. -/
def seconds (d : Duration) : Nat := d.nanos / perSecond

/-- Nanoseconds beyond the whole seconds. -/
def fraction (d : Duration) : Nat := d.nanos % perSecond

/-- Whole milliseconds. -/
def millis (d : Duration) : Nat := d.nanos / 1000000

/-- Whole microseconds. -/
def micros (d : Duration) : Nat := d.nanos / 1000

/-- The sum, unless it is too long for a duration. -/
def add? (a b : Duration) : Option Duration :=
  if a.nanos + b.nanos < limit then some ⟨a.nanos + b.nanos⟩ else none

/-- A part of the duration, rounded down; there is no part by zero. -/
def div? (d : Duration) (n : Nat) : Option Duration :=
  if n = 0 then none else some ⟨d.nanos / n⟩

def min (a b : Duration) : Duration := ⟨Nat.min a.nanos b.nanos⟩

def max (a b : Duration) : Duration := ⟨Nat.max a.nanos b.nanos⟩

/-! ## The short text -/

/-- Exactly `width` decimal digits of `n`, the high ones first. -/
def paddedDigits (width n : Nat) : List Char :=
  (List.range width).map fun i => Char.ofNat (48 + n / Nat.pow 10 (width - 1 - i) % 10)

/-- Drops the zeros at the end. -/
def trimZeros (digits : List Char) : List Char :=
  (digits.reverse.dropWhile (· == '0')).reverse

/-- A decimal number whose fraction is `part / 10 ^ width`, without zeros at its end. -/
def decimalText (whole part width : Nat) : String :=
  match trimZeros (paddedDigits width part) with
  | [] => toString whole
  | digits => toString whole ++ "." ++ String.ofList digits

/-- The duration in the largest of the units second, millisecond, microsecond and nanosecond of
which there is at least one, with as many decimals as are needed. -/
def text (d : Duration) : String :=
  if 0 < d.seconds then decimalText d.seconds d.fraction 9 ++ "s"
  else if 1000000 ≤ d.nanos then decimalText d.millis (d.nanos % 1000000) 6 ++ "ms"
  else if 1000 ≤ d.nanos then decimalText d.micros (d.nanos % 1000) 3 ++ "µs"
  else toString d.nanos ++ "ns"

/-! ## Small laws -/

theorem add?_eq_some_iff {a b c : Duration} :
    a.add? b = some c ↔ a.nanos + b.nanos < limit ∧ c.nanos = a.nanos + b.nanos := by
  unfold add?
  split
  · rename_i h
    constructor
    · intro hc
      cases hc
      exact ⟨h, rfl⟩
    · rintro ⟨_, hc⟩
      cases c
      simp_all
  · rename_i h
    simp [h]

theorem seconds_ofParts {s n : Nat} (h : n < perSecond) : (ofParts s n).seconds = s := by
  simp only [ofParts, seconds, perSecond] at *
  omega

theorem fraction_ofParts {s n : Nat} (h : n < perSecond) : (ofParts s n).fraction = n := by
  simp only [ofParts, fraction, perSecond] at *
  omega

example : (ofParts 0 0).text = "0ns" := by decide +kernel
example : (ofParts 0 1500).text = "1.5µs" := by decide +kernel
example : (ofParts 0 10000000).text = "10ms" := by decide +kernel
example : (ofParts 59 999999999).text = "59.999999999s" := by decide +kernel

end Duration

end Waitset
