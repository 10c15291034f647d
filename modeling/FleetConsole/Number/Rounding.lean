/-! Rounding of fractions: to the nearest whole number, and to the nearest binary fraction of a
given precision, ties going to the even neighbour. Powers are written with `Nat.pow`, which means
the same with an algebra library in scope and without. -/
namespace FleetConsole.Number

/-- The whole number nearest to `num / den`; a tie goes to the even one. -/
def roundHalfEven (num den : Nat) : Nat :=
  let whole := num / den
  let twice := 2 * (num % den)
  if twice < den then whole
  else if den < twice then whole + 1
  else whole + whole % 2

/-- The whole number nearest to `num / den`; a tie goes up. -/
def roundHalfUp (num den : Nat) : Nat := (2 * num + den) / (2 * den)

/-- The number `significand * 2 ^ exponent`. -/
structure Dyadic where
  significand : Nat
  exponent : Int
  deriving DecidableEq, Repr

namespace Dyadic

/-- Numerator and denominator. -/
def fraction (d : Dyadic) : Nat × Nat :=
  if 0 ≤ d.exponent then (d.significand * Nat.pow 2 d.exponent.toNat, 1)
  else (d.significand, Nat.pow 2 (-d.exponent).toNat)

/-- `num / den` in units of `2 ^ exponent`. -/
def scaled (num den : Nat) (exponent : Int) : Nat × Nat :=
  if 0 ≤ exponent then (num, den * Nat.pow 2 exponent.toNat)
  else (num * Nat.pow 2 (-exponent).toNat, den)

/-- The exponent of the largest power of two not above `num / den`. -/
def floorLog (num den : Nat) : Int :=
  let guess : Int := (Nat.log2 num : Int) - (Nat.log2 den : Int)
  let unit := scaled num den guess
  if unit.2 ≤ unit.1 then guess else guess - 1

/-- The number with `precision` bits nearest to the positive fraction `num / den`; below the range
of full precision the unit stays `2 ^ least`. -/
def nearest (precision : Nat) (least : Int) (num den : Nat) : Dyadic :=
  let exponent := max least (floorLog num den - (precision - 1))
  let unit := scaled num den exponent
  ⟨roundHalfEven unit.1 unit.2, exponent⟩

end Dyadic

end FleetConsole.Number
