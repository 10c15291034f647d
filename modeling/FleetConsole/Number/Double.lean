import FleetConsole.Number.Decimal
import FleetConsole.Number.Rounding
import FleetConsole.Text.Split

/-! Double-precision numbers by their bits: the one nearest to a decimal text, and the shortest
decimal text that is nearest to no other. -/
namespace FleetConsole.Number

/-- A double-precision number in its 64-bit layout: sign, eleven exponent bits, 52 fraction bits. -/
structure Double where
  bits : UInt64
  deriving DecidableEq, Repr, Inhabited

namespace Double

def ofParts (negative : Bool) (magnitude : Nat) : Double :=
  ⟨UInt64.ofNat (magnitude + if negative then Nat.pow 2 63 else 0)⟩

def isNegative (d : Double) : Bool := Nat.pow 2 63 ≤ d.bits.toNat

def magnitude (d : Double) : Nat := d.bits.toNat % Nat.pow 2 63

/-- The bits of infinity, above those of every finite number. -/
def infiniteMagnitude : Nat := 2047 * Nat.pow 2 52

def notANumber : Double := ofParts false (infiniteMagnitude + Nat.pow 2 51)

/-- The bits of a rounded number: its significand has 53 bits, or fewer at the least exponent. -/
def magnitudeOf (d : Dyadic) : Nat :=
  let fields := (d.exponent + 1074).toNat * Nat.pow 2 52 + d.significand
  min fields infiniteMagnitude

/-- The double nearest to a decimal; a tie goes to the even one, and what lies beyond the greatest
finite number by half a unit or more is infinite. -/
def ofDecimal : Decimal → Double
  | .notANumber => notANumber
  | .infinite negative => ofParts negative infiniteMagnitude
  | .finite negative digits exponent =>
    match Decimal.extent 400 digits exponent with
    | .tiny => ofParts negative 0
    | .huge => ofParts negative infiniteMagnitude
    | .between num den => ofParts negative (magnitudeOf (Dyadic.nearest 53 (-1074) num den))

def ofText? (s : String) : Option Double := (Decimal.read s).map ofDecimal

/-- A whole number, exact up to `2 ^ 53`. -/
def ofNat (n : Nat) : Double := ofDecimal (.finite false n 0)

/-- The value of a finite magnitude and the interval of numbers that round to it, in quarters of
the unit `2 ^ exponent`. The lower half of the interval is narrower at a power of two. -/
structure Neighbourhood where
  below : Nat
  value : Nat
  above : Nat
  exponent : Int
  /-- Whether the two ends round to the value too. -/
  closed : Bool
  deriving DecidableEq, Repr

def neighbourhood (magnitude : Nat) : Neighbourhood :=
  let field := magnitude / Nat.pow 2 52
  let fraction := magnitude % Nat.pow 2 52
  let significand := if field = 0 then fraction else Nat.pow 2 52 + fraction
  let exponent : Int := if field = 0 then -1074 else Int.ofNat field - 1075
  let narrow := fraction == 0 && 1 < field
  ⟨4 * significand - (if narrow then 1 else 2), 4 * significand, 4 * significand + 2,
    exponent - 2, significand % 2 == 0⟩

/-- The multiples of `10 ^ power` next to the value that round to it, the nearer one if both do;
of two equally near the greater one. -/
def onGrid (n : Neighbourhood) (power : Int) : Option Nat :=
  -- everything is brought to a common unit: the value is `v / den` grid steps
  let up (k : Int) : Nat := if 0 ≤ k then Nat.pow 2 k.toNat else 1
  let down (k : Int) : Nat := if k < 0 then Nat.pow 2 (-k).toNat else 1
  let ten (k : Int) : Nat := if 0 ≤ k then Nat.pow 10 k.toNat else 1
  let num (x : Nat) : Nat := x * up n.exponent * ten (-power)
  let den : Nat := down n.exponent * ten power
  let floor := num n.value / den
  let holds (c : Nat) : Bool :=
    if n.closed then num n.below ≤ c * den && c * den ≤ num n.above
    else num n.below < c * den && c * den < num n.above
  match holds floor, holds (floor + 1) with
  | true, true =>
    if num n.value - floor * den < (floor + 1) * den - num n.value then some floor
    else some (floor + 1)
  | true, false => some floor
  | false, true => some (floor + 1)
  | false, false => none

/-- The first grid that holds a number rounding to the value, from coarse to fine. -/
def firstOnGrids (n : Neighbourhood) : List Int → Option (Nat × Int)
  | [] => none
  | power :: finer =>
    match onGrid n power with
    | some c => some (c, power)
    | none => firstOnGrids n finer

/-- Every power of ten that can be the unit of a shortest decimal, coarse to fine. -/
def grids (n : Neighbourhood) : List Int :=
  let unit := Dyadic.fraction ⟨n.value, n.exponent⟩
  let top : Int := if unit.2 ≤ unit.1 then Int.ofNat (Decimal.width (unit.1 / unit.2))
    else 2 - Int.ofNat (Decimal.width (unit.2 / unit.1))
  (List.range 20).map fun i => top - Int.ofNat i

def dropTrailingZeros (digits : List Char) : List Char :=
  (digits.reverse.dropWhile (· = '0')).reverse

/-- `digits * 10 ^ power` without an exponent and without a fraction that is zero. -/
def positional (digits : Nat) (power : Int) : String :=
  let text := Nat.toDigits 10 digits
  if 0 ≤ power then String.ofList (text ++ List.replicate power.toNat '0')
  else
    let places := (-power).toNat
    let padded := List.replicate (places + 1 - text.length) '0' ++ text
    let whole := padded.take (padded.length - places)
    let part := dropTrailingZeros (padded.drop (padded.length - places))
    if part.isEmpty then String.ofList whole else String.ofList (whole ++ '.' :: part)

/-- The text of a magnitude: the fewest digits that no other double is nearest to. -/
def magnitudeText (magnitude : Nat) : String :=
  if magnitude = 0 then "0"
  else
    let n := neighbourhood magnitude
    match firstOnGrids n (grids n) with
    | some (digits, power) => positional digits power
    | none => ""

/-- The sign is kept, also of zero; what is not a number has none. -/
def text (d : Double) : String :=
  if infiniteMagnitude < d.magnitude then "NaN"
  else
    let sign := if d.isNegative then "-" else ""
    if d.magnitude = infiniteMagnitude then sign ++ "inf" else sign ++ magnitudeText d.magnitude

end Double

end FleetConsole.Number
