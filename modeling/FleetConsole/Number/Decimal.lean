import FleetConsole.Text.Case

/-! Decimal text with an optional sign, fraction and power of ten, and the words for the infinities
and for what is not a number. -/
namespace FleetConsole.Number

/-- What a decimal text says, before any rounding. -/
inductive Decimal
  /-- `digits * 10 ^ exponent`, negated if so marked. -/
  | finite (negative : Bool) (digits : Nat) (exponent : Int)
  | infinite (negative : Bool)
  | notANumber
  deriving DecidableEq, Repr

namespace Decimal

def digitsValue (cs : List Char) : Nat :=
  cs.foldl (fun n c => n * 10 + (c.toNat - 48)) 0

/-- The power of ten after the letter e: an optional sign and at least one digit. -/
def readPower : List Char → Option Int
  | '+' :: cs => magnitude cs
  | '-' :: cs => (magnitude cs).map Neg.neg
  | cs => magnitude cs
where
  magnitude (cs : List Char) : Option Int :=
    if cs.isEmpty || !cs.all Char.isDigit then none else some (digitsValue cs : Int)

/-- Digits with at most one point among them, then an optional power of ten. -/
def readNumber (negative : Bool) (cs : List Char) : Option Decimal :=
  let whole := cs.takeWhile Char.isDigit
  let afterWhole := cs.dropWhile Char.isDigit
  let (part, rest) := match afterWhole with
    | '.' :: after => (after.takeWhile Char.isDigit, after.dropWhile Char.isDigit)
    | after => ([], after)
  if whole.isEmpty && part.isEmpty then none
  else
    let build (power : Int) : Decimal :=
      .finite negative (digitsValue (whole ++ part)) (power - part.length)
    match rest with
    | [] => some (build 0)
    | c :: power => if c = 'e' || c = 'E' then (readPower power).map build else none

def readUnsigned (negative : Bool) (cs : List Char) : Option Decimal :=
  let word := cs.map Char.toLower
  if word = "inf".toList || word = "infinity".toList then some (.infinite negative)
  else if word = "nan".toList then some .notANumber
  else readNumber negative cs

def read (s : String) : Option Decimal :=
  match s.toList with
  | '+' :: cs => readUnsigned false cs
  | '-' :: cs => readUnsigned true cs
  | cs => readUnsigned false cs

/-- The number of decimal digits of a whole number. -/
def width (n : Nat) : Nat := (Nat.toDigits 10 n).length

/-- How a positive decimal compares with the powers of ten `10 ^ -limit` and `10 ^ limit`, and its
fraction if it lies between them; so that no power of ten beyond `limit` is ever formed. -/
inductive Extent
  | tiny | huge | between (num den : Nat)
  deriving DecidableEq, Repr

def extent (limit : Nat) (digits : Nat) (exponent : Int) : Extent :=
  let leading : Int := exponent + width digits
  if digits = 0 || leading < -limit then .tiny
  else if (limit : Int) < leading then .huge
  else if 0 ≤ exponent then .between (digits * Nat.pow 10 exponent.toNat) 1
  else .between digits (Nat.pow 10 (-exponent).toNat)

end Decimal

end FleetConsole.Number
