/-! Whole numbers in decimal text. A reader is given the least and greatest number it may return
and says why a text is refused. -/
namespace FleetConsole.Number

/-- Why a text is not a number of the wanted range. -/
inductive NumeralError
  | empty | invalidDigit | tooLarge | tooSmall
  deriving DecidableEq, Repr

def NumeralError.message : NumeralError → String
  | .empty => "cannot parse integer from empty string"
  | .invalidDigit => "invalid digit found in string"
  | .tooLarge => "number too large to fit in target type"
  | .tooSmall => "number too small to fit in target type"

def digitValue (c : Char) : Int := (c.toNat : Int) - 48

/-- Reads digits from the left, stopping at the first that is no digit or leaves the range. -/
def readUp (greatest : Int) : Int → List Char → Except NumeralError Int
  | total, [] => .ok total
  | total, c :: cs =>
    if !c.isDigit then .error .invalidDigit
    else if greatest < total * 10 + digitValue c then .error .tooLarge
    else readUp greatest (total * 10 + digitValue c) cs

/-- Like `readUp` below zero. -/
def readDown (least : Int) : Int → List Char → Except NumeralError Int
  | total, [] => .ok total
  | total, c :: cs =>
    if !c.isDigit then .error .invalidDigit
    else if total * 10 - digitValue c < least then .error .tooSmall
    else readDown least (total * 10 - digitValue c) cs

/-- Reads digits after an optional sign. The minus sign is a sign only where the range goes below
zero; elsewhere it is no digit. -/
def readInteger (least greatest : Int) : List Char → Except NumeralError Int
  | [] => .error .empty
  | ['+'] | ['-'] => .error .invalidDigit
  | '+' :: cs => readUp greatest 0 cs
  | '-' :: cs =>
    if least < 0 then readDown least 0 cs else .error .invalidDigit
  | cs => readUp greatest 0 cs

/-- A range of whole numbers with names for the ones in use. -/
structure Range where
  least : Int
  greatest : Int
  deriving DecidableEq, Repr

namespace Range

def signed32 : Range := ⟨-2147483648, 2147483647⟩

def unsigned32 : Range := ⟨0, 4294967295⟩

def signed64 : Range := ⟨-9223372036854775808, 9223372036854775807⟩

def unsigned64 : Range := ⟨0, 18446744073709551615⟩

def contains (r : Range) (n : Int) : Bool := r.least ≤ n && n ≤ r.greatest

def read (r : Range) (s : String) : Except NumeralError Int :=
  readInteger r.least r.greatest s.toList

end Range

end FleetConsole.Number
