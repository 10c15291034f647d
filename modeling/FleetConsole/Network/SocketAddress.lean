import FleetConsole.Text.Split

/-! Addresses a server listens on: an IPv4 or IPv6 host and a 16-bit number. Readers consume
characters and return the rest, or nothing if the text does not begin as they expect. -/
namespace FleetConsole.Network

/-- Eight groups of sixteen bits. -/
abbrev Groups := List Nat

inductive SocketAddress
  | v4 (octets : List Nat) (service : Nat)
  | v6 (groups : Groups) (scope service : Nat)
  deriving DecidableEq, Repr

namespace SocketAddress

/-- A reader gives a value and the characters after it. -/
abbrev Reader (α : Type) := List Char → Option (α × List Char)

def readChar (c : Char) : Reader Unit
  | d :: cs => if c = d then some ((), cs) else none
  | [] => none

def hexDigit? (c : Char) : Option Nat :=
  if c.isDigit then some (c.toNat - 48)
  else if 'a' ≤ c && c ≤ 'f' then some (c.toNat - 87)
  else if 'A' ≤ c && c ≤ 'F' then some (c.toNat - 55)
  else none

def digit? (base : Nat) (c : Char) : Option Nat := (hexDigit? c).filter (· < base)

/-- A number of at least one digit: `bound` is the first number too large, `longest` the greatest
count of digits if there is one, and `padded` allows zeros in front. -/
def readNumber (base bound : Nat) (longest : Option Nat) (padded : Bool) : Reader Nat := fun cs =>
  let digits := cs.takeWhile fun c => (digit? base c).isSome
  let value := digits.foldl (fun n c => n * base + (digit? base c).getD 0) 0
  if digits.isEmpty || longest.any (· < digits.length) || bound ≤ value ||
      (!padded && 1 < digits.length && digits.head? = some '0') then none
  else some (value, cs.drop digits.length)

def readOctet : Reader Nat := readNumber 10 256 (some 3) false

def readOctets : Reader (List Nat) := fun cs => do
  let (a, cs) ← readOctet cs
  let (_, cs) ← readChar '.' cs
  let (b, cs) ← readOctet cs
  let (_, cs) ← readChar '.' cs
  let (c, cs) ← readOctet cs
  let (_, cs) ← readChar '.' cs
  let (d, cs) ← readOctet cs
  some ([a, b, c, d], cs)

def readService : Reader Nat := fun cs => do
  let (_, cs) ← readChar ':' cs
  readNumber 10 65536 none true cs

/-- A colon stands before every group but the first. -/
def readSeparated {α : Type} (index : Nat) (read : Reader α) : Reader α := fun cs =>
  if index = 0 then read cs else (readChar ':' cs).bind fun r => read r.2

/-- Up to `room` groups; four octets may stand for the last two. Says whether they did. -/
def readGroups (index : Nat) : (room : Nat) → List Char → Groups × Bool × List Char
  | 0, cs => ([], false, cs)
  | room + 1, cs =>
    let octets := if 1 ≤ room then readSeparated index readOctets cs else none
    match octets with
    | some ([a, b, c, d], rest) => ([a * 256 + b, c * 256 + d], true, rest)
    | _ =>
      match readSeparated index (readNumber 16 65536 (some 4) true) cs with
      | none => ([], false, cs)
      | some (g, rest) =>
        let (more, dotted, rest) := readGroups (index + 1) room rest
        (g :: more, dotted, rest)

/-- Eight groups, or fewer around one double colon that stands for at least one zero group. -/
def readIpv6 : Reader Groups := fun cs => do
  let (front, dotted, cs) := readGroups 0 8 cs
  if front.length = 8 then some (front, cs)
  else if dotted then none
  else
    let (_, cs) ← readChar ':' cs
    let (_, cs) ← readChar ':' cs
    let (back, _, cs) := readGroups 0 (7 - front.length) cs
    some (front ++ List.replicate (8 - front.length - back.length) 0 ++ back, cs)

def readScope : Reader Nat := fun cs =>
  match readChar '%' cs with
  | none => some (0, cs)
  | some (_, rest) => (readNumber 10 4294967296 none true rest).orElse fun _ => some (0, cs)

def readV4 : Reader SocketAddress := fun cs => do
  let (octets, cs) ← readOctets cs
  let (service, cs) ← readService cs
  some (.v4 octets service, cs)

def readV6 : Reader SocketAddress := fun cs => do
  let (_, cs) ← readChar '[' cs
  let (groups, cs) ← readIpv6 cs
  let (scope, cs) ← readScope cs
  let (_, cs) ← readChar ']' cs
  let (service, cs) ← readService cs
  some (.v6 groups scope service, cs)

/-- Reads a whole text as an address. -/
def ofText? (s : String) : Option SocketAddress :=
  match (readV4 s.toList).orElse fun _ => readV6 s.toList with
  | some (address, []) => some address
  | _ => none

def octetsText (octets : List Nat) : String := Text.joinWith "." (octets.map toString)

def hexText (n : Nat) : String := String.ofList (Nat.toDigits 16 n)

/-- Start and length of the first longest run of zero groups. -/
def longestZeros (groups : Groups) : Nat × Nat :=
  let runAt (i : Nat) : Nat := ((groups.drop i).takeWhile (· = 0)).length
  (List.range groups.length).foldl
    (fun best i => if best.2 < runAt i then (i, runAt i) else best) (0, 0)

/-- The canonical text: an IPv4 address in IPv6 form keeps its octets, and otherwise the first
longest run of at least two zero groups becomes a double colon. -/
def ipv6Text (groups : Groups) : String :=
  match groups with
  | [0, 0, 0, 0, 0, 65535, high, low] =>
    "::ffff:" ++ octetsText [high / 256, high % 256, low / 256, low % 256]
  | _ =>
    let colons (gs : Groups) : String := Text.joinWith ":" (gs.map hexText)
    let (start, length) := longestZeros groups
    if 1 < length then
      colons (groups.take start) ++ "::" ++ colons (groups.drop (start + length))
    else colons groups

def text : SocketAddress → String
  | .v4 octets service => octetsText octets ++ ":" ++ toString service
  | .v6 groups scope service =>
    "[" ++ ipv6Text groups ++ (if scope = 0 then "" else "%" ++ toString scope) ++ "]:" ++
      toString service

end SocketAddress

end FleetConsole.Network
