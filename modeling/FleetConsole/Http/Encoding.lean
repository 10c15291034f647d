import FleetConsole.Network.SocketAddress

/-! Bytes behind a request line: text in UTF-8, percent-encoded bytes, and the pairs of a query. -/
namespace FleetConsole.Http

/-- What the first byte of a character says: the number of bytes that follow, and the range of the
first of these. -/
structure Lead where
  following : Nat
  least : Nat
  greatest : Nat
  deriving DecidableEq, Repr

def lead? (b : Nat) : Option Lead :=
  if b < 0x80 then some ⟨0, 0, 0⟩
  else if b < 0xC2 then none
  else if b < 0xE0 then some ⟨1, 0x80, 0xBF⟩
  else if b = 0xE0 then some ⟨2, 0xA0, 0xBF⟩
  else if b = 0xED then some ⟨2, 0x80, 0x9F⟩
  else if b < 0xF0 then some ⟨2, 0x80, 0xBF⟩
  else if b = 0xF0 then some ⟨3, 0x90, 0xBF⟩
  else if b < 0xF4 then some ⟨3, 0x80, 0xBF⟩
  else if b = 0xF4 then some ⟨3, 0x80, 0x8F⟩
  else none

/-- The bytes that continue a character, as far as they are well-formed. -/
def continuation (l : Lead) (bytes : List Nat) : List Nat :=
  match bytes with
  | [] => []
  | b :: rest =>
    if l.following = 0 then []
    else if l.least ≤ b && b ≤ l.greatest then
      b :: (rest.take (l.following - 1)).takeWhile fun c => 0x80 ≤ c && c ≤ 0xBF
    else []

/-- The character of a complete sequence. -/
def character (first : Nat) (l : Lead) (tail : List Nat) : Char :=
  let head := if l.following = 0 then first else first % Nat.pow 2 (6 - l.following)
  Char.ofNat (tail.foldl (fun n b => n * 64 + b % 64) head)

/-- The characters of a byte sequence. Each longest beginning of a character that breaks off, and
each byte that cannot begin one, gives `none`; `skip` counts bytes already used. -/
def decodeUtf8 : List Nat → (skip : Nat) → List (Option Char)
  | [], _ => []
  | _ :: rest, skip + 1 => decodeUtf8 rest skip
  | b :: rest, 0 =>
    match lead? b with
    | none => none :: decodeUtf8 rest 0
    | some l =>
      let tail := continuation l rest
      (if tail.length = l.following then some (character b l tail) else none) ::
        decodeUtf8 rest tail.length

/-- Reads well-formed UTF-8 only. -/
def utf8? (bytes : List Nat) : Option String :=
  ((decodeUtf8 bytes 0).mapM id).map String.ofList

/-- Puts the replacement character where the bytes are not well-formed. -/
def utf8Lossy (bytes : List Nat) : String :=
  String.ofList ((decodeUtf8 bytes 0).map (·.getD '\ufffd'))

def utf8Bytes (cs : List Char) : List Nat :=
  (String.ofList cs).toUTF8.toList.map UInt8.toNat

/-- The bytes of a text in which a percent sign before two hexadecimal digits spells a byte. -/
def percentDecode : List Char → List Nat
  | '%' :: a :: b :: rest =>
    match Network.SocketAddress.hexDigit? a, Network.SocketAddress.hexDigit? b with
    | some high, some low => (high * 16 + low) :: percentDecode rest
    | _, _ => 37 :: percentDecode (a :: b :: rest)
  | c :: rest => utf8Bytes [c] ++ percentDecode rest
  | [] => []

/-- One side of a query pair: a plus sign stands for a space. -/
def queryText (cs : List Char) : String :=
  utf8Lossy (percentDecode (cs.map fun c => if c = '+' then ' ' else c))

/-- The pairs of a query; a part without an equals sign is a name with an empty value, and empty
parts are passed over. -/
def queryPairs (query : String) : List (String × String) :=
  ((query.toList.splitOn '&').filter (!·.isEmpty)).map fun part =>
    (queryText (part.takeWhile (· ≠ '=')), queryText ((part.dropWhile (· ≠ '=')).drop 1))

end FleetConsole.Http
