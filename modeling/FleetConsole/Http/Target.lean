/-! What the first line of a request asks for. A target is a path, alone or behind a scheme and an
authority, or it is an authority alone. Only the path and the query lead anywhere; the rest has to
be well-formed all the same. -/
namespace FleetConsole.Http

/-- The parts of a target that say what is wanted, still encoded. -/
structure Target where
  /-- Empty if the target is an authority alone, and otherwise with a slash in front. -/
  path : List Char
  /-- What follows the question mark. -/
  query : List Char
  deriving DecidableEq, Repr

/-- What has been read of an authority. Colons and percent signs are forgotten at a closing bracket
and at an at sign: what they spoil is the host, and not an address in brackets or a user's name. -/
structure Authority where
  colons : Nat
  encoded : Bool
  opened : Bool
  closed : Bool
  deriving DecidableEq, Repr

namespace Authority

def empty : Authority := ⟨0, false, false, false⟩

/-- As many colons as an address of eight groups needs, with one for what follows it. -/
def mostColons : Nat := 8

def isPlain (c : Char) : Bool := c.isAlphanum || "!$&'()*+,-.;=_~".toList.contains c

def read (a : Authority) (c : Char) : Option Authority :=
  if c = ':' then if a.colons < mostColons then some { a with colons := a.colons + 1 } else none
  else if c = '%' then some { a with encoded := true }
  else if c = '@' then some { a with colons := 0, encoded := false }
  else if c = '[' then if a.encoded || a.opened then none else some { a with opened := true }
  else if c = ']' then
    if a.opened && !a.closed then some ⟨0, false, true, true⟩ else none
  else if isPlain c then some a
  else none

/-- Brackets come in a pair, and one colon may follow the host. -/
def isComplete (a : Authority) : Bool := a.opened == a.closed && a.colons ≤ 1 && !a.encoded

/-- Whether a text is an authority. A user's name needs a host behind it. -/
def accepts (cs : List Char) : Bool :=
  (cs.foldlM read empty).any isComplete && cs.getLast? ≠ some '@'

end Authority

namespace Target

/-- In bytes. -/
def greatestLength : Nat := 65534

def greatestSchemeLength : Nat := 64

def isSchemeChar (c : Char) : Bool := c.isAlphanum || "+-.~".toList.contains c

/-- What follows a scheme and its two slashes, if the text begins with one. -/
def afterScheme? (cs : List Char) : Option (List Char) :=
  match cs.dropWhile isSchemeChar with
  | ':' :: '/' :: '/' :: rest =>
    if (cs.takeWhile isSchemeChar).length ≤ greatestSchemeLength then some rest else none
  | _ => none

/-- Whether a character ends an authority. -/
def endsAuthority (c : Char) : Bool := c = '/' || c = '?' || c = '#'

/-- Neither a space nor a control of ASCII, nor an angle bracket. -/
def isUnbracketed (c : Char) : Bool := ' ' < c && c ≠ '\x7f' && c ≠ '<' && c ≠ '>'

def isPathChar (c : Char) : Bool := isUnbracketed c && c ≠ '\x60'

def isQueryChar (c : Char) : Bool := isUnbracketed c && c ≠ '"'

/-- Reads a path with its query; the fragment may be anything, and is dropped. No path stands for a
slash. -/
def ofPath? (cs : List Char) : Option Target :=
  let visible := cs.takeWhile (· ≠ '#')
  let path := visible.takeWhile (· ≠ '?')
  let query := (visible.dropWhile (· ≠ '?')).drop 1
  if path.all isPathChar && query.all isQueryChar then
    some ⟨if path.isEmpty then ['/'] else path, query⟩
  else none

/-- Reads a target that does not begin with a slash. An authority alone, which an asterisk is too,
has no path. -/
def ofAuthority? (cs : List Char) : Option Target :=
  match afterScheme? cs with
  | none => if Authority.accepts cs then some ⟨[], []⟩ else none
  | some rest =>
    let host := rest.takeWhile (!endsAuthority ·)
    if host ≠ [] && Authority.accepts host then ofPath? (rest.dropWhile (!endsAuthority ·))
    else none

def ofText? (s : String) : Option Target :=
  if s.utf8ByteSize > greatestLength then none
  else
    match s.toList with
    | [] => none
    | '/' :: rest => ofPath? ('/' :: rest)
    | cs => ofAuthority? cs

/-- The segments of the path, still encoded. -/
def segments (t : Target) : List (List Char) := (t.path.splitOn '/').drop 1

end Target

end FleetConsole.Http
