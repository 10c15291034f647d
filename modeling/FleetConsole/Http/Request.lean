import FleetConsole.Http.Encoding
import FleetConsole.Http.Target
import FleetConsole.Number.Numeral

/-! Requests, and the parameters they carry. A parameter that a reader knows by name may come once
at most; names it does not know are passed over. -/
namespace FleetConsole.Http

structure Request where
  method : String
  target : Target
  /-- Names may be in any case. -/
  headers : List (String × String)
  deriving DecidableEq, Repr

/-- Whether a text can be the name of a method or of a header. -/
def isToken (s : String) : Bool :=
  s ≠ "" && s.toList.all fun c => c.isAlphanum || "!#$%&'*+-.^_|~\x60".toList.contains c

/-- Whether a text can be the value of a header: no controls but the tab. -/
def isHeaderValue (s : String) : Bool :=
  s.toList.all fun c => (' ' ≤ c && c ≠ '\x7f') || c = '\t'

namespace Request

/-- The request made of these parts, if it can be sent. -/
def ofParts? (method target : String) (headers : List (String × String)) : Option Request :=
  if isToken method && headers.all fun h => isToken h.1 && isHeaderValue h.2 then
    (Target.ofText? target).map (⟨method, ·, headers⟩)
  else none

/-- The pairs of the query. -/
def query (r : Request) : List (String × String) := queryPairs (String.ofList r.target.query)

/-- The first value of a header, whose name is given in lower case. -/
def header? (r : Request) (name : String) : Option String :=
  (r.headers.find? fun h => h.1.toList.map Char.toLower = name.toList).map (·.2)

end Request

/-- The one segment of a path that a route leaves open. -/
def decodeSegment (segment : List Char) : Option String := utf8? (percentDecode segment)

/-- Whether every character of a header's value is a visible one, a space or a tab. -/
def isPlainHeader (value : String) : Bool :=
  value.toList.all fun c => (' ' ≤ c && c ≤ '~') || c = '\t'

namespace Parameters

/-- The value of a name, refused if there are two. -/
def once? (pairs : List (String × String)) (name : String) : Option (Option String) :=
  match pairs.filter (·.1 = name) with
  | [] => some none
  | [pair] => some (some pair.2)
  | _ => none

/-- The value of a name as a number, refused if it is not one of the range. -/
def number? (range : Number.Range) (pairs : List (String × String)) (name : String) :
    Option (Option Int) :=
  match once? pairs name with
  | none => none
  | some none => some none
  | some (some value) => ((range.read value).toOption).map some

/-- The value of a name as a truth value, false by default. -/
def flag? (pairs : List (String × String)) (name : String) : Option Bool :=
  match once? pairs name with
  | some none | some (some "false") => some false
  | some (some "true") => some true
  | _ => none

end Parameters

end FleetConsole.Http
