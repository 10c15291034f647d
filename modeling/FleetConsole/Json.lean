import FleetConsole.Number.Numeral

/-! JSON values, with the readers and writers that records are built from. Objects keep the order
of their members. -/
namespace FleetConsole

inductive Json
  | null
  | bool (b : Bool)
  | integer (n : Int)
  /-- A number written with a fraction or an exponent. -/
  | fraction
  | text (s : String)
  | list (items : List Json)
  | object (members : List (String × Json))
  deriving Inhabited

namespace Json

/-- The value of an optional member. -/
def ofOption {α : Type} (write : α → Json) : Option α → Json
  | none => .null
  | some a => write a

def ofNat (n : Nat) : Json := .integer n

def ofList {α : Type} (write : α → Json) (items : List α) : Json := .list (items.map write)

/-- A member that is left out when it has no value. -/
def memberIfSome {α : Type} (name : String) (write : α → Json) :
    Option α → List (String × Json)
  | none => []
  | some a => [(name, write a)]

def toText? : Json → Option String
  | .text s => some s
  | _ => none

def toBool? : Json → Option Bool
  | .bool b => some b
  | _ => none

def toInteger? (range : Number.Range) : Json → Option Int
  | .integer n => if range.contains n then some n else none
  | _ => none

def toInt32? (j : Json) : Option Int32 := (j.toInteger? .signed32).map Int32.ofInt

def toInt64? (j : Json) : Option Int64 := (j.toInteger? .signed64).map Int64.ofInt

/-- A number without sign below `2 ^ 32`. -/
def toCount? (j : Json) : Option Nat := (j.toInteger? .unsigned32).map Int.toNat

def toList? {α : Type} (read : Json → Option α) : Json → Option (List α)
  | .list items => items.mapM read
  | _ => none

/-- A value that may be null. -/
def toOption? {α : Type} (read : Json → Option α) : Json → Option (Option α)
  | .null => some none
  | j => (read j).map some

/-- The member of that name; null when there is none. -/
def member (j : Json) (name : String) : Json :=
  match j with
  | .object members => ((members.find? (·.1 = name)).map (·.2)).getD .null
  | _ => .null

/-- The value itself, if it is an object. -/
def toObject? (j : Json) : Option Json :=
  match j with
  | .object _ => some j
  | _ => none

/-- A member that has a value. -/
def field? {α : Type} (j : Json) (name : String) (read : Json → Option α) : Option α :=
  read (j.member name)

/-- A member that may be null or left out. -/
def maybe? {α : Type} (j : Json) (name : String) (read : Json → Option α) : Option (Option α) :=
  (j.member name).toOption? read

/-- A member with a value for when it is null or left out. -/
def fieldOr? {α : Type} (j : Json) (name : String) (read : Json → Option α) (default : α) :
    Option α :=
  (j.maybe? name read).map (·.getD default)

/-- A list of two. -/
def toPair? {α β : Type} (first : Json → Option α) (second : Json → Option β) :
    Json → Option (α × β)
  | .list [a, b] => do return (← first a, ← second b)
  | _ => none

/-- The members of a record: an object names them, a list gives them in the record's order. -/
inductive Fields
  | named (members : List (String × Json))
  | positional (items : List Json)

def toFields? : Json → Option Fields
  | .object members => some (.named members)
  | .list items => some (.positional items)
  | _ => none

/-- A record reader consumes the fields one by one, in the record's order. -/
abbrev Reader (α : Type) := StateT Fields Option α

namespace Reader

/-- The next field: by its name, or the first of those that are left. -/
def next (name : String) : Reader (Option Json) := fun fields =>
  match fields with
  | .named members => some ((members.find? (·.1 = name)).map (·.2), fields)
  | .positional [] => some (none, fields)
  | .positional (item :: rest) => some (some item, .positional rest)

/-- A field that must be there. -/
def required {α : Type} (name : String) (read : Json → Option α) : Reader α := do
  match ← next name with
  | some j => StateT.lift (read j)
  | none => failure

/-- A field with a value for when it is left out. -/
def defaulting {α : Type} (name : String) (read : Json → Option α) (default : α) :
    Reader α := do
  match ← next name with
  | some j => StateT.lift (read j)
  | none => pure default

/-- A field that may be null, and may be left out where fields have names. -/
def optional {α : Type} (name : String) (read : Json → Option α) : Reader (Option α) := do
  match ← get with
  | .positional [] => failure
  | _ => defaulting name (toOption? read) none

/-- Runs the reader on a record; a list must have no items left. -/
def run {α : Type} (reader : Reader α) (j : Json) : Option α := do
  let fields ← j.toFields?
  let (a, rest) ← StateT.run reader fields
  match rest with
  | .positional (_ :: _) => none
  | _ => some a

end Reader

/-- A name from a fixed list: its text, or an object with the name as only member, holding null. -/
def toName? {α : Type} (ofName : String → Option α) : Json → Option α
  | .text s => ofName s
  | .object [(s, .null)] => ofName s
  | _ => none

/-- A name inside a tagged record, where an empty object may stand for null. -/
def toInnerName? {α : Type} (ofName : String → Option α) : Json → Option α
  | .object [(s, .object [])] => ofName s
  | j => j.toName? ofName

/-- Splits a record off its tag: the member of that name, or the first item of a list. -/
def untag? (tag : String) : Json → Option (String × Json)
  | .object members => do
    let name ← (members.find? (·.1 = tag)).bind fun m => m.2.toText?
    return (name, .object (members.filter (·.1 ≠ tag)))
  | .list (.text name :: items) => some (name, .list items)
  | _ => none

/-- A tagged record without fields of its own: other members are passed over, other items not. -/
def toBare? {α : Type} (a : α) : Json → Option α
  | .list (_ :: _) => none
  | _ => some a

mutual

/-- How deeply lists and objects are nested in a value. -/
def depth : Json → Nat
  | .list items => itemsDepth items + 1
  | .object members => membersDepth members + 1
  | _ => 1

def itemsDepth : List Json → Nat
  | [] => 0
  | j :: rest => max (depth j) (itemsDepth rest)

def membersDepth : List (String × Json) → Nat
  | [] => 0
  | (_, j) :: rest => max (depth j) (membersDepth rest)

end

end Json

end FleetConsole
