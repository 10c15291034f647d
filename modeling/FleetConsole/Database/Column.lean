import FleetConsole.Instant
import FleetConsole.Number.Double
import FleetConsole.Text.Quoted
import FleetConsole.Wire.Reports

/-! Typed columns. The database sends every cell with the type of its column, or null; a row can be
used once its nulls are where they may be and its JSON cells hold what they should. -/
namespace FleetConsole.Database

inductive ColumnType
  | int32 | int64 | flag | text | time | double | int32List | conditions | clusters
  deriving DecidableEq, Repr

namespace ColumnType

/-- What a cell of the type holds when it arrives. -/
abbrev Sent : ColumnType → Type
  | .int32 => Int32
  | .int64 => Int64
  | .flag => Bool
  | .text => String
  | .time => Instant
  | .double => Number.Double
  | .int32List => List Int32
  | .conditions | .clusters => Json

/-- What it holds once it is read. -/
abbrev Value : ColumnType → Type
  | .int32 => Int32
  | .int64 => Int64
  | .flag => Bool
  | .text => String
  | .time => Instant
  | .double => Number.Double
  | .int32List => List Int32
  | .conditions => List Report.AlertCondition
  | .clusters => List Cluster

def read? : (t : ColumnType) → t.Sent → Option t.Value
  | .int32, n => some n
  | .int64, n => some n
  | .flag, b => some b
  | .text, s => some s
  | .time, t => some t
  | .double, d => some d
  | .int32List, ns => some ns
  | .conditions, j => j.toList? Report.AlertCondition.ofJson?
  | .clusters, j => j.toList? Cluster.ofJson?

end ColumnType

structure Column where
  name : String
  type : ColumnType
  /-- Whether null is a value of the column. -/
  optional : Bool
  deriving DecidableEq, Repr

namespace Column

def required (name : String) (type : ColumnType) : Column := ⟨name, type, false⟩

def nullable (name : String) (type : ColumnType) : Column := ⟨name, type, true⟩

/-- What the column contributes to a row. -/
abbrev Content : Column → Type
  | ⟨_, type, true⟩ => Option type.Value
  | ⟨_, type, false⟩ => type.Value

end Column

/-- A row as it arrives; no cell is sure to hold anything. -/
abbrev Cells : List Column → Type
  | [] => Unit
  | c :: cs => Option c.type.Sent × Cells cs

/-- A row that can be used. -/
abbrev Row : List Column → Type
  | [] => Unit
  | c :: cs => c.Content × Row cs

/-- Why a row cannot be used. -/
inductive DecodeError
  | null (column : String)
  | unreadable (column : String)
  deriving DecidableEq, Repr

def DecodeError.message : DecodeError → String
  | .null column => "error occurred while decoding column " ++ Text.quoted column ++
      ": unexpected null; try decoding as an `Option`"
  | .unreadable column => "error occurred while decoding column " ++ Text.quoted column ++
      ": unexpected JSON value"

def Column.decode : (c : Column) → Option c.type.Sent → Except DecodeError c.Content
  | ⟨_, _, true⟩, none => .ok none
  | ⟨name, _, false⟩, none => .error (.null name)
  | ⟨name, type, true⟩, some sent =>
    match type.read? sent with
    | some value => .ok (some value)
    | none => .error (.unreadable name)
  | ⟨name, type, false⟩, some sent =>
    match type.read? sent with
    | some value => .ok value
    | none => .error (.unreadable name)

/-- Decodes the cells from left to right, up to the first that cannot be used. -/
def decodeRow : (columns : List Column) → Cells columns → Except DecodeError (Row columns)
  | [], _ => .ok ()
  | c :: cs, (cell, cells) => do
    let value ← c.decode cell
    let rest ← decodeRow cs cells
    return (value, rest)

end FleetConsole.Database
