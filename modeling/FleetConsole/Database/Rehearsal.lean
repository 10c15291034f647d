import FleetConsole.Database.Server

/-! A database for rehearsals: it answers from a list of replies, whatever it is asked, and keeps a
log of what it was told. -/
namespace FleetConsole.Database

inductive Reply
  | rows (rows : List Json)
  | failure (message : String)

namespace ColumnType

/-- Reads a cell. Columns of JSON take null for a value, in all others it stands for nothing. -/
def sentOfJson? : (t : ColumnType) → Json → Option (Option t.Sent)
  | .conditions, j => some (some j)
  | .clusters, j => some (some j)
  | .int32, j => j.toOption? Json.toInt32?
  | .int64, j => j.toOption? Json.toInt64?
  | .flag, j => j.toOption? Json.toBool?
  | .text, j => j.toOption? Json.toText?
  | .time, j => j.toOption? Instant.ofJson?
  | .double, j => j.toOption? Number.Double.ofJson?
  | .int32List, j => j.toOption? (Json.toList? Json.toInt32?)

end ColumnType

/-- Reads the cell of a column out of an object; a cell may be left out. -/
def Column.sentOfJson? (c : Column) : Json → Option (Option c.type.Sent)
  | .object members =>
    match members.find? (·.1 = c.name) with
    | none => some none
    | some (_, j) => c.type.sentOfJson? j
  | _ => none

/-- Reads the cells of a row; members that are no columns are passed over. -/
def cellsOfJson? : (columns : List Column) → Json → Option (Cells columns)
  | [], _ => some ()
  | c :: cs, j => do return (← c.sentOfJson? j, ← cellsOfJson? cs j)

structure Rehearsal where
  replies : List Reply
  /-- What was said, a question for rows as the statement it is. -/
  log : List Command
  /-- A reply had rows that do not fit the columns asked for. -/
  misfit : Bool

namespace Rehearsal

def ofReplies (replies : List Reply) : Rehearsal := ⟨replies, [], false⟩

def note (r : Rehearsal) (c : Command) : Rehearsal := { r with log := r.log ++ [c] }

/-- Takes the next reply; when none is left, there are no rows. -/
def reply (r : Rehearsal) : Reply × Rehearsal :=
  match r.replies with
  | [] => (.rows [], r)
  | reply :: rest => (reply, { r with replies := rest })

/-- Takes a reply of which only the failure counts. -/
def outcome (r : Rehearsal) : Except String Unit × Rehearsal :=
  match r.reply with
  | (.failure message, r) => (.error message, r)
  | (.rows _, r) => (.ok (), r)

def select (columns : List Column) (q : Statement) (r : Rehearsal) :
    Except String (List (Cells columns)) × Rehearsal :=
  match (r.note (.statement q)).reply with
  | (.failure message, r) => (.error message, r)
  | (.rows rows, r) =>
    match rows.mapM (cellsOfJson? columns) with
    | some cells => (.ok cells, r)
    | none => (.ok [], { r with misfit := true })

/-- Neither a rollback nor the recording of a migration takes a reply. -/
def run (c : Command) (r : Rehearsal) : Except String Unit × Rehearsal :=
  match c with
  | .rollback | .recording _ => (.ok (), r.note c)
  | .begin | .commit | .statement _ | .migration _ => (r.note c).outcome

def server : Server Rehearsal := ⟨select, run⟩

@[simp] theorem log_note (r : Rehearsal) (c : Command) : (r.note c).log = r.log ++ [c] := rfl

@[simp] theorem log_reply (r : Rehearsal) : r.reply.2.log = r.log := by
  unfold reply
  split <;> rfl

end Rehearsal

end FleetConsole.Database
