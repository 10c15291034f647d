import FleetConsole.Database.Column
import FleetConsole.Fault

/-! Talking to a database. A server takes statements and commands one after the other; what it does
with them is its own affair. -/
namespace FleetConsole.Database

/-- A value bound to a statement. -/
inductive Param
  | null
  | integer (n : Int)
  | text (s : String)
  | texts (ss : List String)
  | time (t : Instant)
  deriving DecidableEq

namespace Param

def ofOption {α : Type} (param : α → Param) : Option α → Param
  | none => .null
  | some a => param a

def int32 (n : Int32) : Param := .integer n.toInt

end Param

structure Statement where
  sql : String
  params : List Param
  deriving DecidableEq

/-- A change of the tables, which is made once. -/
structure Migration where
  version : Nat
  description : String
  sql : String
  deriving DecidableEq, Repr

/-- What is sent without asking for rows. -/
inductive Command
  | begin | commit | rollback
  | statement (s : Statement)
  | migration (m : Migration)
  /-- Notes that a migration is done. -/
  | recording (m : Migration)
  deriving DecidableEq

/-- A database behind a connection, with `σ` for whatever changes as it works. A statement or
command that fails says why. -/
structure Server (σ : Type) where
  select : (columns : List Column) → Statement → σ → Except String (List (Cells columns)) × σ
  run : Command → σ → Except String Unit × σ

/-- A conversation with a database: it may break off with an error, but what was said is said. -/
abbrev Talk (σ ε : Type) := ExceptT ε (StateM σ)

/-- A result that takes no talking. -/
def settled {σ ε α : Type} (result : Except ε α) : Talk σ ε α := fun s => (result, s)

/-- Why a statement has no usable answer. -/
inductive DatabaseError
  | failed (message : String)
  | decode (e : DecodeError)
  | noRow
  deriving DecidableEq, Repr

def DatabaseError.message : DatabaseError → String
  | .failed message => "error returned from database: " ++ message
  | .decode e => e.message
  | .noRow => "no rows returned by a query that expected to return at least one row"

/-- The fault of an operation that the database did not carry out. -/
def DatabaseError.fault (summary : String) (e : DatabaseError) : Fault :=
  .database summary (.reported e.message)

namespace Server

variable {σ : Type} (server : Server σ)

def send (c : Command) : Talk σ DatabaseError Unit := fun s =>
  match server.run c s with
  | (.ok (), s) => (.ok (), s)
  | (.error message, s) => (.error (.failed message), s)

/-- The rows as they arrive. -/
def fetchCells (columns : List Column) (q : Statement) :
    Talk σ DatabaseError (List (Cells columns)) := fun s =>
  match server.select columns q s with
  | (.ok rows, s) => (.ok rows, s)
  | (.error message, s) => (.error (.failed message), s)

def decoded {columns : List Column} (rows : List (Cells columns)) :
    Except DatabaseError (List (Row columns)) :=
  (rows.mapM (decodeRow columns)).mapError .decode

def fetchAll (columns : List Column) (q : Statement) :
    Talk σ DatabaseError (List (Row columns)) := do
  let rows ← server.fetchCells columns q
  settled (decoded rows)

/-- The first row, if there is one; the others are not even decoded. -/
def fetchOptional (columns : List Column) (q : Statement) :
    Talk σ DatabaseError (Option (Row columns)) := do
  let rows ← server.fetchCells columns q
  let first ← settled (decoded (rows.take 1))
  return first.head?

/-- The first row, which must be there. -/
def fetchOne (columns : List Column) (q : Statement) : Talk σ DatabaseError (Row columns) := do
  match ← server.fetchOptional columns q with
  | some row => return row
  | none => throw .noRow

/-- Carries out `work` between begin and commit. What has begun and is not committed is rolled
back, also when the commit itself fails. -/
def transaction {ε α : Type} (beginning committing : DatabaseError → ε) (work : Talk σ ε α) :
    Talk σ ε α := do
  (server.send .begin).adapt beginning
  tryCatch
    (do
      let a ← work
      (server.send .commit).adapt committing
      return a)
    fun e => do
      discard (ExceptT.lift (server.run .rollback))
      throw e

end Server

/-- Gives the errors of a conversation the summary that users see. -/
def reporting {σ α : Type} (summary : String) (talk : Talk σ DatabaseError α) : Talk σ Fault α :=
  talk.adapt (DatabaseError.fault summary)

end FleetConsole.Database
