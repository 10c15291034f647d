import FleetConsole.Fault
import FleetConsole.Report.Row

/-! Filters of the reports, as read from the parameters of a request. -/
namespace FleetConsole.Report

/-- Points in time between two bounds, either of which may be missing. -/
structure TimeWindow where
  start : Option Instant
  stop : Option Instant
  deriving DecidableEq

namespace TimeWindow

def everything : TimeWindow := ⟨none, none⟩

def readMillis (name : String) : Option Int → Except Fault (Option Instant)
  | none => .ok none
  | some millis =>
    match Instant.ofMillis? millis with
    | some t => .ok (some t)
    | none => .error (.invalid "Report time filters must be epoch milliseconds"
        (name ++ " " ++ toString millis ++ " is out of range"))

/-- A window with a start but no end runs up to `now`. -/
def ofMillis (start stop : Option Int) (now : Instant) : Except Fault TimeWindow := do
  let start ← readMillis "startTime" start
  let stop ← readMillis "endTime" stop
  return ⟨start, if start.isSome then some (stop.getD now) else stop⟩

/-- Both bounds belong to the window. -/
def contains (w : TimeWindow) (t : Instant) : Bool :=
  w.start.all (fun s => decide (s ≤ t)) && w.stop.all (fun e => decide (t ≤ e))

end TimeWindow

/-- The pieces of a comma-separated text, without blanks around them and without empty ones. -/
def listPieces (raw : String) : List String :=
  ((Text.fieldsOn ',' raw).map Text.trim).filter (· ≠ "")

/-- Reads a piece of a filter. -/
def readPiece {α : Type} (read : String → Option α) (summary : String) (piece : String) :
    Except Fault α :=
  match read piece with
  | some a => .ok a
  | none => .error (.invalid summary ("unrecognized filter value " ++ piece))

/-- Reads the values of a filter; without a piece there is no filter. -/
def readList {α : Type} (read : String → Option α) (summary : String) (raw : Option String) :
    Except Fault (List α) :=
  (listPieces (raw.getD "")).mapM (readPiece read summary)

/-- Whether one text is found inside another. -/
def occursIn (needle : List Char) : List Char → Bool
  | [] => needle.isEmpty
  | c :: cs => needle.isPrefixOf (c :: cs) || occursIn needle cs

/-- Whether `needle` is found in `text` when both are in lower case. -/
def containsIgnoringCase (text needle : String) : Bool :=
  occursIn (Text.lower needle).toList (Text.lower text).toList

/-- Resources by type and version. -/
structure TypeFilter where
  typeId : Option TypeId
  version : Option String
  deriving DecidableEq, Repr

def TypeFilter.accepts (f : TypeFilter) (t : TypeRef) : Bool :=
  f.typeId.all (fun id => id = t.typeId) && f.version.all fun v => t.version = some v

structure AlertFilter where
  /-- Empty for every priority. -/
  priorities : List AlertPriority
  window : TimeWindow
  deriving DecidableEq

namespace AlertFilter

def read (priorities : Option String) (start stop : Option Int) (now : Instant) :
    Except Fault AlertFilter := do
  let priorities ← readList AlertPriority.ofTyped? "Unknown alert priority" priorities
  let window ← TimeWindow.ofMillis start stop now
  return ⟨priorities, window⟩

def accepts (f : AlertFilter) (row : AlertRow) : Bool :=
  (f.priorities.isEmpty || f.priorities.contains row.priority) && f.window.contains row.createdAt

end AlertFilter

structure OperationFilter where
  /-- Empty for every status. -/
  statuses : List OperationStatus
  window : TimeWindow
  deriving DecidableEq

namespace OperationFilter

def read (statuses : Option String) (start stop : Option Int) (now : Instant) :
    Except Fault OperationFilter := do
  let statuses ← readList OperationStatus.ofTyped? "Unknown operation request status" statuses
  let window ← TimeWindow.ofMillis start stop now
  return ⟨statuses, window⟩

def accepts (f : OperationFilter) (row : OperationRow) : Bool :=
  (f.statuses.isEmpty || f.statuses.contains row.status) && f.window.contains row.createdAt

end OperationFilter

structure DriftFilter where
  /-- Empty for every category. -/
  categories : List DriftCategory
  /-- Part of the definition's name, in any case. -/
  definition : Option String
  snapshot : Option Int32
  /-- Part of the path, in any case. -/
  path : Option String
  window : TimeWindow
  deriving DecidableEq

/-- The parameters of the drift report as they are typed. -/
structure DriftParameters where
  categoryId : Option String
  definition : Option String
  snapshot : Option String
  path : Option String
  startTime : Option Int
  endTime : Option Int
  deriving DecidableEq, Repr

namespace DriftFilter

def readSnapshot (raw : Option String) : Except Fault (Option Int32) :=
  match raw.filter fun s => !Text.isBlankText s with
  | none => .ok none
  | some raw =>
    match readId raw with
    | .ok n => .ok (some n)
    | .error e => .error (.invalid "Snapshot must be a number"
        ("snapshot " ++ raw ++ ": " ++ e.message))

/-- Of several faults the snapshot's comes first, then the categories'. -/
def read (p : DriftParameters) (now : Instant) : Except Fault DriftFilter := do
  let snapshot ← readSnapshot p.snapshot
  let categories ← readList DriftCategory.ofTyped? "Unknown drift category" p.categoryId
  let window ← TimeWindow.ofMillis p.startTime p.endTime now
  return ⟨categories, p.definition.filter (· ≠ ""), snapshot, p.path.filter (· ≠ ""), window⟩

def accepts (f : DriftFilter) (row : DriftRow) : Bool :=
  (f.categories.isEmpty || f.categories.contains row.category) &&
    f.definition.all (containsIgnoringCase row.definition) &&
    f.snapshot.all (fun n => n = row.snapshot) &&
    f.path.all (containsIgnoringCase row.path) &&
    f.window.contains row.createdAt

end DriftFilter

end FleetConsole.Report
