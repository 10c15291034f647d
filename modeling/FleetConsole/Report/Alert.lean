import FleetConsole.Text.Blank
import FleetConsole.Text.Case

/-! Alerts: their priorities, the conditions that fire them, and what a report says about these. -/
namespace FleetConsole.Report

inductive AlertPriority
  | high | medium | low
  deriving DecidableEq, Repr

namespace AlertPriority

def displayName : AlertPriority → String
  | .high => "High"
  | .medium => "Medium"
  | .low => "Low"

def name : AlertPriority → String
  | .high => "HIGH"
  | .medium => "MEDIUM"
  | .low => "LOW"

def ofName? : String → Option AlertPriority
  | "HIGH" => some .high
  | "MEDIUM" => some .medium
  | "LOW" => some .low
  | _ => none

/-- As typed or stored: in any case, with blanks around it. -/
def ofTyped? (s : String) : Option AlertPriority := ofName? (Text.asciiUpper (Text.trim s))

@[simp] theorem ofName?_name (p : AlertPriority) : ofName? p.name = some p := by cases p <;> rfl

end AlertPriority

inductive AvailabilityChange
  | goesDisabled | goesDown | goesUnknown | goesUp | goesNotUp
  deriving DecidableEq, Repr

def AvailabilityChange.text : AvailabilityChange → String
  | .goesDisabled => "Goes disabled"
  | .goesDown => "Goes down"
  | .goesUnknown => "Goes unknown"
  | .goesUp => "Goes up"
  | .goesNotUp => "Goes not up"

inductive DurationState
  | down | notUp
  deriving DecidableEq, Repr

def DurationState.text : DurationState → String
  | .down => "Stays Down"
  | .notUp => "Stays Not Up"

inductive RangeComparator
  | insideExclusive | outsideExclusive | insideInclusive | outsideInclusive
  deriving DecidableEq, Repr

namespace RangeComparator

def relation : RangeComparator → String
  | .insideExclusive | .insideInclusive => "between"
  | .outsideExclusive | .outsideInclusive => "outside"

def bound : RangeComparator → String
  | .insideExclusive | .outsideExclusive => "exclusive"
  | .insideInclusive | .outsideInclusive => "inclusive"

end RangeComparator

inductive ChangeDirection
  | grows | shrinks | changes
  deriving DecidableEq, Repr

def ChangeDirection.text : ChangeDirection → String
  | .grows => "Grows"
  | .shrinks => "Shrinks"
  | .changes => "Changes"

/-- What fires an alert. Thresholds carry their units already. -/
inductive AlertCondition
  | availability (change : AvailabilityChange)
  | availabilityDuration (state : DurationState) (seconds : Int64)
  | threshold (metric comparator threshold : String)
  | callTimeThreshold (metric : Option String) (statistic comparator threshold : String)
      (destination : Option String)
  | baseline (metric comparator percentage baseline : String)
  | change (metric : String)
  | callTimeChange (metric : Option String) (statistic : String) (direction : ChangeDirection)
      (percentage : String) (destination : Option String)
  | trait (name : String) (pattern : Option String)
  | operation (name status : String)
  | resourceConfiguration
  | event (severity : String) (sourcePattern : Option String)
  | drift (definitionPattern pathPattern : Option String)
  | range (metric : String) (comparator : RangeComparator) (low high : String)
  deriving DecidableEq, Repr

namespace AlertCondition

/-- Text around an optional value; an empty value counts as none. -/
def ifPresent (before : String) (value : Option String) (after : String) : String :=
  match value with
  | none => ""
  | some s => if s = "" then "" else before ++ s ++ after

/-- The metric of a call-time condition, with the space behind it. -/
def metricPart : Option String → String
  | none => ""
  | some metric => metric ++ " "

def destinationPart (destination : Option String) : String :=
  ifPresent " with call destination matching '" destination "'"

def driftText (definition path : Option String) : String :=
  match definition.filter (· ≠ ""), path.filter (· ≠ "") with
  | none, none => "Drift Detection"
  | none, some path => "Drift Detection for files that match \"" ++ path ++ "\""
  | some definition, none => "Drift Detection for drift definition [" ++ definition ++ "]"
  | some definition, some path =>
    "Drift Detection for files that match \"" ++ path ++ "\" and for drift detection [" ++
      definition ++ "]"

def text : AlertCondition → String
  | .availability c => "Availability [" ++ c.text ++ "]"
  | .availabilityDuration s seconds =>
    "Availability Duration [" ++ s.text ++ " For " ++ toString (seconds.toInt.tdiv 60) ++ "m]"
  | .threshold metric sign value =>
    "Metric Value Threshold [" ++ metric ++ " " ++ sign ++ " " ++ value ++ "]"
  | .callTimeThreshold metric statistic sign value destination =>
    "Call Time Value Threshold [" ++ metricPart metric ++ statistic ++ " " ++ sign ++ " " ++
      value ++ "]" ++ destinationPart destination
  | .baseline metric sign percentage usual =>
    "Metric Value Baseline [" ++ metric ++ " " ++ sign ++ " " ++ percentage ++ " of " ++
      usual ++ "]"
  | .change metric => "Metric Value Change [" ++ metric ++ " ]"
  | .callTimeChange metric statistic direction percentage destination =>
    "Call Time Value Changes [" ++ metricPart metric ++ statistic ++ " " ++ direction.text ++
      " by at least " ++ percentage ++ "]" ++ destinationPart destination
  | .trait name pattern =>
    "Trait Change [" ++ name ++ "]" ++ ifPresent " with trait value matching '" pattern "'"
  | .operation name status =>
    "Operation Execution [" ++ name ++ "] with result status [" ++ status ++ "]"
  | .resourceConfiguration => "Resource Configuration Change"
  | .event severity source =>
    "Event Detection [" ++ severity ++ "]" ++ ifPresent " with event source matching '" source "'"
  | .drift definition path => driftText definition path
  | .range metric sign low high =>
    "Metric Value Range: [" ++ metric ++ "] " ++ sign.relation ++ " [" ++ low ++
      "] and [" ++ high ++ "], " ++ sign.bound

end AlertCondition

/-- What stands in the column of conditions: a single one is spelled out. -/
def conditionText : List AlertCondition → String
  | [] => "No Conditions"
  | [condition] => condition.text
  | _ => "Multiple Conditions"

end FleetConsole.Report
