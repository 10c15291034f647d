import FleetConsole.Number.Decimal
import FleetConsole.Number.Rounding
import FleetConsole.Report.Kind
import FleetConsole.Text.Blank

/-! The two forms a report can be had in, and the choice between them by the ranges of media types
that a client accepts, each with a quality. -/
namespace FleetConsole.Report

inductive ReportFormat
  | csv | xml
  deriving DecidableEq, Repr

namespace ReportFormat

def contentType : ReportFormat → String
  | .csv => "text/csv"
  | .xml => "application/xml"

/-- A quality in units of the least single-precision number, `2 ^ -149`; what is not above zero
counts as zero. -/
abbrev Quality := Nat

/-- The quality of infinity, above that of every finite number. -/
def infiniteQuality : Quality := Nat.pow 2 277

/-- The quality one, in force where a range names none. -/
def fullQuality : Quality := Nat.pow 2 149

/-- Qualities are rounded to single precision before they are compared. -/
def qualityOf : Number.Decimal → Quality
  | .notANumber => 0
  | .infinite negative => if negative then 0 else infiniteQuality
  | .finite negative digits exponent =>
    if negative then 0
    else
      match Number.Decimal.extent 60 digits exponent with
      | .tiny => 0
      | .huge => infiniteQuality
      | .between num den =>
        let rounded := Number.Dyadic.nearest 24 (-149) num den
        min infiniteQuality (rounded.significand * Nat.pow 2 (rounded.exponent + 149).toNat)

/-- The number in a parameter that gives a quality. -/
def qualityParameter (param : List Char) : Option Quality :=
  match Text.trimChars param with
  | 'q' :: '=' :: value =>
    (Number.Decimal.read (String.ofList (Text.trimChars value))).map qualityOf
  | _ => none

/-- One range of media types that a client accepts. -/
structure MediaRange where
  media : String
  quality : Quality
  deriving DecidableEq, Repr

/-- A range is a media type and parameters; the first readable quality counts. -/
def readRange (text : List Char) : MediaRange :=
  match text.splitOn ';' with
  | [] => ⟨"", fullQuality⟩
  | media :: params =>
    ⟨String.ofList (Text.trimChars media), (params.findSome? qualityParameter).getD fullQuality⟩

/-- The ranges with a quality above zero, in the order they are given. -/
def acceptedRanges (accept : String) : List MediaRange :=
  ((accept.toList.splitOn ',').map readRange).filter fun r => 0 < r.quality

/-- Better ranges first; equal ones stay in their order. -/
def ranked (ranges : List MediaRange) : List MediaRange :=
  ranges.mergeSort fun a b => b.quality ≤ a.quality

/-- The form a media type stands for, if the report has it. -/
def ofMedia? (k : ReportKind) (media : String) : Option ReportFormat :=
  let name := String.ofList (media.toList.map Char.toLower)
  if ["text/csv", "text/*", "*/*"].contains name then some .csv
  else if k.supportsXml && ["application/xml", "text/xml", "application/*"].contains name then
    some .xml
  else none

/-- The form a client gets. Without a wish it is comma-separated lines. -/
def negotiate (accept : Option String) (k : ReportKind) : Except Fault ReportFormat :=
  match accept.filter fun s => !Text.isBlankText s with
  | none => .ok .csv
  | some accept =>
    match (ranked (acceptedRanges accept)).findSome? fun r => ofMedia? k r.media with
    | some format => .ok format
    | none => .error (.notAcceptable "Requested representation is not available for this report"
        ("report " ++ k.path ++ " cannot satisfy Accept: " ++ accept))

end ReportFormat

end FleetConsole.Report
