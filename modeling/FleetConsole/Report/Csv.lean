import FleetConsole.Text.Split

/-! Comma-separated lines. In most reports a comma or newline inside a field becomes a space; the
quoting style keeps the field whole and puts it in double quotes. -/
namespace FleetConsole.Report

inductive CsvStyle
  | sanitize | quote
  deriving DecidableEq, Repr

instance : Inhabited CsvStyle := ⟨.sanitize⟩

def CsvStyle.name : CsvStyle → String
  | .sanitize => "sanitize"
  | .quote => "quote"

namespace Csv

def sanitizeChar (c : Char) : Char := if c = ',' || c = '\n' then ' ' else c

/-- The field on one line and without a comma. -/
def sanitize (field : String) : String := String.ofList (field.toList.map sanitizeChar)

def needsQuotes (c : Char) : Bool := c = ',' || c = '\n' || c = '"'

/-- A quote inside a quoted field is written twice. -/
def doubled (c : Char) : List Char := if c = '"' then ['"', '"'] else [c]

def quoteChars (cs : List Char) : List Char :=
  if cs.any needsQuotes then '"' :: cs.flatMap doubled ++ ['"'] else cs

/-- The field in quotes if anything in it needs them. -/
def quote (field : String) : String := String.ofList (quoteChars field.toList)

def field : CsvStyle → String → String
  | .sanitize => sanitize
  | .quote => quote

def headerLine (headers : List String) : String := Text.joinWith "," headers ++ "\n"

def line (style : CsvStyle) (fields : List String) : String :=
  Text.joinWith "," (fields.map (field style)) ++ "\n"

@[simp] theorem toList_sanitize (s : String) : (sanitize s).toList = s.toList.map sanitizeChar := by
  simp [sanitize]

@[simp] theorem toList_quote (s : String) : (quote s).toList = quoteChars s.toList := by
  simp [quote]

theorem sanitizeChar_ne (c : Char) : sanitizeChar c ≠ ',' ∧ sanitizeChar c ≠ '\n' := by
  unfold sanitizeChar
  split <;> simp_all

end Csv

end FleetConsole.Report
