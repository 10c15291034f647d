import FleetConsole.Text.HiddenTable
import FleetConsole.Text.Case

/-! Text inside double quotes, with every character that would not show on a line of text spelled
by its number in base sixteen. -/
namespace FleetConsole.Text

def isHidden (c : Char) : Bool := inRanges hiddenRanges c

def quotedChar (c : Char) : String :=
  if c = '"' then "\\\""
  else if c = '\\' then "\\\\"
  else if c = '\n' then "\\n"
  else if c = '\r' then "\\r"
  else if c = '\t' then "\\t"
  else if c = '\x00' then "\\0"
  else if isHidden c then "\\u\x7b" ++ String.ofList (Nat.toDigits 16 c.toNat) ++ "\x7d"
  else String.singleton c

/-- The text as a quoted literal on one line. -/
def quoted (s : String) : String :=
  "\"" ++ s.toList.foldl (fun out c => out ++ quotedChar c) "" ++ "\""

end FleetConsole.Text
