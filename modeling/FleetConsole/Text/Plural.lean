/-! The plural of an English noun, for folders named after what they hold. -/
namespace FleetConsole.Text

/-- How a noun forms its plural, by its ending in lower case. -/
inductive PluralRule
  | replaceY | addEs | addS
  deriving DecidableEq, Repr

/-- A final y becomes "ies" unless a vowel other than i stands before it; a hissing sound takes
"es". The ending is read backwards: `reversed` holds the last letter first. -/
def PluralRule.ofReversed (reversed : List Char) : PluralRule :=
  match reversed.map Char.toLower with
  | 'y' :: 'a' :: _ | 'y' :: 'e' :: _ | 'y' :: 'o' :: _ | 'y' :: 'u' :: _ => .addS
  | 'y' :: _ => .replaceY
  | 's' :: _ | 'x' :: _ | 'z' :: _ => .addEs
  | 'h' :: 'c' :: _ | 'h' :: 's' :: _ => .addEs
  | _ => .addS

def pluralChars (cs : List Char) : List Char :=
  match PluralRule.ofReversed cs.reverse with
  | .replaceY => cs.dropLast ++ "ies".toList
  | .addEs => cs ++ "es".toList
  | .addS => cs ++ "s".toList

/-- "Datasource" becomes "Datasources", "Repository" becomes "Repositories". -/
def plural (name : String) : String := String.ofList (pluralChars name.toList)

end FleetConsole.Text
