import FleetConsole.Text.Markup

/-! XML documents of reports: a root with one element for each row, and in it one element for each
field. -/
namespace FleetConsole.Report.Xml

def declaration : String := "<?xml version=\"1.0\" encoding=\"UTF-8\"?>\n"

def openDocument (root : String) : String := declaration ++ "<" ++ root ++ ">\n"

def closeDocument (root : String) : String := "</" ++ root ++ ">\n"

/-- The element of a field; without text it is an empty tag. -/
def fieldElement (tag value : String) : String :=
  if value = "" then "<" ++ tag ++ "/>"
  else "<" ++ tag ++ ">" ++ Text.escapeXml value ++ "</" ++ tag ++ ">"

def concat (parts : List String) : String := parts.foldr (· ++ ·) ""

/-- The element of a row, on a line of its own. -/
def element (name : String) (tags fields : List String) : String :=
  "  <" ++ name ++ ">" ++ concat (List.zipWith fieldElement tags fields) ++ "</" ++ name ++ ">\n"

@[simp] theorem concat_nil : concat [] = "" := rfl

@[simp] theorem concat_cons (s : String) (rest : List String) :
    concat (s :: rest) = s ++ concat rest := rfl

end FleetConsole.Report.Xml
