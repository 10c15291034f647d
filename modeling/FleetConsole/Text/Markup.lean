/-! Text made safe for markup: the five characters with a meaning there are written as entities.
The two languages in use differ in the entity for the apostrophe only. -/
namespace FleetConsole.Text

/-- How an apostrophe is written. -/
inductive Apostrophe
  | numeric | named
  deriving DecidableEq, Repr

def Apostrophe.entity : Apostrophe → List Char
  | .numeric => "&#39;".toList
  | .named => "&apos;".toList

def markupChar (a : Apostrophe) (c : Char) : List Char :=
  if c = '&' then "&amp;".toList
  else if c = '<' then "&lt;".toList
  else if c = '>' then "&gt;".toList
  else if c = '"' then "&quot;".toList
  else if c = '\'' then a.entity
  else [c]

def markupChars (a : Apostrophe) (cs : List Char) : List Char := cs.flatMap (markupChar a)

@[simp] theorem markupChars_nil (a : Apostrophe) : markupChars a [] = [] := rfl

@[simp] theorem markupChars_cons (a : Apostrophe) (c : Char) (cs : List Char) :
    markupChars a (c :: cs) = markupChar a c ++ markupChars a cs := rfl

theorem markupChars_append (a : Apostrophe) (cs ds : List Char) :
    markupChars a (cs ++ ds) = markupChars a cs ++ markupChars a ds := by
  simp [markupChars]

/-- The text as shown by a page: names typed by users go through this before they reach a tree. -/
def escapeHtml (s : String) : String := String.ofList (markupChars .numeric s.toList)

/-- The text as content of an XML element. -/
def escapeXml (s : String) : String := String.ofList (markupChars .named s.toList)

@[simp] theorem toList_escapeHtml (s : String) :
    (escapeHtml s).toList = markupChars .numeric s.toList := by simp [escapeHtml]

@[simp] theorem toList_escapeXml (s : String) :
    (escapeXml s).toList = markupChars .named s.toList := by simp [escapeXml]

end FleetConsole.Text
