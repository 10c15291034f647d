import FleetConsole.Number.Numeral
import FleetConsole.Text.Blank

/-! Numbers that identify what the console shows. Each kind of thing counts on its own, in 32 bits
with sign. -/
namespace FleetConsole

/-- Reads an id typed by a user; blanks around it are passed over. -/
def readId (s : String) : Except Number.NumeralError Int32 :=
  (Number.Range.signed32.read (Text.trim s)).map Int32.ofInt

structure ResourceId where
  val : Int32
  deriving DecidableEq, Repr, Inhabited

structure TypeId where
  val : Int32
  deriving DecidableEq, Repr, Inhabited

structure SubCategoryId where
  val : Int32
  deriving DecidableEq, Repr, Inhabited

structure GroupId where
  val : Int32
  deriving DecidableEq, Repr, Inhabited

/-- The decimal text of an id. -/
def idText (n : Int32) : String := toString n.toInt

def ResourceId.text (id : ResourceId) : String := idText id.val

def TypeId.text (id : TypeId) : String := idText id.val

def SubCategoryId.text (id : SubCategoryId) : String := idText id.val

def GroupId.text (id : GroupId) : String := idText id.val

end FleetConsole
