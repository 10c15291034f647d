import FleetConsole.Fault

/-! Rows fetched page by page. Whoever answers may know how many rows there are in all; the last
page is the first that is short, or that reaches this number. -/
namespace FleetConsole.Report

/-- Which page is asked for. -/
structure PageControl where
  number : Nat
  size : Nat
  deriving DecidableEq, Repr

namespace PageControl

/-- Page numbers have 32 bits. -/
def lastNumber : Nat := 4294967295

/-- A page has room for at least one row. -/
def first (size : Nat) : PageControl := ⟨0, max size 1⟩

def next (c : PageControl) : PageControl := { c with number := min (c.number + 1) lastNumber }

/-- The number of rows before the page. -/
def offset (c : PageControl) : Nat := c.number * c.size

@[simp] theorem size_next (c : PageControl) : c.next.size = c.size := rfl

theorem number_next {c : PageControl} (h : c.number < lastNumber) :
    c.next.number = c.number + 1 := by
  simp only [next]
  omega

end PageControl

structure Page (Row : Type) where
  items : List Row
  /-- Which page it is. -/
  control : PageControl
  /-- The number of all rows, where it is known. -/
  total : Option Nat
  deriving DecidableEq, Repr

namespace Page

variable {Row : Type}

/-- The page of a list of rows. -/
def ofRows (rows : List Row) (c : PageControl) : Page Row :=
  ⟨(rows.drop c.offset).take c.size, c, some rows.length⟩

def isLast (c : PageControl) (p : Page Row) : Bool :=
  p.items.length < c.size || p.total.any fun total => total ≤ c.offset + p.items.length

end Page

/-- Answers a request for a page; `σ` is whatever lies behind the answers. -/
abbrev Fetch (σ Row : Type) := PageControl → σ → Except Fault (Page Row) × σ

/-- How a sequence of rows ends. -/
inductive Ending
  | complete
  | failed (e : Fault)
  /-- The page with the last number is asked for over and over, and is never the last page. The rows
  are not followed beyond its first answer. -/
  | endless
  deriving DecidableEq, Repr

namespace Ending

/-- What comes behind the last row. -/
def fault? : Ending → Option Fault
  | .failed e => some e
  | .complete | .endless => none

def ends : Ending → Bool
  | .complete | .failed _ => true
  | .endless => false

end Ending

/-- The rows of all pages, how they end, and what lies behind the answers afterwards. -/
structure Run (σ Row : Type) where
  rows : List Row
  ending : Ending
  state : σ

namespace Run

variable {σ Row : Type}

/-- Rows with others in front of them. -/
def behind (front : List Row) (run : Run σ Row) : Run σ Row :=
  { run with rows := front ++ run.rows }

/-- What a reader of rows gets, one after the other. -/
def items (run : Run σ Row) : List (Except Fault Row) :=
  run.rows.map .ok ++ run.ending.fault?.toList.map .error

end Run

namespace Fetch

variable {σ Row : Type}

/-- The rows from a page on that was fetched already, when the same page is asked for again until it
is the last one or fails. There is nothing if neither ever happens. -/
def repeated? (fetch : Fetch σ Row) (c : PageControl) (page : Page Row) (s : σ) :
    Option (Run σ Row) :=
  if page.isLast c then some ⟨page.items, .complete, s⟩
  else
    match fetch c s with
    | (.error e, s) => some ⟨page.items, .failed e, s⟩
    | (.ok next, s) => do
      let rest ← fetch |>.repeated? c next s
      return rest.behind page.items
partial_fixpoint

/-- The rows from a page on that was fetched already. As there is a last page number, the page with
it is asked for again if it was not the last page. -/
def rowsFrom (fetch : Fetch σ Row) (c : PageControl) (page : Page Row) (s : σ) : Run σ Row :=
  if page.isLast c then ⟨page.items, .complete, s⟩
  else
    match fetch c.next s with
    | (.error e, s) => ⟨page.items, .failed e, s⟩
    | (.ok next, between) =>
      if c.number < PageControl.lastNumber then
        (rowsFrom fetch c.next next between).behind page.items
      else
        match fetch.repeated? c.next next between with
        | some rest => rest.behind page.items
        | none => ⟨page.items, .endless, s⟩
termination_by PageControl.lastNumber - c.number
decreasing_by
  rename_i h
  rw [PageControl.number_next h]
  omega

/-- The first page, fetched before any output so that a failure can still be told. -/
def start (fetch : Fetch σ Row) (pageSize : Nat) (s : σ) : Except Fault (Page Row) × σ :=
  fetch (.first pageSize) s

/-- All rows, page by page. -/
def rows (fetch : Fetch σ Row) (pageSize : Nat) (s : σ) : Run σ Row :=
  match fetch.start pageSize s with
  | (.error e, s) => ⟨[], .failed e, s⟩
  | (.ok page, s) => fetch.rowsFrom (.first pageSize) page s

end Fetch

end FleetConsole.Report
