/-
# Tables of TOML

A document is a table, and its tables have others in them.  Each table keeps how it came to be, since
that decides who may add to it: a header opens a table once, dotted keys add to tables that dotted keys
made, and nothing is added to an inline table.
-/
import MysToCpp.Decimal.Binary64

namespace MysToCpp.Toml

/-- How a table came to be. -/
inductive Origin where
  /-- It stands in the path of a header. -/
  | implied
  /-- It stands in the path of a key. -/
  | dotted
  /-- It has a header of its own. -/
  | header
  /-- It is a value in braces. -/
  | inline
  deriving DecidableEq, Repr, Inhabited

/-- What a name stands for. -/
inductive Node where
  | text (value : String)
  | integer (value : Int)
  | float (value : Binary64)
  | boolean (value : Bool)
  | moment (value : String)
  | array (items : List Node)
  | table (origin : Origin) (entries : List (String × Node))
  /-- Tables with the same header; the last one can still be added to. -/
  | tables (earlier : List (List (String × Node))) (last : List (String × Node))
  deriving Repr, Inhabited

/-- The names of a table with what they stand for. -/
abbrev Entries := List (String × Node)

namespace Entries

/-- Lets a name stand for something else, or adds it behind the others. -/
def set (name : String) (node : Node) : Entries → Entries
  | [] => [(name, node)]
  | (n, old) :: rest => if n = name then (n, node) :: rest else (n, old) :: set name node rest

/-- Adds a name that is not there yet. -/
def add? (name : String) (node : Node) (entries : Entries) : Option Entries :=
  match entries.lookup name with
  | some _ => none
  | none => some (entries ++ [(name, node)])

/-- Adds a name at the end of a dotted path.  The tables in the path are made where there are none.
Those with a header and inline tables are closed to dotted keys, and the one that gets the name was made
by a dotted key too. -/
def insert? : List String → String → Node → Entries → Option Entries
  | [], name, node, entries => entries.add? name node
  | step :: path, name, node, entries =>
    match entries.lookup step with
    | none => do
      let inner ← insert? path name node []
      some (entries ++ [(step, .table .dotted inner)])
    | some (.table .dotted inner) => do
      let inner ← insert? path name node inner
      some (entries.set step (.table .dotted inner))
    | some (.table .implied inner) =>
      if path.isEmpty then none
      else do
        let inner ← insert? path name node inner
        some (entries.set step (.table .implied inner))
    | some (.tables earlier last) =>
      if path.isEmpty then none
      else do
        let last ← insert? path name node last
        some (entries.set step (.tables earlier last))
    | some _ => none

/-- Changes the table at the end of the path of a header.  The tables in the path are made where there
are none, and of tables with the same header the last one is meant. -/
def update? (change : Entries → Option Entries) : List String → Entries → Option Entries
  | [], entries => change entries
  | step :: path, entries =>
    match entries.lookup step with
    | none => do
      let inner ← update? change path []
      some (entries ++ [(step, .table .implied inner)])
    | some (.table .inline _) => none
    | some (.table origin inner) => do
      let inner ← update? change path inner
      some (entries.set step (.table origin inner))
    | some (.tables earlier last) => do
      let last ← update? change path last
      some (entries.set step (.tables earlier last))
    | some _ => none

/-- Opens a table with a header: a new one, or one that was only implied. -/
def openTable? (name : String) (entries : Entries) : Option Entries :=
  match entries.lookup name with
  | none => some (entries ++ [(name, .table .header [])])
  | some (.table .implied inner) => some (entries.set name (.table .header inner))
  | some _ => none

/-- Opens one more table of those with the same header. -/
def openNext? (name : String) (entries : Entries) : Option Entries :=
  match entries.lookup name with
  | none => some (entries ++ [(name, .tables [] [])])
  | some (.tables earlier last) => some (entries.set name (.tables (earlier ++ [last]) []))
  | some _ => none

end Entries

end MysToCpp.Toml
