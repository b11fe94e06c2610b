import Brainfuck.Toml.Node

/-!
# Building TOML tables

Tables are built entry by entry; their entries keep the order in which they came.  What a key or
header may add to depends on how the tables on its path came to be.
-/

namespace Brainfuck.Toml

/-- Change the entry called `name`, or add it behind the others. -/
def change (name : String) (f : Option Node → Option Node) : Entries → Option Entries
  | [] => (f none).map fun node => [(name, node)]
  | (other, node) :: rest =>
    if other = name then (f (some node)).map fun node => (name, node) :: rest
    else (change name f rest).map ((other, node) :: ·)

/-- Change the last of the tables opened by headers in double brackets. -/
def changeLast (f : Origin → Entries → Option Node) (items : List Node) : Option Node :=
  match items.getLast? with
  | some (.table origin entries) => (f origin entries).map fun last => .tables (items.dropLast ++ [last])
  | _ => none

/-- Add a value under a dotted key.  The tables on the way must not have headers of their own;
the last one must not have been passed by in headers either, so `isOpen` says whether a value may
be added to these entries. -/
def insert (last : String) (value : Node) : List String → Bool → Entries → Option Entries
  | [], isOpen, entries =>
    if isOpen then
      change last (fun
        | none => some value
        | some _ => none) entries
    else none
  | name :: path, _, entries =>
    change name (fun
      | none => (insert last value path true []).map (.table .dotted)
      | some (.table .dotted inner) => (insert last value path true inner).map (.table .dotted)
      | some (.table .implied inner) => (insert last value path false inner).map (.table .implied)
      | some (.tables items) =>
        changeLast (fun origin inner => (insert last value path false inner).map (.table origin)) items
      | some _ => none) entries

/-- Change the entries of the table that a header's path leads to, passing by those on the way. -/
def within (f : Entries → Option Entries) : List String → Entries → Option Entries
  | [], entries => f entries
  | name :: path, entries =>
    change name (fun
      | none => (within f path []).map (.table .implied)
      | some (.table .inline _) => none
      | some (.table origin inner) => (within f path inner).map (.table origin)
      | some (.tables items) =>
        changeLast (fun origin inner => (within f path inner).map (.table origin)) items
      | some _ => none) entries

/-- A key, its path and its value. -/
structure Pair where
  path : List String
  last : String
  value : Node

/-- Add pairs to the entries of one table. -/
def insertAll (pairs : List Pair) (entries : Entries) : Option Entries :=
  pairs.foldlM (fun entries p => insert p.last p.value p.path p.path.isEmpty entries) entries

/-- Open a table by its own header and fill it.  One that headers have passed by goes on with what
it holds, but moves behind its neighbours. -/
def declare (last : String) (pairs : List Pair) (entries : Entries) : Option Entries :=
  let opened (held : Entries) : Option Entries :=
    (insertAll pairs held).map fun inner =>
      entries.filter (·.1 ≠ last) ++ [(last, .table .declared inner)]
  match entries.lookup last with
  | none => opened []
  | some (.table .implied held) => opened held
  | some _ => none

/-- Open one more of the tables with a header in double brackets and fill it. -/
def declareNext (last : String) (pairs : List Pair) (entries : Entries) : Option Entries :=
  (insertAll pairs []).bind fun inner =>
    change last (fun
      | none => some (.tables [.table .declared inner])
      | some (.tables items) => some (.tables (items ++ [.table .declared inner]))
      | some _ => none) entries

end Brainfuck.Toml
