/-! The tree that a document describes, and how tables grow while it is read.

A table is opened by a header, implied by a longer header, or made by a dotted key. Only tables of
the last two kinds may still be opened or extended from elsewhere, and each only in its own way.
-/

set_option autoImplicit false

namespace DeferredJit.Toml

/-- Where a table comes from. -/
inductive Standing where
  | declared
  | implied
  | dotted
  deriving DecidableEq, Repr

inductive Node where
  | text (value : String)
  | integer (value : Int)
  /-- A float, a truth value, or a date or time; which one is not kept. -/
  | scalar
  | array (items : List Node)
  | inlineTable (entries : List (String × Node))
  | table (standing : Standing) (entries : List (String × Node))
  /-- Tables opened one after the other under one name, newest first. -/
  | tables (elements : List (List (String × Node)))

abbrev Entries := List (String × Node)

namespace Entries

/-- Put a node in the place of the one of that name. -/
def replace (entries : Entries) (name : String) (node : Node) : Entries :=
  entries.map fun entry => if entry.1 = name then (name, node) else entry

/-- Walk down a path and change the table at its end. Each step says whether it comes from a dotted
key; such a step never enters a table that a header opened. Missing tables are made on the way. -/
def change (finish : Standing → Entries → Option Entries) :
    List (String × Bool) → Standing → Entries → Option Entries
  | [], standing, entries => finish standing entries
  | (name, dotted) :: path, _, entries =>
    match entries.lookup name with
    | none => do
      let standing := if dotted then .dotted else .implied
      let made ← change finish path standing []
      return entries ++ [(name, .table standing made)]
    | some (.table standing inner) =>
      if dotted && standing == .declared then none
      else do
        let changed ← change finish path standing inner
        return entries.replace name (.table standing changed)
    | some (.tables (newest :: earlier)) => do
      let changed ← change finish path .declared newest
      return entries.replace name (.tables (changed :: earlier))
    | some _ => none

/-- A new entry. A dotted key ends in a table made by dotted keys, a plain one in any other. -/
def add (plain : Bool) (name : String) (node : Node) (standing : Standing) (entries : Entries) :
    Option Entries :=
  if (standing == .dotted) == plain then none
  else if (entries.lookup name).isSome then none
  else some (entries ++ [(name, node)])

/-- Open a table by its header. -/
def openTable (name : String) (entries : Entries) : Option Entries :=
  match entries.lookup name with
  | none => some (entries ++ [(name, .table .declared [])])
  | some (.table .implied inner) => some (entries.replace name (.table .declared inner))
  | some _ => none

/-- Open one more table of an array of tables. -/
def openElement (name : String) (entries : Entries) : Option Entries :=
  match entries.lookup name with
  | none => some (entries ++ [(name, .tables [[]])])
  | some (.tables elements) => some (entries.replace name (.tables ([] :: elements)))
  | some _ => none

end Entries

end DeferredJit.Toml
