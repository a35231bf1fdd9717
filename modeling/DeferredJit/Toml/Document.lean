import DeferredJit.Toml.Expression

/-! Documents: lines that hold an entry, open a table, or hold nothing. -/

set_option autoImplicit false

namespace DeferredJit.Toml

open Reader

/-- What was read so far, and the path of the table that entries go to. -/
structure Draft where
  root : Entries
  current : List String

def Draft.change (draft : Draft) (path : List (String × Bool))
    (finish : Standing → Entries → Option Entries) : Reader Entries :=
  match Entries.change finish path .declared draft.root with
  | some root => return root
  | none => failure

def plainPath (path : List String) : List (String × Bool) := path.map (·, false)

def entry (fuel : Nat) (draft : Draft) : Reader Draft := do
  let parts ← key
  char '='
  blanks
  let node ← value fuel (nestingLimit - 1)
  trailing
  match splitLast parts with
  | none => failure
  | some (path, name) =>
    let root ← draft.change (plainPath draft.current ++ path.map (·, true))
      (Entries.add path.isEmpty name node)
    return { draft with root }

def header (draft : Draft) : Reader Draft := do
  char '['
  let element := (← peek) = some '['
  if element then char '['
  let parts ← key
  char ']'
  if element then char ']'
  trailing
  match splitLast parts with
  | none => failure
  | some (path, name) =>
    let root ← draft.change (plainPath path) fun _ entries =>
      if element then entries.openElement name else entries.openTable name
    return { root, current := parts }

/-- The rest of a document; `fuel` exceeds its length, and with that the number of its lines and of
the items in an array. -/
def document : (fuel : Nat) → Draft → Reader Entries
  | 0, _ => failure
  | fuel + 1, draft => do
    blanks
    match ← peek with
    | none => return draft.root
    | some '#' =>
      comment
      lineEnd
      document fuel draft
    | some '\n' | some '\r' =>
      newline
      document fuel draft
    | some '[' => document fuel (← header draft)
    | some _ => document fuel (← entry (fuel + 1) draft)

/-- The entries of a document. A byte order mark in front is skipped. -/
def parse (text : String) : Option Entries :=
  let input := match text.toList with
    | '\uFEFF' :: rest => rest
    | all => all
  ((document (input.length + 1) ⟨[], []⟩).run input).map (·.1)

end DeferredJit.Toml
