import DeferredJit.Toml.Quotation
import DeferredJit.Toml.Scalar

/-! Keys, values, and the pairs that they form. -/

set_option autoImplicit false

namespace DeferredJit.Toml

open Reader

/-- Arrays and inline tables inside one another, and the parts of a dotted key, stay below this. -/
def nestingLimit : Nat := 80

def bareKeyChar (c : Char) : Bool := c.isAlphanum || c == '-' || c == '_'

def keyPart : Reader String := do
  match ← peek with
  | some '"' | some '\'' => Quotation.line
  | _ => return String.ofList (← takeSome bareKeyChar)

/-- The parts of a key with the blanks around them; `fuel` bounds their number. -/
def keyParts : (fuel : Nat) → Reader (List String)
  | 0 => failure
  | fuel + 1 => do
    blanks
    let part ← keyPart
    blanks
    if (← peek) = some '.' then
      char '.'
      return part :: (← keyParts fuel)
    else return [part]

def key : Reader (List String) := keyParts (nestingLimit - 1)

/-- The last part of a key names the entry, the parts before it lead to its table. -/
def splitLast : List String → Option (List String × String)
  | [] => none
  | [last] => some ([], last)
  | first :: rest => (splitLast rest).map fun (path, last) => (first :: path, last)

/-- What follows the opening bracket of an array. -/
def arrayItems (value : Reader Node) : (fuel : Nat) → Reader (List Node)
  | 0 => failure
  | fuel + 1 => do
    lines
    if (← peek) = some ']' then
      char ']'
      return []
    else
      let item ← value
      lines
      if (← peek) = some ',' then
        char ','
        return item :: (← arrayItems value fuel)
      else
        char ']'
        return [item]

def inlineEntry (value : Reader Node) (entries : Entries) : Reader Entries := do
  let parts ← key
  char '='
  blanks
  let node ← value
  blanks
  match splitLast parts with
  | none => failure
  | some (path, name) =>
    match Entries.change (Entries.add path.isEmpty name node) (path.map (·, true)) .declared entries with
    | some entries => return entries
    | none => failure

/-- The entries of an inline table; unlike in an array, no comma may stand after the last. -/
def inlineEntries (value : Reader Node) : (fuel : Nat) → Entries → Reader Entries
  | 0, _ => failure
  | fuel + 1, entries => do
    let entries ← inlineEntry value entries
    if (← peek) = some ',' then
      char ','
      inlineEntries value fuel entries
    else
      char '}'
      return entries

/-- A value with at most `depth` arrays and inline tables inside one another; `fuel` bounds what one
of them holds. -/
def value (fuel depth : Nat) : Reader Node := do
  match ← peek with
  | some '"' | some '\'' => return .text (← Quotation.any)
  | some '[' =>
    match depth with
    | 0 => failure
    | depth + 1 =>
      char '['
      let items ← arrayItems (value fuel depth) fuel
      return .array items
  | some '{' =>
    match depth with
    | 0 => failure
    | depth + 1 =>
      char '{'
      blanks
      if (← peek) = some '}' then
        char '}'
        return .inlineTable []
      else return .inlineTable (← inlineEntries (value fuel depth) fuel [])
  | some 't' | some 'f' => Scalar.boolean
  | some 'i' | some 'n' => Scalar.special
  | _ => Scalar.number

end DeferredJit.Toml
