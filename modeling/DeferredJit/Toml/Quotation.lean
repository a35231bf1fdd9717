import DeferredJit.Text.Hex
import DeferredJit.Toml.Reader

/-! The four kinds of quoted text: with escapes or literal, on one line or over several. -/

set_option autoImplicit false

namespace DeferredJit.Toml.Quotation

/-- The character with a code of hexadecimal digits, if there is one. -/
def coded (digits : List Char) : Option Char := do
  let code ← Text.natOfHex (String.ofList digits)
  if code.isValidChar then some (Char.ofNat code) else none

def simpleEscape : Char → Option Char
  | 'b' => some '\x08'
  | 't' => some '\t'
  | 'n' => some '\n'
  | 'f' => some '\x0c'
  | 'r' => some '\r'
  | '"' => some '"'
  | '\\' => some '\\'
  | _ => none

def push (c : Char) : Option (List Char × List Char) → Option (List Char × List Char) :=
  Option.map fun (text, rest) => (c :: text, rest)

/-- After the opening quote. -/
def escapedLine : List Char → Option (List Char × List Char)
  | [] => none
  | '"' :: rest => some ([], rest)
  | '\\' :: 'u' :: a :: b :: c :: d :: rest => do
    let decoded ← coded [a, b, c, d]
    push decoded (escapedLine rest)
  | '\\' :: 'U' :: a :: b :: c :: d :: e :: f :: g :: h :: rest => do
    let decoded ← coded [a, b, c, d, e, f, g, h]
    push decoded (escapedLine rest)
  | '\\' :: c :: rest => do
    let decoded ← simpleEscape c
    push decoded (escapedLine rest)
  | c :: rest => if Reader.isPlain c && c != '\\' then push c (escapedLine rest) else none

def literalLine : List Char → Option (List Char × List Char)
  | [] => none
  | '\'' :: rest => some ([], rest)
  | c :: rest => if Reader.isPlain c then push c (literalLine rest) else none

/-- Whether a line break was escaped: then it and all blanks and breaks after it are left out. -/
inductive Folding where
  | none
  /-- After the backslash, before the break. -/
  | expected
  /-- After the break. -/
  | started
  deriving DecidableEq

/-- After the opening quotes. Up to two quotes may stand directly before the closing three. -/
def escapedLines : Folding → List Char → Option (List Char × List Char)
  | _, [] => none
  | .expected, '\n' :: rest => escapedLines .started rest
  | .expected, '\r' :: '\n' :: rest => escapedLines .started rest
  | .expected, c :: rest => if Reader.blank c then escapedLines .expected rest else none
  | _, '"' :: '"' :: '"' :: '"' :: '"' :: rest => some (['"', '"'], rest)
  | _, '"' :: '"' :: '"' :: '"' :: rest => some (['"'], rest)
  | _, '"' :: '"' :: '"' :: rest => some ([], rest)
  | _, '\\' :: 'u' :: a :: b :: c :: d :: rest => do
    let decoded ← coded [a, b, c, d]
    push decoded (escapedLines .none rest)
  | _, '\\' :: 'U' :: a :: b :: c :: d :: e :: f :: g :: h :: rest => do
    let decoded ← coded [a, b, c, d, e, f, g, h]
    push decoded (escapedLines .none rest)
  | _, '\\' :: '\n' :: rest => escapedLines .started rest
  | _, '\\' :: '\r' :: '\n' :: rest => escapedLines .started rest
  | _, '\\' :: c :: rest =>
    if Reader.blank c then escapedLines .expected rest
    else do
      let decoded ← simpleEscape c
      push decoded (escapedLines .none rest)
  | folding, '\r' :: '\n' :: rest =>
    if folding = .started then escapedLines .started rest else push '\n' (escapedLines .none rest)
  | folding, '\n' :: rest =>
    if folding = .started then escapedLines .started rest else push '\n' (escapedLines .none rest)
  | folding, c :: rest =>
    if folding = .started && Reader.blank c then escapedLines .started rest
    else if Reader.isPlain c && c != '\\' then push c (escapedLines .none rest)
    else none

/-- As `escapedLines`, without escapes. -/
def literalLines : List Char → Option (List Char × List Char)
  | [] => none
  | '\'' :: '\'' :: '\'' :: '\'' :: '\'' :: rest => some (['\'', '\''], rest)
  | '\'' :: '\'' :: '\'' :: '\'' :: rest => some (['\''], rest)
  | '\'' :: '\'' :: '\'' :: rest => some ([], rest)
  | '\r' :: '\n' :: rest => push '\n' (literalLines rest)
  | '\n' :: rest => push '\n' (literalLines rest)
  | c :: rest => if Reader.isPlain c then push c (literalLines rest) else none

/-- A line break directly after the opening quotes is not part of the text. -/
def dropBreak : List Char → List Char
  | '\n' :: rest => rest
  | '\r' :: '\n' :: rest => rest
  | all => all

def asText : Option (List Char × List Char) → Option (String × List Char) :=
  Option.map fun (text, rest) => (String.ofList text, rest)

/-- A quoted text on one line. -/
def line : Reader String
  | '"' :: rest => asText (escapedLine rest)
  | '\'' :: rest => asText (literalLine rest)
  | _ => none

def any : Reader String
  | '"' :: '"' :: '"' :: rest => asText (escapedLines .none (dropBreak rest))
  | '\'' :: '\'' :: '\'' :: rest => asText (literalLines (dropBreak rest))
  | input => line input

end DeferredJit.Toml.Quotation
