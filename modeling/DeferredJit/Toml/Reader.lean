/-! Readers take what they understand from the front of a text, or refuse. -/

set_option autoImplicit false

namespace DeferredJit.Toml

abbrev Reader (α : Type) := StateT (List Char) Option α

namespace Reader

def peek : Reader (Option Char) := do return (← get).head?

def literal (expected : List Char) : Reader Unit := fun input =>
  if expected.isPrefixOf input then some ((), input.drop expected.length) else none

def char (expected : Char) : Reader Unit := literal [expected]

def takeWhile (accept : Char → Bool) : Reader (List Char) := fun input =>
  some (input.takeWhile accept, input.dropWhile accept)

def takeSome (accept : Char → Bool) : Reader (List Char) := do
  let taken ← takeWhile accept
  if taken.isEmpty then failure else return taken

/-- Exactly `count` characters of a kind; what follows may be of that kind too. -/
def exactly (count : Nat) (accept : Char → Bool) : Reader (List Char) := fun input =>
  let taken := input.take count
  if taken.length = count && taken.all accept then some (taken, input.drop count) else none

/-- Nothing is taken when the reader refuses. -/
def optional {α : Type} (reader : Reader α) : Reader (Option α) := fun input =>
  match reader input with
  | some (value, rest) => some (some value, rest)
  | none => some (none, input)

def atEnd : Reader Unit := fun input => if input.isEmpty then some ((), []) else none

def blank (c : Char) : Bool := c == ' ' || c == '\t'

def blanks : Reader Unit := discard (takeWhile blank)

def newline : Reader Unit := literal ['\n'] <|> literal ['\r', '\n']

/-- Anything but a control; the tab is none. -/
def isPlain (c : Char) : Bool := c == '\t' || (' ' ≤ c && c != '\x7f')

def comment : Reader Unit := do
  char '#'
  discard (takeWhile isPlain)

def lineEnd : Reader Unit := newline <|> atEnd

/-- Blanks, perhaps a comment, and the end of the line. -/
def trailing : Reader Unit := do
  blanks
  discard (optional comment)
  lineEnd

/-- What follows blanks, comments and line ends; the flag says whether a comment is going on. -/
def afterFiller : (comment : Bool) → List Char → List Char
  | _, [] => []
  | _, '\n' :: rest => afterFiller false rest
  | _, '\r' :: '\n' :: rest => afterFiller false rest
  | false, c :: rest =>
    if c == '#' then afterFiller true rest
    else if blank c then afterFiller false rest
    else c :: rest
  | true, c :: rest => if isPlain c then afterFiller true rest else c :: rest

/-- Blanks, comments and line ends, as many as there are. -/
def lines : Reader Unit := fun input => some ((), afterFiller false input)

end Reader

end DeferredJit.Toml
