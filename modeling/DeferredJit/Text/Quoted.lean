import DeferredJit.Text.Printable

/-! Texts of values for a reader: quoted strings, lists, and records with named fields. -/

set_option autoImplicit false

namespace DeferredJit.Text

/-- One character of a quoted text. What is not printable is written by its code point. -/
def quotedChar (c : Char) : String :=
  if c == '"' then "\\\""
  else if c == '\\' then "\\\\"
  else if c == '\n' then "\\n"
  else if c == '\t' then "\\t"
  else if c == '\r' then "\\r"
  else if c == '\x00' then "\\0"
  else if isPrintable c then String.singleton c
  else "\\u\x7b" ++ String.ofList (Nat.toDigits 16 c.toNat) ++ "\x7d"

def quoted (text : String) : String :=
  "\"" ++ String.join (text.toList.map quotedChar) ++ "\""

def listOf (items : List String) : String := "[" ++ String.intercalate ", " items ++ "]"

def integers (values : List Int) : String := listOf (values.map toString)

def fieldTexts (fields : List (String × String)) : List String :=
  fields.map fun (label, value) => label ++ ": " ++ value

def recordOf (title : String) (parts : List String) : String :=
  if parts.isEmpty then title
  else title ++ " \x7b " ++ String.intercalate ", " parts ++ " \x7d"

def record (title : String) (fields : List (String × String)) : String :=
  recordOf title (fieldTexts fields)

/-- A record that has more fields than the ones listed. -/
def abridgedRecord (title : String) (fields : List (String × String)) : String :=
  recordOf title (fieldTexts fields ++ [".."])

end DeferredJit.Text
