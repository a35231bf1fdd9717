import DeferredJit.Text.Hex

/-! Nested lists of texts and numbers on one line, without blanks. -/

set_option autoImplicit false

namespace DeferredJit.Text

inductive Item where
  | text (value : String)
  | number (value : Int)
  | list (items : List Item)

namespace Item

/-- Quotes, backslashes and control characters are escaped; anything else stands for itself. -/
def escape (character : Char) : String :=
  match character with
  | '"' => "\\\""
  | '\\' => "\\\\"
  | '\x08' => "\\b"
  | '\x0c' => "\\f"
  | '\n' => "\\n"
  | '\r' => "\\r"
  | '\t' => "\\t"
  | other =>
    if other.toNat < 32 then "\\u" ++ hexPadded 4 other.toNat else String.singleton other

def enclosed (text : String) : String := "\"" ++ String.join (text.toList.map escape) ++ "\""

mutual

def render : Item → String
  | text value => enclosed value
  | number value => toString value
  | list items => "[" ++ String.intercalate "," (renderEach items) ++ "]"

def renderEach : List Item → List String
  | [] => []
  | first :: rest => render first :: renderEach rest

end

end Item

end DeferredJit.Text
