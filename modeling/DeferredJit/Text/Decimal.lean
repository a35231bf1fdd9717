import DeferredJit.Word

/-! Unsigned words written in decimal digits. -/

set_option autoImplicit false

namespace DeferredJit.Text

def digitsValue (digits : List Char) : Nat :=
  digits.foldl (fun value c => value * 10 + (c.toNat - 48)) 0

/-- A 64-bit word: ASCII digits after at most one plus sign. Leading zeros are allowed. -/
def parseWord (text : String) : Option Nat :=
  let digits := match text.toList with
    | '+' :: rest => rest
    | all => all
  if digits.isEmpty || !digits.all Char.isDigit then none
  else if digitsValue digits < Word.limit then some (digitsValue digits)
  else none

end DeferredJit.Text
