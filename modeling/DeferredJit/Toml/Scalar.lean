import DeferredJit.Text.Hex
import DeferredJit.Toml.Node
import DeferredJit.Toml.Reader
import DeferredJit.Word

/-! Unquoted values: numbers, truth values, dates and times. -/

set_option autoImplicit false

namespace DeferredJit.Toml.Scalar

open Reader

def digit (c : Char) : Bool := c.isDigit

def doubled : List Char → Bool
  | '_' :: '_' :: _ => true
  | _ :: rest => doubled rest
  | [] => false

/-- Digits of a kind, where single underscores may stand between two of them. -/
def grouped (accept : Char → Bool) : Reader (List Char) := do
  let run ← takeSome fun c => accept c || c == '_'
  if run.head? = some '_' || run.getLast? = some '_' || doubled run then failure
  else return run.filter (· != '_')

def sign : Reader (Option Char) := do
  match ← peek with
  | some '+' => char '+'; return some '+'
  | some '-' => char '-'; return some '-'
  | _ => return none

/-- Decimal digits without a leading zero, other than zero itself. -/
def unprefixed : Reader (List Char) := do
  match ← peek with
  | some '0' => char '0'; return ['0']
  | _ => grouped digit

def decimal (digits : List Char) : Nat :=
  digits.foldl (fun value c => value * 10 + (c.toNat - 48)) 0

def based (base : Nat) (digits : List Char) : Option Nat :=
  digits.foldlM (fun value c => do
    let next ← Text.hexValue c
    if next < base then some (value * base + next) else none) 0

def signedWord (value : Int) : Reader Node :=
  if Word.IsSigned value then return .integer value else failure

def basedInteger (mark : Char) (base : Nat) : Reader Node := do
  literal ['0', mark]
  let digits ← grouped fun c => ((Text.hexValue c).map (decide <| · < base)).getD false
  match based base digits with
  | some value => signedWord value
  | none => failure

def integer : Reader Node := do
  let sign ← sign
  let magnitude := decimal (← unprefixed)
  signedWord (if sign = some '-' then -magnitude else magnitude)

/-- Whether `mantissa * 10 ^ exponent` is nearer to infinity than to the largest double. -/
def overflows (mantissa : Nat) (exponent : Int) : Bool :=
  let places := (Nat.toDigits 10 mantissa).length
  let bound := Nat.pow 2 1024 - Nat.pow 2 970
  if mantissa = 0 || exponent + places < 300 then false
  else if 400 < exponent + places then true
  else if 0 ≤ exponent then bound ≤ mantissa * Nat.pow 10 exponent.toNat
  else bound * Nat.pow 10 (-exponent).toNat ≤ mantissa

def exponentPart : Reader Int := do
  discard (literal ['e'] <|> literal ['E'])
  let sign ← sign
  let magnitude := decimal (← grouped digit)
  return if sign = some '-' then -magnitude else magnitude

/-- A positive number too large for a double is refused; a negative one is not. -/
def float : Reader Node := do
  let sign ← sign
  let whole ← unprefixed
  let (fraction, exponent) ← match ← peek with
    | some '.' => do
      char '.'
      let fraction ← grouped digit
      let exponent ← match ← peek with
        | some 'e' | some 'E' => exponentPart
        | _ => pure 0
      pure (fraction, exponent)
    -- Without a point there has to be an exponent.
    | _ => do
      let exponent ← exponentPart
      pure ([], exponent)
  if sign ≠ some '-' && overflows (decimal (whole ++ fraction)) (exponent - fraction.length) then
    failure
  else return .scalar

def special : Reader Node := do
  discard sign
  discard (literal "inf".toList <|> literal "nan".toList)
  return .scalar

def boolean : Reader Node := do
  discard (literal "true".toList <|> literal "false".toList)
  return .scalar

/-- Two digits that stand for a number up to a bound. -/
def twoDigits (low high : Nat) : Reader Nat := do
  let value := decimal (← exactly 2 digit)
  if low ≤ value && value ≤ high then return value else failure

def daysIn (year month : Nat) : Nat :=
  if month = 2 then
    if year % 4 = 0 && (year % 100 != 0 || year % 400 = 0) then 29 else 28
  else if month = 4 || month = 6 || month = 9 || month = 11 then 30
  else 31

def time : Reader Unit := do
  discard (twoDigits 0 23)
  char ':'
  discard (twoDigits 0 59)
  char ':'
  discard (twoDigits 0 60)
  if (← peek) = some '.' then
    char '.'
    discard (takeSome digit)

def offset : Reader Unit := do
  match ← peek with
  | some 'Z' | some 'z' => discard (exactly 1 fun _ => true)
  | some '+' | some '-' =>
    discard (exactly 1 fun _ => true)
    discard (twoDigits 0 23)
    char ':'
    discard (twoDigits 0 59)
  | _ => return ()

/-- A time after a date begins with its hour and a colon; other text after a blank is not ours. -/
def timeOfDay : Reader Unit := fun input =>
  match input with
  | mark :: a :: b :: ':' :: _ =>
    if (mark == 'T' || mark == 't' || mark == ' ') && (twoDigits 0 23 [a, b]).isSome then
      (do time; offset) (input.drop 1)
    else some ((), input)
  | _ => some ((), input)

def date : Reader Unit := do
  let year := decimal (← exactly 4 digit)
  char '-'
  let month ← twoDigits 1 12
  char '-'
  discard (twoDigits 1 (daysIn year month))

def startsDate (input : List Char) : Bool := (do discard (exactly 4 digit); char '-' : Reader Unit) input |>.isSome

def startsTime (input : List Char) : Bool := (do discard (exactly 2 digit); char ':' : Reader Unit) input |>.isSome

def startsFloat (input : List Char) : Bool :=
  let start : Reader Unit := do
    discard sign
    discard unprefixed
    discard (literal ['.'] <|> literal ['e'] <|> literal ['E'])
  (start input).isSome

def number : Reader Node := do
  let input ← get
  if startsDate input then
    date
    timeOfDay
    return .scalar
  else if startsTime input then
    time
    return .scalar
  else if startsFloat input then float
  else match input with
    | '0' :: 'x' :: _ => basedInteger 'x' 16
    | '0' :: 'o' :: _ => basedInteger 'o' 8
    | '0' :: 'b' :: _ => basedInteger 'b' 2
    | '+' :: c :: _ | '-' :: c :: _ => if c == 'i' || c == 'n' then special else integer
    | _ => integer

end DeferredJit.Toml.Scalar
