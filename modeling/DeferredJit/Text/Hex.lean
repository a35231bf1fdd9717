/-! Numbers and bytes in lower-case hexadecimal digits. -/

set_option autoImplicit false

namespace DeferredJit

abbrev Bytes := List UInt8

namespace Text

def hexDigit (value : Nat) : Char :=
  if value < 10 then Char.ofNat (48 + value) else Char.ofNat (87 + value)

def hexValue (c : Char) : Option Nat :=
  if '0' ≤ c && c ≤ '9' then some (c.toNat - 48)
  else if 'a' ≤ c && c ≤ 'f' then some (c.toNat - 87)
  else if 'A' ≤ c && c ≤ 'F' then some (c.toNat - 55)
  else none

/-- The last `width` digits, most significant first. -/
def hexDigits : (width : Nat) → Nat → List Char
  | 0, _ => []
  | width + 1, value => hexDigits width (value / 16) ++ [hexDigit (value % 16)]

theorem hexDigits_length (width value : Nat) : (hexDigits width value).length = width := by
  induction width generalizing value with
  | zero => rfl
  | succ width ih => simp [hexDigits, ih]

/-- As few digits as the number needs. -/
def hexNumber (value : Nat) : String := String.ofList (Nat.toDigits 16 value)

def hexPadded (width value : Nat) : String := String.ofList (hexDigits width value)

def hexBytes (bytes : Bytes) : String :=
  String.ofList (bytes.flatMap fun byte => hexDigits 2 byte.toNat)

/-- Two digits a byte; nothing for an odd digit count or a character that is no digit. -/
def bytesOfHexDigits : List Char → Option Bytes
  | [] => some []
  | [_] => none
  | high :: low :: rest => do
    let upper ← hexValue high
    let lower ← hexValue low
    let bytes ← bytesOfHexDigits rest
    return UInt8.ofNat (upper * 16 + lower) :: bytes

def bytesOfHex (text : String) : Option Bytes := bytesOfHexDigits text.toList

/-- A number of any length in hexadecimal digits. -/
def natOfHex (text : String) : Option Nat :=
  text.toList.foldlM (fun value c => (value * 16 + ·) <$> hexValue c) 0

theorem hexValue_hexDigit : ∀ value < 16, hexValue (hexDigit value) = some value := by decide

theorem bytesOfHexDigits_hexDigits (byte : UInt8) (rest : List Char) :
    bytesOfHexDigits (hexDigits 2 byte.toNat ++ rest) =
      (bytesOfHexDigits rest).map (byte :: ·) := by
  have bound := byte.toNat_lt
  have split : hexDigits 2 byte.toNat =
      [hexDigit (byte.toNat / 16 % 16), hexDigit (byte.toNat % 16)] := by simp [hexDigits]
  rw [split]
  simp only [List.cons_append, List.nil_append, bytesOfHexDigits,
    hexValue_hexDigit _ (Nat.mod_lt (byte.toNat / 16) (by omega : 0 < 16)),
    hexValue_hexDigit _ (Nat.mod_lt byte.toNat (by omega : 0 < 16))]
  cases bytesOfHexDigits rest <;> simp [← UInt8.toNat_inj, UInt8.toNat_add, UInt8.toNat_mul]
  omega

theorem bytesOfHex_hexBytes (bytes : Bytes) : bytesOfHex (hexBytes bytes) = some bytes := by
  simp only [bytesOfHex, hexBytes, String.toList_ofList]
  induction bytes with
  | nil => rfl
  | cons byte rest ih => simp [bytesOfHexDigits_hexDigits, ih]

end Text

end DeferredJit
