import DeferredJit.Text.Bytes

/-! The SHA-1 digest of a byte string. -/

set_option autoImplicit false

namespace DeferredJit.Sha1

structure Working where
  a : UInt32
  b : UInt32
  c : UInt32
  d : UInt32
  e : UInt32

def initial : Working := ⟨0x67452301, 0xEFCDAB89, 0x98BADCFE, 0x10325476, 0xC3D2E1F0⟩

def rotate (word : UInt32) (count : UInt32) : UInt32 := (word <<< count) ||| (word >>> (32 - count))

/-- The message, a single one bit, zeros, and the length in bits as eight bytes. -/
def padding (message : Bytes) : Bytes :=
  let zeros := (119 - message.length % 64) % 64
  message ++ [0x80] ++ List.replicate zeros 0 ++ (littleEndian 8 (message.length * 8)).reverse

def words : Bytes → List UInt32
  | a :: b :: c :: d :: rest =>
    ((a.toUInt32 <<< 24) ||| (b.toUInt32 <<< 16) ||| (c.toUInt32 <<< 8) ||| d.toUInt32) :: words rest
  | _ => []

/-- The eighty words of a block. The list holds the ones made so far, newest first. -/
def schedule : (remaining : Nat) → List UInt32 → List UInt32
  | 0, made => made.reverse
  | remaining + 1, made =>
    let word := rotate
      (made.getD 2 0 ^^^ made.getD 7 0 ^^^ made.getD 13 0 ^^^ made.getD 15 0) 1
    schedule remaining (word :: made)

def mix (index : Nat) (state : Working) : UInt32 × UInt32 :=
  let ⟨_, b, c, d, _⟩ := state
  if index < 20 then ((b &&& c) ||| ((b ^^^ 0xFFFFFFFF) &&& d), 0x5A827999)
  else if index < 40 then (b ^^^ c ^^^ d, 0x6ED9EBA1)
  else if index < 60 then ((b &&& c) ||| (b &&& d) ||| (c &&& d), 0x8F1BBCDC)
  else (b ^^^ c ^^^ d, 0xCA62C1D6)

def round (state : Working) (step : UInt32 × Nat) : Working :=
  let (choice, constant) := mix step.2 state
  ⟨rotate state.a 5 + choice + state.e + constant + step.1, state.a, rotate state.b 30, state.c,
    state.d⟩

def compress (state : Working) (block : Bytes) : Working :=
  let final := ((schedule 64 (words block).reverse).zipIdx).foldl round state
  ⟨state.a + final.a, state.b + final.b, state.c + final.c, state.d + final.d, state.e + final.e⟩

def blocks (count : Nat) (input : Bytes) : List Bytes :=
  match count with
  | 0 => []
  | count + 1 => input.take 64 :: blocks count (input.drop 64)

/-- Twenty bytes. -/
def digest (message : Bytes) : Bytes :=
  let padded := padding message
  let final := (blocks (padded.length / 64) padded).foldl compress initial
  [final.a, final.b, final.c, final.d, final.e].flatMap fun word =>
    (littleEndian 4 word.toNat).reverse

end DeferredJit.Sha1
