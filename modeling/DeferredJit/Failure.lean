import DeferredJit.Text.Quoted

/-! How an operation can go wrong: a failure, which callers observe and which is replayed to
everybody who shares it, or a panic, which unwinds. -/

set_option autoImplicit false

namespace DeferredJit

/-- A failure that reaches the caller through a handle or a result cell. -/
inductive Failure where
  /-- Lowering a request or specializing an executable did not work. -/
  | compilation (message : String)
  /-- No executable accepts the operand shapes. -/
  | selection (message : String)
  /-- A host value is not passable as the argument at this position. -/
  | marshal (index : Nat) (message : String)
  /-- What was produced does not fit the result declared at this position. -/
  | conversion (index : Nat) (message : String)
  /-- Arguments or results do not match the executable at call time. -/
  | invocation (message : String)
  /-- Reported by the running kernel. -/
  | execution (message : String)
  | invalidTensor (message : String)
  deriving DecidableEq, Repr

namespace Failure

def text : Failure → String
  | compilation message => "compilation failed: " ++ message
  | selection message => "no viable executable: " ++ message
  | marshal index message => "failed to marshal argument #" ++ toString index ++ ": " ++ message
  | conversion index message => "failed to convert result #" ++ toString index ++ ": " ++ message
  | invocation message => "invocation failed: " ++ message
  | execution message => "execution failed: " ++ message
  | invalidTensor message => "invalid tensor: " ++ message

/-- The word for the kind of failure. -/
def kind : Failure → String
  | compilation _ => "Compilation"
  | selection _ => "ExecutableSelection"
  | marshal .. => "Marshal"
  | conversion .. => "Conversion"
  | invocation _ => "Invocation"
  | execution _ => "Execution"
  | invalidTensor _ => "InvalidTensor"

def describe (failure : Failure) : String :=
  match failure with
  | marshal index message | conversion index message =>
    Text.record failure.kind [("index", toString index), ("message", Text.quoted message)]
  | compilation message | selection message | invocation message | execution message
  | invalidTensor message => failure.kind ++ "(" ++ Text.quoted message ++ ")"

end Failure

/-- What an operation that may fail leaves behind. -/
abbrev Outcome (α : Type) := Except Failure α

instance {α : Type} [DecidableEq α] : DecidableEq (Outcome α) := fun first second =>
  match first, second with
  | .ok left, .ok right => decidable_of_iff (left = right) (by simp)
  | .error left, .error right => decidable_of_iff (left = right) (by simp)
  | .ok _, .error _ => isFalse (by simp)
  | .error _, .ok _ => isFalse (by simp)

/-- An unwinding, with the text it carries. -/
structure Panic where
  text : String
  deriving DecidableEq, Repr

namespace Panic

/-- Two words were multiplied whose product is no word. -/
def overflow : Panic := ⟨"attempt to multiply with overflow"⟩

/-- A list of a certain size was asked for a place that it does not have. -/
def outOfBounds (size place : Nat) : Panic :=
  ⟨"index out of bounds: the len is " ++ toString size ++ " but the index is " ++ toString place⟩

end Panic

/-- What comes of making something: it is there, it is refused, or making it panicked. -/
abbrev Made (α : Type) := Except Panic (Outcome α)

end DeferredJit
