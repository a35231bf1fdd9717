import DeferredJit.Failure
import DeferredJit.Tensor.Shape

/-! Row-major layout: how many elements apart two neighbours along an axis lie. -/

set_option autoImplicit false

namespace DeferredJit.Layout

/-- An extent as the layout counts it: an empty axis takes the room of one element. -/
def room (extent : Int) : Int := max extent 1

def product (left right : Int) : Except Panic Int :=
  match Word.signedMul? left right with
  | some value => .ok value
  | none => .error .overflow

/-- The stride of an axis in front of others that have an extent and a stride each. -/
def outer : (extents strides : List Int) → Except Panic Int
  | extent :: _, stride :: _ => product stride (room extent)
  | _, _ => .ok 1

/-- One stride an axis; unwinds when a stride is no signed word. -/
def rowMajor : List Int → Except Panic (List Int)
  | [] => .ok []
  | _ :: rest => do
    let inner ← rowMajor rest
    let stride ← outer rest inner
    return stride :: inner

theorem rowMajor_length {sizes strides : List Int} (computed : rowMajor sizes = .ok strides) :
    strides.length = sizes.length := by
  induction sizes generalizing strides with
  | nil => cases computed; rfl
  | cons size rest ih =>
    unfold rowMajor at computed
    cases inner : rowMajor rest with
    | error panic => simp [inner, bind, Except.bind] at computed
    | ok tail =>
      cases stepped : outer rest tail with
      | error panic => simp [inner, stepped, bind, Except.bind] at computed
      | ok stride =>
        simp only [inner, stepped, bind, Except.bind, pure, Except.pure, Except.ok.injEq] at computed
        subst computed
        simp [ih inner]

end DeferredJit.Layout
