import DeferredJit.Proofs.Engine.Invocations
import DeferredJit.Proofs.Memref.Contents

/-! When marshaling unwinds. Strides count an empty axis as one element, so the buffer of a tensor
bounds them only if it has no empty axis; and they are computed without a check. -/

set_option autoImplicit false

namespace DeferredJit

namespace Memref

/-- Without an empty axis there is an element for all the room. -/
theorem span_eq_count {tensor : Tensor} (nonempty : 0 ∉ tensor.shape) :
    Layout.span tensor.shape = tensor.count := by
  have nonnegative : ∀ size ∈ tensor.shape, 0 ≤ size :=
    Shape.nonneg_of_elements tensor.elements_shape
  have positive : ∀ size ∈ tensor.shape, 0 < size := by
    intro size member
    have present : size ≠ 0 := fun zero => nonempty (zero ▸ member)
    have least := nonnegative size member
    omega
  rw [Layout.span_eq_volume positive, tensor.count_eq_volume]

/-- Strides that are no words need an empty axis, or a buffer that cannot be allocated. -/
theorem empty_or_long {tensor : Tensor} (large : ¬ Layout.Representable tensor.shape) :
    0 ∈ tensor.shape ∨ 2 ^ 63 ≤ tensor.buffer.length := by
  by_cases empty : 0 ∈ tensor.shape
  · exact .inl empty
  · -- Elements are bytes at least, and there is one for all the room behind the first axis.
    have room := span_eq_count empty
    have behind := Layout.span_tail_le tensor.shape
    have counted : tensor.count ≤ tensor.buffer.length := Nat.div_le_self _ _
    have reached : 0x8000000000000000 ≤ Layout.span tensor.shape.tail := Int.not_lt.1 large
    omega

theorem ofTensor_unwinds_iff {tensor : Tensor} :
    (∃ panic, ofTensor tensor = .error panic) ↔ ¬ Layout.Representable tensor.shape := by
  rw [← Layout.rowMajor_unwinds_iff]
  unfold ofTensor
  split
  · rename_i panic computed
    simp [computed]
  · rename_i strides computed
    simp [computed]

end Memref

namespace Marshaler

/-- An operand that is there, and is a tensor. -/
def given (tensor : Tensor) : Option (Outcome KernelValue) := some (.ok (.tensor tensor))

variable {index : Nat} {operand : Option (Outcome KernelValue)} {rest : List (Option (Outcome KernelValue))}

/-- Any other operand ends the marshaling with a failure. -/
theorem viewsFrom_other (index : Nat) (rest : List (Option (Outcome KernelValue)))
    (other : ∀ tensor, operand ≠ given tensor) :
    ∃ failure, tensors.viewsFrom index (operand :: rest) = .ok (.error failure) := by
  rcases operand with _ | failure | value
  · exact ⟨_, rfl⟩
  · exact ⟨failure, rfl⟩
  · cases value with
    | chain => exact ⟨_, rfl⟩
    | tensor tensor => exact absurd rfl (other tensor)

theorem viewsFrom_given_unwinds_iff {tensor : Tensor} :
    (∃ panic, tensors.viewsFrom index (given tensor :: rest) = .error panic) ↔
      ¬ Layout.Representable tensor.shape ∨ ∃ panic, tensors.viewsFrom (index + 1) rest = .error panic := by
  rw [← Memref.ofTensor_unwinds_iff, given, viewsFrom, tensors]
  -- Behind a tensor that has a view the others still have their turn, and unwind or not as they do alone.
  rcases Memref.ofTensor tensor with panic | view
  · simp [Except.map, bind, Except.bind]
  · rcases tensors.viewsFrom (index + 1) rest with panic | failure | views <;>
      simp [Except.map, bind, Except.bind, pure, Except.pure]

/-- There is a tensor whose strides are no words, with but tensors in front of it, which have good strides. -/
def Stumbles (operands : List (Option (Outcome KernelValue))) : Prop :=
  ∃ (before : List Tensor) (tensor : Tensor) (after : List (Option (Outcome KernelValue))),
    operands = before.map given ++ given tensor :: after ∧
    (∀ earlier ∈ before, Layout.Representable earlier.shape) ∧ ¬ Layout.Representable tensor.shape

theorem stumbles_given_iff {first : Tensor} :
    Stumbles (given first :: rest) ↔ ¬ Layout.Representable first.shape ∨ Stumbles rest := by
  constructor
  · rintro ⟨before, tensor, after, same, good, large⟩
    cases before with
    | nil =>
      have here : given first = given tensor := (List.cons.inj same).1
      simp only [given, Option.some.injEq, Except.ok.injEq, KernelValue.tensor.injEq] at here
      exact .inl (here ▸ large)
    | cons head before =>
      rw [List.forall_mem_cons] at good
      exact .inr ⟨before, tensor, after, (List.cons.inj same).2, good.2, large⟩
  · intro stumbles
    by_cases fits : Layout.Representable first.shape
    · obtain ⟨before, tensor, after, rfl, good, large⟩ := stumbles.resolve_left fun large => large fits
      exact ⟨first :: before, tensor, after, rfl, List.forall_mem_cons.2 ⟨fits, good⟩, large⟩
    · exact ⟨[], first, rest, rfl, by simp, fits⟩

theorem not_stumbles (other : ∀ tensor, operand ≠ given tensor) : ¬ Stumbles (operand :: rest) := by
  rintro ⟨before, tensor, after, same, -, -⟩
  cases before with
  | nil => exact other tensor (List.cons.inj same).1
  | cons head before => exact other head (List.cons.inj same).1

theorem viewsFrom_unwinds_iff {operands : List (Option (Outcome KernelValue))} :
    (∃ panic, tensors.viewsFrom index operands = .error panic) ↔ Stumbles operands := by
  -- Both sides go on behind an operand only if it is a tensor; the index stands in messages alone.
  induction operands generalizing index with
  | nil => simp [viewsFrom, Stumbles]
  | cons operand rest ih =>
    by_cases shown : ∃ tensor, operand = given tensor
    · obtain ⟨tensor, rfl⟩ := shown
      rw [viewsFrom_given_unwinds_iff, stumbles_given_iff, ih]
    · obtain ⟨failure, stopped⟩ := viewsFrom_other index rest (not_exists.1 shown)
      simp [stopped, not_stumbles (not_exists.1 shown)]

/-- Marshaling unwinds at a tensor that has an empty axis, or more bytes than can be allocated, and behind
its first axis room for too many elements; and only if there are but tensors in front of it, none of them like
that. -/
theorem views_unwind_iff (operands : List (Option (Outcome KernelValue))) :
    (∃ panic, tensors.views operands = .error panic) ↔
      ∃ (before : List Tensor) (tensor : Tensor) (after : List (Option (Outcome KernelValue))),
        operands = before.map given ++ given tensor :: after ∧
        (∀ earlier ∈ before, Layout.span earlier.shape.tail < Word.signedLimit) ∧
        Word.signedLimit ≤ Layout.span tensor.shape.tail ∧
        (0 ∈ tensor.shape ∨ 2 ^ 63 ≤ tensor.buffer.length) := by
  unfold views
  rw [viewsFrom_unwinds_iff]
  -- To be shown besides is where strides that are no words come from.
  constructor
  · rintro ⟨before, tensor, after, same, good, large⟩
    exact ⟨before, tensor, after, same, good, Int.not_lt.1 large, Memref.empty_or_long large⟩
  · rintro ⟨before, tensor, after, same, good, large, -⟩
    exact ⟨before, tensor, after, same, good, Int.not_lt.2 large⟩

/-- Without elements there may still be strides that are no words. -/
example : tensors.views [given ⟨.i8, [0, 4611686018427387904, 4], [], rfl⟩] = .error .overflow := by rfl

end Marshaler

namespace Engine

open Async (CellId)

/-- A call whose operands are to be tensors returns a cell for each result, unless its operands are all there
and one of them is a tensor whose strides are no words. -/
theorem call_returns {setup : Setup} {operations : List Operation} {world : EngineWorld}
    (run : Runs setup .calm initial operations world) {dispatcher : Dispatcher} {handle : CellId}
    {operands : List CellId} {count : Nat}
    (allowed : (Operation.call dispatcher handle operands count).Allowed .calm world)
    (takes : dispatcher.marshaler = .tensors) :
    (∃ cells after, Engine.call setup dispatcher handle operands count world = (.ok cells, after) ∧
      cells.length = count) ∨
    operands.all world.store.isAvailable = true ∧ ∃ operand ∈ operands, ∃ tensor,
      look Payload.value? (world.store.state operand) = Marshaler.given tensor ∧
      ¬ Layout.Representable tensor.shape := by
  have steady : Steady ⟨[], world⟩ := steady_initial.runs run
  have solo : Solo ⟨[], world⟩ :=
    solo_initial.steps fit_initial (run.steps trivial (fun _ _ => trivial) fit_initial)
  rcases call_followed setup steady solo allowed with ⟨available, panicked⟩ | ⟨cells, after, called, length, -⟩
  · rw [takes] at panicked
    obtain ⟨before, tensor, rest, same, -, large⟩ := Marshaler.viewsFrom_unwinds_iff.1 panicked
    have member : Marshaler.given tensor ∈ operands.map fun cell => look Payload.value? (world.store.state cell) := by
      rw [same]
      exact List.mem_append_right _ List.mem_cons_self
    obtain ⟨operand, among, shown⟩ := List.mem_map.1 member
    exact .inr ⟨available, operand, among, tensor, shown, large⟩
  · exact .inl ⟨cells, after, called, length⟩

end Engine

end DeferredJit
