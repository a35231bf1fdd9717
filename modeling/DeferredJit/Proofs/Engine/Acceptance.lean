import DeferredJit.Proofs.Engine.Deliveries
import DeferredJit.Proofs.Engine.Selection
import DeferredJit.Proofs.Kernel.Signatures

/-! The executable that is chosen for operands accepts them when it is called: the generic one because
the choice has checked them, and one whose signature is that of their shapes because it is. -/

set_option autoImplicit false

namespace DeferredJit.Engine

open Async (CellId Steps)

variable {world next : EngineWorld} {id : HandleId} {views : List Memref}
  {cell : CellId} {handle : Handle} {kernel : Kernel}

/-- A choice is made for operands that the generic executable accepts. -/
theorem Selects.checked (selects : Selects world id views (.ok cell) next) :
    ∃ handle, world.outer.handles[id]? = some handle ∧ handle.generic.signature.check views = .ok () := by
  cases selects with
  | known found checked | generic found checked | queued found checked | made found checked =>
    exact ⟨_, found, checked⟩

/-- What the cell of a generic executable shows is that executable, from then on. -/
theorem Generics.shown (generics : Generics world) (member : handle ∈ world.outer.handles)
    (keeps : world.store.Keeps next.store) (sound : next.store.Sound)
    (shown : next.store.state handle.genericCell = some (.ok (.executable kernel))) : kernel = handle.generic := by
  rw [((generics handle member).later keeps).state_eq sound] at shown
  cases shown
  rfl

/-- A signature for certain shapes accepts operands of these shapes and no others, whatever their buffers,
offsets and strides are. The check passes what a signature accepts, and names the first difference
otherwise. So an executable that was chosen for operands never refuses them, whenever it comes and is
called, if it is the generic one or has the signature of their shapes. -/
theorem chosen_executables_accept (setup : Setup) (rules : Rules) :
    (∀ (key : ShapeKey) (signature : Signature), signature.operands = key.operandTypes →
      ∀ views, signature.check views = .ok () ↔ ShapeKey.ofMemrefs views = key) ∧
    (∀ (signature : Signature) (views : List Memref),
      (signature.check views = .ok () ↔ signature.Accepts views) ∧
      ∀ mismatch, signature.check views = .error mismatch → signature.Refuses views mismatch) ∧
    ∀ before, Steps (Step setup rules) ⟨[], initial⟩ before → ∀ depth id views cell next,
      select setup (within setup (depth + 1)) id views before.world = (.ok (.ok cell), next) →
      ∃ handle, before.world.outer.handles[id]? = some handle ∧
        ∀ after, Steps (Step setup rules) ⟨before.duties, next⟩ after → ∀ kernel,
          after.world.store.state cell = some (.ok (.executable kernel)) →
          cell = handle.genericCell ∨ kernel.signature.operands = (ShapeKey.ofMemrefs views).operandTypes →
          kernel.signature.check views = .ok () := by
  refine ⟨fun key signature static views => ?_, fun signature views => ?_, ?_⟩
  · rw [Signature.check_eq_ok_iff, Signature.accepts_iff_of_operandTypes static]
  · exact ⟨Signature.check_eq_ok_iff, fun _ => Signature.refuses_of_check⟩
  · intro before reached depth id views cell next chosen
    have fit := (fit_initial.steps reached).1
    have generics : Generics before.world := Generics.start.steps fit_initial reached
    have selects : Selects before.world id views (.ok cell) next := (select_ends setup depth id views).holds chosen
    obtain ⟨handle, found, checked⟩ := selects.checked
    refine ⟨handle, found, fun after steps kernel shown static => ?_⟩
    rcases static with rfl | static
    · obtain ⟨still, keeps⟩ := (selects.adds.fit fit).steps steps
      have onward := (selects.adds.grows.keeps fit.orderly.sound).trans keeps
      rw [generics.shown (List.mem_of_getElem? found) onward still.orderly.sound shown]
      exact checked
    · rw [Signature.check_eq_ok_iff, Signature.accepts_iff_of_operandTypes static]

/-- A kernel for vectors of any length, chosen for one of two elements. -/
theorem chosen_executables_accept_vector :
    let kernel : Kernel := ⟨"scale", ⟨[⟨.f32, [.dynamic]⟩], []⟩, fun _ => ⟨[], .returned⟩⟩
    let view : Memref := ⟨.f32, [], 0, [2], [1], rfl, rfl⟩
    ∃ world, Runs failing .guarded initial [.wrap (.ok ⟨kernel, none⟩) .disabled 0] world ∧
      select failing (within failing 1) 0 [view] world = (.ok (.ok 0), world) ∧
      world.store.state 0 = some (.ok (.executable kernel)) ∧ kernel.signature.check [view] = .ok () := by
  intro kernel view
  let handle : Handle := { generic := kernel, genericCell := 0, specializer := none, mode := .disabled, limit := 0 }
  let world := World.addHandle (initial.make { outcome := some (.ok (.executable kernel)) }) handle
  have run : Runs failing .guarded initial [.wrap (.ok ⟨kernel, none⟩) .disabled 0] world :=
    .cons trivial rfl (.inl trivial) .nil
  have chosen : select failing (within failing 1) 0 [view] world = (.ok (.ok 0), world) := rfl
  have shown : world.store.state 0 = some (.ok (.executable kernel)) := rfl
  have reached := run.steps trivial (fun _ _ => trivial) fit_initial
  obtain ⟨other, found, accepts⟩ := (chosen_executables_accept failing .guarded).2.2 _ reached 0 0 [view] 0 world chosen
  cases found
  exact ⟨world, run, chosen, shown, accepts _ .refl kernel shown (.inl rfl)⟩

end DeferredJit.Engine
