import DeferredJit.Engine.World

/-! Outside parties that do what a script says. -/

set_option autoImplicit false

namespace DeferredJit.Session

/-! ## Kernels -/

/-- Where a scripted kernel takes an answer from. -/
inductive Source where
  /-- The same for all operands. -/
  | fixed (answer : Made Answer)
  /-- The view of an operand, with an amount added to every byte of its buffer. -/
  | operand (index : Nat) (amount : UInt8) (deferred : Bool)

def raise (view : Memref) (amount : UInt8) : Memref :=
  { view with data := view.data.map (· + amount) }

def Source.answer (views : List Memref) : Source → Made Answer
  | fixed answer => answer
  | operand index amount deferred =>
    match views[index]? with
    | none => .error (.outOfBounds views.length index)
    | some view =>
      let raised := raise view amount
      .ok (.ok (if deferred then .asyncMemref (.scheduled "deferred" raised) else .memref raised))

/-- Answers up to the first that cannot be made, which ends the run. -/
def follow (finish : Finish) (views : List Memref) : List (Nat × Source) → KernelRun
  | [] => ⟨[], finish⟩
  | (index, source) :: rest =>
    match source.answer views with
    | .error cause => ⟨[], .panicked cause⟩
    | .ok (.error failure) => ⟨[], .failed failure⟩
    | .ok (.ok answer) =>
      let ran := follow finish views rest
      ⟨(index, answer) :: ran.answers, ran.finish⟩

def scriptedKernel (name : String) (signature : Signature) (lines : List (Nat × Source))
    (finish : Finish) : Kernel :=
  ⟨name, signature, fun views => follow finish views lines⟩

/-! ## Compilers and specializers -/

inductive Tailoring where
  | panics (cause : Panic)
  | fails (failure : Failure)
  /-- Hands out the generic executable. -/
  | same
  /-- Hands out this kernel, for the asked shapes only unless its signature is kept. -/
  | kernel (kernel : Kernel) (kept : Bool)

def Tailoring.specializer (tailoring : Tailoring) : Specializer := fun generic key =>
  match tailoring with
  | panics cause => .error cause
  | fails failure => .ok (.error failure)
  | same => .ok (.ok generic)
  | kernel made true => .ok (.ok made)
  | kernel made false =>
    .ok (.ok { made with signature := { made.signature with operands := key.operandTypes } })

/-- Knows what comes of each source. -/
def scriptedCompiler (sources : List (String × Made Artifact)) : Compiler := fun request _ =>
  (sources.lookup request.source).getD (.ok (.error (.compilation "unknown source")))

/-! ## Arguments and results -/

/-- A scalar that stands for a chain. -/
def chainView : Memref := ⟨.i1, [1], 0, [], [], rfl, rfl⟩

/-- As for tensors, but one position may fail, and chains may be accepted. -/
def scriptedMarshaler (chains : Bool) (fault : Option (Nat × Failure)) : Marshaler :=
  fun index value =>
    match fault, value with
    | some (place, failure), value =>
      if index = place then .ok (.error failure) else plain index value
    | none, value => plain index value
where
  plain : Marshaler := fun index value =>
    if chains && value.isChain then .ok (.ok chainView) else Marshaler.tensors index value

/-- Accepts whatever is handed back and gives a chain. -/
def anythingAsChain : Conversion := fun _ _ _ => .ok (.ok (.settled (.ok .chain)))

end DeferredJit.Session
