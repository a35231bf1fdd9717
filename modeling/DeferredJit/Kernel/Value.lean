import DeferredJit.Tensor.Dense

/-! Values that travel through the arguments and results of calls. -/

set_option autoImplicit false

namespace DeferredJit

inductive KernelValue where
  /-- Orders calls and carries nothing. -/
  | chain
  | tensor (tensor : Tensor)
  deriving DecidableEq

namespace KernelValue

def kind : KernelValue → String
  | chain => "chain"
  | tensor _ => "tensor"

def isChain : KernelValue → Bool
  | chain => true
  | tensor _ => false

def tensor? : KernelValue → Option Tensor
  | chain => none
  | tensor value => some value

def describe : KernelValue → String
  | chain => "Chain"
  | tensor value => "Tensor(" ++ value.describe ++ ")"

end KernelValue

end DeferredJit
