import DeferredJit.Text.Quoted

/-! Numbers and names of background tasks. -/

set_option autoImplicit false

namespace DeferredJit.Task

structure Label where
  number : Nat
  name : Option String
  deriving DecidableEq, Repr

/-- Labels of tasks made one after the other, numbered from `first` on. -/
def labels (first : Nat) : List (Option String) → List Label
  | [] => []
  | name :: rest => ⟨first, name⟩ :: labels (first + 1) rest

/-- The label as a reader sees it; `shown` stands for the number. -/
def Label.describe (label : Label) (shown : String) : String :=
  let name := match label.name with
    | some name => "Some(" ++ Text.quoted name ++ ")"
    | none => "None"
  Text.abridgedRecord "Task" [("id", "TaskId(" ++ shown ++ ")"), ("name", name)]

end DeferredJit.Task
