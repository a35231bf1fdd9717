import DeferredJit.Async.Store

/-! The text of a cell. -/

set_option autoImplicit false

namespace DeferredJit.Async

def CellKind.describe : CellKind → String
  | concrete => "Concrete"
  | indirect => "Indirect"

/-- The kind of a cell and what it shows, or why it shows nothing. -/
def Store.describe {α β : Type} (store : Store α β) (valueText : α → String) (id : CellId) : String :=
  let kind := ((store.cell? id).map (·.kind)).getD .concrete
  let shown := match store.state id with
    | some (.ok value) => ("value", valueText value)
    | some (.error failure) => ("error", failure.describe)
    | none =>
      ("state", Text.quoted (if (store.link? id).isSome then "forwarded" else "pending"))
  Text.record "AsyncValue" [("kind", kind.describe), shown]

end DeferredJit.Async
