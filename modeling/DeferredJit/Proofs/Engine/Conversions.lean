import DeferredJit.Proofs.Engine.Fitness
import DeferredJit.Proofs.Engine.Pipeline
import DeferredJit.Proofs.Memref.Dense

/-! What the default conversions make of a raw value, on its own. The value of a buffer is the dense
tensor of its view. Besides being converted or refused a buffer may make its conversion panic, which
happens to views whose strides have to be compared with some that are no words. -/

set_option autoImplicit false

namespace DeferredJit

open Async (CellId)

/-! ## Buffers -/

/-- What comes of a view at a position where a buffer of this type and rank is declared. -/
inductive Delivered (index : Nat) (type : ElementType) (rank : Nat) (view : Memref) :
    Except Panic (Outcome KernelValue) → Prop where
  | dense {tensor} : view.type = type → view.rank = rank → view.toTensor = .ok (.ok tensor) →
      Delivered index type rank view (.ok (.ok (.tensor tensor)))
  | refused {message} : (view.type = type → view.rank = rank → ∃ fault, view.toTensor = .ok (.error fault)) →
      Delivered index type rank view (.ok (.error (.conversion index message)))
  | stumbles : view.type = type → view.rank = rank → view.Stumbles →
      Delivered index type rank view (.error .overflow)

theorem tensorResult_delivers (index : Nat) (type : ElementType) (rank : Nat) (view : Memref) :
    Delivered index type rank view (tensorResult index type rank view) := by
  unfold tensorResult
  split
  · rename_i other
    refine .refused fun sameType sameRank => ?_
    rcases other with apart | apart
    · exact absurd sameType apart
    · exact absurd sameRank apart
  · rename_i declared
    obtain ⟨sameType, sameRank⟩ := not_or.1 declared
    rw [not_not] at sameType sameRank
    cases made : view.toTensor with
    | error cause =>
      obtain ⟨rfl, stumbles⟩ := Memref.toTensor_unwinds_iff.1 made
      exact .stumbles sameType sameRank stumbles
    | ok reply =>
      cases reply with
      | ok tensor => exact .dense sameType sameRank made
      | error fault => exact .refused fun _ _ => ⟨fault, made⟩

theorem tensorResult_unwinds_iff {index : Nat} {type : ElementType} {rank : Nat} {view : Memref} {cause : Panic} :
    tensorResult index type rank view = .error cause ↔
      cause = .overflow ∧ view.type = type ∧ view.rank = rank ∧ view.Stumbles := by
  have delivers := tensorResult_delivers index type rank view
  generalize tensorResult index type rank view = reply at delivers ⊢
  have calm (made : Except MemrefFault Tensor) (same : view.toTensor = .ok made) : ¬ view.Stumbles := by
    intro stumbles
    cases same.symm.trans (Memref.toTensor_unwinds_iff.2 ⟨rfl, stumbles⟩)
  cases delivers with
  | dense _ _ made => simp [calm _ made]
  | refused refused =>
    suffices apart : ¬ (view.type = type ∧ view.rank = rank ∧ view.Stumbles) by simp [apart]
    rintro ⟨sameType, sameRank, stumbles⟩
    obtain ⟨fault, made⟩ := refused sameType sameRank
    exact calm _ made stumbles
  | stumbles sameType sameRank stumbles => simp [sameType, sameRank, stumbles, eq_comm]

namespace Engine

open Pipeline (Shown)

/-! ## Raw values -/

/-- The value that a raw value of the declared kind and type stands for. -/
inductive Denotes (shown : Shown) : ResultType → Raw → KernelValue → Prop where
  | token {cell payload} : shown cell = some (.ok payload) → Denotes shown .token (.token cell) .chain
  | memref {view tensor} : view.toTensor = .ok (.ok tensor) →
      Denotes shown (.memref view.type view.rank) (.memref view) (.tensor tensor)
  | asyncMemref {cell view tensor} : shown cell = some (.ok (.view view)) → view.toTensor = .ok (.ok tensor) →
      Denotes shown (.asyncMemref view.type view.rank) (.asyncMemref cell) (.tensor tensor)

/-- A raw value of the declared kind and type whose conversion panics. -/
inductive Trips (shown : Shown) : ResultType → Raw → Prop where
  | memref {view : Memref} : view.Stumbles → Trips shown (.memref view.type view.rank) (.memref view)
  | asyncMemref {cell view} : shown cell = some (.ok (.view view)) → view.Stumbles →
      Trips shown (.asyncMemref view.type view.rank) (.asyncMemref cell)

/-- A cell that was handed back for a buffer holds a buffer, if it holds anything. -/
def Typed (shown : Shown) : Raw → Prop
  | .asyncMemref cell => ∀ payload, shown cell = some (.ok payload) → ∃ view, payload = .view view
  | .token _ | .memref _ => True

/-- What becomes of a position that this raw value has been handed back for. -/
inductive Resolution (shown : Shown) (index : Nat) (type : ResultType) (raw : Raw) :
    Option (Outcome Payload) → Prop where
  | waits {cell} : cell ∈ raw.cells → shown cell = none → Resolution shown index type raw none
  | fails {cell failure} : cell ∈ raw.cells → shown cell = some (.error failure) →
      Resolution shown index type raw (some (.error failure))
  | converted {value} : Denotes shown type raw value → Resolution shown index type raw (some (.ok (.value value)))
  | refused {message} : (∀ value, ¬ Denotes shown type raw value) → ¬ Trips shown type raw →
      Resolution shown index type raw (some (.error (.conversion index message)))
  | stuck : Trips shown type raw → Resolution shown index type raw none

/-- What a raw value comes to at a position, whatever is handed back for others. -/
def Pipeline.alone (conversions : List Conversion) (shown : Shown) (index : Nat) (type : ResultType) (raw : Raw) :
    Option (Made Payload) :=
  match Conversion.convert index type conversions raw with
  | .ok converted => result shown index (some converted)
  | .error cause => some (.error cause)

section Alone

variable {shown : Shown} {index : Nat} {type : ResultType} {raw : Raw}

theorem alone_of_converted {conversions : List Conversion} {converted : Converted}
    (made : Conversion.convert index type conversions raw = .ok converted) :
    Pipeline.alone conversions shown index type raw = Pipeline.result shown index (some converted) := by
  unfold Pipeline.alone
  rw [made]

theorem alone_of_panicked {conversions : List Conversion} {cause : Panic}
    (made : Conversion.convert index type conversions raw = .error cause) :
    Pipeline.alone conversions shown index type raw = some (.error cause) := by
  unfold Pipeline.alone
  rw [made]

/-- The raw value is of the kind that is declared. -/
inductive Kindred : ResultType → Raw → Prop where
  | token {cell} : Kindred .token (.token cell)
  | asyncMemref {type rank cell} : Kindred (.asyncMemref type rank) (.asyncMemref cell)
  | memref {type rank view} : Kindred (.memref type rank) (.memref view)

/-- No conversion takes a raw value of another kind. -/
theorem alone_of_other (other : ¬ Kindred type raw) :
    Pipeline.alone Conversion.defaults shown index type raw =
      some (.ok (.error (.conversion index ("no conversion from " ++ raw.kind ++ " to " ++ type.text)))) := by
  cases type with
  | token =>
    cases raw with
    | token => exact absurd .token other
    | _ => rfl
  | asyncMemref =>
    cases raw with
    | asyncMemref => exact absurd .asyncMemref other
    | _ => rfl
  | memref =>
    cases raw with
    | memref => exact absurd .memref other
    | _ => rfl

theorem alone_token {cell : CellId} : Pipeline.alone Conversion.defaults shown index .token (.token cell) =
    (shown cell).map fun
      | .ok _ => .ok (.ok (.value .chain))
      | .error failure => .ok (.error failure) := rfl

theorem alone_asyncMemref {element : ElementType} {rank : Nat} {cell : CellId} :
    Pipeline.alone Conversion.defaults shown index (.asyncMemref element rank) (.asyncMemref cell) =
      (shown cell).map fun
        | .ok (.view view) => (tensorResult index element rank view).map fun outcome => outcome.map .value
        | .ok _ => .ok (.error unresolved)
        | .error failure => .ok (.error failure) := by
  refine congrArg (Option.map · (shown cell)) (funext fun seen => ?_)
  rcases seen with failure | payload
  · rfl
  · cases payload <;> rfl

theorem alone_memref {element : ElementType} {rank : Nat} {view : Memref} :
    Pipeline.alone Conversion.defaults shown index (.memref element rank) (.memref view) =
      some ((tensorResult index element rank view).map fun outcome => outcome.map .value) := by
  have converted : Conversion.convert index (.memref element rank) Conversion.defaults (.memref view) =
      (tensorResult index element rank view).map .settled := by
    change ((tensorResult index element rank view >>= fun outcome => pure (Except.ok (Converted.settled outcome))) >>=
      _) = _
    cases tensorResult index element rank view <;> rfl
  unfold Pipeline.alone
  rw [converted]
  cases tensorResult index element rank view <;> rfl

theorem trips_memref_iff {element : ElementType} {rank : Nat} {view : Memref} :
    Trips shown (.memref element rank) (.memref view) ↔ view.type = element ∧ view.rank = rank ∧ view.Stumbles := by
  constructor
  · intro trips
    cases trips with
    | memref stumbles => exact ⟨rfl, rfl, stumbles⟩
  · rintro ⟨rfl, rfl, stumbles⟩
    exact .memref stumbles

theorem trips_asyncMemref_iff {element : ElementType} {rank : Nat} {cell : CellId} :
    Trips shown (.asyncMemref element rank) (.asyncMemref cell) ↔ ∃ view, shown cell = some (.ok (.view view)) ∧
      view.type = element ∧ view.rank = rank ∧ view.Stumbles := by
  constructor
  · intro trips
    cases trips with
    | asyncMemref seen stumbles => exact ⟨_, seen, rfl, rfl, stumbles⟩
  · rintro ⟨view, seen, rfl, rfl, stumbles⟩
    exact .asyncMemref seen stumbles

theorem map_eq_error_iff {α β : Type} {attempt : Except Panic α} {next : α → β} {cause : Panic} :
    attempt.map next = .error cause ↔ attempt = .error cause := by
  cases attempt <;> simp [Except.map]

/-- The conversion of a raw value panics if its view is one of those that stumble, and then only. -/
theorem alone_panics_iff {cause : Panic} :
    Pipeline.alone Conversion.defaults shown index type raw = some (.error cause) ↔
      cause = .overflow ∧ Trips shown type raw := by
  by_cases kin : Kindred type raw
  · cases kin with
    | @token cell =>
      have never : ¬ Trips shown .token (.token cell) := by rintro ⟨⟩
      rw [alone_token]
      rcases shown cell with _ | _ | _ <;> simp [never]
    | memref =>
      rw [alone_memref, trips_memref_iff, ← tensorResult_unwinds_iff, Option.some.injEq, map_eq_error_iff]
    | @asyncMemref element rank cell =>
      rw [alone_asyncMemref, trips_asyncMemref_iff]
      cases seen : shown cell with
      | none => simp
      | some outcome =>
        cases outcome with
        | error failure => simp
        | ok payload =>
          cases payload with
          | view view => simp [map_eq_error_iff, tensorResult_unwinds_iff]
          | _ => simp
  · have never : ¬ Trips shown type raw := by
      intro trips
      cases trips with
      | memref => exact kin .memref
      | asyncMemref => exact kin .asyncMemref
    simp [alone_of_other kin, never]

/-- A raw value that is a view comes to the tensor of the view, or is refused, or trips. -/
theorem resolution_of_view {element : ElementType} {rank : Nat} {view : Memref}
    (denotes : ∀ value, Denotes shown type raw value ↔
      ∃ tensor, value = .tensor tensor ∧ view.type = element ∧ view.rank = rank ∧ view.toTensor = .ok (.ok tensor))
    (trips : Trips shown type raw ↔ view.type = element ∧ view.rank = rank ∧ view.Stumbles) :
    Resolution shown index type raw
      (((tensorResult index element rank view).map fun outcome => outcome.map Payload.value).toOption) := by
  have delivers := tensorResult_delivers index element rank view
  have unwinds := @tensorResult_unwinds_iff index element rank view .overflow
  generalize tensorResult index element rank view = reply at delivers unwinds ⊢
  cases delivers with
  | dense sameType sameRank made => exact .converted ((denotes _).2 ⟨_, rfl, sameType, sameRank, made⟩)
  | stumbles sameType sameRank stumbles => exact .stuck (trips.2 ⟨sameType, sameRank, stumbles⟩)
  | refused refused =>
    refine .refused (fun value stands => ?_) fun tripped => ?_
    · obtain ⟨tensor, -, sameType, sameRank, made⟩ := (denotes value).1 stands
      obtain ⟨fault, other⟩ := refused sameType sameRank
      cases made.symm.trans other
    · cases unwinds.2 ⟨rfl, trips.1 tripped⟩

/-- On its own a raw value comes to what its position shows in the end. -/
theorem alone_resolves (typed : Typed shown raw) : Resolution shown index type raw
    ((Pipeline.alone Conversion.defaults shown index type raw).bind Except.toOption) := by
  -- A raw value of a kind that goes with the type has its own rule; any other is refused.
  by_cases kin : Kindred type raw
  · cases kin with
    | @token cell =>
      rw [alone_token]
      cases seen : shown cell with
      | none => exact .waits List.mem_cons_self seen
      | some outcome =>
        cases outcome with
        | error failure => exact .fails List.mem_cons_self seen
        | ok payload => exact .converted (.token seen)
    | @memref element rank view =>
      rw [alone_memref]
      refine resolution_of_view (fun value => ?_) trips_memref_iff
      constructor
      · intro denotes
        cases denotes with
        | memref made => exact ⟨_, rfl, rfl, rfl, made⟩
      · rintro ⟨tensor, rfl, rfl, rfl, made⟩
        exact .memref made
    | @asyncMemref element rank cell =>
      rw [alone_asyncMemref]
      cases seen : shown cell with
      | none => exact .waits List.mem_cons_self seen
      | some outcome =>
        cases outcome with
        | error failure => exact .fails List.mem_cons_self seen
        | ok payload =>
          obtain ⟨view, rfl⟩ := typed payload seen
          refine resolution_of_view (fun value => ?_) ?_
          · constructor
            · intro denotes
              cases denotes with
              | asyncMemref other made =>
                cases seen.symm.trans other
                exact ⟨_, rfl, rfl, rfl, made⟩
            · rintro ⟨tensor, rfl, rfl, rfl, made⟩
              exact .asyncMemref seen made
          · rw [trips_asyncMemref_iff]
            simp [seen]
  · rw [alone_of_other kin]
    refine .refused (fun value denotes => ?_) fun trips => ?_
    · cases denotes with
      | token => exact kin .token
      | memref => exact kin .memref
      | asyncMemref => exact kin .asyncMemref
    · cases trips with
      | memref => exact kin .memref
      | asyncMemref => exact kin .asyncMemref

end Alone

end Engine

end DeferredJit
