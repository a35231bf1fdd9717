import DeferredJit.ShapeKey

/-! Which operands a signature accepts, and what it says of those that it rejects. A signature made of
the shapes of operands accepts operands of these shapes and no others. -/

set_option autoImplicit false

namespace DeferredJit

/-! ## Checks along two lists -/

section Walks

variable {α β ε : Type} {related : α → β → Prop}

/-- Where both lists have an item, the two are related. -/
def RelatedAt (related : α → β → Prop) (left : List α) (right : List β) (place : Nat) : Prop :=
  ∀ here there, left[place]? = some here → right[place]? = some there → related here there

theorem relatedAt_zero {here : α} {there : β} (first : related here there) (left : List α) (right : List β) :
    RelatedAt related (here :: left) (there :: right) 0 := by
  rintro _ _ ⟨⟩ ⟨⟩
  exact first

/-- A check of two lists item by item, told their places, up to the first failure or the end of a list. -/
structure Walks (walk : Nat → List α → List β → Except ε Unit) (check : Nat → α → β → Except ε Unit) : Prop where
  nil start right : walk start [] right = .ok ()
  single start left : walk start left [] = .ok ()
  cons start here left there right : walk start (here :: left) (there :: right) =
    (check start here there).bind fun _ => walk (start + 1) left right

/-- The walk comes to an end, or to the first place with two items that fail. -/
theorem Walks.ends {walk : Nat → List α → List β → Except ε Unit} {check : Nat → α → β → Except ε Unit}
    (walks : Walks walk check) (passes : ∀ place here there, check place here there = .ok () → related here there)
    (start : Nat) (left : List α) (right : List β) :
    (walk start left right = .ok () ∧ ∀ place, RelatedAt related left right place) ∨
    ∃ place here there fault, walk start left right = .error fault ∧ left[place]? = some here ∧
      right[place]? = some there ∧ check (start + place) here there = .error fault ∧
      ∀ earlier < place, RelatedAt related left right earlier := by
  induction left generalizing start right with
  | nil => exact .inl ⟨walks.nil start right, fun _ _ _ found => nomatch found⟩
  | cons here left ih =>
    cases right with
    | nil => exact .inl ⟨walks.single start (here :: left), fun _ _ _ _ found => nomatch found⟩
    | cons there right =>
      rw [walks.cons]
      cases checked : check start here there with
      | error fault => exact .inr ⟨0, here, there, fault, rfl, rfl, rfl, checked, fun _ before => nomatch before⟩
      | ok =>
        have head := relatedAt_zero (passes start here there checked) left right
        rcases ih (start + 1) right with ⟨through, all⟩ | ⟨place, one, other, fault, stops, inLeft, inRight, fails, first⟩
        · refine .inl ⟨through, fun place => ?_⟩
          cases place with
          | zero => exact head
          | succ place => exact all place
        · rw [Nat.add_right_comm] at fails
          refine .inr ⟨place + 1, one, other, fault, stops, inLeft, inRight, fails, fun earlier before => ?_⟩
          cases earlier with
          | zero => exact head
          | succ earlier => exact first earlier (Nat.lt_of_succ_lt_succ before)

end Walks

/-! ## One operand -/

namespace OperandType

/-- The operand has the declared element type, the declared rank, and every extent that is fixed. -/
structure Admits (operand : OperandType) (view : Memref) : Prop where
  type : view.type = operand.type
  rank : view.rank = operand.rank
  extents : ∀ (axis : Nat) (expected : Int), operand.dims[axis]? = some (.fixed expected) →
    view.sizes[axis]? = some expected

/-- The first difference: in the element type, then in the rank, then along the axes in order. -/
inductive Differs (operand : OperandType) (view : Memref) : OperandMismatch → Prop
  | type (differs : view.type ≠ operand.type) : Differs operand view (.type operand.type view.type)
  | rank (type : view.type = operand.type) (differs : view.rank ≠ operand.rank) :
      Differs operand view (.rank operand.rank view.rank)
  | extent {axis : Nat} {expected actual : Int} (type : view.type = operand.type)
      (rank : view.rank = operand.rank) (declared : operand.dims[axis]? = some (.fixed expected))
      (found : view.sizes[axis]? = some actual) (differs : actual ≠ expected)
      (first : ∀ earlier < axis, ∀ expected : Int, operand.dims[earlier]? = some (.fixed expected) →
        view.sizes[earlier]? = some expected) :
      Differs operand view (.extent axis expected actual)

variable {operand : OperandType} {view : Memref} {type : ElementType} {sizes : List Int}

theorem Differs.not_admits {reason : OperandMismatch} (differs : operand.Differs view reason) :
    ¬ operand.Admits view := by
  intro admits
  cases differs with
  | type differs => exact differs admits.type
  | rank _ differs => exact differs admits.rank
  | extent _ _ declared found differs =>
    exact differs (Option.some.inj (found.symm.trans (admits.extents _ _ declared)))

/-- One axis of the check. -/
def checkExtent (axis : Nat) : Dim → Int → Except OperandMismatch Unit
  | .fixed expected, size => if expected = size then .ok () else .error (.extent axis expected size)
  | .dynamic, _ => .ok ()

theorem walks_extents : Walks checkExtents checkExtent where
  nil start right := by cases right <;> rfl
  single start left := by rcases left with _ | ⟨_ | _, _⟩ <;> rfl
  cons start here left there right := by
    cases here with
    | fixed expected =>
      simp only [checkExtents, checkExtent]
      split <;> rfl
    | dynamic => rfl

theorem admits_of_checkExtent (axis : Nat) (dim : Dim) (size : Int) (passed : checkExtent axis dim size = .ok ()) :
    dim.admits size = true := by
  cases dim with
  | fixed expected =>
    simp only [checkExtent] at passed
    split at passed
    · rename_i same
      exact beq_iff_eq.2 same
    · cases passed
  | dynamic => rfl

/-- Where the ranks agree there is an extent for every declared one. -/
theorem found_of_related {axis : Nat} {expected : Int} (rank : view.rank = operand.rank)
    (related : RelatedAt (fun dim size => dim.admits size = true) operand.dims view.sizes axis)
    (declared : operand.dims[axis]? = some (.fixed expected)) : view.sizes[axis]? = some expected := by
  have inside : axis < view.sizes.length := by
    rw [show view.sizes.length = operand.dims.length from rank]
    exact (List.getElem?_eq_some_iff.1 declared).1
  have found := List.getElem?_eq_getElem inside
  rw [found, beq_iff_eq.1 (related _ _ declared found)]

/-- An operand is admitted, or the check says how it differs. -/
theorem check_ends (operand : OperandType) (view : Memref) :
    (operand.check view = .ok () ∧ operand.Admits view) ∨
    ∃ reason, operand.check view = .error reason ∧ operand.Differs view reason := by
  unfold check
  by_cases type : view.type = operand.type
  · by_cases rank : view.rank = operand.rank
    · rw [if_neg (not_not_intro type), if_neg (not_not_intro rank)]
      rcases walks_extents.ends admits_of_checkExtent 0 operand.dims view.sizes with
        ⟨through, all⟩ | ⟨axis, dim, size, fault, stops, declared, found, fails, first⟩
      · exact .inl ⟨through, type, rank, fun axis _ => found_of_related rank (all axis)⟩
      · have former : ∀ earlier < axis, ∀ expected : Int, operand.dims[earlier]? = some (.fixed expected) →
            view.sizes[earlier]? = some expected :=
          fun earlier before _ => found_of_related rank (first earlier before)
        rw [Nat.zero_add] at fails
        cases dim with
        | dynamic => cases fails
        | fixed expected =>
          simp only [checkExtent] at fails
          split at fails
          · cases fails
          · rename_i differs
            cases fails
            exact .inr ⟨_, stops, .extent type rank declared found (Ne.symm differs) former⟩
    · rw [if_neg (not_not_intro type), if_pos rank]
      exact .inr ⟨_, rfl, .rank type rank⟩
  · rw [if_pos type]
    exact .inr ⟨_, rfl, .type type⟩

theorem check_eq_ok_iff : operand.check view = .ok () ↔ operand.Admits view := by
  rcases operand.check_ends view with ⟨passed, admits⟩ | ⟨reason, failed, differs⟩
  · exact iff_of_true passed admits
  · exact iff_of_false (by rw [failed]; nofun) differs.not_admits

/-- With all extents fixed there is one shape that is admitted. -/
theorem ofSizes_admits : (ofSizes type sizes).Admits view ↔ OperandShape.ofMemref view = ⟨type, sizes⟩ := by
  constructor
  · intro admits
    -- Each declared extent is fixed, and the rank rules out others.
    have same : view.sizes = sizes := by
      apply List.ext_getElem?
      intro axis
      have rank : view.sizes.length = sizes.length := admits.rank.trans (List.length_map _)
      by_cases inside : axis < sizes.length
      · rw [List.getElem?_eq_getElem inside]
        apply admits.extents
        simp [ofSizes, inside]
      · rw [List.getElem?_eq_none (by omega), List.getElem?_eq_none (by omega)]
    rw [OperandShape.ofMemref, admits.type, same]
    rfl
  · rintro ⟨⟩
    exact ⟨rfl, (List.length_map _).symm, by simp [ofSizes]⟩

end OperandType

/-! ## All operands -/

namespace Signature

/-- There are as many operands as are declared, each of them as declared. -/
structure Accepts (signature : Signature) (views : List Memref) : Prop where
  count : views.length = signature.operands.length
  each : ∀ index, RelatedAt OperandType.Admits signature.operands views index

/-- The first difference: in the number of operands, then in the operands in order. -/
inductive Refuses (signature : Signature) (views : List Memref) : SignatureMismatch → Prop
  | arity (differs : views.length ≠ signature.operands.length) :
      Refuses signature views (.arity signature.operands.length views.length)
  | operand {index : Nat} {operand : OperandType} {view : Memref} {reason : OperandMismatch}
      (count : views.length = signature.operands.length)
      (declared : signature.operands[index]? = some operand) (given : views[index]? = some view)
      (differs : operand.Differs view reason)
      (first : ∀ earlier < index, RelatedAt OperandType.Admits signature.operands views earlier) :
      Refuses signature views (.operand index operand reason)

variable {signature : Signature} {views : List Memref}

theorem Refuses.not_accepts {mismatch : SignatureMismatch} (refuses : signature.Refuses views mismatch) :
    ¬ signature.Accepts views := by
  intro accepts
  cases refuses with
  | arity differs => exact differs accepts.count
  | operand _ declared given differs => exact differs.not_admits (accepts.each _ _ _ declared given)

/-- One operand of the check. -/
def checkOne (index : Nat) (operand : OperandType) (view : Memref) : Except SignatureMismatch Unit :=
  (operand.check view).mapError (.operand index operand)

theorem walks_operands : Walks checkEach checkOne where
  nil start right := by cases right <;> rfl
  single start left := by cases left <;> rfl
  cons start here left there right := by
    simp only [checkEach, checkOne]
    cases here.check there <;> rfl

theorem admits_of_checkOne (index : Nat) (operand : OperandType) (view : Memref)
    (passed : checkOne index operand view = .ok ()) : operand.Admits view := by
  rcases operand.check_ends view with ⟨-, admits⟩ | ⟨reason, failed, -⟩
  · exact admits
  · rw [checkOne, failed] at passed
    cases passed

/-- Operands are accepted, or the check says where they differ first. -/
theorem check_ends (signature : Signature) (views : List Memref) :
    (signature.check views = .ok () ∧ signature.Accepts views) ∨
    ∃ mismatch, signature.check views = .error mismatch ∧ signature.Refuses views mismatch := by
  unfold check
  by_cases count : views.length = signature.operands.length
  · rw [if_neg (not_not_intro count)]
    rcases walks_operands.ends admits_of_checkOne 0 signature.operands views with
      ⟨through, all⟩ | ⟨index, operand, view, fault, stops, declared, given, fails, first⟩
    · exact .inl ⟨through, count, all⟩
    · rw [Nat.zero_add] at fails
      rcases operand.check_ends view with ⟨passed, -⟩ | ⟨reason, failed, differs⟩
      · rw [checkOne, passed] at fails
        cases fails
      · rw [checkOne, failed] at fails
        cases fails
        exact .inr ⟨_, stops, .operand count declared given differs first⟩
  · rw [if_pos count]
    exact .inr ⟨_, rfl, .arity count⟩

theorem check_eq_ok_iff : signature.check views = .ok () ↔ signature.Accepts views := by
  rcases signature.check_ends views with ⟨passed, accepts⟩ | ⟨mismatch, failed, refuses⟩
  · exact iff_of_true passed accepts
  · exact iff_of_false (by rw [failed]; nofun) refuses.not_accepts

theorem refuses_of_check {mismatch : SignatureMismatch} (failed : signature.check views = .error mismatch) :
    signature.Refuses views mismatch := by
  rcases signature.check_ends views with ⟨passed, -⟩ | ⟨other, found, refuses⟩
  · cases passed.symm.trans failed
  · cases found.symm.trans failed
    exact refuses

/-- A signature for certain shapes accepts operands of exactly these shapes. -/
theorem accepts_iff_of_operandTypes {key : ShapeKey} (static : signature.operands = key.operandTypes) :
    signature.Accepts views ↔ ShapeKey.ofMemrefs views = key := by
  have declared (index : Nat) : signature.operands[index]? =
      key[index]?.map fun shape => .ofSizes shape.type shape.sizes := by
    rw [static, ShapeKey.operandTypes, List.getElem?_map]
  have length : signature.operands.length = key.length := by rw [static, ShapeKey.operandTypes, List.length_map]
  constructor
  · intro accepts
    apply List.ext_getElem (by simpa [ShapeKey.ofMemrefs, length] using accepts.count)
    intro index inViews inKey
    have there : index < views.length := by simpa [ShapeKey.ofMemrefs] using inViews
    have admits := accepts.each index _ views[index] ((declared index).trans (by rw [List.getElem?_eq_getElem inKey]; rfl))
      (List.getElem?_eq_getElem there)
    simpa [ShapeKey.ofMemrefs] using OperandType.ofSizes_admits.1 admits
  · rintro rfl
    refine ⟨by rw [length, ShapeKey.ofMemrefs, List.length_map], fun index operand view found given => ?_⟩
    rw [declared, ShapeKey.ofMemrefs, List.getElem?_map, given] at found
    cases found
    exact OperandType.ofSizes_admits.2 rfl

end Signature

end DeferredJit
