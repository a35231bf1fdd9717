import DeferredJit.ShapeKey
import Mathlib

/-! Names of shapes can be read in one way only: no part contains the character that joins it to the
next, and no part is empty. The fingerprint that a name ends in is not needed to tell shapes apart.
-/

set_option autoImplicit false

namespace DeferredJit

namespace Text

/-! ## Joined texts -/

/-- A part of a joined text that shows where it ends. -/
structure Unbroken (mark : Char) (part : String) : Prop where
  filled : part ≠ ""
  free : mark ∉ part.toList

instance (mark : Char) (part : String) : Decidable (Unbroken mark part) :=
  decidable_of_iff (part ≠ "" ∧ mark ∉ part.toList)
    ⟨fun ⟨filled, free⟩ => ⟨filled, free⟩, fun whole => ⟨whole.filled, whole.free⟩⟩

/-- No parts and a single empty part are joined to the same, so that parts have to be filled. -/
theorem joined_inj {mark : Char} {first second : List String} (whole : ∀ part ∈ first, Unbroken mark part)
    (also : ∀ part ∈ second, Unbroken mark part)
    (same : (String.singleton mark).intercalate first = (String.singleton mark).intercalate second) :
    first = second := by
  -- Cutting at the marks gives the parts back, but a single empty one where there were none.
  have pieces := String.toList_split_intercalate fun part member => (whole part member).free
  rw [same, String.toList_split_intercalate fun part member => (also part member).free] at pieces
  have unfilled {parts : List String} (whole : ∀ part ∈ parts, Unbroken mark part) : parts ≠ [""] := by
    rintro rfl
    exact (whole "" List.mem_cons_self).filled rfl
  by_cases none : first = []
  · by_cases empty : second = []
    · rw [none, empty]
    · rw [if_pos none, if_neg empty] at pieces
      exact absurd pieces (unfilled also)
  · by_cases empty : second = []
    · rw [if_neg none, if_pos empty] at pieces
      exact absurd pieces.symm (unfilled whole)
    · rw [if_neg none, if_neg empty] at pieces
      exact pieces.symm

/-- What is joined by one mark contains another only if a part does. -/
theorem Unbroken.joined {mark other : Char} (apart : other ≠ mark) {parts : List String} (filled : parts ≠ [])
    (whole : ∀ part ∈ parts, Unbroken other part) :
    Unbroken other ((String.singleton mark).intercalate parts) := by
  induction parts with
  | nil => exact absurd rfl filled
  | cons part parts ih =>
    obtain ⟨some, free⟩ := whole part List.mem_cons_self
    cases parts with
    | nil => simpa using ⟨some, free⟩
    | cons next parts =>
      obtain ⟨-, others⟩ := ih (List.cons_ne_nil _ _) fun part member => whole part (List.mem_cons_of_mem _ member)
      rw [String.intercalate_cons_cons]
      constructor
      · simp
      · simp only [String.toList_append, String.toList_singleton, List.mem_append, List.mem_singleton, not_or]
        exact ⟨⟨free, apart⟩, others⟩

/-! ## Numbers -/

theorem unbroken_repr {mark : Char} (mute : mark.isDigit = false) (value : Nat) : Unbroken mark value.repr where
  filled := Nat.repr_ne_empty
  free member := by
    rw [Nat.toList_repr] at member
    have digit := Nat.isDigit_of_mem_toDigits (by decide) (by decide) member
    simp [mute] at digit

theorem unbroken_toString {mark : Char} (mute : mark.isDigit = false) (unsigned : mark ≠ '-') (value : Int) :
    Unbroken mark (toString value) := by
  cases value with
  | ofNat value => exact unbroken_repr mute value
  | negSucc value =>
    obtain ⟨-, free⟩ := unbroken_repr mute (value + 1)
    have same : toString (Int.negSucc value) = "-" ++ (value + 1).repr := rfl
    rw [same]
    constructor
    · simp
    · rw [String.toList_append, List.mem_append, not_or]
      exact ⟨by simpa using unsigned, free⟩

/-- Hexadecimal digits are decimal ones or letters. -/
theorem underscore_not_mem_hexNumber (value : Nat) : '_' ∉ (hexNumber value).toList := by
  rw [hexNumber, String.toList_ofList]
  induction value using Nat.strongRecOn with
  | _ value ih =>
    -- The last digit stands alone, or behind those of a smaller number.
    have digit (rest : Nat) : '_' ≠ rest.digitChar := (Nat.digitChar_ne '_' (by decide)).symm
    by_cases small : value < 16
    · rw [Nat.toDigits_of_lt_base small]
      simp [digit]
    · rw [Nat.toDigits_of_base_le (by decide) (Nat.not_lt.1 small)]
      simp [digit, ih (value / 16) (by omega)]

/-! ## Cutting off an end -/

/-- What stands before the last of these marks, which is nothing if there is none. -/
def beforeLast (mark : Char) (text : String) : String :=
  String.ofList ((text.toList.reverse.dropWhile (· != mark)).drop 1).reverse

theorem beforeLast_append {mark : Char} {tail : String} (free : mark ∉ tail.toList) (text : String) :
    beforeLast mark (text ++ String.singleton mark ++ tail) = text := by
  have skipped : ∀ c ∈ tail.toList.reverse, (c != mark) = true := by
    intro c member
    rw [List.mem_reverse] at member
    exact bne_iff_ne.2 fun same => free (same ▸ member)
  have reversed : (text ++ String.singleton mark ++ tail).toList.reverse =
      tail.toList.reverse ++ mark :: text.toList.reverse := by simp
  unfold beforeLast
  rw [reversed, List.dropWhile_append_of_pos skipped]
  simp

end Text

/-! ## Shapes -/

theorem ElementType.name_inj {first second : ElementType} (same : first.name = second.name) : first = second := by
  apply Option.some.inj
  rw [← ofName?_name first, same, ofName?_name]

namespace OperandShape

open Text (Unbroken joined_inj)

/-- The parts that the text of a shape is joined from. -/
def parts (shape : OperandShape) : List String := shape.sizes.map toString ++ [shape.type.name]

/-- Neither mark that joins parts to names is within a part. -/
theorem unbroken_part {mark : Char} (joins : mark = 'x' ∨ mark = ',') (shape : OperandShape) :
    ∀ part ∈ shape.parts, Unbroken mark part := by
  intro part member
  rcases List.mem_append.1 member with extent | type
  · obtain ⟨value, -, rfl⟩ := List.mem_map.1 extent
    rcases joins with rfl | rfl <;> exact Text.unbroken_toString (by decide) (by decide) value
  · rw [List.mem_singleton.1 type]
    rcases joins with rfl | rfl <;> cases shape.type <;> decide

theorem parts_inj {first second : OperandShape} (same : first.parts = second.parts) : first = second := by
  obtain ⟨extents, types⟩ := List.append_inj' same rfl
  have sizes : first.sizes = second.sizes := (List.map_inj_right fun _ _ => Int.repr_inj.1).1 extents
  have type : first.type = second.type := ElementType.name_inj (List.singleton_inj.1 types)
  cases first
  cases second
  cases sizes
  cases type
  rfl

theorem text_inj {first second : OperandShape} (same : first.text = second.text) : first = second :=
  parts_inj (joined_inj (unbroken_part (.inl rfl) first) (unbroken_part (.inl rfl) second) same)

theorem unbroken_text (shape : OperandShape) : Unbroken ',' shape.text :=
  Unbroken.joined (show ',' ≠ 'x' by decide) (by simp) (unbroken_part (.inr rfl) shape)

end OperandShape

namespace ShapeKey

theorem text_inj {first second : ShapeKey} (same : first.text = second.text) : first = second := by
  -- Commas are the outer marks: the texts that they join are joined by another mark.
  have joined : String.intercalate "," (first.map OperandShape.text) =
      String.intercalate "," (second.map OperandShape.text) := by
    simpa [text, String.ext_iff] using same
  have whole (key : ShapeKey) : ∀ part ∈ key.map OperandShape.text, Text.Unbroken ',' part := by
    intro part member
    obtain ⟨shape, -, rfl⟩ := List.mem_map.1 member
    exact shape.unbroken_text
  exact (List.map_inj_right fun _ _ => OperandShape.text_inj).1 (Text.joined_inj (whole first) (whole second) joined)

theorem beforeLast_name (fingerprint : ShapeKey → UInt64) (key : ShapeKey) :
    Text.beforeLast '_' (key.name fingerprint) = key.text :=
  Text.beforeLast_append (Text.underscore_not_mem_hexNumber _) key.text

/-- Whatever the fingerprints are. -/
theorem name_inj {fingerprint other : ShapeKey → UInt64} {first second : ShapeKey}
    (same : first.name fingerprint = second.name other) : first = second := by
  apply text_inj
  rw [← beforeLast_name fingerprint, same, beforeLast_name]

end ShapeKey

end DeferredJit
