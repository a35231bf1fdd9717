import DeferredJit.Engine.Dispatch

/-! The pipeline of a call as it would run in one go, on what the cells show: operands, handle,
executable, kernel, results. It comes to nothing while a cell that it needs shows nothing, and what it
comes to it goes on coming to when cells show more. -/

set_option autoImplicit false

namespace DeferredJit

open Async (CellId)

namespace Handle

/-- The handle has got more specializations, and chooses as before where it had a choice. -/
structure Keeps (handle later : Handle) : Prop where
  generic : later.generic = handle.generic
  genericCell : later.genericCell = handle.genericCell
  specializer : later.specializer = handle.specializer
  mode : later.mode = handle.mode
  limit : later.limit = handle.limit
  choose : ∀ key, handle.choose key ≠ .fresh → later.choose key = handle.choose key

theorem Keeps.refl (handle : Handle) : handle.Keeps handle := ⟨rfl, rfl, rfl, rfl, rfl, fun _ _ => rfl⟩

theorem Keeps.trans {handle next later : Handle} (first : handle.Keeps next) (second : next.Keeps later) :
    handle.Keeps later where
  generic := second.generic.trans first.generic
  genericCell := second.genericCell.trans first.genericCell
  specializer := second.specializer.trans first.specializer
  mode := second.mode.trans first.mode
  limit := second.limit.trans first.limit
  choose key settled := by
    have same := first.choose key settled
    exact (second.choose key (same ▸ settled)).trans same

/-- Only handles with a specializer lack a specialization. -/
theorem specializer_of_fresh {handle : Handle} {key : ShapeKey} (fresh : handle.choose key = .fresh) :
    handle.specializer.isSome := by
  unfold choose at fresh
  split at fresh
  · rename_i willing
    unfold specializes at willing
    exact (Bool.and_eq_true_iff.1 willing).1
  · cases fresh

theorem lookup_eq_none_iff {key : ShapeKey} {table : List (ShapeKey × CellId)} :
    table.lookup key = none ↔ key ∉ table.map Prod.fst := by
  rw [List.lookup_eq_none_iff]
  constructor
  · intro apart member
    obtain ⟨entry, among, rfl⟩ := List.mem_map.1 member
    simpa using apart entry among
  · intro missing entry among
    simpa using fun same : key = entry.1 => missing (same ▸ List.mem_map_of_mem among)

theorem missing_of_fresh {handle : Handle} {key : ShapeKey} (fresh : handle.choose key = .fresh) :
    key ∉ handle.specializations.map Prod.fst := by
  refine lookup_eq_none_iff.1 ?_
  unfold choose at fresh
  split at fresh
  · split at fresh
    · cases fresh
    · assumption
  · cases fresh

theorem keeps_specialized {handle : Handle} {key : ShapeKey} (fresh : handle.choose key = .fresh)
    (cell : CellId) : handle.Keeps (handle.specialized key cell) := by
  refine ⟨rfl, rfl, rfl, rfl, rfl, fun other settled => ?_⟩
  -- A fresh choice means that there is room, so no other key was turned away for lack of it.
  unfold choose at fresh settled ⊢
  rw [specialized_specializes]
  split at fresh
  · rename_i willing
    rw [if_pos willing, if_pos willing] at *
    split at fresh
    · cases fresh
    · rename_i missing
      split at fresh
      · cases fresh
      · rename_i room
        simp only [specialized, List.lookup_append] at *
        cases found : handle.specializations.lookup other with
        | some known => simp
        | none =>
          rw [found, if_neg room] at settled
          exact absurd rfl settled
  · cases fresh

/-- The handle after a choice for these operands. The cell is for an executable that is still to be made. -/
def served (handle : Handle) (views : List Memref) (cell : CellId) : Handle :=
  match handle.generic.signature.check views with
  | .error _ => handle
  | .ok () =>
    if handle.choose (ShapeKey.ofMemrefs views) = .fresh then handle.specialized (ShapeKey.ofMemrefs views) cell
    else handle

section Served

variable {handle : Handle} {views : List Memref} {cell : CellId}

theorem served_rejected {mismatch : SignatureMismatch}
    (checked : handle.generic.signature.check views = .error mismatch) : handle.served views cell = handle := by
  unfold served
  rw [checked]

theorem served_settled (settled : handle.choose (ShapeKey.ofMemrefs views) ≠ .fresh) :
    handle.served views cell = handle := by
  unfold served
  split
  · rfl
  · exact if_neg settled

theorem served_fresh (checked : handle.generic.signature.check views = .ok ())
    (fresh : handle.choose (ShapeKey.ofMemrefs views) = .fresh) :
    handle.served views cell = handle.specialized (ShapeKey.ofMemrefs views) cell := by
  unfold served
  rw [checked]
  exact if_pos fresh

/-- Only the specializations may change. -/
theorem served_eq : handle.served views cell =
    { handle with specializations := (handle.served views cell).specializations } := by
  unfold served
  split
  · rfl
  · split <;> rfl

end Served

end Handle

namespace Engine.Pipeline

/-- The first failure, the value of a step, or nothing yet. -/
abbrev Known (α : Type) := ExceptT Failure Option α

abbrev Shown := CellId → Option (Outcome Payload)

def known {α : Type} (outcome : Outcome α) : Known α := ExceptT.mk (some outcome)

def unknown {α : Type} : Known α := ExceptT.mk none

/-! ## Up to the executable -/

/-- What is in a cell, which has to be of the right sort. -/
def held {α : Type} (select : Payload → Option α) (seen : Option (Outcome Payload)) : Known α :=
  match seen with
  | none => unknown
  | some outcome => known ((look select (some outcome)).getD (.error unresolved))

/-- The operands in order. The first that fails, or that cannot be passed, fails the call. -/
def marshal (call : Call) (shown : Shown) : Known (List Memref) :=
  if call.operands.all fun cell => (shown cell).isSome then
    match call.dispatcher.marshaler.views
        (call.operands.map fun cell => look Payload.value? (shown cell)) with
    | .ok outcome => known outcome
    | .error _ => unknown
  else unknown

/-- The cell of the executable that a handle has for these operands. -/
def choice (handles : List Handle) (id : HandleId) (views : List Memref) : Known CellId :=
  match handles[id]? with
  | none => known (.error unresolved)
  | some handle =>
    match handle.generic.signature.check views with
    | .error mismatch =>
      known (.error (.selection (handle.generic.name ++ ": " ++ mismatch.message)))
    | .ok () =>
      match handle.choose (ShapeKey.ofMemrefs views), handle.specializer with
      | .known cell, _ => known (.ok cell)
      | .fresh, some _ => unknown
      | _, _ => known (.ok handle.genericCell)

section Choice

variable {handles : List Handle} {id : HandleId} {handle : Handle} {views : List Memref}
  (found : handles[id]? = some handle)

include found

theorem choice_of_rejected {mismatch : SignatureMismatch}
    (checked : handle.generic.signature.check views = .error mismatch) : choice handles id views =
      known (.error (.selection (handle.generic.name ++ ": " ++ mismatch.message))) := by
  unfold choice
  simp only [found, checked]

theorem choice_of_known {cell : CellId} (checked : handle.generic.signature.check views = .ok ())
    (chosen : handle.choose (ShapeKey.ofMemrefs views) = .known cell) :
    choice handles id views = known (.ok cell) := by
  unfold choice
  simp only [found, checked, chosen]

theorem choice_of_generic (checked : handle.generic.signature.check views = .ok ())
    (chosen : handle.choose (ShapeKey.ofMemrefs views) = .generic) :
    choice handles id views = known (.ok handle.genericCell) := by
  unfold choice
  simp only [found, checked, chosen]

/-- Operands of the same shapes get the same executable. -/
theorem choice_congr {again : List Memref} (checked : handle.generic.signature.check views = .ok ())
    (also : handle.generic.signature.check again = .ok ())
    (same : ShapeKey.ofMemrefs again = ShapeKey.ofMemrefs views) :
    choice handles id again = choice handles id views := by
  unfold choice
  simp only [found, checked, also, same]

end Choice

/-- The kernel that the call runs, and what it runs it on. -/
def kernel (call : Call) (handles : List Handle) (shown : Shown) : Known (Kernel × List Memref) := do
  let views ← marshal call shown
  let id ← held Payload.handle? (shown call.handle)
  let cell ← choice handles id views
  let kernel ← held Payload.executable? (shown cell)
  return (kernel, views)

section Kernel

variable {call : Call} {handles : List Handle} {shown : Shown} {views : List Memref} {id : HandleId}
  {failure : Failure}

theorem kernel_of_marshal_error (viewed : marshal call shown = known (.error failure)) :
    kernel call handles shown = known (.error failure) := by
  unfold kernel
  rw [viewed]
  rfl

theorem kernel_of_handle_error (viewed : marshal call shown = known (.ok views))
    (handled : held Payload.handle? (shown call.handle) = known (.error failure)) :
    kernel call handles shown = known (.error failure) := by
  unfold kernel
  rw [viewed, handled]
  rfl

theorem kernel_of_choice_error (viewed : marshal call shown = known (.ok views))
    (handled : held Payload.handle? (shown call.handle) = known (.ok id))
    (chosen : choice handles id views = known (.error failure)) :
    kernel call handles shown = known (.error failure) := by
  unfold kernel
  rw [viewed, handled]
  change (choice handles id views >>= _) = _
  rw [chosen]
  rfl

theorem kernel_of_choice {cell : CellId} {outcome : Outcome Kernel}
    (viewed : marshal call shown = known (.ok views))
    (handled : held Payload.handle? (shown call.handle) = known (.ok id))
    (chosen : choice handles id views = known (.ok cell))
    (executable : held Payload.executable? (shown cell) = known outcome) :
    kernel call handles shown = known (outcome.map fun kernel => (kernel, views)) := by
  unfold kernel
  rw [viewed, handled]
  change (choice handles id views >>= _) = _
  rw [chosen]
  change (held Payload.executable? (shown cell) >>= _) = _
  rw [executable]
  cases outcome <;> rfl

theorem kernel_of_operand_unknown {operand : CellId} (member : operand ∈ call.operands)
    (pending : shown operand = none) : kernel call handles shown = unknown := by
  have waits : marshal call shown = unknown := by
    unfold marshal
    refine if_neg fun available => ?_
    have there := List.all_eq_true.1 available operand member
    rw [pending] at there
    cases there
  unfold kernel
  rw [waits]
  rfl

theorem kernel_of_handle_unknown (viewed : marshal call shown = known (.ok views))
    (pending : shown call.handle = none) : kernel call handles shown = unknown := by
  unfold kernel
  rw [viewed, pending]
  rfl

theorem kernel_of_executable_unknown {cell : CellId} (viewed : marshal call shown = known (.ok views))
    (handled : held Payload.handle? (shown call.handle) = known (.ok id))
    (chosen : choice handles id views = known (.ok cell)) (pending : shown cell = none) :
    kernel call handles shown = unknown := by
  unfold kernel
  rw [viewed, handled]
  change (choice handles id views >>= _) = _
  rw [chosen]
  change (held Payload.executable? (shown cell) >>= _) = _
  rw [pending]
  rfl

end Kernel

/-! ## From the kernel on -/

def mismatch? (call : Call) (kernel : Kernel) (views : List Memref) : Option Failure :=
  let declared := kernel.signature.results.length
  if declared ≠ call.count then
    some (.invocation (kernel.name ++ " returns " ++ toString declared ++
      " results, caller expects " ++ toString call.count))
  else
    match kernel.signature.check views with
    | .error mismatch => some (.invocation (kernel.name ++ ": " ++ mismatch.message))
    | .ok () => none

/-- What the declared results come from. The first answer for a position counts. -/
def fill (conversions : List Conversion) (types : List ResultType) :
    List (Option Converted) → List (Nat × Raw) → Except Panic (List (Option Converted))
  | slots, [] => return slots
  | slots, (index, raw) :: rest =>
    match types[index]?, slots[index]? with
    | some type, some none => do
      let converted ← Conversion.convert index type conversions raw
      fill conversions types (slots.set index (some converted)) rest
    | _, _ => fill conversions types slots rest

section Fill

variable {conversions : List Conversion} {types : List ResultType} {slots : List (Option Converted)}
  {index : Nat} {raw : Raw}

theorem fill_converted {type : ResultType} {converted : Converted} (declared : types[index]? = some type)
    (vacant : slots[index]? = some none)
    (made : Conversion.convert index type conversions raw = .ok converted) (rest : List (Nat × Raw)) :
    fill conversions types slots ((index, raw) :: rest) =
      fill conversions types (slots.set index (some converted)) rest := by
  rw [fill, declared, vacant]
  simp [made, bind, Except.bind]

theorem fill_panicked {type : ResultType} {cause : Panic} (declared : types[index]? = some type)
    (vacant : slots[index]? = some none)
    (made : Conversion.convert index type conversions raw = .error cause) (rest : List (Nat × Raw)) :
    fill conversions types slots ((index, raw) :: rest) = .error cause := by
  rw [fill, declared, vacant]
  simp [made, bind, Except.bind]

theorem fill_ignored (other : types[index]? = none ∨ slots[index]? ≠ some none)
    (rest : List (Nat × Raw)) :
    fill conversions types slots ((index, raw) :: rest) = fill conversions types slots rest := by
  rw [fill]
  split
  · rename_i declared vacant
    rcases other with missing | taken
    · rw [declared] at missing
      cases missing
    · exact absurd vacant taken
  · rfl

/-- What becomes of the first of some raw values. -/
theorem fill_cons (conversions : List Conversion) (types : List ResultType) (slots : List (Option Converted))
    (index : Nat) (raw : Raw) (rest : List (Nat × Raw)) :
    (∃ type converted, types[index]? = some type ∧ slots[index]? = some none ∧
      Conversion.convert index type conversions raw = .ok converted ∧
      fill conversions types slots ((index, raw) :: rest) =
        fill conversions types (slots.set index (some converted)) rest) ∨
    (∃ type cause, types[index]? = some type ∧ slots[index]? = some none ∧
      Conversion.convert index type conversions raw = .error cause ∧
      fill conversions types slots ((index, raw) :: rest) = .error cause) ∨
    (types[index]? = none ∨ slots[index]? ≠ some none) ∧
      fill conversions types slots ((index, raw) :: rest) = fill conversions types slots rest := by
  by_cases vacant : slots[index]? = some none
  · cases declared : types[index]? with
    | none => exact .inr (.inr ⟨.inl rfl, fill_ignored (.inl declared) rest⟩)
    | some type =>
      cases made : Conversion.convert index type conversions raw with
      | ok converted => exact .inl ⟨type, converted, rfl, vacant, made, fill_converted declared vacant made rest⟩
      | error cause => exact .inr (.inl ⟨type, cause, rfl, vacant, made, fill_panicked declared vacant made rest⟩)
  · exact .inr (.inr ⟨.inr vacant, fill_ignored (.inr vacant) rest⟩)

theorem length_fill {raws : List (Nat × Raw)} {filled : List (Option Converted)}
    (came : fill conversions types slots raws = .ok filled) : filled.length = slots.length := by
  induction raws generalizing slots with
  | nil =>
    cases came
    rfl
  | cons first rest ih =>
    rcases fill_cons conversions types slots first.1 first.2 rest with
      ⟨_, converted, -, -, -, same⟩ | ⟨_, _, -, -, -, same⟩ | ⟨-, same⟩
    · exact (ih (same.symm.trans came)).trans (List.length_set ..)
    · cases same.symm.trans came
    · exact ih (same.symm.trans came)

/-- What is filled in stays. -/
theorem fill_taken {raws : List (Nat × Raw)} {filled : List (Option Converted)} {converted : Converted}
    (came : fill conversions types slots raws = .ok filled) (taken : slots[index]? = some (some converted)) :
    filled[index]? = some (some converted) := by
  induction raws generalizing slots with
  | nil =>
    cases came
    exact taken
  | cons first rest ih =>
    rcases fill_cons conversions types slots first.1 first.2 rest with
      ⟨_, _, -, vacant, -, same⟩ | ⟨_, _, -, -, -, same⟩ | ⟨-, same⟩
    · have apart : first.1 ≠ index := by
        rintro rfl
        cases vacant.symm.trans taken
      exact ih (same.symm.trans came) ((List.getElem?_set_ne apart).trans taken)
    · cases same.symm.trans came
    · exact ih (same.symm.trans came) taken

theorem lookup_cons_ne {place : Nat} (apart : index ≠ place) (rest : List (Nat × Raw)) :
    ((place, raw) :: rest).lookup index = rest.lookup index := by
  rw [List.lookup_cons, beq_false_of_ne apart]

/-- A vacant position is filled with what the first raw value for it is converted to. -/
theorem fill_first {raws : List (Nat × Raw)} {filled : List (Option Converted)} {type : ResultType}
    (came : fill conversions types slots raws = .ok filled) (declared : types[index]? = some type)
    (vacant : slots[index]? = some none) :
    (raws.lookup index = none ∧ filled[index]? = some none) ∨ ∃ raw converted, raws.lookup index = some raw ∧
      Conversion.convert index type conversions raw = .ok converted ∧ filled[index]? = some (some converted) := by
  induction raws generalizing slots with
  | nil =>
    cases came
    exact .inl ⟨rfl, vacant⟩
  | cons first rest ih =>
    obtain ⟨place, raw⟩ := first
    by_cases here : index = place
    · subst here
      cases made : Conversion.convert index type conversions raw with
      | error cause => cases (fill_panicked declared vacant made rest).symm.trans came
      | ok converted =>
        rw [fill_converted declared vacant made] at came
        obtain ⟨bound, -⟩ := List.getElem?_eq_some_iff.1 vacant
        exact .inr ⟨raw, converted, List.lookup_cons_self, made, fill_taken came (List.getElem?_set_self bound)⟩
    · rw [lookup_cons_ne here]
      rcases fill_cons conversions types slots place raw rest with
        ⟨_, _, -, -, -, same⟩ | ⟨_, _, -, -, -, same⟩ | ⟨-, same⟩
      · exact ih (same.symm.trans came) ((List.getElem?_set_ne (Ne.symm here)).trans vacant)
      · cases same.symm.trans came
      · exact ih (same.symm.trans came) vacant

/-- Only the conversion of the first raw value for a declared position that is vacant stops the filling. -/
theorem fill_stopped {raws : List (Nat × Raw)} {cause : Panic}
    (came : fill conversions types slots raws = .error cause) :
    ∃ index type raw, types[index]? = some type ∧ slots[index]? = some none ∧ raws.lookup index = some raw ∧
      Conversion.convert index type conversions raw = .error cause := by
  induction raws generalizing slots with
  | nil => cases came
  | cons first rest ih =>
    obtain ⟨place, raw⟩ := first
    rcases fill_cons conversions types slots place raw rest with
      ⟨_, converted, -, vacant, -, same⟩ | ⟨type, panic, declared, vacant, made, same⟩ | ⟨ignored, same⟩
    · obtain ⟨index, type, other, declared, free, found, panicked⟩ := ih (same.symm.trans came)
      -- The position that is taken now is not the one that stops the rest.
      have apart : place ≠ index := by
        rintro rfl
        obtain ⟨bound, -⟩ := List.getElem?_eq_some_iff.1 vacant
        cases (List.getElem?_set_self bound).symm.trans free
      exact ⟨index, type, other, declared, (List.getElem?_set_ne apart).symm.trans free,
        (lookup_cons_ne (Ne.symm apart) rest).trans found, panicked⟩
    · cases same.symm.trans came
      exact ⟨place, type, raw, declared, vacant, List.lookup_cons_self, made⟩
    · obtain ⟨index, type, other, declared, free, found, panicked⟩ := ih (same.symm.trans came)
      have apart : index ≠ place := by
        rintro rfl
        rcases ignored with missing | taken
        · cases missing.symm.trans declared
        · exact taken free
      exact ⟨index, type, other, declared, free, (lookup_cons_ne apart rest).trans found, panicked⟩

end Fill

/-- A result, as soon as what it comes from is there. -/
def result (shown : Shown) (index : Nat) : Option Converted → Option (Made Payload)
  | none => some (.ok (.error (.conversion index "executable returned no value")))
  | some (.settled outcome) => some (.ok (outcome.map .value))
  | some (.derived cell convert) => (shown cell).map fun
    | .ok payload => convert payload
    | .error failure => .ok (.error failure)

theorem result_of_shown {shown : Shown} {source : CellId} {payload : Payload} (seen : shown source = some (.ok payload))
    (index : Nat) (convert : Payload → Made Payload) :
    result shown index (some (.derived source convert)) = some (convert payload) := by
  simp only [result, seen, Option.map_some]

/-- The conversion of a result panics, which is the same at every position. -/
def balks (shown : Shown) (slot : Option Converted) : Bool :=
  match result shown 0 slot with
  | some (.error _) => true
  | some (.ok _) | none => false

def panicked : Failure := .execution "kernel panicked"

/-- The result at a position, of a kernel that has handed back these raw values. -/
def invoke (call : Call) (kernel : Kernel) (views : List Memref) (raws : List (Nat × Raw))
    (shown : Shown) (index : Nat) : Option (Outcome Payload) :=
  match mismatch? call kernel views with
  | some failure => some (.error failure)
  | none =>
    let types := kernel.signature.results
    match fill call.dispatcher.conversions types (types.map fun _ => none) raws with
    | .error _ => some (.error panicked)
    | .ok slots =>
      if slots.any (balks shown) then some (.error panicked)
      else match (kernel.run views).finish with
        | .returned => (slots[index]?).bind fun slot => (result shown index slot).bind Except.toOption
        | .failed failure => some (.error failure)
        | .panicked _ => some (.error panicked)

/-- The result at a position, from the operands on. -/
def outcome (call : Call) (handles : List Handle) (shown : Shown) (raws : List (Nat × Raw))
    (index : Nat) : Option (Outcome Payload) :=
  match (kernel call handles shown).run with
  | none => none
  | some (.error failure) => some (.error failure)
  | some (.ok (kernel, views)) => invoke call kernel views raws shown index

section Outcome

variable {call : Call} {handles : List Handle} {shown : Shown} {raws : List (Nat × Raw)} {index : Nat}

theorem outcome_of_error {failure : Failure} (came : kernel call handles shown = known (.error failure)) :
    outcome call handles shown raws index = some (.error failure) := by
  unfold outcome
  rw [came]
  rfl

theorem outcome_of_ok {chosen : Kernel} {views : List Memref}
    (came : kernel call handles shown = known (.ok (chosen, views))) :
    outcome call handles shown raws index = invoke call chosen views raws shown index := by
  unfold outcome
  rw [came]
  rfl

end Outcome

/-! ## When cells show more -/

theorem known_inj {α : Type} {first second : Outcome α} (same : known first = known second) :
    first = second := Option.some.inj same

theorem bind_eq_known {α β : Type} {first : Known α} {next : α → Known β} {outcome : Outcome β} :
    (first >>= next) = known outcome ↔
      (∃ failure, first = known (.error failure) ∧ outcome = .error failure) ∨
        ∃ value, first = known (.ok value) ∧ next value = known outcome := by
  constructor
  · intro came
    match first, came with
    | some (.ok value), came => exact .inr ⟨value, rfl, came⟩
    | some (.error failure), came => exact .inl ⟨failure, rfl, (known_inj came).symm⟩
    | none, came => cases came
  · rintro (⟨failure, rfl, rfl⟩ | ⟨value, rfl, came⟩)
    · rfl
    · exact came

def Extends (shown later : Shown) : Prop :=
  ∀ ⦃cell outcome⦄, shown cell = some outcome → later cell = some outcome

def HandlesKeep (handles later : List Handle) : Prop :=
  ∀ ⦃id : HandleId⦄ ⦃handle : Handle⦄, handles[id]? = some handle →
    ∃ after, later[id]? = some after ∧ handle.Keeps after

theorem HandlesKeep.refl (handles : List Handle) : HandlesKeep handles handles :=
  fun _ handle found => ⟨handle, found, .refl handle⟩

theorem HandlesKeep.trans {handles others later : List Handle} (first : HandlesKeep handles others)
    (second : HandlesKeep others later) : HandlesKeep handles later := by
  intro id handle found
  obtain ⟨middle, there, keeps⟩ := first found
  obtain ⟨last, after, onward⟩ := second there
  exact ⟨last, after, keeps.trans onward⟩

section Later

variable {shown later : Shown} {call : Call}

theorem held_later {α : Type} {select : Payload → Option α} {cell : CellId} {outcome : Outcome α}
    (more : Extends shown later) (came : held select (shown cell) = known outcome) :
    held select (later cell) = known outcome := by
  cases seen : shown cell with
  | none =>
    rw [seen] at came
    cases came
  | some payload =>
    rw [more seen, ← seen]
    exact came

theorem marshal_later {outcome : Outcome (List Memref)} (more : Extends shown later)
    (came : marshal call shown = known outcome) : marshal call later = known outcome := by
  unfold marshal at came ⊢
  split at came
  · rename_i available
    have same : ∀ cell ∈ call.operands, later cell = shown cell := by
      intro cell member
      obtain ⟨seen, known⟩ := Option.isSome_iff_exists.1 (List.all_eq_true.1 available cell member)
      rw [known, more known]
    have there : (call.operands.all fun cell => (later cell).isSome) = true := by
      refine List.all_eq_true.2 fun cell member => ?_
      rw [same cell member]
      exact List.all_eq_true.1 available cell member
    have values : call.operands.map (fun cell => look Payload.value? (later cell)) =
        call.operands.map (fun cell => look Payload.value? (shown cell)) :=
      List.map_congr_left fun cell member => by rw [same cell member]
    rw [if_pos there, values]
    exact came
  · cases came

theorem choice_later {handles others : List Handle} {id : HandleId} {views : List Memref}
    {outcome : Outcome CellId} (keep : HandlesKeep handles others) (valid : id < handles.length)
    (came : choice handles id views = known outcome) : choice others id views = known outcome := by
  obtain ⟨after, found, keeps⟩ := keep (List.getElem?_eq_getElem valid)
  unfold choice at came ⊢
  rw [List.getElem?_eq_getElem valid] at came
  rw [found]
  simp only [keeps.generic, keeps.genericCell, keeps.specializer] at came ⊢
  split at came
  · exact came
  · cases chosen : handles[id].choose (ShapeKey.ofMemrefs views) with
    | fresh =>
      obtain ⟨specializer, made⟩ := Option.isSome_iff_exists.1 (Handle.specializer_of_fresh chosen)
      rw [chosen, made] at came
      cases came
    | known cell =>
      rw [keeps.choose _ (by simp [chosen])]
      exact came
    | generic =>
      rw [keeps.choose _ (by simp [chosen])]
      exact came

theorem kernel_later {handles others : List Handle} {outcome : Outcome (Kernel × List Memref)}
    (more : Extends shown later) (keep : HandlesKeep handles others)
    (valid : ∀ id, held Payload.handle? (shown call.handle) = known (.ok id) → id < handles.length)
    (came : kernel call handles shown = known outcome) : kernel call others later = known outcome := by
  unfold kernel at came ⊢
  rcases bind_eq_known.1 came with ⟨failure, viewed, rfl⟩ | ⟨views, viewed, came⟩
  · exact bind_eq_known.2 (.inl ⟨failure, marshal_later more viewed, rfl⟩)
  refine bind_eq_known.2 (.inr ⟨views, marshal_later more viewed, ?_⟩)
  rcases bind_eq_known.1 came with ⟨failure, handled, rfl⟩ | ⟨id, handled, came⟩
  · exact bind_eq_known.2 (.inl ⟨failure, held_later more handled, rfl⟩)
  refine bind_eq_known.2 (.inr ⟨id, held_later more handled, ?_⟩)
  rcases bind_eq_known.1 came with ⟨failure, chosen, rfl⟩ | ⟨cell, chosen, came⟩
  · exact bind_eq_known.2 (.inl ⟨failure, choice_later keep (valid id handled) chosen, rfl⟩)
  refine bind_eq_known.2 (.inr ⟨cell, choice_later keep (valid id handled) chosen, ?_⟩)
  rcases bind_eq_known.1 came with ⟨failure, ready, rfl⟩ | ⟨kernel, ready, came⟩
  · exact bind_eq_known.2 (.inl ⟨failure, held_later more ready, rfl⟩)
  exact bind_eq_known.2 (.inr ⟨kernel, held_later more ready, came⟩)

end Later

end Engine.Pipeline

end DeferredJit
