import DeferredJit.Proofs.Engine.Kernels
import DeferredJit.Proofs.Engine.Runs

/-! What becomes of the answers of a kernel, position by position. The first answer for a declared
result counts, and the first conversion that takes it makes the result. -/

set_option autoImplicit false

namespace DeferredJit.Engine

open Async (CellId)

/-! ## Conversions in their order -/

/-- What a list of conversions makes of a raw value. Each of them is given what the one before it gave
back, and the first that takes it decides. -/
inductive Chosen (index : Nat) (type : ResultType) : List Conversion → Raw → Converted → Prop where
  | takes {conversion conversions raw converted} : conversion index type raw = .ok (.ok converted) →
      Chosen index type (conversion :: conversions) raw converted
  | passes {conversion conversions raw other converted} : conversion index type raw = .ok (.error other) →
      Chosen index type conversions other converted →
      Chosen index type (conversion :: conversions) raw converted
  | nobody {raw} : Chosen index type [] raw (.settled (.error
      (.conversion index ("no conversion from " ++ raw.kind ++ " to " ++ type.text))))

theorem convert_eq_ok_iff {index : Nat} {type : ResultType} {conversions : List Conversion} {raw : Raw}
    {converted : Converted} :
    Conversion.convert index type conversions raw = .ok converted ↔
      Chosen index type conversions raw converted := by
  constructor
  · intro made
    induction conversions generalizing raw with
    | nil =>
      cases made
      exact .nobody
    | cons conversion conversions ih =>
      cases tried : conversion index type raw with
      | error cause => simp [Conversion.convert, tried, bind, Except.bind] at made
      | ok reply =>
        simp only [Conversion.convert, tried, bind, Except.bind] at made
        cases reply with
        | ok taken =>
          cases made
          exact .takes tried
        | error other => exact .passes tried (ih made)
  · intro chosen
    induction chosen with
    | takes taken => simp [Conversion.convert, taken, bind, Except.bind, pure, Except.pure]
    | passes back _ ih => simp [Conversion.convert, back, bind, Except.bind, ih]
    | nobody => rfl

/-! ## A result and what it is made from -/

theorem World.state_made {world : EngineWorld} (sound : world.store.Sound) (outcome : Option (Outcome Payload)) :
    (world.make { outcome }).store.state world.store.cells.size = outcome :=
  (Async.Store.state_make sound rfl _).trans (if_pos rfl)

/-- A result shows at once what is there to be shown. -/
theorem state_of_realize (later : Later) {world next : EngineWorld} (sound : world.store.Sound)
    {converted : Converted} (fits : ConvertedFits world converted) {cell : CellId}
    (made : realize later converted world = (.ok cell, next)) (index : Nat) :
    (next.store.state cell).map Except.ok = Pipeline.result world.store.state index (some converted) := by
  cases converted with
  | settled outcome =>
    rw [realize, makeSettled_apply] at made
    cases made
    rw [World.state_made sound]
    rfl
  | derived source convert =>
    rw [realize] at made
    cases shown : world.store.state source with
    | none =>
      obtain ⟨waiting, registered, waits⟩ :=
        Async.derived_of_pending sound fits.1 shown (Later.fire later) convert
      rw [registered] at made
      cases made
      rw [waits.state (sound.make rfl rfl), World.state_made sound]
      simp [Pipeline.result, shown]
    | some outcome =>
      cases outcome with
      | error failure =>
        rw [Async.derived_of_failure shown] at made
        cases made
        rw [World.state_made sound]
        simp [Pipeline.result, shown]
      | ok payload =>
        rw [Async.derived_of_value shown] at made
        cases applied : convert payload with
        | error cause =>
          rw [applied] at made
          cases made
        | ok outcome =>
          rw [applied, Act.lift_ok] at made
          change Async.makeSettled outcome (world.log (.converted payload)) = _ at made
          rw [makeSettled_apply] at made
          cases made
          have log : (world.log (.converted payload)).store.Sound := sound
          rw [World.state_made log]
          simp [Pipeline.result, shown, applied]

/-- The cell is the one that was made from this, after the one world and before the other. -/
structure Produced (later : Later) (world final : EngineWorld) (converted : Converted) (cell : CellId) : Prop where
  made : ∃ before after, Async.Grows world before ∧ realize later converted before = (.ok cell, after) ∧
    Async.Grows after final
  inside : cell < final.store.cells.size
  follows : ∀ duties, Follows ⟨duties, final⟩ converted cell
  shows : ∀ index, (final.store.state cell).map Except.ok =
    Pipeline.result world.store.state index (some converted)

namespace Produced

variable {later : Later} {world final next : EngineWorld} {converted : Converted} {cell : CellId}

theorem onward (produced : Produced later world final converted cell) {budget : Nat}
    (adds : Adds .plain final budget next) (ready : Ready final) : Produced later world next converted cell where
  made := by
    obtain ⟨before, after, earlier, made, rest⟩ := produced.made
    exact ⟨before, after, earlier, made, rest.trans adds.grows⟩
  inside := Nat.lt_of_lt_of_le produced.inside adds.size_le
  follows duties := (adds.quiet ready duties).follows (produced.follows duties)
  shows index := by
    rw [adds.grows.state ready.sound produced.inside]
    exact produced.shows index

end Produced

/-- What is derived comes to the same as long as cells are only added. -/
theorem result_congr {world before : EngineWorld} (sound : world.store.Sound) (grows : Async.Grows world before)
    {converted : Converted} (fits : ConvertedFits world converted) (index : Nat) :
    Pipeline.result before.store.state index (some converted) =
      Pipeline.result world.store.state index (some converted) := by
  cases converted with
  | settled => rfl
  | derived source convert => simp only [Pipeline.result, grows.state sound fits.1]

/-- A conversion that does not panic on what is there makes a result. -/
theorem realize_produces (later : Later) {world before : EngineWorld} (ready : Ready world) {budget : Nat}
    (adds : Adds .plain world budget before) {converted : Converted} (fits : ConvertedFits world converted)
    (index : Nat) (calm : ∀ cause, Pipeline.result world.store.state index (some converted) ≠ some (.error cause)) :
    ∃ cell after, realize later converted before = (.ok cell, after) ∧ Adds .plain before 1 after ∧
      Produced later world after converted cell := by
  have readyBefore := adds.ready ready
  have still : ConvertedFits before converted := by
    cases converted with
    | settled => trivial
    | derived => exact ⟨Nat.lt_of_lt_of_le fits.1 adds.size_le, fits.2⟩
  have same := result_congr ready.sound adds.grows fits index
  have ends := realize_ends later readyBefore still
  rcases ran : realize later converted before with ⟨(cause | _) | cell, after⟩
  · obtain ⟨-, source, convert, payload, rfl, shown, panicked⟩ := ends.fails ran
    refine absurd ?_ (calm cause)
    rw [← same]
    simp [Pipeline.result, shown, panicked]
  · exact absurd (by rw [ran]) ends.not_exhausted
  · obtain ⟨more, fresh, follows⟩ := ends.holds ran
    refine ⟨cell, after, rfl, more, ⟨before, after, adds.grows, ran, .refl⟩, fresh.inside, follows, fun place => ?_⟩
    rw [state_of_realize later readyBefore.sound still ran place]
    exact result_congr ready.sound adds.grows fits place

/-! ## Values for declared results -/

/-- Hand raw values over one after the other, each for a position. -/
def acceptEach (later : Later) (conversions : List Conversion) (types : List ResultType) :
    Slots → List (Nat × Raw) → Run Slots
  | slots, [] => return slots
  | slots, (index, raw) :: rest => do
    let slots ← accept later conversions types slots index raw
    acceptEach later conversions types slots rest

/-- Views are handed over as they are. -/
theorem acceptAll_views (setup : Setup) (later : Later) (conversions : List Conversion) (types : List ResultType)
    (slots : Slots) (views : List (Nat × Memref)) :
    acceptAll setup later conversions types slots (views.map fun call => (call.1, .memref call.2)) =
      acceptEach later conversions types slots (views.map fun call => (call.1, .memref call.2)) := by
  induction views generalizing slots with
  | nil => rfl
  | cons call views ih =>
    simp only [List.map_cons, acceptAll, acceptEach, raw, pure_bind]
    congr 1
    funext after
    exact ih after

def emptyCells (types : List ResultType) : Slots := types.map fun _ => none

/-- The results for these values. -/
def collect (later : Later) (conversions : List Conversion) (types : List ResultType)
    (calls : List (Nat × Raw)) : Run (List CellId) := do
  complete 0 (← acceptEach later conversions types (emptyCells types) calls)

/-- The first values for declared results are made of cells that are there, and the conversions return
normally on them. -/
structure Normal (world : EngineWorld) (conversions : List Conversion) (types : List ResultType)
    (calls : List (Nat × Raw)) : Prop where
  inside : ∀ {index type raw}, types[index]? = some type → calls.lookup index = some raw →
    ∀ cell ∈ raw.cells, cell < world.store.cells.size
  returns : ∀ {index type raw}, types[index]? = some type → calls.lookup index = some raw →
    ∃ converted, Conversion.convert index type conversions raw = .ok converted ∧
      ∀ cause, Pipeline.result world.store.state index (some converted) ≠ some (.error cause)

/-- What is in a slot, by the first value for its position. -/
inductive Placed (later : Later) (world final : EngineWorld) (conversions : List Conversion) (index : Nat)
    (type : ResultType) : Option Raw → Option CellId → Prop where
  | vacant : Placed later world final conversions index type none none
  | produced {raw converted cell} : Chosen index type conversions raw converted →
      Produced later world final converted cell →
      Placed later world final conversions index type (some raw) (some cell)

/-- After some values: only cells were added, and the slots are as the first values have it. -/
structure Accepted (later : Later) (world : EngineWorld) (conversions : List Conversion)
    (types : List ResultType) (done : List (Nat × Raw)) (slots : Slots) (final : EngineWorld) : Prop where
  adds : ∃ budget, Adds .plain world budget final
  length : slots.length = types.length
  placed : ∀ {index type slot}, types[index]? = some type → slots[index]? = some slot →
    Placed later world final conversions index type (done.lookup index) slot

section Answers

variable {later : Later} {world between : EngineWorld} {conversions : List Conversion}
  {types : List ResultType} {done : List (Nat × Raw)} {slots : Slots} {index : Nat} {raw : Raw}

theorem Placed.onward {next : EngineWorld} {type : ResultType} {first : Option Raw} {slot : Option CellId}
    (placed : Placed later world between conversions index type first slot) {budget : Nat}
    (adds : Adds .plain between budget next) (ready : Ready between) :
    Placed later world next conversions index type first slot := by
  cases placed with
  | vacant => exact .vacant
  | produced chosen produced => exact .produced chosen (produced.onward adds ready)

theorem lookup_append_single (place : Nat) :
    (done ++ [(index, raw)]).lookup place =
      (done.lookup place).or (if place = index then some raw else none) := by
  rw [List.lookup_append]
  congr 1
  by_cases same : place = index
  · subst same
    simp
  · rw [List.lookup_cons, beq_false_of_ne same, if_neg same]
    rfl

theorem accepted_start (later : Later) (world : EngineWorld) (conversions : List Conversion)
    (types : List ResultType) :
    Accepted later world conversions types [] (emptyCells types) world where
  adds := ⟨0, .refl⟩
  length := List.length_map ..
  placed {place type slot} declared found := by
    have vacant : slot = none := by
      rw [emptyCells, List.getElem?_map, declared] at found
      cases found
      rfl
    rw [vacant]
    exact .vacant

/-- A value that is not the first one for a declared result changes nothing. -/
theorem Accepted.ignores (accepted : Accepted later world conversions types done slots between)
    (passed : types[index]? = none ∨ slots[index]? ≠ some none) :
    accept later conversions types slots index raw between = (.ok slots, between) ∧
      Accepted later world conversions types (done ++ [(index, raw)]) slots between := by
  refine ⟨by rw [accept_ignored later passed]; rfl, accepted.adds, accepted.length, ?_⟩
  intro place type slot declared found
  have placed := accepted.placed declared found
  rw [lookup_append_single]
  by_cases same : place = index
  · subst same
    -- Its position is declared, so its slot is taken.
    have taken : slot ≠ none := by
      rintro rfl
      rcases passed with missing | taken
      · rw [declared] at missing
        cases missing
      · exact taken found
    generalize done.lookup place = first at placed
    cases placed with
    | vacant => exact absurd rfl taken
    | produced chosen produced => exact .produced chosen produced
  · simpa [same] using placed

/-- The first value for a declared result is converted. -/
theorem Accepted.takes (accepted : Accepted later world conversions types done slots between) (ready : Ready world)
    (sane : ∀ conversion ∈ conversions, conversion.Sane world.store.cells.size) {rest : List (Nat × Raw)}
    (normal : Normal world conversions types (done ++ (index, raw) :: rest)) {type : ResultType}
    (declared : types[index]? = some type) (vacant : slots[index]? = some none) :
    ∃ after next, accept later conversions types slots index raw between = (.ok after, next) ∧
      Accepted later world conversions types (done ++ [(index, raw)]) after next := by
  obtain ⟨budget, adds⟩ := accepted.adds
  have readyBetween := adds.ready ready
  -- The position is vacant, so nothing was handed over for it before.
  have new : done.lookup index = none := by
    have placed := accepted.placed declared vacant
    generalize done.lookup index = first at placed
    cases placed
    rfl
  have first : (done ++ (index, raw) :: rest).lookup index = some raw := by
    simp [List.lookup_append, new]
  obtain ⟨converted, made, calm⟩ := normal.returns declared first
  have fits : ConvertedFits world converted := by
    cases converted with
    | settled => trivial
    | derived => exact Conversion.Sane.convert sane (Nat.le_refl _) (normal.inside declared first) made
  obtain ⟨cell, next, ran, more, produced⟩ := realize_produces later ready adds fits index calm
  refine ⟨slots.set index (some cell), next, ?_, ⟨_, adds.trans more⟩,
    (List.length_set ..).trans accepted.length, ?_⟩
  · rw [accept_vacant later declared vacant, made, Act.lift_ok, pure_bind]
    exact Act.bind_ok ran
  · intro place other slot known found
    rw [lookup_append_single]
    by_cases same : place = index
    · subst same
      rw [declared] at known
      cases known
      rw [List.getElem?_set_self (List.getElem?_eq_some_iff.1 vacant).1] at found
      cases found
      rw [new]
      simpa using Placed.produced (convert_eq_ok_iff.1 made) produced
    · rw [List.getElem?_set_ne (Ne.symm same)] at found
      simpa [same] using (accepted.placed known found).onward more readyBetween

/-- One more value. -/
theorem Accepted.step (accepted : Accepted later world conversions types done slots between) (ready : Ready world)
    (sane : ∀ conversion ∈ conversions, conversion.Sane world.store.cells.size) {rest : List (Nat × Raw)}
    (normal : Normal world conversions types (done ++ (index, raw) :: rest)) :
    ∃ after next, accept later conversions types slots index raw between = (.ok after, next) ∧
      Accepted later world conversions types (done ++ [(index, raw)]) after next := by
  by_cases passed : types[index]? = none ∨ slots[index]? ≠ some none
  · exact ⟨slots, between, accepted.ignores passed⟩
  · rw [not_or, not_not] at passed
    obtain ⟨type, declared⟩ := Option.ne_none_iff_exists'.1 passed.1
    exact accepted.takes ready sane normal declared passed.2

/-- Any number of values. -/
theorem Accepted.run (accepted : Accepted later world conversions types done slots between) (ready : Ready world)
    (sane : ∀ conversion ∈ conversions, conversion.Sane world.store.cells.size) (rest : List (Nat × Raw))
    (normal : Normal world conversions types (done ++ rest)) :
    ∃ after next, acceptEach later conversions types slots rest between = (.ok after, next) ∧
      Accepted later world conversions types (done ++ rest) after next := by
  induction rest generalizing done slots between with
  | nil =>
    rw [List.append_nil]
    exact ⟨slots, between, rfl, accepted⟩
  | cons call rest ih =>
    obtain ⟨index, raw⟩ := call
    obtain ⟨middle, next, ran, acceptedNext⟩ := accepted.step ready sane normal
    obtain ⟨after, final, ranRest, acceptedAll⟩ := ih acceptedNext (by simpa using normal)
    refine ⟨after, final, ?_, by simpa using acceptedAll⟩
    rw [acceptEach, Act.bind_ok ran]
    exact ranRest

end Answers

/-! ## Results -/

def missing (index : Nat) : Failure := .conversion index "executable returned no value"

/-- The cell in a slot, or one that says that there was nothing to put into it. -/
inductive Completed (world : EngineWorld) (index : Nat) : Option CellId → CellId → Prop where
  | there {cell} : Completed world index (some cell) cell
  | missing {cell} : world.store.Holds cell (.error (missing index)) → Completed world index none cell

theorem completeOne_ends {world : EngineWorld} (index : Nat) (slot : Option CellId) :
    (completeOne index slot).Ends world
      (fun cell next => Adds .plain world 0 next ∧ Completed next index slot cell) never := by
  cases slot with
  | some cell => exact .pure cell ⟨.refl, .there⟩
  | none =>
    refine (makeSettled_ends (.error _ (missing index))).mono ?_ (fun _ _ => id)
    rintro cell next ⟨adds, -, holds⟩
    exact ⟨adds, .missing holds⟩

/-- One cell a slot. -/
theorem complete_completes {world : EngineWorld} (ready : Ready world) (index : Nat) (slots : Slots) :
    (complete index slots).Ends world
      (fun cells next => Adds .plain world 0 next ∧ cells.length = slots.length ∧
        ∀ place slot cell, slots[place]? = some slot → cells[place]? = some cell →
          Completed next (index + place) slot cell) never := by
  induction slots generalizing world index with
  | nil => exact .pure [] ⟨.refl, rfl, by simp⟩
  | cons slot slots ih =>
    rw [complete_cons]
    refine (completeOne_ends index slot).bind fun cell between first => ?_
    obtain ⟨adds, completed⟩ := first
    have readyBetween := adds.ready ready
    refine (ih readyBetween (index + 1)).bind fun cells next rest => ?_
    obtain ⟨more, length, others⟩ := rest
    refine .pure _ ⟨adds.trans more, by simp [length], fun place other found here there => ?_⟩
    cases place with
    | zero =>
      cases here
      cases there
      cases completed with
      | there => exact .there
      | missing holds => exact .missing (holds.later (more.grows.keeps readyBetween.sound))
    | succ place =>
      have behind := others place other found here there
      rwa [Nat.add_assoc, Nat.add_comm 1] at behind

/-- What the cell of a result is, by the first value for its position. -/
inductive FromFirst (later : Later) (world final : EngineWorld) (conversions : List Conversion) (index : Nat)
    (type : ResultType) : Option Raw → CellId → Prop where
  | produced {raw converted cell} : Chosen index type conversions raw converted →
      Produced later world final converted cell →
      FromFirst later world final conversions index type (some raw) cell
  | missing {cell} : final.store.Holds cell (.error (missing index)) →
      FromFirst later world final conversions index type none cell

/-- One cell for each declared result, as the first value for it has it. -/
structure Collected (later : Later) (world : EngineWorld) (conversions : List Conversion) (types : List ResultType)
    (calls : List (Nat × Raw)) (cells : List CellId) (final : EngineWorld) : Prop where
  grows : Async.Grows world final
  length : cells.length = types.length
  fromFirst : ∀ {index type cell}, types[index]? = some type → cells[index]? = some cell →
    FromFirst later world final conversions index type (calls.lookup index) cell

section Results

variable {later : Later} {world : EngineWorld} {conversions : List Conversion} {types : List ResultType}
  {calls : List (Nat × Raw)}

theorem collect_collects (later : Later) (ready : Ready world)
    (sane : ∀ conversion ∈ conversions, conversion.Sane world.store.cells.size)
    (normal : Normal world conversions types calls) :
    ∃ cells final, collect later conversions types calls world = (.ok cells, final) ∧
      Collected later world conversions types calls cells final := by
  obtain ⟨slots, between, ran, accepted⟩ :=
    (accepted_start later world conversions types).run ready sane calls (by simpa using normal)
  rw [List.nil_append] at accepted
  obtain ⟨budget, adds⟩ := accepted.adds
  have readyBetween := adds.ready ready
  have ends := complete_completes readyBetween 0 slots
  rcases completed : complete 0 slots between with ⟨(cause | _) | cells, final⟩
  · exact (ends.fails completed).elim
  · exact absurd (by rw [completed]) ends.not_exhausted
  · obtain ⟨more, length, each⟩ := ends.holds completed
    have all := length.trans accepted.length
    refine ⟨cells, final, (Act.bind_ok ran).trans completed, adds.grows.trans more.grows, all,
      fun {index type cell} declared here => ?_⟩
    obtain ⟨slot, found⟩ : ∃ slot, slots[index]? = some slot := by
      have bound := (List.getElem?_eq_some_iff.1 here).1
      rw [length] at bound
      exact ⟨_, List.getElem?_eq_getElem bound⟩
    have complete := each index slot cell found here
    rw [Nat.zero_add] at complete
    have placed := (accepted.placed declared found).onward more readyBetween
    generalize calls.lookup index = first at placed ⊢
    cases placed with
    | vacant =>
      cases complete with
      | missing holds => exact .missing holds
    | produced chosen produced =>
      cases complete with
      | there => exact .produced chosen produced

/-! ## What does not matter -/

/-- For every declared result both have the same first value, or none. -/
def SameFirsts (types : List ResultType) (calls others : List (Nat × Raw)) : Prop :=
  ∀ index, index < types.length → others.lookup index = calls.lookup index

variable {others : List (Nat × Raw)}

theorem Normal.congr (normal : Normal world conversions types calls) (same : SameFirsts types calls others) :
    Normal world conversions types others where
  inside declared first :=
    normal.inside declared ((same _ (List.getElem?_eq_some_iff.1 declared).1).symm.trans first)
  returns declared first :=
    normal.returns declared ((same _ (List.getElem?_eq_some_iff.1 declared).1).symm.trans first)

theorem Collected.congr {cells : List CellId} {final : EngineWorld}
    (collected : Collected later world conversions types others cells final) (same : SameFirsts types calls others) :
    Collected later world conversions types calls cells final where
  grows := collected.grows
  length := collected.length
  fromFirst declared here := by
    rw [← same _ (List.getElem?_eq_some_iff.1 declared).1]
    exact collected.fromFirst declared here

theorem Chosen.unique {index : Nat} {type : ResultType} {raw : Raw} {first second : Converted}
    (one : Chosen index type conversions raw first) (other : Chosen index type conversions raw second) :
    first = second :=
  Except.ok.inj ((convert_eq_ok_iff.2 one).symm.trans (convert_eq_ok_iff.2 other))

/-- The first value for a position decides what its result shows. -/
theorem FromFirst.state_eq {index : Nat} {type : ResultType} {first : Option Raw} {cell again : CellId}
    {final last : EngineWorld} (sound : final.store.Sound) (soundLast : last.store.Sound)
    (one : FromFirst later world final conversions index type first cell)
    (other : FromFirst later world last conversions index type first again) :
    final.store.state cell = last.store.state again := by
  cases one with
  | produced chosen produced =>
    cases other with
    | produced chosenAgain producedAgain =>
      cases chosen.unique chosenAgain
      have shows := (produced.shows index).trans (producedAgain.shows index).symm
      exact Option.map_injective (fun _ _ => Except.ok.inj) shows
  | missing holds =>
    cases other with
    | missing holdsAgain => rw [holds.state_eq sound, holdsAgain.state_eq soundLast]

theorem Collected.states_eq {cells again : List CellId} {final last : EngineWorld} (sound : world.store.Sound)
    (one : Collected later world conversions types calls cells final)
    (other : Collected later world conversions types calls again last) :
    cells.map final.store.state = again.map last.store.state := by
  have lengths := one.length.trans other.length.symm
  refine List.ext_getElem (by simpa using lengths) fun index here there => ?_
  rw [List.length_map] at here there
  have declared : types[index]? = some (types.get ⟨index, one.length ▸ here⟩) := List.getElem?_eq_getElem _
  rw [List.getElem_map, List.getElem_map]
  exact (one.fromFirst declared (List.getElem?_eq_getElem here)).state_eq (one.grows.sound sound)
    (other.grows.sound sound) (other.fromFirst declared (List.getElem?_eq_getElem there))

theorem acceptEach_append (later : Later) (conversions : List Conversion) (types : List ResultType) (slots : Slots)
    (earlier rest : List (Nat × Raw)) :
    acceptEach later conversions types slots (earlier ++ rest) =
      acceptEach later conversions types slots earlier >>= fun slots =>
        acceptEach later conversions types slots rest := by
  induction earlier generalizing slots with
  | nil => rfl
  | cons call earlier ih =>
    simp only [List.cons_append, acceptEach, bind_assoc]
    congr 1
    funext after
    exact ih after

/-- The result at a position is not wanted, or is there. -/
def Passed (types : List ResultType) (slots : Slots) (index : Nat) : Prop :=
  types[index]? = none ∨ slots[index]? ≠ some none

/-- Whatever is handed over, its position is seen to afterwards, and others that were still are. -/
theorem passed_of_accept {slots after : Slots} {index : Nat} {raw : Raw} {next : EngineWorld}
    (ran : accept later conversions types slots index raw world = (.ok after, next)) :
    Passed types after index ∧ ∀ other, Passed types slots other → Passed types after other := by
  by_cases passed : Passed types slots index
  · rw [accept_ignored later passed] at ran
    cases ran
    exact ⟨passed, fun _ => id⟩
  · unfold Passed at passed
    rw [not_or, not_not] at passed
    obtain ⟨type, declared⟩ := Option.ne_none_iff_exists'.1 passed.1
    rw [accept_vacant later declared passed.2] at ran
    obtain ⟨cell, rfl⟩ : ∃ cell, after = slots.set index (some cell) := by
      cases made : Conversion.convert index type conversions raw with
      | error cause =>
        rw [made] at ran
        cases ran
      | ok converted =>
        rw [made, Act.lift_ok, pure_bind] at ran
        rcases realized : realize later converted world with ⟨stop | cell, between⟩
        · rw [Act.bind_error realized] at ran
          cases ran
        · rw [Act.bind_ok realized] at ran
          cases ran
          exact ⟨cell, rfl⟩
    refine ⟨.inr (by simp [List.getElem?_set]), fun other old => old.imp_right fun taken vacant => taken ?_⟩
    by_cases same : other = index
    · subst same
      simp [List.getElem?_set] at vacant
    · rwa [List.getElem?_set_ne (Ne.symm same)] at vacant

theorem passed_of_acceptEach {slots after : Slots} {next : EngineWorld} {earlier : List (Nat × Raw)}
    (ran : acceptEach later conversions types slots earlier world = (.ok after, next)) :
    (∀ index ∈ earlier.map Prod.fst, Passed types after index) ∧
      ∀ other, Passed types slots other → Passed types after other := by
  induction earlier generalizing slots world with
  | nil =>
    cases ran
    exact ⟨by simp, fun _ => id⟩
  | cons call earlier ih =>
    rcases first : accept later conversions types slots call.1 call.2 world with ⟨stop | middle, between⟩
    · rw [acceptEach, Act.bind_error first] at ran
      cases ran
    · rw [acceptEach, Act.bind_ok first] at ran
      obtain ⟨here, still⟩ := passed_of_accept first
      obtain ⟨others, kept⟩ := ih ran
      refine ⟨fun index member => ?_, fun other passed => kept other (still other passed)⟩
      rw [List.map_cons] at member
      rcases List.mem_cons.1 member with rfl | later
      · exact kept _ here
      · exact others index later

/-- Values for positions that are not declared, and further values for the same position, might as well
not be handed over. -/
theorem collect_ignores (later : Later) (conversions : List Conversion) (types : List ResultType)
    {earlier : List (Nat × Raw)} {index : Nat} (idle : types.length ≤ index ∨ index ∈ earlier.map Prod.fst)
    (raw : Raw) (rest : List (Nat × Raw)) :
    collect later conversions types (earlier ++ (index, raw) :: rest) =
      collect later conversions types (earlier ++ rest) := by
  unfold collect
  congr 1
  rw [acceptEach_append, acceptEach_append]
  funext world
  rcases ran : acceptEach later conversions types (emptyCells types) earlier world with ⟨stop | slots, between⟩
  · rw [Act.bind_error ran, Act.bind_error ran]
  · have passed : Passed types slots index := by
      rcases idle with beyond | again
      · exact .inl (List.getElem?_eq_none beyond)
      · exact (passed_of_acceptEach ran).1 index again
    rw [Act.bind_ok ran, Act.bind_ok ran, acceptEach, accept_ignored later passed, pure_bind]

theorem sameFirsts_swap (types : List ResultType) (earlier : List (Nat × Raw)) {one other : Nat × Raw}
    (apart : one.1 ≠ other.1) (rest : List (Nat × Raw)) :
    SameFirsts types (earlier ++ one :: other :: rest) (earlier ++ other :: one :: rest) := by
  intro index _
  obtain ⟨one, raw⟩ := one
  obtain ⟨other, second⟩ := other
  rw [List.lookup_append, List.lookup_append]
  congr 1
  simp only [List.lookup_cons]
  by_cases first : index = one
  · subst first
    simp [beq_false_of_ne apart]
  · simp [beq_false_of_ne first]

/-- For every declared result the first value that is handed over for it counts, and nothing else: not
later ones, nor those for other positions, nor the order among positions. The first conversion that takes
the value makes the result, and where there is none, or no value, the result says so. A failure of the
kernel fails all results, whatever was handed over. -/
theorem first_answers_count (later : Later) (ready : Ready world)
    (sane : ∀ conversion ∈ conversions, conversion.Sane world.store.cells.size)
    (normal : Normal world conversions types calls) :
    (∀ others, SameFirsts types calls others →
      ∃ cells final, collect later conversions types others world = (.ok cells, final) ∧
        Collected later world conversions types calls cells final) ∧
    (∀ earlier index raw rest, types.length ≤ index ∨ index ∈ earlier.map Prod.fst →
      collect later conversions types (earlier ++ (index, raw) :: rest) =
        collect later conversions types (earlier ++ rest)) ∧
    (∀ earlier one other rest, calls = earlier ++ one :: other :: rest → one.1 ≠ other.1 →
      ∃ cells final swapped last, collect later conversions types calls world = (.ok cells, final) ∧
        collect later conversions types (earlier ++ other :: one :: rest) world = (.ok swapped, last) ∧
        Collected later world conversions types calls cells final ∧
        Collected later world conversions types calls swapped last ∧
        cells.map final.store.state = swapped.map last.store.state) ∧
    ∀ failure, ∃ cells final,
      (acceptEach later conversions types (emptyCells types) calls >>= fun _ =>
        failAll types.length failure) world = (.ok cells, final) ∧
      cells.length = types.length ∧ ∀ cell ∈ cells, final.store.Holds cell (.error failure) := by
  have collects (others : List (Nat × Raw)) (same : SameFirsts types calls others) :
      ∃ cells final, collect later conversions types others world = (.ok cells, final) ∧
        Collected later world conversions types calls cells final := by
    obtain ⟨cells, final, ran, collected⟩ := collect_collects later ready sane (normal.congr same)
    exact ⟨cells, final, ran, collected.congr same⟩
  refine ⟨collects, fun earlier index raw rest idle => collect_ignores later conversions types idle raw rest,
    fun earlier one other rest split apart => ?_, fun failure => ?_⟩
  · obtain ⟨cells, final, ran, collected⟩ := collects calls fun _ _ => rfl
    obtain ⟨swapped, last, ranSwapped, collectedSwapped⟩ :=
      collects (earlier ++ other :: one :: rest) (split ▸ sameFirsts_swap types earlier apart rest)
    exact ⟨cells, final, swapped, last, ran, ranSwapped, collected, collectedSwapped,
      collected.states_eq ready.sound collectedSwapped⟩
  · obtain ⟨slots, between, ran, accepted⟩ :=
      (accepted_start later world conversions types).run ready sane calls (by simpa using normal)
    obtain ⟨budget, adds⟩ := accepted.adds
    have ends := failAll_ends (adds.ready ready) types.length failure
    rcases failed : failAll types.length failure between with ⟨(cause | _) | cells, final⟩
    · exact (ends.fails failed).elim
    · exact absurd (by rw [failed]) ends.not_exhausted
    · obtain ⟨-, length, hold⟩ := ends.holds failed
      exact ⟨cells, final, (Act.bind_ok ran).trans failed, length, fun cell member => (hold cell member).2⟩

end Results

/-- One byte, handed over twice, and a token that never comes. Nothing is due meanwhile. -/
theorem first_answers_count_twice :
    let later : Later := fun _ => pure ()
    let view (byte : UInt8) : Raw := .memref ⟨.i8, [byte], 0, [1], [1], rfl, rfl⟩
    let types : List ResultType := [.memref .i8 1, .token]
    let calls := [(0, view 7), (5, view 8), (0, view 9)]
    Ready initial ∧ Normal initial Conversion.defaults types calls ∧
      ∃ cells final, collect later Conversion.defaults types calls initial = (.ok cells, final) ∧
        Collected later initial Conversion.defaults types calls cells final := by
  intro later view types calls
  have ready : Ready initial := fit_initial.ready
  have sane : ∀ conversion ∈ Conversion.defaults, conversion.Sane initial.store.cells.size :=
    Conversion.Sane.defaults
  have first {index : Nat} {type : ResultType} {raw : Raw} (declared : types[index]? = some type)
      (found : calls.lookup index = some raw) : index = 0 ∧ type = .memref .i8 1 ∧ raw = view 7 := by
    match index with
    | 0 =>
      cases declared
      cases found
      exact ⟨rfl, rfl, rfl⟩
    | 1 => cases found
    | _ + 2 => cases declared
  have normal : Normal initial Conversion.defaults types calls := by
    constructor
    · intro index type raw declared found cell member
      obtain ⟨rfl, rfl, rfl⟩ := first declared found
      cases member
    · intro index type raw declared found
      obtain ⟨rfl, rfl, rfl⟩ := first declared found
      exact ⟨.settled (.ok (.tensor ⟨.i8, [1], [7], rfl⟩)), by rfl, fun cause => by simp [Pipeline.result]⟩
  exact ⟨ready, normal, (first_answers_count later ready sane normal).1 calls fun _ _ => rfl⟩

end DeferredJit.Engine
