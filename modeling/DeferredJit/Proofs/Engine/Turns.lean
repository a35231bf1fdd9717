import DeferredJit.Proofs.Async.Lines
import DeferredJit.Proofs.Engine.Selection

/-! Which executables a handle makes in the turns that calls have at it, and which calls are still to have
their turn. -/

set_option autoImplicit false

namespace DeferredJit

open Async (CellId)

namespace Handle

variable {handle : Handle} {views : List Memref} {called done : List (List Memref)}

/-- The shapes of operands that the handle accepts. -/
def accepted? (handle : Handle) (views : List Memref) : Option ShapeKey :=
  match handle.generic.signature.check views with
  | .ok () => some (ShapeKey.ofMemrefs views)
  | .error _ => none

theorem accepted?_eq_some {key : ShapeKey} : handle.accepted? views = some key ↔
    handle.generic.signature.check views = .ok () ∧ ShapeKey.ofMemrefs views = key := by
  unfold accepted?
  cases handle.generic.signature.check views <;> simp

/-- The shapes that the handle has executables for once it was called with these operands, one after the
other. -/
def wanted (handle : Handle) (called : List (List Memref)) : List ShapeKey :=
  if handle.specializes then (called.filterMap handle.accepted?).eraseDups.take handle.limit else []

/-- The handle has the executables that it wants, also after one more turn. -/
theorem wanted_served {cell : CellId} (provided : handle.specializations.map Prod.fst = handle.wanted done) :
    (handle.served views cell).specializations.map Prod.fst =
      (handle.served views cell).wanted (done ++ [views]) := by
  have same : (handle.served views cell).wanted (done ++ [views]) = handle.wanted (done ++ [views]) := by
    rw [served_eq]
    rfl
  rw [same]
  unfold wanted at provided ⊢
  by_cases willing : handle.specializes = true
  · rw [if_pos willing] at provided ⊢
    rw [List.filterMap_append]
    cases checked : handle.generic.signature.check views with
    | error =>
      have none : [views].filterMap handle.accepted? = [] := by simp [accepted?, checked]
      rw [served_rejected checked, none, provided, List.append_nil]
    | ok =>
      have one : [views].filterMap handle.accepted? = [ShapeKey.ofMemrefs views] := by simp [accepted?, checked]
      rw [one]
      exact firsts_served willing checked provided
  · have settled : handle.choose (ShapeKey.ofMemrefs views) ≠ .fresh := by
      unfold choose
      rw [if_neg willing]
      simp
    rw [if_neg willing] at provided ⊢
    rw [served_settled settled, provided]

/-- What the handle chooses for operands that it was called with. -/
theorem choose_wanted (provided : handle.specializations.map Prod.fst = handle.wanted called)
    (member : views ∈ called) (checked : handle.generic.signature.check views = .ok ()) :
    (ShapeKey.ofMemrefs views ∈ handle.wanted called ∧
      ∃ cell, (ShapeKey.ofMemrefs views, cell) ∈ handle.specializations ∧ handle.choose (ShapeKey.ofMemrefs views) = .known cell) ∨
    (ShapeKey.ofMemrefs views ∉ handle.wanted called ∧ handle.choose (ShapeKey.ofMemrefs views) = .generic) := by
  by_cases willing : handle.specializes = true
  · cases found : handle.specializations.lookup (ShapeKey.ofMemrefs views) with
    | some cell =>
      obtain ⟨former, others, split, -⟩ := List.lookup_eq_some_iff.1 found
      have entry : (ShapeKey.ofMemrefs views, cell) ∈ handle.specializations := by
        rw [split]
        exact List.mem_append_right _ List.mem_cons_self
      exact .inl ⟨provided ▸ List.mem_map_of_mem entry, cell, entry, choose_eq_known willing found⟩
    | none =>
      have missing := lookup_eq_none_iff.1 found
      rw [provided] at missing
      -- If there were room, the shapes would be wanted.
      have full : handle.limit ≤ handle.specializations.length := by
        by_contra room
        refine missing ?_
        have length := congrArg List.length provided
        unfold wanted at length ⊢
        rw [if_pos willing] at length ⊢
        rw [List.length_map, List.length_take] at length
        rw [List.take_of_length_le (by omega)]
        exact List.mem_eraseDups.2 (List.mem_filterMap.2 ⟨views, member, accepted?_eq_some.2 ⟨checked, rfl⟩⟩)
      exact .inr ⟨missing, choose_eq_generic willing found full⟩
  · have none : handle.wanted called = [] := if_neg willing
    refine .inr ⟨by simp [none], ?_⟩
    unfold choose
    exact if_neg willing

/-- What is wanted of earlier operands does not depend on later ones. -/
theorem mem_wanted_append {more : List (List Memref)} (member : views ∈ called)
    (checked : handle.generic.signature.check views = .ok ()) :
    ShapeKey.ofMemrefs views ∈ handle.wanted (called ++ more) ↔ ShapeKey.ofMemrefs views ∈ handle.wanted called := by
  unfold wanted
  split
  · have asked : ShapeKey.ofMemrefs views ∈ (called.filterMap handle.accepted?).eraseDups :=
      List.mem_eraseDups.2 (List.mem_filterMap.2 ⟨views, member, accepted?_eq_some.2 ⟨checked, rfl⟩⟩)
    rw [List.filterMap_append, List.eraseDups_append, List.take_append]
    constructor
    · intro among
      rcases List.mem_append.1 among with early | late
      · exact early
      · -- Nothing comes up again that was asked for before.
        have new := List.mem_eraseDups.1 (List.mem_of_mem_take late)
        simp only [List.removeAll, List.mem_filter] at new
        have repeated := List.mem_eraseDups.1 asked
        simp [repeated] at new
    · exact fun among => List.mem_append_left _ among
  · rfl

theorem wanted_nil : handle.wanted [] = [] := by simp [wanted]

end Handle

namespace Artifact

/-- A handle of the artifact, with these executables. -/
def handle (config : Config) (artifact : Artifact) (genericCell : CellId) (table : List (ShapeKey × CellId)) :
    Handle where
  generic := artifact.kernel
  genericCell
  specializer := artifact.specializer
  mode := config.specialization
  limit := config.maxSpecializations
  specializations := table

/-- The shapes that a handle of the artifact has executables for once it was called with these operands. -/
def wanted (config : Config) (artifact : Artifact) (called : List (List Memref)) : List ShapeKey :=
  (artifact.handle config 0 []).wanted called

end Artifact

namespace Engine

open Async (Moment Continuation Routine Steps)

/-! ## Turns -/

/-- The operands of a call that waits for its turn at the handle in the cell. -/
def Stage.views? (cell : CellId) : Stage → Option (List Memref)
  | .handle call views _ => if call.handle = cell then some views else none
  | .operands .. | .executable .. | .observer _ => none

/-- Whoever waits for a turn at the handle in the cell waits for the cell. -/
abbrev InTurn (moment : EngineMoment) (cell : CellId) : Prop := moment.InLine (Stage.views? cell) cell

/-- The operands of those whose turn is still to come, in that order. -/
def turnsDue (moment : EngineMoment) (cell : CellId) : List (List Memref) := moment.line (Stage.views? cell) cell

/-- The operands of the call are known; if it waits for its turn, it is at a handle in one of these cells. -/
def Stage.Direct (cells : List CellId) : Stage → Prop
  | .operands .. => False
  | .handle call _ _ => call.handle ∈ cells
  | .executable .. | .observer _ => True

def Direct (cells : List CellId) : Continuation Payload Stage → Prop
  | .call stage => stage.Direct cells
  | .arrive _ | .derive .. => True

/-- Calls of more handles may wait. -/
theorem Direct.mono {cells more : List CellId} (subset : cells ⊆ more) :
    ∀ continuation, Direct cells continuation → Direct more continuation
  | .call (.handle _ _ _), among => subset among
  | .call (.operands ..), operands => operands
  | .call (.executable ..), _ | .call (.observer _), _ | .arrive _, _ | .derive .., _ => trivial

section Additions

variable {scope : Scope} {world next : EngineWorld} {cost budget : Nat} {duties : List EngineDuty} {cell : CellId}

/-- Where no call waits for its operands or its handle, turns stay as they are. -/
theorem Addition.inTurn (step : Addition scope world cost next) (sound : world.store.Sound)
    (direct : scope.defers → cost = 0) (inTurn : InTurn ⟨duties, world⟩ cell) :
    InTurn ⟨duties, next⟩ cell ∧ turnsDue ⟨duties, next⟩ cell = turnsDue ⟨duties, world⟩ cell := by
  have same (cells : next.store.cells = world.store.cells) (latches : next.store.latches = world.store.latches) :
      InTurn ⟨duties, next⟩ cell ∧ turnsDue ⟨duties, next⟩ cell = turnsDue ⟨duties, world⟩ cell :=
    ⟨inTurn.of_cells_eq cells latches, Moment.line_of_cells_eq duties cells⟩
  have made {new : Async.Cell Payload Stage} (free : new.link = none) (nobody : new.waiters = [])
      (store : next.store = (world.make new).store) :
      InTurn ⟨duties, next⟩ cell ∧ turnsDue ⟨duties, next⟩ cell = turnsDue ⟨duties, world⟩ cell := by
    refine ⟨(inTurn.make sound free nobody).of_cells_eq (by rw [store]) (by rw [store]), ?_⟩
    exact (Moment.line_of_cells_eq duties (by rw [store])).trans (Moment.InLine.line_make world nobody)
  cases step with
  | make free nobody => exact made free nobody rfl
  | specialize | enqueue => exact made rfl rfl rfl
  | specializeNow => exact made rfl rfl rfl
  | derive _ _ waits =>
    have soundMade := (Async.Grow.make rfl rfl : Async.Grow world (world.make {})).sound sound
    exact ⟨(inTurn.make sound rfl rfl).waits soundMade waits fun picked => (by cases picked),
      (Moment.InLine.line_waits waits (.inl rfl)).trans
        ((List.append_nil _).trans (Moment.InLine.line_make world rfl))⟩
  | @putOff id call stage _ _ _ _ awaits _ _ waits =>
    have idle : (Continuation.call stage : Continuation Payload Stage).picked (Stage.views? cell) = none := by
      cases awaits with
      | handle defers => cases direct defers
      | executable => rfl
    have placed : Async.Grows world (world.makeMany indirect call.count) := world.grows_makeMany rfl rfl call.count
    have still : InTurn ⟨duties, world.makeMany indirect call.count⟩ cell := inTurn.makeMany sound rfl rfl call.count
    refine ⟨still.waits (placed.sound sound) waits fun picked => ?_, ?_⟩
    · rw [idle] at picked
      cases picked
    · refine (Moment.InLine.line_waits waits (.inl idle)).trans ?_
      rw [idle]
      exact (List.append_nil _).trans (Moment.InLine.line_makeMany world rfl call.count)
  | gather _ defers => cases direct defers
  | _ => exact same rfl rfl

theorem Adds.inTurn (adds : Adds scope world budget next) (sound : world.store.Sound)
    (direct : scope.defers → budget = 0) (inTurn : InTurn ⟨duties, world⟩ cell) :
    InTurn ⟨duties, next⟩ cell ∧ turnsDue ⟨duties, next⟩ cell = turnsDue ⟨duties, world⟩ cell := by
  induction adds with
  | refl => exact ⟨inTurn, rfl⟩
  | tail before step enough ih =>
    have free (defers : scope.defers) := direct defers
    obtain ⟨still, same⟩ := ih fun defers => by have := free defers; omega
    obtain ⟨after, further⟩ := step.inTurn (before.grows.sound sound) (fun defers => by have := free defers; omega) still
    exact ⟨after, further.trans same⟩

theorem Addition.direct {cells : List CellId} (step : Addition scope world cost next) (sound : world.store.Sound)
    (direct : scope.defers → cost = 0) (carries : Moment.Carries ⟨duties, world⟩ (Direct cells)) :
    Moment.Carries ⟨duties, next⟩ (Direct cells) := by
  refine step.carries_new sound carries fun continuation dear brings => ?_
  cases brings with
  | arrive | derive => trivial
  | operands defers => exact absurd (direct defers) dear
  | stage awaits =>
    cases awaits with
    | handle defers => exact absurd (direct defers) dear
    | executable => trivial

theorem Adds.direct {cells : List CellId} (adds : Adds scope world budget next) (sound : world.store.Sound)
    (direct : scope.defers → budget = 0) (carries : Moment.Carries ⟨duties, world⟩ (Direct cells)) :
    Moment.Carries ⟨duties, next⟩ (Direct cells) := by
  induction adds with
  | refl => exact carries
  | tail before step enough ih =>
    have free (defers : scope.defers) := direct defers
    exact step.direct (before.grows.sound sound) (fun defers => by have := free defers; omega)
      (ih fun defers => by have := free defers; omega)

end Additions

theorem inTurn_linkAll {sources targets : List CellId} {duties : List EngineDuty} {world : EngineWorld} {cell : CellId}
    (inTurn : InTurn ⟨duties, world⟩ cell) : InTurn ⟨linkAll sources targets ++ duties, world⟩ cell ∧
      turnsDue ⟨linkAll sources targets ++ duties, world⟩ cell = turnsDue ⟨duties, world⟩ cell := by
  unfold linkAll
  induction sources.zip targets with
  | nil => exact ⟨inTurn, rfl⟩
  | cons pair others ih =>
    refine ⟨ih.1.ask rfl, ?_⟩
    rw [List.map_cons, List.cons_append, turnsDue, Moment.line_cons]
    exact ih.2

theorem direct_linkAll {sources targets cells : List CellId} {duties : List EngineDuty} {world : EngineWorld}
    (carries : Moment.Carries ⟨duties, world⟩ (Direct cells)) :
    Moment.Carries ⟨linkAll sources targets ++ duties, world⟩ (Direct cells) := by
  unfold linkAll
  induction sources.zip targets with
  | nil => exact carries
  | cons pair others ih => exact ih.ask trivial

/-! ## Tables -/

/-- The handle has the executables that it wants after these turns. -/
def Suits (handles : List Handle) (id : HandleId) (done : List (List Memref)) : Prop :=
  ∃ handle, handles[id]? = some handle ∧ handle.specializations.map Prod.fst = handle.wanted done

namespace Suits

variable {handles later : List Handle} {id : HandleId} {done : List (List Memref)} {views : List Memref} {cell : CellId}
  {told : Option (Outcome HandleId)}

theorem stay (suits : Suits handles id done) (stay : HandlesStay handles later) : Suits later id done := by
  obtain ⟨handle, found, provided⟩ := suits
  exact ⟨handle, stay found, provided⟩

/-- The handle has had one more turn. -/
theorem turn (suits : Suits handles id done) (stay : HandlesStay (chosen handles views cell (some (.ok id))) later) :
    Suits later id (done ++ [views]) := by
  obtain ⟨handle, found, provided⟩ := suits
  refine ⟨handle.served views cell, stay ?_, Handle.wanted_served provided⟩
  rw [chosen, List.getElem?_modify, found]
  simp

/-- Another handle has had a turn, or none has. -/
theorem aside (suits : Suits handles id done) (apart : told ≠ some (.ok id))
    (stay : HandlesStay (chosen handles views cell told) later) : Suits later id done := by
  obtain ⟨handle, found, provided⟩ := suits
  refine ⟨handle, stay ?_, provided⟩
  rcases told with _ | failure | other
  · exact found
  · exact found
  · have different : other ≠ id := fun same => apart (by rw [same])
    rw [chosen, List.getElem?_modify, found]
    simp [different]

end Suits

/-- The cell shows the handle, or is about to get it. -/
def Promises (moment : EngineMoment) (cell : CellId) (id : HandleId) : Prop :=
  moment.world.store.state cell = some (.ok (.handle id)) ∨
    (moment.world.store.state cell = none ∧ .give cell (.ok (.handle id)) ∈ moment.duties)

/-- Nobody comes to promise a handle who does not give it. -/
theorem Promises.earlier {before after : EngineMoment} {cell : CellId} {id : HandleId}
    (keeps : before.world.store.Keeps after.world.store)
    (shown : ∀ outcome, after.world.store.state cell = some outcome →
      before.world.store.state cell = some outcome ∨ .give cell outcome ∈ before.duties)
    (gives : ∀ outcome, .give cell outcome ∈ after.duties → .give cell outcome ∈ before.duties)
    (promises : Promises after cell id) : Promises before cell id := by
  cases former : before.world.store.state cell with
  | none =>
    rcases promises with shows | ⟨-, due⟩
    · rcases shown _ shows with same | given
      · exact .inl same
      · exact .inr ⟨former, given⟩
    · exact .inr ⟨former, gives _ due⟩
  | some outcome =>
    have still := keeps.state former
    rcases promises with shows | ⟨pending, -⟩
    · exact .inl (former.trans (still.symm.trans shows))
    · rw [pending] at still
      cases still

/-- What cells show is the same as before. -/
theorem Promises.grown {before after : List EngineDuty} {world next : EngineWorld} {cell : CellId} {id : HandleId}
    (promises : Promises ⟨after, next⟩ cell id) (grows : Async.Grows world next) (sound : world.store.Sound)
    (old : cell < world.store.cells.size)
    (gives : ∀ outcome, .give cell outcome ∈ after → .give cell outcome ∈ before) : Promises ⟨before, world⟩ cell id :=
  promises.earlier (grows.keeps sound) (fun _ shown => .inl ((grows.state sound old).symm.trans shown)) gives

end Engine

end DeferredJit
