import DeferredJit.Proofs.Engine.Executions
import DeferredJit.Proofs.Engine.Pipeline

/-! Where a call is on its way through the pipeline, as the cells, the waiters and what is still to do
have it at a moment. -/

set_option autoImplicit false

namespace DeferredJit.Engine

open Async (CellId LatchId Moment Continuation)

/-- What comes of a source: its value is converted, its failure is passed on. -/
def Conveys (seen : Outcome Payload) (convert : Payload → Made Payload) (made : Outcome Payload) : Prop :=
  match seen with
  | .ok payload => convert payload = .ok made
  | .error failure => made = .error failure

/-- A result cell shows, or will show, what it is converted from. -/
inductive Follows (moment : EngineMoment) : Converted → CellId → Prop where
  | settled {outcome cell} : moment.world.store.Holds cell (outcome.map .value) →
      Follows moment (.settled outcome) cell
  | waits {source convert cell waiter} : waiter ∈ moment.outstanding →
      waiter.continuation = .derive cell convert → waiter.home = source →
      Follows moment (.derived source convert) cell
  | due {source convert cell seen made} : moment.duties.head? = some (.give cell made) →
      moment.world.store.Blank cell → moment.world.store.state source = some seen →
      Conveys seen convert made → Follows moment (.derived source convert) cell
  | done {source convert cell seen made} : moment.world.store.state source = some seen →
      moment.world.store.Holds cell made → Conveys seen convert made →
      Follows moment (.derived source convert) cell

def AllHold (moment : EngineMoment) (cells : List CellId) (outcome : Outcome Payload) : Prop :=
  ∀ cell ∈ cells, moment.world.store.Holds cell outcome

/-- The cell of something that was handed back, which is there if the thing was. -/
def Arrived {α : Type} (store : EngineStore) (payload : α → Payload) (arrival : Arrival α)
    (cell : CellId) : Prop :=
  cell < store.cells.size ∧
    ∀ outcome, arrival = .settled outcome → store.state cell = some (outcome.map payload)

def HandedBack (store : EngineStore) : Answer → Raw → Prop
  | .token arrival, .token cell => Arrived store (fun _ => .token) arrival cell
  | .asyncMemref arrival, .asyncMemref cell => Arrived store .view arrival cell
  | .memref view, .memref other => other = view
  | _, _ => False

/-- The raw values of answers, one by one. -/
def Handed (store : EngineStore) : List (Nat × Answer) → List (Nat × Raw) → Prop :=
  List.Forall₂ fun answer raw => raw.1 = answer.1 ∧ HandedBack store answer.2 raw.2

/-- The cell of a task that settles it, which may have been done at once. -/
structure Promised (world : EngineWorld) (name : String) (cell : CellId) (payload : Payload) : Prop where
  concrete : ¬ placeable world.store cell
  settles : (world.store.Holds cell (.ok payload) ∧ world.outer.serving cell = []) ∨
    (world.store.Blank cell ∧ world.outer.serving cell = [.settle name cell payload])

/-- What a task has still to deliver. -/
def Delivery (world : EngineWorld) : Answer → Raw → Prop
  | .token (.scheduled name _), .token cell => Promised world name cell .token
  | .asyncMemref (.scheduled name view), .asyncMemref cell => Promised world name cell (.view view)
  | _, _ => True

/-- What is known of raw values that may become available later. -/
abbrev Delivering := List (Nat × Answer) → List (Nat × Raw) → Prop

def Delivers (world : EngineWorld) : Delivering :=
  List.Forall₂ fun answer raw => Delivery world answer.2 raw.2

/-- A conversion panicked on what it was given. -/
def Balks (store : EngineStore) (conversions : List Conversion) (types : List ResultType)
    (slots : List (Option Converted)) (raws : List (Nat × Raw)) : Prop :=
  (∃ cause, Pipeline.fill conversions types slots raws = .error cause) ∨
    ∃ filled, Pipeline.fill conversions types slots raws = .ok filled ∧
      ∃ source convert payload cause, some (.derived source convert) ∈ filled ∧
        store.state source = some (.ok payload) ∧ convert payload = .error cause

def emptySlots (kernel : Kernel) : List (Option Converted) := kernel.signature.results.map fun _ => none

/-- What is in the cell of the result at a position. -/
def Completes (moment : EngineMoment) (index : Nat) (slot : Option Converted) (cell : CellId) : Prop :=
  match slot with
  | some converted => Follows moment converted cell
  | none => moment.world.store.Holds cell (.error (.conversion index "executable returned no value"))

/-- The results of a kernel that has run. -/
inductive Ran (delivers : Delivering) (moment : EngineMoment) (call : Call) (kernel : Kernel)
    (views : List Memref) (raws : List (Nat × Raw)) (cells : List CellId) : Prop where
  | mismatched {failure} : Pipeline.mismatch? call kernel views = some failure →
      AllHold moment cells (.error failure) → Ran delivers moment call kernel views raws cells
  | balked {done rest} : Pipeline.mismatch? call kernel views = none →
      (kernel.run views).answers = done ++ rest → Handed moment.world.store done raws →
      delivers done raws →
      Balks moment.world.store call.dispatcher.conversions kernel.signature.results
        (emptySlots kernel) raws →
      AllHold moment cells (.error Pipeline.panicked) → Ran delivers moment call kernel views raws cells
  | ended {slots : List (Option Converted)} : Pipeline.mismatch? call kernel views = none →
      Handed moment.world.store (kernel.run views).answers raws →
      delivers (kernel.run views).answers raws →
      Pipeline.fill call.dispatcher.conversions kernel.signature.results (emptySlots kernel) raws =
        .ok slots →
      (∀ converted, some converted ∈ slots → ∃ target, Follows moment converted target) →
      (match (kernel.run views).finish with
        | .returned => slots.length = cells.length ∧ ∀ index slot cell, slots[index]? = some slot →
            cells[index]? = some cell → Completes moment index slot cell
        | .failed failure => AllHold moment cells (.error failure)
        | .panicked _ => AllHold moment cells (.error Pipeline.panicked)) →
      Ran delivers moment call kernel views raws cells

/-- What a later stage relies on, which waits for this cell. -/
inductive Expects (world : EngineWorld) : Stage → CellId → Prop where
  | handle {call views results} :
      Pipeline.marshal call world.store.state = Pipeline.known (.ok views) →
      Expects world (.handle call views results) call.handle
  | executable {call views results id cell} :
      Pipeline.marshal call world.store.state = Pipeline.known (.ok views) →
      Pipeline.held Payload.handle? (world.store.state call.handle) = Pipeline.known (.ok id) →
      Pipeline.choice world.outer.handles id views = Pipeline.known (.ok cell) →
      Expects world (.executable call views results) cell

/-- What a stage relies on when its turn comes, told what it waited for. -/
inductive Told (world : EngineWorld) : Stage → Option (Outcome Payload) → Prop where
  | operands {call results seen} : (∀ operand ∈ call.operands, (world.store.state operand).isSome) →
      Told world (.operands call results) seen
  | shown {stage cell outcome} : Expects world stage cell → world.store.state cell = some outcome →
      Told world stage (some outcome)

/-- The call waits, or its continuation is due. -/
inductive Pending (moment : EngineMoment) (call : Call) (cells : List CellId) : Prop where
  | gathers {latch : LatchId} {missing : Nat} :
      moment.world.store.latches[latch]? = some ⟨missing + 1, .operands call cells⟩ →
      (∀ operand ∈ call.operands, (moment.world.store.state operand).isSome ∨
        ∃ waiter ∈ moment.outstanding,
          waiter.continuation = .arrive latch ∧ waiter.home = operand) →
      (∀ waiter ∈ moment.outstanding, waiter.continuation = .arrive latch →
        waiter.home ∈ call.operands) → Pending moment call cells
  | waits {stage waiter} : stage.call? = some call → stage.results = cells →
      waiter ∈ moment.outstanding → waiter.continuation = .call stage →
      Expects moment.world stage waiter.home → Pending moment call cells
  | turn {stage seen} : stage.call? = some call → stage.results = cells →
      moment.duties.head? = some (.answer stage seen) → Told moment.world stage seen →
      Pending moment call cells

/-- The call waits, or its continuation is due, or it is through. -/
inductive Phase (delivers : Delivering) (moment : EngineMoment) (call : Call) (cells : List CellId) : Prop where
  | pending : Pending moment call cells → Phase delivers moment call cells
  | failed {failure} : Pipeline.kernel call moment.world.outer.handles moment.world.store.state =
        Pipeline.known (.error failure) →
      AllHold moment cells (.error failure) → Phase delivers moment call cells
  | ran {kernel views raws} : Pipeline.kernel call moment.world.outer.handles moment.world.store.state =
        Pipeline.known (.ok (kernel, views)) →
      Ran delivers moment call kernel views raws cells → Phase delivers moment call cells

/-- The pipeline of a call has come to no kernel that the call could run. -/
inductive Barred (world : EngineWorld) (call : Call) : Prop where
  | failed {failure} : Pipeline.kernel call world.outer.handles world.store.state =
      Pipeline.known (.error failure) → Barred world call
  | mismatched {kernel views failure} : Pipeline.kernel call world.outer.handles world.store.state =
        Pipeline.known (.ok (kernel, views)) →
      Pipeline.mismatch? call kernel views = some failure → Barred world call

/-- The pipeline of a call has come to a kernel that the call runs. -/
structure Cleared (world : EngineWorld) (call : Call) (kernel : Kernel) (views : List Memref) : Prop where
  known : Pipeline.kernel call world.outer.handles world.store.state = Pipeline.known (.ok (kernel, views))
  matched : Pipeline.mismatch? call kernel views = none

/-- The cells are those of the goal, or are linked to others that lead there, or are about to be. Links
go to younger cells only. -/
inductive Leads (moment : EngineMoment) (goal : List CellId → Prop) : (oldest : Nat) →
    List CellId → Prop where
  | here {oldest cells} : (∀ cell ∈ cells, oldest ≤ cell) → goal cells → Leads moment goal oldest cells
  | link {oldest younger cells produced} : cells.length = produced.length →
      (∀ cell ∈ cells, oldest ≤ cell ∧ cell < younger) →
      (∀ pair ∈ cells.zip produced, .link pair.1 pair.2 ∈ moment.duties ∨
        moment.world.store.last pair.1 = moment.world.store.last pair.2) →
      Leads moment goal younger produced → Leads moment goal oldest cells

/-! ## Going on -/

/-- Cells show at least what they showed, and handles choose as they did. -/
structure Onward (before after : EngineMoment) : Prop where
  keeps : before.world.store.Keeps after.world.store
  handles : Pipeline.HandlesKeep before.world.outer.handles after.world.outer.handles

/-- Nothing that is under way is touched. -/
structure Quiet (before after : EngineMoment) : Prop extends Onward before after where
  latches : ∀ {latch : LatchId} {found}, before.world.store.latches[latch]? = some found →
    after.world.store.latches[latch]? = some found
  outstanding : ∃ more, after.outstanding.Perm (more ++ before.outstanding)
  links : ∀ {source target}, .link source target ∈ before.duties →
    .link source target ∈ after.duties
  due : ∀ {target outcome}, before.duties.head? = some (.give target outcome) →
    before.world.store.Blank target →
    after.duties.head? = some (.give target outcome) ∧ after.world.store.Blank target

theorem Adds.quiet {scope : Scope} {world next : EngineWorld} {budget : Nat} (adds : Adds scope world budget next)
    (ready : Ready world) (duties : List EngineDuty) : Quiet ⟨duties, world⟩ ⟨duties, next⟩ where
  keeps := adds.grows.keeps ready.sound
  handles := adds.handlesKeep
  latches found := by
    obtain ⟨more, same⟩ := adds.grows.latches
    rw [same]
    exact (List.getElem?_append_left (List.getElem?_eq_some_iff.1 found).1).trans found
  outstanding := by
    obtain ⟨more, same⟩ := adds.grows.waiters
    refine ⟨more, (same.append_left _).trans ?_⟩
    simp only [Moment.outstanding, ← List.append_assoc]
    exact List.perm_append_comm.append_right _
  links member := member
  due head blank := ⟨head, adds.grows.blank blank⟩

theorem Arrived.later {α : Type} {store later : EngineStore} {payload : α → Payload}
    {arrival : Arrival α} {cell : CellId} (arrived : Arrived store payload arrival cell)
    (keeps : store.Keeps later) : Arrived later payload arrival cell :=
  ⟨Nat.lt_of_lt_of_le arrived.1 keeps.size_le, fun outcome settled => keeps.state (arrived.2 outcome settled)⟩

theorem HandedBack.later {store later : EngineStore} {answer : Answer} {raw : Raw}
    (handed : HandedBack store answer raw) (keeps : store.Keeps later) : HandedBack later answer raw := by
  cases answer <;> cases raw <;> first
    | exact Arrived.later handed keeps
    | exact handed

theorem Handed.later {store later : EngineStore} {answers : List (Nat × Answer)}
    {raws : List (Nat × Raw)} (handed : Handed store answers raws) (keeps : store.Keeps later) :
    Handed later answers raws :=
  List.Forall₂.imp (fun _ _ same => ⟨same.1, same.2.later keeps⟩) handed

theorem Balks.later {store later : EngineStore} {conversions : List Conversion} {types : List ResultType}
    {slots : List (Option Converted)} {raws : List (Nat × Raw)}
    (balks : Balks store conversions types slots raws) (keeps : store.Keeps later) :
    Balks later conversions types slots raws := by
  rcases balks with stopped | ⟨slots, filled, source, convert, payload, cause, member, shown, panicked⟩
  · exact .inl stopped
  · exact .inr ⟨slots, filled, source, convert, payload, cause, member, keeps.state shown, panicked⟩

theorem AllHold.later {before after : EngineMoment} {cells : List CellId} {outcome : Outcome Payload}
    (hold : AllHold before cells outcome) (keeps : before.world.store.Keeps after.world.store) :
    AllHold after cells outcome := fun cell member => (hold cell member).later keeps

theorem Completes.goes_on {before after : EngineMoment} {index : Nat} {slot : Option Converted}
    {cell : CellId} (completes : Completes before index slot cell)
    (keeps : before.world.store.Keeps after.world.store)
    (follows : ∀ {converted target}, Follows before converted target → Follows after converted target) :
    Completes after index slot cell := by
  cases slot with
  | some converted => exact follows completes
  | none => exact Async.Store.Holds.later completes keeps

/-- What goes on wherever results go on following what they are converted from. -/
theorem Ran.goes_on {delivers still : Delivering} {before after : EngineMoment} {call : Call} {kernel : Kernel}
    {views : List Memref} {raws : List (Nat × Raw)} {cells : List CellId}
    (ran : Ran delivers before call kernel views raws cells)
    (delivered : ∀ answers raws, delivers answers raws → still answers raws)
    (keeps : before.world.store.Keeps after.world.store)
    (follows : ∀ {converted target}, Follows before converted target → Follows after converted target) :
    Ran still after call kernel views raws cells := by
  cases ran with
  | mismatched wrong hold => exact .mismatched wrong (hold.later keeps)
  | balked right answers handed delivers balks hold =>
    exact .balked right answers (handed.later keeps) (delivered _ _ delivers) (balks.later keeps) (hold.later keeps)
  | ended right handed delivers filled following ended =>
    refine .ended right (handed.later keeps) (delivered _ _ delivers) filled
      (fun converted member => (following converted member).imp fun _ => follows) ?_
    split at ended
    · exact ⟨ended.1, fun index slot cell here there =>
        (ended.2 index slot cell here there).goes_on keeps follows⟩
    · exact AllHold.later ended keeps
    · exact AllHold.later ended keeps

namespace Quiet

variable {before after : EngineMoment} {call : Call} {cells : List CellId}

theorem still (quiet : Quiet before after) {waiter : Async.Waiter Payload Stage}
    (member : waiter ∈ before.outstanding) : waiter ∈ after.outstanding := by
  obtain ⟨more, same⟩ := quiet.outstanding
  exact same.mem_iff.2 (List.mem_append_right more member)

theorem follows (quiet : Quiet before after) {converted : Converted} {target : CellId}
    (follows : Follows before converted target) : Follows after converted target := by
  cases follows with
  | settled held => exact .settled (held.later quiet.keeps)
  | waits member kind home => exact .waits (quiet.still member) kind home
  | due head blank shown conveys =>
    obtain ⟨still, clean⟩ := quiet.due head blank
    exact .due still clean (quiet.keeps.state shown) conveys
  | done shown held conveys => exact .done (quiet.keeps.state shown) (held.later quiet.keeps) conveys

theorem ran (quiet : Quiet before after) {delivers : Delivering} {kernel : Kernel} {views : List Memref}
    {raws : List (Nat × Raw)} (ran : Ran delivers before call kernel views raws cells) :
    Ran delivers after call kernel views raws cells :=
  ran.goes_on (fun _ _ delivered => delivered) quiet.keeps quiet.follows

theorem completes (quiet : Quiet before after) {index : Nat} {slot : Option Converted} {cell : CellId}
    (completes : Completes before index slot cell) : Completes after index slot cell :=
  completes.goes_on quiet.keeps quiet.follows

end Quiet

/-- A handle that a cell shows is one of those there are. -/
theorem Tidy.valid_held {world : EngineWorld} (tidy : Tidy world) {cell : CellId} {id : HandleId}
    (shown : Pipeline.held Payload.handle? (world.store.state cell) = Pipeline.known (.ok id)) :
    id < world.outer.handles.length := by
  cases seen : world.store.state cell with
  | none =>
    rw [seen] at shown
    cases shown
  | some outcome =>
    rw [seen] at shown
    have same := Pipeline.known_inj shown
    cases outcome with
    | error => cases same
    | ok payload =>
      have valid := tidy.shown seen payload rfl
      cases payload with
      | handle other =>
        cases same
        exact valid
      | _ => cases same

namespace Onward

theorem refl (moment : EngineMoment) : Onward moment moment :=
  ⟨.refl _, .refl _⟩

theorem trans {before between after : EngineMoment} (first : Onward before between)
    (second : Onward between after) : Onward before after where
  keeps := first.keeps.trans second.keeps
  handles := first.handles.trans second.handles

variable {before after : EngineMoment} (onward : Onward before after)

include onward

theorem shows : Pipeline.Extends before.world.store.state after.world.store.state :=
  fun _ _ shown => onward.keeps.state shown

theorem kernel (tidy : Tidy before.world) {call : Call} {outcome : Outcome (Kernel × List Memref)}
    (came : Pipeline.kernel call before.world.outer.handles before.world.store.state = Pipeline.known outcome) :
    Pipeline.kernel call after.world.outer.handles after.world.store.state = Pipeline.known outcome :=
  Pipeline.kernel_later onward.shows onward.handles (fun _ => tidy.valid_held) came

theorem barred (tidy : Tidy before.world) {call : Call} (barred : Barred before.world call) :
    Barred after.world call := by
  cases barred with
  | failed came => exact .failed (onward.kernel tidy came)
  | mismatched came wrong => exact .mismatched (onward.kernel tidy came) wrong

theorem cleared (tidy : Tidy before.world) {call : Call} {kernel : Kernel} {views : List Memref}
    (cleared : Cleared before.world call kernel views) : Cleared after.world call kernel views :=
  ⟨onward.kernel tidy cleared.known, cleared.matched⟩

theorem expects (tidy : Tidy before.world) {stage : Stage} {cell : CellId}
    (expects : Expects before.world stage cell) : Expects after.world stage cell := by
  cases expects with
  | handle viewed => exact .handle (Pipeline.marshal_later onward.shows viewed)
  | executable viewed handled chosen =>
    exact .executable (Pipeline.marshal_later onward.shows viewed)
      (Pipeline.held_later onward.shows handled)
      (Pipeline.choice_later onward.handles (tidy.valid_held handled) chosen)

theorem told (tidy : Tidy before.world) {stage : Stage} {seen : Option (Outcome Payload)}
    (told : Told before.world stage seen) : Told after.world stage seen := by
  cases told with
  | operands available =>
    exact .operands fun operand member => onward.keeps.isSome_state (available operand member)
  | shown expects shown => exact .shown (onward.expects tidy expects) (onward.keeps.state shown)

end Onward

/-- What is known of raw values matters only where the kernel has run. -/
theorem Phase.mono {delivers weaker : Delivering} {moment : EngineMoment} {call : Call} {cells : List CellId}
    (phase : Phase delivers moment call cells)
    (implied : ∀ answers raws, delivers answers raws → weaker answers raws) : Phase weaker moment call cells := by
  cases phase with
  | pending pending => exact .pending pending
  | failed came hold => exact .failed came hold
  | ran came ran => exact .ran came (ran.goes_on implied (.refl _) id)

/-- The continuation of a call is about to be done. -/
def Pending.Turn (moment : EngineMoment) (call : Call) (cells : List CellId) : Prop :=
  ∃ stage seen, stage.call? = some call ∧ stage.results = cells ∧
    moment.duties.head? = some (.answer stage seen) ∧ Told moment.world stage seen

/-- Nobody else comes to be on the way to a latch that is there already. -/
theorem Quiet.arrives {before after : EngineMoment} (quiet : Quiet before after) (latched : before.Latched)
    (latchedAfter : after.Latched) {latch : LatchId} {found : Async.Latch Stage}
    (there : before.world.store.latches[latch]? = some found) {waiter : Async.Waiter Payload Stage}
    (member : waiter ∈ after.outstanding) (kind : waiter.continuation = .arrive latch) :
    waiter ∈ before.outstanding := by
  obtain ⟨more, same⟩ := quiet.outstanding
  have count := (same.filterMap (·.continuation.arrival?)).count_eq latch
  rw [List.filterMap_append, List.count_append] at count
  have missed : after.world.store.missing latch = before.world.store.missing latch := by
    unfold Async.Store.missing
    rw [there, quiet.latches there]
  have first := latched latch
  have second := latchedAfter latch
  unfold Moment.arrivals at first second
  rcases List.mem_append.1 (same.mem_iff.1 member) with new | old
  · have counted : 0 < (more.filterMap (·.continuation.arrival?)).count latch :=
      List.count_pos_iff.2 (List.mem_filterMap.2 ⟨waiter, new, by rw [kind]; rfl⟩)
    omega
  · exact old

/-- A call that waits goes on waiting, unless it is its turn. -/
theorem Pending.later {before after : EngineMoment} (quiet : Quiet before after) (tidy : Tidy before.world)
    (latched : before.Latched) (latchedAfter : after.Latched) {call : Call} {cells : List CellId}
    (pending : Pending before call cells) :
    Pending after call cells ∨ Pending.Turn before call cells := by
  cases pending with
  | gathers found waiting homes =>
    refine .inl (.gathers (quiet.latches found) (fun operand member => ?_) fun waiter member kind => ?_)
    · rcases waiting operand member with shown | ⟨waiter, there, kind, home⟩
      · exact .inl (quiet.keeps.isSome_state shown)
      · exact .inr ⟨waiter, quiet.still there, kind, home⟩
    · exact homes waiter (quiet.arrives latched latchedAfter found member kind) kind
  | waits called placed member kind expects =>
    exact .inl (.waits called placed (quiet.still member) kind (quiet.expects tidy expects))
  | turn called placed head told => exact .inr ⟨_, _, called, placed, head, told⟩

end DeferredJit.Engine
