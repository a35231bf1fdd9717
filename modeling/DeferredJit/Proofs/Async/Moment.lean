import DeferredJit.Proofs.Async.Operations
import DeferredJit.Proofs.Async.Soundness
import Mathlib.Logic.Relation

/-! Moments within a run: the world, and what the operations in progress still have to do.

An operation that runs continuations is taken apart into small steps here. A step either does the
first of the duties that are left or is one that a client of the cells takes. Whatever a small step
keeps holds throughout every run, in the middle of operations as well as between them.
-/

set_option autoImplicit false

namespace DeferredJit.Async

variable {α β ε ω : Type}

/-- Something that an operation in progress still has to do. -/
inductive Duty (α β : Type) where
  /-- Let a waiter wait for a cell, or run it if the cell is available. -/
  | hand (place : CellId) (waiter : Waiter α β)
  /-- Run a waiter whose cell is available. -/
  | fire (waiter : Waiter α β)
  /-- Do what the client wants done, who is told the state of a cell. -/
  | answer (body : β) (seen : Option (Outcome α))
  | give (target : CellId) (outcome : Outcome α)
  | link (source target : CellId)

structure Moment (α β ε ω : Type) where
  /-- Most urgent first. -/
  duties : List (Duty α β)
  world : World α β ε ω

/-- The first duty is done. What depends on a panic happens only if there may be one. -/
inductive Routine (mayPanic : Prop) : Moment α β ε ω → Moment α β ε ω → Prop where
  | park {place waiter rest world store} : world.store.park place waiter = some store →
      Routine mayPanic ⟨.hand place waiter :: rest, world⟩ ⟨rest, { world with store }⟩
  | ready {place waiter rest world} : world.store.park place waiter = none →
      Routine mayPanic ⟨.hand place waiter :: rest, world⟩ ⟨.fire waiter :: rest, world⟩
  | call {waiter body rest world} : waiter.continuation = .call body →
      Routine mayPanic ⟨.fire waiter :: rest, world⟩
        ⟨.answer body (world.store.state waiter.home) :: rest, world.run waiter⟩
  | arrive {waiter latch rest world store} : waiter.continuation = .arrive latch →
      world.store.arriveAt latch = (none, store) →
      Routine mayPanic ⟨.fire waiter :: rest, world⟩ ⟨rest, { world.run waiter with store }⟩
  | opens {waiter latch rest world store body} : waiter.continuation = .arrive latch →
      world.store.arriveAt latch = (some body, store) →
      Routine mayPanic ⟨.fire waiter :: rest, world⟩
        ⟨.answer body none :: rest, ({ world.run waiter with store }).log (.opened latch)⟩
  | derive {waiter target convert rest world value outcome} :
      waiter.continuation = .derive target convert →
      world.store.state waiter.home = some (.ok value) → convert value = .ok outcome →
      Routine mayPanic ⟨.fire waiter :: rest, world⟩
        ⟨.give target outcome :: rest, (world.run waiter).log (.converted value)⟩
  | spoil {waiter target convert rest world value cause} : mayPanic →
      waiter.continuation = .derive target convert →
      world.store.state waiter.home = some (.ok value) → convert value = .error cause →
      Routine mayPanic ⟨.fire waiter :: rest, world⟩
        ⟨rest, (world.run waiter).log (.converted value)⟩
  | pass {waiter target convert rest world failure} :
      waiter.continuation = .derive target convert →
      world.store.state waiter.home = some (.error failure) →
      Routine mayPanic ⟨.fire waiter :: rest, world⟩
        ⟨.give target (.error failure) :: rest, world.run waiter⟩
  | skip {waiter target convert rest world} : waiter.continuation = .derive target convert →
      world.store.state waiter.home = none →
      Routine mayPanic ⟨.fire waiter :: rest, world⟩ ⟨rest, world.run waiter⟩
  | give {target outcome waiters rest world store} :
      world.store.settle target outcome = some (waiters, store) →
      Routine mayPanic ⟨.give target outcome :: rest, world⟩
        ⟨waiters.map .fire ++ rest, { world with store }⟩
  | refuse {target outcome rest world} : world.store.settle target outcome = none →
      Routine mayPanic ⟨.give target outcome :: rest, world⟩ ⟨rest, world⟩
  | link {source target waiters rest world store} : target < world.store.cells.size →
      world.store.linkTo source target = .ok (waiters, store) →
      Routine mayPanic ⟨.link source target :: rest, world⟩
        ⟨waiters.map (.hand target) ++ rest, { world with store }⟩
  | bar {source target fault rest world} : world.store.linkTo source target = .error fault →
      Routine mayPanic ⟨.link source target :: rest, world⟩ ⟨rest, world⟩
  | abandon {source target rest world} : mayPanic →
      Routine mayPanic ⟨.link source target :: rest, world⟩ ⟨rest, world⟩

/-- What a client may do at any time, with the cells and with what is its own. -/
inductive Free : Moment α β ε ω → Moment α β ε ω → Prop where
  /-- Take a duty of the client over, to do it by other steps or not at all. -/
  | begin {body seen rest world} : Free ⟨.answer body seen :: rest, world⟩ ⟨rest, world⟩
  | make {cell duties world} : cell.link = none → cell.waiters = [] →
      Free ⟨duties, world⟩ ⟨duties, { world with store := (world.store.make cell).2 }⟩
  | settle {id outcome waiters duties world store} :
      world.store.settle id outcome = some (waiters, store) →
      Free ⟨duties, world⟩ ⟨waiters.map .fire ++ duties, { world with store }⟩
  | link {id target waiters duties world store} : target < world.store.cells.size →
      world.store.linkTo id target = .ok (waiters, store) →
      Free ⟨duties, world⟩ ⟨waiters.map (.hand target) ++ duties, { world with store }⟩
  | register {id continuation duties world} : id < world.store.cells.size →
      Free ⟨duties, world⟩ ⟨.hand id (world.store.enroll id continuation).1 :: duties,
        ({ world with store := (world.store.enroll id continuation).2 }).log
          (.registered world.store.registered id)⟩
  | latch {latches duties world} :
      Free ⟨duties, world⟩ ⟨duties, { world with store := { world.store with latches } }⟩
  | note {entry duties world} : Free ⟨duties, world⟩ ⟨duties, world.log (.noted entry)⟩
  | opened {latch duties world} : Free ⟨duties, world⟩ ⟨duties, world.log (.opened latch)⟩
  | converted {input duties world} : Free ⟨duties, world⟩ ⟨duties, world.log (.converted input)⟩
  | own {outer duties world} : Free ⟨duties, world⟩ ⟨duties, { world with outer }⟩

/-- A small step, of the operations in progress or of a client. -/
inductive Move (before after : Moment α β ε ω) : Prop where
  | routine : Routine True before after → Move before after
  | free : Free before after → Move before after

theorem Routine.weaken {mayPanic : Prop} {before after : Moment α β ε ω}
    (step : Routine mayPanic before after) : Routine True before after := by
  cases step with
  | park parked => exact .park parked
  | ready refused => exact .ready refused
  | call kind => exact .call kind
  | arrive kind arrived => exact .arrive kind arrived
  | opens kind arrived => exact .opens kind arrived
  | derive kind shown made => exact .derive kind shown made
  | spoil _ kind shown made => exact .spoil trivial kind shown made
  | pass kind shown => exact .pass kind shown
  | skip kind shown => exact .skip kind shown
  | give settled => exact .give settled
  | refuse refused => exact .refuse refused
  | link bound linked => exact .link bound linked
  | bar refused => exact .bar refused
  | abandon => exact .abandon trivial

theorem Routine.change {mayPanic : Prop} {before after : Moment α β ε ω}
    (step : Routine mayPanic before after) : before.world.store.Change after.world.store := by
  cases step with
  | park parked => exact .park parked
  | arrive _ arrived | opens _ arrived => exact .other (Store.cells_of_arriveAt arrived)
  | give settled => exact .settle settled
  | link bound linked => exact .link bound linked
  | _ => exact .other rfl

theorem Routine.keeps {mayPanic : Prop} {before after : Moment α β ε ω}
    (step : Routine mayPanic before after) (sound : before.world.store.Sound) :
    before.world.store.Keeps after.world.store := step.change.keeps sound

theorem Move.change {before after : Moment α β ε ω} (move : Move before after) :
    before.world.store.Change after.world.store := by
  cases move with
  | routine step => exact step.change
  | free step =>
    cases step with
    | make free nobody => exact .make free nobody
    | settle settled => exact .settle settled
    | link bound linked => exact .link bound linked
    | _ => exact .other rfl

/-- Any number of steps. -/
abbrev Steps (step : Moment α β ε ω → Moment α β ε ω → Prop) :
    Moment α β ε ω → Moment α β ε ω → Prop := Relation.ReflTransGen step

/-- What every step keeps, a run keeps. -/
theorem Steps.keep {step : Moment α β ε ω → Moment α β ε ω → Prop}
    {holds : Moment α β ε ω → Prop} (kept : ∀ {before after}, step before after → holds before → holds after)
    {before after : Moment α β ε ω} (steps : Steps step before after) (start : holds before) :
    holds after := by
  induction steps with
  | refl => exact start
  | tail _ step ih => exact kept step ih

theorem Steps.weaken {step other : Moment α β ε ω → Moment α β ε ω → Prop}
    (weaker : ∀ {before after}, step before after → other before after) {before after : Moment α β ε ω}
    (steps : Steps step before after) : Steps other before after :=
  Relation.ReflTransGen.mono (fun _ _ => weaker) _ _ steps

/-! ## What is outstanding -/

/-- The waiters in the cells. -/
def Store.waiters (store : Store α β) : List (Waiter α β) :=
  store.cells.toList.flatMap (·.waiters)

theorem Store.mem_waiters {store : Store α β} {waiter : Waiter α β} :
    waiter ∈ store.waiters ↔ ∃ id cell, store.cell? id = some cell ∧ waiter ∈ cell.waiters := by
  simp only [waiters, List.mem_flatMap, Array.mem_toList_iff, Array.mem_iff_getElem?, cell?]
  constructor
  · rintro ⟨cell, ⟨id, found⟩, member⟩
    exact ⟨id, cell, found, member⟩
  · rintro ⟨id, cell, found, member⟩
    exact ⟨cell, ⟨id, found⟩, member⟩

@[simp] theorem Store.waiters_make (store : Store α β) {cell : Cell α β} (nobody : cell.waiters = []) :
    (store.make cell).2.waiters = store.waiters := by
  simp [waiters, make, nobody]

theorem Store.waiters_put {store : Store α β} {id : CellId} {old : Cell α β}
    (found : store.cell? id = some old) (new : Cell α β) :
    ((store.put id new).waiters ++ old.waiters).Perm (store.waiters ++ new.waiters) := by
  obtain ⟨bound, here⟩ := Array.getElem?_eq_some_iff.1 found
  have inside : id < store.cells.toList.length := bound
  -- Only the cell between the same others is another one.
  have before : store.cells.toList =
      store.cells.toList.take id ++ old :: store.cells.toList.drop (id + 1) := by
    rw [← here, ← Array.getElem_toList, List.getElem_cons_drop, List.take_append_drop]
  have after : (store.put id new).cells.toList =
      store.cells.toList.take id ++ new :: store.cells.toList.drop (id + 1) := by
    simp only [put, Array.toList_setIfInBounds, List.set_eq_take_append_cons_drop, if_pos inside]
  unfold waiters
  rw [after, before]
  simp only [List.flatMap_append, List.flatMap_cons, List.append_assoc]
  rw [← before]
  refine List.Perm.append_left _ ?_
  calc (new.waiters ++ ((store.cells.toList.drop (id + 1)).flatMap (·.waiters) ++ old.waiters)).Perm
        (new.waiters ++ (old.waiters ++ (store.cells.toList.drop (id + 1)).flatMap (·.waiters))) :=
        List.perm_append_comm.append_left _
    List.Perm _ (old.waiters ++ ((store.cells.toList.drop (id + 1)).flatMap (·.waiters) ++ new.waiters)) :=
        List.perm_append_comm.trans (by rw [List.append_assoc])

theorem Store.waiters_settle {store next : Store α β} {id : CellId} {outcome : Outcome α}
    {waiters : List (Waiter α β)} (settled : store.settle id outcome = some (waiters, next)) :
    (waiters ++ next.waiters).Perm store.waiters := by
  obtain ⟨cell, found, -, -, rfl, rfl⟩ := settle_eq_some_iff.1 settled
  have moved := waiters_put found { cell with outcome := some outcome, waiters := [] }
  exact List.perm_append_comm.trans (by simpa using moved)

theorem Store.waiters_linkTo {store next : Store α β} {id target : CellId}
    {waiters : List (Waiter α β)} (linked : store.linkTo id target = .ok (waiters, next)) :
    (waiters ++ next.waiters).Perm store.waiters := by
  obtain ⟨cell, found, -, -, -, -, rfl, rfl⟩ := linkTo_eq_ok_iff.1 linked
  have moved := waiters_put found { cell with link := some target, waiters := [] }
  exact List.perm_append_comm.trans (by simpa using moved)

theorem Store.waiters_park {store next : Store α β} {id : CellId} {waiter : Waiter α β}
    (parked : store.park id waiter = some next) : next.waiters.Perm (waiter :: store.waiters) := by
  obtain ⟨cell, found, -, rfl⟩ := park_eq_some_iff.1 parked
  have moved := waiters_put found { cell with waiters := cell.waiters ++ [waiter] }
  rw [← List.append_assoc] at moved
  have front : (store.waiters ++ cell.waiters ++ [waiter]).Perm
      ([waiter] ++ (store.waiters ++ cell.waiters)) := List.perm_append_comm
  have shifted := moved.trans front
  rw [List.singleton_append, ← List.cons_append] at shifted
  exact (List.perm_append_right_iff _).1 shifted

/-- The waiter of a duty that brings it to its run. -/
def Duty.waiter? : Duty α β → Option (Waiter α β)
  | hand _ waiter | fire waiter => some waiter
  | answer .. | give .. | link .. => none

/-- All waiters that have not run, in cells or on their way. -/
def Moment.outstanding (moment : Moment α β ε ω) : List (Waiter α β) :=
  moment.duties.filterMap Duty.waiter? ++ moment.world.store.waiters

/-- Waiters that a cell hands out are on their way. -/
theorem Moment.outstanding_released {rest : List (Duty α β)} {world : World α β ε ω}
    {store : Store α β} {waiters : List (Waiter α β)} (done : List (Duty α β))
    (carry : Waiter α β → Duty α β) (idle : done.filterMap Duty.waiter? = [])
    (carried : ∀ waiter, (carry waiter).waiter? = some waiter)
    (handed : (waiters ++ store.waiters).Perm world.store.waiters) :
    (⟨waiters.map carry ++ rest, { world with store }⟩ : Moment α β ε ω).outstanding.Perm
      (⟨done ++ rest, world⟩ : Moment α β ε ω).outstanding := by
  have taken : (waiters.map carry).filterMap Duty.waiter? = waiters := by
    rw [List.filterMap_map, show Duty.waiter? ∘ carry = some from funext carried]
    exact List.filterMap_some
  simp only [Moment.outstanding, List.filterMap_append, taken, idle, List.nil_append, List.append_assoc]
  calc (waiters ++ (rest.filterMap Duty.waiter? ++ store.waiters)).Perm
        (rest.filterMap Duty.waiter? ++ (waiters ++ store.waiters)) := by
        simp only [← List.append_assoc]
        exact List.perm_append_comm.append_right _
    List.Perm _ (rest.filterMap Duty.waiter? ++ world.store.waiters) := handed.append_left _

theorem Store.waiters_of_cells_eq {store next : Store α β} (same : next.cells = store.cells) :
    next.waiters = store.waiters := by
  unfold waiters
  rw [same]

theorem Store.waiters_arriveAt {store next : Store α β} {latch : LatchId} {body : Option β}
    (arrived : store.arriveAt latch = (body, next)) : next.waiters = store.waiters :=
  waiters_of_cells_eq (cells_of_arriveAt arrived)

/-- The waiter that is about to run. -/
def Moment.running (moment : Moment α β ε ω) : List (Waiter α β) :=
  match moment.duties with
  | .fire waiter :: _ => [waiter]
  | _ => []

/-- A step of the operations in progress runs one waiter or none, and loses none of the others. -/
theorem Routine.outstanding {mayPanic : Prop} {before after : Moment α β ε ω}
    (step : Routine mayPanic before after) :
    before.outstanding.Perm (before.running ++ after.outstanding) := by
  cases step with
  | park parked => exact (((Store.waiters_park parked).append_left _).trans List.perm_middle).symm
  | ready => exact .refl _
  | call => exact .refl _
  | arrive _ arrived | opens _ arrived =>
    simp [Moment.outstanding, Moment.running, List.filterMap_cons, Duty.waiter?,
      Store.waiters_arriveAt arrived]
  | derive => exact .refl _
  | spoil => exact .refl _
  | pass => exact .refl _
  | skip => exact .refl _
  | give settled =>
    exact (Moment.outstanding_released [_] .fire rfl (fun _ => rfl) (Store.waiters_settle settled)).symm
  | refuse => exact .refl _
  | link _ linked =>
    exact (Moment.outstanding_released [_] (.hand _) rfl (fun _ => rfl)
      (Store.waiters_linkTo linked)).symm
  | bar => exact .refl _
  | abandon => exact .refl _

end DeferredJit.Async
