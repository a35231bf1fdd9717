import DeferredJit.Proofs.Async.Arrivals
import DeferredJit.Proofs.Async.Carried
import DeferredJit.Proofs.Async.Operations
import DeferredJit.Proofs.Async.Ownership

/-! What clients add without running any continuation: new cells, latches, and waiters for cells that
are not available. Whatever was there goes on showing what it showed. -/

set_option autoImplicit false

namespace DeferredJit.Async

variable {α β ε ω : Type}

def World.make (world : World α β ε ω) (cell : Cell α β) : World α β ε ω :=
  { world with store := (world.store.make cell).2 }

theorem World.lt_size_make {world : World α β ε ω} {id : CellId} (inside : id < world.store.cells.size)
    (cell : Cell α β) : id < (world.make cell).store.cells.size := by
  rw [make, Store.size_make]
  exact Nat.lt_succ_of_lt inside

theorem World.new_lt_size_make (world : World α β ε ω) (cell : Cell α β) :
    world.store.cells.size < (world.make cell).store.cells.size := by
  rw [make, Store.size_make]
  exact Nat.lt_succ_self _

theorem World.cell?_make (world : World α β ε ω) (cell : Cell α β) :
    (world.make cell).store.cell? world.store.cells.size = some cell := by
  rw [make, Store.cell?_make, if_pos rfl]

def World.latch (world : World α β ε ω) (latch : Latch β) : World α β ε ω :=
  { world with store := (world.store.makeLatch latch).2 }

theorem World.state_latch (world : World α β ε ω) (latch : Latch β) (id : CellId) :
    (world.latch latch).store.state id = world.store.state id :=
  Store.state_of_cells_eq (by rfl) id

/-- A registration is on record, and its waiter is on its way. -/
def World.enroll (world : World α β ε ω) (id : CellId) (continuation : Continuation α β) :
    World α β ε ω :=
  ({ world with store := (world.store.enroll id continuation).2 }).log
    (.registered world.store.registered id)

/-- The same new cell several times. -/
def World.makeMany (world : World α β ε ω) (cell : Cell α β) : (count : Nat) → World α β ε ω
  | 0 => world
  | count + 1 => (world.make cell).makeMany cell count

theorem World.size_makeMany (world : World α β ε ω) (cell : Cell α β) (count : Nat) :
    (world.makeMany cell count).store.cells.size = world.store.cells.size + count := by
  induction count generalizing world with
  | zero => rfl
  | succ count ih =>
    rw [makeMany, ih, make, Store.size_make]
    omega

theorem World.outer_makeMany (world : World α β ε ω) (cell : Cell α β) (count : Nat) :
    (world.makeMany cell count).outer = world.outer := by
  induction count generalizing world with
  | zero => rfl
  | succ count ih => exact ih _

theorem World.history_makeMany (world : World α β ε ω) (cell : Cell α β) (count : Nat) :
    (world.makeMany cell count).history = world.history := by
  induction count generalizing world with
  | zero => rfl
  | succ count ih => exact ih _

theorem World.latches_makeMany (world : World α β ε ω) (cell : Cell α β) (count : Nat) :
    (world.makeMany cell count).store.latches = world.store.latches := by
  induction count generalizing world with
  | zero => rfl
  | succ count ih => exact ih _

theorem World.waiters_makeMany (world : World α β ε ω) {cell : Cell α β} (nobody : cell.waiters = [])
    (count : Nat) : (world.makeMany cell count).store.waiters = world.store.waiters := by
  induction count generalizing world with
  | zero => rfl
  | succ count ih => exact (ih _).trans (Store.waiters_make world.store nobody)

/-- The new cells, in order. -/
theorem World.cell?_makeMany (world : World α β ε ω) (cell : Cell α β) (count : Nat) {id : CellId}
    (member : id ∈ List.range' world.store.cells.size count) :
    (world.makeMany cell count).store.cell? id = some cell := by
  have older (world : World α β ε ω) (count : Nat) {other : CellId} {found : Cell α β}
      (here : world.store.cell? other = some found) :
      (world.makeMany cell count).store.cell? other = some found := by
    induction count generalizing world with
    | zero => exact here
    | succ count ih =>
      refine ih (world.make cell) ?_
      rw [make, Store.cell?_make, if_neg (Nat.ne_of_lt (Store.lt_size_of_cell? here)), here]
  induction count generalizing world with
  | zero => simp at member
  | succ count ih =>
    rw [List.range'_succ] at member
    rcases List.mem_cons.1 member with rfl | later
    · exact older (world.make cell) count (world.cell?_make cell)
    · refine ih (world.make cell) ?_
      rwa [make, Store.size_make]

theorem World.enroll_cells (world : World α β ε ω) (id : CellId) (continuation : Continuation α β) :
    (world.enroll id continuation).store.cells = world.store.cells := rfl

/-- A registration that waits. -/
def World.Waits (world : World α β ε ω) (id : CellId) (continuation : Continuation α β)
    (next : World α β ε ω) : Prop :=
  ∃ store, (world.enroll id continuation).store.park id (world.store.enroll id continuation).1 =
    some store ∧ next = { world.enroll id continuation with store }

theorem Store.park_of_unavailable {store : Store α β} (sound : store.Sound) {id : CellId}
    (bound : id < store.cells.size) (unavailable : store.state id = none) (waiter : Waiter α β) :
    ∃ next, store.park id waiter = some next := by
  obtain ⟨cell, found⟩ : ∃ cell, store.cell? (store.last id) = some cell :=
    ⟨_, Array.getElem?_eq_getElem (sound.last_lt bound)⟩
  refine ⟨_, park_eq_some_iff.2 ⟨cell, found, ?_, rfl⟩⟩
  simpa [state, found] using unavailable

/-- To register on a cell that is not available is to wait for it. -/
theorem register_waits {world : World α β ε ω} (sound : world.store.Sound) {id : CellId}
    (bound : id < world.store.cells.size) (unavailable : world.store.state id = none)
    (fire : Fire α β ε ω) (continuation : Continuation α β) :
    ∃ next, register fire id continuation world = (.ok (), next) ∧ world.Waits id continuation next := by
  have same := world.enroll_cells id continuation
  obtain ⟨store, parked⟩ := Store.park_of_unavailable (sound.of_cells_eq same) bound
    ((Store.state_of_cells_eq same id).trans unavailable) (world.store.enroll id continuation).1
  refine ⟨{ world.enroll id continuation with store }, ?_, store, parked, rfl⟩
  change hand fire id (world.store.enroll id continuation).1 (world.enroll id continuation) = _
  rw [hand_apply, parked]

namespace World.Waits

variable {world next : World α β ε ω} {id : CellId} {continuation : Continuation α β}

theorem outer (waits : world.Waits id continuation next) : next.outer = world.outer := by
  obtain ⟨store, -, rfl⟩ := waits
  rfl

theorem history (waits : world.Waits id continuation next) :
    next.history = .registered world.store.registered id :: world.history := by
  obtain ⟨store, -, rfl⟩ := waits
  rfl

theorem size (waits : world.Waits id continuation next) :
    next.store.cells.size = world.store.cells.size := by
  obtain ⟨store, parked, rfl⟩ := waits
  exact (Store.aligned_park parked).size

theorem latches (waits : world.Waits id continuation next) :
    next.store.latches = world.store.latches := by
  obtain ⟨store, parked, rfl⟩ := waits
  exact (Store.aligned_park parked).latches

theorem registered (waits : world.Waits id continuation next) :
    next.store.registered = world.store.registered + 1 := by
  obtain ⟨store, parked, rfl⟩ := waits
  exact (Store.aligned_park parked).registered

theorem waiters (waits : world.Waits id continuation next) :
    next.store.waiters.Perm (⟨world.store.registered, id, continuation⟩ :: world.store.waiters) := by
  obtain ⟨store, parked, rfl⟩ := waits
  have moved := Store.waiters_park parked
  exact moved

theorem measure (waits : world.Waits id continuation next) (measure : Measure α β) :
    measure.store next.store =
      measure.waiter ⟨world.store.registered, id, continuation⟩ + measure.store world.store := by
  obtain ⟨store, parked, rfl⟩ := waits
  have moved := measure.store_park parked
  exact moved

theorem state (waits : world.Waits id continuation next) (sound : world.store.Sound) (other : CellId) :
    next.store.state other = world.store.state other := by
  obtain ⟨store, parked, rfl⟩ := waits
  have same := world.enroll_cells id continuation
  have grounded := (sound.of_cells_eq same).grounded
  exact (Store.state_park grounded parked other).trans (Store.state_of_cells_eq same other)

theorem last (waits : world.Waits id continuation next) (sound : world.store.Sound) (other : CellId) :
    next.store.last other = world.store.last other := by
  obtain ⟨store, parked, rfl⟩ := waits
  have same := world.enroll_cells id continuation
  have grounded := (sound.of_cells_eq same).grounded
  exact (Store.last_park grounded parked other).trans (Store.last_of_cells_eq same other)

theorem blank (waits : world.Waits id continuation next) {other : CellId}
    (blank : world.store.Blank other) : next.store.Blank other := by
  obtain ⟨store, parked, rfl⟩ := waits
  exact (blank.of_cells_eq (world.enroll_cells id continuation)).park parked

end World.Waits

/-- The same continuation waits for several cells, one after the other. -/
inductive World.WaitsEach (continuation : Continuation α β) :
    List CellId → World α β ε ω → World α β ε ω → Prop where
  | nil {world} : WaitsEach continuation [] world world
  | cons {id ids world between next} : id < world.store.cells.size →
      world.Waits id continuation between → WaitsEach continuation ids between next →
      WaitsEach continuation (id :: ids) world next

/-! ## Additions, one at a time -/

inductive Grow (world : World α β ε ω) : World α β ε ω → Prop where
  | make {cell} : cell.link = none → cell.waiters = [] → Grow world (world.make cell)
  | note {entry} : Grow world (world.log (.noted entry))
  | opened {latch} : Grow world (world.log (.opened latch))
  | converted {input} : Grow world (world.log (.converted input))
  | own {outer} : Grow world { world with outer }
  | latch {latch} : Grow world (world.latch latch)
  | waits {id continuation next} : id < world.store.cells.size → world.Waits id continuation next →
      Grow world next

abbrev Grows : World α β ε ω → World α β ε ω → Prop := Relation.ReflTransGen Grow

theorem Grow.moves {world next : World α β ε ω} (grow : Grow world next) (duties : List (Duty α β)) :
    Steps Move ⟨duties, world⟩ ⟨duties, next⟩ := by
  cases grow with
  | make free nobody => exact .single (.free (.make free nobody))
  | note => exact .single (.free .note)
  | opened => exact .single (.free .opened)
  | converted => exact .single (.free .converted)
  | own => exact .single (.free .own)
  | latch => exact .single (.free .latch)
  | waits bound waits =>
    obtain ⟨store, parked, rfl⟩ := waits
    exact .tail (.single (.free (.register bound))) (.routine (.park parked))

theorem Grow.sound {world next : World α β ε ω} (grow : Grow world next) (sound : world.store.Sound) :
    next.store.Sound := by
  cases grow with
  | make free nobody => exact sound.make free nobody
  | waits bound waits =>
    obtain ⟨store, parked, rfl⟩ := waits
    exact (Store.Change.park parked).sound (sound.of_cells_eq (world.enroll_cells _ _))
  | _ => exact sound.of_cells_eq rfl

theorem World.WaitsEach.grows {continuation : Continuation α β} {ids : List CellId}
    {world next : World α β ε ω} (waits : World.WaitsEach continuation ids world next) :
    Grows world next := by
  induction waits with
  | nil => exact .refl
  | cons bound waits _ ih => exact .head (.waits bound waits) ih

theorem World.grows_makeMany (world : World α β ε ω) {cell : Cell α β} (free : cell.link = none)
    (nobody : cell.waiters = []) (count : Nat) : Grows world (world.makeMany cell count) := by
  induction count generalizing world with
  | zero => exact .refl
  | succ count ih => exact .head (.make free nobody) (ih _)

namespace Grows

variable {world next : World α β ε ω}

theorem moves (grows : Grows world next) (duties : List (Duty α β)) :
    Steps Move ⟨duties, world⟩ ⟨duties, next⟩ := by
  induction grows with
  | refl => exact .refl
  | tail _ grow ih => exact ih.trans (grow.moves duties)

theorem sound (grows : Grows world next) (sound : world.store.Sound) : next.store.Sound := by
  induction grows with
  | refl => exact sound
  | tail _ grow ih => exact grow.sound ih

theorem size_le (grows : Grows world next) : world.store.cells.size ≤ next.store.cells.size := by
  induction grows with
  | refl => exact Nat.le_refl _
  | tail _ grow ih =>
    refine Nat.le_trans ih ?_
    cases grow with
    | make => simp [World.make]
    | waits _ waits => exact Nat.le_of_eq waits.size.symm
    | _ => exact Nat.le_refl _

/-- What was there shows what it showed. -/
theorem state (grows : Grows world next) (sound : world.store.Sound) {id : CellId}
    (bound : id < world.store.cells.size) : next.store.state id = world.store.state id := by
  induction grows with
  | refl => rfl
  | @tail between _ before grow ih =>
    have soundBetween := Grows.sound before sound
    have inside := Nat.lt_of_lt_of_le bound (size_le before)
    rw [← ih]
    -- A new cell is not this one, and no other addition changes what is shown.
    cases grow with
    | make free _ => exact (Store.state_make soundBetween free id).trans (if_neg (Nat.ne_of_lt inside))
    | waits _ waits => exact waits.state soundBetween id
    | _ => exact Store.state_of_cells_eq (by rfl) id

/-- New cells are linked to nothing, and nothing is linked to them. -/
theorem last (grows : Grows world next) (sound : world.store.Sound) (id : CellId) :
    next.store.last id = world.store.last id := by
  induction grows with
  | refl => rfl
  | tail before grow ih =>
    have soundBetween := Grows.sound before sound
    rw [← ih]
    cases grow with
    | make free _ => exact Store.last_make soundBetween.grounded free id
    | waits _ waits => exact waits.last soundBetween id
    | _ => exact Store.last_of_cells_eq (by rfl) id

theorem blank (grows : Grows world next) {id : CellId} (blank : world.store.Blank id) :
    next.store.Blank id := by
  induction grows with
  | refl => exact blank
  | tail _ grow ih =>
    cases grow with
    | make => exact ih.make _
    | waits _ waits => exact waits.blank ih
    | _ => exact ih.of_cells_eq rfl

theorem keeps (grows : Grows world next) (sound : world.store.Sound) :
    world.store.Keeps next.store := by
  induction grows with
  | refl => exact .refl _
  | @tail between _ before grow ih =>
    have soundBetween := Grows.sound before sound
    refine ih.trans ?_
    cases grow with
    | make free _ => exact .make soundBetween free
    | waits _ waits =>
      obtain ⟨store, parked, rfl⟩ := waits
      have same := between.enroll_cells
      exact (Store.Keeps.of_cells_eq (same _ _)).trans
        (.park (soundBetween.of_cells_eq (same _ _)).grounded parked)
    | _ => exact .of_cells_eq rfl

/-- Waiters and latches are added to those there are. -/
theorem waiters (grows : Grows world next) :
    ∃ more, next.store.waiters.Perm (more ++ world.store.waiters) := by
  induction grows with
  | refl => exact ⟨[], .refl _⟩
  | tail _ grow ih =>
    obtain ⟨more, same⟩ := ih
    cases grow with
    | make _ nobody =>
      refine ⟨more, ?_⟩
      rw [World.make, Store.waiters_make _ nobody]
      exact same
    | waits _ waits => exact ⟨_ :: more, waits.waiters.trans (same.cons _)⟩
    | _ => exact ⟨more, same⟩

theorem latches (grows : Grows world next) :
    ∃ more, next.store.latches = world.store.latches ++ more := by
  induction grows with
  | refl => exact ⟨[], (List.append_nil _).symm⟩
  | tail _ grow ih =>
    obtain ⟨more, same⟩ := ih
    cases grow with
    | @latch latch => exact ⟨more ++ [latch], by simp [World.latch, Store.makeLatch, same]⟩
    | waits _ waits => exact ⟨more, waits.latches.trans same⟩
    | _ => exact ⟨more, same⟩

end Grows

/-! ## Waiting for several cells -/

/-- Registrations on cells that are not available wait, one after the other. -/
theorem each_waits {world : World α β ε ω} (fire : Fire α β ε ω) (continuation : Continuation α β)
    {ids : List CellId} (sound : world.store.Sound) (inside : ∀ id ∈ ids, id < world.store.cells.size)
    (pending : ∀ id ∈ ids, world.store.state id = none) :
    ∃ next, Act.each (fun id => register fire id continuation) ids world = (.ok (), next) ∧
      World.WaitsEach continuation ids world next := by
  induction ids generalizing world with
  | nil => exact ⟨world, rfl, .nil⟩
  | cons id ids ih =>
    have bound := inside id List.mem_cons_self
    obtain ⟨between, registered, waits⟩ :=
      register_waits sound bound (pending id List.mem_cons_self) fire continuation
    have soundBetween := (Grow.waits bound waits).sound sound
    obtain ⟨next, rest, waitsEach⟩ := ih soundBetween
      (fun other member => waits.size ▸ inside other (List.mem_cons_of_mem _ member))
      (fun other member => (waits.state sound other).trans (pending other (List.mem_cons_of_mem _ member)))
    exact ⟨next, (Act.bind_ok registered).trans rest, .cons bound waits waitsEach⟩

/-- To wait for cells of which some are not available is to wait for those, with a new latch. -/
theorem whenAll_waits {world : World α β ε ω} (fire : Fire α β ε ω) {ids : List CellId} (body : β)
    (now : Action α β ε ω Unit) (sound : world.store.Sound) (inside : ∀ id ∈ ids, id < world.store.cells.size)
    {missing : List CellId} (pending : ids.filter (fun id => !world.store.isAvailable id) = missing)
    (some : missing ≠ []) :
    ∃ next, whenAll fire ids body now world = (.ok (), next) ∧
      World.WaitsEach (.arrive world.store.latches.length) missing
        (world.latch ⟨missing.length, body⟩) next := by
  have latched : whenAll fire ids body now world =
      (if missing.isEmpty then openLatch world.store.latches.length now
      else Act.each (fun id => register fire id (.arrive world.store.latches.length)) missing)
        (world.latch ⟨missing.length, body⟩) := by
    subst pending
    rfl
  have among {id : CellId} (member : id ∈ missing) : id ∈ ids ∧ world.store.state id = none := by
    rw [← pending] at member
    obtain ⟨member, unavailable⟩ := List.mem_filter.1 member
    exact ⟨member, by simpa [Store.isAvailable] using unavailable⟩
  obtain ⟨next, registered, waits⟩ := each_waits fire (.arrive world.store.latches.length)
    (show (world.latch ⟨missing.length, body⟩).store.Sound from sound.of_cells_eq rfl)
    (fun id member => inside id (among member).1)
    (fun id member => (world.state_latch _ id).trans (among member).2)
  refine ⟨next, ?_, waits⟩
  rw [latched, if_neg (by simpa using some)]
  exact registered

/-- One waiter for each cell. -/
theorem World.WaitsEach.waiters {continuation : Continuation α β} {ids : List CellId}
    {before after : World α β ε ω} (waits : World.WaitsEach continuation ids before after) :
    ∃ new : List (Waiter α β), after.store.waiters.Perm (new ++ before.store.waiters) ∧
      new.map (·.home) = ids ∧ ∀ waiter ∈ new, waiter.continuation = continuation := by
  induction waits with
  | nil => exact ⟨[], .refl _, rfl, by simp⟩
  | @cons id ids before between after bound waits _ ih =>
    obtain ⟨new, same, homes, each⟩ := ih
    refine ⟨⟨before.store.registered, id, continuation⟩ :: new, ?_, by rw [List.map_cons, homes], ?_⟩
    · exact same.trans ((waits.waiters.append_left new).trans List.perm_middle)
    · intro waiter member
      rcases List.mem_cons.1 member with rfl | later
      · rfl
      · exact each waiter later

theorem World.WaitsEach.outstanding {continuation : Continuation α β} {ids : List CellId}
    {before after : World α β ε ω} (waits : World.WaitsEach continuation ids before after)
    (duties : List (Duty α β)) : ∃ new : List (Waiter α β),
      (Moment.outstanding ⟨duties, after⟩).Perm (new ++ Moment.outstanding ⟨duties, before⟩) ∧
        new.map (·.home) = ids ∧ ∀ waiter ∈ new, waiter.continuation = continuation := by
  obtain ⟨new, added, homes, each⟩ := waits.waiters
  refine ⟨new, (added.append_left _).trans ?_, homes, each⟩
  simp only [Moment.outstanding, ← List.append_assoc]
  exact List.perm_append_comm.append_right _

theorem World.WaitsEach.mem_outstanding {continuation : Continuation α β} {ids : List CellId}
    {before after : World α β ε ω} (waits : World.WaitsEach continuation ids before after)
    (duties : List (Duty α β)) {id : CellId} (member : id ∈ ids) :
    ∃ waiter ∈ Moment.outstanding ⟨duties, after⟩,
      waiter.continuation = continuation ∧ waiter.home = id := by
  obtain ⟨new, same, rfl, each⟩ := waits.outstanding duties
  obtain ⟨waiter, among, home⟩ := List.mem_map.1 member
  exact ⟨waiter, same.mem_iff.2 (List.mem_append_left _ among), each waiter among, home⟩

/-- A latch that misses one arrival for each of these cells is waited for by nobody else. -/
theorem World.WaitsEach.home_mem {latch : LatchId} {ids : List CellId} {before after : World α β ε ω}
    (waits : World.WaitsEach (.arrive latch) ids before after) {duties : List (Duty α β)}
    (latched : Moment.Latched ⟨duties, after⟩) (missing : after.store.missing latch = ids.length)
    {waiter : Waiter α β} (member : waiter ∈ Moment.outstanding ⟨duties, after⟩)
    (kind : waiter.continuation = .arrive latch) : waiter.home ∈ ids := by
  obtain ⟨new, same, rfl, each⟩ := waits.outstanding duties
  rcases List.mem_append.1 (same.mem_iff.1 member) with fresh | old
  · exact List.mem_map_of_mem fresh
  · have total := (same.filterMap (·.continuation.arrival?)).count_eq latch
    have newcomers : new.filterMap (·.continuation.arrival?) = List.replicate new.length latch := by
      clear same total member missing waits
      induction new with
      | nil => rfl
      | cons first rest ih =>
        have arrives : first.continuation.arrival? = some latch := by
          rw [each first List.mem_cons_self]
          rfl
        rw [List.filterMap_cons, arrives, ih fun other among => each other (List.mem_cons_of_mem _ among)]
        rfl
    have counted : 0 < ((Moment.outstanding ⟨duties, before⟩).filterMap (·.continuation.arrival?)).count latch :=
      List.count_pos_iff.2 (List.mem_filterMap.2 ⟨waiter, old, by rw [kind]; rfl⟩)
    have missed := latched latch
    unfold Moment.arrivals at missed
    rw [List.filterMap_append, List.count_append, newcomers, List.count_replicate_self] at total
    rw [missing, List.length_map] at missed
    omega

/-! ## What additions keep -/

theorem Store.last_of_size_le {store : Store α β} {id : CellId} (missing : store.cells.size ≤ id) :
    store.last id = id := by
  have absent : store.cell? id = none := Array.getElem?_eq_none missing
  exact last_of_link?_eq_none (by simp [link?, absent])

theorem Store.state_of_size_le {store : Store α β} {id : CellId} (missing : store.cells.size ≤ id) :
    store.state id = none := by
  have absent : store.cell? id = none := Array.getElem?_eq_none missing
  rw [state, last_of_size_le missing, absent]
  rfl

/-- New cells without an outcome show no more than cells that do not exist. -/
theorem World.state_make {world : World α β ε ω} (sound : world.store.Sound) {cell : Cell α β}
    (unsettled : cell.outcome = none) (free : cell.link = none) (id : CellId) :
    (world.make cell).store.state id = world.store.state id := by
  rw [make, Store.state_make sound free]
  split
  · rename_i new
    rw [unsettled, Store.state_of_size_le (Nat.le_of_eq new.symm)]
  · rfl

/-- What a call returns and leaves that derives a cell from one that shows a value. -/
theorem derived_of_value {world : World α β ε ω} {source : CellId} {value : α}
    (shown : world.store.state source = some (.ok value)) (fire : Fire α β ε ω) (convert : α → Made α) :
    derived fire source convert world =
      (Act.lift (convert value) >>= makeSettled) (world.log (.converted value)) := by
  have seen : stateOf source world = (.ok (some (.ok value)), world) := by
    rw [← shown]
    rfl
  unfold derived
  rw [Act.bind_ok seen]
  rfl

theorem derived_of_failure {world : World α β ε ω} {source : CellId} {failure : Failure}
    (shown : world.store.state source = some (.error failure)) (fire : Fire α β ε ω) (convert : α → Made α) :
    derived fire source convert world =
      (.ok world.store.cells.size, world.make { outcome := some (.error failure) }) := by
  have seen : stateOf source world = (.ok (some (.error failure)), world) := by
    rw [← shown]
    rfl
  unfold derived
  rw [Act.bind_ok seen]
  rfl

/-- A cell that is derived from one that is not available waits for it. -/
theorem derived_of_pending {world : World α β ε ω} (sound : world.store.Sound) {source : CellId}
    (inside : source < world.store.cells.size) (shown : world.store.state source = none) (fire : Fire α β ε ω)
    (convert : α → Made α) : ∃ next, derived fire source convert world = (.ok world.store.cells.size, next) ∧
      (world.make {}).Waits source (.derive world.store.cells.size convert) next := by
  have seen : stateOf source world = (.ok none, world) := by
    rw [← shown]
    rfl
  obtain ⟨next, registered, waits⟩ := register_waits (sound.make rfl rfl) (World.lt_size_make inside {})
    ((world.state_make sound rfl rfl source).trans shown) fire (.derive world.store.cells.size convert)
  refine ⟨next, ?_, waits⟩
  unfold derived
  rw [Act.bind_ok seen]
  change (makePending >>= _) world = _
  rw [makePending, Act.bind_ok (onStore_apply ..)]
  exact Act.bind_ok registered

theorem World.state_makeMany {world : World α β ε ω} (sound : world.store.Sound) {cell : Cell α β}
    (unsettled : cell.outcome = none) (free : cell.link = none) (nobody : cell.waiters = [])
    (count : Nat) (id : CellId) : (world.makeMany cell count).store.state id = world.store.state id := by
  induction count generalizing world with
  | zero => rfl
  | succ count ih =>
    exact (ih (sound.make free nobody)).trans (world.state_make sound unsettled free id)

theorem World.WaitsEach.state {continuation : Continuation α β} {ids : List CellId}
    {world next : World α β ε ω} (waits : World.WaitsEach continuation ids world next)
    (sound : world.store.Sound) (id : CellId) : next.store.state id = world.store.state id := by
  induction waits with
  | nil => rfl
  | cons bound waits _ ih =>
    exact (ih ((Grow.waits bound waits).sound sound)).trans (waits.state sound id)

theorem World.WaitsEach.outer {continuation : Continuation α β} {ids : List CellId}
    {world next : World α β ε ω} (waits : World.WaitsEach continuation ids world next) :
    next.outer = world.outer := by
  induction waits with
  | nil => rfl
  | cons _ waits _ ih => exact ih.trans waits.outer

theorem World.WaitsEach.measure {continuation : Continuation α β} {ids : List CellId}
    {world next : World α β ε ω} (waits : World.WaitsEach continuation ids world next)
    (measure : Measure α β) {each : Nat}
    (same : ∀ serial home, measure.waiter ⟨serial, home, continuation⟩ = each) :
    measure.store next.store = ids.length * each + measure.store world.store := by
  induction waits with
  | nil => simp
  | cons _ waits _ ih =>
    rw [ih, waits.measure measure, same, List.length_cons, Nat.add_mul]
    omega

theorem World.measure_makeMany (world : World α β ε ω) (measure : Measure α β) {cell : Cell α β}
    (nobody : cell.waiters = []) (count : Nat) :
    measure.store (world.makeMany cell count).store = measure.store world.store := by
  induction count generalizing world with
  | zero => rfl
  | succ count ih => exact (ih _).trans (measure.store_make nobody)

section Kept

variable {duties : List (Duty α β)} {world next : World α β ε ω} {id : CellId}
  {continuation : Continuation α β}

theorem Moment.outstanding_make (duties : List (Duty α β)) (world : World α β ε ω) {cell : Cell α β}
    (nobody : cell.waiters = []) :
    Moment.outstanding ⟨duties, world.make cell⟩ = Moment.outstanding ⟨duties, world⟩ := by
  unfold Moment.outstanding
  rw [World.make, Store.waiters_make world.store nobody]

theorem Moment.outstanding_waits (duties : List (Duty α β)) (waits : world.Waits id continuation next) :
    (Moment.outstanding ⟨duties, next⟩).Perm
      (⟨world.store.registered, id, continuation⟩ :: Moment.outstanding ⟨duties, world⟩) :=
  (waits.waiters.append_left _).trans List.perm_middle

namespace Moment.Carries

variable {holds : Continuation α β → Prop}

theorem make (carries : Carries ⟨duties, world⟩ holds) {cell : Cell α β} (nobody : cell.waiters = []) :
    Carries ⟨duties, world.make cell⟩ holds where
  waiting waiter member := by
    rw [outstanding_make duties world nobody] at member
    exact carries.waiting waiter member
  latched := carries.latched
  asked := carries.asked

theorem makeMany (carries : Carries ⟨duties, world⟩ holds) {cell : Cell α β}
    (nobody : cell.waiters = []) (count : Nat) : Carries ⟨duties, world.makeMany cell count⟩ holds := by
  induction count generalizing world with
  | zero => exact carries
  | succ count ih => exact ih (carries.make nobody)

theorem waits (carries : Carries ⟨duties, world⟩ holds) (new : holds continuation)
    (waits : world.Waits id continuation next) : Carries ⟨duties, next⟩ holds where
  waiting waiter member := by
    rcases List.mem_cons.1 ((outstanding_waits duties waits).mem_iff.1 member) with rfl | old
    · exact new
    · exact carries.waiting waiter old
  latched latch member := carries.latched latch (waits.latches ▸ member)
  asked := carries.asked

theorem waitsEach {ids : List CellId} (carries : Carries ⟨duties, world⟩ holds) (new : holds continuation)
    (waits : World.WaitsEach continuation ids world next) : Carries ⟨duties, next⟩ holds := by
  induction waits with
  | nil => exact carries
  | cons _ waits _ ih => exact ih (carries.waits new waits)

theorem latch (carries : Carries ⟨duties, world⟩ holds) {latch : Latch β} (new : holds (.call latch.body)) :
    Carries ⟨duties, world.latch latch⟩ holds where
  waiting := carries.waiting
  latched other member := by
    rcases List.mem_append.1 member with old | fresh
    · exact carries.latched other old
    · rw [List.mem_singleton.1 fresh]
      exact new
  asked := carries.asked

end Moment.Carries

namespace Moment.Latched

theorem of_perm {before after : Moment α β ε ω} (latched : before.Latched)
    (same : after.arrivals.Perm before.arrivals)
    (latches : after.world.store.latches = before.world.store.latches) : after.Latched := by
  intro latch
  have counted := latched latch
  rw [same.count_eq latch, counted]
  unfold Store.missing
  rw [latches]

theorem makeMany (latched : Latched ⟨duties, world⟩) {cell : Cell α β} (nobody : cell.waiters = [])
    (count : Nat) : Latched ⟨duties, world.makeMany cell count⟩ := by
  refine latched.of_perm (.of_eq ?_) (world.latches_makeMany cell count)
  unfold arrivals outstanding
  rw [world.waiters_makeMany nobody]

theorem waits (latched : Latched ⟨duties, world⟩) (apart : continuation.arrival? = none)
    (waits : world.Waits id continuation next) : Latched ⟨duties, next⟩ := by
  refine latched.of_perm ?_ waits.latches
  have moved := (outstanding_waits duties waits).filterMap (·.continuation.arrival?)
  simp only [List.filterMap_cons, apart] at moved
  exact moved

/-- A new latch that as many wait for as it misses. -/
theorem gather {ids : List CellId} {body : β} (latched : Latched ⟨duties, world⟩)
    (waits : World.WaitsEach (.arrive world.store.latches.length) ids
      (world.latch ⟨ids.length, body⟩) next) : Latched ⟨duties, next⟩ := by
  have arrivals {latch : LatchId} {ids : List CellId} {world next : World α β ε ω}
      (waits : World.WaitsEach (.arrive latch) ids world next) :
      (Moment.arrivals ⟨duties, next⟩).Perm
        (List.replicate ids.length latch ++ Moment.arrivals ⟨duties, world⟩) ∧
      next.store.latches = world.store.latches := by
    induction waits with
    | nil => exact ⟨.refl _, rfl⟩
    | @cons id ids world between next _ waits _ ih =>
      have moved := (outstanding_waits duties waits).filterMap (·.continuation.arrival?)
      refine ⟨ih.1.trans ?_, ih.2.trans waits.latches⟩
      exact (moved.append_left _).trans List.perm_middle
  obtain ⟨moved, same⟩ := arrivals waits
  intro latch
  have counted := latched latch
  rw [moved.count_eq latch, List.count_append, List.count_replicate]
  change _ + (Moment.arrivals ⟨duties, world⟩).count latch = _
  rw [counted]
  simp only [Store.missing, same, World.latch, Store.makeLatch, List.getElem?_append]
  by_cases new : latch = world.store.latches.length
  · simp [new]
  · have apart : ¬ world.store.latches.length = latch := Ne.symm new
    simp only [beq_iff_eq, apart, if_false, Nat.zero_add]
    by_cases old : latch < world.store.latches.length
    · simp [old]
    · have above := Nat.lt_of_le_of_ne (Nat.le_of_not_lt old) (Ne.symm new)
      obtain ⟨beyond, same⟩ := Nat.exists_eq_succ_of_ne_zero (Nat.sub_ne_zero_of_lt above)
      simp [old, same]

end Moment.Latched

namespace Moment.Exclusive

variable {own : β → List CellId}

/-- Nobody sees to the cell or is about to give it an outcome, and it is blank. -/
structure Unclaimed (own : β → List CellId) (moment : Moment α β ε ω) (cell : CellId) : Prop where
  blank : moment.world.store.Blank cell
  unowned : moment.owners own cell = 0
  undue : ∀ outcome, .give cell outcome ∉ moment.duties

/-- Unclaimed cells get an owner each. -/
theorem claim {before after : Moment α β ε ω} {claimed : List CellId} (exclusive : before.Exclusive own)
    (distinct : claimed.Nodup) (free : ∀ cell ∈ claimed, Unclaimed own before cell)
    (more : ∀ cell, after.owners own cell = before.owners own cell + claimed.count cell)
    (same : after.duties = before.duties)
    (grown : before.world.store.cells.size ≤ after.world.store.cells.size)
    (blank : ∀ cell, before.world.store.Blank cell → after.world.store.Blank cell) :
    after.Exclusive own := by
  have unowned (cell : CellId) (member : cell ∈ claimed) := (free cell member).unowned
  have counted (cell : CellId) (other : cell ∉ claimed) := List.count_eq_zero.2 other
  refine ⟨fun cell => ?_, fun cell owned => ?_, fun target outcome member => ?_⟩
  · have once := exclusive.once cell
    have single := List.nodup_iff_count_le_one.1 distinct cell
    have total := more cell
    by_cases member : cell ∈ claimed
    · have none := unowned cell member
      omega
    · have none := counted cell member
      omega
  · by_cases member : cell ∈ claimed
    · exact blank cell (free cell member).blank
    · refine blank cell (exclusive.blank cell ?_)
      rwa [more, counted cell member] at owned
  · rw [same] at member
    obtain ⟨inside, none⟩ := exclusive.given target outcome member
    refine ⟨Nat.lt_of_lt_of_le inside grown, ?_⟩
    rw [more, none, counted target fun among => (free target among).undue outcome member]

theorem owners_make (own : β → List CellId) (duties : List (Duty α β)) (world : World α β ε ω)
    {cell : Cell α β} (nobody : cell.waiters = []) (other : CellId) :
    Moment.owners own ⟨duties, world.make cell⟩ other = Moment.owners own ⟨duties, world⟩ other := by
  unfold Moment.owners Measure.moment World.make
  rw [(Async.owners own other).store_make nobody]

theorem make (exclusive : Exclusive own ⟨duties, world⟩) {cell : Cell α β} (nobody : cell.waiters = []) :
    Exclusive own ⟨duties, world.make cell⟩ :=
  exclusive.fewer (fun other => Nat.le_of_eq (owners_make own duties world nobody other))
    (by simp [World.make]) (fun _ _ blank => blank.make cell) (fun _ _ member => .inl member)

theorem Unclaimed.make {other : CellId} (unclaimed : Unclaimed own ⟨duties, world⟩ other) {cell : Cell α β}
    (nobody : cell.waiters = []) : Unclaimed own ⟨duties, world.make cell⟩ other where
  blank := unclaimed.blank.make cell
  unowned := (owners_make own duties world nobody other).trans unclaimed.unowned
  undue := unclaimed.undue

/-- A new blank cell is unclaimed. -/
theorem unclaimed_make (exclusive : Exclusive own ⟨duties, world⟩) {cell : Cell α β}
    (nobody : cell.waiters = []) (unsettled : cell.outcome = none) (free : cell.link = none) :
    Unclaimed own ⟨duties, world.make cell⟩ world.store.cells.size where
  blank := Store.blank_make world.store unsettled free
  unowned := (owners_make own duties world nobody _).trans (exclusive.unborn (Nat.le_refl _))
  undue outcome member := Nat.lt_irrefl _ (exclusive.given _ outcome member).1

theorem makeMany (exclusive : Exclusive own ⟨duties, world⟩) {cell : Cell α β}
    (nobody : cell.waiters = []) (count : Nat) : Exclusive own ⟨duties, world.makeMany cell count⟩ := by
  induction count generalizing world with
  | zero => exact exclusive
  | succ count ih => exact ih (exclusive.make nobody)

theorem unclaimed_makeMany (exclusive : Exclusive own ⟨duties, world⟩) {cell : Cell α β}
    (nobody : cell.waiters = []) (unsettled : cell.outcome = none) (free : cell.link = none)
    (count : Nat) : ∀ id ∈ List.range' world.store.cells.size count,
      Unclaimed own ⟨duties, world.makeMany cell count⟩ id := by
  have older (world : World α β ε ω) (count : Nat) {other : CellId}
      (unclaimed : Unclaimed own ⟨duties, world⟩ other) :
      Unclaimed own ⟨duties, world.makeMany cell count⟩ other := by
    induction count generalizing world with
    | zero => exact unclaimed
    | succ count ih => exact ih (world.make cell) (unclaimed.make nobody)
  induction count generalizing world with
  | zero => simp
  | succ count ih =>
    intro id member
    rw [List.range'_succ] at member
    rcases List.mem_cons.1 member with rfl | later
    · exact older (world.make cell) count (exclusive.unclaimed_make nobody unsettled free)
    · refine ih (exclusive.make nobody) id ?_
      rwa [World.make, Store.size_make]

/-- A waiter that sees to unclaimed cells. -/
theorem waits (exclusive : Exclusive own ⟨duties, world⟩) (waits : world.Waits id continuation next)
    (distinct : (continuation.owned own).Nodup)
    (free : ∀ cell ∈ continuation.owned own, Unclaimed own ⟨duties, world⟩ cell) :
    Exclusive own ⟨duties, next⟩ := by
  refine exclusive.claim distinct free (fun cell => ?_) rfl (Nat.le_of_eq waits.size.symm)
    (fun _ blank => waits.blank blank)
  have counted : (Async.owners own cell).store next.store =
      (continuation.owned own).count cell + (Async.owners own cell).store world.store :=
    waits.measure (Async.owners own cell)
  simp only [Moment.owners, Measure.moment]
  omega

/-- A latch whose body sees to unclaimed cells. -/
theorem latch (exclusive : Exclusive own ⟨duties, world⟩) {latch : Latch β} (closed : latch.missing ≠ 0)
    (distinct : (own latch.body).Nodup)
    (free : ∀ cell ∈ own latch.body, Unclaimed own ⟨duties, world⟩ cell) :
    Exclusive own ⟨duties, world.latch latch⟩ := by
  refine exclusive.claim distinct free (fun cell => ?_) rfl (Nat.le_refl _) (fun _ blank => blank)
  have counted := (Async.owners own cell).store_makeLatch world.store latch
  rw [Measure.latch, if_neg closed] at counted
  change _ = (own latch.body).count cell + _ at counted
  simp only [Moment.owners, Measure.moment, World.latch]
  omega

/-- What nobody sees to may change hands freely. -/
theorem same_cells (exclusive : Exclusive own ⟨duties, world⟩)
    (next : World α β ε ω) (same : next.store = world.store) : Exclusive own ⟨duties, next⟩ := by
  refine exclusive.fewer (fun cell => ?_) ?_ (fun cell _ blank => ?_) (fun _ _ member => .inl member)
  · simp only [Moment.owners, Measure.moment, same, Nat.le_refl]
  · simp only [same, Nat.le_refl]
  · simpa only [same] using blank

/-- Waiters that see to no cell. -/
theorem waitsEach {ids : List CellId} (exclusive : Exclusive own ⟨duties, world⟩)
    (idle : continuation.owned own = []) (waits : World.WaitsEach continuation ids world next) :
    Exclusive own ⟨duties, next⟩ := by
  induction waits with
  | nil => exact exclusive
  | cons _ waits _ ih => exact ih (exclusive.waits waits (by simp [idle]) (by simp [idle]))

end Moment.Exclusive

end Kept

end DeferredJit.Async
