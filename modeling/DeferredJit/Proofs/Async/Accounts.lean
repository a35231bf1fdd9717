import DeferredJit.Proofs.Async.Moment

/-! Where waiters wait, what they see when they run, and that each of them runs once or waits in one
place. -/

set_option autoImplicit false

namespace DeferredJit.Async

variable {α β ε ω : Type}

/-! ## Seats -/

/-- Waiters wait in the cell that the chain of their home ends in. -/
def Store.Seated (store : Store α β) : Prop :=
  ∀ ⦃id cell waiter⦄, store.cell? id = some cell → waiter ∈ cell.waiters →
    waiter.home < store.cells.size ∧ store.last waiter.home = id

namespace Store.Seated

variable {store next : Store α β} {id target : CellId} {waiters : List (Waiter α β)}

theorem of_cells_eq (seated : store.Seated) (same : next.cells = store.cells) : next.Seated := by
  intro id cell waiter found member
  obtain ⟨bound, ends⟩ := seated (by simpa [cell?, same] using found) member
  exact ⟨same ▸ bound, (last_of_cells_eq same _).trans ends⟩

theorem make (seated : store.Seated) (grounded : store.Grounded) {cell : Cell α β}
    (free : cell.link = none) (nobody : cell.waiters = []) : (store.make cell).2.Seated := by
  intro id selected waiter found member
  rw [cell?_make] at found
  split at found
  · cases found
    simp [nobody] at member
  · obtain ⟨bound, ends⟩ := seated found member
    rw [size_make, last_make grounded free]
    exact ⟨Nat.lt_succ_of_lt bound, ends⟩

theorem settle (seated : store.Seated) (grounded : store.Grounded) {outcome : Outcome α}
    (settled : store.settle id outcome = some (waiters, next)) : next.Seated := by
  have ends := last_settle grounded settled
  obtain ⟨cell, here, -, -, -, rfl⟩ := settle_eq_some_iff.1 settled
  intro other selected waiter found member
  rw [cell?_put here] at found
  split at found
  · cases found
    contradiction
  · rw [size_put, ends]
    exact seated found member

theorem linkTo (seated : store.Seated) (grounded : store.Grounded)
    (linked : store.linkTo id target = .ok (waiters, next)) : next.Seated := by
  have ends := last_linkTo grounded linked
  obtain ⟨cell, here, -, -, -, -, -, rfl⟩ := linkTo_eq_ok_iff.1 linked
  intro other selected waiter found member
  rw [cell?_put here] at found
  split at found
  · cases found
    contradiction
  · rename_i elsewhere
    obtain ⟨bound, last⟩ := seated found member
    rw [size_put, ends, last, if_neg elsewhere]
    exact ⟨bound, rfl⟩

theorem park (seated : store.Seated) (grounded : store.Grounded) {waiter : Waiter α β}
    (bound : waiter.home < store.cells.size) (together : store.last waiter.home = store.last id)
    (parked : store.park id waiter = some next) : next.Seated := by
  have ends := last_park grounded parked
  obtain ⟨cell, here, -, rfl⟩ := park_eq_some_iff.1 parked
  intro other selected member found among
  rw [cell?_put here] at found
  rw [size_put, ends]
  split at found
  · rename_i same
    cases found
    rcases List.mem_append.1 among with before | new
    · exact same ▸ seated here before
    · rw [List.mem_singleton.1 new, together]
      exact ⟨bound, same.symm⟩
  · exact seated found among

/-- Who is handed out by an outcome waited for a cell that shows it now. -/
theorem handed_settle (seated : store.Seated) (grounded : store.Grounded) {outcome : Outcome α}
    (settled : store.settle id outcome = some (waiters, next)) {waiter : Waiter α β}
    (member : waiter ∈ waiters) : next.state waiter.home = some outcome := by
  have shown := state_settle grounded settled waiter.home
  obtain ⟨cell, here, -, -, rfl, -⟩ := settle_eq_some_iff.1 settled
  rw [shown, if_pos (seated here member).2]

/-- Who is handed out by a link waited for a cell that leads to the target now. -/
theorem handed_linkTo (seated : store.Seated) (grounded : store.Grounded)
    (linked : store.linkTo id target = .ok (waiters, next)) {waiter : Waiter α β}
    (member : waiter ∈ waiters) :
    waiter.home < next.cells.size ∧ next.last waiter.home = next.last target := by
  have ends := last_linkTo grounded linked
  have apart := (joins_of_linkTo grounded linked).apart
  have size := (aligned_linkTo linked).size
  obtain ⟨cell, here, -, -, -, -, rfl, -⟩ := linkTo_eq_ok_iff.1 linked
  obtain ⟨bound, last⟩ := seated here member
  rw [ends, ends, if_pos last, if_neg apart, size]
  exact ⟨bound, rfl⟩

end Store.Seated

/-! ## Order -/

/-- A waiter on its way is on its way to where it belongs, and runs when its cell is available. -/
def Duty.Fair (store : Store α β) : Duty α β → Prop
  | hand place waiter => place < store.cells.size ∧ waiter.home < store.cells.size ∧
      store.last waiter.home = store.last place
  | fire waiter => (store.state waiter.home).isSome
  | answer .. | give .. | link .. => True

/-- A waiter that ran saw what its cell shows. -/
def Event.Fair (store : Store α β) : Event α ε → Prop
  | ran _ home seen => seen.isSome ∧ store.state home = seen
  | registered .. | opened _ | converted _ | noted _ => True

theorem Duty.Fair.later {store later : Store α β} {duty : Duty α β} (fair : duty.Fair store)
    (keeps : store.Keeps later) : duty.Fair later := by
  cases duty with
  | hand =>
    obtain ⟨place, home, together⟩ := fair
    exact ⟨Nat.lt_of_lt_of_le place keeps.size_le, Nat.lt_of_lt_of_le home keeps.size_le,
      keeps.last together⟩
  | fire => exact keeps.isSome_state fair
  | answer | give | link => trivial

theorem Event.Fair.later {store later : Store α β} {event : Event α ε} (fair : event.Fair store)
    (keeps : store.Keeps later) : event.Fair later := by
  cases event with
  | ran serial home seen =>
    obtain ⟨shown, same⟩ := fair
    obtain ⟨outcome, rfl⟩ := Option.isSome_iff_exists.1 shown
    exact ⟨shown, keeps.state same⟩
  | registered | opened | converted | noted => trivial

structure Moment.Orderly (moment : Moment α β ε ω) : Prop where
  sound : moment.world.store.Sound
  seated : moment.world.store.Seated
  duties : ∀ duty ∈ moment.duties, duty.Fair moment.world.store
  history : ∀ event ∈ moment.world.history, event.Fair moment.world.store

namespace Moment.Orderly

/-- The first duties make room for others, and the history goes on. -/
theorem next {rest : List (Duty α β)} {world : World α β ε ω} (done more : List (Duty α β))
    (next : World α β ε ω) (orderly : Orderly ⟨done ++ rest, world⟩) (change : world.store.Change next.store)
    (seated : next.store.Seated) (fresh : ∀ duty ∈ more, duty.Fair next.store)
    (events : ∀ event ∈ next.history, event ∈ world.history ∨ event.Fair next.store) :
    Orderly ⟨more ++ rest, next⟩ where
  sound := change.sound orderly.sound
  seated := seated
  duties duty member := by
    rcases List.mem_append.1 member with new | old
    · exact fresh duty new
    · exact (orderly.duties duty (List.mem_append_right done old)).later (change.keeps orderly.sound)
  history event member := by
    rcases events event member with old | new
    · exact (orderly.history event old).later (change.keeps orderly.sound)
    · exact new

theorem start (outer : ω) : Orderly (⟨[], { outer }⟩ : Moment α β ε ω) where
  sound := Store.sound_empty
  seated id cell waiter found := by simp [Store.cell?] at found
  duties duty member := absurd member List.not_mem_nil
  history event member := absurd member List.not_mem_nil

/-- Something that concerns no cell. -/
theorem aside {rest : List (Duty α β)} {world : World α β ε ω} (done : List (Duty α β))
    (store : Store α β) (outer : ω) (orderly : Orderly ⟨done ++ rest, world⟩)
    (same : store.cells = world.store.cells) : Orderly ⟨rest, { world with store, outer }⟩ :=
  orderly.next done [] _ (.other same) (orderly.seated.of_cells_eq same) (by simp)
    fun _ member => .inl member

theorem log {duties : List (Duty α β)} {world : World α β ε ω} (orderly : Orderly ⟨duties, world⟩)
    (event : Event α ε) (fair : event.Fair world.store) : Orderly ⟨duties, world.log event⟩ := by
  refine orderly.next [] [] _ (.other rfl) orderly.seated (by simp)
    fun other member => ?_
  rcases List.mem_cons.1 member with rfl | old
  · exact .inr fair
  · exact .inl old

theorem ask {duties : List (Duty α β)} {world : World α β ε ω} (orderly : Orderly ⟨duties, world⟩)
    {duty : Duty α β} (fair : duty.Fair world.store) : Orderly ⟨duty :: duties, world⟩ :=
  orderly.next [] [duty] _ (.other rfl) orderly.seated
    (fun _ member => List.mem_singleton.1 member ▸ fair) fun _ member => .inl member

/-- A waiter whose cell is available runs. -/
theorem run {rest : List (Duty α β)} {waiter : Waiter α β} {world : World α β ε ω}
    (orderly : Orderly ⟨.fire waiter :: rest, world⟩) : Orderly ⟨rest, world.run waiter⟩ := by
  have ready : (world.store.state waiter.home).isSome := orderly.duties (.fire waiter) (by simp)
  exact (orderly.aside [_] world.store world.outer rfl).log _ ⟨ready, rfl⟩

theorem settle {rest : List (Duty α β)} {world : World α β ε ω} {id : CellId}
    {outcome : Outcome α} {waiters : List (Waiter α β)} {store : Store α β} (done : List (Duty α β))
    (orderly : Orderly ⟨done ++ rest, world⟩)
    (settled : world.store.settle id outcome = some (waiters, store)) :
    Orderly ⟨waiters.map .fire ++ rest, { world with store }⟩ := by
  have grounded := orderly.sound.grounded
  refine orderly.next done _ _ (.settle settled) (orderly.seated.settle grounded settled) ?_
    fun event member => .inl member
  intro duty member
  obtain ⟨waiter, among, rfl⟩ := List.mem_map.1 member
  have shown := orderly.seated.handed_settle grounded settled among
  exact Option.isSome_of_eq_some shown

theorem link {rest : List (Duty α β)} {world : World α β ε ω} {id target : CellId}
    {waiters : List (Waiter α β)} {store : Store α β} (done : List (Duty α β))
    (orderly : Orderly ⟨done ++ rest, world⟩) (bound : target < world.store.cells.size)
    (linked : world.store.linkTo id target = .ok (waiters, store)) :
    Orderly ⟨waiters.map (.hand target) ++ rest, { world with store }⟩ := by
  have grounded := orderly.sound.grounded
  refine orderly.next done _ _ (.link bound linked) (orderly.seated.linkTo grounded linked) ?_
    fun event member => .inl member
  intro duty member
  obtain ⟨waiter, among, rfl⟩ := List.mem_map.1 member
  obtain ⟨home, together⟩ := orderly.seated.handed_linkTo grounded linked among
  refine ⟨?_, home, together⟩
  rw [(Store.aligned_linkTo linked).size]
  exact bound

theorem move {before after : Moment α β ε ω} (orderly : Orderly before) (move : Move before after) :
    Orderly after := by
  have grounded := orderly.sound.grounded
  cases move with
  | routine step =>
    cases step with
    | @park place waiter rest world store parked =>
      obtain ⟨-, home, together⟩ := orderly.duties (.hand place waiter) (by simp)
      exact orderly.next [_] [] _ (.park parked)
        (orderly.seated.park grounded home together parked) (by simp) fun _ member => .inl member
    | @ready place waiter rest world refused =>
      obtain ⟨bound, home, together⟩ := orderly.duties (.hand place waiter) (by simp)
      have available := (orderly.sound.park_eq_none_iff bound waiter).1 refused
      refine (orderly.aside [_] world.store world.outer rfl).ask ?_
      simpa [Duty.Fair, Store.state, together] using available
    | call => exact orderly.run.ask trivial
    | @arrive waiter latch rest world store _ arrived =>
      exact orderly.run.aside [] store world.outer (Store.cells_of_arriveAt arrived)
    | @opens waiter latch rest world store body _ arrived =>
      have same : store.cells = world.store.cells := Store.cells_of_arriveAt arrived
      exact ((orderly.run.aside [] store world.outer same).log (.opened latch) trivial).ask trivial
    | derive => exact (orderly.run.log (.converted _) trivial).ask trivial
    | spoil => exact orderly.run.log (.converted _) trivial
    | pass => exact orderly.run.ask trivial
    | skip => exact orderly.run
    | give settled => exact orderly.settle [_] settled
    | refuse => exact orderly.aside [_] _ _ rfl
    | link bound linked => exact orderly.link [_] bound linked
    | bar => exact orderly.aside [_] _ _ rfl
    | abandon => exact orderly.aside [_] _ _ rfl
  | free step =>
    cases step with
    | begin => exact orderly.aside [_] _ _ rfl
    | @make cell duties world free nobody =>
      exact orderly.next [] [] { world with store := (world.store.make cell).2 } (.make free nobody)
        (orderly.seated.make grounded free nobody) (by simp)
        fun _ member => .inl member
    | settle settled => exact orderly.settle [] settled
    | link bound linked => exact orderly.link [] bound linked
    | @register id continuation duties world bound =>
      have enrolled := orderly.aside [] (world.store.enroll id continuation).2 world.outer rfl
      exact (enrolled.log (.registered _ id) trivial).ask ⟨bound, bound, rfl⟩
    | @latch latches _ world =>
      exact orderly.aside [] { world.store with latches } world.outer rfl
    | note => exact orderly.log (.noted _) trivial
    | opened => exact orderly.log (.opened _) trivial
    | converted => exact orderly.log (.converted _) trivial
    | own => exact orderly.aside [] _ _ rfl

/-- Runs keep order, and whatever cells show. -/
theorem keeps {before after : Moment α β ε ω} (orderly : before.Orderly) (steps : Steps Move before after) :
    after.Orderly ∧ before.world.store.Keeps after.world.store := by
  induction steps with
  | refl => exact ⟨orderly, .refl _⟩
  | tail _ move ih =>
    obtain ⟨between, keeps⟩ := ih
    exact ⟨between.move move, keeps.trans (move.change.keeps between.sound)⟩

end Moment.Orderly

/-! ## Accounts -/

/-- By number and home. -/
def Waiter.key (waiter : Waiter α β) : Nat × CellId := (waiter.serial, waiter.home)

def Event.registration? : Event α ε → Option (Nat × CellId)
  | registered serial home => some (serial, home)
  | ran .. | opened _ | converted _ | noted _ => none

def Event.run? : Event α ε → Option (Nat × CellId)
  | ran serial home _ => some (serial, home)
  | registered .. | opened _ | converted _ | noted _ => none

/-- What was registered, newest first. -/
def World.registrations (world : World α β ε ω) : List (Nat × CellId) :=
  world.history.filterMap Event.registration?

/-- What ran, newest first. -/
def World.runs (world : World α β ε ω) : List (Nat × CellId) := world.history.filterMap Event.run?

theorem World.registrations_log (world : World α β ε ω) (event : Event α ε) :
    (world.log event).registrations = event.registration?.toList ++ world.registrations := by
  cases event <;> rfl

theorem World.runs_log (world : World α β ε ω) (event : Event α ε) :
    (world.log event).runs = event.run?.toList ++ world.runs := by
  cases event <;> rfl

theorem World.mem_registrations_iff {world : World α β ε ω} {serial : Nat} {home : CellId} :
    (serial, home) ∈ world.registrations ↔ .registered serial home ∈ world.history := by
  refine List.mem_filterMap.trans ⟨?_, fun member => ⟨_, member, rfl⟩⟩
  rintro ⟨event, member, key⟩
  cases event with
  | registered => cases key; exact member
  | ran | opened | converted | noted => contradiction

theorem World.mem_runs_iff {world : World α β ε ω} {serial : Nat} {home : CellId} :
    (serial, home) ∈ world.runs ↔ ∃ seen, .ran serial home seen ∈ world.history := by
  refine List.mem_filterMap.trans ⟨?_, fun ⟨seen, member⟩ => ⟨_, member, rfl⟩⟩
  rintro ⟨event, member, key⟩
  cases event with
  | ran _ _ seen => cases key; exact ⟨seen, member⟩
  | registered | opened | converted | noted => contradiction

/-- All that was ever registered is outstanding or ran. -/
structure Moment.Accounted (moment : Moment α β ε ω) : Prop where
  balance : moment.world.registrations.Perm (moment.outstanding.map Waiter.key ++ moment.world.runs)
  /-- Registrations are numbered as they come. -/
  numbered : moment.world.registrations.map Prod.fst =
    (List.range moment.world.store.registered).reverse

namespace Moment.Accounted

theorem start (outer : ω) : Accounted (⟨[], { outer }⟩ : Moment α β ε ω) where
  balance := .nil
  numbered := rfl

/-- Waiters change places. -/
theorem moved {before after : Moment α β ε ω} (accounted : Accounted before)
    (same : after.world.history = before.world.history)
    (registered : after.world.store.registered = before.world.store.registered)
    (outstanding : after.outstanding.Perm before.outstanding) : Accounted after where
  balance := by
    unfold World.registrations World.runs
    rw [same]
    exact accounted.balance.trans ((outstanding.symm.map _).append_right _)
  numbered := by
    unfold World.registrations
    rw [same, registered]
    exact accounted.numbered

/-- Something else is noted. -/
theorem log {duties : List (Duty α β)} {world : World α β ε ω} (accounted : Accounted ⟨duties, world⟩)
    (event : Event α ε) (unregistered : event.registration? = none) (unrun : event.run? = none) :
    Accounted ⟨duties, world.log event⟩ where
  balance := by
    rw [World.registrations_log, World.runs_log, unregistered, unrun]
    exact accounted.balance
  numbered := by
    rw [World.registrations_log, unregistered]
    exact accounted.numbered

/-- A waiter runs. -/
theorem run {rest : List (Duty α β)} {waiter : Waiter α β} {world : World α β ε ω}
    (accounted : Accounted ⟨.fire waiter :: rest, world⟩) : Accounted ⟨rest, world.run waiter⟩ where
  balance := by
    unfold World.run
    rw [World.registrations_log, World.runs_log]
    exact accounted.balance.trans List.perm_middle.symm
  numbered := accounted.numbered

/-- A waiter is registered and on its way. -/
theorem register {duties : List (Duty α β)} {world : World α β ε ω} (accounted : Accounted ⟨duties, world⟩)
    (id : CellId) (continuation : Continuation α β) :
    Accounted ⟨.hand id (world.store.enroll id continuation).1 :: duties,
      ({ world with store := (world.store.enroll id continuation).2 }).log
        (.registered world.store.registered id)⟩ where
  balance := by
    rw [World.registrations_log, World.runs_log]
    exact accounted.balance.cons _
  numbered := by
    rw [World.registrations_log]
    simp only [World.log_store, Store.enroll, List.range_succ, List.reverse_append]
    exact congrArg (world.store.registered :: ·) accounted.numbered

/-- Waiters that a cell hands out are on their way. -/
theorem released {rest : List (Duty α β)} {world : World α β ε ω} {store : Store α β}
    {waiters : List (Waiter α β)} (done : List (Duty α β)) (carry : Waiter α β → Duty α β)
    (accounted : Accounted ⟨done ++ rest, world⟩) (idle : done.filterMap Duty.waiter? = [])
    (carried : ∀ waiter, (carry waiter).waiter? = some waiter)
    (aligned : world.store.Aligned store)
    (handed : (waiters ++ store.waiters).Perm world.store.waiters) :
    Accounted ⟨waiters.map carry ++ rest, { world with store }⟩ :=
  accounted.moved rfl aligned.registered (Moment.outstanding_released done carry idle carried handed)

/-- Other duties that take the same waiters with them. -/
theorem redo {duties : List (Duty α β)} {world : World α β ε ω} (accounted : Accounted ⟨duties, world⟩)
    (others : List (Duty α β))
    (same : others.filterMap Duty.waiter? = duties.filterMap Duty.waiter?) :
    Accounted ⟨others, world⟩ := by
  refine accounted.moved rfl rfl ?_
  unfold Moment.outstanding
  rw [same]

/-- Nothing that concerns waiters. -/
theorem aside {duties : List (Duty α β)} {world : World α β ε ω} (store : Store α β)
    (accounted : Accounted ⟨duties, world⟩) (waiting : store.waiters = world.store.waiters)
    (registered : store.registered = world.store.registered) (outer : ω) :
    Accounted ⟨duties, { world with store, outer }⟩ := by
  refine accounted.moved rfl registered ?_
  unfold Moment.outstanding
  rw [waiting]

theorem arriveAt {duties : List (Duty α β)} {world : World α β ε ω} {latch : LatchId}
    {body : Option β} {store : Store α β} (accounted : Accounted ⟨duties, world⟩)
    (arrived : world.store.arriveAt latch = (body, store)) :
    Accounted ⟨duties, { world with store }⟩ :=
  accounted.aside store (Store.waiters_arriveAt arrived) (Store.registered_of_arriveAt arrived) world.outer

theorem move {before after : Moment α β ε ω} (accounted : Accounted before) (move : Move before after) :
    Accounted after := by
  cases move with
  | routine step =>
    cases step with
    | park parked =>
      refine accounted.moved rfl (Store.aligned_park parked).registered ?_
      exact ((Store.waiters_park parked).append_left _).trans List.perm_middle
    | ready => exact accounted.redo _ rfl
    | call => exact accounted.run.redo _ rfl
    | arrive _ arrived => exact accounted.run.arriveAt arrived
    | opens _ arrived =>
      exact ((accounted.run.arriveAt arrived).log (.opened _) rfl rfl).redo _ rfl
    | derive => exact (accounted.run.log (.converted _) rfl rfl).redo _ rfl
    | spoil => exact accounted.run.log (.converted _) rfl rfl
    | pass => exact accounted.run.redo _ rfl
    | skip => exact accounted.run
    | give settled =>
      exact accounted.released [_] .fire rfl (fun _ => rfl)
        (Store.aligned_settle settled) (Store.waiters_settle settled)
    | refuse => exact accounted.redo _ rfl
    | link _ linked =>
      exact accounted.released [_] (.hand _) rfl (fun _ => rfl)
        (Store.aligned_linkTo linked) (Store.waiters_linkTo linked)
    | bar => exact accounted.redo _ rfl
    | abandon => exact accounted.redo _ rfl
  | free step =>
    cases step with
    | begin => exact accounted.redo _ rfl
    | @make cell _ world _ nobody =>
      exact accounted.aside _ (Store.waiters_make world.store nobody) rfl _
    | settle settled =>
      exact accounted.released [] .fire rfl (fun _ => rfl)
        (Store.aligned_settle settled) (Store.waiters_settle settled)
    | link _ linked =>
      exact accounted.released [] (.hand _) rfl (fun _ => rfl)
        (Store.aligned_linkTo linked) (Store.waiters_linkTo linked)
    | register => exact accounted.register _ _
    | @latch latches _ world =>
      exact accounted.aside { world.store with latches } rfl rfl _
    | note => exact accounted.log (.noted _) rfl rfl
    | opened => exact accounted.log (.opened _) rfl rfl
    | converted => exact accounted.log (.converted _) rfl rfl
    | own => exact accounted.aside _ rfl rfl _

end Moment.Accounted

/-! ## Nothing in progress -/

def World.timesRun (world : World α β ε ω) (serial : Nat) : Nat :=
  (world.runs.map Prod.fst).count serial

/-- The waiter of this number and home is in one place of the list of one cell, and nowhere else. -/
def Store.WaitsOnce (store : Store α β) (serial : Nat) (home place : CellId) : Prop :=
  ∃ cell, store.cell? place = some cell ∧
    (∃ waiter ∈ cell.waiters, waiter.serial = serial ∧ waiter.home = home) ∧
    (cell.waiters.map Waiter.serial).count serial = 1 ∧
    ∀ other selected, store.cell? other = some selected → other ≠ place →
      serial ∉ selected.waiters.map Waiter.serial

theorem Store.waitsOnce {store : Store α β} (seated : store.Seated) {waiter : Waiter α β}
    (member : waiter ∈ store.waiters) (once : (store.waiters.map Waiter.serial).count waiter.serial = 1) :
    store.WaitsOnce waiter.serial waiter.home (store.last waiter.home) := by
  obtain ⟨id, cell, found, among⟩ := mem_waiters.1 member
  rw [(seated found among).2]
  -- Without the waiters of the cell, those of all others are left.
  have split := ((waiters_put found { cell with waiters := [] }).map Waiter.serial).count_eq waiter.serial
  simp only [List.append_nil, List.map_append, List.count_append, once] at split
  have here : 0 < (cell.waiters.map Waiter.serial).count waiter.serial :=
    List.count_pos_iff.2 (List.mem_map_of_mem among)
  refine ⟨cell, found, ⟨waiter, among, rfl, rfl⟩, by omega, fun other selected chosen apart inside => ?_⟩
  obtain ⟨another, placed, same⟩ := List.mem_map.1 inside
  have left : another ∈ (store.put id { cell with waiters := [] }).waiters :=
    mem_waiters.2 ⟨other, selected, by rw [cell?_put found, if_neg apart, chosen], placed⟩
  have counted : 0 < ((store.put id { cell with waiters := [] }).waiters.map Waiter.serial).count
      waiter.serial := List.count_pos_iff.2 (List.mem_map.2 ⟨another, left, same⟩)
  omega

namespace Moment.Accounted

/-- Only what was registered runs. -/
theorem registered_of_ran {moment : Moment α β ε ω} (accounted : Accounted moment) {serial : Nat}
    {home : CellId} {seen : Option (Outcome α)} (ran : .ran serial home seen ∈ moment.world.history) :
    .registered serial home ∈ moment.world.history :=
  World.mem_registrations_iff.1 (accounted.balance.mem_iff.2
    (List.mem_append_right _ (World.mem_runs_iff.2 ⟨seen, ran⟩)))

/-- Numbers are given once. -/
theorem serials_nodup {moment : Moment α β ε ω} (accounted : Accounted moment) :
    (moment.world.registrations.map Prod.fst).Nodup := by
  rw [accounted.numbered]
  exact List.nodup_reverse.2 List.nodup_range

/-- Nobody is numbered as another. -/
theorem counts {moment : Moment α β ε ω} (accounted : Accounted moment) {serial : Nat} {home : CellId}
    (registered : (serial, home) ∈ moment.world.registrations) :
    (moment.outstanding.map Waiter.serial).count serial + moment.world.timesRun serial = 1 := by
  have outstanding : (moment.outstanding.map Waiter.key).map Prod.fst = moment.outstanding.map Waiter.serial :=
    List.map_map ..
  unfold World.timesRun
  rw [← outstanding, ← List.count_append, ← List.map_append]
  exact ((accounted.balance.map Prod.fst).count_eq serial).symm.trans
    (List.count_eq_one_of_mem accounted.serials_nodup (List.mem_map_of_mem registered))

/-- A registration that is over ran, and one that is not waits, unless it is on the way. -/
theorem once {duties : List (Duty α β)} {world : World α β ε ω} (accounted : Accounted ⟨duties, world⟩) {serial : Nat}
    {home : CellId} (registered : (serial, home) ∈ world.registrations)
    (idle : serial ∉ (duties.filterMap Duty.waiter?).map Waiter.serial) :
    (world.timesRun serial = 1 ∧ (serial, home) ∈ world.runs ∧
      serial ∉ world.store.waiters.map Waiter.serial) ∨
    (world.timesRun serial = 0 ∧ (world.store.waiters.map Waiter.serial).count serial = 1 ∧
      ∃ waiter ∈ world.store.waiters, waiter.serial = serial ∧ waiter.home = home) := by
  have counts : (world.store.waiters.map Waiter.serial).count serial + world.timesRun serial = 1 := by
    have all := accounted.counts registered
    rw [Moment.outstanding, List.map_append, List.count_append, List.count_eq_zero.2 idle, Nat.zero_add] at all
    exact all
  rcases List.mem_append.1 (accounted.balance.mem_iff.1 registered) with member | member
  · obtain ⟨waiter, among, key⟩ := List.mem_map.1 member
    have serialOf : waiter.serial = serial := congrArg Prod.fst key
    have parked : waiter ∈ world.store.waiters := by
      refine (List.mem_append.1 among).resolve_left fun due => idle ?_
      exact List.mem_map.2 ⟨waiter, due, serialOf⟩
    have present : 0 < (world.store.waiters.map Waiter.serial).count serial :=
      List.count_pos_iff.2 (List.mem_map.2 ⟨waiter, parked, serialOf⟩)
    exact .inr ⟨by omega, by omega, waiter, parked, serialOf, congrArg Prod.snd key⟩
  · have present : 0 < world.timesRun serial := List.count_pos_iff.2 (List.mem_map_of_mem member)
    refine .inl ⟨by omega, member, fun waits => ?_⟩
    have absent := List.count_pos_iff.2 waits
    omega

end Moment.Accounted

/-- Who waits in a cell waits for one that shows nothing. -/
theorem Moment.Orderly.state_of_waiting {moment : Moment α β ε ω} (orderly : moment.Orderly)
    {waiter : Waiter α β} (member : waiter ∈ moment.world.store.waiters) :
    moment.world.store.state waiter.home = none := by
  obtain ⟨id, cell, found, among⟩ := Store.mem_waiters.1 member
  have idle := (orderly.sound.idle found (List.ne_nil_of_mem among)).1
  simp [Store.state, (orderly.seated found among).2, found, idle]

/-- A continuation that is not on the way ran once, and its cell is available, or it waits once, where
the chain of its cell ends, and its cell is not available. -/
theorem runs_or_waits_of_idle {duties : List (Duty α β)} {world : World α β ε ω}
    (orderly : Moment.Orderly ⟨duties, world⟩) (accounted : Moment.Accounted ⟨duties, world⟩) {serial : Nat}
    {home : CellId} (registered : .registered serial home ∈ world.history)
    (idle : serial ∉ (duties.filterMap Duty.waiter?).map Waiter.serial) :
    (world.timesRun serial = 1 ∧ (world.store.state home).isSome ∧
      serial ∉ world.store.waiters.map Waiter.serial) ∨
    (world.timesRun serial = 0 ∧ world.store.state home = none ∧
      world.store.WaitsOnce serial home (world.store.last home)) := by
  rcases accounted.once (World.mem_registrations_iff.2 registered) idle with
    ⟨ran, run, absent⟩ | ⟨unrun, once, waiter, member, rfl, rfl⟩
  · obtain ⟨seen, happened⟩ := World.mem_runs_iff.1 run
    obtain ⟨shown, same⟩ := orderly.history _ happened
    exact .inl ⟨ran, same ▸ shown, absent⟩
  · exact .inr ⟨unrun, orderly.state_of_waiting member, Store.waitsOnce orderly.seated member once⟩

/-- When nothing is in progress, a continuation ran once, and its cell is available, or it waits
once, where the chain of its cell ends, and its cell is not available. -/
theorem runs_or_waits {world : World α β ε ω} (orderly : Moment.Orderly ⟨[], world⟩)
    (accounted : Moment.Accounted ⟨[], world⟩) {serial : Nat} {home : CellId}
    (registered : .registered serial home ∈ world.history) :
    (world.timesRun serial = 1 ∧ (world.store.state home).isSome ∧
      serial ∉ world.store.waiters.map Waiter.serial) ∨
    (world.timesRun serial = 0 ∧ world.store.state home = none ∧
      world.store.WaitsOnce serial home (world.store.last home)) :=
  runs_or_waits_of_idle orderly accounted registered List.not_mem_nil

end DeferredJit.Async
