import DeferredJit.Proofs.Async.Chain

/-! What holds of the cells of a store at all times, and what single steps of a store keep of what
was there: kinds, outcomes, links, and which cells end in the same one. -/

set_option autoImplicit false

namespace DeferredJit.Async.Store

variable {α β : Type}

/-! ## When a step is taken, and what it leaves -/

theorem settle_eq_some_iff {store next : Store α β} {id : CellId} {outcome : Outcome α}
    {waiters : List (Waiter α β)} :
    store.settle id outcome = some (waiters, next) ↔
      ∃ cell, store.cell? id = some cell ∧ cell.link = none ∧ cell.outcome = none ∧
        waiters = cell.waiters ∧
        next = store.put id { cell with outcome := some outcome, waiters := [] } := by
  unfold settle
  cases store.cell? id with
  | none => simp
  | some cell =>
    cases linked : cell.link <;> cases settled : cell.outcome <;>
      simp [linked, settled, eq_comm]

theorem linkTo_eq_ok_iff {store next : Store α β} {id target : CellId} {waiters : List (Waiter α β)} :
    store.linkTo id target = .ok (waiters, next) ↔
      ∃ cell, store.cell? id = some cell ∧ cell.kind = .indirect ∧ id ∉ store.chain target ∧
        cell.outcome = none ∧ cell.link = none ∧ waiters = cell.waiters ∧
        next = store.put id { cell with link := some target, waiters := [] } := by
  unfold linkTo
  cases store.cell? id with
  | none => simp
  | some cell =>
    cases linked : cell.link <;> cases settled : cell.outcome <;>
      cases kind : cell.kind <;> by_cases member : id ∈ store.chain target <;>
      simp [linked, settled, kind, member, eq_comm]

theorem park_eq_some_iff {store next : Store α β} {id : CellId} {waiter : Waiter α β} :
    store.park id waiter = some next ↔
      ∃ cell, store.cell? (store.last id) = some cell ∧ cell.outcome = none ∧
        next = store.put (store.last id) { cell with waiters := cell.waiters ++ [waiter] } := by
  unfold park
  cases store.cell? (store.last id) with
  | none => simp
  | some cell => cases settled : cell.outcome <;> simp [settled, eq_comm]

/-- As many cells and the same latches and number of registrations. -/
structure Aligned (store next : Store α β) : Prop where
  size : next.cells.size = store.cells.size
  latches : next.latches = store.latches
  registered : next.registered = store.registered

theorem aligned_put (store : Store α β) (id : CellId) (cell : Cell α β) :
    store.Aligned (store.put id cell) := ⟨size_put store id cell, rfl, rfl⟩

theorem aligned_settle {store next : Store α β} {id : CellId} {outcome : Outcome α}
    {waiters : List (Waiter α β)} (settled : store.settle id outcome = some (waiters, next)) :
    store.Aligned next := by
  obtain ⟨_, -, -, -, -, rfl⟩ := settle_eq_some_iff.1 settled
  exact aligned_put ..

theorem aligned_linkTo {store next : Store α β} {id target : CellId} {waiters : List (Waiter α β)}
    (linked : store.linkTo id target = .ok (waiters, next)) : store.Aligned next := by
  obtain ⟨_, -, -, -, -, -, -, rfl⟩ := linkTo_eq_ok_iff.1 linked
  exact aligned_put ..

theorem aligned_park {store next : Store α β} {id : CellId} {waiter : Waiter α β}
    (parked : store.park id waiter = some next) : store.Aligned next := by
  obtain ⟨_, -, -, rfl⟩ := park_eq_some_iff.1 parked
  exact aligned_put ..

theorem cells_arriveAt (store : Store α β) (id : LatchId) :
    (store.arriveAt id).2.cells = store.cells := by
  unfold arriveAt
  split <;> rfl

theorem cells_of_arriveAt {store next : Store α β} {id : LatchId} {called : Option β}
    (arrived : store.arriveAt id = (called, next)) : next.cells = store.cells := by
  rw [← cells_arriveAt store id, arrived]

theorem registered_arriveAt (store : Store α β) (id : LatchId) :
    (store.arriveAt id).2.registered = store.registered := by
  unfold arriveAt
  split <;> rfl

theorem registered_of_arriveAt {store next : Store α β} {id : LatchId} {called : Option β}
    (arrived : store.arriveAt id = (called, next)) : next.registered = store.registered := by
  rw [← registered_arriveAt store id, arrived]

/-- An arrival calls the body of a latch if any. -/
theorem body_arriveAt {store : Store α β} {id : LatchId} {body : β}
    (opened : (store.arriveAt id).1 = some body) : ∃ latch ∈ store.latches, latch.body = body := by
  unfold arriveAt at opened
  cases found : store.latches[id]? with
  | none => simp [found] at opened
  | some latch =>
    simp only [found] at opened
    split at opened
    · cases opened
      exact ⟨latch, List.mem_of_getElem? found, rfl⟩
    · contradiction

/-- Arrivals leave the bodies of all latches as they were. -/
theorem latches_arriveAt {store : Store α β} {id : LatchId} {latch : Latch β}
    (member : latch ∈ (store.arriveAt id).2.latches) :
    ∃ former ∈ store.latches, former.body = latch.body := by
  unfold arriveAt at member
  cases found : store.latches[id]? with
  | none =>
    simp only [found] at member
    exact ⟨latch, member, rfl⟩
  | some former =>
    simp only [found] at member
    rcases List.mem_or_eq_of_mem_set member with member | rfl
    · exact ⟨latch, member, rfl⟩
    · exact ⟨former, List.mem_of_getElem? found, rfl⟩

/-! ## Sound stores -/

/-- What holds of the cells at all times. -/
structure Sound (store : Store α β) : Prop where
  /-- An outcome and a link exclude each other. -/
  exclusive : ∀ {id cell}, store.cell? id = some cell → cell.link ≠ none → cell.outcome = none
  /-- Only indirect cells have links. -/
  indirect : ∀ {id cell}, store.cell? id = some cell → cell.link ≠ none → cell.kind = .indirect
  /-- Nobody waits in a cell that has an outcome or a link. -/
  idle : ∀ {id cell}, store.cell? id = some cell → cell.waiters ≠ [] →
    cell.outcome = none ∧ cell.link = none
  /-- Links lead to cells. -/
  inside : ∀ {id target}, store.link? id = some target → target < store.cells.size
  /-- Links come to an end. -/
  grounded : store.Grounded

theorem sound_empty : (({} : Store α β)).Sound where
  exclusive found := by simp [cell?] at found
  indirect found := by simp [cell?] at found
  idle found := by simp [cell?] at found
  inside linked := by simp [link?, cell?] at linked
  grounded id := ⟨[id], .stop (by simp [link?, cell?])⟩

namespace Sound

variable {store next : Store α β}

theorem last_lt (sound : store.Sound) {id : CellId} (bound : id < store.cells.size) :
    store.last id < store.cells.size := by
  obtain ⟨path, walk⟩ := sound.grounded id
  rw [walk.last_eq]
  induction walk with
  | stop => simpa using bound
  | next linked walk ih =>
    rw [List.getLast_cons walk.ne_nil]
    exact ih (sound.inside linked)

/-- The cell at the end of a chain. -/
theorem cell?_last (sound : store.Sound) {id : CellId} (bound : id < store.cells.size) :
    ∃ cell, store.cell? (store.last id) = some cell ∧ cell.link = none ∧
      store.state id = cell.outcome := by
  have inside := sound.last_lt bound
  refine ⟨store.cells[store.last id], Array.getElem?_eq_getElem inside, ?_, ?_⟩
  · rw [← link?_of_cell? (Array.getElem?_eq_getElem inside)]
    exact sound.grounded.link?_last id
  · simp [state, cell?, inside]

/-- A waiter is sent off at once exactly from an available cell. -/
theorem park_eq_none_iff (sound : store.Sound) {id : CellId} (bound : id < store.cells.size)
    (waiter : Waiter α β) : store.park id waiter = none ↔ (store.state id).isSome := by
  obtain ⟨cell, found, -, shown⟩ := sound.cell?_last bound
  unfold park
  rw [found, shown]
  cases settled : cell.outcome <;> simp [settled]

/-- A change of one cell that touches no link. -/
theorem put (sound : store.Sound) {id : CellId} {old new : Cell α β}
    (found : store.cell? id = some old) (sameLink : new.link = old.link)
    (free : old.link = none) (still : new.waiters ≠ [] → new.outcome = none) :
    (store.put id new).Sound where
  exclusive selected linked := by
    rw [cell?_put found] at selected
    split at selected
    · cases selected
      exact absurd (sameLink.trans free) linked
    · exact sound.exclusive selected linked
  indirect selected linked := by
    rw [cell?_put found] at selected
    split at selected
    · cases selected
      exact absurd (sameLink.trans free) linked
    · exact sound.indirect selected linked
  idle selected waiting := by
    rw [cell?_put found] at selected
    split at selected
    · cases selected
      exact ⟨still waiting, sameLink.trans free⟩
    · exact sound.idle selected waiting
  inside linked := by
    rw [link?_put found] at linked
    rw [size_put]
    split at linked
    · rw [sameLink, free] at linked; contradiction
    · exact sound.inside linked
  grounded := sound.grounded.congr fun other => by
    rw [link?_put found]
    split
    · rename_i same
      rw [same, link?_of_cell? found, sameLink]
    · rfl

theorem settle (sound : store.Sound) {id : CellId} {outcome : Outcome α}
    {waiters : List (Waiter α β)} (settled : store.settle id outcome = some (waiters, next)) :
    next.Sound := by
  obtain ⟨cell, found, free, -, -, rfl⟩ := settle_eq_some_iff.1 settled
  exact sound.put found (by rfl) free (fun waiting => absurd rfl waiting)

theorem park (sound : store.Sound) {id : CellId} {waiter : Waiter α β}
    (parked : store.park id waiter = some next) : next.Sound := by
  obtain ⟨cell, found, unsettled, rfl⟩ := park_eq_some_iff.1 parked
  refine sound.put found (by rfl) ?_ (fun _ => unsettled)
  rw [← link?_of_cell? found]
  exact sound.grounded.link?_last id

theorem of_cells_eq (sound : store.Sound) (same : next.cells = store.cells) : next.Sound where
  exclusive found := sound.exclusive (by simpa [cell?, same] using found)
  indirect found := sound.indirect (by simpa [cell?, same] using found)
  idle found := sound.idle (by simpa [cell?, same] using found)
  inside linked := by
    rw [same]
    exact sound.inside (by simpa [link?, cell?, same] using linked)
  grounded := sound.grounded.congr fun other => by simp [link?, cell?, same]

/-- A new cell that has no link and nobody waiting. -/
theorem make (sound : store.Sound) {cell : Cell α β} (free : cell.link = none)
    (nobody : cell.waiters = []) : (store.make cell).2.Sound where
  exclusive selected linked := by
    rw [cell?_make] at selected
    split at selected
    · cases selected; exact absurd free linked
    · exact sound.exclusive selected linked
  indirect selected linked := by
    rw [cell?_make] at selected
    split at selected
    · cases selected; exact absurd free linked
    · exact sound.indirect selected linked
  idle selected waiting := by
    rw [cell?_make] at selected
    split at selected
    · cases selected; exact absurd nobody waiting
    · exact sound.idle selected waiting
  inside linked := by
    rw [link?_make store free] at linked
    rw [size_make]
    exact Nat.lt_succ_of_lt (sound.inside linked)
  grounded := sound.grounded.congr (link?_make store free)

end Sound

/-- What a successful link changes about links. -/
theorem joins_of_linkTo {store next : Store α β} (grounded : store.Grounded) {id target : CellId}
    {waiters : List (Waiter α β)} (linked : store.linkTo id target = .ok (waiters, next)) :
    Joins store next id target := by
  obtain ⟨cell, found, -, apart, -, free, -, rfl⟩ := linkTo_eq_ok_iff.1 linked
  refine ⟨(link?_of_cell? found).trans free, ?_, fun other different => ?_, fun ends => apart ?_⟩
  · simp [link?_put found]
  · simp [link?_put found, different]
  · obtain ⟨path, walk⟩ := grounded target
    rw [walk.chain_eq, ← ends, walk.last_eq]
    exact List.getLast_mem walk.ne_nil

theorem Sound.linkTo {store next : Store α β} (sound : store.Sound) {id target : CellId}
    {waiters : List (Waiter α β)} (bound : target < store.cells.size)
    (linked : store.linkTo id target = .ok (waiters, next)) : next.Sound := by
  have joins := joins_of_linkTo sound.grounded linked
  obtain ⟨cell, found, kind, -, unsettled, free, -, rfl⟩ := linkTo_eq_ok_iff.1 linked
  -- Only the cell with the new link is another than before.
  refine ⟨?_, ?_, ?_, ?_, joins.grounded sound.grounded⟩
  · intro other selected chosen relinked
    rw [cell?_put found] at chosen
    split at chosen
    · cases chosen; exact unsettled
    · exact sound.exclusive chosen relinked
  · intro other selected chosen relinked
    rw [cell?_put found] at chosen
    split at chosen
    · cases chosen; exact kind
    · exact sound.indirect chosen relinked
  · intro other selected chosen waiting
    rw [cell?_put found] at chosen
    split at chosen
    · cases chosen; exact absurd rfl waiting
    · exact sound.idle chosen waiting
  · intro other onward relinked
    rw [link?_put found] at relinked
    rw [size_put]
    split at relinked
    · cases relinked; exact bound
    · exact sound.inside relinked

/-! ## What the cells show -/

section Shown

variable {store next : Store α β} {id target : CellId} {waiters : List (Waiter α β)}

theorem last_of_cells_eq (same : next.cells = store.cells) (other : CellId) :
    next.last other = store.last other := by
  have link (id : CellId) : next.link? id = store.link? id := by simp [link?, cell?, same]
  have within (steps : Nat) (id : CellId) :
      next.chainWithin steps id = store.chainWithin steps id := by
    induction steps generalizing id with
    | zero => rfl
    | succ steps ih => simp only [chainWithin, link, ih]
  simp only [last, chain, same, within]

theorem state_of_cells_eq (same : next.cells = store.cells) (other : CellId) :
    next.state other = store.state other := by
  simp only [state, cell?, last_of_cells_eq same, same]

theorem last_put (grounded : store.Grounded) {old new : Cell α β}
    (found : store.cell? id = some old) (same : new.link = old.link) (other : CellId) :
    (store.put id new).last other = store.last other := by
  refine grounded.last_congr (fun another => ?_) other
  rw [link?_put found]
  split
  · rename_i here
    rw [here, link?_of_cell? found, same]
  · rfl

theorem state_put (grounded : store.Grounded) {old new : Cell α β}
    (found : store.cell? id = some old) (same : new.link = old.link) (other : CellId) :
    (store.put id new).state other =
      if store.last other = id then new.outcome else store.state other := by
  simp only [state, last_put grounded found same, cell?_put found]
  split <;> rfl

theorem last_settle (grounded : store.Grounded) {outcome : Outcome α}
    (settled : store.settle id outcome = some (waiters, next)) (other : CellId) :
    next.last other = store.last other := by
  obtain ⟨cell, found, -, -, -, rfl⟩ := settle_eq_some_iff.1 settled
  exact last_put grounded found (by rfl) other

theorem state_settle (grounded : store.Grounded) {outcome : Outcome α}
    (settled : store.settle id outcome = some (waiters, next)) (other : CellId) :
    next.state other = if store.last other = id then some outcome else store.state other := by
  obtain ⟨cell, found, -, -, -, rfl⟩ := settle_eq_some_iff.1 settled
  exact state_put grounded found (by rfl) other

theorem last_park (grounded : store.Grounded) {waiter : Waiter α β}
    (parked : store.park id waiter = some next) (other : CellId) :
    next.last other = store.last other := by
  obtain ⟨cell, found, -, rfl⟩ := park_eq_some_iff.1 parked
  exact last_put grounded found (by rfl) other

theorem state_park (grounded : store.Grounded) {waiter : Waiter α β}
    (parked : store.park id waiter = some next) (other : CellId) :
    next.state other = store.state other := by
  obtain ⟨cell, found, -, rfl⟩ := park_eq_some_iff.1 parked
  rw [state_put grounded found (by rfl)]
  split
  · rename_i here
    simp [state, here, found]
  · rfl

theorem last_linkTo (grounded : store.Grounded)
    (linked : store.linkTo id target = .ok (waiters, next)) (other : CellId) :
    next.last other = if store.last other = id then store.last target else store.last other :=
  (joins_of_linkTo grounded linked).last_eq grounded other

theorem state_linkTo (grounded : store.Grounded)
    (linked : store.linkTo id target = .ok (waiters, next)) (other : CellId) :
    next.state other = if store.last other = id then store.state target else store.state other := by
  have joins := joins_of_linkTo grounded linked
  have ends := last_linkTo grounded linked other
  obtain ⟨cell, found, -, -, -, -, -, rfl⟩ := linkTo_eq_ok_iff.1 linked
  unfold state
  rw [ends]
  split
  · rw [cell?_put found, if_neg joins.apart]
  · rename_i elsewhere
    rw [cell?_put found, if_neg elsewhere]

theorem last_make (grounded : store.Grounded) {cell : Cell α β} (free : cell.link = none)
    (other : CellId) : (store.make cell).2.last other = store.last other :=
  grounded.last_congr (link?_make store free) other

theorem state_make (sound : store.Sound) {cell : Cell α β} (free : cell.link = none)
    (other : CellId) : (store.make cell).2.state other =
      if other = store.cells.size then cell.outcome else store.state other := by
  unfold state
  rw [last_make sound.grounded free, cell?_make]
  -- The new cell is on no chain but its own.
  by_cases new : other = store.cells.size
  · have ended : store.link? other = none := by simp [link?, cell?, new]
    rw [last_of_link?_eq_none ended, if_pos new, if_pos new]
    rfl
  · rw [if_neg new]
    by_cases bound : other < store.cells.size
    · have different : store.last other ≠ store.cells.size := Nat.ne_of_lt (sound.last_lt bound)
      rw [if_neg different]
    · have ended : store.link? other = none := by
        simp [link?, cell?, Array.getElem?_eq_none (Nat.le_of_not_lt bound)]
      rw [last_of_link?_eq_none ended, if_neg new]

end Shown

/-! ## What is kept -/

/-- Cells stay, with their kinds, outcomes and links; what a cell shows it goes on showing, and cells
that end in the same cell go on doing so. -/
structure Keeps (store later : Store α β) : Prop where
  cell : ∀ {id before}, store.cell? id = some before → ∃ after, later.cell? id = some after ∧
    after.kind = before.kind ∧ (∀ outcome, before.outcome = some outcome → after.outcome = some outcome) ∧
    (∀ target, before.link = some target → after.link = some target)
  state : ∀ {id outcome}, store.state id = some outcome → later.state id = some outcome
  last : ∀ {first second}, store.last first = store.last second → later.last first = later.last second

namespace Keeps

variable {store next later : Store α β}

theorem refl (store : Store α β) : store.Keeps store where
  cell found := ⟨_, found, rfl, fun _ settled => settled, fun _ linked => linked⟩
  state shown := shown
  last same := same

theorem trans (first : store.Keeps next) (second : next.Keeps later) : store.Keeps later where
  cell found := by
    obtain ⟨middle, passed, sameKind, settled, linked⟩ := first.cell found
    obtain ⟨after, reached, sameKindAgain, settledAgain, linkedAgain⟩ := second.cell passed
    exact ⟨after, reached, sameKindAgain.trans sameKind,
      fun outcome known => settledAgain outcome (settled outcome known),
      fun target known => linkedAgain target (linked target known)⟩
  state shown := second.state (first.state shown)
  last same := second.last (first.last same)

theorem size_le (keeps : store.Keeps later) : store.cells.size ≤ later.cells.size := by
  by_contra smaller
  have bound : later.cells.size < store.cells.size := by omega
  obtain ⟨after, found, -⟩ := keeps.cell (Array.getElem?_eq_getElem bound)
  exact Nat.lt_irrefl _ (lt_size_of_cell? found)

theorem isSome_state (keeps : store.Keeps later) {id : CellId} (shown : (store.state id).isSome) :
    (later.state id).isSome := by
  obtain ⟨outcome, known⟩ := Option.isSome_iff_exists.1 shown
  rw [keeps.state known]
  rfl

/-- Changes that concern no cell. -/
theorem of_cells_eq (same : later.cells = store.cells) : store.Keeps later := by
  refine ⟨fun found => ⟨_, ?_, rfl, fun _ settled => settled, fun _ linked => linked⟩,
    fun shown => (state_of_cells_eq same _).trans shown,
    fun known => by rw [last_of_cells_eq same, last_of_cells_eq same, known]⟩
  simpa [cell?, same] using found

theorem settle (grounded : store.Grounded) {id : CellId} {outcome : Outcome α}
    {waiters : List (Waiter α β)} (settled : store.settle id outcome = some (waiters, next)) :
    store.Keeps next where
  cell {other before} found := by
    obtain ⟨cell, here, free, unsettled, -, rfl⟩ := settle_eq_some_iff.1 settled
    rw [cell?_put here]
    by_cases same : other = id
    · rw [same, here] at found
      cases found
      exact ⟨_, if_pos same, rfl, by simp [unsettled], by simp [free]⟩
    · exact ⟨_, (if_neg same).trans found, rfl, fun _ known => known, fun _ known => known⟩
  state {other shown} known := by
    rw [state_settle grounded settled]
    obtain ⟨cell, here, -, unsettled, -, -⟩ := settle_eq_some_iff.1 settled
    split
    · rename_i ends
      simp [Store.state, ends, here, unsettled] at known
    · exact known
  last known := by rw [last_settle grounded settled, last_settle grounded settled, known]

theorem linkTo (grounded : store.Grounded) {id target : CellId} {waiters : List (Waiter α β)}
    (linked : store.linkTo id target = .ok (waiters, next)) : store.Keeps next where
  cell {other before} found := by
    obtain ⟨cell, here, -, -, unsettled, free, -, rfl⟩ := linkTo_eq_ok_iff.1 linked
    rw [cell?_put here]
    by_cases same : other = id
    · rw [same, here] at found
      cases found
      exact ⟨_, if_pos same, rfl, by simp [unsettled], by simp [free]⟩
    · exact ⟨_, (if_neg same).trans found, rfl, fun _ known => known, fun _ known => known⟩
  state {other shown} known := by
    rw [state_linkTo grounded linked]
    obtain ⟨cell, here, -, -, unsettled, -, -, -⟩ := linkTo_eq_ok_iff.1 linked
    split
    · rename_i ends
      simp [Store.state, ends, here, unsettled] at known
    · exact known
  last known := by rw [last_linkTo grounded linked, last_linkTo grounded linked, known]

theorem park (grounded : store.Grounded) {id : CellId} {waiter : Waiter α β}
    (parked : store.park id waiter = some next) : store.Keeps next where
  cell {other before} found := by
    obtain ⟨cell, here, -, rfl⟩ := park_eq_some_iff.1 parked
    rw [cell?_put here]
    by_cases same : other = store.last id
    · rw [same, here] at found
      cases found
      exact ⟨_, if_pos same, rfl, fun _ known => known, fun _ known => known⟩
    · exact ⟨_, (if_neg same).trans found, rfl, fun _ known => known, fun _ known => known⟩
  state known := (state_park grounded parked _).trans known
  last known := by rw [last_park grounded parked, last_park grounded parked, known]

theorem make (sound : store.Sound) {cell : Cell α β} (free : cell.link = none) :
    store.Keeps (store.make cell).2 where
  cell {other before} found := by
    rw [cell?_make, if_neg (Nat.ne_of_lt (lt_size_of_cell? found))]
    exact ⟨_, found, rfl, fun _ known => known, fun _ known => known⟩
  state {other shown} known := by
    rw [state_make sound free]
    split
    · rename_i new
      have ended : store.link? other = none := by simp [link?, cell?, new]
      have missing : store.cell? other = none := by simp [cell?, new]
      rw [Store.state, last_of_link?_eq_none ended, missing] at known
      contradiction
    · exact known
  last known := by
    rw [last_make sound.grounded free, last_make sound.grounded free, known]

end Keeps

/-! ## Small steps -/

/-- What small steps do to a store, one at a time. -/
inductive Change (store : Store α β) : Store α β → Prop where
  /-- Something that concerns no cell. -/
  | other {next : Store α β} : next.cells = store.cells → Change store next
  | make {cell : Cell α β} : cell.link = none → cell.waiters = [] → Change store (store.make cell).2
  | settle {next : Store α β} {id : CellId} {outcome : Outcome α} {waiters : List (Waiter α β)} :
      store.settle id outcome = some (waiters, next) → Change store next
  | link {next : Store α β} {id target : CellId} {waiters : List (Waiter α β)} :
      target < store.cells.size → store.linkTo id target = .ok (waiters, next) → Change store next
  | park {next : Store α β} {id : CellId} {waiter : Waiter α β} :
      store.park id waiter = some next → Change store next

namespace Change

variable {store next : Store α β}

theorem size_le (change : store.Change next) : store.cells.size ≤ next.cells.size := by
  cases change with
  | other same => exact Nat.le_of_eq (by rw [same])
  | make => rw [size_make]; exact Nat.le_succ _
  | settle settled => exact Nat.le_of_eq (aligned_settle settled).size.symm
  | link _ linked => exact Nat.le_of_eq (aligned_linkTo linked).size.symm
  | park parked => exact Nat.le_of_eq (aligned_park parked).size.symm

theorem keeps (change : store.Change next) (sound : store.Sound) : store.Keeps next := by
  cases change with
  | other same => exact .of_cells_eq same
  | make free => exact .make sound free
  | settle settled => exact .settle sound.grounded settled
  | link _ linked => exact .linkTo sound.grounded linked
  | park parked => exact .park sound.grounded parked

theorem sound (change : store.Change next) (sound : store.Sound) : next.Sound := by
  cases change with
  | other same => exact sound.of_cells_eq same
  | make free nobody => exact sound.make free nobody
  | settle settled => exact sound.settle settled
  | link bound linked => exact sound.linkTo bound linked
  | park parked => exact sound.park parked

end Change

end DeferredJit.Async.Store
