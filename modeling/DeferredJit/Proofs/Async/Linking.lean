import DeferredJit.Proofs.Async.Drains

/-! Which links are taken and which are refused. A refused link has no effect; one that is taken
changes its source, and at the end of the chain of its target the line of those who wait. -/

set_option autoImplicit false

namespace DeferredJit.Async

variable {α β ε ω : Type}

namespace Store

/-! ## Where links lead -/

/-- Following links, or none, leads from the one cell to the other. -/
def Leads (store : Store α β) : CellId → CellId → Prop :=
  Relation.ReflTransGen fun id target => store.link? id = some target

/-- The outcome that the cell itself was given. -/
def result? (store : Store α β) (id : CellId) : Option (Outcome α) := (store.cell? id).bind (·.outcome)

variable {store next : Store α β} {id source target : CellId} {cell ending : Cell α β}

theorem Path.mem_iff {path : List CellId} (walk : Path store id path) {passed : CellId} :
    passed ∈ path ↔ store.Leads id passed := by
  constructor
  · intro member
    induction walk with
    | stop =>
      rw [List.mem_singleton] at member
      rw [member]
      exact .refl
    | next linked _ ih =>
      rcases List.mem_cons.1 member with rfl | later
      · exact .refl
      · exact .head linked (ih later)
  · intro leads
    induction leads using Relation.ReflTransGen.head_induction_on generalizing path with
    | refl => cases walk <;> simp
    | head linked _ ih =>
      cases walk with
      | stop ended =>
        rw [linked] at ended
        contradiction
      | next relinked further =>
        rw [linked] at relinked
        cases relinked
        exact List.mem_cons_of_mem _ (ih further)

theorem Grounded.mem_chain_iff (grounded : store.Grounded) {passed : CellId} :
    passed ∈ store.chain id ↔ store.Leads id passed := by
  obtain ⟨path, walk⟩ := grounded id
  rw [walk.chain_eq, walk.mem_iff]

theorem Grounded.leads_last (grounded : store.Grounded) (id : CellId) : store.Leads id (store.last id) :=
  grounded.mem_chain_iff.1 (List.getLast_mem _)

/-! ## Refusals -/

/-- What bars a link. Where several reasons apply, the first of them counts. -/
def Barred (store : Store α β) (source target : CellId) : ForwardFault → Prop
  | .notIndirect => ¬ store.isIndirect source
  | .cycle => store.isIndirect source ∧ store.Leads target source
  | .alreadyResolved => store.isIndirect source ∧ ¬ store.Leads target source ∧ store.result? source ≠ none
  | .alreadyForwarded => store.isIndirect source ∧ ¬ store.Leads target source ∧
      store.result? source = none ∧ store.link? source ≠ none

theorem isIndirect_of_found (found : store.cell? id = some cell) :
    store.isIndirect id ↔ cell.kind = .indirect := by
  simp [isIndirect, found]

/-- A link is refused for the first reason that bars it. -/
theorem linkTo_eq_error_iff (grounded : store.Grounded) (inside : source < store.cells.size)
    {fault : ForwardFault} :
    store.linkTo source target = .error fault ↔ store.Barred source target fault := by
  have found : store.cell? source = some store.cells[source] := Array.getElem?_eq_getElem inside
  generalize store.cells[source] = cell at found
  have indirect := isIndirect_of_found found
  have leads : source ∈ store.chain target ↔ store.Leads target source := grounded.mem_chain_iff
  have settled : store.result? source = cell.outcome := by simp [result?, found]
  have linked := link?_of_cell? found
  unfold linkTo
  rw [found]
  -- In the order in which the reasons are looked at.
  by_cases kind : cell.kind = .indirect
  · by_cases chained : source ∈ store.chain target
    · cases fault <;> simp [Barred, indirect, kind, ← leads, chained]
    · cases own : cell.outcome with
      | some outcome => cases fault <;> simp [Barred, indirect, kind, ← leads, chained, settled, own]
      | none => cases link : cell.link <;> cases fault <;>
          simp [Barred, indirect, kind, ← leads, chained, settled, own, linked, link]
  · cases fault <;> simp [Barred, indirect, kind]

/-- What nothing bars is linked. -/
theorem linkTo_of_not_barred (grounded : store.Grounded) (inside : source < store.cells.size)
    (legal : ∀ fault, ¬ store.Barred source target fault) :
    ∃ cell, store.cell? source = some cell ∧
      store.linkTo source target =
        .ok (cell.waiters, store.put source { cell with link := some target, waiters := [] }) := by
  cases linked : store.linkTo source target with
  | error fault => exact absurd ((linkTo_eq_error_iff grounded inside).1 linked) (legal fault)
  | ok taken =>
    obtain ⟨waiters, next⟩ := taken
    obtain ⟨cell, found, -, -, -, -, rfl, rfl⟩ := linkTo_eq_ok_iff.1 linked
    exact ⟨cell, found, rfl⟩

/-! ## Waiters that move on -/

theorem put_put (store : Store α β) (id : CellId) (first second : Cell α β) :
    (store.put id first).put id second = store.put id second := by
  simp [put]

theorem put_self (found : store.cell? id = some cell) : store.put id cell = store := by
  obtain ⟨bound, same⟩ := Array.getElem?_eq_some_iff.1 found
  simp [put, Array.setIfInBounds, bound, ← same]

end Store

/-- The cell with more who wait, behind all others. -/
def Cell.queue (cell : Cell α β) (waiters : List (Waiter α β)) : Cell α β :=
  { cell with waiters := cell.waiters ++ waiters }

@[simp] theorem Cell.queue_nil (cell : Cell α β) : cell.queue [] = cell := by
  simp [queue]

@[simp] theorem Cell.queue_queue (cell : Cell α β) (first second : List (Waiter α β)) :
    (cell.queue first).queue second = cell.queue (first ++ second) := by
  simp [queue]

/-- Waiters that are handed to a cell that is not available wait at the end of its chain, in their
order, and nothing runs. -/
theorem eachIsolated_hand_park (fire : Fire α β ε ω) {target place : CellId} {ending : Cell α β}
    {world : World α β ε ω} (grounded : world.store.Grounded) (ends : world.store.last target = place)
    (found : world.store.cell? place = some ending) (pending : ending.outcome = none)
    (waiters : List (Waiter α β)) :
    Act.eachIsolated (hand fire target) waiters world =
      (.ok (), { world with store := world.store.put place (ending.queue waiters) }) := by
  induction waiters generalizing world ending with
  | nil => simp [Act.eachIsolated, Act.pure_apply, Store.put_self found]
  | cons waiter waiters ih =>
    have parked : world.store.park target waiter = some (world.store.put place (ending.queue [waiter])) := by
      rw [Store.park_eq_some_iff, ends]
      exact ⟨ending, found, pending, rfl⟩
    have handed : hand fire target waiter world =
        (.ok (), { world with store := world.store.put place (ending.queue [waiter]) }) := by
      rw [hand_apply, parked]
    have still : (world.store.put place (ending.queue [waiter])).Grounded := by
      refine grounded.congr fun other => ?_
      rw [Store.link?_put found]
      split
      · rename_i here
        rw [here, Store.link?_of_cell? found]
        rfl
      · rfl
    have there : (world.store.put place (ending.queue [waiter])).cell? place = some (ending.queue [waiter]) := by
      rw [Store.cell?_put found, if_pos rfl]
    have unsettled : (ending.queue [waiter]).outcome = none := pending
    have onward : (world.store.put place (ending.queue [waiter])).last target = place :=
      (Store.last_park grounded parked target).trans ends
    rw [Act.eachIsolated_cons_ok handed, ih still onward there unsettled]
    simp [Store.put_put]

/-! ## Links that are taken -/

/-- What a link that nothing bars does. The store changes in the source, and then either those who
waited there wait at the end of the chain of the target, or the first of them runs. -/
theorem forward_of_not_barred (fire : Fire α β ε ω) {world : World α β ε ω} {source target : CellId}
    (sound : world.store.Sound) (inside : source < world.store.cells.size)
    (bound : target < world.store.cells.size)
    (legal : ∀ fault, ¬ world.store.Barred source target fault) :
    ∃ cell place ending, world.store.cell? source = some cell ∧ world.store.Leads target place ∧
      world.store.cell? place = some ending ∧ ending.link = none ∧ place ≠ source ∧
      let linked := world.store.put source { cell with link := some target, waiters := [] }
      world.store.linkTo source target = .ok (cell.waiters, linked) ∧
      (ending.outcome = none →
        forward fire source target world =
          (.ok (.ok ()), { world with store := linked.put place (ending.queue cell.waiters) })) ∧
      (ending.outcome ≠ none →
        forward fire source target world =
          (Act.eachIsolated (hand fire target) cell.waiters >>= fun _ => pure (.ok ())) { world with store := linked } ∧
        ∀ waiter, hand fire target waiter { world with store := linked } =
          fire waiter { world with store := linked }) := by
  obtain ⟨cell, found, taken⟩ := Store.linkTo_of_not_barred sound.grounded inside legal
  obtain ⟨ending, there, free, shown⟩ := sound.cell?_last bound
  have joins := Store.joins_of_linkTo sound.grounded taken
  have grounded := joins.grounded sound.grounded
  have ends := Store.last_linkTo sound.grounded taken target
  rw [if_neg joins.apart] at ends
  have stays : (world.store.put source { cell with link := some target, waiters := [] }).cell?
      (world.store.last target) = some ending := by
    rw [Store.cell?_put found, if_neg joins.apart, there]
  refine ⟨cell, world.store.last target, ending, found, sound.grounded.leads_last target, there, free, joins.apart,
    taken, fun pending => ?_, fun settled => ⟨?_, fun waiter => ?_⟩⟩
  · rw [forward_apply, taken]
    exact Act.bind_ok (eachIsolated_hand_park fire grounded ends stays pending cell.waiters)
  · rw [forward_apply, taken]
  · have refused : (world.store.put source { cell with link := some target, waiters := [] }).park target waiter =
        none := by
      unfold Store.park
      rw [ends, stays]
      simp [Option.isSome_iff_ne_none, settled]
    rw [hand_apply, refused]

/-- A refusal leaves everything as it was. -/
theorem forward_eq_error_iff (fire : Fire α β ε ω) {world : World α β ε ω} {source target : CellId}
    (grounded : world.store.Grounded) (inside : source < world.store.cells.size) {fault : ForwardFault} :
    (forward fire source target world).1 = .ok (.error fault) ↔ world.store.Barred source target fault := by
  rw [← Store.linkTo_eq_error_iff grounded inside, forward_apply]
  cases world.store.linkTo source target with
  | error other => simp
  | ok taken =>
    simp only [Act.bind_apply, reduceCtorEq, iff_false]
    cases Act.eachIsolated (hand fire target) taken.1 { world with store := taken.2 } with
    | mk reply after => cases reply <;> simp [Act.pure_apply]

theorem forward_of_barred (fire : Fire α β ε ω) {world : World α β ε ω} {source target : CellId}
    (grounded : world.store.Grounded) (inside : source < world.store.cells.size) {fault : ForwardFault}
    (barred : world.store.Barred source target fault) :
    forward fire source target world = (.ok (.error fault), world) := by
  rw [forward_apply, (Store.linkTo_eq_error_iff grounded inside).2 barred]

/-! ## Kinds of cells -/

/-- A cell that was not there before a step is made by it. -/
theorem Store.Change.make_eq {store next : Store α β} (change : store.Change next) {id : CellId} {cell : Cell α β}
    (new : store.cell? id = none) (found : next.cell? id = some cell) : store.make cell = (id, next) := by
  have beyond : store.cells.size ≤ id := Array.getElem?_eq_none_iff.1 new
  have bound := lt_size_of_cell? found
  cases change with
  | other same =>
    rw [same] at bound
    exact absurd bound (Nat.not_lt.2 beyond)
  | make =>
    rw [cell?_make] at found
    split at found
    · rename_i here
      cases found
      rw [here]
      rfl
    · rw [new] at found
      contradiction
  | settle settled =>
    rw [(aligned_settle settled).size] at bound
    exact absurd bound (Nat.not_lt.2 beyond)
  | link _ linked =>
    rw [(aligned_linkTo linked).size] at bound
    exact absurd bound (Nat.not_lt.2 beyond)
  | park parked =>
    rw [(aligned_park parked).size] at bound
    exact absurd bound (Nat.not_lt.2 beyond)

namespace Moment

/-- On the way from a moment to another a cell of this kind was made. -/
def Made (start moment : Moment α β ε ω) (id : CellId) (kind : CellKind) : Prop :=
  ∃ before after cell, Steps Move start before ∧ Move before after ∧ Steps Move after moment ∧
    before.world.store.make cell = (id, after.world.store) ∧ cell.kind = kind

variable {start moment : Moment α β ε ω}

/-- A cell is of the kind that it was made of. -/
theorem made_iff (orderly : start.Orderly) (empty : start.world.store.cells = #[]) (steps : Steps Move start moment)
    {id : CellId} {kind : CellKind} :
    start.Made moment id kind ↔ ∃ cell, moment.world.store.cell? id = some cell ∧ cell.kind = kind := by
  constructor
  · rintro ⟨before, after, cell, earlier, move, later, made, rfl⟩
    have there : after.world.store.cell? id = some cell := by
      obtain ⟨here, same⟩ := Prod.mk.inj made
      rw [← here, ← same]
      exact (Store.cell?_make ..).trans (if_pos rfl)
    have kept := (orderly.keeps earlier).1.move move
    obtain ⟨now, found, kind, -⟩ := (kept.keeps later).2.cell there
    exact ⟨now, found, kind⟩
  · rintro ⟨cell, found, rfl⟩
    induction steps generalizing cell with
    | refl => simp [Store.cell?, empty] at found
    | @tail before after earlier move ih =>
      cases former : before.world.store.cell? id with
      | none => exact ⟨before, after, cell, earlier, move, .refl, move.change.make_eq former found, rfl⟩
      | some old =>
        -- An older cell: this step keeps its kind.
        obtain ⟨now, there, kind, -⟩ := (move.change.keeps (orderly.keeps earlier).1.sound).cell former
        rw [found] at there
        cases there
        obtain ⟨first, second, made, before, step, after, creation, same⟩ := ih old former
        exact ⟨first, second, made, before, step, after.tail move, creation, same.trans kind.symm⟩

end Moment

namespace Script

variable {α : Type}

/-- At every moment of a run, in the middle of operations too: a link is refused when the source was
not made as an indirect cell, else when the source is on the chain of the target, else when the
source has an outcome, else when it has a link, and then nothing happens at all. Otherwise it is
taken for good, and until a continuation runs it changes the source and the line at the end of the
chain of the target. -/
theorem forward_accepts_legal_links (valueText : α → String) (script : List (Op α)) {moment : Instant α}
    (reached : Steps Move ⟨[], worldAfter valueText script⟩ moment) {source target : CellId}
    (inside : source < moment.world.store.cells.size) (bound : target < moment.world.store.cells.size)
    (fire : Firing α) :
    let world := moment.world
    let store := world.store
    let made := Moment.Made ⟨[], { outer := [] }⟩ moment source .indirect
    let reply := (forward fire source target world).1
    (reply = .ok (.error .notIndirect) ↔ ¬ made) ∧
    (reply = .ok (.error .cycle) ↔ made ∧ store.Leads target source) ∧
    (reply = .ok (.error .alreadyResolved) ↔
      made ∧ ¬ store.Leads target source ∧ store.result? source ≠ none) ∧
    (reply = .ok (.error .alreadyForwarded) ↔
      made ∧ ¬ store.Leads target source ∧ store.result? source = none ∧ store.link? source ≠ none) ∧
    (∀ fault, reply = .ok (.error fault) → forward fire source target world = (.ok (.error fault), world)) ∧
    (made → ¬ store.Leads target source → store.result? source = none → store.link? source = none →
      ∃ cell place ending, store.cell? source = some cell ∧ store.Leads target place ∧
        store.cell? place = some ending ∧ ending.link = none ∧ place ≠ source ∧
        let linked := store.put source { cell with link := some target, waiters := [] }
        (ending.outcome = none →
          forward fire source target world =
            (.ok (.ok ()), { world with store := linked.put place (ending.queue cell.waiters) })) ∧
        (ending.outcome ≠ none →
          forward fire source target world = (Act.eachIsolated (hand fire target) cell.waiters >>=
            fun _ => pure (.ok ())) { world with store := linked } ∧
          ∀ waiter, hand fire target waiter { world with store := linked } =
            fire waiter { world with store := linked }) ∧
        ∀ later, Steps Move ⟨cell.waiters.map (.hand target) ++ moment.duties, { world with store := linked }⟩ later →
          later.world.store.link? source = some target) := by
  intro world store made reply
  have orderly := ((orderly_worldAfter valueText script).keeps reached).1
  have grounded := orderly.sound.grounded
  have indirect : store.isIndirect source ↔ made := by
    have begun := (moves_of_steps (steps_worldAfter valueText script).2).trans reached
    have found : store.cell? source = some store.cells[source] := Array.getElem?_eq_getElem inside
    rw [Store.isIndirect_of_found found, show made ↔ _ from Moment.made_iff (.start _) rfl begun, found]
    simp
  -- A link is refused just when something bars it.
  have barred {fault : ForwardFault} : reply = .ok (.error fault) ↔ store.Barred source target fault :=
    forward_eq_error_iff fire grounded inside
  refine ⟨?_, ?_, ?_, ?_, ?_, ?_⟩
  · rw [barred, ← indirect]
    rfl
  · rw [barred, ← indirect]
    rfl
  · rw [barred, ← indirect]
    rfl
  · rw [barred, ← indirect]
    rfl
  · intro fault refused
    exact forward_of_barred fire grounded inside (barred.1 refused)
  · intro kind apart unsettled free
    have legal : ∀ fault, ¬ store.Barred source target fault := by
      intro fault
      cases fault <;> simp [Store.Barred, indirect, kind, apart, unsettled, free]
    obtain ⟨cell, place, ending, found, leads, there, ended, different, taken, parks, runs⟩ :=
      forward_of_not_barred fire orderly.sound inside bound legal
    refine ⟨cell, place, ending, found, leads, there, ended, different, parks, runs, fun later steps => ?_⟩
    have after := orderly.move (.free (.link bound taken))
    exact (after.keeps steps).2.link? (Store.joins_of_linkTo grounded taken).linked

/-- An indirect cell is never linked to itself. -/
theorem forward_accepts_legal_links_itself :
    let world := worldAfter (fun _ : Nat => "") [.make .indirect, .make .concrete]
    let moment : Instant Nat := ⟨[], world⟩
    Steps Move ⟨[], world⟩ moment ∧ 0 < world.store.cells.size ∧
      (forward (fun _ => pure ()) 0 0 world).1 = .ok (.error .cycle) ∧
      Moment.Made ⟨[], { outer := [] }⟩ moment 0 .indirect ∧ world.store.Leads 0 0 := by
  intro world moment
  have inside : 0 < world.store.cells.size := by decide
  have refused : (forward (fun _ => pure ()) 0 0 world).1 = .ok (.error .cycle) := by rfl
  have legal := forward_accepts_legal_links (fun _ : Nat => "") [.make .indirect, .make .concrete]
    .refl inside inside fun _ => pure ()
  exact ⟨.refl, inside, refused, legal.2.1.1 refused⟩

end Script

end DeferredJit.Async
