import DeferredJit.Proofs.Async.Lines
import DeferredJit.Proofs.Async.Silence

/-! Two operations that give something to different cells may change places, if those who wait are
silent: both are taken in either order, and both orders end with the same. -/

set_option autoImplicit false

namespace DeferredJit.Async

variable {α β ε ω : Type}

/-! ## One past, and nobody new -/

theorem Moment.Accounted.waiting_nodup {world : World α β ε ω} (accounted : Moment.Accounted ⟨[], world⟩) :
    (world.store.waiters.map Waiter.serial).Nodup := by
  have all := (accounted.balance.map Prod.fst).nodup_iff.1 accounted.serials_nodup
  rw [List.map_append, List.map_map] at all
  exact (List.nodup_append.1 all).1

theorem Store.Seated.mem_waitersAt_iff {store : Store α β} (seated : store.Seated) {waiter : Waiter α β}
    {id : CellId} : waiter ∈ store.waitersAt id ↔ waiter ∈ store.waiters ∧ store.last waiter.home = id := by
  constructor
  · intro member
    obtain ⟨cell, found, among⟩ := Store.mem_of_waitersAt member
    exact ⟨Store.mem_waiters.2 ⟨id, cell, found, among⟩, (seated found among).2⟩
  · rintro ⟨member, rfl⟩
    obtain ⟨id, cell, found, among⟩ := Store.mem_waiters.1 member
    rw [(seated found among).2, Store.waitersAt_of_found found]
    exact among

theorem Store.waitersAt_sublist (store : Store α β) (id : CellId) : (store.waitersAt id).Sublist store.waiters := by
  unfold waitersAt
  cases found : store.cell? id with
  | none => exact List.nil_sublist _
  | some cell =>
    have member : cell ∈ store.cells.toList := Array.mem_toList_iff.2 (Array.mem_of_getElem? found)
    exact List.sublist_flatten_of_mem (List.mem_map_of_mem member)

/-- Nothing is in progress in this world, and what has happened since the past brought nobody new. -/
structure World.Descends (past world : World α β ε ω) : Prop where
  sequel : past.Sequel world
  orderly : Moment.Orderly ⟨[], world⟩
  accounted : Moment.Accounted ⟨[], world⟩
  tallied : Moment.Tallied ⟨[], world⟩

namespace World.Descends

variable {past one other : World α β ε ω}

theorem nodup_waiters (descends : past.Descends one) : one.store.waiters.Nodup :=
  descends.accounted.waiting_nodup.of_map

/-- Whoever waited in the past has gone on waiting just if its cell still shows nothing. -/
theorem mem_waiters_iff (descends : past.Descends one) (known : Moment.Accounted ⟨[], past⟩) {waiter : Waiter α β} :
    waiter ∈ one.store.waiters ↔ waiter ∈ past.store.waiters ∧ one.store.state waiter.home = none := by
  constructor
  · intro member
    exact ⟨descends.sequel.waiters member, descends.orderly.state_of_waiting member⟩
  · rintro ⟨member, pending⟩
    have registered : (waiter.serial, waiter.home) ∈ one.registrations := by
      rw [descends.sequel.registrations]
      exact known.balance.mem_iff.2 (List.mem_append_left _ (List.mem_map_of_mem member))
    rcases descends.accounted.once registered List.not_mem_nil with ⟨-, ran, -⟩ | ⟨-, -, still, there, same, -⟩
    · obtain ⟨seen, happened⟩ := World.mem_runs_iff.1 ran
      obtain ⟨shown, same⟩ := descends.orderly.history _ happened
      rw [← same, pending] at shown
      cases shown
    · rwa [← List.inj_on_of_nodup_map known.waiting_nodup (descends.sequel.waiters there) member same]

section Twins

variable (first : past.Descends one) (second : past.Descends other) (known : Moment.Accounted ⟨[], past⟩)
  (same : other.store.outline = one.store.outline)

include first second known same

theorem waiters_perm : other.store.waiters.Perm one.store.waiters := by
  apply (List.perm_ext_iff_of_nodup second.nodup_waiters first.nodup_waiters).2
  intro waiter
  rw [second.mem_waiters_iff known, first.mem_waiters_iff known,
    Store.state_of_outline_eq first.orderly.sound.grounded same]

/-- The same continuations wait in a cell. -/
theorem waitersAt_perm (id : CellId) : (other.store.waitersAt id).Perm (one.store.waitersAt id) := by
  have last := Store.last_of_outline_eq first.orderly.sound.grounded same
  apply (List.perm_ext_iff_of_nodup (second.nodup_waiters.sublist (other.store.waitersAt_sublist id))
    (first.nodup_waiters.sublist (one.store.waitersAt_sublist id))).2
  intro waiter
  rw [second.orderly.seated.mem_waitersAt_iff, first.orderly.seated.mem_waitersAt_iff, last,
    (waiters_perm first second known same).mem_iff]

/-- The same continuations have run. -/
theorem runs_perm : other.runs.Perm one.runs := by
  have waiting := (waiters_perm first second known same).map Waiter.key
  have registrations : other.registrations = one.registrations :=
    second.sequel.registrations.trans first.sequel.registrations.symm
  have balance := second.accounted.balance
  change other.registrations.Perm (other.store.waiters.map Waiter.key ++ other.runs) at balance
  rw [registrations] at balance
  -- Of what was registered, the same waits in both, so the same has run.
  apply (List.perm_append_left_iff (one.store.waiters.map Waiter.key)).1
  exact (waiting.symm.append_right _).trans (balance.symm.trans first.accounted.balance)

theorem timesRun_eq (serial : Nat) : other.timesRun serial = one.timesRun serial :=
  ((runs_perm first second known same).map Prod.fst).count_eq serial

/-- They have seen the same. -/
theorem ran_of_ran {serial : Nat} {home : CellId} {seen : Option (Outcome α)}
    (ran : .ran serial home seen ∈ one.history) : .ran serial home seen ∈ other.history := by
  have run := (runs_perm first second known same).mem_iff.2 (World.mem_runs_iff.2 ⟨seen, ran⟩)
  obtain ⟨shown, happened⟩ := World.mem_runs_iff.1 run
  have here := (first.orderly.history _ ran).2
  have there := (second.orderly.history _ happened).2
  rw [Store.state_of_outline_eq first.orderly.sound.grounded same, here] at there
  rwa [there]

/-- The same latches have opened. -/
theorem timesOpened_eq (latch : LatchId) : other.timesOpened latch = one.timesOpened latch := by
  have held : other.store.body? latch = one.store.body? latch :=
    (second.sequel.held latch).trans (first.sequel.held latch).symm
  have inside : latch < other.store.latches.length ↔ latch < one.store.latches.length := by
    have beyond (store : Store α β) : store.body? latch = none ↔ store.latches.length ≤ latch := by
      simp [Store.body?]
    rw [← Nat.not_le, ← Nat.not_le, ← beyond, ← beyond, held]
  have missing : other.store.missing latch = one.store.missing latch := by
    have arrivals := ((waiters_perm first second known same).filterMap (·.continuation.arrival?)).count_eq latch
    exact (second.tallied.latched latch).symm.trans (arrivals.trans (first.tallied.latched latch))
  rw [second.tallied.timesOpened_eq, first.tallied.timesOpened_eq]
  simp only [inside, Store.spent, missing]

end Twins

end World.Descends

/-! ## Operations that decide -/

namespace Script

variable {α : Type} {world next : Scene α} {op : Op α} {cell : CellId} {decision : Decision α} {kind : CellKind}

/-- The name of the cell that an outcome or a link is for. -/
def Op.receiver? : Op α → Option Nat
  | .settle id _ => some id
  | .forward id _ => some id
  | _ => none

/-- What the operation is to give to which cell. -/
inductive Op.Asks (table : Table) : Op α → CellId → Decision α → Prop where
  | settle {id cell outcome} : table[id]? = some cell → Asks table (.settle id outcome) cell (.settle outcome)
  | forward {id target cell goal} : table[id]? = some cell → table[target]? = some goal →
      Asks table (.forward id target) cell (.link goal)

/-- The reply to an outcome or a link that was taken. -/
def Took (reply : Except Interrupt (Reply α)) : Prop :=
  reply = .ok (.flag true) ∨ reply = .ok (.forwarded (.ok ()))

/-- Only what a cell is open to is taken. -/
theorem asks_of_took (valueText : α → String) (ready : Ready [] world) {id : Nat} (receiver : op.receiver? = some id)
    (took : Took (step valueText op world).1) : ∃ cell decision kind, world.outer[id]? = some cell ∧
      op.Asks world.outer cell decision ∧ world.store.Open cell decision kind := by
  generalize ran : step valueText op world = ended at took
  obtain ⟨reply | reply, next⟩ := ended
  · rcases took with same | same <;> cases same
  change perform _ _ op world = _ at ran
  -- Only giving an outcome or a link has a receiver.
  cases op with
  | settle place outcome =>
    cases receiver
    rw [perform] at ran
    obtain ⟨cell, found, ran⟩ := found_of_named ran
    rw [Act.bind_apply, resolve_apply] at ran
    cases settled : world.store.settle cell outcome with
    | none =>
      rw [settled] at ran
      cases ran
      simp [Took] at took
    | some handed =>
      obtain ⟨kind, opened⟩ := Store.settle_iff_open.1 ⟨handed.1, handed.2, settled⟩
      exact ⟨cell, _, kind, found, .settle found, opened⟩
  | forward place target =>
    cases receiver
    rw [perform] at ran
    obtain ⟨cell, found, ran⟩ := found_of_named ran
    obtain ⟨goal, there, ran⟩ := found_of_named ran
    rw [Act.bind_apply, forward_apply] at ran
    cases linked : world.store.linkTo cell goal with
    | error fault =>
      rw [linked] at ran
      cases ran
      simp [Took] at took
    | ok handed =>
      obtain ⟨kind, opened⟩ := (Store.linkTo_iff_open ready.orderly.sound.grounded).1 ⟨handed.1, handed.2, linked⟩
      exact ⟨cell, _, kind, found, .forward found there, opened⟩
  | _ => cases receiver

/-- What a cell is open to is taken if those who wait are silent. -/
theorem Op.Asks.step (asks : op.Asks world.outer cell decision) (valueText : α → String) (ready : Ready [] world)
    (silent : SilentWaiters world) (opened : world.store.Open cell decision kind) :
    Took (Script.step valueText op world).1 ∧ world.Sequel (Script.step valueText op world).2 ∧
      world.store.Decides (Script.step valueText op world).2.store cell decision kind := by
  have harmless := silent.harmless valueText (Nat.le_add_left (world.store.weight Reaction.weight) op.weight)
  cases asks with
  | @settle id _ outcome found =>
    obtain ⟨next, ran, sequel, decides⟩ := harmless.resolve opened
    have performed : Script.step valueText (.settle id outcome) world = (.ok (.flag true), next) := by
      change perform _ _ _ world = _
      rw [perform, Act.bind_ok (named_of_found found), Act.bind_ok ran]
      rfl
    rw [performed]
    exact ⟨.inl rfl, sequel, decides⟩
  | @forward id target _ goal found there =>
    have bound : goal < world.store.cells.size := ready.named goal (List.mem_of_getElem? there)
    obtain ⟨next, ran, sequel, decides⟩ := harmless.forward ready.orderly.sound bound opened
    have performed : Script.step valueText (.forward id target) world = (.ok (.forwarded (.ok ())), next) := by
      change perform _ _ _ world = _
      rw [perform, Act.bind_ok (named_of_found found), Act.bind_ok (named_of_found there), Act.bind_ok ran]
      rfl
    rw [performed]
    exact ⟨.inr rfl, sequel, decides⟩

/-! ## Both orders -/

/-- What is taken in one order is taken in the other, and leaves cells that show the same. -/
theorem took_swapped (valueText : α → String) (ready : Ready [] world) (silent : SilentWaiters world)
    {first second : Op α} {one other : Nat} (receiver : first.receiver? = some one)
    (otherReceiver : second.receiver? = some other) (apart : world.outer[one]? ≠ world.outer[other]?)
    (took : Took (step valueText first world).1)
    (thenTook : Took (step valueText second (step valueText first world).2).1) :
    let forth := (step valueText second (step valueText first world).2).2
    let back := (step valueText first (step valueText second world).2).2
    Took (step valueText second world).1 ∧ Took (step valueText first (step valueText second world).2).1 ∧
      world.Sequel forth ∧ world.Sequel back ∧ back.store.outline = forth.store.outline := by
  intro forth back
  -- The given order.
  obtain ⟨here, given, hereKind, named, asks, opened⟩ := asks_of_took valueText ready receiver took
  obtain ⟨-, sequel, decides⟩ := asks.step valueText ready silent opened
  have later := ready_step valueText first ready
  obtain ⟨there, next, thereKind, nextNamed, nextAsks, nextOpened⟩ :=
    asks_of_took valueText later otherReceiver thenTook
  obtain ⟨-, nextSequel, nextDecides⟩ := nextAsks.step valueText later (silent.sequel sequel) nextOpened
  rw [sequel.outer] at nextNamed nextAsks
  have elsewhere : here ≠ there := by
    rintro rfl
    exact apart (named.trans nextNamed.symm)
  -- The other order.
  have grounded := ready.orderly.sound.grounded
  obtain ⟨tookEarly, earlySequel, earlyDecides⟩ :=
    nextAsks.step valueText ready silent (nextOpened.early grounded elsewhere opened decides)
  rw [← earlySequel.outer] at asks
  obtain ⟨tookLate, lateSequel, lateDecides⟩ :=
    asks.step valueText (ready_step valueText second ready) (silent.sequel earlySequel)
      (opened.late grounded elsewhere decides nextOpened earlyDecides)
  exact ⟨tookEarly, tookLate, sequel.trans nextSequel, earlySequel.trans lateSequel,
    Store.outline_swap elsewhere decides nextDecides earlyDecides lateDecides⟩

/-- Two outcomes or links for different cells, after a script that leaves silent continuations only. If both are
taken one after the other, they are taken in the other order too. In the end all cells show the same, the same
continuations have run, each having seen the same, and the same latches have opened; all others wait in the same
cells. -/
theorem decisions_commute (valueText : α → String) (script : List (Op α)) {first second : Op α} {one other : Nat}
    (silent : SilentWaiters (worldAfter valueText script))
    (receiver : first.receiver? = some one) (otherReceiver : second.receiver? = some other)
    (apart : (worldAfter valueText script).outer[one]? ≠ (worldAfter valueText script).outer[other]?)
    (took : Took (step valueText first (worldAfter valueText script)).1)
    (thenTook : Took (step valueText second (worldAfter valueText (script ++ [first]))).1) :
    let forth := worldAfter valueText (script ++ [first, second])
    let back := worldAfter valueText (script ++ [second, first])
    Took (step valueText second (worldAfter valueText script)).1 ∧
    Took (step valueText first (worldAfter valueText (script ++ [second]))).1 ∧
    (∀ cell, back.store.state cell = forth.store.state cell) ∧
    (∀ serial, back.timesRun serial = forth.timesRun serial) ∧
    (∀ serial home seen, .ran serial home seen ∈ back.history ↔ .ran serial home seen ∈ forth.history) ∧
    (∀ latch, back.timesOpened latch = forth.timesOpened latch) ∧
    ∀ cell, (back.store.waitersAt cell).Perm (forth.store.waitersAt cell) := by
  intro forth back
  have known := accounted_worldAfter valueText script
  have ready := (steps_worldAfter valueText script).1
  have reached (op : Op α) :
      worldAfter valueText (script ++ [op]) = (step valueText op (worldAfter valueText script)).2 :=
    worldAfter_append valueText script [op]
  rw [reached] at thenTook ⊢
  obtain ⟨tookEarly, tookLate, onward, aside, same⟩ :=
    took_swapped valueText ready silent receiver otherReceiver apart took thenTook
  have descends {more : List (Op α)}
      (sequel : (worldAfter valueText script).Sequel (worldAfter valueText (script ++ more))) :
      (worldAfter valueText script).Descends (worldAfter valueText (script ++ more)) :=
    ⟨sequel, orderly_worldAfter valueText _, accounted_worldAfter valueText _, tallied_worldAfter valueText _⟩
  have there : forth = (step valueText second (step valueText first (worldAfter valueText script)).2).2 :=
    worldAfter_append valueText script [first, second]
  have here : back = (step valueText first (step valueText second (worldAfter valueText script)).2).2 :=
    worldAfter_append valueText script [second, first]
  rw [← there] at onward same
  rw [← here] at aside same
  have toForth : (worldAfter valueText script).Descends forth := descends onward
  have toBack : (worldAfter valueText script).Descends back := descends aside
  exact ⟨tookEarly, tookLate, Store.state_of_outline_eq toForth.orderly.sound.grounded same,
    toForth.timesRun_eq toBack known same,
    fun _ _ _ => ⟨toBack.ran_of_ran toForth known same.symm, toForth.ran_of_ran toBack known same⟩,
    toForth.timesOpened_eq toBack known same, toForth.waitersAt_perm toBack known same⟩

/-- A cell is linked to another that gets its outcome after that, or before. Somebody waits for it. -/
theorem decisions_commute_link_and_settle :
    let script : List (Op Nat) := [.make .indirect, .make .concrete, .afterwards 0 (.mk "done" [] none)]
    let world := worldAfter (fun _ => "") script
    SilentWaiters world ∧ world.outer[0]? ≠ world.outer[1]? ∧
    Took (step (fun _ => "") (.forward 0 1) world).1 ∧
    Took (step (fun _ => "") (.settle 1 (.ok 7)) (worldAfter (fun _ => "") (script ++ [.forward 0 1]))).1 ∧
    Took (step (fun _ => "") (.settle 1 (.ok 7)) world).1 ∧
    Took (step (fun _ => "") (.forward 0 1) (worldAfter (fun _ => "") (script ++ [.settle 1 (.ok 7)]))).1 ∧
    ∀ serial, (worldAfter (fun _ => "") (script ++ [.settle 1 (.ok 7), .forward 0 1])).timesRun serial =
      (worldAfter (fun _ => "") (script ++ [.forward 0 1, .settle 1 (.ok 7)])).timesRun serial := by
  intro script world
  have silent : SilentWaiters world := by
    intro waiter member
    have waiters : world.store.waiters = [⟨0, 0, .call ⟨false, .mk "done" [] none⟩⟩] := by rfl
    rw [waiters] at member
    rw [List.mem_singleton.1 member]
    exact ⟨rfl, rfl⟩
  have apart : world.outer[0]? ≠ world.outer[1]? := by decide
  have first : Took (step (fun _ => "") (.forward 0 1) world).1 := .inr (by rfl)
  have second : Took (step (fun _ => "") (.settle 1 (.ok 7))
      (worldAfter (fun _ => "") (script ++ [.forward 0 1]))).1 := .inl (by rfl)
  have both := decisions_commute (fun _ => "") script silent rfl rfl apart first second
  exact ⟨silent, apart, first, second, both.1, both.2.1, both.2.2.2.1⟩

end Script

end DeferredJit.Async
