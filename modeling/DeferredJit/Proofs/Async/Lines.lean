import DeferredJit.Proofs.Async.Accounts
import DeferredJit.Proofs.Async.Growth

/-! Lines in front of a cell: of those that wait for it, and those that it has sent off and that have
not had their turn. Operations in progress serve a line from the front and never change its order. -/

set_option autoImplicit false

namespace DeferredJit.Async

variable {α β ε ω γ : Type}

/-! ## Waiters of a cell -/

namespace Store

/-- Oldest first. -/
def waitersAt (store : Store α β) (id : CellId) : List (Waiter α β) :=
  (store.cell? id).elim [] (·.waiters)

variable {store next : Store α β} {id : CellId} {waiters : List (Waiter α β)}

theorem waitersAt_of_found {cell : Cell α β} (found : store.cell? id = some cell) :
    store.waitersAt id = cell.waiters := by
  unfold waitersAt
  rw [found]
  rfl

theorem mem_of_waitersAt {waiter : Waiter α β} (member : waiter ∈ store.waitersAt id) :
    ∃ cell, store.cell? id = some cell ∧ waiter ∈ cell.waiters := by
  unfold waitersAt at member
  cases found : store.cell? id with
  | none =>
    rw [found] at member
    cases member
  | some cell =>
    rw [found] at member
    exact ⟨cell, rfl, member⟩

theorem waitersAt_of_cells_eq (same : next.cells = store.cells) (other : CellId) :
    next.waitersAt other = store.waitersAt other := by
  unfold waitersAt cell?
  rw [same]

theorem waitersAt_put {old : Cell α β} (found : store.cell? id = some old) (new : Cell α β) (other : CellId) :
    (store.put id new).waitersAt other = if other = id then new.waiters else store.waitersAt other := by
  unfold waitersAt
  rw [cell?_put found]
  split <;> rfl

theorem waitersAt_make (store : Store α β) {cell : Cell α β} (nobody : cell.waiters = []) (other : CellId) :
    (store.make cell).2.waitersAt other = store.waitersAt other := by
  unfold waitersAt
  rw [cell?_make]
  split
  · rename_i new
    have missing : store.cell? other = none := by simp [cell?, new]
    rw [missing]
    exact nobody
  · rfl

theorem waitersAt_park {waiter : Waiter α β} (parked : store.park id waiter = some next) (other : CellId) :
    next.waitersAt other = store.waitersAt other ++ if other = store.last id then [waiter] else [] := by
  obtain ⟨cell, found, -, rfl⟩ := park_eq_some_iff.1 parked
  rw [waitersAt_put found]
  split
  · rename_i here
    rw [here, waitersAt_of_found found]
  · rw [List.append_nil]

theorem waitersAt_settle {outcome : Outcome α} (settled : store.settle id outcome = some (waiters, next))
    (other : CellId) : next.waitersAt other = if other = id then [] else store.waitersAt other := by
  obtain ⟨cell, found, -, -, -, rfl⟩ := settle_eq_some_iff.1 settled
  exact waitersAt_put found _ other

theorem waitersAt_linkTo {target : CellId} (linked : store.linkTo id target = .ok (waiters, next))
    (other : CellId) : next.waitersAt other = if other = id then [] else store.waitersAt other := by
  obtain ⟨cell, found, -, -, -, -, -, rfl⟩ := linkTo_eq_ok_iff.1 linked
  exact waitersAt_put found _ other

/-- The waiters that an outcome sends off. -/
theorem waiters_of_settle {outcome : Outcome α} (settled : store.settle id outcome = some (waiters, next)) :
    waiters = store.waitersAt id := by
  obtain ⟨cell, found, -, -, rfl, -⟩ := settle_eq_some_iff.1 settled
  exact (waitersAt_of_found found).symm

theorem waiters_of_linkTo {target : CellId} (linked : store.linkTo id target = .ok (waiters, next)) :
    waiters = store.waitersAt id := by
  obtain ⟨cell, found, -, -, -, -, rfl, -⟩ := linkTo_eq_ok_iff.1 linked
  exact (waitersAt_of_found found).symm

/-- The cell is there, and is never linked. -/
def Concrete (store : Store α β) (id : CellId) : Prop :=
  ∃ cell, store.cell? id = some cell ∧ cell.kind = .concrete

namespace Concrete

theorem later (concrete : store.Concrete id) (keeps : store.Keeps next) : next.Concrete id := by
  obtain ⟨cell, found, kind⟩ := concrete
  obtain ⟨after, there, same, -⟩ := keeps.cell found
  exact ⟨after, there, same.trans kind⟩

theorem last_eq (concrete : store.Concrete id) (sound : store.Sound) : store.last id = id := by
  obtain ⟨cell, found, kind⟩ := concrete
  refine last_of_link?_eq_none ((link?_of_cell? found).trans ?_)
  by_contra linked
  rw [sound.indirect found linked] at kind
  cases kind

/-- Nobody who waits elsewhere waits for it. -/
theorem home_ne (concrete : store.Concrete id) (sound : store.Sound) (seated : store.Seated) {other : CellId}
    (apart : other ≠ id) {waiter : Waiter α β} (member : waiter ∈ store.waitersAt other) : waiter.home ≠ id := by
  rintro rfl
  obtain ⟨cell, found, among⟩ := mem_of_waitersAt member
  exact apart ((seated found among).2.symm.trans (concrete.last_eq sound))

/-- It is no source of a link. -/
theorem ne_source (concrete : store.Concrete id) {source target : CellId}
    (linked : store.linkTo source target = .ok (waiters, next)) : source ≠ id := by
  rintro rfl
  obtain ⟨cell, found, kind⟩ := concrete
  obtain ⟨same, here, indirect, -⟩ := linkTo_eq_ok_iff.1 linked
  rw [found] at here
  cases here
  rw [kind] at indirect
  cases indirect

end Concrete

end Store

/-- A cell that is never linked shows something new only if it is given an outcome. -/
theorem Routine.state_of_concrete {mayPanic : Prop} {before after : Moment α β ε ω} {cell : CellId}
    {outcome : Outcome α} (step : Routine mayPanic before after) (sound : before.world.store.Sound)
    (concrete : before.world.store.Concrete cell) (shown : after.world.store.state cell = some outcome) :
    before.world.store.state cell = some outcome ∨ .give cell outcome ∈ before.duties := by
  cases step with
  | park parked => exact .inl ((Store.state_park sound.grounded parked cell).symm.trans shown)
  | arrive _ arrived | opens _ arrived =>
    have same := Store.cells_of_arriveAt arrived
    exact .inl ((Store.state_of_cells_eq same cell).symm.trans shown)
  | @give target given _ _ _ _ settled =>
    rw [Store.state_settle sound.grounded settled, concrete.last_eq sound] at shown
    split at shown
    · rename_i here
      cases shown
      exact .inr (here ▸ List.mem_cons_self)
    · exact .inl shown
  | link _ linked =>
    rw [Store.state_linkTo sound.grounded linked, concrete.last_eq sound,
      if_neg (concrete.ne_source linked).symm] at shown
    exact .inl shown
  | _ => exact .inl shown

/-! ## Lines -/

variable (pick : β → Option γ)

/-- What a continuation stands in line with, if it does. -/
def Continuation.picked : Continuation α β → Option γ
  | .call body => pick body
  | .arrive _ | .derive .. => none

def Duty.picked : Duty α β → Option γ
  | .hand _ waiter | .fire waiter => waiter.continuation.picked pick
  | .answer body _ => pick body
  | .give .. | .link .. => none

/-- Those that a cell has sent off come before those that wait for it. -/
def Moment.line (moment : Moment α β ε ω) (cell : CellId) : List γ :=
  moment.duties.filterMap (·.picked pick) ++
    (moment.world.store.waitersAt cell).filterMap (·.continuation.picked pick)

section Line

variable {pick} {cell : CellId} {world next : World α β ε ω}

theorem Moment.line_cons (duty : Duty α β) (rest : List (Duty α β)) (world : World α β ε ω) (cell : CellId) :
    Moment.line pick ⟨duty :: rest, world⟩ cell = (duty.picked pick).toList ++ Moment.line pick ⟨rest, world⟩ cell := by
  unfold line
  rw [List.filterMap_cons]
  cases duty.picked pick <;> rfl

theorem Moment.line_of_cells_eq (duties : List (Duty α β)) (same : next.store.cells = world.store.cells) :
    Moment.line pick ⟨duties, next⟩ cell = Moment.line pick ⟨duties, world⟩ cell := by
  unfold line
  rw [Store.waitersAt_of_cells_eq same]

/-- Waiters that are sent off stay in their order. -/
theorem Moment.line_sent (carry : Waiter α β → Duty α β)
    (carried : ∀ waiter, (carry waiter).picked pick = waiter.continuation.picked pick) {waiters : List (Waiter α β)}
    {rest : List (Duty α β)} : Moment.line pick ⟨waiters.map carry ++ rest, world⟩ cell =
      waiters.filterMap (·.continuation.picked pick) ++ Moment.line pick ⟨rest, world⟩ cell := by
  have sent : (waiters.map carry).filterMap (·.picked pick) = waiters.filterMap (·.continuation.picked pick) := by
    rw [List.filterMap_map]
    exact congrArg (List.filterMap · waiters) (funext carried)
  unfold line
  rw [List.filterMap_append, sent, List.append_assoc]

end Line

/-- Whoever is picked waits for the cell, or has waited for it and is told what it shows. -/
structure Moment.InLine (moment : Moment α β ε ω) (cell : CellId) : Prop where
  concrete : moment.world.store.Concrete cell
  homes : ∀ waiter ∈ moment.outstanding, (waiter.continuation.picked pick).isSome → waiter.home = cell
  hands : ∀ place waiter, .hand place waiter ∈ moment.duties → waiter.continuation.picked pick = none
  told : ∀ body seen, .answer body seen ∈ moment.duties → (pick body).isSome →
    seen = moment.world.store.state cell ∧ (moment.world.store.state cell).isSome
  latches : ∀ latch ∈ moment.world.store.latches, pick latch.body = none

namespace Moment.InLine

variable {pick} {before after : Moment α β ε ω} {world next : World α β ε ω} {duties rest : List (Duty α β)}
  {cell : CellId}

/-- Nobody who waits elsewhere is picked. -/
theorem elsewhere (inLine : before.InLine pick cell) (orderly : before.Orderly) {other : CellId}
    (apart : other ≠ cell) :
    ∀ waiter ∈ before.world.store.waitersAt other, waiter.continuation.picked pick = none := by
  intro waiter member
  by_contra picked
  obtain ⟨found, there, among⟩ := Store.mem_of_waitersAt member
  have outstanding : waiter ∈ before.outstanding :=
    List.mem_append_right _ (Store.mem_waiters.2 ⟨other, found, there, among⟩)
  exact inLine.concrete.home_ne orderly.sound orderly.seated apart member
    (inLine.homes waiter outstanding (Option.isSome_iff_ne_none.2 picked))

/-- Whoever has been sent off and is picked finds that the cell shows something. -/
theorem ready (inLine : before.InLine pick cell) (orderly : before.Orderly) {duty : Duty α β}
    (member : duty ∈ before.duties) (picked : (duty.picked pick).isSome) :
    (before.world.store.state cell).isSome := by
  cases duty with
  | hand place waiter =>
    rw [Duty.picked, inLine.hands place waiter member] at picked
    cases picked
  | fire waiter =>
    have outstanding : waiter ∈ before.outstanding :=
      List.mem_append_left _ (List.mem_filterMap.2 ⟨_, member, rfl⟩)
    have fair := orderly.duties _ member
    rwa [Duty.Fair, inLine.homes waiter outstanding picked] at fair
  | answer body seen => exact (inLine.told body seen member picked).2
  | give | link => cases picked

/-- As long as the cell shows nothing, nobody has been sent off. -/
theorem line_of_pending (inLine : before.InLine pick cell) (orderly : before.Orderly)
    (pending : before.world.store.state cell = none) : before.duties.filterMap (·.picked pick) = [] := by
  refine List.filterMap_eq_nil_iff.2 fun duty member => ?_
  by_contra picked
  have shown := inLine.ready orderly member (Option.isSome_iff_ne_none.2 picked)
  rw [pending] at shown
  cases shown

/-- With nothing in progress, nobody stands in line in front of a cell that shows something. -/
theorem line_at_rest (inLine : InLine pick ⟨[], world⟩ cell) (orderly : Orderly ⟨[], world⟩)
    (shown : (world.store.state cell).isSome) : Moment.line pick ⟨[], world⟩ cell = [] := by
  refine List.filterMap_eq_nil_iff.2 fun waiter member => ?_
  obtain ⟨found, there, among⟩ := Store.mem_of_waitersAt member
  by_contra picked
  have outstanding : waiter ∈ world.store.waiters := Store.mem_waiters.2 ⟨cell, found, there, among⟩
  have home := inLine.homes waiter outstanding (Option.isSome_iff_ne_none.2 picked)
  have waits := orderly.state_of_waiting outstanding
  rw [home] at waits
  rw [waits] at shown
  cases shown

/-- The steps of operations in progress move nobody in the line. -/
theorem line_routine {mayPanic : Prop} (inLine : before.InLine pick cell) (orderly : before.Orderly)
    (step : Routine mayPanic before after) : after.line pick cell = before.line pick cell := by
  -- A duty that brings nobody is done, and nobody comes to wait.
  have unmoved {rest : List (Duty α β)} {world next : World α β ε ω} (done : Duty α β)
      (idle : done.picked pick = none) (cells : next.store.cells = world.store.cells) :
      Moment.line pick ⟨rest, next⟩ cell = Moment.line pick ⟨done :: rest, world⟩ cell := by
    rw [line_cons, idle]
    exact (line_of_cells_eq rest cells).trans (List.nil_append _).symm
  have stayed {waiter : Waiter α β} {latch : LatchId} (kind : waiter.continuation = .arrive latch) :
      (Duty.fire waiter).picked pick = none := by
    rw [Duty.picked, kind]
    rfl
  have passed {waiter : Waiter α β} {target : CellId} {convert : α → Made α}
      (kind : waiter.continuation = .derive target convert) : (Duty.fire waiter).picked pick = none := by
    rw [Duty.picked, kind]
    rfl
  cases step with
  | @park place waiter rest world store parked =>
    have idle := inLine.hands place waiter List.mem_cons_self
    rw [line_cons, Duty.picked, idle]
    simp only [Moment.line, Store.waitersAt_park parked, List.filterMap_append]
    split <;> simp [idle]
  | ready => rfl
  | @call waiter body rest world kind =>
    rw [line_cons, line_cons, Duty.picked, Duty.picked, kind]
    rfl
  | arrive kind arrived => exact unmoved _ (stayed kind) (Store.cells_of_arriveAt arrived)
  | @opens waiter latch rest world store body kind arrived =>
    have opened : (world.store.arriveAt latch).1 = some body := by rw [arrived]
    obtain ⟨former, among, rfl⟩ := Store.body_arriveAt opened
    rw [line_cons, Duty.picked, inLine.latches former among]
    exact (List.nil_append _).trans
      (unmoved _ (stayed kind) (Store.cells_of_arriveAt arrived))
  | derive kind | pass kind =>
    rw [line_cons, Duty.picked]
    exact (List.nil_append _).trans (unmoved _ (passed kind) rfl)
  | spoil _ kind => exact unmoved _ (passed kind) rfl
  | skip kind => exact unmoved _ (passed kind) rfl
  | @give target outcome waiters rest world store settled =>
    rw [line_cons, Duty.picked, line_sent _ (fun _ => rfl), Store.waiters_of_settle settled]
    by_cases here : target = cell
    · -- Nobody else has been sent off, since the cell showed nothing.
      subst here
      have pending : world.store.state target = none := by
        obtain ⟨found, there, free, unsettled, -⟩ := Store.settle_eq_some_iff.1 settled
        exact (Store.Blank.state_eq_none ⟨found, there, unsettled, free⟩)
      have nobody := inLine.line_of_pending orderly pending
      rw [List.filterMap_cons, Duty.picked] at nobody
      simp only [Moment.line, nobody, Store.waitersAt_settle settled, if_true, List.filterMap_nil]
      simp
    · have idle := List.filterMap_eq_nil_iff.2 (inLine.elsewhere orderly here)
      simp only [Moment.line, idle, Store.waitersAt_settle settled, if_neg (Ne.symm here)]
      rfl
  | refuse => exact unmoved _ rfl rfl
  | @link source target waiters rest world store inside linked =>
    have apart := inLine.concrete.ne_source linked
    have idle := List.filterMap_eq_nil_iff.2 (inLine.elsewhere orderly apart)
    rw [line_cons, Duty.picked, line_sent _ (fun _ => rfl), Store.waiters_of_linkTo linked, idle]
    simp only [Moment.line, Store.waitersAt_linkTo linked, if_neg (Ne.symm apart)]
    rfl
  | bar => exact unmoved _ rfl rfl
  | abandon => exact unmoved _ rfl rfl

theorem routine {mayPanic : Prop} (inLine : before.InLine pick cell) (orderly : before.Orderly)
    (step : Routine mayPanic before after) : after.InLine pick cell := by
  have keeps := step.keeps orderly.sound
  have homes : ∀ waiter ∈ after.outstanding, (waiter.continuation.picked pick).isSome → waiter.home = cell :=
    fun waiter member => inLine.homes waiter (step.outstanding.mem_iff.2 (List.mem_append_right _ member))
  have told : ∀ body seen, .answer body seen ∈ before.duties → (pick body).isSome →
      seen = after.world.store.state cell ∧ (after.world.store.state cell).isSome := by
    intro body seen member picked
    obtain ⟨rfl, shown⟩ := inLine.told body seen member picked
    obtain ⟨outcome, same⟩ := Option.isSome_iff_exists.1 shown
    rw [same, keeps.state same]
    exact ⟨rfl, rfl⟩
  have concrete := inLine.concrete.later keeps
  refine ⟨concrete, homes, fun place waiter member => ?_, fun body seen member picked => ?_, fun latch member => ?_⟩
  · cases step with
    | @link source target waiters rest world store inside linked =>
      rcases List.mem_append.1 member with new | old
      · obtain ⟨other, among, same⟩ := List.mem_map.1 new
        cases same
        rw [Store.waiters_of_linkTo linked] at among
        exact inLine.elsewhere orderly (inLine.concrete.ne_source linked) _ among
      · exact inLine.hands place waiter (List.mem_cons_of_mem _ old)
    | _ => exact inLine.hands place waiter (List.mem_cons_of_mem _ (by simpa using member))
  · cases step with
    | @call waiter other rest world kind =>
      rcases List.mem_cons.1 member with same | old
      · cases same
        have running : ((Duty.fire waiter).picked pick).isSome := by rwa [Duty.picked, kind]
        have home := inLine.homes waiter List.mem_cons_self running
        have shown := inLine.ready orderly List.mem_cons_self running
        exact ⟨congrArg world.store.state home, shown⟩
      · exact told body seen (List.mem_cons_of_mem _ old) picked
    | @opens waiter latch rest world store other kind arrived =>
      rcases List.mem_cons.1 member with same | old
      · cases same
        have opened : (world.store.arriveAt latch).1 = some body := by rw [arrived]
        obtain ⟨former, among, rfl⟩ := Store.body_arriveAt opened
        rw [inLine.latches former among] at picked
        cases picked
      · exact told body seen (List.mem_cons_of_mem _ old) picked
    | _ => exact told body seen (List.mem_cons_of_mem _ (by simpa using member)) picked
  · obtain ⟨former, among, same⟩ := step.latches member
    exact same ▸ inLine.latches former among

/-! ## Who comes to stand in line -/

theorem of_cells_eq (inLine : InLine pick ⟨duties, world⟩ cell) (cells : next.store.cells = world.store.cells)
    (latches : next.store.latches = world.store.latches) : InLine pick ⟨duties, next⟩ cell where
  concrete := by
    obtain ⟨found, there, kind⟩ := inLine.concrete
    exact ⟨found, by unfold Store.cell? at there ⊢; rwa [cells], kind⟩
  homes waiter member := by
    rw [Moment.outstanding, Store.waiters_of_cells_eq cells] at member
    exact inLine.homes waiter member
  hands := inLine.hands
  told body seen member picked := by
    rw [Store.state_of_cells_eq cells]
    exact inLine.told body seen member picked
  latches latch member := inLine.latches latch (latches ▸ member)

/-- A duty that brings nobody. -/
theorem ask {duty : Duty α β} (inLine : InLine pick ⟨duties, world⟩ cell) (idle : duty.picked pick = none) :
    InLine pick ⟨duty :: duties, world⟩ cell where
  concrete := inLine.concrete
  homes waiter member picked := by
    rcases List.mem_append.1 member with due | parked
    · obtain ⟨other, among, same⟩ := List.mem_filterMap.1 due
      rcases List.mem_cons.1 among with rfl | old
      · cases other with
        | hand | fire =>
          cases same
          rw [Duty.picked] at idle
          rw [idle] at picked
          cases picked
        | _ => cases same
      · exact inLine.homes waiter (List.mem_append_left _ (List.mem_filterMap.2 ⟨other, old, same⟩)) picked
    · exact inLine.homes waiter (List.mem_append_right _ parked) picked
  hands place waiter member := by
    rcases List.mem_cons.1 member with rfl | old
    · exact idle
    · exact inLine.hands place waiter old
  told body seen member picked := by
    rcases List.mem_cons.1 member with rfl | old
    · rw [Duty.picked] at idle
      rw [idle] at picked
      cases picked
    · exact inLine.told body seen old picked
  latches := inLine.latches

theorem drop {duty : Duty α β} (inLine : InLine pick ⟨duty :: duties, world⟩ cell) :
    InLine pick ⟨duties, world⟩ cell where
  concrete := inLine.concrete
  homes waiter member := by
    refine inLine.homes waiter ?_
    rw [Moment.outstanding, List.filterMap_cons]
    cases duty.waiter? with
    | none => exact member
    | some => exact List.mem_cons_of_mem _ member
  hands place waiter member := inLine.hands place waiter (List.mem_cons_of_mem _ member)
  told body seen member := inLine.told body seen (List.mem_cons_of_mem _ member)
  latches := inLine.latches

theorem line_make (world : World α β ε ω) {made : Cell α β} (nobody : made.waiters = []) :
    Moment.line pick ⟨duties, world.make made⟩ cell = Moment.line pick ⟨duties, world⟩ cell := by
  unfold Moment.line World.make
  rw [Store.waitersAt_make world.store nobody]

theorem make (inLine : InLine pick ⟨duties, world⟩ cell) (sound : world.store.Sound) {made : Cell α β}
    (free : made.link = none) (nobody : made.waiters = []) : InLine pick ⟨duties, world.make made⟩ cell where
  concrete := inLine.concrete.later (.make sound free)
  homes waiter member := by
    rw [outstanding_make duties world nobody] at member
    exact inLine.homes waiter member
  hands := inLine.hands
  told body seen member picked := by
    obtain ⟨rfl, shown⟩ := inLine.told body seen member picked
    obtain ⟨outcome, same⟩ := Option.isSome_iff_exists.1 shown
    have kept : (world.make made).store.state cell = some outcome := (Store.Keeps.make sound free).state same
    exact ⟨same.trans kept.symm, Option.isSome_of_eq_some kept⟩
  latches := inLine.latches

theorem line_makeMany (world : World α β ε ω) {made : Cell α β} (nobody : made.waiters = []) (count : Nat) :
    Moment.line pick ⟨duties, world.makeMany made count⟩ cell = Moment.line pick ⟨duties, world⟩ cell := by
  induction count generalizing world with
  | zero => rfl
  | succ count ih => exact (ih _).trans (line_make world nobody)

theorem makeMany (inLine : InLine pick ⟨duties, world⟩ cell) (sound : world.store.Sound) {made : Cell α β}
    (free : made.link = none) (nobody : made.waiters = []) (count : Nat) :
    InLine pick ⟨duties, world.makeMany made count⟩ cell := by
  induction count generalizing world with
  | zero => exact inLine
  | succ count ih =>
    exact ih (inLine.make sound free nobody) (Grow.sound (.make free nobody) sound)

/-- A new waiter stands at the end of the line. -/
theorem line_waits {id : CellId} {continuation : Continuation α β} (waits : world.Waits id continuation next)
    (last : continuation.picked pick = none ∨ world.store.last id = cell) :
    Moment.line pick ⟨duties, next⟩ cell =
      Moment.line pick ⟨duties, world⟩ cell ++ (continuation.picked pick).toList := by
  obtain ⟨store, parked, rfl⟩ := waits
  have same := world.enroll_cells id continuation
  have ends : (world.enroll id continuation).store.last id = world.store.last id := Store.last_of_cells_eq same id
  simp only [Moment.line, Store.waitersAt_park parked, List.filterMap_append, Store.waitersAt_of_cells_eq same,
    ends, List.append_assoc]
  congr 2
  rcases last with idle | here
  · rw [idle]
    split <;> simp [Store.enroll, idle]
  · rw [if_pos here.symm]
    cases picked : continuation.picked pick <;> simp [Store.enroll, picked]

theorem waits {id : CellId} {continuation : Continuation α β} (inLine : InLine pick ⟨duties, world⟩ cell)
    (sound : world.store.Sound) (waits : world.Waits id continuation next)
    (place : (continuation.picked pick).isSome → id = cell) : InLine pick ⟨duties, next⟩ cell where
  concrete := by
    obtain ⟨store, parked, rfl⟩ := waits
    have same := world.enroll_cells id continuation
    have kept : InLine pick ⟨duties, world.enroll id continuation⟩ cell := inLine.of_cells_eq same rfl
    exact kept.concrete.later (.park (sound.of_cells_eq same).grounded parked)
  homes waiter member picked := by
    rcases List.mem_cons.1 ((outstanding_waits duties waits).mem_iff.1 member) with rfl | old
    · exact place picked
    · exact inLine.homes waiter old picked
  hands := inLine.hands
  told body seen member picked := by
    rw [waits.state sound]
    exact inLine.told body seen member picked
  latches latch member := inLine.latches latch (waits.latches ▸ member)

/-- A new cell that nobody is picked for yet. -/
theorem start {made : Cell α β} (nobody : made.waiters = [])
    (concrete : made.kind = .concrete) (idle : Moment.Carries ⟨duties, world⟩ fun continuation =>
      continuation.picked pick = none) : InLine pick ⟨duties, world.make made⟩ world.store.cells.size where
  concrete := ⟨made, world.cell?_make made, concrete⟩
  homes waiter member picked := by
    rw [outstanding_make duties world nobody] at member
    rw [idle.waiting waiter member] at picked
    cases picked
  hands place waiter member :=
    idle.waiting waiter (List.mem_append_left _ (List.mem_filterMap.2 ⟨_, member, rfl⟩))
  told body seen member picked := by
    have none : pick body = none := idle.asked body seen member
    rw [none] at picked
    cases picked
  latches latch member := idle.latched latch member

end Moment.InLine

end DeferredJit.Async
