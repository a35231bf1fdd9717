import DeferredJit.Proofs.Async.Lines
import DeferredJit.Proofs.Async.ScriptRuns
import Mathlib.Algebra.Ring.Nat

/-! Cells that are derived from others by a function. Whether the other cell is available when one asks or is settled
or linked later, the derived cell comes to show the same, and the function is applied once. -/

set_option autoImplicit false

namespace DeferredJit.Async

variable {α β ε ω : Type}

/-! ## How often conversions are applied -/

def Event.isConversion : Event α ε → Bool
  | .converted _ => true
  | .registered .. | .ran .. | .opened _ | .noted _ => false

/-- The waiter of this number ran and saw a value. -/
def Event.isRunOf (serial : Nat) : Event α ε → Bool
  | .ran other _ (some (.ok _)) => other == serial
  | .registered .. | .ran .. | .opened _ | .converted _ | .noted _ => false

def World.conversions (world : World α β ε ω) : Nat := world.history.countP Event.isConversion

/-- How often the waiter of this number applied its conversion, which it does right when it runs. -/
def World.appliedBy (world : World α β ε ω) (serial : Nat) : Nat :=
  (world.history.zip world.history.tail).countP fun (now, before) => now.isConversion && before.isRunOf serial

/-- How often a function is applied that is to be applied to a value. -/
def timesDue : Outcome α → Nat
  | .ok _ => 1
  | .error _ => 0

theorem World.appliedBy_log (world : World α β ε ω) (event : Event α ε) (serial : Nat) :
    (world.log event).appliedBy serial = world.appliedBy serial +
      if event.isConversion && world.history.head?.any (·.isRunOf serial) then 1 else 0 := by
  unfold appliedBy log
  rw [List.tail_cons]
  cases world.history with
  | nil => simp
  | cons before older => simp [List.countP_cons]

/-- The waiter of this number has applied its conversion as often as it ever will. -/
structure World.Applied (world : World α β ε ω) (serial count : Nat) : Prop where
  times : world.appliedBy serial = count
  finished : world.history.head?.any (·.isRunOf serial) = false

namespace World.Applied

variable {world next : World α β ε ω} {serial count : Nat}

theorem log (applied : world.Applied serial count) {event : Event α ε} (other : event.isRunOf serial = false) :
    (world.log event).Applied serial count where
  times := by rw [appliedBy_log, applied.finished, Bool.and_false, applied.times]; rfl
  finished := other

theorem of_history_eq (applied : world.Applied serial count) (same : next.history = world.history) :
    next.Applied serial count where
  times := by
    unfold appliedBy
    rw [same]
    exact applied.times
  finished := by
    rw [same]
    exact applied.finished

theorem logs (applied : world.Applied serial count) {events : List (Event α ε)}
    (same : next.history = events ++ world.history) (others : ∀ event ∈ events, event.isRunOf serial = false) :
    next.Applied serial count := by
  induction events generalizing next with
  | nil => exact applied.of_history_eq same
  | cons first rest ih =>
    have earlier : ({ next with history := rest ++ world.history } : World α β ε ω).Applied serial count :=
      ih rfl fun event member => others event (List.mem_cons_of_mem _ member)
    exact (earlier.log (others first List.mem_cons_self)).of_history_eq same

/-- Who has not run has applied nothing. -/
theorem of_unrun (unrun : serial ∉ world.runs.map Prod.fst) : world.Applied serial 0 := by
  have never : ∀ event ∈ world.history, event.isRunOf serial = false := by
    intro event member
    by_contra ran
    cases event with
    | ran other home seen =>
      refine unrun (List.mem_map.2 ⟨(other, home), World.mem_runs_iff.2 ⟨seen, member⟩, ?_⟩)
      rcases seen with _ | _ | _ <;> simp_all [Event.isRunOf]
    | _ => simp [Event.isRunOf] at ran
  refine ⟨List.countP_eq_zero.2 fun pair member => ?_, ?_⟩
  · have among := List.mem_of_mem_tail (List.of_mem_zip member).2
    simp [never pair.2 among]
  · cases history : world.history with
    | nil => rfl
    | cons event older => exact never event (by simp [history])

end World.Applied

/-- Who registers waiters runs nobody. -/
theorem World.WaitsEach.logs {continuation : Continuation α β} {ids : List CellId} {world next : World α β ε ω}
    (waits : World.WaitsEach continuation ids world next) : ∃ events : List (Event α ε),
      next.history = events ++ world.history ∧ ∀ event ∈ events, ∀ serial, event.isRunOf serial = false := by
  induction waits with
  | nil => exact ⟨[], rfl, by simp⟩
  | cons _ waits _ ih =>
    obtain ⟨events, same, others⟩ := ih
    refine ⟨events ++ [_], by rw [same, waits.history, List.append_assoc]; rfl, fun event member serial => ?_⟩
    rcases List.mem_append.1 member with later | first
    · exact others event later serial
    · rw [List.mem_singleton.1 first]
      rfl

namespace Moment

variable {gives : CellId → Prop} {before after : Moment α β ε ω}

/-- Histories go on, and tell of no run but that of the waiter whose turn it is. -/
theorem logs (stride : Stride gives before after) : ∃ events : List (Event α ε),
    after.world.history = events ++ before.world.history ∧
      ∀ event ∈ events, ∀ serial, event.isRunOf serial → ∃ waiter ∈ before.running, waiter.serial = serial := by
  have silent (same : after.world.history = before.world.history) : ∃ events : List (Event α ε),
      after.world.history = events ++ before.world.history ∧
        ∀ event ∈ events, ∀ serial, event.isRunOf serial → ∃ waiter ∈ before.running, waiter.serial = serial :=
    ⟨[], same, by simp⟩
  have run {waiter : Waiter α β} {home : CellId} {seen : Option (Outcome α)} {serial : Nat}
      (ran : (Event.ran waiter.serial home seen : Event α ε).isRunOf serial) : waiter.serial = serial := by
    rcases seen with _ | _ | _ <;> simp_all [Event.isRunOf]
  cases stride with
  | begin => exact silent rfl
  | deed _ deed =>
    cases deed with
    | call => exact ⟨[_], rfl, by simp [Event.isRunOf]⟩
    | derive _ waits => exact ⟨[_], waits.history, by simp [Event.isRunOf]⟩
    | gather _ waits =>
      obtain ⟨events, same, others⟩ := waits.logs
      exact ⟨events, same, fun event member serial ran => by rw [others event member serial] at ran; cases ran⟩
    | pass | convert | note => exact ⟨[_], rfl, by simp [Event.isRunOf]⟩
    | _ => exact silent rfl
  | routine step =>
    cases step with
    | @call waiter | @arrive waiter | @pass waiter | @skip waiter =>
      refine ⟨[_], rfl, fun event member serial ran => ⟨waiter, List.mem_singleton.2 rfl, ?_⟩⟩
      rw [List.mem_singleton.1 member] at ran
      exact run ran
    | @opens waiter | @derive waiter | @spoil waiter =>
      refine ⟨[_, _], rfl, fun event member serial ran => ⟨waiter, List.mem_singleton.2 rfl, ?_⟩⟩
      rcases List.mem_cons.1 member with rfl | member
      · cases ran
      · rw [List.mem_singleton.1 member] at ran
        exact run ran
    | _ => exact silent rfl

end Moment

/-! ## Who gives a cell its outcome -/

/-- The waiter is to give the cell what it makes of the outcome of its own. -/
def Waiter.SeesTo (waiter : Waiter α β) (cell : CellId) : Prop :=
  ∃ convert, waiter.continuation = .derive cell convert

/-- Whoever comes to give a cell its outcome is a waiter that has seen to it. -/
theorem Routine.gives {mayPanic : Prop} {before after : Moment α β ε ω} {cell : CellId} {outcome : Outcome α}
    (step : Routine mayPanic before after) (member : .give cell outcome ∈ after.duties) :
    .give cell outcome ∈ before.duties ∨ ∃ waiter ∈ before.running, waiter.SeesTo cell := by
  cases step with
  | @derive waiter _ _ _ _ _ _ kind | @pass waiter _ _ _ _ _ kind =>
    rcases List.mem_cons.1 member with same | old
    · cases same
      exact .inr ⟨waiter, List.mem_singleton.2 rfl, _, kind⟩
    · exact .inl (List.mem_cons_of_mem _ old)
  | _ => exact .inl (List.mem_cons_of_mem _ (by simpa using member))

/-- A blank cell that is never linked stays blank unless its outcome was due. -/
theorem Routine.blank {mayPanic : Prop} {before after : Moment α β ε ω} {cell : CellId}
    (step : Routine mayPanic before after) (blank : before.world.store.Blank cell)
    (concrete : before.world.store.Concrete cell) :
    after.world.store.Blank cell ∨
      ∃ outcome, .give cell outcome ∈ before.duties ∧ after.world.store.Holds cell outcome := by
  cases step with
  | park parked => exact .inl (blank.park parked)
  | arrive _ arrived | opens _ arrived => exact .inl (blank.of_cells_eq (Store.cells_of_arriveAt arrived))
  | @give target outcome _ _ _ _ settled =>
    by_cases same : cell = target
    · cases same
      exact .inr ⟨outcome, List.mem_cons_self, Store.holds_settle settled⟩
    · exact .inl (blank.settle same settled)
  | link _ linked => exact .inl (blank.linkTo (concrete.ne_source linked).symm linked)
  | _ => exact .inl blank

/-- An outcome that is due to a blank cell stays due until the cell has one. -/
theorem Routine.due {mayPanic : Prop} {before after : Moment α β ε ω} {cell : CellId} {outcome : Outcome α}
    (step : Routine mayPanic before after) (blank : before.world.store.Blank cell)
    (member : .give cell outcome ∈ before.duties) :
    .give cell outcome ∈ after.duties ∨ after.world.store.Holds cell outcome := by
  have rest {duty : Duty α β} {duties more : List (Duty α β)} (other : duty ≠ .give cell outcome)
      (member : .give cell outcome ∈ duty :: duties) : .give cell outcome ∈ more ++ duties :=
    List.mem_append_right _ ((List.mem_cons.1 member).resolve_left (Ne.symm other))
  cases step with
  | @give target given waiters _ _ _ settled =>
    rcases List.mem_cons.1 member with same | old
    · cases same
      exact .inr (Store.holds_settle settled)
    · exact .inl (List.mem_append_right _ old)
  | @refuse target given _ world refused =>
    rcases List.mem_cons.1 member with same | old
    · cases same
      obtain ⟨waiters, next, settled⟩ := blank.settles outcome
      rw [refused] at settled
      cases settled
    · exact .inl old
  | @ready _ waiter | @call waiter | @opens waiter | @derive waiter | @pass waiter =>
    exact .inl (List.mem_cons_of_mem _ ((List.mem_cons.1 member).resolve_left (by simp)))
  | link => exact .inl (rest (by simp) member)
  | _ => exact .inl ((List.mem_cons.1 member).resolve_left (by simp))

namespace Deed

variable {gives : CellId → Prop} {world next : World α β ε ω} {added : List (Duty α β)} {cell : CellId}

theorem blank (deed : Deed gives world added next) (blank : world.store.Blank cell)
    (concrete : world.store.Concrete cell) (spared : ¬ gives cell) : next.store.Blank cell := by
  cases deed with
  | make => exact blank.make _
  | @settle id _ _ _ given settled =>
    refine blank.settle ?_ settled
    rintro rfl
    exact spared given
  | link _ linked => exact blank.linkTo (concrete.ne_source linked).symm linked
  | derive _ waits => exact waits.blank (blank.make {})
  | gather _ waits => exact waits.grows.blank (blank.of_cells_eq rfl)
  | _ => exact blank.of_cells_eq rfl

theorem gives_nothing (deed : Deed gives world added next) (outcome : Outcome α) : .give cell outcome ∉ added := by
  cases deed <;> simp

end Deed

namespace Moment

variable {gives : CellId → Prop} {before after : Moment α β ε ω} {target : CellId}

/-- Nobody sees to cells that do not exist. -/
structure Born (moment : Moment α β ε ω) : Prop where
  seers : ∀ waiter ∈ moment.outstanding, ∀ cell, waiter.SeesTo cell → cell < moment.world.store.cells.size
  due : ∀ cell outcome, .give cell outcome ∈ moment.duties → cell < moment.world.store.cells.size

/-- Nobody new comes to see to a cell that exists. -/
theorem seers_stride (stride : Stride gives before after) {waiter : Waiter α β}
    (member : waiter ∈ after.outstanding) {cell : CellId} (sees : waiter.SeesTo cell) :
    waiter ∈ before.outstanding ∨
      before.world.store.cells.size ≤ cell ∧ cell < after.world.store.cells.size := by
  cases stride with
  | routine step => exact .inl (step.outstanding.mem_iff.2 (List.mem_append_right _ member))
  | begin => exact .inl member
  | @deed duties world added next _ deed =>
    obtain ⟨new, same, newcomers⟩ := deed.outstanding duties
    rcases List.mem_append.1 (same.mem_iff.1 member) with fresh | old
    · obtain ⟨convert, kind⟩ := sees
      have place := newcomers waiter fresh
      rw [kind] at place
      exact .inr ⟨Nat.le_of_eq place.1.symm, place.2⟩
    · exact .inl old

theorem dues_stride (stride : Stride gives before after) {cell : CellId} {outcome : Outcome α}
    (member : .give cell outcome ∈ after.duties) :
    .give cell outcome ∈ before.duties ∨ ∃ waiter ∈ before.running, waiter.SeesTo cell := by
  cases stride with
  | routine step => exact step.gives member
  | begin => exact .inl (List.mem_cons_of_mem _ member)
  | deed _ deed => exact .inl ((List.mem_append.1 member).resolve_left (deed.gives_nothing outcome))

theorem running_subset {waiter : Waiter α β} (member : waiter ∈ before.running) : waiter ∈ before.outstanding := by
  obtain ⟨duties, world⟩ := before
  cases duties with
  | nil => cases member
  | cons duty rest =>
    cases duty with
    | fire other =>
      rw [List.mem_singleton.1 member]
      exact List.mem_cons_self
    | _ => cases member

namespace Born

theorem start (outer : ω) : Born (⟨[], { outer }⟩ : Moment α β ε ω) where
  seers _ member := absurd member List.not_mem_nil
  due _ _ member := absurd member List.not_mem_nil

theorem stride (born : before.Born) (orderly : before.Orderly) (stride : Stride gives before after) : after.Born where
  seers waiter member cell sees := by
    rcases seers_stride stride member sees with old | ⟨-, inside⟩
    · exact Nat.lt_of_lt_of_le (born.seers waiter old cell sees) (orderly.strides (.single stride)).2.size_le
    · exact inside
  due cell outcome member := by
    refine Nat.lt_of_lt_of_le ?_ (orderly.strides (.single stride)).2.size_le
    rcases dues_stride stride member with old | ⟨waiter, running, sees⟩
    · exact born.due cell outcome old
    · exact born.seers waiter (running_subset running) cell sees

theorem strides (born : before.Born) (orderly : before.Orderly) (strides : Steps (Stride gives) before after) :
    after.Born := by
  induction strides with
  | refl => exact born
  | tail earlier last ih => exact ih.stride (orderly.strides earlier).1 last

end Born

/-! ## Derived cells -/

/-- The cell has this outcome or is about to get it, and nobody sees to it. -/
structure Derived (moment : Moment α β ε ω) (target : CellId) (outcome : Outcome α) : Prop where
  concrete : moment.world.store.Concrete target
  unseen : ∀ waiter ∈ moment.outstanding, ¬ waiter.SeesTo target
  due : ∀ other, .give target other ∈ moment.duties → other = outcome
  given : moment.world.store.Holds target outcome ∨
    moment.world.store.Blank target ∧ .give target outcome ∈ moment.duties

namespace Derived

variable {outcome : Outcome α}

theorem stride (derived : before.Derived target outcome) (orderly : before.Orderly)
    (stride : Stride gives before after) (spared : ¬ gives target) : after.Derived target outcome := by
  have keeps := (orderly.strides (.single stride)).2
  have inside : target < before.world.store.cells.size := by
    obtain ⟨cell, found, -⟩ := derived.concrete
    exact Store.lt_size_of_cell? found
  refine ⟨derived.concrete.later keeps, fun waiter member sees => ?_, fun other member => ?_, ?_⟩
  · rcases seers_stride stride member sees with old | ⟨missing, -⟩
    · exact derived.unseen waiter old sees
    · exact absurd inside (Nat.not_lt.2 missing)
  · rcases dues_stride stride member with old | ⟨waiter, running, sees⟩
    · exact derived.due other old
    · exact absurd sees (derived.unseen waiter (running_subset running))
  · rcases derived.given with holds | ⟨blank, member⟩
    · exact .inl (holds.later keeps)
    · cases stride with
      | begin => exact .inr ⟨blank, (List.mem_cons.1 member).resolve_left (by simp)⟩
      | deed _ deed => exact .inr ⟨deed.blank blank derived.concrete spared, List.mem_append_right _ member⟩
      | routine step =>
        rcases step.blank blank derived.concrete with still | ⟨other, old, holds⟩
        · rcases step.due blank member with later | holds
          · exact .inr ⟨still, later⟩
          · exact .inl holds
        · exact .inl (derived.due other old ▸ holds)

theorem strides (derived : before.Derived target outcome) (orderly : before.Orderly)
    (strides : Steps (Stride (· ≠ target)) before after) : after.Derived target outcome := by
  induction strides with
  | refl => exact derived
  | tail earlier last ih => exact ih.stride (orderly.strides earlier).1 last fun apart => apart rfl

theorem at_rest {world : World α β ε ω} (derived : Derived ⟨[], world⟩ target outcome) (sound : world.store.Sound) :
    world.store.state target = some outcome := by
  rcases derived.given with holds | ⟨-, member⟩
  · exact holds.state_eq sound
  · cases member

end Derived

/-- The waiter that is to give the cell its outcome is outstanding, and it is the only one. -/
structure Deriving (moment : Moment α β ε ω) (waiter : Waiter α β) (target : CellId) : Prop where
  concrete : moment.world.store.Concrete target
  blank : moment.world.store.Blank target
  waits : waiter ∈ moment.outstanding
  alone : ∀ other ∈ moment.outstanding, other.SeesTo target → other = waiter
  undue : ∀ outcome, .give target outcome ∉ moment.duties

/-- The waiter of this number has run on the cell, saw this, and applied its conversion to the value if it saw one. -/
structure Applied (moment : Moment α β ε ω) (serial : Nat) (source : CellId) (seen : Outcome α) : Prop where
  ran : .ran serial source (some seen) ∈ moment.world.history
  times : moment.world.Applied serial (timesDue seen)

/-- Whoever has run is not outstanding. -/
theorem Accounted.serial_ne_of_ran (accounted : before.Accounted) {serial : Nat} {home : CellId}
    {seen : Option (Outcome α)} (ran : .ran serial home seen ∈ before.world.history) {waiter : Waiter α β}
    (member : waiter ∈ before.outstanding) : waiter.serial ≠ serial := by
  rintro rfl
  have counted := accounted.counts (World.mem_registrations_iff.2 (accounted.registered_of_ran ran))
  have here : 0 < (before.outstanding.map Waiter.serial).count waiter.serial :=
    List.count_pos_iff.2 (List.mem_map_of_mem member)
  have there : 0 < before.world.timesRun waiter.serial :=
    List.count_pos_iff.2 (List.mem_map_of_mem (World.mem_runs_iff.2 ⟨seen, ran⟩))
  omega

theorem Applied.stride {serial : Nat} {source : CellId} {seen : Outcome α} (applied : before.Applied serial source seen)
    (accounted : before.Accounted) (stride : Stride gives before after) : after.Applied serial source seen := by
  obtain ⟨events, same, runs⟩ := logs stride
  refine ⟨same ▸ List.mem_append_right _ applied.ran, applied.times.logs same fun event member => ?_⟩
  by_contra ran
  obtain ⟨waiter, running, numbered⟩ := runs event member serial (Bool.of_not_eq_false ran)
  exact accounted.serial_ne_of_ran applied.ran (running_subset running) numbered

namespace Deriving

variable {waiter : Waiter α β} {convert : α → Outcome α}

theorem unrun (derives : before.Deriving waiter target) (accounted : before.Accounted) :
    before.world.Applied waiter.serial 0 := by
  refine .of_unrun fun member => ?_
  obtain ⟨key, ran, numbered⟩ := List.mem_map.1 member
  obtain ⟨seen, happened⟩ := World.mem_runs_iff.1 ran
  exact accounted.serial_ne_of_ran happened derives.waits numbered.symm

/-- The waiter is still outstanding, and so nobody has come to give the cell its outcome. -/
theorem stays (derives : before.Deriving waiter target) (orderly : before.Orderly) (stride : Stride gives before after)
    (spared : ¬ gives target) (still : waiter ∈ after.outstanding)
    (undue : ∀ outcome, .give target outcome ∉ after.duties) : after.Deriving waiter target where
  concrete := derives.concrete.later (orderly.strides (.single stride)).2
  blank := by
    cases stride with
    | begin => exact derives.blank
    | deed _ deed => exact deed.blank derives.blank derives.concrete spared
    | routine step =>
      refine (step.blank derives.blank derives.concrete).resolve_right ?_
      rintro ⟨outcome, member, -⟩
      exact derives.undue outcome member
  waits := still
  alone other member sees := by
    rcases seers_stride stride member sees with old | ⟨missing, -⟩
    · exact derives.alone other old sees
    · exact absurd derives.blank.lt_size (Nat.not_lt.2 missing)
  undue := undue

/-- The waiter runs and applies the conversion, or passes the failure on. -/
theorem run {mayPanic : Prop} {rest : List (Duty α β)} {world : World α β ε ω}
    (derives : Deriving ⟨.fire waiter :: rest, world⟩ waiter target)
    (kind : waiter.continuation = .derive target fun value => .ok (convert value))
    (orderly : Orderly ⟨.fire waiter :: rest, world⟩) (accounted : Accounted ⟨.fire waiter :: rest, world⟩)
    (step : Routine mayPanic ⟨.fire waiter :: rest, world⟩ after) :
    ∃ seen, after.Derived target (seen >>= convert) ∧ after.Applied waiter.serial waiter.home seen := by
  have shown : (world.store.state waiter.home).isSome := orderly.duties (.fire waiter) List.mem_cons_self
  have unrun : world.Applied waiter.serial 0 := derives.unrun accounted
  -- It runs once, so it is not among those that are still to run.
  have gone : waiter ∉ Moment.outstanding ⟨rest, world⟩ := by
    intro member
    have ran : Event.ran waiter.serial waiter.home (world.store.state waiter.home) ∈ (world.run waiter).history :=
      List.mem_cons_self
    exact accounted.run.serial_ne_of_ran ran member rfl
  have unseen : ∀ other ∈ Moment.outstanding ⟨rest, world⟩, ¬ other.SeesTo target := by
    intro other member sees
    have same := derives.alone other (List.mem_cons_of_mem _ member) sees
    exact gone (same ▸ member)
  have due (outcome : Outcome α) :
      ∀ given, .give target given ∈ Duty.give target outcome :: rest → given = outcome := by
    intro given member
    rcases List.mem_cons.1 member with same | old
    · cases same
      rfl
    · exact absurd (List.mem_cons_of_mem _ old) (derives.undue given)
  -- Of the steps of a waiter only those of a conversion are left, and this one does not panic.
  cases step with
  | call other | arrive other | opens other =>
    rw [kind] at other
    cases other
  | @derive _ _ _ _ _ value _ other seen made =>
    rw [kind] at other
    cases other
    cases made
    refine ⟨.ok value, ⟨derives.concrete, unseen, due _, .inr ⟨derives.blank, List.mem_cons_self⟩⟩, ?_, ?_, rfl⟩
    · rw [← seen]
      exact List.mem_cons_of_mem _ List.mem_cons_self
    · rw [World.appliedBy_log, World.run, World.appliedBy_log, unrun.times, seen]
      simp [Event.isConversion, Event.isRunOf, World.log, timesDue]
  | spoil _ other seen made =>
    rw [kind] at other
    cases other
    cases made
  | @pass _ _ _ _ _ failure other seen =>
    rw [kind] at other
    cases other
    refine ⟨.error failure, ⟨derives.concrete, unseen, due _, .inr ⟨derives.blank, List.mem_cons_self⟩⟩, ?_, ?_⟩
    · rw [← seen]
      exact List.mem_cons_self
    · refine unrun.log ?_
      rw [seen]
      rfl
  | skip _ nothing =>
    rw [nothing] at shown
    cases shown

theorem stride (derives : before.Deriving waiter target)
    (kind : waiter.continuation = .derive target fun value => .ok (convert value)) (orderly : before.Orderly)
    (accounted : before.Accounted) (stride : Stride gives before after) (spared : ¬ gives target) :
    after.Deriving waiter target ∨
      ∃ seen, after.Derived target (seen >>= convert) ∧ after.Applied waiter.serial waiter.home seen := by
  cases stride with
  | begin =>
    refine .inl (derives.stays orderly .begin spared derives.waits fun outcome member => ?_)
    exact derives.undue outcome (List.mem_cons_of_mem _ member)
  | @deed duties _ _ _ calm deed =>
    refine .inl (derives.stays orderly (.deed calm deed) spared ?_ fun outcome member => ?_)
    · obtain ⟨new, same, -⟩ := deed.outstanding duties
      exact same.mem_iff.2 (List.mem_append_right _ derives.waits)
    · exact derives.undue outcome ((List.mem_append.1 member).resolve_left (deed.gives_nothing outcome))
  | routine step =>
    by_cases running : waiter ∈ before.running
    · obtain ⟨duties, world⟩ := before
      cases duties with
      | nil => cases running
      | cons duty rest =>
        cases duty with
        | fire other =>
          cases List.mem_singleton.1 running
          exact .inr (derives.run kind orderly accounted step)
        | _ => cases running
    · refine .inl (derives.stays orderly (.routine step) spared ?_ fun outcome member => ?_)
      · exact (List.mem_append.1 (step.outstanding.mem_iff.1 derives.waits)).resolve_left running
      · rcases step.gives member with old | ⟨other, due, sees⟩
        · exact derives.undue outcome old
        · exact running (derives.alone other (running_subset due) sees ▸ due)

theorem strides (derives : before.Deriving waiter target)
    (kind : waiter.continuation = .derive target fun value => .ok (convert value)) (orderly : before.Orderly)
    (accounted : before.Accounted) (strides : Steps (Stride (· ≠ target)) before after) :
    after.Deriving waiter target ∨
      ∃ seen, after.Derived target (seen >>= convert) ∧ after.Applied waiter.serial waiter.home seen := by
  induction strides with
  | refl => exact .inl derives
  | tail earlier last ih =>
    have kept := (orderly.strides earlier).1
    have counted := accounted.strides earlier
    have spared {target : CellId} : ¬ target ≠ target := fun apart => apart rfl
    rcases ih with derives | ⟨seen, derived, applied⟩
    · exact derives.stride kind kept counted last spared
    · exact .inr ⟨seen, derived.stride kept last spared, applied.stride counted last⟩

/-- With nothing in progress, the waiter waits for a cell that shows nothing, and the derived cell shows nothing. -/
theorem at_rest {world : World α β ε ω} (derives : Deriving ⟨[], world⟩ waiter target) (orderly : Orderly ⟨[], world⟩) :
    world.store.state waiter.home = none ∧ world.store.state target = none :=
  ⟨orderly.state_of_waiting derives.waits, derives.blank.state_eq_none⟩

end Deriving

end Moment

/-! ## Calls -/

/-- What a client does that runs nobody. -/
abbrev Deeds : World α β ε ω → World α β ε ω → Prop :=
  Relation.ReflTransGen fun world next => Deed anyCell world [] next

namespace Deeds

variable {world next : World α β ε ω} {duties : List (Duty α β)}

theorem moves (deeds : Deeds world next) (duties : List (Duty α β)) :
    Steps Move ⟨duties, world⟩ ⟨duties, next⟩ := by
  induction deeds with
  | refl => exact .refl
  | tail _ deed ih => exact ih.trans (deed.moves duties)

theorem strides (deeds : Deeds world next) (orderly : Moment.Orderly ⟨duties, world⟩)
    (calm : Calm world.store duties) : Steps (Stride anyCell) ⟨duties, world⟩ ⟨duties, next⟩ := by
  induction deeds with
  | refl => exact .refl
  | tail earlier deed ih =>
    exact ih.tail (.deed (calm.mono (orderly.keeps (moves earlier duties)).2) deed)

end Deeds

namespace Moment.Born

variable {duties : List (Duty α β)} {world next : World α β ε ω}

/-- A new cell that has its outcome from the start. -/
theorem derived_make (born : Born ⟨duties, world⟩) (outcome : Outcome α) :
    Derived ⟨duties, world.make { outcome := some outcome }⟩ world.store.cells.size outcome where
  concrete := ⟨_, world.cell?_make _, rfl⟩
  unseen waiter member sees := by
    rw [outstanding_make duties world rfl] at member
    exact Nat.lt_irrefl _ (born.seers waiter member _ sees)
  due other member := absurd (born.due _ other member) (Nat.lt_irrefl _)
  given := .inl (Store.holds_make world.store outcome)

/-- A new cell that waits for its outcome. -/
theorem deriving_waits (born : Born ⟨duties, world⟩) (sound : world.store.Sound) {source : CellId}
    (inside : source < world.store.cells.size) {convert : α → Made α}
    (waits : (world.make {}).Waits source (.derive world.store.cells.size convert) next) :
    Deriving ⟨duties, next⟩ ⟨world.store.registered, source, .derive world.store.cells.size convert⟩
      world.store.cells.size where
  concrete := by
    have made : (world.make {}).store.Concrete world.store.cells.size := ⟨_, world.cell?_make {}, rfl⟩
    exact made.later (Grows.keeps (.single (.waits (World.lt_size_make inside {}) waits)) (sound.make rfl rfl))
  blank := waits.blank (Store.blank_make world.store rfl rfl)
  waits := (outstanding_waits duties waits).mem_iff.2 List.mem_cons_self
  alone other member sees := by
    rcases List.mem_cons.1 ((outstanding_waits duties waits).mem_iff.1 member) with same | old
    · exact same
    · rw [outstanding_make duties world rfl] at old
      exact absurd (born.seers other old _ sees) (Nat.lt_irrefl _)
  undue outcome member := Nat.lt_irrefl _ (born.due _ outcome member)

/-- What a call leaves that derives a cell. -/
theorem call (born : Born ⟨duties, world⟩) (sound : world.store.Sound) {source : CellId}
    (inside : source < world.store.cells.size) (fire : Fire α β ε ω) (convert : α → Outcome α) : ∃ asked,
      derived fire source (fun value => .ok (convert value)) world = (.ok world.store.cells.size, asked) ∧
      Deeds world asked ∧
      ((∃ seen, world.store.state source = some seen ∧
          Derived ⟨duties, asked⟩ world.store.cells.size (seen >>= convert) ∧
          asked.conversions = world.conversions + timesDue seen ∧
          asked.store.registered = world.store.registered) ∨
        world.store.state source = none ∧
          Deriving ⟨duties, asked⟩
            ⟨world.store.registered, source, .derive world.store.cells.size fun value => .ok (convert value)⟩
            world.store.cells.size ∧
          asked.conversions = world.conversions ∧ asked.store.registered = world.store.registered + 1) := by
  cases shown : world.store.state source with
  | none =>
    obtain ⟨asked, called, waits⟩ := derived_of_pending sound inside shown fire fun value => .ok (convert value)
    refine ⟨asked, called, .single (.derive inside waits), .inr ⟨rfl, born.deriving_waits sound inside waits, ?_, ?_⟩⟩
    · unfold World.conversions
      rw [waits.history]
      rfl
    · exact waits.registered
  | some seen =>
    cases seen with
    | error failure =>
      exact ⟨_, derived_of_failure shown fire _, .single (.make rfl rfl),
        .inl ⟨_, rfl, born.derived_make (.error failure), rfl, rfl⟩⟩
    | ok value =>
      have logged : Born ⟨duties, world.log (.converted value)⟩ := ⟨born.seers, born.due⟩
      exact ⟨_, derived_of_value shown fire _, .tail (.single .convert) (.make rfl rfl),
        .inl ⟨_, rfl, logged.derived_make (convert value), List.countP_cons_of_pos rfl, rfl⟩⟩

end Moment.Born

/-! ## Functions of cells -/

/-- In the course of a run a cell is derived from another by a function, and nobody else gives it an outcome. -/
structure Mapping (start later : Moment α β ε ω) where
  source : CellId
  convert : α → Outcome α
  fire : Fire α β ε ω
  target : CellId
  /-- When the call is made. -/
  moment : Moment α β ε ω
  /-- What the call leaves. -/
  asked : World α β ε ω
  reached : Steps (Stride anyCell) start moment
  inside : source < moment.world.store.cells.size
  called : derived fire source (fun value => .ok (convert value)) moment.world = (.ok target, asked)
  alone : Steps (Stride (· ≠ target)) ⟨moment.duties, asked⟩ later

namespace Mapping

variable {start later : Moment α β ε ω}

/-- How often the function is applied, by the call and by those whom the call registers. -/
def applications (mapping : Mapping start later) : Nat :=
  let world := mapping.moment.world
  (mapping.asked.conversions - world.conversions) +
    ((List.range' world.store.registered (mapping.asked.store.registered - world.store.registered)).map
      later.world.appliedBy).sum

/-- With nothing in progress, the derived cell shows what the function makes of what the other shows. -/
theorem at_rest (mapping : Mapping start later) (orderly : start.Orderly) (accounted : start.Accounted)
    (born : start.Born) (rest : later.duties = []) :
    later.world.store.state mapping.target =
        (later.world.store.state mapping.source).map (· >>= mapping.convert) ∧
      mapping.applications = (later.world.store.state mapping.source).elim 0 timesDue := by
  obtain ⟨source, convert, fire, target, ⟨duties, world⟩, asked, reached, inside, called, alone⟩ := mapping
  have before : Moment.Orderly ⟨duties, world⟩ := (orderly.strides reached).1
  obtain ⟨left, same, deeds, call⟩ := (born.strides orderly reached).call before.sound inside fire convert
  cases called.symm.trans same
  have moves := deeds.moves duties
  have kept := before.keeps moves
  have counted : Moment.Accounted ⟨duties, asked⟩ :=
    moves.keep (fun move accounted => accounted.move move) (accounted.strides reached)
  obtain ⟨after, keeps⟩ := kept.1.strides alone
  obtain ⟨laterDuties, laterWorld⟩ := later
  cases rest
  simp only [applications]
  rcases call with ⟨seen, shown, derived, conversions, registered⟩ | ⟨-, derives, conversions, registered⟩
  · have still : laterWorld.store.state source = some seen := keeps.state (kept.2.state shown)
    rw [still, conversions, registered]
    exact ⟨(derived.strides kept.1 alone).at_rest after.sound, by simp⟩
  · rw [conversions, registered, Nat.sub_self, Nat.add_sub_cancel_left]
    simp only [List.range'_one, List.map_cons, List.map_nil, List.sum_cons, List.sum_nil, Nat.zero_add, Nat.add_zero]
    rcases derives.strides rfl kept.1 counted alone with waits | ⟨seen, derived, applied⟩
    · obtain ⟨pending, nothing⟩ := waits.at_rest after
      have unrun := waits.unrun (counted.strides alone)
      change laterWorld.store.state source = none at pending
      rw [pending]
      exact ⟨nothing, unrun.times⟩
    · have still : laterWorld.store.state source = some seen := (after.history _ applied.ran).2
      rw [still]
      exact ⟨derived.at_rest after.sound, applied.times.times⟩

end Mapping

namespace Script

variable {α : Type}

theorem born_worldAfter (valueText : α → String) (script : List (Op α)) :
    Moment.Born ⟨[], worldAfter valueText script⟩ :=
  (Moment.Born.start _).strides (.start _) (strides_worldAfter valueText script)

/-- A cell may be derived from another by a function at any moment. Whenever nothing is in progress after that, and as
long as nobody else gives it an outcome, it shows what the function makes of the value that the other shows, or the same
failure, or nothing if the other shows nothing; the function has been applied once to a value, and not at all
otherwise. So two functions one after the other come to the same as both at once. -/
theorem derived_cells_follow (valueText : α → String) (script : List (Op α)) :
    let start : Instant α := ⟨[], worldAfter valueText script⟩
    (∀ more, Steps (Stride anyCell) start ⟨[], worldAfter valueText (script ++ more)⟩) ∧
    (∀ moment, Steps (Stride anyCell) start moment → ∀ fire source (convert : α → Outcome α),
      source < moment.world.store.cells.size →
        ∃ target asked, derived fire source (fun value => .ok (convert value)) moment.world = (.ok target, asked) ∧
          (Calm moment.world.store moment.duties → Steps (Stride anyCell) moment ⟨moment.duties, asked⟩)) ∧
    ∀ later, later.duties = [] →
      (∀ mapping : Mapping start later,
        later.world.store.state mapping.target =
            (later.world.store.state mapping.source).map (· >>= mapping.convert) ∧
          mapping.applications = (later.world.store.state mapping.source).elim 0 timesDue) ∧
      ∀ first second both : Mapping start later, second.source = first.target → both.source = first.source →
        (both.convert = fun value => first.convert value >>= second.convert) →
        later.world.store.state second.target = later.world.store.state both.target := by
  intro start
  have orderly : start.Orderly := orderly_worldAfter valueText script
  have accounted : start.Accounted := accounted_worldAfter valueText script
  have born : start.Born := born_worldAfter valueText script
  have follows {later : Instant α} (rest : later.duties = []) (mapping : Mapping start later) :=
    mapping.at_rest orderly accounted born rest
  refine ⟨strides_append valueText script, fun moment strides fire source convert inside => ?_,
    fun later rest => ⟨follows rest, fun first second both next same composed => ?_⟩⟩
  · have kept := (orderly.strides strides).1
    obtain ⟨asked, called, deeds, -⟩ := (born.strides orderly strides).call kept.sound inside fire convert
    exact ⟨_, asked, called, deeds.strides kept⟩
  · rw [(follows rest second).1, (follows rest both).1, next, (follows rest first).1, same, composed]
    cases later.world.store.state first.source with
    | none => rfl
    | some seen => cases seen <;> rfl

end Script

end DeferredJit.Async
