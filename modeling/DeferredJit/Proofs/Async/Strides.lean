import DeferredJit.Proofs.Async.Accounts
import DeferredJit.Proofs.Async.Growth

/-! What clients do with cells, one operation at a time.

An operation runs waiters in the end, if it runs any, so a client is back in charge only when whoever
is on the way to a cell finds it available. Operations that run no waiter are one stride.
-/

set_option autoImplicit false

namespace DeferredJit.Async

variable {α β ε ω : Type}

/-- Nobody is on the way to a cell that is not available. -/
def Calm (store : Store α β) (duties : List (Duty α β)) : Prop :=
  ∀ place waiter, .hand place waiter ∈ duties → (store.state place).isSome

namespace Calm

variable {store later : Store α β} {duties : List (Duty α β)}

theorem nil : Calm store [] := fun _ _ member => absurd member List.not_mem_nil

theorem mono (calm : Calm store duties) (keeps : store.Keeps later) : Calm later duties :=
  fun place waiter member => keeps.isSome_state (calm place waiter member)

theorem tail {duty : Duty α β} (calm : Calm store (duty :: duties)) : Calm store duties :=
  fun place waiter member => calm place waiter (List.mem_cons_of_mem _ member)

theorem cons {duty : Duty α β} (calm : Calm store duties)
    (other : ∀ place waiter, duty = .hand place waiter → (store.state place).isSome) :
    Calm store (duty :: duties) := by
  intro place waiter member
  rcases List.mem_cons.1 member with same | old
  · exact other place waiter same.symm
  · exact calm place waiter old

theorem fire (calm : Calm store duties) (waiters : List (Waiter α β)) :
    Calm store (waiters.map .fire ++ duties) := by
  intro place waiter member
  simp only [List.mem_append, List.mem_map, reduceCtorEq, and_false, exists_false, false_or] at member
  exact calm place waiter member

end Calm

/-- Cells that are available are not waited for. -/
theorem whenAll_passes {world : World α β ε ω} (fire : Fire α β ε ω) {ids : List CellId} (body : β)
    (now : Action α β ε ω Unit) (all : ids.all world.store.isAvailable) :
    whenAll fire ids body now world =
      now ((world.latch ⟨0, body⟩).log (.opened world.store.latches.length)) := by
  have nobody : ids.filter (fun id => !world.store.isAvailable id) = [] := by
    simpa [List.filter_eq_nil_iff] using all
  unfold whenAll
  rw [Act.bind_ok (theStore_apply world), nobody]
  rfl

/-- What a client does: the duties that come of it, and the world it leaves. Outcomes are given to some
cells only. -/
inductive Deed (gives : CellId → Prop) (world : World α β ε ω) :
    List (Duty α β) → World α β ε ω → Prop where
  | make {cell} : cell.link = none → cell.waiters = [] → Deed gives world [] (world.make cell)
  | settle {id outcome waiters store} : gives id → world.store.settle id outcome = some (waiters, store) →
      Deed gives world (waiters.map .fire) { world with store }
  | link {id target waiters store} : target < world.store.cells.size →
      world.store.linkTo id target = .ok (waiters, store) →
      Deed gives world (waiters.map (.hand target)) { world with store }
  | call {id body} : id < world.store.cells.size →
      Deed gives world [.hand id (world.store.enroll id (.call body)).1] (world.enroll id (.call body))
  /-- A new cell is to get what another will show. -/
  | derive {id convert next} : id < world.store.cells.size →
      (world.make {}).Waits id (.derive world.store.cells.size convert) next → Deed gives world [] next
  /-- A new latch waits for cells that are not available. -/
  | gather {ids body next} : ids ≠ [] →
      World.WaitsEach (.arrive world.store.latches.length) ids (world.latch ⟨ids.length, body⟩) next →
      Deed gives world [] next
  /-- A new latch has nothing to wait for. -/
  | pass {body} : Deed gives world []
      ((world.latch ⟨0, body⟩).log (.opened world.store.latches.length))
  | convert {value} : Deed gives world [] (world.log (.converted value))
  | note {entry} : Deed gives world [] (world.log (.noted entry))
  | own {outer} : Deed gives world [] { world with outer }

/-- A duty is done, or a client that is in charge does something. -/
inductive Stride (gives : CellId → Prop) : Moment α β ε ω → Moment α β ε ω → Prop where
  | routine {before after} : Routine True before after → Stride gives before after
  | begin {body seen rest world} : Stride gives ⟨.answer body seen :: rest, world⟩ ⟨rest, world⟩
  | deed {duties world added next} : Calm world.store duties → Deed gives world added next →
      Stride gives ⟨duties, world⟩ ⟨added ++ duties, next⟩

/-- A client may give any cell an outcome. -/
def anyCell : CellId → Prop := fun _ => True

/-! ## In small steps -/

theorem Deed.moves {gives : CellId → Prop} {world next : World α β ε ω} {added : List (Duty α β)}
    (deed : Deed gives world added next) (duties : List (Duty α β)) :
    Steps Move ⟨duties, world⟩ ⟨added ++ duties, next⟩ := by
  have made : Grow world (world.make {}) := .make rfl rfl
  cases deed with
  | make free nobody => exact .single (.free (.make free nobody))
  | settle _ settled => exact .single (.free (.settle settled))
  | link bound linked => exact .single (.free (.link bound linked))
  | call bound => exact .single (.free (.register bound))
  | @derive id _ _ bound waits =>
    exact (made.moves duties).trans ((Grow.waits (World.lt_size_make bound {}) waits).moves duties)
  | gather _ waits => exact (Grow.latch.moves duties).trans (waits.grows.moves duties)
  | pass => exact (Grow.latch.moves duties).trans (Grow.opened.moves duties)
  | convert => exact .single (.free .converted)
  | note => exact .single (.free .note)
  | own => exact .single (.free .own)

theorem Stride.moves {gives : CellId → Prop} {before after : Moment α β ε ω} (stride : Stride gives before after) :
    Steps Move before after := by
  cases stride with
  | routine step => exact .single (.routine step)
  | begin => exact .single (.free .begin)
  | deed calm deed => exact deed.moves _

theorem moves_of_strides {gives : CellId → Prop} {before after : Moment α β ε ω}
    (strides : Steps (Stride gives) before after) : Steps Move before after := by
  induction strides with
  | refl => exact .refl
  | tail _ stride ih => exact ih.trans stride.moves

/-! ## What deeds bring -/

/-- A waiter of a client, or one that sees to something new. -/
def Continuation.New (store next : Store α β) : Continuation α β → Prop
  | .call _ => True
  | .arrive latch => latch = store.latches.length
  | .derive target _ => target = store.cells.size ∧ target < next.cells.size

theorem World.WaitsEach.latches {continuation : Continuation α β} {ids : List CellId} {world next : World α β ε ω}
    (waits : World.WaitsEach continuation ids world next) : next.store.latches = world.store.latches := by
  induction waits with
  | nil => rfl
  | cons _ waits _ ih => exact ih.trans waits.latches

namespace Deed

variable {gives : CellId → Prop} {world next : World α β ε ω} {added : List (Duty α β)}

/-- Nobody is lost, and whoever comes is new. -/
theorem outstanding (deed : Deed gives world added next) (duties : List (Duty α β)) : ∃ new : List (Waiter α β),
    (Moment.outstanding ⟨added ++ duties, next⟩).Perm (new ++ Moment.outstanding ⟨duties, world⟩) ∧
      ∀ waiter ∈ new, waiter.continuation.New world.store next.store := by
  cases deed with
  | make _ nobody => exact ⟨[], .of_eq (Moment.outstanding_make duties world nobody), by simp⟩
  | settle _ settled =>
    exact ⟨[], Moment.outstanding_released [] .fire rfl (fun _ => rfl) (Store.waiters_settle settled), by simp⟩
  | link _ linked =>
    exact ⟨[], Moment.outstanding_released [] (.hand _) rfl (fun _ => rfl) (Store.waiters_linkTo linked), by simp⟩
  | call =>
    refine ⟨[_], .refl _, fun waiter member => ?_⟩
    rw [List.mem_singleton.1 member]
    trivial
  | derive _ waits =>
    have same := Moment.outstanding_waits duties waits
    rw [Moment.outstanding_make duties world rfl] at same
    refine ⟨[_], same, fun waiter member => ?_⟩
    rw [List.mem_singleton.1 member]
    exact ⟨rfl, waits.size ▸ world.new_lt_size_make {}⟩
  | gather _ waits =>
    obtain ⟨new, same, -, each⟩ := waits.outstanding duties
    refine ⟨new, same, fun waiter member => ?_⟩
    rw [each waiter member]
    rfl
  | _ => exact ⟨[], .refl _, by simp⟩

theorem latches (deed : Deed gives world added next) :
    ∃ more, next.store.latches = world.store.latches ++ more := by
  cases deed with
  | settle _ settled => exact ⟨[], by simp [(Store.aligned_settle settled).latches]⟩
  | link _ linked => exact ⟨[], by simp [(Store.aligned_linkTo linked).latches]⟩
  | derive _ waits => exact ⟨[], waits.latches.trans (List.append_nil _).symm⟩
  | gather _ waits => exact ⟨[_], waits.latches⟩
  | pass => exact ⟨[_], rfl⟩
  | _ => exact ⟨[], (List.append_nil _).symm⟩

/-- Latches go on missing the waiters that will arrive. -/
theorem latched (deed : Deed gives world added next) {duties : List (Duty α β)}
    (latched : Moment.Latched ⟨duties, world⟩) : Moment.Latched ⟨added ++ duties, next⟩ := by
  cases deed with
  | make _ nobody =>
    refine latched.of_perm (.of_eq ?_) rfl
    unfold Moment.arrivals
    rw [List.nil_append, Moment.outstanding_make duties world nobody]
  | settle _ settled =>
    exact latched.of_perm ((Moment.outstanding_released [] .fire rfl (fun _ => rfl)
      (Store.waiters_settle settled)).filterMap _) (Store.aligned_settle settled).latches
  | link _ linked =>
    exact latched.of_perm ((Moment.outstanding_released [] (.hand _) rfl (fun _ => rfl)
      (Store.waiters_linkTo linked)).filterMap _) (Store.aligned_linkTo linked).latches
  | derive _ waits =>
    have made : Moment.Latched ⟨duties, world.make {}⟩ := latched.makeMany rfl 1
    exact made.waits rfl waits
  | gather _ waits => exact latched.gather waits
  | @pass body =>
    have kept : Moment.Latched ⟨duties, world.latch ⟨0, body⟩⟩ := latched.gather (.nil)
    exact kept.of_perm (.refl _) rfl
  | _ => exact latched.of_perm (.refl _) rfl

end Deed

namespace Moment

variable {gives : CellId → Prop} {before after : Moment α β ε ω}

theorem Orderly.strides (orderly : before.Orderly) (strides : Steps (Stride gives) before after) :
    after.Orderly ∧ before.world.store.Keeps after.world.store := orderly.keeps (moves_of_strides strides)

theorem Accounted.strides (accounted : before.Accounted) (strides : Steps (Stride gives) before after) :
    after.Accounted :=
  (moves_of_strides strides).keep (fun move accounted => accounted.move move) accounted

/-! ## Who is in charge -/

/-- Waiters on their way to a cell that is not available go on before anything else is done. -/
def Flows (moment : Moment α β ε ω) : Prop :=
  ∃ place, ∃ waiters : List (Waiter α β), ∃ rest,
    moment.duties = waiters.map (.hand place) ++ rest ∧ Calm moment.world.store rest

theorem flows_of_calm (calm : Calm after.world.store after.duties) : after.Flows := ⟨0, [], _, rfl, calm⟩

namespace Flows

variable {duty : Duty α β} {rest : List (Duty α β)} {world next : World α β ε ω}

/-- If the first duty is not the last that holds a client up, those behind it are of its kind. -/
theorem cons (flows : Flows ⟨duty :: rest, world⟩) : Calm world.store (duty :: rest) ∨
    ∃ place waiter, ∃ waiters : List (Waiter α β), ∃ others, duty = .hand place waiter ∧
      rest = waiters.map (.hand place) ++ others ∧ Calm world.store others := by
  obtain ⟨place, waiters, others, same, calm⟩ := flows
  cases waiters with
  | nil =>
    cases same
    exact .inl calm
  | cons waiter waiters =>
    cases same
    exact .inr ⟨place, waiter, waiters, others, rfl, rfl, calm⟩

theorem calm (flows : Flows ⟨duty :: rest, world⟩) (other : ∀ place waiter, duty ≠ .hand place waiter) :
    Calm world.store (duty :: rest) := by
  rcases flows.cons with calm | ⟨place, waiter, -, -, same, -⟩
  · exact calm
  · exact absurd same (other place waiter)

theorem tail (flows : Flows ⟨duty :: rest, world⟩) (keeps : world.store.Keeps next.store) : Flows ⟨rest, next⟩ := by
  rcases flows.cons with calm | ⟨place, -, waiters, others, -, rfl, calm⟩
  · exact flows_of_calm (calm.tail.mono keeps)
  · exact ⟨place, waiters, others, rfl, calm.mono keeps⟩

theorem routine {mayPanic : Prop} (flows : before.Flows) (orderly : before.Orderly)
    (step : Routine mayPanic before after) : after.Flows := by
  have keeps := step.keeps orderly.sound
  -- Only those who are handed on hold a client up.
  have aside {duty : Duty α β} {rest : List (Duty α β)} (here : before.duties = duty :: rest)
      (other : ∀ place waiter, duty ≠ .hand place waiter) : Calm after.world.store rest := by
    obtain ⟨duties, world⟩ := before
    cases here
    exact (flows.calm other).tail.mono keeps
  cases step with
  | park => exact flows.tail keeps
  | @ready place waiter rest world refused =>
    have available : (world.store.state place).isSome :=
      (orderly.sound.park_eq_none_iff (orderly.duties (.hand place waiter) List.mem_cons_self).1 waiter).1 refused
    refine flows_of_calm (Calm.cons ?_ fun _ _ same => by cases same)
    rcases flows.cons with calm | ⟨_, _, waiters, others, same, rfl, calm⟩
    · exact calm.tail
    · cases same
      intro other member among
      rcases List.mem_append.1 among with front | back
      · obtain ⟨_, -, same⟩ := List.mem_map.1 front
        cases same
        exact available
      · exact calm other member back
  | call | opens | derive | pass =>
    exact flows_of_calm ((aside rfl fun _ _ same => by cases same).cons fun _ _ same => by cases same)
  | arrive | spoil | skip | refuse | bar | abandon => exact flows_of_calm (aside rfl fun _ _ same => by cases same)
  | give => exact flows_of_calm ((aside rfl fun _ _ same => by cases same).fire _)
  | link => exact ⟨_, _, _, rfl, aside rfl fun _ _ same => by cases same⟩

theorem deed {duties added : List (Duty α β)} (calm : Calm world.store duties)
    (keeps : world.store.Keeps next.store) (deed : Deed gives world added next) :
    Flows ⟨added ++ duties, next⟩ := by
  have onward := calm.mono keeps
  cases deed with
  | settle => exact flows_of_calm (onward.fire _)
  | @link _ target waiters => exact ⟨target, waiters, duties, rfl, onward⟩
  | @call id body => exact ⟨id, [_], duties, rfl, onward⟩
  | _ => exact flows_of_calm onward

end Flows

end Moment

end DeferredJit.Async
