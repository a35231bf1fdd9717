import DeferredJit.Engine.Engine
import DeferredJit.Proofs.Async.Accounts
import DeferredJit.Proofs.Async.Carried

/-! What engines rely on at every moment: calls wait for cells that exist, their placeholders may be
linked, and a cell that holds a handle holds one that exists. -/

set_option autoImplicit false

namespace DeferredJit

open Async (CellId)

/-! ## Outside parties -/

def Raw.cells : Raw → List CellId
  | token cell => [cell]
  | asyncMemref cell => [cell]
  | memref _ => []

/-- Conversions make values. -/
def Converts (convert : Payload → Made Payload) : Prop :=
  ∀ ⦃payload made⦄, convert payload = .ok (.ok made) → ∃ value, made = .value value

/-- A conversion derives from what it is given, or from cells that are there already. -/
structure Conversion.Sane (size : Nat) (conversion : Conversion) : Prop where
  inside : ∀ {bound index type raw cell convert}, size ≤ bound → (∀ held ∈ raw.cells, held < bound) →
    conversion index type raw = .ok (.ok (.derived cell convert)) → cell < bound
  back : ∀ {bound index type raw other}, size ≤ bound → (∀ held ∈ raw.cells, held < bound) →
    conversion index type raw = .ok (.error other) → ∀ held ∈ other.cells, held < bound
  converts : ∀ {index type raw cell convert},
    conversion index type raw = .ok (.ok (.derived cell convert)) → Converts convert

namespace Conversion.Sane

variable {size more : Nat}

theorem later {conversion : Conversion} (sane : conversion.Sane size) (grown : size ≤ more) :
    conversion.Sane more where
  inside bound := sane.inside (Nat.le_trans grown bound)
  back bound := sane.back (Nat.le_trans grown bound)
  converts := sane.converts

theorem convert {conversions : List Conversion} (sane : ∀ conversion ∈ conversions, conversion.Sane size)
    {bound index : Nat} {type : ResultType} {raw : Raw} (enough : size ≤ bound)
    (held : ∀ cell ∈ raw.cells, cell < bound) {cell : CellId} {convert : Payload → Made Payload}
    (made : Conversion.convert index type conversions raw = .ok (.derived cell convert)) :
    cell < bound ∧ Converts convert := by
  induction conversions generalizing raw with
  | nil => cases made
  | cons first rest ih =>
    have saneFirst := sane first List.mem_cons_self
    cases tried : first index type raw with
    | error cause => simp [Conversion.convert, tried, bind, Except.bind] at made
    | ok reply =>
      cases reply with
      | ok converted =>
        simp only [Conversion.convert, tried, bind, Except.bind, pure, Except.pure] at made
        cases made
        exact ⟨saneFirst.inside enough held tried, saneFirst.converts tried⟩
      | error other =>
        simp only [Conversion.convert, tried, bind, Except.bind] at made
        exact ih (fun conversion member => sane conversion (List.mem_cons_of_mem _ member))
          (saneFirst.back enough held tried) made

/-- A conversion gives back what it is given, or derives from it, or needs no cell. -/
inductive Local (raw : Raw) : Except Panic (Except Raw Converted) → Prop where
  | back : Local raw (.ok (.error raw))
  | derived {cell convert} : cell ∈ raw.cells → Converts convert →
      Local raw (.ok (.ok (.derived cell convert)))
  | settled {outcome} : Local raw (.ok (.ok (.settled outcome)))
  | panic {cause} : Local raw (.error cause)

theorem of_local {conversion : Conversion}
    (known : ∀ index type raw, Local raw (conversion index type raw)) : conversion.Sane 0 where
  inside := by
    intro bound index type raw cell convert _ held made
    have kind := known index type raw
    rw [made] at kind
    cases kind with
    | derived member => exact held cell member
  back := by
    intro bound index type raw other _ held made
    have kind := known index type raw
    rw [made] at kind
    cases kind with
    | back => exact held
  converts := by
    intro index type raw cell convert made
    have kind := known index type raw
    rw [made] at kind
    cases kind with
    | derived _ converts => exact converts

theorem token : Conversion.token.Sane 0 := by
  refine of_local fun index type raw => ?_
  unfold Conversion.token
  split
  · refine .derived List.mem_cons_self fun payload made converted => ?_
    cases converted
    exact ⟨_, rfl⟩
  · exact .back

theorem asyncMemref : Conversion.asyncMemref.Sane 0 := by
  refine of_local fun index type raw => ?_
  unfold Conversion.asyncMemref
  split
  · rename_i element rank cell
    refine .derived List.mem_cons_self fun payload made converted => ?_
    cases payload with
    | view view =>
      change (tensorResult index element rank view).map 
        (fun outcome => outcome.map Payload.value) = _ at converted
      cases result : tensorResult index element rank view with
      | error cause =>
        rw [result] at converted
        cases converted
      | ok outcome =>
        rw [result] at converted
        cases outcome <;> cases converted
        exact ⟨_, rfl⟩
    | _ => cases converted
  · exact .back

theorem memref : Conversion.memref.Sane 0 := by
  refine of_local fun index type raw => ?_
  unfold Conversion.memref
  split
  · rename_i element rank view
    cases tensorResult index element rank view with
    | error => exact .panic
    | ok => exact .settled
  · exact .back

theorem defaults : ∀ conversion ∈ Conversion.defaults, conversion.Sane 0 := by
  intro conversion member
  simp only [Conversion.defaults, List.mem_cons, List.not_mem_nil, or_false] at member
  rcases member with rfl | rfl | rfl
  · exact token
  · exact asyncMemref
  · exact memref

end Conversion.Sane

/-- Whose handle, if any, is one of so many. -/
def Payload.Valid (handles : Nat) : Payload → Prop
  | handle id => id < handles
  | value _ | token | view _ | executable _ => True

theorem Payload.Valid.later {handles more : Nat} {payload : Payload} (valid : payload.Valid handles)
    (grown : handles ≤ more) : payload.Valid more := by
  cases payload with
  | handle => exact Nat.lt_of_lt_of_le valid grown
  | _ => trivial

/-- An outcome is a failure or holds a valid payload. -/
def Outcome.Valid (handles : Nat) (outcome : Outcome Payload) : Prop :=
  ∀ payload, outcome = .ok payload → payload.Valid handles

theorem Outcome.Valid.later {handles more : Nat} {outcome : Outcome Payload}
    (valid : Outcome.Valid handles outcome) (grown : handles ≤ more) : Outcome.Valid more outcome :=
  fun payload held => (valid payload held).later grown

theorem Outcome.Valid.error (handles : Nat) (failure : Failure) :
    Outcome.Valid handles (.error failure) := fun _ held => by cases held

theorem Outcome.valid_of_converts {convert : Payload → Made Payload} (converts : Converts convert)
    {payload : Payload} {outcome : Outcome Payload} (made : convert payload = .ok outcome)
    (handles : Nat) : Outcome.Valid handles outcome := by
  rintro result rfl
  obtain ⟨value, rfl⟩ := converts made
  trivial

structure Handle.Fits (size : Nat) (handle : Handle) : Prop where
  generic : handle.genericCell < size
  specialized : ∀ entry ∈ handle.specializations, entry.2 < size

namespace Handle.Fits

variable {size more : Nat} {handle : Handle}

/-- A cell that is yet to be made is none of those of the handle. -/
theorem distinct_specialized (fits : handle.Fits size)
    (distinct : (handle.genericCell :: handle.specializations.map Prod.snd).Nodup) (key : ShapeKey) :
    ((handle.specialized key size).genericCell :: (handle.specialized key size).specializations.map Prod.snd).Nodup := by
  change (handle.genericCell :: (handle.specializations ++ [(key, size)]).map Prod.snd).Nodup
  rw [List.map_append, ← List.cons_append]
  refine List.nodup_append.2 ⟨distinct, List.nodup_singleton _, fun former member young among same => ?_⟩
  subst same
  rw [List.mem_singleton.1 among] at member
  rcases List.mem_cons.1 member with same | old
  · exact absurd fits.generic (Nat.not_lt.2 (Nat.le_of_eq same))
  · obtain ⟨entry, found, same⟩ := List.mem_map.1 old
    exact absurd (fits.specialized entry found) (Nat.not_lt.2 (Nat.le_of_eq same.symm))

theorem later (fits : handle.Fits size) (grown : size ≤ more) : handle.Fits more where
  generic := Nat.lt_of_lt_of_le fits.generic grown
  specialized entry member := Nat.lt_of_lt_of_le (fits.specialized entry member) grown

theorem known {key : ShapeKey} {cell : CellId} (fits : handle.Fits size)
    (chosen : handle.choose key = .known cell) : cell < size := by
  unfold Handle.choose at chosen
  split at chosen
  · split at chosen
    · rename_i found
      cases chosen
      obtain ⟨before, after, same, -⟩ := List.lookup_eq_some_iff.1 found
      exact fits.specialized (key, cell) (by simp [same])
    · split at chosen <;> cases chosen
  · cases chosen

theorem specialize {key : ShapeKey} {cell : CellId} (fits : handle.Fits size) (bound : cell < size) :
    (handle.specialized key cell).Fits size where
  generic := fits.generic
  specialized entry member := by
    rcases List.mem_append.1 member with old | new
    · exact fits.specialized entry old
    · rw [List.mem_singleton.1 new]
      exact bound

end Handle.Fits

/-! ## Calls -/

namespace Engine

open Async (Moment Continuation Routine Steps)

def Dispatcher.Sane (size : Nat) (dispatcher : Dispatcher) : Prop :=
  ∀ conversion ∈ dispatcher.conversions, conversion.Sane size

structure Call.Fits (size : Nat) (call : Call) : Prop where
  handle : call.handle < size
  operands : ∀ cell ∈ call.operands, cell < size
  dispatcher : call.dispatcher.Sane size

theorem Call.Fits.later {size more : Nat} {call : Call} (fits : call.Fits size) (grown : size ≤ more) :
    call.Fits more where
  handle := Nat.lt_of_lt_of_le fits.handle grown
  operands cell member := Nat.lt_of_lt_of_le (fits.operands cell member) grown
  dispatcher conversion member := (fits.dispatcher conversion member).later grown

def Stage.call? : Stage → Option Call
  | operands call _ | handle call _ _ | executable call _ _ => some call
  | observer _ => none

/-- The placeholders that a stage links to the results that it comes to. -/
def Stage.results : Stage → List CellId
  | operands _ results | handle _ _ results | executable _ _ results => results
  | observer _ => []

abbrev EngineStore := Async.Store Payload Stage

abbrev EngineMoment := Moment Payload Stage Notice State

def placeable (store : EngineStore) (cell : CellId) : Prop :=
  ∃ found, store.cell? cell = some found ∧ found.kind = .indirect

theorem placeable.later {store later : EngineStore} {cell : CellId} (indirect : placeable store cell)
    (keeps : store.Keeps later) : placeable later cell := by
  obtain ⟨found, here, kind⟩ := indirect
  obtain ⟨after, there, same, -⟩ := keeps.cell here
  exact ⟨after, there, same.trans kind⟩

theorem placeable.earlier {store later : EngineStore} {cell : CellId} (indirect : placeable later cell)
    (keeps : store.Keeps later) (inside : cell < store.cells.size) : placeable store cell := by
  obtain ⟨after, there, kind⟩ := indirect
  obtain ⟨found, found', same, -⟩ := keeps.cell (Array.getElem?_eq_getElem inside)
  rw [there] at found'
  cases found'
  exact ⟨_, Array.getElem?_eq_getElem inside, same.symm.trans kind⟩

structure Stage.Fits (store : EngineStore) (stage : Stage) : Prop where
  call : ∀ {call}, stage.call? = some call →
    call.Fits store.cells.size ∧ stage.results.length = call.count
  results : ∀ cell ∈ stage.results, placeable store cell

theorem Stage.Fits.later {store later : EngineStore} {stage : Stage} (fits : stage.Fits store)
    (keeps : store.Keeps later) : stage.Fits later where
  call made := (fits.call made).imp (fun call => call.later keeps.size_le) id
  results cell member := (fits.results cell member).later keeps

def ContinuationFits (store : EngineStore) : Continuation Payload Stage → Prop
  | .call stage => stage.Fits store
  | .arrive _ => True
  | .derive target convert => target < store.cells.size ∧ Converts convert

theorem ContinuationFits.later {store later : EngineStore} (keeps : store.Keeps later) :
    ∀ continuation, ContinuationFits store continuation → ContinuationFits later continuation
  | .call _, fits => Stage.Fits.later fits keeps
  | .arrive _, _ => trivial
  | .derive _ _, fits => ⟨Nat.lt_of_lt_of_le fits.1 keeps.size_le, fits.2⟩

/-! ## Worlds and moments -/

def Job.target : Job → CellId
  | compile _ target _ | specialize _ _ _ _ target | settle _ target _ => target

/-- The tasks in the queue that will resolve a cell. -/
def State.serving (state : State) (cell : CellId) : List Job := state.queue.filter (·.target == cell)

theorem State.mem_serving {state : State} {cell : CellId} {job : Job} :
    job ∈ state.serving cell ↔ job ∈ state.queue ∧ job.target = cell := by
  simp [serving]

theorem State.serving_append {state next : State} {cell : CellId} {more : List Job}
    (queue : next.queue = state.queue ++ more) (apart : ∀ job ∈ more, job.target ≠ cell) :
    next.serving cell = state.serving cell := by
  have none : more.filter (·.target == cell) = [] := by
    refine List.filter_eq_nil_iff.2 fun job member => ?_
    simpa using apart job member
  rw [serving, queue, List.filter_append, none, List.append_nil]
  rfl

structure Job.Fits (world : EngineWorld) (job : Job) : Prop where
  target : job.target < world.store.cells.size
  concrete : ¬ placeable world.store job.target
  payload : ∀ {name target payload}, job = .settle name target payload →
    payload.Valid world.outer.handles.length

theorem Job.Fits.later {world next : EngineWorld} {job : Job} (fits : job.Fits world)
    (keeps : world.store.Keeps next.store)
    (handles : world.outer.handles.length ≤ next.outer.handles.length) : job.Fits next where
  target := Nat.lt_of_lt_of_le fits.target keeps.size_le
  concrete indirect := fits.concrete (indirect.earlier keeps fits.target)
  payload settles := (fits.payload settles).later handles

structure Tidy (world : EngineWorld) : Prop where
  handles : ∀ handle ∈ world.outer.handles, handle.Fits world.store.cells.size
  shown : ∀ {id outcome}, world.store.state id = some outcome →
    Outcome.Valid world.outer.handles.length outcome
  jobs : ∀ job ∈ world.outer.queue, job.Fits world
  entries : ∀ entry ∈ world.outer.cache.entries, entry.2 < world.store.cells.size

structure Fit (moment : EngineMoment) : Prop where
  orderly : moment.Orderly
  tidy : Tidy moment.world
  carried : moment.Carries (ContinuationFits moment.world.store)
  links : ∀ source target, .link source target ∈ moment.duties →
    target < moment.world.store.cells.size ∧ placeable moment.world.store source
  gives : ∀ target outcome, .give target outcome ∈ moment.duties →
    target < moment.world.store.cells.size ∧ Outcome.Valid moment.world.outer.handles.length outcome

/-- What changes when no cell shows anything new but what is given or linked to. -/
theorem Tidy.keeps {world next : EngineWorld} (tidy : Tidy world) (keeps : world.store.Keeps next.store)
    (same : next.outer = world.outer)
    (shown : ∀ {id outcome}, next.store.state id = some outcome →
      Outcome.Valid world.outer.handles.length outcome) : Tidy next where
  handles handle member := (tidy.handles handle (same ▸ member)).later keeps.size_le
  shown held := same ▸ shown held
  jobs job member := (tidy.jobs job (same ▸ member)).later keeps (Nat.le_of_eq (by rw [same]))
  entries entry member := Nat.lt_of_lt_of_le (tidy.entries entry (same ▸ member)) keeps.size_le

namespace Fit

variable {mayPanic : Prop} {before after : EngineMoment}

theorem shown_settle {store next : EngineStore} {handles : Nat} {target : CellId}
    {outcome : Outcome Payload} {waiters : List (Async.Waiter Payload Stage)} (grounded : store.Grounded)
    (shown : ∀ {id outcome}, store.state id = some outcome → Outcome.Valid handles outcome)
    (valid : Outcome.Valid handles outcome)
    (settled : store.settle target outcome = some (waiters, next)) {id : CellId}
    {seen : Outcome Payload} (held : next.state id = some seen) : Outcome.Valid handles seen := by
  rw [Async.Store.state_settle grounded settled] at held
  split at held
  · cases held
    exact valid
  · exact shown held

theorem shown_linkTo {store next : EngineStore} {handles : Nat} {source target : CellId}
    {waiters : List (Async.Waiter Payload Stage)} (grounded : store.Grounded)
    (shown : ∀ {id outcome}, store.state id = some outcome → Outcome.Valid handles outcome)
    (linked : store.linkTo source target = .ok (waiters, next)) {id : CellId}
    {seen : Outcome Payload} (held : next.state id = some seen) : Outcome.Valid handles seen := by
  rw [Async.Store.state_linkTo grounded linked] at held
  split at held
  · exact shown held
  · exact shown held

theorem tidy_routine (fit : Fit before) (step : Routine mayPanic before after) : Tidy after.world := by
  have keeps := step.keeps fit.orderly.sound
  have grounded := fit.orderly.sound.grounded
  have tidy := fit.tidy
  cases step with
  | park parked =>
    exact tidy.keeps keeps rfl fun held =>
      tidy.shown ((Async.Store.state_park grounded parked _).symm.trans held)
  | arrive _ arrived | opens _ arrived =>
    have same := Async.Store.cells_of_arriveAt arrived
    exact tidy.keeps keeps rfl fun held =>
      tidy.shown ((Async.Store.state_of_cells_eq same _).symm.trans held)
  | give settled =>
    exact tidy.keeps keeps rfl
      (shown_settle grounded tidy.shown (fit.gives _ _ List.mem_cons_self).2 settled)
  | link _ linked => exact tidy.keeps keeps rfl (shown_linkTo grounded tidy.shown linked)
  | _ => exact tidy.keeps keeps rfl tidy.shown

theorem gives_routine (fit : Fit before) (step : Routine mayPanic before after) :
    ∀ target outcome, .give target outcome ∈ after.duties →
      target < before.world.store.cells.size ∧ Outcome.Valid before.world.outer.handles.length outcome := by
  intro target outcome member
  have older : .give target outcome ∈ before.duties → target < before.world.store.cells.size ∧
      Outcome.Valid before.world.outer.handles.length outcome := fit.gives target outcome
  cases step with
  | derive kind _ made =>
    rcases List.mem_cons.1 member with same | old
    · cases same
      have converts := fit.carried.waiting _ List.mem_cons_self
      rw [kind] at converts
      exact ⟨converts.1, Outcome.valid_of_converts converts.2 made _⟩
    · exact older (List.mem_cons_of_mem _ old)
  | pass kind =>
    rcases List.mem_cons.1 member with same | old
    · cases same
      have converts := fit.carried.waiting _ List.mem_cons_self
      rw [kind] at converts
      exact ⟨converts.1, .error _ _⟩
    · exact older (List.mem_cons_of_mem _ old)
  | _ => exact older (List.mem_cons_of_mem _ (by simpa using member))

theorem outer_routine (step : Routine mayPanic before after) : after.world.outer = before.world.outer := by
  cases step <;> rfl

theorem routine (fit : Fit before) (step : Routine mayPanic before after) : Fit after where
  orderly := fit.orderly.move (.routine step.weaken)
  tidy := fit.tidy_routine step
  carried := by
    have keeps := step.keeps fit.orderly.sound
    exact (fit.carried.routine step).mono (ContinuationFits.later keeps)
  links source target member := by
    have keeps := step.keeps fit.orderly.sound
    have older : .link source target ∈ before.duties := by
      cases step with
      | _ => exact List.mem_cons_of_mem _ (by simpa using member)
    obtain ⟨inside, indirect⟩ := fit.links source target older
    exact ⟨Nat.lt_of_lt_of_le inside keeps.size_le, indirect.later keeps⟩
  gives target outcome member := by
    have keeps := step.keeps fit.orderly.sound
    obtain ⟨inside, valid⟩ := fit.gives_routine step target outcome member
    exact ⟨Nat.lt_of_lt_of_le inside keeps.size_le, outer_routine step ▸ valid⟩

end Fit

end Engine

end DeferredJit
