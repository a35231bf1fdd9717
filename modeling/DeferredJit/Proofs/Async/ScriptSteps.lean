import DeferredJit.Async.Script
import DeferredJit.Proofs.Async.Regime
import DeferredJit.Proofs.Async.Strides

/-! Scripts are made of strides, those of their callbacks included, and never run out of depth. -/

set_option autoImplicit false

namespace DeferredJit.Async.Script

variable {α : Type}

abbrev Instant (α : Type) := Moment α (Reaction α) (Entry α) Table

/-! ## What scripts rely on -/

/-- Announcements come right after the run of a waiter and tell what it saw. -/
def Announced (history : List (Event α (Entry α))) : Prop :=
  ∀ ⦃tag seen older⦄, .noted (.announced tag seen) :: older <:+ history →
    ∃ serial home oldest, older = .ran serial home seen :: oldest

def isPlain : Event α (Entry α) → Bool
  | .noted (.announced ..) => false
  | _ => true

namespace Announced

variable {history : List (Event α (Entry α))}

theorem empty : Announced ([] : List (Event α (Entry α))) := by
  intro tag seen older suffix
  rw [List.suffix_nil] at suffix
  contradiction

theorem plain (announced : Announced history) {event : Event α (Entry α)}
    (plain : isPlain event) : Announced (event :: history) := by
  intro tag seen older suffix
  rcases List.suffix_cons_iff.1 suffix with same | suffix
  · cases same
    contradiction
  · exact announced suffix

theorem announce (announced : Announced history) {serial : Nat} {home : CellId}
    {seen : Option (Outcome α)} {oldest : List (Event α (Entry α))}
    (ran : history = .ran serial home seen :: oldest) (tag : String) :
    Announced (.noted (.announced tag seen) :: history) := by
  intro other shown older suffix
  rcases List.suffix_cons_iff.1 suffix with same | suffix
  · cases same
    exact ⟨serial, home, oldest, ran⟩
  · exact announced suffix

end Announced

/-- What holds whenever a script is not about to answer. -/
structure Tidy (world : Scene α) : Prop where
  /-- Names are names of cells. -/
  named : ∀ id ∈ world.outer, id < world.store.cells.size
  /-- Only waiters are told what they see. -/
  untold : ∀ latch ∈ world.store.latches, latch.body.told = false
  announced : Announced world.history

/-- Answers are given at once. -/
def Unasked (duties : List (Duty α (Reaction α))) : Prop :=
  ∀ ⦃reaction seen⦄, .answer reaction seen ∉ duties

structure Informed (moment : Instant α) : Prop where
  tidy : Tidy moment.world
  later : Unasked moment.duties.tail
  /-- Whoever is told a state is told it right after the run that saw it. -/
  due : ∀ {reaction seen}, moment.duties.head? = some (.answer reaction seen) → reaction.told →
    ∃ serial home older, moment.world.history = .ran serial home seen :: older

structure Fit (moment : Instant α) : Prop extends Informed moment where
  orderly : moment.Orderly
  flows : moment.Flows

theorem Tidy.arriveAt {world : Scene α} (tidy : Tidy world) (latch : LatchId) :
    Tidy { world with store := (world.store.arriveAt latch).2 } where
  named id member := by
    rw [Store.cells_arriveAt]
    exact tidy.named id member
  untold other member := by
    obtain ⟨former, before, same⟩ := Store.latches_arriveAt member
    rw [← same]
    exact tidy.untold former before
  announced := tidy.announced

theorem Tidy.log {world : Scene α} (tidy : Tidy world) {event : Event α (Entry α)}
    (plain : isPlain event) : Tidy (world.log event) where
  named := tidy.named
  untold := tidy.untold
  announced := tidy.announced.plain plain

theorem Tidy.store {world : Scene α} (tidy : Tidy world) {store : Store α (Reaction α)}
    (aligned : world.store.Aligned store) : Tidy { world with store } where
  named id member := aligned.size ▸ tidy.named id member
  untold latch member := tidy.untold latch (aligned.latches ▸ member)
  announced := tidy.announced

namespace Unasked

variable {duties rest : List (Duty α (Reaction α))}

theorem informed {world : Scene α} (unasked : Unasked duties) (tidy : Tidy world) : Informed ⟨duties, world⟩ where
  tidy := tidy
  later _ _ member := unasked (List.mem_of_mem_tail member)
  due head := absurd (List.mem_of_mem_head? head) (@unasked _ _)

theorem hand (unasked : Unasked rest) (place : CellId) (waiters : List (Waiter α (Reaction α))) :
    Unasked (waiters.map (.hand place) ++ rest) := by
  intro reaction seen member
  simp only [List.mem_append, List.mem_map, reduceCtorEq, and_false, exists_false, false_or] at member
  exact unasked member

theorem fire (unasked : Unasked rest) (waiters : List (Waiter α (Reaction α))) :
    Unasked (waiters.map .fire ++ rest) := by
  intro reaction seen member
  simp only [List.mem_append, List.mem_map, reduceCtorEq, and_false, exists_false, false_or] at member
  exact unasked member

theorem give (unasked : Unasked rest) (target : CellId) (outcome : Outcome α) :
    Unasked (.give target outcome :: rest) := by
  intro reaction seen member
  rcases List.mem_cons.1 member with same | member
  · contradiction
  · exact unasked member

end Unasked

/-- Whatever is due, doing it keeps what scripts rely on. -/
theorem Informed.routine {mayPanic : Prop} {before after : Instant α} (informed : Informed before)
    (step : Routine mayPanic before after) : Informed after := by
  have unasked : Unasked before.duties.tail := informed.later
  have tidy := informed.tidy
  have ran (waiter : Waiter α (Reaction α)) : Tidy (before.world.run waiter) := tidy.log rfl
  cases step with
  | park parked => exact unasked.informed (tidy.store (Store.aligned_park parked))
  | @ready _ waiter => exact (unasked.fire [waiter]).informed tidy
  | call kind =>
    refine ⟨ran _, unasked, fun head _ => ?_⟩
    cases head
    exact ⟨_, _, _, rfl⟩
  | @arrive waiter latch rest world store kind arrived =>
    have left := (ran waiter).arriveAt latch
    simp only [World.run_store, arrived] at left
    exact unasked.informed left
  | @opens waiter latch rest world store body kind arrived =>
    have left := (ran waiter).arriveAt latch
    simp only [World.run_store, arrived] at left
    refine ⟨left.log rfl, unasked, fun head told => ?_⟩
    cases head
    have called : (world.store.arriveAt latch).1 = some body := by rw [arrived]
    obtain ⟨former, member, same⟩ := Store.body_arriveAt called
    rw [← same, tidy.untold former member] at told
    contradiction
  | derive => exact (unasked.give _ _).informed ((ran _).log rfl)
  | spoil => exact unasked.informed ((ran _).log rfl)
  | pass => exact (unasked.give _ _).informed (ran _)
  | skip => exact unasked.informed (ran _)
  | give settled => exact (unasked.fire _).informed (tidy.store (Store.aligned_settle settled))
  | refuse => exact unasked.informed tidy
  | link _ linked => exact (unasked.hand _ _).informed (tidy.store (Store.aligned_linkTo linked))
  | bar => exact unasked.informed tidy
  | abandon => exact unasked.informed tidy

theorem Fit.routine {mayPanic : Prop} {before after : Instant α} (fit : Fit before)
    (step : Routine mayPanic before after) : Fit after where
  toInformed := fit.toInformed.routine step
  orderly := fit.orderly.move (.routine step.weaken)
  flows := fit.flows.routine fit.orderly step

/-- What holds whenever a client is in charge. -/
structure Ready (duties : List (Duty α (Reaction α))) (world : Scene α) : Prop extends Tidy world where
  unasked : Unasked duties
  orderly : Moment.Orderly ⟨duties, world⟩
  calm : Calm world.store duties

theorem Ready.fit {duties : List (Duty α (Reaction α))} {world : Scene α} (ready : Ready duties world) :
    Fit ⟨duties, world⟩ where
  toInformed := ready.unasked.informed ready.toTidy
  orderly := ready.orderly
  flows := Moment.flows_of_calm ready.calm

/-- Once operations are done, the client is in charge again. -/
theorem Ready.onward {duties : List (Duty α (Reaction α))} {world next : Scene α} (ready : Ready duties world)
    (strides : Steps (Stride anyCell) ⟨duties, world⟩ ⟨duties, next⟩) (tidy : Tidy next) : Ready duties next where
  toTidy := tidy
  unasked := ready.unasked
  orderly := (ready.orderly.strides strides).1
  calm := ready.calm.mono (ready.orderly.strides strides).2

/-! ## Depth -/

def regime : Regime α (Reaction α) (Entry α) Table where
  Step before after := Stride anyCell before after ∧ Fit after
  Fit := Fit
  mayPanic := True
  weight := Reaction.weight
  spare := 0
  fit step _ := step.2
  routine fit step := ⟨.routine step, fit.routine step⟩
  dear
    | ⟨_, ⟨_, _, _⟩⟩ => by simp [Reaction.weight, Callback.weight]

theorem strides_of_steps {before after : Instant α} (steps : Steps regime.Step before after) :
    Steps (Stride anyCell) before after := steps.weaken fun step => step.1

/-! ## Operations of scripts -/

section Operations

variable {depth budget : Nat} {fire : Firing α} {result : Type}
  {rest : List (Duty α (Reaction α))} {world : Scene α}

theorem Tidy.make {world : Scene α} (tidy : Tidy world) (cell : Cell α (Reaction α)) : Tidy (world.make cell) where
  named id member := World.lt_size_make (tidy.named id member) cell
  untold := tidy.untold
  announced := tidy.announced

theorem Tidy.enter {world : Scene α} (tidy : Tidy world) {cell : CellId}
    (bound : cell < world.store.cells.size) : Tidy { world with outer := world.outer ++ [cell] } where
  named id member := by
    rcases List.mem_append.1 member with member | member
    · exact tidy.named id member
    · rw [List.mem_singleton.1 member]
      exact bound
  untold := tidy.untold
  announced := tidy.announced

theorem Tidy.latch {world : Scene α} (tidy : Tidy world) {latch : Latch (Reaction α)}
    (untold : latch.body.told = false) : Tidy (world.latch latch) where
  named := tidy.named
  untold other member := by
    rcases List.mem_append.1 member with member | member
    · exact tidy.untold other member
    · rw [List.mem_singleton.1 member]
      exact untold
  announced := tidy.announced

theorem Tidy.waits {world next : Scene α} {id : CellId} {continuation : Continuation α (Reaction α)}
    (tidy : Tidy world) (waits : world.Waits id continuation next) : Tidy next where
  named other member := waits.size ▸ tidy.named other (waits.outer ▸ member)
  untold latch member := tidy.untold latch (waits.latches ▸ member)
  announced := waits.history ▸ tidy.announced.plain rfl

theorem Tidy.waitsEach {world next : Scene α} {ids : List CellId} {continuation : Continuation α (Reaction α)}
    (tidy : Tidy world) (waits : World.WaitsEach continuation ids world next) : Tidy next := by
  induction waits with
  | nil => exact tidy
  | cons _ waits _ ih => exact ih (tidy.waits waits)

/-- A stride of a client. -/
theorem Ready.step {next : Scene α} {added : List (Duty α (Reaction α))} (ready : Ready rest world)
    (deed : Deed anyCell world added next) (informed : Informed ⟨added ++ rest, next⟩) :
    regime.Step ⟨rest, world⟩ ⟨added ++ rest, next⟩ := by
  have stride : Stride anyCell ⟨rest, world⟩ ⟨added ++ rest, next⟩ := .deed ready.calm deed
  have kept := ready.orderly.strides (.single stride)
  exact ⟨stride, informed, kept.1, .deed ready.calm kept.2 deed⟩

/-- A stride that runs nobody. -/
theorem Ready.deed {next : Scene α} (ready : Ready rest world) (deed : Deed anyCell world [] next) (tidy : Tidy next) :
    regime.Step ⟨rest, world⟩ ⟨rest, next⟩ ∧ Ready rest next :=
  ⟨ready.step deed (ready.unasked.informed tidy), ready.onward (.single (.deed ready.calm deed)) tidy⟩

/-- One step, and then the rest of an action. -/
theorem does_after {action : Run α result} {next : Scene α} (later : Run α result) (lower : Nat)
    (ready : Ready rest world) (deed : Deed anyCell world [] next) (tidy : Tidy next)
    (same : action world = later next)
    (cost : lower + regime.tariff.store next.store ≤ budget + regime.tariff.store world.store)
    (does : Ready rest next → regime.Does depth lower [] later rest next) :
    regime.Does depth budget [] action rest world := by
  obtain ⟨step, between⟩ := ready.deed deed tidy
  refine .after_steps [] lower 0 (.single step) same ?_ (does between)
  simpa using cost

theorem does_pure (value : result) : regime.Does depth budget [] (pure value) rest world :=
  .of_steps rfl .refl (by simp)

/-- What follows an action finds scripts still able to rely on the same. -/
theorem onward {further : Type} {later : Nat} {first : Run α result} {next : result → Run α further}
    (does : regime.Does depth budget [] first rest world) (ready : Ready rest world)
    (onward : ∀ {value between}, Ready rest between → regime.Does depth later [] (next value) rest between) :
    regime.Does depth (budget + later) [] (first >>= next) rest world :=
  does.bind fun _ steps =>
    onward (ready.onward (strides_of_steps steps) (regime.fit_steps steps ready.fit).tidy)

theorem named_apply (world : Scene α) (id : Nat) :
    (named id : Run α CellId) world =
      match world.outer[id]? with
      | some cell => (.ok cell, world)
      | none => (.error (.panic (.outOfBounds world.outer.length id)), world) := by
  unfold named
  change (match world.outer[id]? with
    | some cell => pure cell
    | none => Act.panic (.outOfBounds world.outer.length id) : Run α CellId) world = _
  cases world.outer[id]? <;> rfl

theorem named_of_found {world : Scene α} {id : Nat} {cell : CellId} (found : world.outer[id]? = some cell) :
    named id world = (.ok cell, world) := by
  rw [named_apply, found]

/-- What returns knows the names that it uses. -/
theorem found_of_named {world next : Scene α} {id : Nat} {onward : CellId → Run α result} {value : result}
    (ran : (named id >>= onward) world = (.ok value, next)) :
    ∃ cell, world.outer[id]? = some cell ∧ onward cell world = (.ok value, next) := by
  rw [Act.bind_apply, named_apply] at ran
  cases found : world.outer[id]? with
  | none =>
    rw [found] at ran
    cases ran
  | some cell =>
    rw [found] at ran
    exact ⟨cell, rfl, ran⟩

/-- A name is that of a cell, or stops the script. -/
theorem named_does (id : Nat) {next : CellId → Run α result}
    (onward : ∀ cell ∈ world.outer, regime.Does depth budget [] (next cell) rest world) :
    regime.Does depth budget [] (named id >>= next) rest world := by
  cases found : world.outer[id]? with
  | some cell => exact .read (named_of_found found) (onward cell (List.mem_of_getElem? found))
  | none =>
    have ran := named_apply world id
    rw [found] at ran
    exact .of_panic (Act.bind_error ran) (fun _ => .refl) (by simp)

theorem namedAll_does (ids : List Nat) {next : List CellId → Run α result}
    (onward : ∀ cells, cells.length = ids.length → (∀ cell ∈ cells, cell ∈ world.outer) →
      regime.Does depth budget [] (next cells) rest world) :
    regime.Does depth budget [] (namedAll ids >>= next) rest world := by
  induction ids generalizing next with
  | nil => exact onward [] rfl (by simp)
  | cons id ids ih =>
    have split : namedAll (id :: ids) >>= next =
        named id >>= fun cell => namedAll ids >>= fun cells => next (cell :: cells) := by
      simp [namedAll]
    rw [split]
    refine named_does id fun cell member => ih fun cells length members => ?_
    exact onward _ (by simp [length]) (by simpa using ⟨member, members⟩)

theorem enter_does {cell : CellId} (ready : Ready rest world) (bound : cell < world.store.cells.size) :
    regime.Does depth 0 [] (enter cell : Run α (Reply α)) rest world :=
  does_after (pure (.number world.outer.length)) 0 ready .own (ready.toTidy.enter bound) rfl (by simp)
    fun _ => does_pure _

/-- A new cell, and what is done with it. -/
theorem make_does {cell : Cell α (Reaction α)} (free : cell.link = none) (nobody : cell.waiters = [])
    (ready : Ready rest world) {next : CellId → Run α result}
    (onward : Ready rest (world.make cell) →
      regime.Does depth budget [] (next world.store.cells.size) rest (world.make cell)) :
    regime.Does depth budget [] (onStore (·.make cell) >>= next) rest world :=
  does_after _ _ ready (.make free nobody) (ready.toTidy.make cell) (Act.bind_ok (onStore_apply ..))
    (by simp [World.make, regime.tariff.store_make nobody]) onward

theorem note_does {entry : Entry α} (plain : isPlain (.noted entry)) (ready : Ready rest world)
    {next : Unit → Run α result}
    (onward : Ready rest (world.log (.noted entry)) →
      regime.Does depth budget [] (next ()) rest (world.log (.noted entry))) :
    regime.Does depth budget [] (note entry >>= next) rest world :=
  does_after _ _ ready .note (ready.toTidy.log plain) rfl (by simp) onward

theorem register_does (fires : regime.Fires depth fire) (ready : Ready rest world)
    {cell : CellId} (bound : cell < world.store.cells.size) (body : Reaction α) :
    regime.Does depth body.weight [] (register fire cell (.call body)) rest world := by
  have registered : Tidy (world.enroll cell (.call body)) :=
    ⟨ready.named, ready.untold, ready.announced.plain rfl⟩
  exact Regime.register_does [] fires ready.fit
    (.single (ready.step (.call bound) ((ready.unasked.hand cell [_]).informed registered)))

theorem resolve_does (fires : regime.Fires depth fire) (ready : Ready rest world)
    (cell : CellId) (outcome : Outcome α) :
    regime.Does depth 0 [] (resolve fire cell outcome) rest world :=
  Regime.resolve_does [] fires ready.fit
    (fun settled => .single (ready.step (.settle trivial settled)
      ((ready.unasked.fire _).informed (ready.toTidy.store (Store.aligned_settle settled)))))
    (fun _ => .refl)

theorem forward_does (fires : regime.Fires depth fire) (ready : Ready rest world)
    (source : CellId) {target : CellId} (bound : target < world.store.cells.size) :
    regime.Does depth 0 [] (forward fire source target) rest world :=
  Regime.forward_does [] fires ready.fit
    (fun linked => .single (ready.step (.link bound linked)
      ((ready.unasked.hand target _).informed (ready.toTidy.store (Store.aligned_linkTo linked)))))
    (fun _ => .refl)

theorem whenAll_does (ready : Ready rest world) (cells : List CellId)
    (bound : ∀ cell ∈ cells, cell < world.store.cells.size) {callback : Callback α} {now : Run α Unit}
    (does : ∀ {world}, Ready rest world → regime.Does depth (callback.weight - 1) [] now rest world) :
    regime.Does depth (cells.length + callback.weight) []
      (whenAll fire cells ⟨false, callback⟩ now) rest world := by
  have light : 1 ≤ callback.weight := regime.dear ⟨false, callback⟩
  generalize chosen : cells.filter (fun id => !world.store.isAvailable id) = missing
  cases missing with
  | nil =>
    have all : cells.all world.store.isAvailable := by simpa [List.filter_eq_nil_iff] using chosen
    have passed := whenAll_passes fire ⟨false, callback⟩ now all
    have latched : Tidy (world.latch ⟨0, ⟨false, callback⟩⟩) := ready.toTidy.latch rfl
    have cost := regime.tariff.store_makeLatch world.store ⟨0, ⟨false, callback⟩⟩
    refine does_after now (callback.weight - 1) ready .pass (latched.log rfl) passed ?_ does
    simp only [Measure.latch, if_true] at cost
    change _ + regime.tariff.store (world.store.makeLatch _).2 ≤ _
    omega
  | cons cell others =>
    have shorter : (cell :: others).length ≤ cells.length := chosen ▸ List.length_filter_le ..
    obtain ⟨next, ran, waits⟩ := whenAll_waits fire ⟨false, callback⟩ now ready.orderly.sound bound chosen (by simp)
    have latched : Tidy (world.latch ⟨(cell :: others).length, ⟨false, callback⟩⟩) := ready.toTidy.latch rfl
    have step := (ready.deed (.gather (by simp) waits) (latched.waitsEach waits)).1
    have cost := regime.tariff.store_makeLatch world.store ⟨(cell :: others).length, ⟨false, callback⟩⟩
    have waiting : regime.tariff.store next.store = (cell :: others).length * 1 + _ :=
      waits.measure regime.tariff fun _ _ => rfl
    refine .of_steps ran (.single step) ?_
    rw [Measure.latch, if_neg (by simp)] at cost
    change _ = _ + regime.tariff.store (world.store.makeLatch _).2 at waiting
    change regime.tariff.store (world.store.makeLatch _).2 = callback.weight + _ at cost
    simp only [Measure.duties_nil]
    omega

theorem derived_does (ready : Ready rest world) {cell : CellId} (bound : cell < world.store.cells.size)
    (convert : α → Made α) {next : CellId → Run α result}
    (onward : ∀ {cell world}, Ready rest world → cell < world.store.cells.size →
      regime.Does depth budget [] (next cell) rest world) :
    regime.Does depth (1 + budget) [] (derived fire cell convert >>= next) rest world := by
  cases shown : world.store.state cell with
  | none =>
    obtain ⟨after, called, waits⟩ := derived_of_pending ready.orderly.sound bound shown fire convert
    have cost := waits.measure regime.tariff
    change regime.tariff.store after.store = 1 + regime.tariff.store (world.store.make {}).2 at cost
    rw [regime.tariff.store_make rfl] at cost
    exact does_after (next world.store.cells.size) budget ready (.derive bound waits)
      ((ready.toTidy.make {}).waits waits) (Act.bind_ok called) (by omega)
      fun later => onward later (waits.size ▸ world.new_lt_size_make {})
  | some outcome =>
    cases outcome with
    | error failure =>
      exact does_after (next world.store.cells.size) budget ready (.make rfl rfl) (ready.toTidy.make _)
        (Act.bind_ok (derived_of_failure shown fire convert)) (by simp [World.make, regime.tariff.store_make])
        fun made => onward made (world.new_lt_size_make _)
    | ok value =>
      have called : (derived fire cell convert >>= next) world =
          (Act.lift (convert value) >>= fun outcome => makeSettled outcome >>= next)
            (world.log (.converted value)) := by
        rw [Act.bind_apply, derived_of_value shown fire convert, ← Act.bind_apply, bind_assoc]
      refine does_after _ budget ready .convert (ready.toTidy.log rfl) called (by simp) fun logged => ?_
      cases convert value with
      | error cause => exact .of_panic rfl (fun _ => .refl) (by simp)
      | ok outcome => exact make_does rfl rfl logged fun made => onward made (World.new_lt_size_make _ _)

mutual

theorem perform_does (valueText : α → String) (fires : regime.Fires depth fire) (op : Op α) {world : Scene α}
    (ready : Ready rest world) : regime.Does depth op.weight [] (perform valueText fire op) rest world := by
  have named {cell : CellId} (member : cell ∈ world.outer) : cell < world.store.cells.size :=
    ready.named cell member
  cases op with
  | make kind =>
    cases kind with
    | concrete => exact make_does rfl rfl ready fun made => enter_does made (by simp [World.make])
    | indirect => exact make_does rfl rfl ready fun made => enter_does made (by simp [World.make])
  | makeSettled outcome => exact make_does rfl rfl ready fun made => enter_does made (by simp [World.make])
  | «alias» id => exact named_does id fun cell member => enter_does ready (named member)
  | settle id outcome =>
    exact named_does id fun cell _ =>
      (resolve_does fires ready cell outcome).finish fun _ _ => ⟨_, rfl⟩
  | forward id target =>
    exact named_does id fun source _ => named_does target fun goal member =>
      (forward_does fires ready source (named member)).finish fun _ _ => ⟨_, rfl⟩
  | afterwards id callback =>
    exact named_does id fun cell member =>
      (register_does fires ready (named member) ⟨false, callback⟩).finish fun _ _ => ⟨_, rfl⟩
  | onReady id callback =>
    exact named_does id fun cell member =>
      (register_does fires ready (named member) ⟨true, callback⟩).finish fun _ _ => ⟨_, rfl⟩
  | whenAll ids callback =>
    refine namedAll_does ids fun cells length members => ?_
    rw [Op.weight, ← length]
    exact (whenAll_does ready cells (fun cell member => named (members cell member))
      (fun kept => answer_does valueText fires callback kept)).finish fun _ _ => ⟨_, rfl⟩
  | derive id convert =>
    refine named_does id fun cell member => ?_
    have made : regime.Does depth (1 + 0) [] (derived fire cell convert >>= enter) rest world :=
      derived_does ready (named member) convert fun kept bound => enter_does kept bound
    exact made
  | await id actions =>
    exact named_does id fun cell _ =>
      (performEach_does valueText fires (fun _ => rfl) actions ready).finish fun _ _ => ⟨_, rfl⟩
  | inspect id => exact named_does id fun cell _ => .of_steps rfl .refl (by simp)
  | describe id => exact named_does id fun cell _ => .of_steps rfl .refl (by simp)
  | same id other => exact named_does id fun _ _ => named_does other fun _ _ => does_pure _
  | references id => exact named_does id fun cell _ => .of_steps rfl .refl (by simp)

theorem performEach_does (valueText : α → String) (fires : regime.Fires depth fire)
    {entry : Reply α → Entry α} (plain : ∀ reply, isPlain (.noted (entry reply)))
    (ops : List (Op α)) {world : Scene α} (ready : Ready rest world) :
    regime.Does depth (weights ops) [] (performEach valueText fire entry ops) rest world := by
  cases ops with
  | nil => exact does_pure ()
  | cons op ops =>
    refine onward (perform_does valueText fires op ready) ready fun kept => ?_
    exact note_does (plain _) kept fun noted => performEach_does valueText fires plain ops noted

theorem answer_does (valueText : α → String) (fires : regime.Fires depth fire)
    (callback : Callback α) {world : Scene α} (ready : Ready rest world) :
    regime.Does depth (callback.weight - 1) [] (answer valueText fire callback) rest world := by
  obtain ⟨tag, actions, panic⟩ := callback
  have weight : (Callback.mk tag actions panic).weight - 1 = weights actions + 0 := by
    simp [Callback.weight]
  rw [weight]
  refine note_does rfl ready fun started => ?_
  refine (performEach_does valueText fires (fun _ => rfl) actions started).bind fun _ _ => ?_
  cases panic with
  | none => exact does_pure ()
  | some cause => exact .of_panic rfl (fun _ => .refl) (by simp)

end

end Operations

/-! ## Whole steps -/

theorem react_does (valueText : α → String) {depth : Nat} {fire : Firing α}
    (fires : regime.Fires depth fire) : regime.Answers depth (react valueText fire) := by
  intro reaction seen rest world fit
  have calm : Calm world.store rest := (fit.flows.calm fun _ _ same => by cases same).tail
  have ready : Ready rest world := ⟨fit.tidy, fit.later, fit.orderly.move (.free .begin), calm⟩
  have begun : Steps regime.Step ⟨.answer reaction seen :: rest, world⟩ ⟨rest, world⟩ :=
    .single ⟨.begin, ready.fit⟩
  have answered {world : Scene α} (ready : Ready rest world) :=
    answer_does valueText fires reaction.callback ready
  obtain ⟨told, ⟨tag, actions, panic⟩⟩ := reaction
  cases told with
  | false =>
    refine .after_steps [] _ 0 begun rfl ?_ (answered ready)
    simp [Regime.tariff, tariff, regime, Reaction.weight]
  | true =>
    obtain ⟨serial, home, older, ran⟩ := fit.due rfl rfl
    have announced : Tidy (world.log (.noted (.announced tag seen))) :=
      ⟨fit.tidy.named, fit.tidy.untold, fit.tidy.announced.announce ran tag⟩
    obtain ⟨noted, later⟩ := ready.deed .note announced
    refine .after_steps [] _ 0 (begun.tail noted) rfl ?_ (answered later)
    simp [Regime.tariff, tariff, regime, Reaction.weight]

/-- A step of a script, whatever it runs and whether it panics, is done in strides, and leaves no more
weight behind than there was and than it has itself. -/
theorem step_done (valueText : α → String) (op : Op α) {world : Scene α} (ready : Ready [] world) :
    (step valueText op world).1 ≠ .error .exhausted ∧
      regime.Done op.weight [] [] world (step valueText op world).2 := by
  have fires := Regime.fireWithin_does (react_does valueText)
    (op.weight + world.store.weight Reaction.weight)
  have stored : regime.tariff.store world.store = world.store.weight Reaction.weight :=
    tariff_store Reaction.weight world.store
  exact perform_does valueText fires op ready
    (by rw [Measure.duties_nil, stored, Nat.zero_add]; exact Nat.le_refl _) (.inl trivial)

theorem step_does (valueText : α → String) (op : Op α) {world : Scene α} (ready : Ready [] world) :
    (step valueText op world).1 ≠ .error .exhausted ∧
      Steps regime.Step ⟨[], world⟩ ⟨[], (step valueText op world).2⟩ :=
  (step_done valueText op ready).imp_right fun done => done.steps

theorem weight_step (valueText : α → String) (op : Op α) {world : Scene α} (ready : Ready [] world) :
    (step valueText op world).2.store.weight Reaction.weight ≤ op.weight + world.store.weight Reaction.weight := by
  have cost := (step_done valueText op ready).2.cost
  simpa only [Measure.duties_nil, Nat.zero_add, regime, Regime.tariff, tariff_store] using cost

/-- After a step, the client is in charge again. -/
theorem ready_step (valueText : α → String) (op : Op α) {world : Scene α} (ready : Ready [] world) :
    Ready [] (step valueText op world).2 := by
  have steps := (step_does valueText op ready).2
  exact ready.onward (strides_of_steps steps) (regime.fit_steps steps ready.fit).tidy

end DeferredJit.Async.Script
