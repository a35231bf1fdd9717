import DeferredJit.Proofs.Engine.Stranding

/-! How a stage links the placeholders that it owes when continuations panic. The links are made in
order, and whoever waits for a placeholder runs as it is linked. The first panic ends it: the
placeholders up to there are linked, and nobody sees to the others any more. -/

set_option autoImplicit false

namespace DeferredJit.Engine

open Async (CellId Moment Continuation Routine Steps)

variable {setup : Setup} {rules : Rules} {before after : EngineMoment} {rest : List EngineDuty} {world : EngineWorld}
  {depth : Nat} {sources targets : List CellId}

/-- Nobody outside does anything, and everything may panic. -/
def Rules.inward : Rules where
  panics := True
  touches _ _ := False
  asks _ _ := False
  caches := False
  calls := False

theorem Rules.polite_inward : Rules.inward.Polite := False.elim

/-! ## Where links lead -/

/-- Cells from this one on are linked to such cells only, and are going to be. -/
structure Upward (base : CellId) (moment : EngineMoment) : Prop where
  size : base ≤ moment.world.store.cells.size
  last : ∀ cell, base ≤ cell → base ≤ moment.world.store.last cell
  links : ∀ source target, .link source target ∈ moment.duties → base ≤ source → base ≤ target

namespace Upward

variable {base : CellId} {duties : List EngineDuty} {next : EngineWorld}

/-- No link is made, and none is to be made that was not before. -/
theorem congr (upward : Upward base before) (size : before.world.store.cells.size ≤ after.world.store.cells.size)
    (last : ∀ cell, after.world.store.last cell = before.world.store.last cell)
    (links : ∀ source target, .link source target ∈ after.duties → .link source target ∈ before.duties) :
    Upward base after where
  size := Nat.le_trans upward.size size
  last cell young := (last cell).symm ▸ upward.last cell young
  links source target member := upward.links source target (links source target member)

theorem adds {scope : Scope} {budget : Nat} (upward : Upward base ⟨duties, world⟩) (ready : Ready world)
    (adds : Adds scope world budget next) : Upward base ⟨duties, next⟩ :=
  upward.congr adds.size_le (adds.grows.last ready.sound) fun _ _ member => member

theorem routine {mayPanic : Prop} (upward : Upward base before) (fit : Fit before)
    (step : Routine mayPanic before after) : Upward base after := by
  have sound := fit.orderly.sound
  have grounded := sound.grounded
  have size := (step.keeps sound).size_le
  have fewer : ∀ source target, .link source target ∈ after.duties → .link source target ∈ before.duties := by
    intro source target member
    cases step with
    | _ => exact List.mem_cons_of_mem _ (by simpa using member)
  cases step with
  | @link source target waiters rest world store inside linked =>
    refine ⟨Nat.le_trans upward.size size, fun cell young => ?_, fun other goal member =>
      upward.links other goal (fewer other goal member)⟩
    have led := upward.last cell young
    rw [Async.Store.last_linkTo grounded linked]
    split
    · -- What led to the source leads on to where the target leads.
      rename_i through
      exact upward.last target (upward.links source target List.mem_cons_self (through ▸ led))
    · exact led
  | park parked => exact upward.congr size (Async.Store.last_park grounded parked) fewer
  | give settled => exact upward.congr size (Async.Store.last_settle grounded settled) fewer
  | arrive _ arrived | opens _ arrived =>
    exact upward.congr size (Async.Store.last_of_cells_eq (Async.Store.cells_of_arriveAt arrived)) fewer
  | _ => exact upward.congr size (fun _ => rfl) fewer

theorem step (upward : Upward base before) (fit : Fit before) (untouched : ∀ id, ¬ rules.touches before.world id)
    (step : Step setup rules before after) : Upward base after := by
  cases step with
  | routine step => exact upward.routine fit step
  | @stage stage seen rest world depth produced next ran =>
    have proceeds := fit.proceeds ran
    have grown := upward.adds fit.ready proceeds.adds
    refine ⟨grown.size, grown.last, fun source target member young => ?_⟩
    rcases List.mem_append.1 member with new | old
    · obtain ⟨pair, among, same⟩ := List.mem_map.1 new
      cases same
      have fresh := proceeds.fresh pair.2 (List.of_mem_zip among).2
      exact Nat.le_trans upward.size fresh.young
    · exact upward.links source target (List.mem_cons_of_mem _ old) young
  | falter => exact upward.congr (Nat.le_refl _) (fun _ => rfl) fun _ _ => List.mem_cons_of_mem _
  | settle => exact upward.congr (Nat.le_refl _) (fun _ => rfl) fun _ _ member => by simp at member
  | link allowed => exact absurd allowed (untouched _)
  | @observe id panic world =>
    exact upward.congr (Nat.le_refl _) (Async.Store.last_of_cells_eq (world.enroll_cells _ _)) fun _ _ member => by
      simp at member
  | grow adds => exact upward.adds fit.ready adds
  | @enter key compilation world =>
    exact (upward.adds fit.ready (.single (.pending world))).congr (Nat.le_refl _) (fun _ => rfl) fun _ _ => id
  | @take place job outcome world next found ran =>
    obtain ⟨adds, -⟩ := fit.prepares found ran
    have store := World.store_taken setup world place job
    have taken : Upward base ⟨[], World.taken setup world place job⟩ :=
      upward.congr (Nat.le_of_eq (by rw [store])) (fun _ => by rw [store]) fun _ _ => id
    exact (taken.adds (fit.taken place job).ready adds).congr (Nat.le_refl _) (fun _ => rfl)
      fun _ _ member => by simp at member

end Upward

/-! ## One link after the other -/

/-- Links are made in order and none is refused, up to the first in the course of which something panics. -/
inductive Linking (later : Later) : List (CellId × CellId) → EngineWorld → (linked : Nat) →
    Except Interrupt Unit → EngineWorld → Prop where
  | done {start} : Linking later [] start 0 (.ok ()) start
  | next {source target pairs start between linked reply final} :
      Async.forward later.fire source target start = (.ok (.ok ()), between) →
      Linking later pairs between linked reply final →
      Linking later ((source, target) :: pairs) start (linked + 1) reply final
  | panics {source target pairs start cause final} :
      Async.forward later.fire source target start = (.error (.panic cause), final) →
      Linking later ((source, target) :: pairs) start 1 (.error (.panic cause)) final

namespace Linking

variable {later : Later} {pairs : List (CellId × CellId)} {final : EngineWorld} {linked : Nat}
  {reply : Except Interrupt Unit}

/-- That is what linking all of them comes to. -/
theorem forwardAll_eq (linking : Linking later (sources.zip targets) world linked reply final) :
    forwardAll later sources targets world = (reply, final) := by
  unfold forwardAll
  generalize sources.zip targets = pairs at linking
  induction linking with
  | done => rfl
  | @next source target pairs start between _ _ _ made _ ih =>
    have linked : (discard (Async.forward later.fire source target) : Run PUnit) start = (.ok ⟨⟩, between) :=
      Act.bind_ok made
    exact (Act.bind_ok linked).trans ih
  | @panics source target pairs start cause final made =>
    have stopped : (discard (Async.forward later.fire source target) : Run PUnit) start =
        (.error (.panic cause), final) := Act.bind_error made
    exact Act.bind_error stopped

/-- Without a panic all of them are linked, and otherwise at least one. -/
theorem linked_eq (linking : Linking later pairs world linked reply final) :
    (reply = .ok () ∧ linked = pairs.length) ∨
      ∃ cause, reply = .error (.panic cause) ∧ 0 < linked ∧ linked ≤ pairs.length := by
  induction linking with
  | done => exact .inl ⟨rfl, rfl⟩
  | next _ _ ih =>
    refine ih.imp (fun all => ⟨all.1, congrArg (· + 1) all.2⟩) ?_
    rintro ⟨cause, panicked, -, bound⟩
    exact ⟨cause, panicked, Nat.succ_pos _, Nat.succ_le_succ bound⟩
  | panics => exact .inr ⟨_, rfl, Nat.one_pos, Nat.succ_le_succ (Nat.zero_le _)⟩

end Linking

variable (setup) in
/-- A placeholder that is to be linked is linked, and whoever waits for it has its turn. -/
theorem forward_links {source target : CellId} (steady : Steady ⟨.link source target :: rest, world⟩)
    (apart : world.store.last target ≠ source) (enough : world.store.weight Stage.weight + 1 ≤ depth) :
    ∃ reply next, Async.forward (Later.fire (within setup depth)) source target world = (reply, next) ∧
      (reply = .ok (.ok ()) ∨ ∃ cause, reply = .error (.panic cause)) ∧
      Steps (Step setup .inward) ⟨.link source target :: rest, world⟩ ⟨rest, next⟩ ∧
      next.store.weight Stage.weight ≤ world.store.weight Stage.weight ∧
      next.store.last source = next.store.last target := by
  have grounded := steady.fit.orderly.sound.grounded
  obtain ⟨inside, placed⟩ := steady.fit.links source target List.mem_cons_self
  have blank : world.store.Blank source := steady.blank (Moment.owned_of_link List.mem_cons_self)
  obtain ⟨waiters, store, taken⟩ := blank.links grounded placed apart
  have made : Step setup .inward ⟨.link source target :: rest, world⟩
      ⟨waiters.map (.hand target) ++ rest, { world with store }⟩ := .routine (.link inside taken)
  have fit := steady.fit.step made
  have stored (store : EngineStore) : (regime setup .inward).tariff.store store = store.weight Stage.weight :=
    Async.tariff_store Stage.weight store
  have spent : Async.total (regime setup .inward).tariff.waiter waiters + store.weight Stage.weight =
      world.store.weight Stage.weight := by
    rw [← stored, ← stored]
    exact (regime setup .inward).tariff.store_linkTo taken
  have fires : (regime setup .inward).Fires depth (Later.fire (within setup depth)) := within_fires depth
  -- Those who waited at the placeholder run or wait elsewhere, each within what it weighs.
  have passed : (regime setup .inward).Does depth 0 (waiters.map (.hand target))
      (Act.eachIsolated (Async.hand (Later.fire (within setup depth)) target) waiters) rest { world with store } :=
    Async.Regime.eachIsolated_does (fun _ _ _ => Async.Regime.hand_does fires) waiters fit
  unfold Async.Regime.Does at passed
  simp only [Async.Measure.duties_hand, Nat.add_zero, stored, spent] at passed
  obtain ⟨deep, done⟩ := passed enough (.inl trivial)
  have cost := done.cost
  simp only [Async.Measure.duties_hand, Nat.add_zero, stored, spent] at cost
  have joined : store.last source = store.last target := Async.Store.last_eq_of_linkTo grounded taken
  have led := (fit.steps done.steps).2.last joined
  have ran := Async.forward_apply world (Later.fire (within setup depth)) source target
  rw [taken] at ran
  rcases each : Act.eachIsolated (Async.hand (Later.fire (within setup depth)) target) waiters
    { world with store } with ⟨(cause | _) | value, next⟩
  all_goals rw [each] at deep led cost done
  · exact ⟨_, next, ran.trans (Act.bind_error each), .inr ⟨cause, rfl⟩, .head made done.steps, cost, led⟩
  · exact absurd rfl deep
  · exact ⟨_, next, ran.trans (Act.bind_ok each), .inl rfl, .head made done.steps, cost, led⟩

/-- Placeholders are linked in order, up to the first panic. The links after that one are still due. -/
theorem links_in_order {base : CellId} (length : targets.length = sources.length)
    (steady : Steady ⟨linkAll sources targets ++ rest, world⟩)
    (upward : Upward base ⟨linkAll sources targets ++ rest, world⟩) (old : ∀ source ∈ sources, source < base)
    (young : ∀ target ∈ targets, base ≤ target) (enough : world.store.weight Stage.weight + 1 ≤ depth) :
    ∃ linked reply final, Linking (within setup depth) (sources.zip targets) world linked reply final ∧
      Steps (Step setup .inward) ⟨linkAll sources targets ++ rest, world⟩
        ⟨linkAll (sources.drop linked) (targets.drop linked) ++ rest, final⟩ ∧
      ∀ (index : Nat) source target, index < linked → sources[index]? = some source → targets[index]? = some target →
        final.store.last source = final.store.last target := by
  induction sources generalizing targets world with
  | nil => exact ⟨0, _, world, .done, by simpa using .refl, fun _ _ _ none => absurd none (Nat.not_lt_zero _)⟩
  | cons source sources ih =>
    cases targets with
    | nil => cases length
    | cons target targets =>
      have above := upward.last target (young target List.mem_cons_self)
      have below := old source List.mem_cons_self
      -- Placeholders are older than what they are linked to, so no link closes a cycle.
      have apart : world.store.last target ≠ source := Nat.ne_of_gt (Nat.lt_of_lt_of_le below above)
      obtain ⟨reply, next, ran, replied, steps, cheap, joined⟩ := forward_links setup steady apart enough
      rcases replied with rfl | ⟨cause, rfl⟩
      · have steadyNext := steady.steps Rules.polite_inward steps
        have upwardNext : Upward base ⟨linkAll sources targets ++ rest, next⟩ :=
          steady.fit.carry (Upward base) steps upward fun step fit upward => upward.step fit (fun _ => id) step
        obtain ⟨linked, reply, final, linking, onward, led⟩ := ih (Nat.succ.inj length) steadyNext upwardNext
          (fun other member => old other (List.mem_cons_of_mem _ member))
          (fun other member => young other (List.mem_cons_of_mem _ member)) (by omega)
        refine ⟨linked + 1, reply, final, .next ran linking, steps.trans onward, fun index first second bound here there => ?_⟩
        cases index with
        | zero =>
          cases here
          cases there
          exact (steadyNext.fit.steps onward).2.last joined
        | succ index => exact led index first second (Nat.lt_of_succ_lt_succ bound) here there
      · refine ⟨1, _, next, .panics ran, steps, fun index first second bound here there => ?_⟩
        cases Nat.lt_one_iff.1 bound
        cases here
        cases there
        exact joined

variable (setup) in
/-- Where something panics, links that are due may be given up. -/
theorem links_dropped (allowed : rules.panics) :
    Steps (Step setup rules) ⟨linkAll sources targets ++ rest, world⟩ ⟨rest, world⟩ := by
  unfold linkAll
  induction sources.zip targets with
  | nil => exact .refl
  | cons pair pairs ih => exact .head (.routine (.abandon allowed)) ih

/-! ## The turn of a stage -/

/-- What comes of the turn of a stage: what it produces, and how many of its results are linked to that. -/
inductive Outturn (setup : Setup) (depth : Nat) (stage : Stage) (seen : Option (Outcome Payload))
    (start : EngineWorld) : (produced : List CellId) → (linked : Nat) → Except Interrupt Unit → EngineWorld → Prop where
  /-- It panics before it produces anything. -/
  | balks {cause} : proceed setup (within setup depth) stage seen start = (.error (.panic cause), start) →
      Outturn setup depth stage seen start [] 0 (.error (.panic cause)) start
  | links {produced between linked reply final} :
      proceed setup (within setup depth) stage seen start = (.ok produced, between) →
      produced.length = stage.results.length →
      Linking (within setup depth) (stage.results.zip produced) between linked reply final →
      Outturn setup depth stage seen start produced linked reply final

/-- Without a panic all results are linked. -/
theorem Outturn.linked_of_ok {stage : Stage} {seen : Option (Outcome Payload)} {produced : List CellId} {linked : Nat}
    {final : EngineWorld} (outturn : Outturn setup depth stage seen world produced linked (.ok ()) final) :
    linked = stage.results.length := by
  cases outturn with
  | links _ length linking =>
    rcases linking.linked_eq with ⟨-, all⟩ | ⟨cause, panicked, -⟩
    · rw [all, List.length_zip, length, Nat.min_self]
    · cases panicked

variable (setup) in
/-- A stage that has its turn links its results in order up to the first panic. Those that are linked show
what the ones that were produced show, and the others are stranded. -/
theorem stage_links {stage : Stage} {seen : Option (Outcome Payload)}
    (steady : Steady ⟨.answer stage seen :: rest, world⟩)
    (enough : stage.weight + world.store.weight Stage.weight ≤ depth) :
    ∃ produced linked reply final, react setup (within setup depth) stage seen world = (reply, final) ∧
      Outturn setup depth stage seen world produced linked reply final ∧ Steady ⟨rest, final⟩ ∧
      (∀ (index : Nat) result, index < linked → stage.results[index]? = some result →
        ∃ cell, produced[index]? = some cell ∧ final.store.last result = final.store.last cell) ∧
      ∀ (index : Nat) result, linked ≤ index → stage.results[index]? = some result → Stranded ⟨rest, final⟩ result := by
  have weighs : 0 < stage.weight := by cases stage <;> simp [Stage.weight]
  obtain ⟨depth, rfl⟩ : ∃ lower, depth = lower + 1 := ⟨depth - 1, by omega⟩
  have fits : stage.Fits world.store := steady.fit.carried.asked _ _ List.mem_cons_self
  have ends := proceed_ends setup depth steady.fit.ready fits seen
  have same := congrFun (react_eq setup (within setup (depth + 1)) stage seen) world
  rcases ran : proceed setup (within setup (depth + 1)) stage seen world with ⟨(cause | _) | produced, between⟩
  · obtain rfl := ends.fails ran
    have dropped : Step setup .inward ⟨.answer stage seen :: rest, between⟩ ⟨rest, between⟩ := .falter trivial
    refine ⟨[], 0, _, between, same.trans (Act.bind_error ran), .balks ran,
      steady.step Rules.polite_inward dropped, fun _ _ none => absurd none (Nat.not_lt_zero _), fun _ result _ here => ?_⟩
    have counted : 0 < stage.results.count result := List.count_pos_iff.2 (List.mem_of_getElem? here)
    have asked : Steady ⟨[.answer stage seen] ++ rest, between⟩ := steady
    exact asked.strands counted
  · exact absurd (by rw [ran]) ends.not_exhausted
  · have proceeds := ends.holds ran
    have taken : Step setup .inward ⟨.answer stage seen :: rest, world⟩
        ⟨linkAll stage.results produced ++ rest, between⟩ := .stage ran
    have steadyBetween := steady.step Rules.polite_inward taken
    have old {cell : CellId} (placed : placeable world.store cell) : cell < world.store.cells.size := by
      obtain ⟨found, here, -⟩ := placed
      exact Async.Store.lt_size_of_cell? here
    -- Only old cells are linked so far, and only old cells were to be linked.
    have upward : Upward world.store.cells.size ⟨.answer stage seen :: rest, world⟩ := by
      refine ⟨Nat.le_refl _, fun cell young => ?_, fun source target member young => ?_⟩
      · exact Nat.le_trans young (Nat.le_of_eq (Async.Store.last_of_size_le young).symm)
      · exact absurd (old (steady.fit.links source target member).2) (Nat.not_lt.2 young)
    have upwardBetween := upward.step steady.fit (fun _ => id) taken
    have lighter : between.store.weight Stage.weight ≤ stage.weight - 1 + world.store.weight Stage.weight :=
      proceeds.adds.weight_le
    have room : between.store.weight Stage.weight + 1 ≤ depth + 1 := by omega
    obtain ⟨linked, reply, final, linking, steps, led⟩ := links_in_order proceeds.length steadyBetween upwardBetween
      (fun source member => old (fits.results source member)) (fun target member => (proceeds.fresh target member).young) room
    have steadyFinal := steadyBetween.steps Rules.polite_inward steps
    refine ⟨produced, linked, reply, final, ?_, .links ran proceeds.length linking,
      steadyFinal.steps Rules.polite_inward (links_dropped setup trivial), fun index result bound here => ?_,
      fun index result bound here => ?_⟩
    · exact same.trans ((Act.bind_ok ran).trans linking.forwardAll_eq)
    · obtain ⟨inside, -⟩ := List.getElem?_eq_some_iff.1 here
      have there := List.getElem?_eq_getElem (proceeds.length.symm ▸ inside : index < produced.length)
      exact ⟨_, there, led index result _ bound here there⟩
    · refine steadyFinal.strands ?_
      rw [owners_linkAll (by rw [List.length_drop, List.length_drop, proceeds.length])]
      refine List.count_pos_iff.2 (List.mem_iff_getElem?.2 ⟨index - linked, ?_⟩)
      rw [List.getElem?_drop, Nat.add_sub_cancel' bound]
      exact here

/-! ## Calls that wait -/

/-- On the way from the one moment to the other, a stage of the call has its turn that owes these results. -/
def TurnTaken (setup : Setup) (rules : Rules) (call : Call) (cells : List CellId) (before after : EngineMoment) : Prop :=
  ∃ stage seen rest world, stage.call? = some call ∧ stage.results = cells ∧
    Steps (Step setup rules) before ⟨.answer stage seen :: rest, world⟩ ∧
    Steps (Step setup rules) ⟨.answer stage seen :: rest, world⟩ after

/-- A call that waits goes on waiting, whatever panics, until a stage of it has its turn. -/
theorem Pending.until_turn {call : Call} {cells : List CellId} (pending : Pending before call cells)
    (steady : Steady before) (polite : rules.Polite) (steps : Steps (Step setup rules) before after) :
    Pending after call cells ∨ TurnTaken setup rules call cells before after := by
  induction steps with
  | refl => exact .inl pending
  | @tail between after earlier step ih =>
    rcases ih with waits | ⟨stage, seen, rest, world, called, placed, first, onward⟩
    · rcases waits.next (steady.steps polite earlier) step with same | ⟨stage, seen, called, placed, head, -⟩
      · exact .inl same
      · obtain ⟨duties, world⟩ := between
        obtain ⟨rest, rfl⟩ := List.head?_eq_some_iff.1 head
        exact .inr ⟨stage, seen, rest, world, called, placed, earlier, .single step⟩
    · exact .inr ⟨stage, seen, rest, world, called, placed, first, .tail onward step⟩

/-- What there is after a call that returns. -/
theorem call_reaches {dispatcher : Dispatcher} {handle : CellId} {operands : List CellId} {count : Nat}
    {cells : List CellId} {next : EngineWorld} (steady : Steady ⟨[], world⟩) (polite : rules.Polite)
    (granted : rules.calls) (allowed : (Operation.call dispatcher handle operands count).Allowed rules world)
    (called : Engine.call setup dispatcher handle operands count world = (.ok cells, next)) :
    cells.length = count ∧ Steady ⟨[], next⟩ ∧
      Reaches ⟨[], next⟩ ⟨world.outer.calls, dispatcher, handle, operands, count⟩ cells := by
  obtain ⟨inside, operandsInside, sane⟩ := allowed
  let depth := world.store.weight Stage.weight + (operands.length + (count + 3))
  have fits : Call.Fits world.store.cells.size ⟨world.outer.calls, dispatcher, handle, operands, count⟩ :=
    ⟨inside, operandsInside, sane⟩
  have same : start setup (within setup (depth + 1)) dispatcher handle operands count world = (.ok cells, next) := called
  have comes := (start_ends setup depth steady.fit.ready fits).holds same
  have grown : Step setup rules ⟨[], world⟩ ⟨[], next⟩ :=
    .grow comes.adds (.inl granted) ((comes.holds []).1.2.begun rfl)
  have steadyNext := steady.step polite grown
  exact ⟨comes.length, steadyNext, (comes.holds []).1.1 steadyNext.latched⟩

/-- From now on the first so many placeholders show what the cells of their positions show. The others show
nothing, as long as nobody outside touches them. -/
def SharesUpTo (setup : Setup) (linked : Nat) (placeholders produced : List CellId) (moment : EngineMoment) : Prop :=
  ∀ later, Steps (Step setup (.sparing placeholders)) moment later →
    ∀ (index : Nat) placeholder, placeholders[index]? = some placeholder →
      (index < linked → ∃ cell, produced[index]? = some cell ∧
        later.world.store.state placeholder = later.world.store.state cell) ∧
      (linked ≤ index → later.world.store.state placeholder = none)

/-- Whatever panics, the placeholders of a call that waits show nothing until a stage of the call has its turn.
A stage that has its turn panics in its marshaler, or produces as many results as it owes and links its
placeholders to them in order. No link is refused, and only a panic of a continuation that waits for a
placeholder ends it early, when that placeholder has been linked. The placeholders that are linked share what
becomes of the results; the others are pending for good. -/
theorem siblings_link_until_panic (setup : Setup) (operations : List Operation) (world : EngineWorld)
    (run : Runs setup (.sparing []) initial operations world) (dispatcher : Dispatcher) (handle : CellId)
    (operands : List CellId) (count : Nat)
    (allowed : (Operation.call dispatcher handle operands count).Allowed (.sparing []) world)
    (cells : List CellId) (next : EngineWorld)
    (called : Engine.call setup dispatcher handle operands count world = (.ok cells, next)) :
    let call : Call := ⟨world.outer.calls, dispatcher, handle, operands, count⟩
    cells.length = count ∧
    (Pipeline.kernel call next.outer.handles next.store.state = Pipeline.unknown →
      ∀ moment, Steps (Step setup (.sparing [])) ⟨[], next⟩ moment →
        (∀ cell ∈ cells, moment.world.store.state cell = none) ∨
        TurnTaken setup (.sparing []) call cells ⟨[], next⟩ moment) ∧
    ∀ stage seen rest between, Steps (Step setup (.sparing [])) ⟨[], next⟩ ⟨.answer stage seen :: rest, between⟩ →
      stage.call? = some call →
      stage.results.length = count ∧ ∀ depth, stage.weight + between.store.weight Stage.weight ≤ depth →
        ∃ produced linked reply final, react setup (within setup depth) stage seen between = (reply, final) ∧
          Outturn setup depth stage seen between produced linked reply final ∧ (reply = .ok () → linked = count) ∧
          SharesUpTo setup linked stage.results produced ⟨rest, final⟩ := by
  intro call
  have polite : (Rules.sparing []).Polite := Rules.polite_sparing []
  have steady : Steady ⟨[], world⟩ :=
    steady_initial.steps polite (run.steps trivial (fun _ _ => trivial) fit_initial)
  obtain ⟨length, steadyNext, reaches⟩ := call_reaches steady polite trivial allowed called
  refine ⟨length, fun unknown moment steps => ?_, fun stage seen rest between steps ofCall => ?_⟩
  · -- Nothing is known of the kernel yet, so the call waits for a turn.
    have pending : Pending ⟨[], next⟩ call cells := by
      cases reaches with
      | pending pending => exact pending
      | failed came | ran came =>
        rw [unknown] at came
        cases came
    refine (pending.until_turn steadyNext polite steps).imp_left fun waits cell member => ?_
    exact ((steadyNext.steps polite steps).blank (waits.owned cell member)).state_eq_none
  · have steadyBetween := steadyNext.steps polite steps
    have fits : stage.Fits between.store := steadyBetween.fit.carried.asked _ _ List.mem_cons_self
    refine ⟨(fits.call ofCall).2, fun depth enough => ?_⟩
    obtain ⟨produced, linked, reply, final, ran, outturn, steadyFinal, led, stranded⟩ :=
      stage_links setup steadyBetween enough
    refine ⟨produced, linked, reply, final, ran, outturn, ?_, fun later onward index result here =>
      ⟨fun bound => ?_, fun bound => ?_⟩⟩
    · rintro rfl
      exact outturn.linked_of_ok.trans (fits.call ofCall).2
    · obtain ⟨cell, there, joined⟩ := led index result bound here
      have same := (steadyFinal.fit.steps onward).2.last joined
      refine ⟨cell, there, ?_⟩
      unfold Async.Store.state
      rw [same]
    · refine (stranded index result bound here).hidden steadyFinal.fit (fun _ touched => ?_) onward
      exact touched.2 (List.mem_of_getElem? here)

/-- A call of a handle that is pending, with two placeholders. -/
def pairPlaced : EngineWorld := (Engine.call failing {} 0 [] 2 (initial.make {})).2

/-- A continuation that panics waits for the first of them. -/
def pairWatched : EngineWorld := (Engine.observe failing 1 (some .overflow) pairPlaced).2

/-- The handle fails, and the panic comes between the two links. -/
def pairTorn : EngineWorld := (Engine.resolve failing 0 (.error unresolved) pairWatched).2

/-- The first placeholder shows the failure, and the second shows nothing. -/
theorem siblings_link_until_panic_torn :
    Runs failing (.sparing []) initial [.make .concrete none] (initial.make {}) ∧
      (Operation.call {} 0 [] 2).Allowed (.sparing []) (initial.make {}) ∧
      Engine.call failing {} 0 [] 2 (initial.make {}) = (.ok [1, 2], pairPlaced) ∧ [1, 2].length = 2 ∧
      Engine.observe failing 1 (some .overflow) pairPlaced = (.ok (), pairWatched) ∧
      Engine.resolve failing 0 (.error unresolved) pairWatched = (.error (.panic .overflow), pairTorn) ∧
      pairTorn.store.state 1 = some (.error unresolved) ∧ pairTorn.store.state 2 = none := by
  have run : Runs failing (.sparing []) initial [.make .concrete none] (initial.make {}) :=
    .cons (fun _ given => by cases given) rfl (.inr rfl) .nil
  have allowed : (Operation.call {} 0 [] 2).Allowed (.sparing []) (initial.make {}) := by
    refine ⟨Nat.zero_lt_one, fun _ member => ?_, fun conversion member => ?_⟩
    · cases member
    · exact (Conversion.Sane.defaults conversion member).later (Nat.zero_le _)
  have called : Engine.call failing {} 0 [] 2 (initial.make {}) = (.ok [1, 2], pairPlaced) := rfl
  have links := siblings_link_until_panic failing _ _ run {} 0 [] 2 allowed [1, 2] pairPlaced called
  exact ⟨run, allowed, called, links.1, rfl, rfl, rfl, rfl⟩

end DeferredJit.Engine
