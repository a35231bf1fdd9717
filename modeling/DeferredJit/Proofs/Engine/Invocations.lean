import DeferredJit.Proofs.Engine.Refinement

/-! Kernels of calls run once, or not at all. A call has at most one stage ahead, and its kernel is run
when the stage has its turn. -/

set_option autoImplicit false

namespace DeferredJit.Engine

open Async (CellId Moment Routine Steps)

variable {setup : Setup} {rules : Rules} {before after : EngineMoment} {call : Call} {cells : List CellId}

/-! ## Accounts -/

/-- One for a call that has been made. -/
def World.made (world : EngineWorld) (number : Nat) : Nat := if number < world.outer.calls then 1 else 0

theorem World.made_le_one (world : EngineWorld) (number : Nat) : World.made world number ≤ 1 := by
  unfold made
  split <;> omega

/-- Kernels are run for stages that were ahead or that come with a new call. -/
structure Accounts (before after : EngineMoment) : Prop where
  calls : before.world.outer.calls ≤ after.world.outer.calls
  turns : ∀ number, ∃ more, World.executions after.world number = more ++ World.executions before.world number ∧
    more.length + (stages number).moment after + World.made before.world number ≤
      (stages number).moment before + World.made after.world number

namespace Accounts

theorem of_silent (silent : Silent before.world after.world)
    (duties : ∀ number, (stages number).duties after.duties ≤ (stages number).duties before.duties) :
    Accounts before after where
  calls := Nat.le_of_eq silent.calls.symm
  turns number := by
    refine ⟨[], silent.executions number, ?_⟩
    have fewer := duties number
    have ahead := silent.ahead number
    simp only [Async.Measure.moment, World.made, silent.calls, List.length_nil]
    omega

theorem of_turned {number waiting : Nat} {more : List (String × List Memref)}
    (turned : Turned number before.world more waiting after.world)
    (spent : more.length + waiting + (stages number).duties after.duties ≤ (stages number).duties before.duties)
    (duties : ∀ other, (stages other).duties after.duties ≤ (stages other).duties before.duties) :
    Accounts before after where
  calls := Nat.le_of_eq turned.calls.symm
  turns other := by
    simp only [Async.Measure.moment, World.made, turned.calls]
    by_cases same : other = number
    · subst same
      refine ⟨more, turned.executions, ?_⟩
      have ahead := turned.ahead
      omega
    · obtain ⟨executions, ahead⟩ := turned.others same
      refine ⟨[], executions, ?_⟩
      have fewer := duties other
      simp only [List.length_nil]
      omega

theorem of_begun {world next : EngineWorld} (begun : Begun world next) : Accounts ⟨[], world⟩ ⟨[], next⟩ := by
  cases begun with
  | silent silent => exact .of_silent silent fun _ => Nat.le_refl _
  | @call more waiting turned once =>
    have calls : next.outer.calls = world.outer.calls + 1 := turned.calls
    refine ⟨calls ▸ Nat.le_succ _, fun number => ?_⟩
    simp only [Async.Measure.moment, Async.Measure.duties_nil, World.made, calls]
    by_cases same : number = world.outer.calls
    · subst same
      refine ⟨more, turned.executions, ?_⟩
      have ahead : (stages world.outer.calls).store next.store =
        waiting + (stages world.outer.calls).store world.store := turned.ahead
      simp only [Nat.lt_irrefl, if_false, Nat.lt_succ_self, if_true]
      omega
    · obtain ⟨executions, ahead⟩ := turned.others same
      have ahead : (stages number).store next.store = (stages number).store world.store := ahead
      refine ⟨[], executions, ?_⟩
      have old : number < world.outer.calls + 1 ↔ number < world.outer.calls := by omega
      simp only [old, ahead, List.length_nil]
      omega

theorem routine {mayPanic : Prop} (step : Routine mayPanic before after) : Accounts before after where
  calls := Nat.le_of_eq (congrArg State.calls (Fit.outer_routine step)).symm
  turns number := by
    refine ⟨[], World.executions_congr (notices_routine step) number, ?_⟩
    have fewer := (stages number).routine (fun _ _ => Nat.le_refl _) (fun _ => Nat.zero_le _) step
    simp only [World.made, Fit.outer_routine step, List.length_nil]
    omega

end Accounts

theorem Spends.calls {given : Prop} {world next : EngineWorld} (spends : Spends given world call next) :
    next.outer.calls = world.outer.calls := by
  cases spends with
  | waits turned | runs turned => exact turned.calls
  | fails silent => exact silent.calls

/-- What a stage that has its turn does for its call. -/
theorem Spends.accounts {given : Prop} {stage : Stage} {seen : Option (Outcome Payload)} {rest : List EngineDuty}
    {world next : EngineWorld} {produced : List CellId} (spends : Spends given world call next)
    (called : stage.call? = some call) :
    Accounts ⟨.answer stage seen :: rest, world⟩ ⟨linkAll stage.results produced ++ rest, next⟩ := by
  have links (number : Nat) : (stages number).duties (linkAll stage.results produced) = 0 :=
    duties_linkAll _ _ fun _ _ => rfl
  have turn := Stage.turns_of_call called
  have fewer (number : Nat) : (stages number).duties (linkAll stage.results produced ++ rest) ≤
      (stages number).duties (.answer stage seen :: rest) := by
    rw [Async.Measure.duties_append, links, Async.Measure.duties_cons]
    omega
  have spent : 1 + (stages call.number).duties (linkAll stage.results produced ++ rest) ≤
      (stages call.number).duties (.answer stage seen :: rest) := by
    rw [Async.Measure.duties_append, links, Async.Measure.duties_cons]
    change _ ≤ stage.turns call.number + _
    omega
  cases spends with
  | waits turned => exact .of_turned turned spent fewer
  | fails silent => exact .of_silent silent fewer
  | runs turned => exact .of_turned turned spent fewer

theorem Silent.noted (setup : Setup) (world : EngineWorld) (job : Job) :
    Silent world (World.noted world (job.notice? setup)) := by
  cases job with
  | compile _ _ compilation =>
    cases compilation with
    | request | given => exact .log world fun _ => rfl
  | specialize => exact .log world fun _ => rfl
  | settle => exact .refl world

theorem Step.accounts (fit : Fit before) (step : Step setup rules before after) : Accounts before after := by
  cases step with
  | routine step => exact .routine step
  | @stage stage seen rest world depth produced next ran =>
    have proceeds := fit.proceeds ran
    cases called : stage.call? with
    | some call => exact (proceeds.spends called).accounts called
    | none =>
      refine .of_silent (proceeds.silent called) fun number => ?_
      rw [Async.Measure.duties_append, duties_linkAll _ _ fun _ _ => rfl]
      exact Nat.add_le_add_right (Nat.zero_le _) _
  | @falter stage seen rest world =>
    exact .of_silent (.refl world) fun _ => Nat.le_add_left _ _
  | @settle _ _ world | @link _ _ world => exact .of_silent (.refl world) fun _ => Nat.le_refl _
  | @observe id panic world =>
    have observed : Silent world (World.observe world id panic) := ⟨rfl, fun _ => rfl, fun _ => rfl⟩
    exact .of_silent observed fun _ => Nat.le_refl _
  | grow _ _ begun => exact .of_begun begun
  | @enter key compilation world =>
    have made : Silent world (world.make {}) := .make world rfl
    exact .of_silent (made.congr rfl rfl rfl) fun _ => Nat.le_refl _
  | @take place job outcome world next found ran =>
    obtain ⟨adds, -⟩ := fit.prepares found ran
    have withdrawn : Silent world (World.withdraw world place) := ⟨rfl, fun _ => rfl, fun _ => rfl⟩
    have prepared : Silent world next := (withdrawn.trans (.noted setup _ job)).trans adds.silent
    exact .of_silent prepared fun _ => Nat.le_refl _

/-- A kernel has been run for a call, or one stage of it is ahead, or neither. -/
def Solo (moment : EngineMoment) : Prop :=
  ∀ number, (World.executions moment.world number).length + (stages number).moment moment ≤
    World.made moment.world number

theorem Solo.counts {world : EngineWorld} {duties : List EngineDuty} (solo : Solo ⟨duties, world⟩) (number : Nat) :
    (World.executions world number).length + ((stages number).duties duties + (stages number).store world.store) ≤
      World.made world number := solo number

theorem solo_initial : Solo ⟨[], initial⟩ := fun _ => Nat.zero_le _

theorem Solo.step (solo : Solo before) (accounts : Accounts before after) : Solo after := by
  intro number
  obtain ⟨more, executions, turns⟩ := accounts.turns number
  have once := solo number
  rw [executions, List.length_append]
  omega

theorem Solo.steps (solo : Solo before) (fit : Fit before) (steps : Steps (Step setup rules) before after) :
    Solo after :=
  fit.carry Solo steps solo fun step fit solo => solo.step (step.accounts fit)

/-! ## What comes of a call -/

/-- A call that waits has a stage ahead. -/
theorem Pending.ahead (pending : Pending before call cells) : 1 ≤ (stages call.number).moment before := by
  cases pending with
  | @gathers latch missing found =>
    have turn : (stages call.number).body (.operands call cells) = 1 := Stage.turns_of_call rfl
    exact turn ▸ (stages call.number).body_le_moment (List.mem_of_getElem? found) (Nat.succ_ne_zero _)
  | @waits stage waiter called _ member kind =>
    have turn : (stages call.number).waiter waiter = 1 :=
      ((stages call.number).call kind).trans (Stage.turns_of_call called)
    exact turn ▸ (stages call.number).waiter_le_moment member
  | @turn stage seen called _ head =>
    have turn : (stages call.number).duty (.answer stage seen) = 1 := Stage.turns_of_call called
    exact turn ▸ (stages call.number).duty_le_moment (List.mem_of_mem_head? head)

/-- The call waits, or it is through, and its kernel has been run once if it has come to one. -/
inductive Fate (moment : EngineMoment) (call : Call) : Prop where
  | pending {placed} : Pending moment call placed → Fate moment call
  | barred : Barred moment.world call → World.executions moment.world call.number = [] →
      (stages call.number).moment moment = 0 → Fate moment call
  | ran {kernel views} : Cleared moment.world call kernel views →
      World.executions moment.world call.number = [(kernel.name, views)] → Fate moment call

/-- A call whose stage has had its turn waits again, or is through. -/
theorem Spends.fate {world next : EngineWorld} {produced : List CellId} {duties : List EngineDuty}
    (spends : Spends True world call next) (reached : Reaches ⟨duties, next⟩ call produced)
    (none : World.executions world call.number = [])
    (alone : (stages call.number).duties duties + (stages call.number).store world.store = 0) :
    Fate ⟨duties, next⟩ call := by
  cases spends with
  | waits _ unknown =>
    cases reached with
    | pending pending => exact .pending pending
    | failed came => cases came.symm.trans (unknown trivial)
    | ran came => cases came.symm.trans (unknown trivial)
  | fails silent barred =>
    refine .barred (barred trivial) ((silent.executions _).trans none) ?_
    exact (congrArg (_ + ·) (silent.ahead _)).trans alone
  | runs turned cleared =>
    exact .ran (cleared trivial) (turned.executions.trans (by rw [none]; rfl))

theorem Proceeded.fate {produced : List CellId} (proceeded : Proceeded setup call cells produced before after)
    (steady : Steady before) (solo : Solo before) : Fate after call := by
  cases proceeded with
  | @of_stage stage seen rest world depth next called placed told ran =>
    have fits : stage.Fits world.store := steady.fit.carried.asked _ _ List.mem_cons_self
    have proceeds := (proceed_ends setup depth steady.fit.ready fits seen).holds ran
    have links : (stages call.number).duties (linkAll stage.results produced) = 0 :=
      duties_linkAll _ _ fun _ _ => rfl
    have due : (stages call.number).duty (.answer stage seen) = 1 := Stage.turns_of_call called
    have made := World.made_le_one world call.number
    have once := solo.counts call.number
    rw [Async.Measure.duties_cons] at once
    have none : World.executions world call.number = [] := List.length_eq_zero_iff.1 (by omega)
    have alone : (stages call.number).duties rest + (stages call.number).store world.store = 0 := by omega
    refine ((proceeds.spends called).imp fun _ => told).fate (proceeds.phase called told _) none ?_
    rw [Async.Measure.duties_append, links, Nat.zero_add]
    exact alone

theorem Fate.step (fate : Fate before call) (steady : Steady before) (solo : Solo before)
    (old : call.number < before.world.outer.calls) (calm : ¬ rules.panics)
    (step : Step setup rules before after) : Fate after call := by
  have onward := step.onward steady.fit
  have accounts := step.accounts steady.fit
  obtain ⟨more, executions, turns⟩ := accounts.turns call.number
  have made : World.made before.world call.number = 1 := if_pos old
  have still : World.made after.world call.number = 1 := if_pos (Nat.lt_of_lt_of_le old accounts.calls)
  have none (spent : more.length = 0) :
      World.executions after.world call.number = World.executions before.world call.number := by
    rw [executions, List.length_eq_zero_iff.1 spent, List.nil_append]
  cases fate with
  | pending pending =>
    rcases pending.step steady calm step with same | ⟨produced, proceeded⟩
    · exact .pending same
    · exact proceeded.fate steady solo
  | barred barred empty alone =>
    exact .barred (onward.barred steady.fit.tidy barred) ((none (by omega)).trans empty) (by omega)
  | ran cleared once =>
    have alone := solo call.number
    rw [once, made, List.length_singleton] at alone
    exact .ran (onward.cleared steady.fit.tidy cleared) ((none (by omega)).trans once)

/-- The kernel of a call has not been run, or it has been run once, and the pipeline has come to it. -/
theorem Fate.executions (fate : Fate before call) (solo : Solo before) :
    World.executions before.world call.number = [] ∨ ∃ kernel views, Cleared before.world call kernel views ∧
      World.executions before.world call.number = [(kernel.name, views)] := by
  cases fate with
  | pending pending =>
    have ahead := pending.ahead
    have once := solo call.number
    have made := World.made_le_one before.world call.number
    exact .inl (List.length_eq_zero_iff.1 (by omega))
  | barred _ empty => exact .inl empty
  | ran cleared once => exact .inr ⟨_, _, cleared, once⟩

/-! ## What a kernel is run on -/

/-- The views of operands are theirs one by one, in their order. -/
theorem viewsFrom_eq_ok_iff {marshaler : Marshaler} {index : Nat} {operands : List (Option (Outcome KernelValue))}
    {views : List Memref} : marshaler.viewsFrom index operands = .ok (.ok views) ↔
      operands.length = views.length ∧ ∀ (place : Nat) seen view, operands[place]? = some seen →
        views[place]? = some view →
          ∃ value, seen = some (.ok value) ∧ marshaler (index + place) value = .ok (.ok view) := by
  induction operands generalizing index views with
  | nil =>
    constructor
    · intro viewed
      cases viewed
      exact ⟨rfl, fun place seen view here => by cases here⟩
    · rintro ⟨length, -⟩
      rw [List.length_eq_zero_iff.1 length.symm]
      rfl
  | cons seen rest ih =>
    -- The first operand is passed before the others are looked at.
    have split : marshaler.viewsFrom index (seen :: rest) = .ok (.ok views) ↔
        ∃ value view others, seen = some (.ok value) ∧ marshaler index value = .ok (.ok view) ∧
          marshaler.viewsFrom (index + 1) rest = .ok (.ok others) ∧ views = view :: others := by
      rw [Marshaler.viewsFrom.eq_def]
      rcases seen with _ | failure | value
      · simp
      · simp
      · rcases made : marshaler index value with cause | failure | view
        · simp [made, bind, Except.bind]
        · simp [made, bind, Except.bind, pure, Except.pure]
        · rcases viewed : marshaler.viewsFrom (index + 1) rest with cause | failure | others
          · simp [made, viewed, bind, Except.bind]
          · simp [made, viewed, bind, Except.bind, pure, Except.pure]
          · simp [made, viewed, bind, Except.bind, pure, Except.pure, eq_comm]
    rw [split]
    constructor
    · rintro ⟨value, view, others, rfl, made, viewed, rfl⟩
      obtain ⟨length, each⟩ := ih.1 viewed
      refine ⟨congrArg (· + 1) length, fun place other shown here there => ?_⟩
      cases place with
      | zero =>
        cases here
        cases there
        exact ⟨value, rfl, made⟩
      | succ place =>
        obtain ⟨result, same, came⟩ := each place other shown here there
        exact ⟨result, same, by rw [← came]; congr 1; omega⟩
    · rintro ⟨length, each⟩
      cases views with
      | nil => cases length
      | cons view others =>
        obtain ⟨value, rfl, made⟩ := each 0 seen view rfl rfl
        refine ⟨value, view, others, rfl, made, ih.2 ⟨Nat.succ.inj length, fun place other shown here there => ?_⟩, rfl⟩
        obtain ⟨result, same, came⟩ := each (place + 1) other shown here there
        exact ⟨result, same, by rw [← came]; congr 1; omega⟩

theorem held_eq_ok_iff {α : Type} {select : Payload → Option α} {seen : Option (Outcome Payload)} {value : α} :
    Pipeline.held select seen = Pipeline.known (.ok value) ↔ look select seen = some (.ok value) := by
  cases seen with
  | none => exact ⟨(fun same => by cases same), fun same => by cases same⟩
  | some outcome =>
    change Pipeline.known ((look select (some outcome)).getD (.error unresolved)) = _ ↔ _
    constructor
    · intro same
      have came := Pipeline.known_inj same
      cases found : look select (some outcome) with
      | none =>
        rw [found] at came
        cases came
      | some other =>
        rw [found] at came
        exact congrArg some came
    · intro found
      rw [found]
      rfl

theorem marshal_eq_ok_iff {shown : Pipeline.Shown} {views : List Memref} :
    Pipeline.marshal call shown = Pipeline.known (.ok views) ↔ call.operands.length = views.length ∧
      ∀ (place : Nat) operand view, call.operands[place]? = some operand → views[place]? = some view →
        ∃ value, look Payload.value? (shown operand) = some (.ok value) ∧
          call.dispatcher.marshaler place value = .ok (.ok view) := by
  let values := call.operands.map fun cell => look Payload.value? (shown cell)
  have each : call.dispatcher.marshaler.views values = .ok (.ok views) ↔ call.operands.length = views.length ∧
      ∀ (place : Nat) operand view, call.operands[place]? = some operand → views[place]? = some view →
        ∃ value, look Payload.value? (shown operand) = some (.ok value) ∧
          call.dispatcher.marshaler place value = .ok (.ok view) := by
    unfold Marshaler.views
    rw [viewsFrom_eq_ok_iff]
    simp only [values, List.length_map, List.getElem?_map, Option.map_eq_some_iff, Nat.zero_add]
    constructor
    · rintro ⟨length, each⟩
      exact ⟨length, fun place operand view here => each place _ view ⟨operand, here, rfl⟩⟩
    · rintro ⟨length, each⟩
      refine ⟨length, fun place seen view here => ?_⟩
      obtain ⟨operand, among, rfl⟩ := here
      exact each place operand view among
  rw [← each]
  unfold Pipeline.marshal
  constructor
  · intro marshaled
    split at marshaled
    · split at marshaled
      · next viewed => exact viewed.trans (congrArg Except.ok (Pipeline.known_inj marshaled))
      · cases marshaled
    · cases marshaled
  · intro viewed
    -- Who can be passed is there, so all operands are.
    have available : (call.operands.all fun cell => (shown cell).isSome) = true := by
      refine List.all_eq_true.2 fun operand member => ?_
      obtain ⟨place, here⟩ := List.mem_iff_getElem?.1 member
      obtain ⟨length, each⟩ := each.1 viewed
      obtain ⟨bound, -⟩ := List.getElem?_eq_some_iff.1 here
      obtain ⟨value, seen, -⟩ := each place operand _ here (List.getElem?_eq_getElem (length ▸ bound))
      cases shown : shown operand with
      | none =>
        rw [shown] at seen
        cases seen
      | some => rfl
    rw [if_pos available, show call.dispatcher.marshaler.views (call.operands.map _) = _ from viewed]

theorem mismatch?_eq_none_iff {kernel : Kernel} {views : List Memref} :
    Pipeline.mismatch? call kernel views = none ↔
      kernel.signature.results.length = call.count ∧ kernel.signature.check views = .ok () := by
  unfold Pipeline.mismatch?
  by_cases same : kernel.signature.results.length = call.count
  · cases checked : kernel.signature.check views <;> simp [same]
  · simp [same]

/-- A kernel that is run has been come to through all stages: every operand has a value that can be passed, the
handle and the executable that it selects have values, and the kernel is one for this call. -/
theorem cleared_iff {world : EngineWorld} {kernel : Kernel} {views : List Memref} :
    Cleared world call kernel views ↔
      (call.operands.length = views.length ∧ ∀ (place : Nat) operand view, call.operands[place]? = some operand →
        views[place]? = some view → ∃ value, look Payload.value? (world.store.state operand) = some (.ok value) ∧
          call.dispatcher.marshaler place value = .ok (.ok view)) ∧
      (∃ id cell, look Payload.handle? (world.store.state call.handle) = some (.ok id) ∧
        Pipeline.choice world.outer.handles id views = Pipeline.known (.ok cell) ∧
        look Payload.executable? (world.store.state cell) = some (.ok kernel)) ∧
      kernel.signature.results.length = call.count ∧ kernel.signature.check views = .ok () := by
  rw [← marshal_eq_ok_iff, ← mismatch?_eq_none_iff]
  constructor
  · rintro ⟨came, matched⟩
    unfold Pipeline.kernel at came
    rcases Pipeline.bind_eq_known.1 came with ⟨_, -, wrong⟩ | ⟨seen, viewed, came⟩
    · cases wrong
    rcases Pipeline.bind_eq_known.1 came with ⟨_, -, wrong⟩ | ⟨id, handled, came⟩
    · cases wrong
    rcases Pipeline.bind_eq_known.1 came with ⟨_, -, wrong⟩ | ⟨cell, chosen, came⟩
    · cases wrong
    rcases Pipeline.bind_eq_known.1 came with ⟨_, -, wrong⟩ | ⟨_, ready, same⟩
    · cases wrong
    cases Pipeline.known_inj same
    exact ⟨viewed, ⟨id, cell, held_eq_ok_iff.1 handled, chosen, held_eq_ok_iff.1 ready⟩, matched⟩
  · rintro ⟨viewed, ⟨id, cell, handled, chosen, ready⟩, matched⟩
    exact ⟨Pipeline.kernel_of_choice viewed (held_eq_ok_iff.2 handled) chosen (held_eq_ok_iff.2 ready), matched⟩

/-! ## Between operations -/

theorem Barred.not_cleared {world : EngineWorld} {kernel : Kernel} {views : List Memref} (barred : Barred world call) :
    ¬ Cleared world call kernel views := by
  rintro ⟨known, matched⟩
  cases barred with
  | failed came => cases Pipeline.known_inj (came.symm.trans known)
  | mismatched came wrong =>
    cases Pipeline.known_inj (came.symm.trans known)
    cases wrong.symm.trans matched

/-- The results of a call that is barred show its failure. -/
theorem Ran.at_rest_of_mismatch {world : EngineWorld} {kernel : Kernel} {views : List Memref}
    {raws : List (Nat × Raw)} {delivers : Delivering} {failure : Failure}
    (ran : Ran delivers ⟨[], world⟩ call kernel views raws cells)
    (wrong : Pipeline.mismatch? call kernel views = some failure) :
    AllHold ⟨[], world⟩ cells (.error failure) := by
  cases ran with
  | mismatched same hold =>
    cases wrong.symm.trans same
    exact hold
  | balked right => cases wrong.symm.trans right
  | ended right => cases wrong.symm.trans right

/-- A call whose pipeline has come to a kernel that it runs has run it, once all is done. -/
theorem Fate.once {world : EngineWorld} {kernel : Kernel} {views : List Memref} (fate : Fate ⟨[], world⟩ call)
    (steady : Steady ⟨[], world⟩) (cleared : Cleared world call kernel views) :
    World.executions world call.number = [(kernel.name, views)] := by
  cases fate with
  | pending pending =>
    obtain ⟨-, -, unknown⟩ := pending.at_rest steady
    cases unknown.symm.trans cleared.known
  | barred barred => exact absurd cleared barred.not_cleared
  | ran came once =>
    cases Pipeline.known_inj (came.known.symm.trans cleared.known)
    exact once

theorem Fate.at_rest {world : EngineWorld} (fate : Fate ⟨[], world⟩ call) (solo : Solo ⟨[], world⟩)
    (steady : Steady ⟨[], world⟩) (under : OnTheWay anything ⟨[], world⟩ call cells) :
    (∃ kernel views, Cleared world call kernel views ∧
      World.executions world call.number = [(kernel.name, views)]) ∨
    (∀ kernel views, ¬ Cleared world call kernel views) ∧ World.executions world call.number = [] ∧
      ((Awaits world call ∧ ∀ cell ∈ cells, world.store.state cell = none) ∨
        ∃ failure, ∀ cell ∈ cells, world.store.state cell = some (.error failure)) := by
  obtain ⟨ends, phase, length, shows⟩ := Leads.at_rest under
  have shown {seen : Option (Outcome Payload)} (same : ∀ last ∈ ends, world.store.state last = seen) :
      ∀ cell ∈ cells, world.store.state cell = seen := by
    intro cell member
    obtain ⟨index, here⟩ := List.mem_iff_getElem?.1 member
    obtain ⟨bound, -⟩ := List.getElem?_eq_some_iff.1 here
    have there := List.getElem?_eq_getElem (length ▸ bound)
    exact (shows index cell _ here there).trans (same _ (List.mem_of_getElem? there))
  have failed {failure : Failure} (hold : AllHold ⟨[], world⟩ ends (.error failure)) :
      ∃ failure, ∀ cell ∈ cells, world.store.state cell = some (.error failure) :=
    ⟨failure, shown fun last member => (hold last member).state_eq steady.fit.orderly.sound⟩
  have never (bars : ∀ kernel views, ¬ Cleared world call kernel views) : World.executions world call.number = [] :=
    (fate.executions solo).resolve_right fun ⟨kernel, views, cleared, _⟩ => bars kernel views cleared
  cases phase with
  | pending pending =>
    obtain ⟨awaits, none, unknown⟩ := pending.at_rest steady
    have bars (kernel : Kernel) (views : List Memref) : ¬ Cleared world call kernel views := by
      intro cleared
      cases unknown.symm.trans cleared.known
    exact .inr ⟨bars, never bars, .inl ⟨awaits, shown none⟩⟩
  | failed came hold =>
    have bars (kernel : Kernel) (views : List Memref) : ¬ Cleared world call kernel views :=
      (Barred.failed came).not_cleared
    exact .inr ⟨bars, never bars, .inr (failed hold)⟩
  | @ran kernel views _ came ran =>
    cases matched : Pipeline.mismatch? call kernel views with
    | none =>
      have cleared : Cleared world call kernel views := ⟨came, matched⟩
      exact .inl ⟨kernel, views, cleared, fate.once steady cleared⟩
    | some failure =>
      have bars (kernel : Kernel) (views : List Memref) : ¬ Cleared world call kernel views :=
        (Barred.mismatched came matched).not_cleared
      exact .inr ⟨bars, never bars, .inr (failed (ran.at_rest_of_mismatch matched))⟩

/-- What is known of a call that has been made, in every moment of every run that goes on from it. -/
structure Followed (moment : EngineMoment) (call : Call) (cells : List CellId) : Prop where
  steady : Steady moment
  solo : Solo moment
  old : call.number < moment.world.outer.calls
  fate : Fate moment call
  under : OnTheWay anything moment call cells

theorem Followed.step (followed : Followed before call cells) (step : Step setup .calm before after) :
    Followed after call cells where
  steady := followed.steady.step Rules.polite_calm step
  solo := followed.solo.step (step.accounts followed.steady.fit)
  old := Nat.lt_of_lt_of_le followed.old (step.accounts followed.steady.fit).calls
  fate := followed.fate.step followed.steady followed.solo followed.old id step
  under := followed.under.step followed.steady id step fun _ _ _ => trivial

theorem Followed.steps (followed : Followed before call cells) (steps : Steps (Step setup .calm) before after) :
    Followed after call cells := by
  induction steps with
  | refl => exact followed
  | tail _ step ih => exact ih.step step

/-- A call that is made returns, or its marshaler panics. -/
theorem call_followed (setup : Setup) {world : EngineWorld} {dispatcher : Dispatcher} {handle : CellId}
    {operands : List CellId} {count : Nat} (steady : Steady ⟨[], world⟩) (solo : Solo ⟨[], world⟩)
    (allowed : (Operation.call dispatcher handle operands count).Allowed .calm world) :
    (operands.all world.store.isAvailable = true ∧ ∃ cause, dispatcher.marshaler.views
      (operands.map fun cell => look Payload.value? (world.store.state cell)) = .error cause) ∨
    ∃ cells next, Engine.call setup dispatcher handle operands count world = (.ok cells, next) ∧
      cells.length = count ∧
      Followed ⟨[], next⟩ ⟨world.outer.calls, dispatcher, handle, operands, count⟩ cells := by
  obtain ⟨inside, operandsInside, sane⟩ := allowed
  let depth := world.store.weight Stage.weight + (operands.length + (count + 3))
  have fits : Call.Fits world.store.cells.size ⟨world.outer.calls, dispatcher, handle, operands, count⟩ :=
    ⟨inside, operandsInside, sane⟩
  have ends := start_ends setup depth steady.fit.ready fits
  have same : Engine.call setup dispatcher handle operands count world =
      start setup (within setup (depth + 1)) dispatcher handle operands count world := rfl
  rw [same]
  rcases started : start setup (within setup (depth + 1)) dispatcher handle operands count world with
    ⟨(cause | _) | cells, next⟩
  · obtain ⟨-, available, panicked⟩ := ends.fails started
    exact .inl ⟨available, cause, panicked⟩
  · exact absurd (by rw [started]) ends.not_exhausted
  · have comes := ends.holds started
    obtain ⟨⟨reaches, spends⟩, -⟩ := comes.holds []
    have begun := spends.begun rfl
    have grown : Step setup .calm ⟨[], world⟩ ⟨[], next⟩ := .grow comes.adds (.inl trivial) begun
    have steadyNext : Steady ⟨[], next⟩ := steady.step Rules.polite_calm grown
    have reached := reaches steadyNext.latched
    -- Nothing can have been run for a call that has not been made.
    have new : World.made world world.outer.calls = 0 := if_neg (Nat.lt_irrefl _)
    have once := solo.counts world.outer.calls
    rw [Async.Measure.duties_nil] at once
    have none : World.executions world world.outer.calls = [] := List.length_eq_zero_iff.1 (by omega)
    have alone : (stages world.outer.calls).store world.store = 0 := by omega
    refine .inr ⟨cells, next, rfl, comes.length, steadyNext, solo.step (.of_begun begun), ?_, ?_, ?_⟩
    · exact spends.calls ▸ Nat.lt_succ_self _
    · exact spends.fate reached none ((Nat.zero_add _).trans alone)
    · exact .here_of (reached.mono fun _ _ _ => trivial)

/-- A call returns as many cells as it is asked for, unless its operands are all there and its marshaler
panics on them. In every run that goes on from it, also in the midst of an operation, no kernel has been run for
the call, or one has been run once, on the views of the operands, and then all that the call needs has come out
well. Between operations one has been run if all has come out well. If not, none has been: either something that the
call needs is not available, or all results show one and the same failure. -/
theorem call_runs_once (setup : Setup) (operations : List Operation) (world : EngineWorld)
    (run : Runs setup .calm initial operations world) (dispatcher : Dispatcher) (handle : CellId)
    (operands : List CellId) (count : Nat)
    (allowed : (Operation.call dispatcher handle operands count).Allowed .calm world) :
    let call : Call := ⟨world.outer.calls, dispatcher, handle, operands, count⟩
    (operands.all world.store.isAvailable = true ∧ ∃ cause, dispatcher.marshaler.views
      (operands.map fun cell => look Payload.value? (world.store.state cell)) = .error cause) ∨
    ∃ cells after, Engine.call setup dispatcher handle operands count world = (.ok cells, after) ∧
      cells.length = count ∧
      ∀ more later, Runs setup .calm after more later →
        (∀ moment, Steps (Step setup .calm) ⟨[], later⟩ moment →
          World.executions moment.world call.number = [] ∨
          ∃ kernel views, Cleared moment.world call kernel views ∧
            World.executions moment.world call.number = [(kernel.name, views)]) ∧
        ((∃ kernel views, Cleared later call kernel views ∧
            World.executions later call.number = [(kernel.name, views)]) ∨
          (∀ kernel views, ¬ Cleared later call kernel views) ∧ World.executions later call.number = [] ∧
            ((Awaits later call ∧ ∀ cell ∈ cells, later.store.state cell = none) ∨
              ∃ failure, ∀ cell ∈ cells, later.store.state cell = some (.error failure))) := by
  intro call
  have made : Steps (Step setup .calm) ⟨[], initial⟩ ⟨[], world⟩ := run.steps trivial (fun _ _ => trivial) fit_initial
  have steady : Steady ⟨[], world⟩ := steady_initial.runs run
  have solo : Solo ⟨[], world⟩ := solo_initial.steps fit_initial made
  refine (call_followed setup steady solo allowed).imp_right ?_
  rintro ⟨cells, after, called, length, followed⟩
  refine ⟨cells, after, called, length, fun more later onward => ?_⟩
  have there := followed.steps (onward.steps trivial (fun _ _ => trivial) followed.steady.fit)
  constructor
  · intro moment steps
    have here := there.steps steps
    exact here.fate.executions here.solo
  · exact there.fate.at_rest there.solo there.steady there.under

/-- A call whose handle is there. -/
theorem call_runs_once_idle :
    ∃ world cells after, Runs failing .calm initial
        [.wrap (.ok ⟨idle, none⟩) .disabled 0, .make .concrete (some (.ok (.handle 0)))] world ∧
      (Operation.call {} 1 [] 0).Allowed .calm world ∧
      Engine.call failing {} 1 [] 0 world = (.ok cells, after) ∧ cells.length = 0 ∧
      World.executions after world.outer.calls = [("idle", [])] := by
  let handle : Handle := { generic := idle, genericCell := 0, specializer := none, mode := .disabled, limit := 0 }
  let world : EngineWorld := (World.addHandle (initial.make { outcome := some (.ok (.executable idle)) }) handle).make
    { outcome := some (.ok (.handle 0)) }
  have valid (given : Outcome Payload) (same : some (.ok (.handle 0)) = some given) : Outcome.Valid 1 given := by
    cases same
    exact fun _ same => by cases same; exact Nat.zero_lt_one
  have run : Runs failing .calm initial
      [.wrap (.ok ⟨idle, none⟩) .disabled 0, .make .concrete (some (.ok (.handle 0)))] world :=
    .cons trivial rfl (.inr rfl) (.cons valid rfl (.inr rfl) .nil)
  have allowed : (Operation.call {} 1 [] 0).Allowed .calm world := by
    refine ⟨Nat.lt_succ_self 1, fun _ member => ?_, fun conversion member => ?_⟩
    · cases member
    · exact (Conversion.Sane.defaults conversion member).later (Nat.zero_le _)
  rcases call_runs_once failing _ _ run {} 1 [] 0 allowed with
    ⟨-, _, panicked⟩ | ⟨cells, after, called, length, onward⟩
  · cases panicked
  · refine ⟨_, cells, after, run, allowed, called, length, ?_⟩
    cases called
    rfl

end DeferredJit.Engine
