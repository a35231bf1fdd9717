import DeferredJit.Proofs.Engine.Upkeep

/-! What a step does to a call that is on its way. A call stays in its phase or comes to the next one;
when its continuation has its turn, its placeholders are linked to the results of the stage. -/

set_option autoImplicit false

namespace DeferredJit.Engine

open Async (CellId LatchId Moment Continuation Routine Waiter)

/-- All that every step keeps. -/
structure Steady (moment : EngineMoment) : Prop where
  fit : Fit moment
  latched : moment.Latched
  apart : Apart moment

variable {setup : Setup} {rules : Rules} {before after : EngineMoment} {call : Call} {cells : List CellId}
  {delivers : Delivering}

namespace Steady

theorem step (steady : Steady before) (polite : rules.Polite) (step : Step setup rules before after) :
    Steady after :=
  ⟨steady.fit.step step, Latched.step steady.latched steady.fit step, steady.apart.step steady.fit polite step⟩

theorem steps (steady : Steady before) (polite : rules.Polite) (steps : Async.Steps (Step setup rules) before after) :
    Steady after :=
  Async.Steps.keep (fun step steady => steady.step polite step) steps steady

theorem adds {duties : List EngineDuty} {world next : EngineWorld} {scope : Scope} {budget : Nat}
    (steady : Steady ⟨duties, world⟩) (adds : Adds scope world budget next) : Steady ⟨duties, next⟩ :=
  ⟨adds.fit steady.fit, adds.latched steady.latched, steady.apart.adds steady.fit.ready adds⟩

/-- What single steps carry on from steady moments, all steps carry on. -/
theorem carry (holds : EngineMoment → Prop) (steady : Steady before) (polite : rules.Polite)
    (steps : Async.Steps (Step setup rules) before after) (start : holds before)
    (carried : ∀ {before after : EngineMoment}, Step setup rules before after → Steady before → holds before →
      holds after) : holds after := by
  have both : Steady after ∧ holds after := by
    induction steps with
    | refl => exact ⟨steady, start⟩
    | tail _ step ih => exact ⟨ih.1.step polite step, carried step ih.1 ih.2⟩
  exact both.2

theorem blank (steady : Steady before) {cell : CellId} (owned : 0 < before.owners Stage.results cell) :
    before.world.store.Blank cell := steady.apart.exclusive.blank cell owned

/-- A waiter that runs waited for a cell that is available. -/
theorem shown_of_fire {waiter : Waiter Payload Stage} {rest : List EngineDuty} (steady : Steady before)
    (running : before.duties = .fire waiter :: rest) : (before.world.store.state waiter.home).isSome := by
  have fair := steady.fit.orderly.duties (.fire waiter) (by rw [running]; exact List.mem_cons_self)
  exact fair

end Steady

theorem onward_routine {mayPanic : Prop} (fit : Fit before) (step : Routine mayPanic before after) :
    Onward before after where
  keeps := step.keeps fit.orderly.sound
  handles := by
    rw [Fit.outer_routine step]
    exact .refl _

/-! ## Operations in progress -/

/-- The source of a result is there, and its conversion panics. -/
inductive Spoils (mayPanic : Prop) : (before after : EngineMoment) → Converted → CellId → Prop where
  | of_fire {waiter cell convert rest world payload cause} : mayPanic → waiter.continuation = .derive cell convert →
      world.store.state waiter.home = some (.ok payload) → convert payload = .error cause →
      Spoils mayPanic ⟨.fire waiter :: rest, world⟩ ⟨rest, (Async.World.run world waiter).log (.converted payload)⟩
        (.derived waiter.home convert) cell

theorem Spoils.allowed {mayPanic : Prop} {converted : Converted} {cell : CellId}
    (spoils : Spoils mayPanic before after converted cell) : mayPanic := by
  cases spoils with
  | of_fire allowed => exact allowed

section Routine

variable {mayPanic : Prop} (steady : Steady before) (step : Routine mayPanic before after)

include steady step

/-- A waiter goes on waiting, or runs and then its cell is available. -/
theorem outstanding_or_running {waiter : Waiter Payload Stage} (member : waiter ∈ before.outstanding) :
    waiter ∈ after.outstanding ∨
      (∃ rest, before.duties = .fire waiter :: rest) ∧ (before.world.store.state waiter.home).isSome := by
  rcases List.mem_append.1 (step.outstanding.mem_iff.1 member) with running | still
  · refine .inr ?_
    have due : ∃ rest, before.duties = .fire waiter :: rest := by
      unfold Moment.running at running
      split at running
      · rename_i other rest duties
        rw [List.mem_singleton.1 running]
        exact ⟨rest, duties⟩
      · cases running
    obtain ⟨rest, duties⟩ := due
    exact ⟨⟨rest, duties⟩, steady.shown_of_fire duties⟩
  · exact .inl still

/-- The operands of a call arrive one by one, and after the last it is its turn. -/
theorem Pending.gathers_routine {latch : LatchId} {missing : Nat}
    (found : before.world.store.latches[latch]? = some ⟨missing + 1, .operands call cells⟩)
    (waiting : ∀ operand ∈ call.operands, (before.world.store.state operand).isSome ∨
      ∃ waiter ∈ before.outstanding, waiter.continuation = .arrive latch ∧ waiter.home = operand)
    (homes : ∀ waiter ∈ before.outstanding, waiter.continuation = .arrive latch →
      waiter.home ∈ call.operands) : Pending after call cells := by
  have keeps := (onward_routine steady.fit step).keeps
  have waits : ∀ operand ∈ call.operands, (after.world.store.state operand).isSome ∨
      ∃ waiter ∈ after.outstanding, waiter.continuation = .arrive latch ∧ waiter.home = operand := by
    intro operand member
    rcases waiting operand member with shown | ⟨waiter, there, kind, rfl⟩
    · exact .inl (keeps.isSome_state shown)
    · rcases outstanding_or_running steady step there with still | ⟨-, shown⟩
      · exact .inr ⟨waiter, still, kind, rfl⟩
      · exact .inl (keeps.isSome_state shown)
  have belong : ∀ waiter ∈ after.outstanding, waiter.continuation = .arrive latch → waiter.home ∈ call.operands :=
    fun waiter member => homes waiter (step.outstanding.mem_iff.2 (List.mem_append_right _ member))
  have same (latches : after.world.store.latches = before.world.store.latches) : Pending after call cells :=
    .gathers (latches ▸ found) waits belong
  have latched := steady.latched.routine step
  have bound := (List.getElem?_eq_some_iff.1 found).1
  obtain ⟨duties, world⟩ := before
  have arriving := Async.Store.arriveAt_of_found found
  have missed : world.store.missing latch = missing + 1 := by
    unfold Async.Store.missing
    rw [found]
    rfl
  cases step with
  | @arrive waiter place rest _ store kind arrived =>
    by_cases here : place = latch
    · subst here
      obtain ⟨kept, rfl⟩ := Prod.mk.inj (arriving.symm.trans arrived)
      cases missing with
      | zero => cases kept
      | succ fewer => exact .gathers (List.getElem?_set_self bound) waits belong
    · have there := world.store.latches_arriveAt_of_ne here
      rw [arrived, found] at there
      exact .gathers there waits belong
  | @opens waiter place rest _ store body kind arrived =>
    by_cases here : place = latch
    · subst here
      obtain ⟨opened, -⟩ := Prod.mk.inj (arriving.symm.trans arrived)
      split at opened
      · rename_i last
        cases opened
        refine .turn rfl rfl rfl (.operands fun operand member => ?_)
        rcases waits operand member with shown | ⟨other, there, kind, -⟩
        · exact shown
        · -- Nobody else is on the way to the latch.
          have arrives : 0 < (Moment.arrivals ⟨_, _⟩).count place :=
            List.count_pos_iff.2 (List.mem_filterMap.2 ⟨other, there, by rw [kind]; rfl⟩)
          have spent : store.missing place = 0 := by
            have left := world.store.missing_arriveAt place place
            rw [arrived, if_pos rfl, missed] at left
            exact left.trans (Nat.sub_eq_zero_of_le (Nat.le_of_eq last))
          rw [latched place] at arrives
          exact absurd spent (Nat.ne_of_gt arrives)
      · cases opened
    · have there := world.store.latches_arriveAt_of_ne here
      rw [arrived, found] at there
      exact .gathers there waits belong
  | park parked => exact same (Async.Store.aligned_park parked).latches
  | give settled => exact same (Async.Store.aligned_settle settled).latches
  | link _ linked => exact same (Async.Store.aligned_linkTo linked).latches
  | _ => exact same rfl

/-- A call that waits goes on waiting until it is its turn. -/
theorem Pending.routine (pending : Pending before call cells) : Pending after call cells := by
  have onward := onward_routine steady.fit step
  have tidy := steady.fit.tidy
  cases pending with
  | gathers found waiting homes => exact gathers_routine steady step found waiting homes
  | @waits stage waiter called placed member kind expects =>
    rcases outstanding_or_running steady step member with still | ⟨⟨rest, duties⟩, shown⟩
    · exact .waits called placed still kind (onward.expects tidy expects)
    · obtain ⟨_, world⟩ := before
      cases duties
      obtain ⟨outcome, seen⟩ := Option.isSome_iff_exists.1 shown
      cases step with
      | call kind' =>
        rw [kind] at kind'
        cases kind'
        refine .turn called placed rfl ?_
        rw [seen]
        exact onward.told tidy (.shown expects seen)
      | arrive kind' | opens kind' | derive kind' | spoil _ kind' | pass kind' | skip kind' =>
        rw [kind] at kind'
        cases kind'
  | turn _ _ head =>
    obtain ⟨duties, world⟩ := before
    cases step with
    | _ => cases head

/-- A result goes on following its source, unless its conversion panics now. -/
theorem Follows.next {converted : Converted} {cell : CellId} (follows : Follows before converted cell) :
    Follows after converted cell ∨ Spoils mayPanic before after converted cell := by
  have keeps := (onward_routine steady.fit step).keeps
  cases follows with
  | settled held => exact .inl (.settled (held.later keeps))
  | done shown held conveys => exact .inl (.done (keeps.state shown) (held.later keeps) conveys)
  | @waits source convert _ waiter member kind home =>
    rcases outstanding_or_running steady step member with still | ⟨⟨rest, duties⟩, shown⟩
    · exact .inl (.waits still kind home)
    · -- The waiter that runs is the one that converts.
      have owned : 0 < before.owners Stage.results cell :=
        Moment.owned_of_waiter member (by rw [kind]; exact List.mem_cons_self)
      have blank := steady.blank owned
      obtain ⟨_, world⟩ := before
      cases duties
      subst home
      cases step with
      | derive kind' seen made =>
        rw [kind] at kind'
        cases kind'
        exact .inl (.due rfl blank seen made)
      | spoil allowed kind' seen panicked =>
        rw [kind] at kind'
        cases kind'
        exact .inr (.of_fire allowed kind seen panicked)
      | pass kind' seen =>
        rw [kind] at kind'
        cases kind'
        exact .inl (.due rfl blank seen rfl)
      | skip kind' seen =>
        rw [seen] at shown
        cases shown
      | call kind' | arrive kind' | opens kind' =>
        rw [kind] at kind'
        cases kind'
  | due head blank shown conveys =>
    obtain ⟨duties, world⟩ := before
    cases step with
    | give settled =>
      cases head
      exact .inl (.done (keeps.state shown) (Async.Store.holds_settle settled) conveys)
    | refuse refused =>
      cases head
      obtain ⟨waiters, store, settled⟩ := blank.settles _
      rw [refused] at settled
      cases settled
    | _ => cases head

theorem Follows.routine {converted : Converted} {cell : CellId} (calm : ¬ mayPanic)
    (follows : Follows before converted cell) : Follows after converted cell :=
  (follows.next steady step).resolve_right fun spoils => calm spoils.allowed

end Routine

/-! ## Steps from one operation to the next -/

/-- What a step leaves alone that starts with no operation in progress. -/
theorem Quiet.of_idle {world : EngineWorld} (onward : Onward ⟨[], world⟩ after)
    (latches : ∃ more, after.world.store.latches = world.store.latches ++ more)
    (waiters : ∃ more, after.outstanding.Perm (more ++ world.store.waiters)) : Quiet ⟨[], world⟩ after where
  toOnward := onward
  latches found := by
    obtain ⟨more, same⟩ := latches
    rw [same]
    exact (List.getElem?_append_left (List.getElem?_eq_some_iff.1 found).1).trans found
  outstanding := waiters
  links member := by cases member
  due head := by cases head

/-- Handles keep what they chose. -/
theorem Step.onward (step : Step setup rules before after) (fit : Fit before) : Onward before after := by
  refine ⟨step.keeps fit, ?_⟩
  cases step with
  | routine step => exact (onward_routine fit step).handles
  | stage ran =>
    have proceeds := fit.proceeds ran
    exact proceeds.adds.handlesKeep
  | grow adds => exact adds.handlesKeep
  | @take place job _ world _ found ran =>
    have handles := (fit.prepares found ran).1.handlesKeep
    rwa [World.outer_taken] at handles
  | _ => exact .refl _

/-- A step is one of an operation in progress, or touches nothing that is under way. -/
theorem Step.quiet (step : Step setup rules before after) (fit : Fit before) :
    Routine rules.panics before after ∨ Quiet before after := by
  have onward := step.onward fit
  cases step with
  | routine step => exact .inl step
  | @falter stage seen rest world allowed =>
    refine .inr ⟨onward, id, ⟨[], .refl _⟩, fun member => ?_, fun head => by cases head⟩
    rcases List.mem_cons.1 member with same | old
    · cases same
    · exact old
  | @stage stage seen rest world depth produced next ran =>
    have proceeds := fit.proceeds ran
    have quiet := proceeds.adds.quiet fit.ready (.answer stage seen :: rest)
    refine .inr ⟨onward, quiet.latches, ?_, fun member => ?_, fun head => by cases head⟩
    · simp only [Moment.outstanding, List.filterMap_append, waiters_linkAll, List.nil_append]
      exact quiet.outstanding
    · rcases List.mem_cons.1 member with same | old
      · cases same
      · exact List.mem_append_right _ old
  | settle | link =>
    exact .inr (.of_idle onward ⟨[], (List.append_nil _).symm⟩ ⟨[], .refl _⟩)
  | observe =>
    exact .inr (.of_idle onward ⟨[], (List.append_nil _).symm⟩ ⟨[_], .refl _⟩)
  | grow adds => exact .inr (adds.quiet fit.ready [])
  | @enter key compilation world missing allowed =>
    refine .inr (.of_idle onward ⟨[], (List.append_nil _).symm⟩ ⟨[], .of_eq ?_⟩)
    exact (world.store.waiters_make rfl : (World.enter world key compilation).store.waiters = _)
  | @take place job outcome world next found ran =>
    obtain ⟨adds, -⟩ := fit.prepares found ran
    have store := World.store_taken setup world place job
    refine .inr (.of_idle onward ?_ ?_)
    · have latches := adds.grows.latches
      rw [store] at latches
      exact latches
    · have waiters := adds.grows.waiters
      rw [store] at waiters
      exact waiters

/-- The results of a kernel that has run stay what they are, also while they are waited for. -/
theorem Ran.step {kernel : Kernel} {views : List Memref} {raws : List (Nat × Raw)}
    (ran : Ran delivers before call kernel views raws cells) (steady : Steady before) (calm : ¬ rules.panics)
    (step : Step setup rules before after) : Ran delivers after call kernel views raws cells := by
  rcases step.quiet steady.fit with routine | quiet
  · exact ran.goes_on (fun _ _ => id) (onward_routine steady.fit routine).keeps (Follows.routine steady routine calm)
  · exact quiet.ran ran

/-- The stage of a call has had its turn, and has come to these results. -/
inductive Proceeded (setup : Setup) (call : Call) (cells produced : List CellId) :
    EngineMoment → EngineMoment → Prop where
  | of_stage {stage seen rest world depth next} : stage.call? = some call → stage.results = cells →
      Told world stage seen → proceed setup (within setup (depth + 1)) stage seen world = (.ok produced, next) →
      Proceeded setup call cells produced ⟨.answer stage seen :: rest, world⟩
        ⟨linkAll stage.results produced ++ rest, next⟩

/-- A call that waits goes on waiting, unless it is its turn. -/
theorem Pending.next (pending : Pending before call cells) (steady : Steady before)
    (step : Step setup rules before after) : Pending after call cells ∨ Pending.Turn before call cells := by
  rcases step.quiet steady.fit with routine | quiet
  · exact .inl (pending.routine steady routine)
  · exact pending.later quiet steady.fit.tidy steady.latched (Latched.step steady.latched steady.fit step)

/-- A call that waits goes on waiting until its stage has its turn. -/
theorem Pending.step (pending : Pending before call cells) (steady : Steady before) (calm : ¬ rules.panics)
    (step : Step setup rules before after) :
    Pending after call cells ∨ ∃ produced, Proceeded setup call cells produced before after := by
  rcases pending.next steady step with same | ⟨stage, seen, called, placed, head, told⟩
  · exact .inl same
  · obtain ⟨duties, world⟩ := before
    cases step with
    | routine step =>
      cases step with
      | _ => cases head
    | falter allowed => exact absurd allowed calm
    | stage ran =>
      cases head
      exact .inr ⟨_, .of_stage called placed told ran⟩
    | _ => cases head

/-- The placeholders of a call are to be linked to the results that its stage has come to. -/
structure Advances (before after : EngineMoment) (call : Call) (cells produced : List CellId) : Prop where
  length : cells.length = produced.length
  older : ∀ cell ∈ cells, cell < before.world.store.cells.size
  younger : ∀ cell ∈ produced, before.world.store.cells.size ≤ cell
  links : ∀ pair ∈ cells.zip produced, .link pair.1 pair.2 ∈ after.duties
  phase : Reaches after call produced

theorem Proceeded.advances {produced : List CellId} (proceeded : Proceeded setup call cells produced before after)
    (steady : Steady before) : Advances before after call cells produced := by
  cases proceeded with
  | @of_stage stage seen rest world depth next called placed told ran =>
    subst placed
    have fits : stage.Fits world.store := steady.fit.carried.asked _ _ List.mem_cons_self
    have proceeds := (proceed_ends setup depth steady.fit.ready fits seen).holds ran
    refine ⟨proceeds.length.symm, fun cell member => ?_, fun cell member => (proceeds.fresh cell member).young,
      fun pair member => ?_, proceeds.phase called told _⟩
    · obtain ⟨found, here, -⟩ := fits.results cell member
      exact Async.Store.lt_size_of_cell? here
    · exact List.mem_append_left _ (List.mem_map.2 ⟨pair, member, rfl⟩)

theorem Phase.step (phase : Phase delivers before call cells) (steady : Steady before) (calm : ¬ rules.panics)
    (step : Step setup rules before after) :
    Phase delivers after call cells ∨ ∃ produced, Advances before after call cells produced := by
  have onward := step.onward steady.fit
  cases phase with
  | pending pending =>
    rcases pending.step steady calm step with same | ⟨produced, proceeded⟩
    · exact .inl (.pending same)
    · exact .inr ⟨produced, proceeded.advances steady⟩
  | failed came hold => exact .inl (.failed (onward.kernel steady.fit.tidy came) (hold.later onward.keeps))
  | ran came ran => exact .inl (.ran (onward.kernel steady.fit.tidy came) (ran.step steady calm step))

end DeferredJit.Engine
