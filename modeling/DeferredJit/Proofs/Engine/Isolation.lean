import DeferredJit.Proofs.Engine.Conversions
import DeferredJit.Proofs.Engine.Stranding

/-! Results of one kernel do not depend on each other. Each comes to what its own raw value comes to,
also where the conversions of others panic later on. Only a conversion that panics while the kernel
is running concerns all results: it stops the kernel. -/

set_option autoImplicit false

namespace DeferredJit.Engine

open Async (CellId Moment Continuation Routine Steps)
open Pipeline (Shown)

variable {setup : Setup} {rules : Rules} {before after : EngineMoment} {cell : CellId} {world : EngineWorld}

/-! ## What a result comes to when conversions may panic -/

/-- A result follows what it is converted from, or its conversion has panicked and it is stranded. -/
inductive Traces (moment : EngineMoment) : Converted → CellId → Prop where
  | follows {converted cell} : Follows moment converted cell → Traces moment converted cell
  | spoiled {source convert payload cause cell} : moment.world.store.state source = some (.ok payload) →
      convert payload = .error cause → Stranded moment cell → Traces moment (.derived source convert) cell

namespace Traces

variable {converted : Converted}

theorem step (traces : Traces before converted cell) (steady : Steady before)
    (untouched : ¬ rules.touches before.world cell) (step : Step setup rules before after) :
    Traces after converted cell := by
  cases traces with
  | spoiled shown panicked stranded =>
    exact .spoiled ((step.keeps steady.fit).state shown) panicked (stranded.step steady.fit untouched step)
  | follows follows =>
    rcases step.quiet steady.fit with routine | quiet
    · rcases follows.next steady routine with still | spoils
      · exact .follows still
      · cases spoils with
        | @of_fire waiter cell convert rest world payload cause _ kind shown panicked =>
          -- The waiter that ran was the only one to see to the result.
          have running : Steady ⟨[.fire waiter] ++ rest, world⟩ := steady
          have sees : cell ∈ waiter.continuation.owned Stage.results := by
            rw [kind]
            exact List.mem_cons_self
          have owned : 0 < (Async.owners Stage.results cell).duties [.fire waiter] := List.count_pos_iff.2 sees
          have stranded := running.strands owned
          exact .spoiled shown panicked (stranded.congr id (Nat.le_refl _) id fun _ => id)
    · exact .follows (quiet.follows follows)

/-- Between operations a result shows what its source comes to, and nothing if that is a panic. -/
theorem at_rest (traces : Traces ⟨[], world⟩ converted cell) (steady : Steady ⟨[], world⟩) (index : Nat) :
    world.store.state cell =
      (Pipeline.result world.store.state index (some converted)).bind Except.toOption := by
  cases traces with
  | follows follows =>
    rw [follows.at_rest steady index]
    cases world.store.state cell <;> rfl
  | spoiled shown panicked stranded =>
    rw [Pipeline.result_of_shown shown, panicked, stranded.blank.state_eq_none]
    rfl

end Traces

/-- What is waited for is waited for also in the midst of operations. -/
theorem Follows.under {converted : Converted} (follows : Follows ⟨[], world⟩ converted cell)
    (duties : List EngineDuty) : Follows ⟨duties, world⟩ converted cell := by
  cases follows with
  | settled held => exact .settled held
  | waits member kind home => exact .waits (List.mem_append_right _ member) kind home
  | due head => cases head
  | done shown held conveys => exact .done shown held conveys

/-! ## What a kernel hands back -/

/-- The first raw value for some position trips its conversion. -/
def Tripping (shown : Shown) (types : List ResultType) (raws : List (Nat × Raw)) : Prop :=
  ∃ (index : Nat) (type : ResultType) (raw : Raw), types[index]? = some type ∧ raws.lookup index = some raw ∧
    Trips shown type raw

section Fill

variable {store : EngineStore} {conversions : List Conversion} {kernel : Kernel} {raws : List (Nat × Raw)}
  {index : Nat} {type : ResultType}

theorem vacant_of_declared (declared : kernel.signature.results[index]? = some type) :
    (emptySlots kernel)[index]? = some none := by
  unfold emptySlots
  rw [List.getElem?_map, declared]
  rfl

/-- A conversion that panics is one of a first raw value. -/
theorem Balks.alone (balks : Balks store conversions kernel.signature.results (emptySlots kernel) raws) :
    ∃ index type raw cause, kernel.signature.results[index]? = some type ∧ raws.lookup index = some raw ∧
      Pipeline.alone conversions store.state index type raw = some (.error cause) := by
  rcases balks with ⟨cause, stopped⟩ | ⟨slots, filled, source, convert, payload, cause, member, shown, panicked⟩
  · obtain ⟨index, type, raw, declared, -, found, made⟩ := Pipeline.fill_stopped stopped
    exact ⟨index, type, raw, cause, declared, found, alone_of_panicked made⟩
  · obtain ⟨index, here⟩ := List.mem_iff_getElem?.1 member
    obtain ⟨bound, -⟩ := List.getElem?_eq_some_iff.1 here
    rw [Pipeline.length_fill filled, emptySlots, List.length_map] at bound
    have declared := List.getElem?_eq_getElem bound
    rcases Pipeline.fill_first filled declared (vacant_of_declared declared) with
      ⟨-, empty⟩ | ⟨raw, converted, found, made, there⟩
    · cases empty.symm.trans here
    · cases there.symm.trans here
      refine ⟨index, _, raw, cause, declared, found, ?_⟩
      rw [alone_of_converted made, Pipeline.result_of_shown shown, panicked]

/-- Where results follow their sources no conversion panics on what is there. -/
theorem Steady.alone_calm {duties : List EngineDuty} (steady : Steady ⟨duties, world⟩)
    {slots : List (Option Converted)}
    (filled : Pipeline.fill conversions kernel.signature.results (emptySlots kernel) raws = .ok slots)
    (following : ∀ converted, some converted ∈ slots → ∃ target, Follows ⟨[], world⟩ converted target)
    {raw : Raw} (declared : kernel.signature.results[index]? = some type) (found : raws.lookup index = some raw)
    (cause : Panic) : Pipeline.alone conversions world.store.state index type raw ≠ some (.error cause) := by
  rcases Pipeline.fill_first filled declared (vacant_of_declared declared) with
    ⟨missing, -⟩ | ⟨other, converted, first, made, there⟩
  · cases missing.symm.trans found
  · cases first.symm.trans found
    obtain ⟨target, follows⟩ := following converted (List.mem_of_getElem? there)
    rw [alone_of_converted made, follows.at_rest steady index]
    cases world.store.state target <;> simp

end Fill

/-! ## Results side by side -/

/-- Between operations, from this moment on and whatever panics, every position shows what the first raw value
for it comes to on its own. -/
def Isolated (setup : Setup) (types : List ResultType) (raws : List (Nat × Raw)) (cells : List CellId)
    (moment : EngineMoment) : Prop :=
  ∀ later, Steps (Step setup (.sparing cells)) moment ⟨[], later⟩ →
    ∀ (index : Nat) type cell, types[index]? = some type → cells[index]? = some cell →
      (raws.lookup index = none →
        later.store.state cell = some (.error (.conversion index "executable returned no value"))) ∧
      ∀ raw, raws.lookup index = some raw →
        later.store.state cell =
          (Pipeline.alone Conversion.defaults later.store.state index type raw).bind Except.toOption ∧
        (Typed later.store.state raw → Resolution later.store.state index type raw (later.store.state cell))

/-- Results that follow their sources when the kernel has run are isolated from then on. -/
theorem Steady.isolates {kernel : Kernel} {raws : List (Nat × Raw)} {cells : List CellId}
    {slots : List (Option Converted)} {duties : List EngineDuty} (steady : Steady ⟨duties, world⟩)
    (filled : Pipeline.fill Conversion.defaults kernel.signature.results (emptySlots kernel) raws = .ok slots)
    (completes : ∀ (index : Nat) slot cell, slots[index]? = some slot → cells[index]? = some cell →
      Completes ⟨[], world⟩ index slot cell) :
    Isolated setup kernel.signature.results raws cells ⟨duties, world⟩ := by
  intro later steps index type cell declared placed
  have polite : (Rules.sparing cells).Polite := Rules.polite_sparing cells
  have untouched (world : EngineWorld) : ¬ (Rules.sparing cells).touches world cell :=
    fun touched => touched.2 (List.mem_of_getElem? placed)
  have steadyLater := steady.steps polite steps
  rcases Pipeline.fill_first filled declared (vacant_of_declared declared) with
    ⟨missing, empty⟩ | ⟨raw, converted, found, made, there⟩
  · refine ⟨fun _ => ?_, fun raw found => by cases missing.symm.trans found⟩
    have held : world.store.Holds cell (.error (.conversion index "executable returned no value")) :=
      completes index none cell empty placed
    exact (held.later (steady.fit.onward steps).keeps).state_eq steadyLater.fit.orderly.sound
  · refine ⟨fun missing => (by cases missing.symm.trans found), fun other same => ?_⟩
    cases found.symm.trans same
    -- The result followed its source at first, so it traces it at every moment from then on.
    have follows : Follows ⟨[], world⟩ converted cell := completes index (some converted) cell there placed
    have traces : Traces ⟨[], later⟩ converted cell :=
      steady.carry (Traces · converted cell) polite steps (.follows (follows.under duties))
        fun step steady traces => traces.step steady (untouched _) step
    have shows : later.store.state cell =
        (Pipeline.alone Conversion.defaults later.store.state index type raw).bind Except.toOption := by
      rw [alone_of_converted made]
      exact traces.at_rest steadyLater index
    exact ⟨shows, fun typed => shows ▸ alone_resolves typed⟩

/-- A kernel that returns, and that the call matches, comes to as many results as the call asks for. If the first raw
value for a position, as far as the kernel has handed them back, is a buffer that is there and trips its conversion,
then the conversion stops the kernel, and all results show that it panicked. Otherwise the results are isolated: each
shows what its own raw value comes to. Only a buffer that comes to be there later and then trips its conversion leaves
its position without an outcome, and no other position. -/
theorem results_isolated_unless_tripping (setup : Setup) (duties : List EngineDuty) (start world : EngineWorld)
    (reached : Steps (Step setup (.sparing [])) ⟨[], initial⟩ ⟨duties, start⟩) (scope : Scope) (budget : Nat)
    (grown : Adds scope start budget world) (call : Call) (fits : call.Fits world.store.cells.size)
    (defaults : call.dispatcher.conversions = Conversion.defaults) (kernel : Kernel) (views : List Memref)
    (matched : Pipeline.mismatch? call kernel views = none) (returned : (kernel.run views).finish = .returned)
    (depth : Nat) :
    ∃ cells next, invoke setup (within setup (depth + 1)) call kernel views world = (.ok cells, next) ∧
      cells.length = call.count ∧
      ((∃ done rest raws, (kernel.run views).answers = done ++ rest ∧
          HandsBack setup depth world call kernel views done raws ∧ Handed next.store done raws ∧
          Tripping next.store.state kernel.signature.results raws ∧
          ∀ cell ∈ cells, next.store.state cell = some (.error Pipeline.panicked)) ∨
        ∃ raws, HandsBack setup depth world call kernel views (kernel.run views).answers raws ∧
          Handed next.store (kernel.run views).answers raws ∧
          ¬ Tripping next.store.state kernel.signature.results raws ∧
          ∀ more, Steps (Step setup (.sparing [])) ⟨[], initial⟩ ⟨more, next⟩ →
            Isolated setup kernel.signature.results raws cells ⟨more, next⟩) := by
  have polite : (Rules.sparing []).Polite := Rules.polite_sparing []
  have steady : Steady ⟨duties, world⟩ := (steady_initial.steps polite reached).adds grown
  have ends := invoke_ends setup depth steady.fit.ready fits kernel views
  rcases ran : invoke setup (within setup (depth + 1)) call kernel views world with ⟨(cause | _) | cells, next⟩
  · exact (ends.fails ran).elim
  · exact absurd (by rw [ran]) ends.not_exhausted
  have comes := ends.holds ran
  have steadyNext := steady.adds comes.adds
  refine ⟨cells, next, rfl, comes.length, ?_⟩
  obtain ⟨⟨raws, results⟩, -⟩ := comes.holds []
  -- The call matches, so the kernel was stopped at an answer or has returned.
  cases results with
  | mismatched wrong => cases matched.symm.trans wrong
  | @balked done rest _ split handed delivers balks hold =>
    refine .inl ⟨done, rest, raws, split, delivers.2, handed, ?_, fun cell member => ?_⟩
    · rw [defaults] at balks
      obtain ⟨index, type, raw, cause, declared, found, panicked⟩ := balks.alone
      exact ⟨index, type, raw, declared, found, (alone_panics_iff.1 panicked).2⟩
    · exact (hold cell member).state_eq steadyNext.fit.orderly.sound
  | @ended slots _ handed delivers filled following ended =>
    rw [returned] at ended
    rw [defaults] at filled
    refine .inr ⟨raws, delivers.2, handed, ?_, fun more reached => ?_⟩
    · rintro ⟨index, type, raw, declared, found, trips⟩
      exact steadyNext.alone_calm filled following declared found .overflow (alone_panics_iff.2 ⟨rfl, trips⟩)
    · exact (steady_initial.steps polite reached).isolates filled ended.2

/-- A view whose strides would have to be compared with some that are no words. -/
def wide : Memref := ⟨.i8, [], 0, [1, 4611686018427387904, 2], [1, 1, 1], rfl, rfl⟩

/-- A kernel that hands back a buffer that comes later, and one that is there. -/
def pairing : Kernel where
  name := "pairing"
  signature := ⟨[], [.asyncMemref .i8 3, .memref .i8 1]⟩
  run _ := ⟨[(0, .asyncMemref (.awaited "late")), (1, .memref ⟨.i8, [42], 0, [1], [1], rfl, rfl⟩)], .returned⟩

/-- The kernel is in a cell, and its handle in another. -/
def pairingReady : EngineWorld :=
  (World.addHandle (initial.make { outcome := some (.ok (.executable pairing)) })
    { generic := pairing, genericCell := 0, specializer := none, mode := .disabled, limit := 0 }).make
      { outcome := some (.ok (.handle 0)) }

def pairingStarted : EngineWorld := { pairingReady with outer := { pairingReady.outer with calls := 1 } }

def pairingCalled : EngineWorld := (Engine.call failing {} 1 [] 2 pairingReady).2

/-- The buffer comes, and trips its conversion. -/
def pairingTripped : EngineWorld := (Engine.resolve failing 2 (.ok (.view wide)) pairingCalled).2

/-- The result of the buffer that came late shows nothing, and the other one its tensor. -/
theorem results_isolated_unless_tripping_late :
    Steps (Step failing (.sparing [])) ⟨[], initial⟩ ⟨[], pairingReady⟩ ∧ Adds .call pairingReady 0 pairingStarted ∧
      Call.Fits pairingStarted.store.cells.size ⟨0, {}, 1, [], 2⟩ ∧
      invoke failing (within failing 6) ⟨0, {}, 1, [], 2⟩ pairing [] pairingStarted = (.ok [3, 4], pairingCalled) ∧
      Engine.resolve failing 2 (.ok (.view wide)) pairingCalled = (.error (.panic .overflow), pairingTripped) ∧
      pairingTripped.store.state 3 = none ∧
      pairingTripped.store.state 4 = some (.ok (.value (.tensor ⟨.i8, [1], [42], rfl⟩))) := by
  have valid (given : Outcome Payload) (same : some (.ok (.handle 0)) = some given) : Outcome.Valid 1 given := by
    cases same
    exact fun _ same => by cases same; exact Nat.zero_lt_one
  have run : Runs failing (.sparing []) initial
      [.wrap (.ok ⟨pairing, none⟩) .disabled 0, .make .concrete (some (.ok (.handle 0)))] pairingReady :=
    .cons trivial rfl (.inr rfl) (.cons valid rfl (.inr rfl) .nil)
  have reached := run.steps trivial (fun _ _ => trivial) fit_initial
  have grown : Adds .call pairingReady 0 pairingStarted := .single (.own rfl rfl rfl (.inl trivial))
  have sane (conversion : Conversion) (member : conversion ∈ Conversion.defaults) : conversion.Sane 2 :=
    (Conversion.Sane.defaults conversion member).later (Nat.zero_le _)
  have fits : Call.Fits pairingStarted.store.cells.size ⟨0, {}, 1, [], 2⟩ :=
    ⟨Nat.lt_succ_self 1, List.forall_mem_nil _, sane⟩
  have invoked : invoke failing (within failing 6) ⟨0, {}, 1, [], 2⟩ pairing [] pairingStarted =
      (.ok [3, 4], pairingCalled) := rfl
  have resolved : Engine.resolve failing 2 (.ok (.view wide)) pairingCalled =
      (.error (.panic .overflow), pairingTripped) := rfl
  refine ⟨reached, grown, fits, invoked, resolved, ?_⟩
  obtain ⟨cells, next, ran, -, ends⟩ := results_isolated_unless_tripping failing [] pairingReady pairingStarted reached
    .call 0 grown ⟨0, {}, 1, [], 2⟩ fits rfl pairing [] rfl rfl 5
  cases invoked.symm.trans ran
  rcases ends with ⟨_, _, _, -, -, -, -, panicked⟩ | ⟨raws, taking, handed, -, isolated⟩
  · cases panicked 3 List.mem_cons_self
  have called : Runs failing (.sparing []) pairingReady [.call {} 1 [] 2] pairingCalled :=
    .cons ⟨Nat.lt_succ_self 1, List.forall_mem_nil _, sane⟩ rfl (.inr rfl) .nil
  have before := (run.trans called).steps trivial (fun _ _ => trivial) fit_initial
  have tripped : Runs failing (.sparing [3, 4]) pairingCalled [.settle 2 (.ok (.view wide))] pairingTripped :=
    .cons ⟨⟨rfl, by decide⟩, fun _ same => by cases same; trivial⟩ rfl (.inl trivial) .nil
  have after := tripped.steps trivial (fun _ _ => trivial) (fit_initial.steps before).1
  -- The second raw value is the buffer that is there, and its position does not depend on the first.
  have second : raws.lookup 1 = some (.memref ⟨.i8, [42], 0, [1], [1], rfl, rfl⟩) := by
    cases handed with
    | @cons _ first _ _ same rest =>
      cases rest with
      | @cons _ other _ _ last none =>
        obtain ⟨place, raw⟩ := first
        obtain ⟨next, view⟩ := other
        obtain ⟨rfl, -⟩ := same
        obtain ⟨rfl, handed⟩ := last
        cases view with
        | memref view => cases handed; rfl
        | _ => cases handed
  have shows := (isolated [] before pairingTripped after 1 (.memref .i8 1) 4 rfl rfl).2 _ second
  exact ⟨rfl, shows.1.trans rfl⟩

end DeferredJit.Engine
