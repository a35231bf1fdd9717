import DeferredJit.Proofs.Async.Gathering
import DeferredJit.Proofs.Async.Linking
import DeferredJit.Proofs.Async.Outlines

/-! Cells whose waiters only note that they run. A decision that is open to such a cell is then taken
for certain, and changes the cell and who waits where. -/

set_option autoImplicit false

namespace DeferredJit.Async

variable {α β ε ω : Type}

/-! ## What goes on unnoticed -/

/-- What the latch calls when it opens. -/
def Store.body? (store : Store α β) (latch : LatchId) : Option β := (store.latches[latch]?).map (·.body)

/-- Waiters may have run or changed places, but none have come, and latches call what they did. -/
structure World.Sequel (world next : World α β ε ω) : Prop where
  waiters : next.store.waiters ⊆ world.store.waiters
  held : ∀ latch, next.store.body? latch = world.store.body? latch
  registrations : next.registrations = world.registrations
  outer : next.outer = world.outer

/-- And all cells are as they were. -/
structure World.Quiet (world next : World α β ε ω) : Prop extends World.Sequel world next where
  cells : next.store.cells = world.store.cells

namespace World

variable {world between next : World α β ε ω}

theorem Sequel.trans (first : world.Sequel between) (second : between.Sequel next) : world.Sequel next where
  waiters _ member := first.waiters (second.waiters member)
  held latch := (second.held latch).trans (first.held latch)
  registrations := second.registrations.trans first.registrations
  outer := second.outer.trans first.outer

theorem Sequel.of_store (world : World α β ε ω) {store : Store α β} (fewer : store.waiters ⊆ world.store.waiters)
    (latches : store.latches = world.store.latches) : world.Sequel { world with store } where
  waiters := fewer
  held latch := by
    unfold Store.body?
    rw [latches]
  registrations := rfl
  outer := rfl

namespace Quiet

theorem refl (world : World α β ε ω) : world.Quiet world where
  waiters _ member := member
  held _ := rfl
  registrations := rfl
  outer := rfl
  cells := rfl

theorem trans (first : world.Quiet between) (second : between.Quiet next) : world.Quiet next where
  toSequel := first.toSequel.trans second.toSequel
  cells := second.cells.trans first.cells

theorem log (quiet : world.Quiet next) {event : Event α ε} (unregistered : event.registration? = none) :
    world.Quiet (next.log event) where
  waiters := quiet.waiters
  held := quiet.held
  registrations := by
    rw [World.registrations_log, unregistered]
    exact quiet.registrations
  outer := quiet.outer
  cells := quiet.cells

theorem arriveAt (quiet : world.Quiet next) (latch : LatchId) :
    world.Quiet { next with store := (next.store.arriveAt latch).2 } where
  waiters := by
    rw [Store.waiters_of_cells_eq (next.store.cells_arriveAt latch)]
    exact quiet.waiters
  held other := (next.store.arriveAt_held latch other).trans (quiet.held other)
  registrations := quiet.registrations
  outer := quiet.outer
  cells := (next.store.cells_arriveAt latch).trans quiet.cells

/-- If nothing comes of any turn, nothing comes of all of them. -/
theorem eachIsolated {body : Waiter α β → Action α β ε ω Unit} {waiters : List (Waiter α β)}
    (each : ∀ waiter ∈ waiters, ∀ between, world.Quiet between →
      ∃ next, body waiter between = (.ok (), next) ∧ between.Quiet next) :
    ∃ next, Act.eachIsolated body waiters world = (.ok (), next) ∧ world.Quiet next := by
  induction waiters generalizing world with
  | nil => exact ⟨world, rfl, .refl world⟩
  | cons waiter waiters ih =>
    obtain ⟨between, ran, first⟩ := each waiter List.mem_cons_self world (.refl world)
    obtain ⟨next, rest, later⟩ := ih fun other member another quiet =>
      each other (List.mem_cons_of_mem _ member) another (first.trans quiet)
    exact ⟨next, (Act.eachIsolated_cons_ok ran waiters).trans rest, first.trans later⟩

end Quiet

/-! ## Decisions that are taken -/

/-- Nothing comes of those who wait, whenever they run. -/
def Harmless (world : World α β ε ω) (fire : Fire α β ε ω) : Prop :=
  ∀ waiter ∈ world.store.waiters, ∀ between : World α β ε ω,
    (∀ latch, between.store.body? latch = world.store.body? latch) →
    ∃ next, fire waiter between = (.ok (), next) ∧ between.Quiet next

variable {fire : Fire α β ε ω} {id : CellId} {kind : CellKind}

/-- An outcome that a cell is open to is taken. -/
theorem Harmless.resolve (harmless : world.Harmless fire) {outcome : Outcome α}
    (opened : world.store.Open id (.settle outcome) kind) :
    ∃ next, Async.resolve fire id outcome world = (.ok true, next) ∧ world.Sequel next ∧
      world.store.Decides next.store id (.settle outcome) kind := by
  obtain ⟨waiters, store, settled⟩ := Store.settle_iff_open.2 ⟨kind, opened⟩
  have handed := Store.waiters_settle settled
  have given : world.Sequel { world with store } :=
    .of_store world (fun _ left => handed.mem_iff.1 (List.mem_append_right _ left))
      (Store.aligned_settle settled).latches
  have turns : ∃ next, Act.eachIsolated fire waiters { world with store } = (.ok (), next) ∧
      World.Quiet { world with store } next :=
    Quiet.eachIsolated fun waiter member between quiet =>
      harmless waiter (handed.mem_iff.1 (List.mem_append_left _ member)) between
        fun latch => (quiet.held latch).trans (given.held latch)
  obtain ⟨next, ran, quiet⟩ := turns
  refine ⟨next, ?_, given.trans quiet.toSequel, ?_⟩
  · rw [resolve_apply, settled]
    exact Act.bind_ok ran
  · exact (Store.outline_of_cells_eq quiet.cells).trans (Store.decides_settle opened settled)

/-- A link that a cell is open to is taken. -/
theorem Harmless.forward (harmless : world.Harmless fire) (sound : world.store.Sound) {target : CellId}
    (bound : target < world.store.cells.size) (opened : world.store.Open id (.link target) kind) :
    ∃ next, Async.forward fire id target world = (.ok (.ok ()), next) ∧ world.Sequel next ∧
      world.store.Decides next.store id (.link target) kind := by
  obtain ⟨waiters, store, linked⟩ := (Store.linkTo_iff_open sound.grounded).2 ⟨kind, opened⟩
  have handed := Store.waiters_linkTo linked
  have decides := Store.decides_linkTo opened linked
  have aligned := Store.aligned_linkTo linked
  have inside : target < store.cells.size := aligned.size ▸ bound
  have later : store.Sound := sound.linkTo bound linked
  have among : ∀ waiter ∈ waiters, waiter ∈ world.store.waiters :=
    fun _ member => handed.mem_iff.1 (List.mem_append_left _ member)
  have given : world.Sequel { world with store } :=
    .of_store world (fun _ left => handed.mem_iff.1 (List.mem_append_right _ left)) aligned.latches
  rw [forward_apply, linked]
  by_cases available : (store.state target).isSome
  · -- Those who waited run.
    have turns : ∃ next, Act.eachIsolated (hand fire target) waiters { world with store } = (.ok (), next) ∧
        World.Quiet { world with store } next := by
      apply Quiet.eachIsolated
      intro waiter member between quiet
      have refused : between.store.park target waiter = none := by
        refine ((later.of_cells_eq quiet.cells).park_eq_none_iff ?_ waiter).2 ?_
        · exact quiet.cells ▸ inside
        · rw [Store.state_of_cells_eq quiet.cells]
          exact available
      rw [hand_apply, refused]
      exact harmless waiter (among waiter member) between fun latch => (quiet.held latch).trans (given.held latch)
    obtain ⟨next, ran, quiet⟩ := turns
    exact ⟨next, Act.bind_ok ran, given.trans quiet.toSequel,
      (Store.outline_of_cells_eq quiet.cells).trans decides⟩
  · -- They go on waiting, at the end of the other chain.
    obtain ⟨ending, found, -, shown⟩ := later.cell?_last inside
    have pending : ending.outcome = none := by
      rw [← shown]
      simpa using available
    have parked : Act.eachIsolated (hand fire target) waiters { world with store } =
        (.ok (), { world with store := store.put (store.last target) (ending.queue waiters) }) :=
      eachIsolated_hand_park fire later.grounded rfl found pending waiters
    refine ⟨_, Act.bind_ok parked, .of_store world (fun waiter member => ?_) aligned.latches, ?_⟩
    · have moved := (Store.waiters_put found (ending.queue waiters)).mem_iff.1 (List.mem_append_left _ member)
      simp only [List.mem_append, Cell.queue] at moved
      rcases moved with old | front | new
      · exact given.waiters old
      · exact given.waiters (Store.mem_waiters.2 ⟨_, ending, found, front⟩)
      · exact among waiter new
    · have kept : (store.put (store.last target) (ending.queue waiters)).outline = store.outline :=
        Store.outline_put_of_eq found rfl
      exact kept.trans decides

end World

/-! ## Silent callbacks -/

namespace Script

variable {α : Type}

/-- The callback neither panics nor does anything with cells. -/
def Callback.Silent : Callback α → Prop
  | .mk _ actions panic => actions = [] ∧ panic = none

/-- The continuation calls a silent callback if it calls any, and passes nothing on. -/
def Silent (store : Store α (Reaction α)) : Continuation α (Reaction α) → Prop
  | .call reaction => reaction.callback.Silent
  | .arrive latch => ∀ reaction, store.body? latch = some reaction → reaction.callback.Silent
  | .derive .. => False

/-- All that wait are silent. -/
def SilentWaiters (world : Scene α) : Prop :=
  ∀ waiter ∈ world.store.waiters, Silent world.store waiter.continuation

variable {world next : Scene α}

theorem Silent.congr {store later : Store α (Reaction α)} {continuation : Continuation α (Reaction α)}
    (silent : Silent store continuation)
    (held : ∀ latch, later.body? latch = store.body? latch) :
    Silent later continuation := by
  cases continuation with
  | call => exact silent
  | arrive latch => exact fun reaction here => silent reaction ((held latch).symm.trans here)
  | derive => exact silent

theorem SilentWaiters.sequel (silent : SilentWaiters world) (sequel : world.Sequel next) : SilentWaiters next :=
  fun waiter member => (silent waiter (sequel.waiters member)).congr sequel.held

theorem react_silent (valueText : α → String) (fire : Firing α) {reaction : Reaction α}
    (silent : reaction.callback.Silent) (seen : Option (Outcome α)) (world : Scene α) :
    ∃ next, react valueText fire reaction seen world = (.ok (), next) ∧ world.Quiet next := by
  obtain ⟨told, ⟨tag, actions, panic⟩⟩ := reaction
  obtain ⟨rfl, rfl⟩ := silent
  cases told with
  | false =>
    refine ⟨world.log (.noted (.started tag)), ?_, (World.Quiet.refl world).log rfl⟩
    simp only [react, answer, performEach]
    rfl
  | true =>
    have announced : world.Quiet (world.log (.noted (.announced tag seen))) := (World.Quiet.refl world).log rfl
    refine ⟨(world.log (.noted (.announced tag seen))).log (.noted (.started tag)), ?_, announced.log rfl⟩
    simp only [react, answer, performEach]
    rfl

theorem fireWithin_silent (valueText : α → String) {depth : Nat} (deep : 0 < depth)
    {waiter : Waiter α (Reaction α)} (silent : Silent world.store waiter.continuation) :
    ∃ next, fireWithin (react valueText) depth waiter world = (.ok (), next) ∧ world.Quiet next := by
  obtain ⟨depth, rfl⟩ := Nat.exists_eq_add_of_lt deep
  rw [Nat.zero_add]
  have ran : world.Quiet (world.run waiter) := (World.Quiet.refl world).log rfl
  change ∃ next, run (react valueText (fireWithin (react valueText) depth)) (fireWithin (react valueText) depth)
    waiter world = (.ok (), next) ∧ world.Quiet next
  cases kind : waiter.continuation with
  | call reaction =>
    rw [kind] at silent
    rw [run_call _ _ _ kind]
    obtain ⟨next, answered, quiet⟩ := react_silent valueText (fireWithin (react valueText) depth) silent
      (world.store.state waiter.home) (world.run waiter)
    exact ⟨next, answered, ran.trans quiet⟩
  | arrive latch =>
    rw [kind] at silent
    have arrived := ran.arriveAt latch
    rw [run_arrive _ _ _ kind]
    cases taken : world.store.arriveAt latch with
    | mk called store =>
      rw [World.run_store, taken] at arrived
      cases called with
      | none => exact ⟨_, rfl, arrived⟩
      | some reaction =>
        have body : world.store.body? latch = some reaction := by
          have first := world.store.arriveAt_fst latch
          rw [taken] at first
          split at first
          · exact first.symm
          · cases first
        obtain ⟨next, answered, quiet⟩ := react_silent valueText (fireWithin (react valueText) depth)
          (silent reaction body) none (({ world.run waiter with store } : Scene α).log (.opened latch))
        exact ⟨next, answered, (arrived.log rfl).trans quiet⟩
  | derive =>
    rw [kind] at silent
    exact silent.elim

/-- A step of a script is deep enough for those who wait to run. -/
theorem SilentWaiters.harmless (silent : SilentWaiters world) (valueText : α → String) {depth : Nat}
    (deep : world.store.weight Reaction.weight ≤ depth) : world.Harmless (fireWithin (react valueText) depth) := by
  intro waiter member between held
  have light : 1 ≤ regime.tariff.waiter waiter := regime.one_le_waiter waiter
  have among : regime.tariff.waiter waiter ≤ regime.tariff.store world.store :=
    Nat.le_trans (le_total _ member) (Nat.le_add_right _ _)
  have stored : regime.tariff.store world.store = world.store.weight Reaction.weight :=
    tariff_store Reaction.weight world.store
  exact fireWithin_silent valueText (by omega) ((silent waiter member).congr held)

end Script

end DeferredJit.Async
