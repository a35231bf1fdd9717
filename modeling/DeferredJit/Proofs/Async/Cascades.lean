import DeferredJit.Proofs.Async.Depth
import DeferredJit.Proofs.Async.Gathering

/-! Cascades of continuations come to an end, however they resolve, link and register in each other's
midst, and run what waits and what is registered, and no more. -/

set_option autoImplicit false

namespace DeferredJit.Async

variable {α β ε ω : Type}

/-! ## Counts -/

/-- What happened stays. -/
theorem Move.history {before after : Moment α β ε ω} (move : Move before after) :
    before.world.history <:+ after.world.history := by
  have once (event : Event α ε) (history : List (Event α ε)) : history <:+ event :: history := List.suffix_cons _ _
  cases move with
  | routine step =>
    cases step with
    | call | arrive | pass | skip => exact once _ _
    | opens | derive | spoil => exact (once _ _).trans (once _ _)
    | _ => exact List.suffix_refl _
  | free step =>
    cases step with
    | register | note | opened | converted => exact once _ _
    | _ => exact List.suffix_refl _

theorem history_of_moves {before after : Moment α β ε ω} (moves : Steps Move before after) :
    before.world.history <:+ after.world.history := by
  induction moves with
  | refl => exact List.suffix_refl _
  | tail _ move ih => exact ih.trans move.history

/-- Latches stay. -/
theorem Stride.latches {gives : CellId → Prop} {before after : Moment α β ε ω} (stride : Stride gives before after) :
    before.world.store.latches.length ≤ after.world.store.latches.length := by
  cases stride with
  | routine step => exact Nat.le_of_eq step.length_latches.symm
  | begin => exact Nat.le_refl _
  | deed _ deed =>
    obtain ⟨more, grown⟩ := deed.latches
    rw [grown, List.length_append]
    exact Nat.le_add_right _ _

theorem latches_of_strides {gives : CellId → Prop} {before after : Moment α β ε ω}
    (strides : Steps (Stride gives) before after) :
    before.world.store.latches.length ≤ after.world.store.latches.length := by
  induction strides with
  | refl => exact Nat.le_refl _
  | tail _ stride ih => exact Nat.le_trans ih stride.latches

/-- The latches that still miss somebody. -/
def Store.closed (store : Store α β) : List LatchId :=
  (List.range store.latches.length).filter fun latch => store.missing latch ≠ 0

/-- Every latch is closed or has opened once. -/
theorem Moment.Tallied.balance {moment : Moment α β ε ω} (tallied : moment.Tallied) :
    (moment.world.history.filterMap Event.opening?).length + moment.world.store.closed.length =
      moment.world.store.latches.length := by
  obtain ⟨duties, world⟩ := moment
  let isClosed (latch : LatchId) : Bool := world.store.missing latch ≠ 0
  -- What opened is, each once, what is not closed.
  have opened : (world.history.filterMap Event.opening?).Perm
      ((List.range world.store.latches.length).filter fun latch => !isClosed latch) := by
    rw [List.perm_iff_count]
    intro latch
    have times : (world.history.filterMap Event.opening?).count latch =
        if latch < world.store.latches.length then world.store.spent latch else 0 := tallied.timesOpened_eq latch
    rw [times, (List.nodup_range.filter _).count, Store.spent]
    simp only [List.mem_filter, List.mem_range, isClosed, ne_eq, decide_not, Bool.not_not, decide_eq_true_eq,
      ite_and]
  have both := (List.filter_append_perm isClosed (List.range world.store.latches.length)).length_eq
  rw [List.length_append, List.length_range, ← opened.length_eq] at both
  exact (Nat.add_comm _ _).trans both

namespace Script

variable {α : Type} {shallow deep : Firing α}

/-! ## Depth -/

open Act (Deepened)

mutual

theorem perform_deepened (valueText : α → String) (deeper : Deeper shallow deep) (op : Op α) :
    Deepened (perform valueText shallow op) (perform valueText deep op) := by
  cases op with
  | make kind => cases kind <;> exact .refl _
  | settle id outcome => exact .after _ fun cell => (deeper.resolve cell outcome).before _
  | forward id target => exact .after _ fun source => .after _ fun goal => (deeper.forward source goal).before _
  | afterwards id callback => exact .after _ fun cell => (deeper.register cell _).before _
  | onReady id callback => exact .after _ fun cell => (deeper.register cell _).before _
  | whenAll ids callback =>
    exact .after _ fun cells => (deeper.whenAll cells _ (answer_deepened valueText deeper callback)).before _
  | derive id convert => exact .after _ fun cell => (deeper.derived cell convert).before _
  | await id actions => exact .after _ fun cell => (performEach_deepened valueText deeper .waited actions).before _
  | _ => exact .refl _

theorem performEach_deepened (valueText : α → String) (deeper : Deeper shallow deep) (entry : Reply α → Entry α)
    (ops : List (Op α)) :
    Deepened (performEach valueText shallow entry ops) (performEach valueText deep entry ops) := by
  cases ops with
  | nil => exact .refl _
  | cons op ops =>
    exact (perform_deepened valueText deeper op).bind fun _ => .after _ fun _ =>
      performEach_deepened valueText deeper entry ops

theorem answer_deepened (valueText : α → String) (deeper : Deeper shallow deep) (callback : Callback α) :
    Deepened (answer valueText shallow callback) (answer valueText deep callback) := by
  obtain ⟨tag, actions, panic⟩ := callback
  exact .after _ fun _ => (performEach_deepened valueText deeper (.acted tag) actions).before _

end

theorem react_deepened (valueText : α → String) (deeper : Deeper shallow deep) (reaction : Reaction α)
    (seen : Option (Outcome α)) :
    Deepened (react valueText shallow reaction seen) (react valueText deep reaction seen) := by
  obtain ⟨told, ⟨tag, actions, panic⟩⟩ := reaction
  have answered := answer_deepened valueText deeper (.mk tag actions panic)
  cases told with
  | false => exact answered
  | true => exact .after _ fun _ => answered

/-! ## Whole scripts -/

section Execution

variable (valueText : α → String)

/-- A script with continuations run within continuations `depth` deep at most: what its steps reply, and
where it leads. Every step is run, also after one that panicked. -/
def execute (depth : Nat) : List (Op α) → Scene α → List (Except Interrupt (Reply α)) × Scene α
  | [], world => ([], world)
  | op :: rest, world =>
    let ran := perform valueText (fireWithin (react valueText) depth) op world
    let others := execute depth rest ran.2
    (ran.1 :: others.1, others.2)

/-- With the depth that a step takes, or more, it does the same. -/
theorem perform_eq_step {op : Op α} {world : Scene α} (ready : Ready [] world) {depth : Nat}
    (enough : op.weight + world.store.weight Reaction.weight ≤ depth) :
    perform valueText (fireWithin (react valueText) depth) op world = step valueText op world := by
  have deeper := deeper_fireWithin (fun deeper => react_deepened valueText deeper) enough
  exact (perform_deepened valueText deeper op world).resolve_left (step_done valueText op ready).1

/-- With enough depth for all that waits and for all of the script, it comes to its end. -/
theorem execute_ends (more : List (Op α)) {world : Scene α} (ready : Ready [] world) :
    ∃ replies : List (Except Interrupt (Reply α)), .error .exhausted ∉ replies ∧ replies.length = more.length ∧
      ∀ depth, weights more + world.store.weight Reaction.weight ≤ depth →
        execute valueText depth more world =
          (replies, more.foldl (fun world op => (step valueText op world).2) world) := by
  induction more generalizing world with
  | nil => exact ⟨[], List.not_mem_nil, rfl, fun _ _ => rfl⟩
  | cons op more ih =>
    obtain ⟨replies, deep, length, ends⟩ := ih (ready_step valueText op ready)
    refine ⟨(step valueText op world).1 :: replies, ?_, congrArg Nat.succ length, fun depth enough => ?_⟩
    · rw [List.mem_cons, not_or]
      exact ⟨(step_done valueText op ready).1.symm, deep⟩
    · have lighter := weight_step valueText op ready
      rw [weights] at enough
      rw [execute, perform_eq_step valueText ready (by omega), ends depth (by omega), List.foldl_cons]

end Execution

/-! ## What a cascade runs -/

/-- Every waiter that was registered has run or waits. -/
theorem waiters_balance (valueText : α → String) (script : List (Op α)) :
    let world := worldAfter valueText script
    (world.history.filterMap Event.run?).length + world.store.waiters.length =
      (world.history.filterMap Event.registration?).length := by
  intro world
  have balance := (accounted_worldAfter valueText script).balance.length_eq
  rw [List.length_append, List.length_map] at balance
  exact (Nat.add_comm _ _).trans balance.symm

/-- Cascades come to an end. Whatever continuations do in each other's midst, a script can be executed with
the depth that it and what waits weigh, and with any other that is larger leads to the same world. It does so
in finitely many small steps, throughout which all chains of links end. The waiters that it runs are those
that waited before and those that it registers, less those that it leaves waiting; the latches that it opens
are those that were closed and those that it makes, less those that it leaves closed. -/
theorem cascades_terminate (valueText : α → String) (script more : List (Op α)) :
    let before := worldAfter valueText script
    let after := worldAfter valueText (script ++ more)
    (∃ replies : List (Except Interrupt (Reply α)), .error .exhausted ∉ replies ∧ replies.length = more.length ∧
      ∀ depth, weights more + before.store.weight Reaction.weight ≤ depth →
        execute valueText depth more before = (replies, after)) ∧
    Steps Move ⟨[], before⟩ ⟨[], after⟩ ∧
    (∀ moment, Steps Move ⟨[], before⟩ moment → ∀ id,
      moment.world.store.link? (moment.world.store.last id) = none) ∧
    ∃ events made, after.history = events ++ before.history ∧
      after.store.latches.length = before.store.latches.length + made ∧
      (events.filterMap Event.run?).length + after.store.waiters.length =
        before.store.waiters.length + (events.filterMap Event.registration?).length ∧
      (events.filterMap Event.opening?).length + after.store.closed.length = before.store.closed.length + made := by
  intro before after
  refine ⟨?_, moves_of_steps (steps_append valueText script more), fun moment moves => ?_, ?_⟩
  · obtain ⟨replies, deep, length, ends⟩ := execute_ends valueText more (steps_worldAfter valueText script).1
    rw [← worldAfter_append] at ends
    exact ⟨replies, deep, length, ends⟩
  · exact ((orderly_worldAfter valueText script).keeps moves).1.sound.grounded.link?_last
  · have strides := strides_append valueText script more
    obtain ⟨events, happened⟩ := history_of_moves (moves_of_strides strides)
    obtain ⟨made, grown⟩ : ∃ made, after.store.latches.length = before.store.latches.length + made :=
      Nat.exists_eq_add_of_le (latches_of_strides strides)
    -- Both balances hold before and after, and the history has only grown.
    have counts {item : Type} (pick : Event α (Entry α) → Option item) : (after.history.filterMap pick).length =
        (events.filterMap pick).length + (before.history.filterMap pick).length := by
      rw [← List.length_append, ← List.filterMap_append]
      exact congrArg (fun history => (history.filterMap pick).length) happened.symm
    refine ⟨events, made, happened.symm, grown, ?_, ?_⟩
    · have earlier : (before.history.filterMap Event.run?).length + before.store.waiters.length =
          (before.history.filterMap Event.registration?).length := waiters_balance valueText script
      have later : (after.history.filterMap Event.run?).length + after.store.waiters.length =
          (after.history.filterMap Event.registration?).length := waiters_balance valueText (script ++ more)
      rw [counts, counts] at later
      omega
    · have earlier : (before.history.filterMap Event.opening?).length + before.store.closed.length =
          before.store.latches.length := (tallied_worldAfter valueText script).balance
      have later : (after.history.filterMap Event.opening?).length + after.store.closed.length =
          after.store.latches.length := (tallied_worldAfter valueText (script ++ more)).balance
      rw [counts] at later
      omega

end Script

end DeferredJit.Async
