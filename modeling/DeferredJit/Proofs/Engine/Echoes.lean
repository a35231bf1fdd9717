import DeferredJit.Proofs.Engine.Deliveries
import DeferredJit.Proofs.Engine.Score

/-! The default conversions do not depend on the cells that a kernel hands back, only on what comes to be in
them. -/

set_option autoImplicit false

namespace DeferredJit.Engine

open Async (CellId)

/-! ## Lists that are related item by item -/

theorem forall₂_getElem? {α β : Type} {relates : α → β → Prop} {first : List α} {second : List β}
    (related : List.Forall₂ relates first second) (index : Nat) :
    Option.Rel relates first[index]? second[index]? := by
  induction related generalizing index with
  | nil => exact .none
  | cons head _ ih =>
    cases index with
    | zero => exact .some head
    | succ index => exact ih index

theorem forall₂_set {α β : Type} {relates : α → β → Prop} {first : List α} {second : List β}
    (related : List.Forall₂ relates first second) {new : α} {also : β} (same : relates new also) (index : Nat) :
    List.Forall₂ relates (first.set index new) (second.set index also) := by
  induction related generalizing index with
  | nil => exact .nil
  | cons head rest ih =>
    cases index with
    | zero => exact .cons same rest
    | succ index => exact .cons head (ih index)

namespace Pipeline

variable {shown other : Shown}

/-! ## Raw values and conversions -/

/-- What is handed back is there, and is the same in both views, if not in the same cell. -/
def Echoes (shown other : Shown) : Raw → Raw → Prop
  | .token cell, .token place | .asyncMemref cell, .asyncMemref place =>
    shown cell = other place ∧ (other place).isSome
  | .memref view, .memref same => view = same
  | _, _ => False

/-- What results are converted from is there, and is the same in both views. -/
inductive Matches (shown other : Shown) : Converted → Converted → Prop where
  | derived {cell place convert} : shown cell = other place → (other place).isSome →
      Matches shown other (.derived cell convert) (.derived place convert)
  | settled {outcome} : Matches shown other (.settled outcome) (.settled outcome)

/-- Slots are filled at the same positions. -/
abbrev SlotMatches (shown other : Shown) : Option Converted → Option Converted → Prop :=
  Option.Rel (Matches shown other)

/-- A buffer that is there is converted at once. -/
theorem convert_memref (index : Nat) (type : ElementType) (rank : Nat) (view : Memref) :
    Conversion.convert index (.memref type rank) Conversion.defaults (.memref view) =
      (tensorResult index type rank view).map .settled := by
  simp only [Conversion.defaults, Conversion.convert, Conversion.token, Conversion.asyncMemref, Conversion.memref,
    bind, Except.bind]
  cases tensorResult index type rank view <;> rfl

theorem Echoes.convert {raw echo : Raw} (echoes : Echoes shown other raw echo) (index : Nat) (type : ResultType) :
    (∃ cause, Conversion.convert index type Conversion.defaults raw = .error cause ∧
      Conversion.convert index type Conversion.defaults echo = .error cause) ∨
    ∃ converted same, Conversion.convert index type Conversion.defaults raw = .ok converted ∧
      Conversion.convert index type Conversion.defaults echo = .ok same ∧ Matches shown other converted same := by
  cases raw with
  | token cell =>
    cases echo with
    | token place =>
      cases type with
      | token => exact .inr ⟨_, _, rfl, rfl, .derived echoes.1 echoes.2⟩
      | asyncMemref | memref => exact .inr ⟨_, _, rfl, rfl, .settled⟩
    | asyncMemref | memref => exact echoes.elim
  | asyncMemref cell =>
    cases echo with
    | asyncMemref place =>
      cases type with
      | asyncMemref => exact .inr ⟨_, _, rfl, rfl, .derived echoes.1 echoes.2⟩
      | token | memref => exact .inr ⟨_, _, rfl, rfl, .settled⟩
    | token | memref => exact echoes.elim
  | memref view =>
    cases echo with
    | memref same =>
      obtain rfl : view = same := echoes
      cases type with
      | token | asyncMemref => exact .inr ⟨_, _, rfl, rfl, .settled⟩
      | memref type rank =>
        rw [convert_memref]
        cases tensorResult index type rank view with
        | error cause => exact .inl ⟨cause, rfl, rfl⟩
        | ok outcome => exact .inr ⟨_, _, rfl, rfl, .settled⟩
    | token | asyncMemref => exact echoes.elim

/-! ## Filling slots -/

/-- Raw values at the same positions. -/
abbrev AllEcho (shown other : Shown) : List (Nat × Raw) → List (Nat × Raw) → Prop :=
  List.Forall₂ fun raw echo => raw.1 = echo.1 ∧ Echoes shown other raw.2 echo.2

/-- Slots are filled alike, or the same conversion panics. -/
theorem fill_echoes (types : List ResultType) {slots others : List (Option Converted)} {raws echoes : List (Nat × Raw)}
    (same : AllEcho shown other raws echoes) (matched : List.Forall₂ (SlotMatches shown other) slots others) :
    (∃ cause, fill Conversion.defaults types slots raws = .error cause ∧
      fill Conversion.defaults types others echoes = .error cause) ∨
    ∃ filled also, fill Conversion.defaults types slots raws = .ok filled ∧
      fill Conversion.defaults types others echoes = .ok also ∧ List.Forall₂ (SlotMatches shown other) filled also := by
  induction same generalizing slots others with
  | nil => exact .inr ⟨_, _, rfl, rfl, matched⟩
  | @cons raw echo _ _ head _ ih =>
    obtain ⟨index, raw⟩ := raw
    obtain ⟨_, echo⟩ := echo
    obtain ⟨rfl, head⟩ := head
    have slot := forall₂_getElem? matched index
    cases declared : types[index]? with
    | none =>
      rw [fill_ignored (.inl declared), fill_ignored (.inl declared)]
      exact ih matched
    | some type =>
      by_cases vacant : slots[index]? = some none
      · have also : others[index]? = some none := by
          rw [vacant] at slot
          generalize others[index]? = there at slot
          cases slot with
          | some alike => cases alike; rfl
        rcases head.convert index type with ⟨cause, here, there⟩ | ⟨converted, again, here, there, alike⟩
        · exact .inl ⟨cause, fill_panicked declared vacant here _, fill_panicked declared also there _⟩
        · rw [fill_converted declared vacant here, fill_converted declared also there]
          exact ih (forall₂_set matched (.some alike) index)
      · have taken : others[index]? ≠ some none := by
          intro also
          rw [also] at slot
          generalize slots[index]? = here at slot vacant
          cases slot with
          | some alike => cases alike; exact vacant rfl
        rw [fill_ignored (.inr vacant), fill_ignored (.inr taken)]
        exact ih matched

theorem fill_append (conversions : List Conversion) (types : List ResultType) (slots : List (Option Converted))
    (raws more : List (Nat × Raw)) : fill conversions types slots (raws ++ more) =
      (fill conversions types slots raws >>= fun filled => fill conversions types filled more) := by
  induction raws generalizing slots with
  | nil => rfl
  | cons raw rest ih =>
    obtain ⟨index, raw⟩ := raw
    rw [List.cons_append]
    cases declared : types[index]? with
    | none =>
      rw [fill_ignored (.inl declared), fill_ignored (.inl declared)]
      exact ih slots
    | some type =>
      by_cases vacant : slots[index]? = some none
      · cases made : Conversion.convert index type conversions raw with
        | error cause =>
          rw [fill_panicked declared vacant made, fill_panicked declared vacant made]
          rfl
        | ok converted =>
          rw [fill_converted declared vacant made, fill_converted declared vacant made]
          exact ih _
      · rw [fill_ignored (.inr vacant), fill_ignored (.inr vacant)]
        exact ih slots

/-- What is filled once stays. -/
theorem mem_fill {conversions : List Conversion} {types : List ResultType} {slots filled : List (Option Converted)}
    {raws : List (Nat × Raw)} (came : fill conversions types slots raws = .ok filled) {converted : Converted}
    (member : some converted ∈ slots) : some converted ∈ filled := by
  induction raws generalizing slots with
  | nil =>
    cases came
    exact member
  | cons raw rest ih =>
    obtain ⟨index, raw⟩ := raw
    cases declared : types[index]? with
    | none => exact ih (fill_ignored (.inl declared) rest ▸ came) member
    | some type =>
      by_cases vacant : slots[index]? = some none
      · cases made : Conversion.convert index type conversions raw with
        | error cause =>
          rw [fill_panicked declared vacant made] at came
          cases came
        | ok new =>
          rw [fill_converted declared vacant made] at came
          refine ih came ?_
          obtain ⟨place, found⟩ := List.getElem?_of_mem member
          have apart : index ≠ place := by
            rintro rfl
            rw [vacant] at found
            cases found
          exact List.mem_of_getElem? ((List.getElem?_set_ne apart).trans found)
      · exact ih (fill_ignored (.inr vacant) rest ▸ came) member

/-! ## Results -/

theorem result_matches {slot also : Option Converted} (alike : SlotMatches shown other slot also) (index : Nat) :
    result shown index slot = result other index also := by
  cases alike with
  | none => rfl
  | some alike =>
    cases alike with
    | @derived cell place convert same => exact congrArg (Option.map _) same
    | settled => rfl

theorem balks_matches {slots others : List (Option Converted)}
    (matched : List.Forall₂ (SlotMatches shown other) slots others) :
    slots.any (balks shown) = others.any (balks other) := by
  induction matched with
  | nil => rfl
  | cons head _ ih =>
    rw [List.any_cons, List.any_cons, ih]
    unfold balks
    rw [result_matches head]

/-- There is a result where no conversion panics. -/
theorem isSome_result {slot also : Option Converted} (alike : SlotMatches shown other slot also) (index : Nat)
    (calm : balks shown slot = false) : ((result shown index slot).bind Except.toOption).isSome := by
  cases alike with
  | none => rfl
  | some alike =>
    cases alike with
    | settled => rfl
    | @derived cell place convert same there =>
      have here : (result shown 0 (some (.derived cell convert))).isSome := by
        unfold result
        rw [Option.isSome_map, same]
        exact there
      obtain ⟨made, came⟩ := Option.isSome_iff_exists.1 here
      have again : result shown index (some (.derived cell convert)) = some made := came
      cases made with
      | ok => rw [again]; rfl
      | error =>
        unfold balks at calm
        rw [came] at calm
        cases calm

variable {call again : Call} {kernel : Kernel} {views : List Memref} {raws echoes : List (Nat × Raw)}

theorem matches_empty (kernel : Kernel) :
    List.Forall₂ (SlotMatches shown other) (emptySlots kernel) (emptySlots kernel) :=
  List.forall₂_same.2 fun slot member => by
    obtain ⟨_, -, rfl⟩ := List.mem_map.1 member
    exact .none

/-- What a kernel comes to does not depend on its cells. -/
theorem invoke_echoes (same : AllEcho shown other raws echoes)
    (defaults : call.dispatcher.conversions = Conversion.defaults)
    (also : again.dispatcher.conversions = Conversion.defaults) (count : call.count = again.count) (index : Nat) :
    invoke call kernel views raws shown index = invoke again kernel views echoes other index := by
  have wrong : mismatch? call kernel views = mismatch? again kernel views := by
    unfold mismatch?
    rw [count]
  unfold invoke
  rw [wrong, defaults, also]
  cases mismatch? again kernel views with
  | some failure => rfl
  | none =>
    rcases fill_echoes kernel.signature.results same (matches_empty kernel) with
      ⟨cause, here, there⟩ | ⟨filled, others, here, there, matched⟩
    · unfold emptySlots at here there
      simp only [here, there]
    · unfold emptySlots at here there
      simp only [here, there, balks_matches matched]
      have slot := forall₂_getElem? matched index
      generalize filled[index]? = first, others[index]? = second at slot
      cases slot with
      | none => rfl
      | some alike => simp only [Option.bind_some, result_matches alike]

/-- A conversion that panics does so whatever else is handed back. -/
theorem invoke_of_balks {store : EngineStore} {more : List (Nat × Raw)} (same : AllEcho store.state other raws echoes)
    (balks : Balks store Conversion.defaults kernel.signature.results (emptySlots kernel) raws)
    (defaults : again.dispatcher.conversions = Conversion.defaults) (right : mismatch? again kernel views = none)
    (index : Nat) : invoke again kernel views (echoes ++ more) other index = some (.error panicked) := by
  unfold invoke
  rw [defaults, right]
  have filling := fill_echoes kernel.signature.results same (matches_empty kernel)
  unfold emptySlots at filling
  unfold Balks emptySlots at balks
  rcases filling with ⟨cause, here, there⟩ | ⟨filled, others, here, there, matched⟩
  · simp only [fill_append, there]
    rfl
  · rcases balks with ⟨cause, stopped⟩ | ⟨slots, same, source, convert, payload, cause, member, shown, spoiled⟩
    · rw [here] at stopped
      cases stopped
    · cases here.symm.trans same
      have stays : others.any (Pipeline.balks other) = true := by
        rw [← balks_matches matched]
        refine List.any_eq_true.2 ⟨_, member, ?_⟩
        unfold Pipeline.balks
        simp only [result, shown, Option.map_some, spoiled]
      obtain ⟨slot, among, spoils⟩ := List.any_eq_true.1 stays
      simp only [fill_append, there, bind, Except.bind]
      cases rest : fill Conversion.defaults kernel.signature.results others more with
      | error => rfl
      | ok last =>
        cases slot with
        | none => cases spoils
        | some converted =>
          have any : last.any (Pipeline.balks other) = true := List.any_eq_true.2 ⟨_, mem_fill rest among, spoils⟩
          simp only [any, if_true]

/-- A result for every position that is asked for. -/
theorem isSome_invoke (same : AllEcho shown other raws echoes)
    (defaults : call.dispatcher.conversions = Conversion.defaults) {index : Nat} (bound : index < call.count) :
    (invoke call kernel views raws shown index).isSome := by
  unfold invoke
  rw [defaults]
  cases right : mismatch? call kernel views with
  | some failure => rfl
  | none =>
    have count : kernel.signature.results.length = call.count := by
      unfold mismatch? at right
      by_contra different
      simp [different] at right
    rcases fill_echoes kernel.signature.results same (matches_empty kernel) with
      ⟨cause, here, -⟩ | ⟨filled, others, here, -, matched⟩
    · unfold emptySlots at here
      simp only [here]
      rfl
    · have inside : index < filled.length := by
        rw [length_fill here]
        unfold emptySlots
        rw [List.length_map, count]
        exact bound
      unfold emptySlots at here
      simp only [here]
      split
      · rfl
      · rename_i calm
        cases (kernel.run views).finish with
        | failed | panicked => rfl
        | returned =>
          have slot := forall₂_getElem? matched index
          rw [List.getElem?_eq_getElem inside] at slot ⊢
          have free : balks shown filled[index] = false := by
            have none := List.any_eq_false.1 (Bool.not_eq_true _ ▸ calm) _ (List.getElem_mem inside)
            simpa using none
          generalize others[index]? = second at slot
          cases slot with
          | some alike => exact isSome_result alike index free

end Pipeline

/-! ## What a kernel has handed back -/

open Pipeline

section Rest

variable {world : EngineWorld} {call again : Call} {kernel : Kernel} {views : List Memref} {raws : List (Nat × Raw)}
  {cells : List CellId}

/-- When no task is left, all that prompt answers promise is there. -/
theorem Handed.echoes {shown : Shown} {answers : List (Nat × Answer)} (handed : Handed world.store answers raws)
    (inHand : AllInHand ⟨[], world⟩ answers raws) (sound : world.store.Sound) (idle : world.outer.queue = [])
    (prompt : ∀ answer ∈ answers, answer.2.Prompt) (start : Nat)
    (shows : ∀ answer ∈ answers.zipIdx start, shown answer.2 = answer.1.2.comes) :
    AllEcho world.store.state shown raws (KernelRun.rawsFrom start answers) := by
  have landed {name : String} {cell : CellId} {payload : Payload}
      (served : Served (settling name cell payload) ⟨[], world⟩ cell) : world.store.state cell = some (.ok payload) := by
    obtain ⟨outcome, shown, rfl⟩ := served.settled sound idle
    exact shown
  -- What comes later has been delivered by its task, and nothing is awaited from outside.
  have come {α : Type} {payload : α → Payload} {arrival : Arrival α} {cell : CellId}
      (arrived : Arrived world.store payload arrival cell) (prompt : arrival.Prompt)
      (delivered : ∀ name value, arrival = .scheduled name value →
        world.store.state cell = some (.ok (payload value))) :
      world.store.state cell = arrival.comes payload := by
    cases arrival with
    | settled outcome => exact arrived.2 outcome rfl
    | awaited => exact prompt.elim
    | scheduled name value => exact delivered name value rfl
  induction handed generalizing start with
  | nil => exact .nil
  | @cons answer raw _ _ head _ ih =>
    cases inHand with
    | cons hand inHand =>
      obtain ⟨position, answer⟩ := answer
      obtain ⟨_, raw⟩ := raw
      obtain ⟨rfl, head⟩ := head
      have ready := prompt _ List.mem_cons_self
      have seen := shows _ List.mem_cons_self
      refine .cons ⟨rfl, ?_⟩ (ih inHand (fun answer member => prompt answer (List.mem_cons_of_mem _ member))
        (start + 1) fun answer member => shows answer (List.mem_cons_of_mem _ member))
      cases answer with
      | token arrival =>
        cases raw with
        | token cell =>
          have same : world.store.state cell = arrival.comes fun _ => .token := by
            refine come head ready ?_
            rintro name value rfl
            exact landed hand
          exact ⟨same.trans seen.symm, seen ▸ arrival.isSome_comes ready _⟩
        | asyncMemref | memref => exact head.elim
      | asyncMemref arrival =>
        cases raw with
        | asyncMemref cell =>
          have same : world.store.state cell = arrival.comes .view := by
            refine come head ready ?_
            rintro name value rfl
            exact landed hand
          exact ⟨same.trans seen.symm, seen ▸ arrival.isSome_comes ready _⟩
        | token | memref => exact head.elim
      | memref view =>
        cases raw with
        | memref same => exact head
        | token | asyncMemref => exact head.elim

/-- When no task is left, a call whose kernel has run shows what that comes to, whatever its cells. -/
theorem Ran.comes (ran : Ran (AllInHand ⟨[], world⟩) ⟨[], world⟩ call kernel views raws cells)
    (steady : Steady ⟨[], world⟩) (idle : world.outer.queue = []) (prompt : kernel.Prompt)
    (defaults : call.dispatcher.conversions = Conversion.defaults)
    (also : again.dispatcher.conversions = Conversion.defaults) (count : call.count = again.count) {index : Nat}
    {cell : CellId} (place : cells[index]? = some cell) (bound : index < call.count) :
    world.store.state cell = Pipeline.invoke again kernel views (kernel.run views).raws (kernel.run views).shown index ∧
      (world.store.state cell).isSome := by
  have sound := steady.fit.orderly.sound
  have all {outcome : Outcome Payload} (hold : AllHold ⟨[], world⟩ cells outcome) :
      world.store.state cell = some outcome := (hold cell (List.mem_of_getElem? place)).state_eq sound
  have wrong : mismatch? call kernel views = mismatch? again kernel views := by
    unfold mismatch?
    rw [count]
  have ready := prompt views
  -- Cells are known by their places among all answers.
  have echo {done rest : List (Nat × Answer)} (split : (kernel.run views).answers = done ++ rest)
      (handed : Handed world.store done raws) (inHand : AllInHand ⟨[], world⟩ done raws) :
      AllEcho world.store.state (kernel.run views).shown raws (KernelRun.rawsFrom 0 done) := by
    refine handed.echoes inHand sound idle (fun answer member => ?_) 0 fun answer member => ?_
    · exact ready answer (split ▸ List.mem_append_left rest member)
    · have place := List.mem_zipIdx_iff_getElem?.1 member
      unfold KernelRun.shown
      rw [split, List.getElem?_append_left (List.getElem?_eq_some_iff.1 place).1, place]
      rfl
  have rested := ran.at_rest steady place
  cases ran with
  | mismatched different hold =>
    rw [all hold]
    unfold Pipeline.invoke
    rw [← wrong, different]
    exact ⟨rfl, rfl⟩
  | @balked done rest right split handed inHand balks hold =>
    rw [all hold]
    rw [defaults] at balks
    have whole : (kernel.run views).raws = KernelRun.rawsFrom 0 done ++ KernelRun.rawsFrom done.length rest := by
      unfold KernelRun.raws KernelRun.rawsFrom
      rw [split, List.zipIdx_append, List.map_append, Nat.zero_add]
    rw [whole, invoke_of_balks (echo split handed inHand) balks also (wrong ▸ right)]
    exact ⟨rfl, rfl⟩
  | ended right handed inHand =>
    have echoes : AllEcho world.store.state (kernel.run views).shown raws (kernel.run views).raws :=
      echo (List.append_nil _).symm handed inHand
    rw [rested]
    exact ⟨invoke_echoes echoes defaults also count index, isSome_invoke echoes defaults bound⟩

/-- When no task is left, the results of a call are what it comes to, whatever its cells. -/
theorem OnTheWay.comes (under : OnTheWay (AllInHand ⟨[], world⟩) ⟨[], world⟩ call cells)
    (steady : Steady ⟨[], world⟩) (idle : world.outer.queue = []) {chosen : Outcome (Kernel × List Memref)}
    (came : Pipeline.kernel call world.outer.handles world.store.state = Pipeline.known chosen)
    (prompt : ∀ kernel views, chosen = .ok (kernel, views) → kernel.Prompt)
    (defaults : call.dispatcher.conversions = Conversion.defaults)
    (also : again.dispatcher.conversions = Conversion.defaults) (count : call.count = again.count)
    (length : cells.length = call.count) {index : Nat} {cell : CellId} (place : cells[index]? = some cell) :
    world.store.state cell = reply again chosen index ∧ (world.store.state cell).isSome := by
  obtain ⟨ends, phase, same, shows⟩ := Leads.at_rest under
  have inside := (List.getElem?_eq_some_iff.1 place).1
  have there := List.getElem?_eq_getElem (same ▸ inside : index < ends.length)
  rw [shows index cell _ place there]
  cases phase with
  | pending pending =>
    cases came.symm.trans (pending.at_rest steady).2.2
  | failed failed hold =>
    cases came.symm.trans failed
    rw [(hold _ (List.mem_of_getElem? there)).state_eq steady.fit.orderly.sound]
    exact ⟨rfl, rfl⟩
  | ran known ran =>
    cases came.symm.trans known
    exact ran.comes steady idle (prompt _ _ rfl) defaults also count there (length ▸ inside)

end Rest

end DeferredJit.Engine
