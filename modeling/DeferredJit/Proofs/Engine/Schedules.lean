import DeferredJit.Proofs.Engine.Echoes
import DeferredJit.Proofs.Engine.Plays

/-! What commands come to does not depend on when tasks run. -/

set_option autoImplicit false

namespace DeferredJit

open Async (CellId)

/-! ## What handles consist of -/

/-- A handle, with what its cells show. -/
structure Fixture where
  kernel : Kernel
  /-- The generic executable. -/
  generic : Option (Outcome Payload)
  specializer : Option Specializer
  mode : SpecializationMode
  limit : Nat
  /-- In the order in which they were asked for. -/
  specializations : List (ShapeKey × Option (Outcome Payload))

def Handle.fixture (shown : Engine.Pipeline.Shown) (handle : Handle) : Fixture where
  kernel := handle.generic
  generic := shown handle.genericCell
  specializer := handle.specializer
  mode := handle.mode
  limit := handle.limit
  specializations := handle.specializations.map fun (key, cell) => (key, shown cell)

/-- The handle of an artifact once it was called with these operands. -/
def Artifact.fixture (config : Config) (artifact : Artifact) (called : List (List Memref)) : Fixture where
  kernel := artifact.kernel
  generic := some (.ok (.executable artifact.kernel))
  specializer := artifact.specializer
  mode := config.specialization
  limit := config.maxSpecializations
  specializations := (artifact.wanted config called).map fun key =>
    (key, artifact.specializer.map fun specializer => Engine.specialized artifact.kernel specializer key)

namespace Engine

/-- What the cell of a handle shows, and the cells of the handle. -/
def World.fixture (world : EngineWorld) (cell : CellId) : Option (Outcome Fixture) :=
  match look Payload.handle? (world.store.state cell) with
  | none => none
  | some (.error failure) => some (.error failure)
  | some (.ok id) => world.outer.handles[id]?.map fun handle => .ok (handle.fixture world.store.state)

/-- The cell shows a handle of the artifact, with all the executables that it wants after these calls. -/
structure Equipped (config : Config) (world : EngineWorld) (called : List (List Memref)) (cell : CellId)
    (artifact : Artifact) (id : HandleId) (genericCell : CellId) (table : List (ShapeKey × CellId)) : Prop where
  shows : world.store.state cell = some (.ok (.handle id))
  handle : world.outer.handles[id]? = some (artifact.handle config genericCell table)
  generic : world.store.state genericCell = some (.ok (.executable artifact.kernel))
  keys : table.map Prod.fst = artifact.wanted config called
  made : ∀ entry ∈ table, ∃ specializer, artifact.specializer = some specializer ∧
    world.store.state entry.2 = some (specialized artifact.kernel specializer entry.1)

namespace Equipped

variable {config : Config} {world : EngineWorld} {called before after : List (List Memref)} {cell : CellId}
  {artifact : Artifact} {id : HandleId} {genericCell : CellId} {table : List (ShapeKey × CellId)} {call : Call}
  {views : List Memref}

theorem fixture (equipped : Equipped config world called cell artifact id genericCell table) :
    World.fixture world cell = some (.ok (artifact.fixture config called)) := by
  unfold World.fixture
  rw [equipped.shows]
  have specializations : table.map (fun (key, cell) => (key, world.store.state cell)) =
      (artifact.wanted config called).map fun key =>
        (key, artifact.specializer.map fun specializer => specialized artifact.kernel specializer key) := by
    rw [← equipped.keys, List.map_map]
    refine List.map_congr_left fun entry member => ?_
    obtain ⟨specializer, special, shown⟩ := equipped.made entry member
    simp only [special, shown, Function.comp_def, Option.map_some]
  simp only [look, Payload.handle?, Option.map_some, equipped.handle, Handle.fixture, Artifact.fixture, Artifact.handle,
    equipped.generic, specializations]

/-- The kernel for operands that the handle was called with. -/
theorem kernel (equipped : Equipped config world called cell artifact id genericCell table)
    (marshaled : Pipeline.marshal call world.store.state = Pipeline.known (.ok views)) (target : call.handle = cell)
    (turn : called = before ++ [views] ++ after) : Pipeline.kernel call world.outer.handles world.store.state =
      Pipeline.known ((selected config artifact before views).map fun kernel => (kernel, views)) := by
  have handled : Pipeline.held Payload.handle? (world.store.state call.handle) = Pipeline.known (.ok id) := by
    rw [target, equipped.shows]
    rfl
  have member : views ∈ before ++ [views] := List.mem_append_right _ List.mem_cons_self
  unfold selected
  cases checked : artifact.kernel.signature.check views with
  | error mismatch =>
    exact Pipeline.kernel_of_choice_error marshaled handled (Pipeline.choice_of_rejected equipped.handle checked)
  | ok =>
    have wants : ShapeKey.ofMemrefs views ∈ artifact.wanted config called ↔
        ShapeKey.ofMemrefs views ∈ artifact.wanted config (before ++ [views]) := by
      rw [turn]
      exact Handle.mem_wanted_append member checked
    have generic : Pipeline.held Payload.executable? (world.store.state genericCell) =
        Pipeline.known (.ok artifact.kernel) := by
      rw [equipped.generic]
      rfl
    have provided : (artifact.handle config genericCell table).specializations.map Prod.fst =
        (artifact.handle config genericCell table).wanted called := equipped.keys
    rcases Handle.choose_wanted provided (turn ▸ List.mem_append_left _ member) checked with
      ⟨wanted, executable, entry, chosen⟩ | ⟨unwanted, chosen⟩
    · obtain ⟨specializer, special, shown⟩ := equipped.made _ entry
      simp only [special]
      rw [if_pos (wants.1 wanted)]
      refine Pipeline.kernel_of_choice marshaled handled (Pipeline.choice_of_known equipped.handle checked chosen) ?_
      rw [shown]
      unfold specialized
      cases contained "specializer" (specializer artifact.kernel (ShapeKey.ofMemrefs views)) <;> rfl
    · rw [Pipeline.kernel_of_choice marshaled handled (Pipeline.choice_of_generic equipped.handle checked chosen)
        generic]
      cases special : artifact.specializer with
      | none => rfl
      | some specializer =>
        simp only
        rw [if_neg (fun wanted => unwanted (wants.2 wanted))]

end Equipped

/-! ## Entries -/

section Rest

variable {parties : Parties} {inline : Bool} {world : EngineWorld} {commands : List Command} {yield : Yield}
  {turns : List (CellId × List Memref)} (recorded : Recorded (parties.setup inline) ⟨[], world⟩ commands yield turns)
  (idle : world.outer.queue = [])

include recorded idle

/-- When no task is left, an entry shows what the first request for its key is compiled to. -/
theorem Recorded.compiled {key : CacheKey} {cell : CellId} (member : (key, cell) ∈ world.outer.cache.entries)
    {request : Request} (asked : firstAsked parties.config.keyPolicy commands key = some request) :
    match contained "compiler" (parties.compiler request parties.workers) with
    | .error failure => world.store.state cell = some (.error failure)
    | .ok artifact => ∃ id genericCell table,
        Equipped parties.config world (turnsAt turns cell) cell artifact id genericCell table := by
  have fit := recorded.kept.steady.fit
  have sound := fit.orderly.sound
  obtain ⟨first, same, served⟩ := recorded.kept.enrolled _ member
  cases asked.symm.trans same
  obtain ⟨outcome, shown, came⟩ := served.settled sound idle
  cases came with
  | failed made =>
    rw [show contained "compiler" (parties.compiler request parties.workers) = _ from made]
    exact shown
  | @made artifact genericCell table id made found =>
    rw [show contained "compiler" (parties.compiler request parties.workers) = _ from made]
    obtain ⟨inTurn, done, whole, -, suits⟩ := recorded.queues.standing _ member
    -- All calls of the handle have had their turns.
    have nobody : turnsDue ⟨[], world⟩ cell = [] := inTurn.line_at_rest fit.orderly (by rw [shown]; rfl)
    rw [nobody, List.append_nil] at whole
    obtain ⟨handle, there, provided⟩ := suits id (.inl shown)
    obtain rfl : handle = artifact.handle parties.config genericCell table := Option.some.inj (there.symm.trans found)
    refine ⟨id, genericCell, table, shown, found, ?_, whole ▸ provided, fun entry among => ?_⟩
    · exact (recorded.kept.generics _ (List.mem_of_getElem? found)).state_eq sound
    · have inTable : entry ∈ World.table world id := by
        rw [World.table_of_found found]
        exact among
      obtain ⟨handle, specializer, here, special, served⟩ := recorded.kept.fitted.served inTable
      obtain rfl := Option.some.inj (here.symm.trans found)
      obtain ⟨outcome, shown, rfl⟩ := served.settled sound idle
      exact ⟨specializer, special, shown⟩

end Rest

/-! ## Agreement -/

theorem Pipeline.marshal_congr {call again : Call} {shown other : Shown}
    (dispatcher : call.dispatcher = again.dispatcher)
    (operands : List.Forall₂ (fun cell place => shown cell = other place) call.operands again.operands) :
    marshal call shown = marshal again other := by
  have seen : call.operands.map shown = again.operands.map other := by
    revert operands
    generalize call.operands = cells, again.operands = places
    intro operands
    induction operands with
    | nil => rfl
    | cons head _ ih => rw [List.map_cons, List.map_cons, head, ih]
  have available : (call.operands.all fun cell => (shown cell).isSome) =
      again.operands.all fun cell => (other cell).isSome := by
    simpa [List.all_map, Function.comp_def] using congrArg (List.all · Option.isSome) seen
  have values : (call.operands.map fun cell => look Payload.value? (shown cell)) =
      again.operands.map fun cell => look Payload.value? (other cell) := by
    simpa [Function.comp_def] using congrArg (List.map (look Payload.value?)) seen
  unfold marshal
  rw [available, values, dispatcher]

theorem contained_eq_ok {α : Type} {party : String} {made : Made α} {value : α}
    (came : contained party made = .ok value) : made = .ok (.ok value) := by
  rcases made with cause | outcome
  · cases came
  · exact congrArg Except.ok came

theorem selected_prompt {config : Config} {artifact : Artifact} {before : List (List Memref)} {views : List Memref}
    {kernel : Kernel} (prompt : artifact.Prompt) (came : selected config artifact before views = .ok kernel) :
    kernel.Prompt := by
  unfold selected at came
  split at came
  · cases came
  · split at came
    · cases came
      exact prompt.generic
    · rename_i specializer special
      split at came
      · exact prompt.specialized special (contained_eq_ok came)
      · cases came
        exact prompt.generic

/-- The cell of a handle shows what the score has for it. -/
def HandleAgrees (parties : Parties) (world : EngineWorld) (turns : List (CellId × List Memref)) (cell : CellId) :
    Outcome (CacheKey × Artifact) → Prop
  | .error failure => world.store.state cell = some (.error failure)
  | .ok (key, artifact) => (key, cell) ∈ world.outer.cache.entries ∧ artifact.Prompt ∧
      ∃ id genericCell table, Equipped parties.config world (turnsAt turns cell) cell artifact id genericCell table

/-- What cells show is the score of the commands so far. `all` are the turns of all commands. -/
structure Agrees (parties : Parties) (world : EngineWorld) (all : List (CellId × List Memref)) (commands : List Command)
    (yield : Yield) (turns : List (CellId × List Memref)) : Prop where
  compiled : ∀ key, (Score.of parties commands).compiled.lookup key =
    (firstAsked parties.config.keyPolicy commands key).map fun request =>
      contained "compiler" (parties.compiler request parties.workers)
  handles : List.Forall₂ (HandleAgrees parties world all) yield.handles (Score.of parties commands).handles
  turns : ∀ key cell, (key, cell) ∈ world.outer.cache.entries →
    (∀ failure, world.store.state cell ≠ some (.error failure)) →
    turnsAt turns cell = turnsAt (Score.of parties commands).turns key
  values : yield.values.map world.store.state = (Score.of parties commands).values
  there : ∀ cell ∈ yield.values, (world.store.state cell).isSome

section Agreement

variable {parties : Parties} {inline : Bool} {world : EngineWorld} {all : List (CellId × List Memref)}
  {commands : List Command} {yield : Yield} {turns : List (CellId × List Memref)}

theorem Agrees.start : Agrees parties world all [] {} [] where
  compiled _ := rfl
  handles := .nil
  turns _ _ _ _ := rfl
  values := rfl
  there _ member := by cases member

theorem Agrees.give (agrees : Agrees parties world all commands yield turns) {outcome : Outcome KernelValue}
    {cell : CellId} (shown : world.store.state cell = some (outcome.map .value)) :
    Agrees parties world all (commands ++ [.give outcome]) { yield with values := yield.values ++ [cell] } turns where
  compiled key := by
    rw [Score.of_concat, firstAsked_of_silent rfl]
    exact agrees.compiled key
  handles := by
    rw [Score.of_concat]
    exact agrees.handles
  turns := by
    rw [Score.of_concat]
    exact agrees.turns
  values := by
    rw [Score.of_concat, List.map_append, agrees.values]
    exact congrArg _ (congrArg (· :: []) shown)
  there other member := by
    rcases List.mem_append.1 member with old | new
    · exact agrees.there other old
    · rw [List.mem_singleton.1 new, shown]
      rfl

theorem Agrees.reject (agrees : Agrees parties world all commands yield turns) {request : Request}
    {fault : Request.Fault} {cell : CellId} (invalid : request.validate = .error fault)
    (shown : world.store.state cell = some (.error fault.failure)) :
    Agrees parties world all (commands ++ [.compile request]) { yield with handles := yield.handles ++ [cell] }
      turns := by
  have next : Score.of parties (commands ++ [.compile request]) = { Score.of parties commands with
      handles := (Score.of parties commands).handles ++ [.error fault.failure] } := by
    rw [Score.of_concat]
    simp only [Score.next, Score.compile, invalid]
  constructor
  · intro key
    rw [next, firstAsked_of_silent (by simp only [Command.asked?, Operation.asked?, invalid])]
    exact agrees.compiled key
  · rw [next]
    exact List.rel_append agrees.handles (.cons shown .nil)
  · rw [next]
    exact agrees.turns
  · rw [next]
    exact agrees.values
  · exact agrees.there

/-- The kernel of a call is the one that the score has chosen. -/
theorem Agrees.kernel (agrees : Agrees parties world all commands yield turns) {call : Call}
    {outcome : Outcome (CacheKey × Artifact)} (handle : HandleAgrees parties world all call.handle outcome)
    {viewed : Outcome (List Memref)} (marshaled : Pipeline.marshal call world.store.state = Pipeline.known viewed)
    {rest : List (CellId × List Memref)}
    (part : (turns ++ viewed.toOption.toList.map fun views => (call.handle, views)) ++ rest = all) :
    Pipeline.kernel call world.outer.handles world.store.state =
        Pipeline.known ((Score.of parties commands).chosen parties.config outcome viewed) ∧
      ∀ kernel views, (Score.of parties commands).chosen parties.config outcome viewed = .ok (kernel, views) →
        kernel.Prompt := by
  cases viewed with
  | error failure => exact ⟨Pipeline.kernel_of_marshal_error marshaled, fun _ _ came => by cases came⟩
  | ok views =>
    cases outcome with
    | error failure =>
      have handled : Pipeline.held Payload.handle? (world.store.state call.handle) =
          Pipeline.known (.error failure) := by
        rw [show world.store.state call.handle = _ from handle]
        rfl
      exact ⟨Pipeline.kernel_of_handle_error marshaled handled, fun _ _ came => by cases came⟩
    | ok known =>
      obtain ⟨key, artifact⟩ := known
      obtain ⟨member, ready, id, genericCell, table, equipped⟩ := handle
      have there (failure : Failure) : world.store.state call.handle ≠ some (.error failure) := by
        rw [equipped.shows]
        simp
      -- Its turn comes after those that the score has so far, and before the rest.
      have turn : turnsAt all call.handle =
          turnsAt (Score.of parties commands).turns key ++ [views] ++ turnsAt rest call.handle := by
        rw [← part, turnsAt_append, turnsAt_append, turnsAt_map, if_pos rfl, agrees.turns key _ member there]
        rfl
      have chosen : (Score.of parties commands).chosen parties.config (.ok (key, artifact)) (.ok views) =
          (selected parties.config artifact (turnsAt (Score.of parties commands).turns key) views).map fun kernel =>
            (kernel, views) := by
        unfold Score.chosen
        simp only [bind, Except.bind]
        cases selected parties.config artifact (turnsAt (Score.of parties commands).turns key) views <;> rfl
      rw [chosen]
      refine ⟨equipped.kernel marshaled rfl turn, fun kernel seen came => ?_⟩
      cases picked : selected parties.config artifact (turnsAt (Score.of parties commands).turns key) views with
      | error =>
        rw [picked] at came
        cases came
      | ok =>
        rw [picked] at came
        cases came
        exact selected_prompt ready picked

section Whole

variable {whole : List Command} {final : Yield}
  (recorded : Recorded (parties.setup inline) ⟨[], world⟩ whole final all) (idle : world.outer.queue = [])

include recorded idle

theorem Agrees.compile (agrees : Agrees parties world all commands yield turns) (prompt : parties.Prompt)
    {request : Request} {cell : CellId} {rest : List Command}
    (part : commands ++ [.compile request] ++ rest = whole) (valid : request.validate = .ok ())
    (member : (request.key parties.config.keyPolicy, cell) ∈ world.outer.cache.entries) :
    Agrees parties world all (commands ++ [.compile request]) { yield with handles := yield.handles ++ [cell] }
      turns := by
  let policy := parties.config.keyPolicy
  let compiled (request : Request) := contained "compiler" (parties.compiler request parties.workers)
  -- Only the first request for a key is compiled; later ones get what it came to.
  let first := (firstAsked policy commands (request.key policy)).getD request
  have asks : (Command.compile request).asked? policy = some (request.key policy, request) := by
    simp only [Command.asked?, Operation.asked?, valid]
  have asked : firstAsked policy (commands ++ [.compile request]) (request.key policy) = some first :=
    firstAsked_concat asks
  have lookup (key : CacheKey) :
      ((Score.of parties commands).compiled ++ [(request.key policy, compiled request)]).lookup key =
        (firstAsked policy (commands ++ [.compile request]) key).map compiled := by
    rw [List.lookup_append, agrees.compiled]
    by_cases same : key = request.key policy
    · rw [same, asked, List.lookup_cons_self]
      change ((firstAsked policy commands (request.key policy)).map compiled).or _ =
        some (compiled (Option.getD _ request))
      cases firstAsked policy commands (request.key policy) <;> rfl
    · have missed : (key == request.key policy) = false := by simp [same]
      rw [firstAsked_of_ne asks same, List.lookup_cons, missed]
      exact Option.or_none
  have next : Score.of parties (commands ++ [.compile request]) = { Score.of parties commands with
      compiled := (Score.of parties commands).compiled ++ [(request.key policy, compiled request)]
      handles := (Score.of parties commands).handles ++
        [(compiled first).map fun artifact => (request.key policy, artifact)] } := by
    have found := lookup (request.key policy)
    rw [asked] at found
    rw [Score.of_concat]
    simp only [Score.next, Score.compile, valid]
    rw [show List.lookup _ _ = _ from found]
    rfl
  have askedSoFar : (parties.setup inline).Asked (commands ++ [.compile request]) (request.key policy) first := asked
  have came := recorded.compiled idle member (part ▸ askedSoFar.later rest)
  constructor
  · intro key
    rw [next]
    exact lookup key
  · rw [next]
    refine List.rel_append agrees.handles (.cons ?_ .nil)
    simp only [compiled]
    cases made : contained "compiler" (parties.compiler first parties.workers) with
    | error failure =>
      rw [made] at came
      exact came
    | ok artifact =>
      rw [made] at came
      exact ⟨member, prompt (contained_eq_ok made), came⟩
  · rw [next]
    exact agrees.turns
  · rw [next]
    exact agrees.values
  · exact agrees.there

omit idle in
/-- What has a turn at the cell of an entry has it in the score, at the key of the entry. -/
theorem turn_agrees {target cell : CellId} {key : CacheKey} {outcome : Outcome (CacheKey × Artifact)}
    (handled : HandleAgrees parties world all target outcome) (viewed : Outcome (List Memref))
    (member : (key, cell) ∈ world.outer.cache.entries)
    (sound : ∀ failure, world.store.state cell ≠ some (.error failure)) :
    (if target = cell then viewed.toOption.toList else []) = turnsAt (Score.turn? outcome viewed).toList key := by
  cases viewed with
  | error => exact ite_self _
  | ok views =>
    cases outcome with
    | error failure =>
      -- The handle has failed, so it is another one.
      have apart : target ≠ cell := fun same => sound failure (same ▸ handled)
      rw [if_neg apart]
      rfl
    | ok made =>
      obtain ⟨other, artifact⟩ := made
      have entered : (other, target) ∈ world.outer.cache.entries := handled.1
      -- Entries have distinct keys and distinct cells.
      have same : target = cell ↔ other = key := by
        constructor
        · rintro rfl
          exact congrArg Prod.fst (List.inj_on_of_nodup_map recorded.kept.ledger.cells entered member rfl)
        · rintro rfl
          exact congrArg Prod.snd (List.inj_on_of_nodup_map recorded.kept.ledger.keys entered member rfl)
      have turn : turnsAt (Score.turn? (.ok (other, artifact)) (.ok views)).toList key =
          if other = key then [views] else [] := turnsAt_map other key [views]
      rw [turn]
      simp only [same]
      rfl

/-- A call comes to what the score has for it. -/
theorem Agrees.execute (agrees : Agrees parties world all commands yield turns) {handle count number : Nat}
    {operands : List Nat} {target : CellId} {sources cells : List CellId} {viewed : Outcome (List Memref)}
    {rest : List (CellId × List Memref)}
    (part : (turns ++ viewed.toOption.toList.map fun views => (target, views)) ++ rest = all)
    (found : yield.handles[handle]? = some target)
    (read : List.Forall₂ (fun place source => yield.values[place]? = some source) operands sources)
    (length : cells.length = count)
    (marshaled : Pipeline.marshal ⟨number, parties.dispatcher, target, sources, count⟩ world.store.state =
      Pipeline.known viewed)
    (under : OnTheWay (AllInHand ⟨[], world⟩) ⟨[], world⟩ ⟨number, parties.dispatcher, target, sources, count⟩ cells) :
    Agrees parties world all (commands ++ [.execute handle operands count])
      { yield with values := yield.values ++ cells }
      (turns ++ viewed.toOption.toList.map fun views => (target, views)) := by
  let score := Score.of parties commands
  -- The cells of the call, and the places where the score finds them.
  let call : Call := ⟨number, parties.dispatcher, target, sources, count⟩
  let again : Call := ⟨0, parties.dispatcher, handle, operands, count⟩
  have steady := recorded.kept.steady
  obtain ⟨outcome, known, handled⟩ : ∃ outcome, score.handles[handle]? = some outcome ∧
      HandleAgrees parties world all target outcome := by
    have same := forall₂_getElem? agrees.handles handle
    rw [found] at same
    generalize (Score.of parties commands).handles[handle]? = there at same
    cases same with
    | some same => exact ⟨_, rfl, same⟩
  have seen : Pipeline.marshal again score.shown = Pipeline.known viewed := by
    rw [← marshaled]
    refine Pipeline.marshal_congr rfl (List.Forall₂.imp (fun place source there => ?_) read)
    unfold Score.shown
    rw [← agrees.values, List.getElem?_map, there]
    rfl
  let chosen := score.chosen parties.config outcome viewed
  obtain ⟨came, ready⟩ : Pipeline.kernel call world.outer.handles world.store.state = Pipeline.known chosen ∧ _ :=
    agrees.kernel handled marshaled part
  have next : Score.of parties (commands ++ [.execute handle operands count]) = { score with
      turns := score.turns ++ (Score.turn? outcome viewed).toList
      values := score.values ++ (List.range count).map (reply again chosen) } := by
    rw [Score.of_concat]
    simp only [Score.next, Score.execute]
    rw [show (Score.of parties commands).handles[handle]? = _ from known, show Pipeline.marshal _ _ = _ from seen]
    rfl
  have comes {index : Nat} {cell : CellId} (place : cells[index]? = some cell) :
      world.store.state cell = reply again chosen index ∧ (world.store.state cell).isSome :=
    under.comes steady idle came ready rfl rfl rfl length place
  constructor
  · intro key
    rw [next, firstAsked_of_silent rfl]
    exact agrees.compiled key
  · rw [next]
    exact agrees.handles
  · intro key cell member sound
    rw [next, turnsAt_append, turnsAt_append, turnsAt_map, agrees.turns key cell member sound]
    exact congrArg _ (turn_agrees recorded handled viewed member sound)
  · rw [next, List.map_append, agrees.values]
    refine congrArg _ (List.ext_getElem (by simp [length]) fun index here there => ?_)
    rw [List.getElem_map, List.getElem_map, List.getElem_range]
    exact (comes (List.getElem?_eq_getElem _)).1
  · intro cell member
    rcases List.mem_append.1 member with old | new
    · exact agrees.there cell old
    · obtain ⟨index, place⟩ := List.getElem?_of_mem new
      exact (comes place).2

/-- When no task is left, all cells agree with the score. -/
theorem Chronicle.agrees (prompt : parties.Prompt)
    (chronicle : Chronicle (parties.setup inline) ⟨[], world⟩ commands yield turns) {after : List Command}
    (part : commands ++ after = whole) {later : List (CellId × List Memref)} (turned : turns ++ later = all) :
    Agrees parties world all commands yield turns := by
  have sound := recorded.kept.steady.fit.orderly.sound
  induction chronicle generalizing after later with
  | start => exact .start
  | rejected _ invalid held ih =>
    exact (ih ((List.append_assoc ..).symm.trans part) turned).reject invalid (held.state_eq sound)
  | compiled _ valid member ih =>
    exact (ih ((List.append_assoc ..).symm.trans part) turned).compile recorded idle prompt part valid member
  | given _ held ih => exact (ih ((List.append_assoc ..).symm.trans part) turned).give (held.state_eq sound)
  | called _ found read length marshaled under ih =>
    exact (ih ((List.append_assoc ..).symm.trans part) ((List.append_assoc ..).symm.trans turned)).execute recorded idle
      turned found read length marshaled under

end Whole

end Agreement

/-! ## Schedules -/

/-- The handles of compilations, after all calls. -/
def Score.fixtures (config : Config) (score : Score) : List (Option (Outcome Fixture)) :=
  score.handles.map fun outcome =>
    some (outcome.map fun (key, artifact) => artifact.fixture config (turnsAt score.turns key))

/-- When no task is left, everything has come to the score of the commands. -/
theorem Plays.score {parties : Parties} {inline : Bool} {commands : List Command} {yield : Yield} {world : EngineWorld}
    (play : Plays (parties.setup inline) commands yield world) (prompt : parties.Prompt)
    (idle : world.outer.queue = []) :
    yield.handles.map (World.fixture world) = (Score.of parties commands).fixtures parties.config ∧
      yield.values.map world.store.state = (Score.of parties commands).values ∧
      ∀ cell ∈ yield.values, (world.store.state cell).isSome := by
  obtain ⟨turns, recorded⟩ := play.recorded rfl
  have agrees := recorded.chronicle.agrees recorded idle prompt (List.append_nil _) (List.append_nil _)
  refine ⟨?_, agrees.values, agrees.there⟩
  have fixture (cell : CellId) (outcome : Outcome (CacheKey × Artifact))
      (same : HandleAgrees parties world turns cell outcome) :
      World.fixture world cell = some (outcome.map fun (key, artifact) =>
        artifact.fixture parties.config (turnsAt (Score.of parties commands).turns key)) := by
    cases outcome with
    | error failure =>
      unfold World.fixture
      rw [show world.store.state cell = _ from same]
      rfl
    | ok made =>
      obtain ⟨key, artifact⟩ := made
      obtain ⟨member, -, id, genericCell, table, equipped⟩ := same
      rw [equipped.fixture, agrees.turns key cell member (by rw [equipped.shows]; simp)]
      rfl
  unfold Score.fixtures
  have handles := agrees.handles
  revert handles
  generalize yield.handles = cells, (Score.of parties commands).handles = outcomes
  intro handles
  induction handles with
  | nil => rfl
  | cons head _ ih => rw [List.map_cons, List.map_cons, fixture _ _ head, ih]

end Engine

end DeferredJit
