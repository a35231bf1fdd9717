import DeferredJit.Proofs.Async.Contract
import DeferredJit.Proofs.Engine.Phases

/-! Contracts of what calls do: they only add, and where the pipeline is known so far they leave the
call in the phase that it has come to. Only a marshaler can make them panic. -/

set_option autoImplicit false

namespace DeferredJit.Engine

open Async (CellId Continuation)

def never : Panic → EngineWorld → Prop := fun _ _ => False

/-! ## New cells -/

theorem makePending_apply (world : EngineWorld) :
    (Async.makePending : Run CellId) world = (.ok world.store.cells.size, world.make {}) := rfl

theorem makeSettled_apply (outcome : Outcome Payload) (world : EngineWorld) :
    (Async.makeSettled outcome : Run CellId) world =
      (.ok world.store.cells.size, world.make { outcome := some outcome }) := rfl

theorem placeholders_apply (count : Nat) (world : EngineWorld) :
    placeholders count world = (.ok (places world count), world.makeMany indirect count) := by
  induction count generalizing world with
  | zero => rfl
  | succ count ih =>
    have first : (Async.makeIndirect : Run CellId) world =
        (.ok world.store.cells.size, world.make indirect) := rfl
    have same : placeholders (count + 1) = (Async.makeIndirect >>= fun first =>
        placeholders count >>= fun others => pure (first :: others)) := rfl
    rw [same, Act.bind_ok first, Act.bind_ok (ih _)]
    have size : (world.make indirect).store.cells.size = world.store.cells.size + 1 :=
      Async.Store.size_make ..
    simp [Act.pure_apply, places, Async.World.makeMany, size, List.range'_succ]

/-- The cell is there and not older than this. -/
structure Fresh (oldest : Nat) (world : EngineWorld) (cell : CellId) : Prop where
  young : oldest ≤ cell
  inside : cell < world.store.cells.size

theorem Fresh.later {oldest budget : Nat} {world next : EngineWorld} {cell : CellId} {scope : Scope}
    (fresh : Fresh oldest world cell) (adds : Adds scope world budget next) : Fresh oldest next cell :=
  ⟨fresh.young, Nat.lt_of_lt_of_le fresh.inside adds.size_le⟩

theorem Fresh.older {oldest older : Nat} {world : EngineWorld} {cell : CellId}
    (fresh : Fresh oldest world cell) (old : older ≤ oldest) : Fresh older world cell :=
  ⟨Nat.le_trans old fresh.young, fresh.inside⟩

/-- A new cell that holds an outcome. -/
theorem makeSettled_ends {world : EngineWorld} {outcome : Outcome Payload}
    (valid : Outcome.Valid world.outer.handles.length outcome) :
    (Async.makeSettled outcome : Run CellId).Ends world
      (fun cell next => Adds .plain world 0 next ∧ Fresh world.store.cells.size next cell ∧
        next.store.Holds cell outcome)
      never := by
  refine .of_ok (makeSettled_apply outcome world) ⟨.single (.make rfl rfl ?_), ⟨Nat.le_refl _, ?_⟩,
    Async.Store.holds_make world.store outcome⟩
  swap
  · simp [Async.World.make]
  intro same held
  cases held
  exact valid

theorem failAll_ends {world : EngineWorld} (ready : Ready world) (count : Nat) (failure : Failure) :
    (failAll count failure).Ends world
      (fun cells next => Adds .plain world 0 next ∧ cells.length = count ∧
        ∀ cell ∈ cells, Fresh world.store.cells.size next cell ∧ next.store.Holds cell (.error failure))
      never := by
  induction count generalizing world with
  | zero => exact .pure [] ⟨.refl, rfl, by simp⟩
  | succ count ih =>
    refine (makeSettled_ends (.error _ failure)).bind fun first between made => ?_
    obtain ⟨adds, young, held⟩ := made
    have readyBetween := adds.ready ready
    refine (ih readyBetween).bind fun others next rest => ?_
    obtain ⟨more, length, hold⟩ := rest
    refine .pure _ ⟨adds.trans more, by rw [List.length_cons, length], fun cell member => ?_⟩
    rcases List.mem_cons.1 member with rfl | later
    · exact ⟨young.later more, held.later (more.grows.keeps readyBetween.sound)⟩
    · exact ⟨(hold cell later).1.older adds.size_le, (hold cell later).2⟩

/-- There is no task for a cell that does not exist. -/
theorem Tidy.serving_unborn {world : EngineWorld} (tidy : Tidy world) :
    world.outer.serving world.store.cells.size = [] := by
  refine List.filter_eq_nil_iff.2 fun job member => ?_
  have inside := (tidy.jobs job member).target
  simpa using Nat.ne_of_lt inside

theorem serving_new {world next : EngineWorld} {job : Job} (tidy : Tidy world)
    (queue : next.outer.queue = world.outer.queue ++ [job]) (target : job.target = world.store.cells.size) :
    next.outer.serving world.store.cells.size = [job] := by
  unfold State.serving
  rw [queue, List.filter_append]
  refine (congrArg (· ++ _) tidy.serving_unborn).trans ?_
  simp [target]

theorem concrete_make (world : EngineWorld) {cell : Async.Cell Payload Stage} (concrete : cell.kind = .concrete) :
    ¬ placeable (world.make cell).store world.store.cells.size := by
  rintro ⟨other, here, kind⟩
  rw [Async.World.make, Async.Store.cell?_make, if_pos rfl] at here
  cases here
  rw [concrete] at kind
  cases kind

/-! ## Tasks that are not put off -/

/-- The outcome of a new cell is given before anybody waits for it. -/
theorem resolve_new (world other : EngineWorld) (same : other.store = (world.make {}).store)
    (fire : Async.Fire Payload Stage Notice State) (outcome : Outcome Payload) :
    Async.resolve fire world.store.cells.size outcome other =
      (.ok true, { other with store := (world.make { outcome := some outcome }).store }) := by
  have settled : other.store.settle world.store.cells.size outcome =
      some ([], (world.make { outcome := some outcome }).store) := by
    rw [same]
    refine Async.Store.settle_eq_some_iff.2 ⟨{}, ?_, rfl, rfl, rfl, ?_⟩
    · rw [Async.World.make, Async.Store.cell?_make, if_pos rfl]
    · simp only [Async.World.make, Async.Store.make, Async.Store.put]
      congr 1
      rw [Array.setIfInBounds, dif_pos (by simp), Array.set_push, dif_neg (Nat.lt_irrefl _)]
  rw [Async.resolve_apply, settled]
  rfl

/-! ## What a kernel hands back -/

theorem Promised.later {world next : EngineWorld} {budget : Nat} {name : String} {cell : CellId} {payload : Payload}
    {scope : Scope} (promised : Promised world name cell payload) (adds : Adds scope world budget next)
    (ready : Ready world) : Promised next name cell payload := by
  have keeps := adds.grows.keeps ready.sound
  have inside : cell < world.store.cells.size := by
    rcases promised.settles with ⟨⟨found, here, -⟩, -⟩ | ⟨blank, -⟩
    · exact Async.Store.lt_size_of_cell? here
    · exact blank.lt_size
  have serving := adds.serving inside
  refine ⟨fun indirect => promised.concrete (indirect.earlier keeps inside), ?_⟩
  exact promised.settles.imp (fun done => ⟨done.1.later keeps, serving.trans done.2⟩)
    fun due => ⟨adds.grows.blank due.1, serving.trans due.2⟩

theorem Delivery.later {world next : EngineWorld} {budget : Nat} {answer : Answer} {raw : Raw} {scope : Scope}
    (delivery : Delivery world answer raw) (adds : Adds scope world budget next) (ready : Ready world) :
    Delivery next answer raw := by
  unfold Delivery at delivery ⊢
  split at delivery
  · exact Promised.later delivery adds ready
  · exact Promised.later delivery adds ready
  · trivial

/-- Answers have been brought in as raw values, and tasks deliver what is still missing. -/
def Brought (world : EngineWorld) : Delivering := List.Forall₂ fun answer raw =>
  raw.1 = answer.1 ∧ HandedBack world.store answer.2 raw.2 ∧ Delivery world answer.2 raw.2

namespace Brought

variable {world next : EngineWorld} {answers : List (Nat × Answer)} {raws : List (Nat × Raw)}

theorem later {budget : Nat} {scope : Scope} (brought : Brought world answers raws)
    (adds : Adds scope world budget next) (ready : Ready world) : Brought next answers raws :=
  List.Forall₂.imp (fun _ _ same =>
    ⟨same.1, same.2.1.later (adds.grows.keeps ready.sound), same.2.2.later adds ready⟩) brought

theorem handed (brought : Brought world answers raws) : Handed world.store answers raws :=
  List.Forall₂.imp (fun _ _ same => ⟨same.1, same.2.1⟩) brought

theorem delivers (brought : Brought world answers raws) : Delivers world answers raws :=
  List.Forall₂.imp (fun _ _ same => same.2.2) brought

end Brought

section Kernels

variable (setup : Setup) (depth : Nat) {world : EngineWorld}

/-- The task that settles a new cell is put into the queue, or done at once. -/
theorem settle_ends (ready : Ready world) (name : String) {payload : Payload}
    (valid : payload.Valid world.outer.handles.length) :
    (enqueue setup (within setup (depth + 1)) (.settle name world.store.cells.size payload)).Ends (world.make {})
      (fun _ next => Adds .plain world 0 next ∧ world.store.cells.size < next.store.cells.size ∧
        Promised next name world.store.cells.size payload) never := by
  let job : Job := .settle name world.store.cells.size payload
  cases mode : setup.inline with
  | true =>
    let settled : Async.Cell Payload Stage := { outcome := some (.ok payload) }
    have given := resolve_new world (world.make {}) rfl (Later.fire (within setup depth)) (.ok payload)
    have enqueued : enqueue setup (within setup (depth + 1)) job (world.make {}) = (.ok (), world.make settled) := by
      unfold enqueue
      rw [mode, if_pos rfl]
      exact Act.bind_ok given
    have made : Addition .plain world 0 (world.make settled) := by
      refine .make rfl rfl fun outcome same result given => ?_
      cases same
      cases given
      exact valid
    exact .of_ok enqueued ⟨.single made, world.new_lt_size_make settled, concrete_make world rfl,
      .inl ⟨Async.Store.holds_make world.store _, ready.tidy.serving_unborn⟩⟩
  | false =>
    have enqueued : enqueue setup (within setup (depth + 1)) job (world.make {}) =
        (.ok (), World.enqueue (world.make {}) job) := by
      unfold enqueue
      rw [mode, if_neg Bool.false_ne_true]
      rfl
    exact .of_ok enqueued ⟨.single (.enqueue valid), world.new_lt_size_make {}, concrete_make world rfl,
      .inr ⟨Async.Store.blank_make world.store rfl rfl, serving_new ready.tidy rfl rfl⟩⟩

theorem present_ends {α : Type} (remember : String → CellId → State → State) (payload : α → Payload)
    (remembered : ∀ name cell state, (remember name cell state).handles = state.handles ∧
      (remember name cell state).queue = state.queue ∧
      (remember name cell state).cache.entries = state.cache.entries ∧
      (remember name cell state).calls = state.calls)
    (valid : ∀ value handles, (payload value).Valid handles) (ready : Ready world) (arrival : Arrival α) :
    (present setup (within setup (depth + 1)) remember payload arrival).Ends world
      (fun cell next => Adds .plain world 0 next ∧ Arrived next.store payload arrival cell ∧
        ∀ name value, arrival = .scheduled name value → Promised next name cell (payload value)) never := by
  cases arrival with
  | settled outcome =>
    have fine : Outcome.Valid world.outer.handles.length (outcome.map payload) := by
      intro result same
      cases outcome with
      | error => cases same
      | ok value =>
        cases same
        exact valid value _
    refine (makeSettled_ends fine).mono ?_ (fun _ _ => id)
    rintro cell next ⟨adds, young, holds⟩
    refine ⟨adds, ⟨young.inside, fun given same => ?_⟩, fun _ _ same => by cases same⟩
    cases same
    exact holds.state_eq (adds.ready ready).sound
  | awaited name =>
    obtain ⟨handles, queue, entries, calls⟩ := remembered name world.store.cells.size world.outer
    refine .of_ok rfl ⟨?_, ⟨world.new_lt_size_make {}, fun _ same => by cases same⟩, fun _ _ same => by cases same⟩
    exact .tail (.single (.pending world)) (.own handles queue entries (.inr calls)) (Nat.le_refl 0)
  | scheduled name value =>
    have same : present setup (within setup (depth + 1)) remember payload (.scheduled name value) =
        (Async.makePending >>= fun cell => enqueue setup (within setup (depth + 1)) (.settle name cell (payload value)) >>=
          fun _ => pure cell) := rfl
    rw [same]
    refine .after (makePending_apply world) ((settle_ends setup depth ready name (valid value _)).bind ?_)
    rintro _ next ⟨adds, inside, promised⟩
    refine .pure _ ⟨adds, ⟨inside, fun _ same => by cases same⟩, fun _ _ same => ?_⟩
    cases same
    exact promised

theorem raw_ends (ready : Ready world) (answer : Answer) :
    (raw setup (within setup (depth + 1)) answer).Ends world
      (fun raw next => Adds .plain world 0 next ∧ HandedBack next.store answer raw ∧ Delivery next answer raw)
      never := by
  cases answer with
  | token arrival =>
    refine (present_ends setup depth rememberToken (fun _ => .token) (fun _ _ _ => ⟨rfl, rfl, rfl, rfl⟩)
      (fun _ _ => trivial) ready arrival).bind fun cell next came => ?_
    obtain ⟨adds, arrived, promised⟩ := came
    refine .pure (Raw.token cell) ⟨adds, arrived, ?_⟩
    cases arrival with
    | scheduled name value => exact promised name value rfl
    | _ => trivial
  | asyncMemref arrival =>
    refine (present_ends setup depth rememberBuffer .view (fun _ _ _ => ⟨rfl, rfl, rfl, rfl⟩)
      (fun _ _ => trivial) ready arrival).bind fun cell next came => ?_
    obtain ⟨adds, arrived, promised⟩ := came
    refine .pure (Raw.asyncMemref cell) ⟨adds, arrived, ?_⟩
    cases arrival with
    | scheduled name value => exact promised name value rfl
    | _ => trivial
  | memref view => exact .pure (Raw.memref view) ⟨.refl, rfl, trivial⟩

theorem HandedBack.cells {store : EngineStore} {answer : Answer} {raw : Raw}
    (handed : HandedBack store answer raw) : ∀ cell ∈ raw.cells, cell < store.cells.size := by
  intro cell member
  cases raw with
  | memref view => cases member
  | token inner =>
    rw [List.mem_singleton.1 member]
    cases answer with
    | token => exact handed.1
    | _ => exact handed.elim
  | asyncMemref inner =>
    rw [List.mem_singleton.1 member]
    cases answer with
    | asyncMemref => exact handed.1
    | _ => exact handed.elim

/-- What a converted result is made from is there. -/
def ConvertedFits (world : EngineWorld) : Converted → Prop
  | .derived source convert => source < world.store.cells.size ∧ Converts convert
  | .settled _ => True

theorem waiter_mem {world next : EngineWorld} {id : CellId} {continuation : Continuation Payload Stage}
    (waits : world.Waits id continuation next) (duties : List EngineDuty) :
    ⟨world.store.registered, id, continuation⟩ ∈ Async.Moment.outstanding ⟨duties, next⟩ :=
  (Async.Moment.outstanding_waits duties waits).mem_iff.2 List.mem_cons_self

theorem realize_ends (later : Later) (ready : Ready world) {converted : Converted}
    (fits : ConvertedFits world converted) :
    (realize later converted).Ends world
      (fun cell next => Adds .plain world 1 next ∧ Fresh world.store.cells.size next cell ∧
        ∀ duties, Follows ⟨duties, next⟩ converted cell)
      (fun cause next => Adds .plain world 1 next ∧ ∃ source convert payload,
        converted = .derived source convert ∧ world.store.state source = some (.ok payload) ∧
          convert payload = .error cause) := by
  cases converted with
  | settled outcome =>
    have valid : Outcome.Valid world.outer.handles.length (outcome.map .value) := by
      intro result same
      cases outcome with
      | error => cases same
      | ok value =>
        cases same
        trivial
    refine (makeSettled_ends valid).mono ?_ (fun _ _ => False.elim)
    rintro cell next ⟨adds, young, holds⟩
    exact ⟨adds.mono (Nat.zero_le 1), young, fun duties => .settled holds⟩
  | derived source convert =>
    obtain ⟨bound, converts⟩ := fits
    change (Async.stateOf source >>= _).Ends world _ _
    refine .after (show Async.stateOf source world = (.ok (world.store.state source), world) from rfl) ?_
    cases shown : world.store.state source with
    | none =>
      refine .after (makePending_apply world) ?_
      have pending : (world.make {}).store.state source = none :=
        (Async.World.state_make ready.sound rfl rfl source).trans shown
      obtain ⟨next, registered, waits⟩ := Async.register_waits (ready.sound.make rfl rfl)
        (Async.World.lt_size_make bound {}) pending later.fire (.derive world.store.cells.size convert)
      have there : world.store.cells.size < next.store.cells.size := waits.size ▸ world.new_lt_size_make {}
      refine .after registered (.pure _ ⟨.single (.derive bound converts waits), ⟨Nat.le_refl _, there⟩, ?_⟩)
      exact fun duties => .waits (waiter_mem waits duties) rfl rfl
    | some outcome =>
      cases outcome with
      | error failure =>
        refine (makeSettled_ends (.error _ failure)).mono ?_ (fun _ _ => False.elim)
        rintro cell next ⟨adds, young, holds⟩
        have still := adds.shows ready shown
        exact ⟨adds.mono (Nat.zero_le 1), young, fun duties => .done still holds rfl⟩
      | ok payload =>
        -- The conversion is on record before it is known whether it panics.
        have logged : Adds .plain world 0 (world.log (.converted payload)) := .single .converted
        have recorded : (Async.record (.converted payload) : Run Unit) world =
            (.ok (), world.log (.converted payload)) := rfl
        change ((Async.record (.converted payload) >>= fun _ => Act.lift (convert payload)) >>= _).Ends
          world _ _
        rw [bind_assoc]
        refine .after recorded ?_
        cases made : convert payload with
        | error cause =>
          refine .of_panic rfl ⟨logged.mono (Nat.zero_le 1), source, convert, payload, rfl, shown, made⟩
        | ok outcome =>
          have valid := Outcome.valid_of_converts converts made
            (world.log (.converted payload)).outer.handles.length
          refine (makeSettled_ends valid).mono ?_ (fun _ _ => False.elim)
          rintro cell next ⟨adds, young, holds⟩
          have both := logged.trans adds
          exact ⟨both.mono (Nat.zero_le 1), young, fun duties => .done (both.shows ready shown) holds made⟩

/-- A slot and the cell in its place. -/
inductive Slot (oldest : Nat) (world : EngineWorld) : Option Converted → Option CellId → Prop where
  | vacant : Slot oldest world none none
  | taken {converted cell} : Fresh oldest world cell → (∀ duties, Follows ⟨duties, world⟩ converted cell) →
      Slot oldest world (some converted) (some cell)

def Filled (oldest : Nat) (world : EngineWorld) : List (Option Converted) → Slots → Prop :=
  List.Forall₂ (Slot oldest world)

def vacancies (cells : Slots) : Nat := cells.countP (·.isNone)

namespace Filled

variable {oldest : Nat} {slots : List (Option Converted)} {cells : Slots} {index : Nat}

theorem later {next : EngineWorld} {budget : Nat} {scope : Scope} (filled : Filled oldest world slots cells)
    (adds : Adds scope world budget next) (ready : Ready world) : Filled oldest next slots cells := by
  refine List.Forall₂.imp (fun slot cell holds => ?_) filled
  cases holds with
  | vacant => exact .vacant
  | taken young follows =>
    exact .taken (young.later adds) fun duties => (adds.quiet ready duties).follows (follows duties)

theorem vacant_iff (filled : Filled oldest world slots cells) :
    slots[index]? = some none ↔ cells[index]? = some none := by
  induction filled generalizing index with
  | nil => simp
  | cons holds _ ih =>
    cases index with
    | zero => cases holds <;> simp
    | succ index => simpa using ih

theorem set (filled : Filled oldest world slots cells) {converted : Converted} {cell : CellId}
    (holds : Slot oldest world (some converted) (some cell)) :
    Filled oldest world (slots.set index (some converted)) (cells.set index (some cell)) := by
  induction filled generalizing index with
  | nil => exact .nil
  | cons first rest ih =>
    cases index with
    | zero => exact .cons holds rest
    | succ index => exact .cons first ih

end Filled

theorem vacancies_set {cells : Slots} {index : Nat} (vacant : cells[index]? = some none) (cell : CellId) :
    1 + vacancies (cells.set index (some cell)) = vacancies cells := by
  induction cells generalizing index with
  | nil => simp at vacant
  | cons first rest ih =>
    cases index with
    | zero =>
      rw [List.getElem?_cons_zero, Option.some.injEq] at vacant
      subst vacant
      simp [vacancies]
      omega
    | succ index =>
      rw [List.getElem?_cons_succ] at vacant
      have others := ih vacant
      simp only [vacancies, List.set_cons_succ, List.countP_cons] at others ⊢
      omega

theorem accept_vacant {conversions : List Conversion} {types : List ResultType} {cells : Slots}
    {index : Nat} {type : ResultType} (later : Later) (declared : types[index]? = some type)
    (vacant : cells[index]? = some none) (raw : Raw) :
    accept later conversions types cells index raw =
      Act.lift (Conversion.convert index type conversions raw) >>= fun converted =>
        realize later converted >>= fun cell => pure (cells.set index (some cell)) := by
  unfold accept
  rw [declared, vacant]

theorem accept_ignored {conversions : List Conversion} {types : List ResultType} {cells : Slots}
    {index : Nat} (later : Later) (other : types[index]? = none ∨ cells[index]? ≠ some none) (raw : Raw) :
    accept later conversions types cells index raw = pure cells := by
  unfold accept
  split
  · rename_i declared vacant
    rcases other with missing | taken
    · rw [declared] at missing
      cases missing
    · exact absurd vacant taken
  · rfl

/-- An answer is accepted as the pipeline has it, or its conversion panics there as well. -/
theorem accept_ends (later : Later) {size oldest : Nat} {conversions : List Conversion}
    {types : List ResultType} {slots : List (Option Converted)} {cells : Slots} {index : Nat} {raw : Raw}
    (ready : Ready world) (sane : ∀ conversion ∈ conversions, conversion.Sane size)
    (enough : size ≤ world.store.cells.size) (old : oldest ≤ world.store.cells.size)
    (held : ∀ cell ∈ raw.cells, cell < world.store.cells.size)
    (filled : Filled oldest world slots cells) :
    (accept later conversions types cells index raw).Ends world
      (fun accepted next => ∃ after cost,
        (∀ rest, Pipeline.fill conversions types slots ((index, raw) :: rest) =
          Pipeline.fill conversions types after rest) ∧
        Filled oldest next after accepted ∧ Adds .plain world cost next ∧
        cost + vacancies accepted ≤ vacancies cells)
      (fun _ next => Adds .plain world (vacancies cells) next ∧
        Balks next.store conversions types slots [(index, raw)]) := by
  -- The first raw value for a declared result counts; all others are ignored.
  by_cases counts : (∃ type, types[index]? = some type) ∧ cells[index]? = some none
  · obtain ⟨⟨type, declared⟩, vacant⟩ := counts
    have free : slots[index]? = some none := filled.vacant_iff.2 vacant
    rw [accept_vacant later declared vacant]
    cases made : Conversion.convert index type conversions raw with
    | error cause =>
      have stopped := Pipeline.fill_panicked declared free made []
      exact .of_panic rfl ⟨.refl, .inl ⟨cause, stopped⟩⟩
    | ok converted =>
      have filling := Pipeline.fill_converted declared free made
      have fits : ConvertedFits world converted := by
        cases converted with
        | derived => exact Conversion.Sane.convert sane enough held made
        | settled => trivial
      refine .after rfl (((realize_ends later ready fits).mono (fun _ _ => id) ?_).bind ?_)
      · rintro cause next ⟨adds, source, convert, payload, rfl, shown, panicked⟩
        have some := vacancies_set vacant source
        refine ⟨adds.mono (by omega), .inr ⟨_, filling [], source, convert, payload, cause, ?_, ?_, panicked⟩⟩
        · exact List.mem_set (List.getElem?_eq_some_iff.1 free).1 _
        · exact adds.shows ready shown
      · rintro cell next ⟨adds, young, follows⟩
        refine .pure _ ⟨slots.set index (some converted), 1, filling, ?_, adds,
          Nat.le_of_eq (vacancies_set vacant cell)⟩
        exact (filled.later adds ready).set (.taken (young.older old) follows)
  · have other : types[index]? = none ∨ cells[index]? ≠ some none := by
      cases declared : types[index]? with
      | none => exact .inl rfl
      | some type => exact .inr fun vacant => counts ⟨⟨type, declared⟩, vacant⟩
    have stays : types[index]? = none ∨ slots[index]? ≠ some none :=
      other.imp_right fun taken free => taken (filled.vacant_iff.1 free)
    rw [accept_ignored later other]
    exact .pure cells ⟨slots, 0, Pipeline.fill_ignored stays, filled, .refl,
      Nat.le_of_eq (Nat.zero_add _)⟩

theorem Balks.of_fill {store : EngineStore} {conversions : List Conversion} {types : List ResultType}
    {slots after : List (Option Converted)} {raws rest : List (Nat × Raw)}
    (same : Pipeline.fill conversions types slots raws = Pipeline.fill conversions types after rest)
    (balks : Balks store conversions types after rest) : Balks store conversions types slots raws := by
  unfold Balks
  rw [same]
  exact balks

/-- Answers are taken in their order: each is brought in as a raw value, which is accepted before the next answer is
looked at. -/
inductive Taking (setup : Setup) (later : Later) (conversions : List Conversion) (types : List ResultType) :
    EngineWorld → Slots → List (Nat × Answer) → List (Nat × Raw) → Prop where
  | none {world slots} : Taking setup later conversions types world slots [] []
  | taken {world slots index answer handed between accepted after answers raws} :
      raw setup later answer world = (.ok handed, between) →
      accept later conversions types slots index handed between = (.ok accepted, after) →
      Taking setup later conversions types after accepted answers raws →
      Taking setup later conversions types world slots ((index, answer) :: answers) ((index, handed) :: raws)
  | stopped {world slots index answer handed between cause after} :
      raw setup later answer world = (.ok handed, between) →
      accept later conversions types slots index handed between = (.error (.panic cause), after) →
      Taking setup later conversions types world slots [(index, answer)] [(index, handed)]

/-- All answers are accepted in order, up to the first whose conversion panics. -/
theorem acceptAll_ends {size oldest : Nat} {conversions : List Conversion} {types : List ResultType}
    {slots : List (Option Converted)} {cells : Slots} (answers : List (Nat × Answer))
    (ready : Ready world) (sane : ∀ conversion ∈ conversions, conversion.Sane size)
    (enough : size ≤ world.store.cells.size) (old : oldest ≤ world.store.cells.size)
    (filled : Filled oldest world slots cells) :
    (acceptAll setup (within setup (depth + 1)) conversions types cells answers).Ends world
      (fun accepted next => ∃ raws after cost, Brought next answers raws ∧
        Taking setup (within setup (depth + 1)) conversions types world cells answers raws ∧
        Pipeline.fill conversions types slots raws = .ok after ∧ Filled oldest next after accepted ∧
        Adds .plain world cost next ∧ cost + vacancies accepted ≤ vacancies cells)
      (fun _ next => Adds .plain world (vacancies cells) next ∧ ∃ done rest raws, answers = done ++ rest ∧
        Brought next done raws ∧ Taking setup (within setup (depth + 1)) conversions types world cells done raws ∧
        Balks next.store conversions types slots raws) := by
  -- The budget is one cell for every result that has none yet.
  induction answers generalizing world slots cells with
  | nil => exact .pure cells ⟨[], slots, 0, .nil, .none, rfl, filled, .refl, Nat.le_of_eq (Nat.zero_add _)⟩
  | cons answer answers ih =>
    obtain ⟨index, answer⟩ := answer
    refine ((raw_ends setup depth ready answer).exact.mono (fun _ _ => id) (fun _ _ given => given.2.elim)).bind ?_
    rintro raw between ⟨handing, brought, handed, delivery⟩
    have readyBetween := brought.ready ready
    have accepted : (accept (within setup (depth + 1)) conversions types cells index raw).Ends between _ _ :=
      (accept_ends (within setup (depth + 1)) readyBetween sane (Nat.le_trans enough brought.size_le)
        (Nat.le_trans old brought.size_le) handed.cells (filled.later brought ready)).exact
    refine (accepted.mono (fun _ _ => id) ?_).bind ?_
    · rintro cause next ⟨accepting, adds, balks⟩
      have keeps := adds.grows.keeps readyBetween.sound
      have delivers := delivery.later adds readyBetween
      refine ⟨(brought.trans adds).mono (Nat.le_of_eq (Nat.zero_add _)), [(index, answer)], answers, [(index, raw)], rfl,
        ?_, .stopped handing accepting, balks⟩
      exact .cons ⟨rfl, handed.later keeps, delivers⟩ .nil
    · rintro cells' after ⟨accepting, slots', cost, filling, filled', adds, cheap⟩
      have sofar := brought.trans adds
      have keeps := adds.grows.keeps readyBetween.sound
      have delivers := delivery.later adds readyBetween
      refine (ih (sofar.ready ready) (Nat.le_trans enough sofar.size_le)
        (Nat.le_trans old sofar.size_le) filled').mono ?_ ?_
      · rintro accepted next ⟨raws, last, more, rest, taking, fill, filled'', adds', cheap'⟩
        have kept := keeps.trans (adds'.grows.keeps (sofar.ready ready).sound)
        exact ⟨(index, raw) :: raws, last, _,
          .cons ⟨rfl, handed.later kept, delivers.later adds' (sofar.ready ready)⟩ rest, .taken handing accepting taking,
          (filling raws).trans fill, filled'', sofar.trans adds', by omega⟩
      · rintro cause next ⟨adds', done, rest, raws, rfl, handed', taking, balks⟩
        have kept := keeps.trans (adds'.grows.keeps (sofar.ready ready).sound)
        exact ⟨(sofar.trans adds').mono (by omega), (index, answer) :: done, rest, (index, raw) :: raws,
          rfl, .cons ⟨rfl, handed.later kept, delivers.later adds' (sofar.ready ready)⟩ handed',
          .taken handing accepting taking, balks.of_fill (filling raws)⟩

theorem Filled.following {oldest : Nat} {slots : List (Option Converted)} {cells : Slots}
    (filled : Filled oldest world slots cells) (duties : List EngineDuty) :
    ∀ converted, some converted ∈ slots → ∃ target, Follows ⟨duties, world⟩ converted target := by
  intro converted member
  induction filled with
  | nil => cases member
  | cons slot _ ih =>
    rcases List.mem_cons.1 member with same | later
    · subst same
      cases slot with
      | taken _ follows => exact ⟨_, follows duties⟩
    · exact ih later

/-- The cell of a result, which fails if it was left out. -/
def completeOne (index : Nat) : Option CellId → Run CellId
  | some cell => pure cell
  | none => Async.makeSettled (.error (.conversion index "executable returned no value"))

theorem complete_cons (index : Nat) (slot : Option CellId) (rest : Slots) :
    complete index (slot :: rest) = completeOne index slot >>= fun cell =>
      complete (index + 1) rest >>= fun others => pure (cell :: others) := by
  cases slot <;> rfl

/-- Results that were left out fail; the others are there already. -/
theorem complete_ends {oldest : Nat} {slots : List (Option Converted)} {cells : Slots} (index : Nat)
    (ready : Ready world) (old : oldest ≤ world.store.cells.size)
    (filled : Filled oldest world slots cells) :
    (complete index cells).Ends world
      (fun results next => Adds .plain world 0 next ∧ slots.length = results.length ∧
        (∀ cell ∈ results, Fresh oldest next cell) ∧ ∀ duties place slot cell, slots[place]? = some slot →
          results[place]? = some cell → Completes ⟨duties, next⟩ (index + place) slot cell)
      never := by
  induction slots generalizing world index cells with
  | nil =>
    cases filled
    exact .pure [] ⟨.refl, rfl, by simp, by simp⟩
  | cons slot slots ih =>
    cases filled with
    | @cons _ cell _ cells first rest =>
    have started : (completeOne index cell).Ends world
        (fun found next => Adds .plain world 0 next ∧ Fresh oldest next found ∧
          ∀ duties, Completes ⟨duties, next⟩ index slot found) never := by
      cases first with
      | vacant =>
        refine (makeSettled_ends (.error _ _)).mono ?_ (fun _ _ => id)
        rintro found next ⟨adds, young, holds⟩
        exact ⟨adds, young.older old, fun _ => holds⟩
      | taken young follows => exact .pure _ ⟨.refl, young, follows⟩
    rw [complete_cons]
    refine started.bind fun found between came => ?_
    obtain ⟨adds, young, complete⟩ := came
    refine (ih (index + 1) (adds.ready ready) (Nat.le_trans old adds.size_le)
      (Filled.later rest adds ready)).bind ?_
    rintro others next ⟨more, length, younger, complete'⟩
    refine .pure _ ⟨adds.trans more, by simp [length], ?_, ?_⟩
    · intro cell member
      rcases List.mem_cons.1 member with rfl | later
      · exact young.later more
      · exact younger cell later
    · intro duties place other cell here there
      cases place with
      | zero =>
        cases here
        cases there
        exact (more.quiet (adds.ready ready) duties).completes (complete duties)
      | succ place =>
        have completes := complete' duties place other cell here there
        rwa [Nat.add_assoc, Nat.add_comm 1] at completes

/-- A kernel has handed back these raw values, which are the source of these results. -/
structure Yields (world : EngineWorld) (call : Call) (kernel : Kernel) (views : List Memref)
    (raws : List (Nat × Raw)) (slots : List (Option Converted)) : Prop where
  brought : Brought world (kernel.run views).answers raws
  filled : Pipeline.fill call.dispatcher.conversions kernel.signature.results (emptySlots kernel) raws =
    .ok slots
  following : ∀ duties converted, some converted ∈ slots →
    ∃ target, Follows ⟨duties, world⟩ converted target

theorem Yields.later {next : EngineWorld} {budget : Nat} {scope : Scope} {call : Call} {kernel : Kernel}
    {views : List Memref} {raws : List (Nat × Raw)} {slots : List (Option Converted)}
    (yields : Yields world call kernel views raws slots) (adds : Adds scope world budget next)
    (ready : Ready world) : Yields next call kernel views raws slots where
  brought := yields.brought.later adds ready
  filled := yields.filled
  following duties converted member :=
    (yields.following duties converted member).imp fun _ => (adds.quiet ready duties).follows

theorem emptySlots_filled (kernel : Kernel) (oldest : Nat) :
    Filled oldest world (emptySlots kernel) (kernel.signature.results.map fun _ => none) := by
  unfold emptySlots
  induction kernel.signature.results with
  | nil => exact .nil
  | cons _ _ ih => exact .cons .vacant ih

theorem vacancies_empty (kernel : Kernel) :
    vacancies (kernel.signature.results.map fun _ => none) = kernel.signature.results.length := by
  simp [vacancies, List.countP_replicate]

/-- It is on record that the kernel of a call is run. -/
def World.executing (world : EngineWorld) (call : Call) (kernel : Kernel) (views : List Memref) : EngineWorld :=
  world.log (.noted (.executed call.number kernel.name views))

/-- The raw values are those that a kernel hands back when it is run for a call in this world. -/
def HandsBack (world : EngineWorld) (call : Call) (kernel : Kernel) (views : List Memref) : Delivering :=
  Taking setup (within setup (depth + 1)) call.dispatcher.conversions kernel.signature.results
    (World.executing world call kernel views) (kernel.signature.results.map fun _ => none)

/-- A kernel runs to its end, or a panic stops it, which is its own or that of a conversion. -/
theorem execute_ends {call : Call} (ready : Ready world) (fits : call.Fits world.store.cells.size)
    (kernel : Kernel) (views : List Memref) :
    (execute setup (within setup (depth + 1)) call kernel views).Ends world
      (fun reply next =>
        Adds .plain (World.executing world call kernel views) kernel.signature.results.length next ∧ ∃ raws slots cells,
        HandsBack setup depth world call kernel views (kernel.run views).answers raws ∧
        Yields next call kernel views raws slots ∧ Filled world.store.cells.size next slots cells ∧
        match (kernel.run views).finish with
        | .returned => reply = .ok cells
        | .failed failure => reply = .error failure
        | .panicked _ => False)
      (fun _ next => Adds .plain (World.executing world call kernel views) kernel.signature.results.length next ∧
        ((∃ done rest raws, (kernel.run views).answers = done ++ rest ∧ Brought next done raws ∧
          HandsBack setup depth world call kernel views done raws ∧
          Balks next.store call.dispatcher.conversions kernel.signature.results (emptySlots kernel) raws) ∨
        ∃ raws slots cause, (kernel.run views).finish = .panicked cause ∧
          HandsBack setup depth world call kernel views (kernel.run views).answers raws ∧
          Yields next call kernel views raws slots)) := by
  have noted : Adds .kernel world 0 (World.executing world call kernel views) := .single (.note trivial)
  have readyNoted := noted.ready ready
  refine .after rfl (((acceptAll_ends setup depth (kernel.run views).answers readyNoted fits.dispatcher
    noted.size_le noted.size_le (emptySlots_filled kernel world.store.cells.size)).mono
      (fun _ _ => id) ?_).bind ?_)
  · rintro cause next ⟨adds, balked⟩
    rw [vacancies_empty] at adds
    exact ⟨adds, .inl balked⟩
  · rintro cells next ⟨raws, slots, cost, handed, taking, filling, filled, adds, cheap⟩
    rw [vacancies_empty] at cheap
    have all := adds.mono (by omega : cost ≤ kernel.signature.results.length)
    have yields : Yields next call kernel views raws slots := ⟨handed, filling, filled.following⟩
    cases finish : (kernel.run views).finish with
    | returned => exact .pure _ ⟨all, raws, slots, cells, taking, yields, filled, rfl⟩
    | failed failure => exact .pure _ ⟨all, raws, slots, cells, taking, yields, filled, rfl⟩
    | panicked cause => exact .of_panic rfl ⟨all, .inr ⟨raws, slots, cause, rfl, taking, yields⟩⟩

/-- Cells that a call comes to: new ones, and as many as it was asked for. -/
structure Comes (scope : Scope) (world : EngineWorld) (budget count : Nat) (holds : EngineMoment → List CellId → Prop)
    (cells : List CellId) (next : EngineWorld) : Prop where
  adds : Adds scope world budget next
  length : cells.length = count
  fresh : ∀ cell ∈ cells, Fresh world.store.cells.size next cell
  holds : ∀ duties, holds ⟨duties, next⟩ cells

namespace Comes

variable {scope : Scope} {between next : EngineWorld} {budget more count : Nat} {cells : List CellId}
  {holds : EngineMoment → List CellId → Prop}

theorem after (comes : Comes scope between more count holds cells next) (adds : Adds scope world budget between) :
    Comes scope world (budget + more) count holds cells next where
  adds := adds.trans comes.adds
  length := comes.length
  fresh cell member := (comes.fresh cell member).older adds.size_le
  holds := comes.holds

theorem widen {wider : Scope} (comes : Comes scope world budget count holds cells next)
    (within : scope.Within wider) : Comes wider world budget count holds cells next where
  adds := comes.adds.widen within
  length := comes.length
  fresh := comes.fresh
  holds := comes.holds

theorem mono {weaker : EngineMoment → List CellId → Prop} (comes : Comes scope world budget count holds cells next)
    (enough : budget ≤ more)
    (implied : Adds scope world budget next → ∀ duties, holds ⟨duties, next⟩ cells → weaker ⟨duties, next⟩ cells) :
    Comes scope world more count weaker cells next where
  adds := comes.adds.mono enough
  length := comes.length
  fresh := comes.fresh
  holds duties := implied comes.adds duties (comes.holds duties)

end Comes

theorem failAll_comes (ready : Ready world) (count : Nat) (failure : Failure) :
    (failAll count failure).Ends world
      (Comes .plain world 0 count fun moment cells => AllHold moment cells (.error failure)) never := by
  refine (failAll_ends ready count failure).mono ?_ (fun _ _ => id)
  rintro cells next ⟨adds, length, hold⟩
  exact ⟨adds, length, fun cell member => (hold cell member).1,
    fun duties cell member => (hold cell member).2⟩

/-- A kernel is run exactly if the call matches it. -/
inductive Invoked (world : EngineWorld) (call : Call) (kernel : Kernel) (views : List Memref)
    (next : EngineWorld) : Prop where
  | rejected {failure} : Pipeline.mismatch? call kernel views = some failure → Silent world next →
      Invoked world call kernel views next
  | run : Pipeline.mismatch? call kernel views = none →
      Turned call.number world [(kernel.name, views)] 0 next → Invoked world call kernel views next

/-- The results of a kernel that has run on what it hands back in this world. -/
def Results (world : EngineWorld) (call : Call) (kernel : Kernel) (views : List Memref) (moment : EngineMoment)
    (cells : List CellId) : Prop :=
  ∃ raws, Ran (fun answers raws => Delivers moment.world answers raws ∧
    HandsBack setup depth world call kernel views answers raws) moment call kernel views raws cells

/-- What a call of a kernel comes to, and whether the kernel was run for it. -/
abbrev Invokes (world : EngineWorld) (call : Call) (kernel : Kernel) (views : List Memref) (moment : EngineMoment)
    (cells : List CellId) : Prop :=
  Results setup depth world call kernel views moment cells ∧ Invoked world call kernel views moment.world

/-- What is done with the results when the kernel has stopped. -/
def conclude (kernel : Kernel) : Except Panic (Outcome Slots) → Run (List CellId)
  | .ok (.ok slots) => complete 0 slots
  | .ok (.error failure) => failAll kernel.signature.results.length failure
  | .error _ => failAll kernel.signature.results.length Pipeline.panicked

theorem invoke_eq (later : Later) (call : Call) (kernel : Kernel) (views : List Memref) :
    invoke setup later call kernel views = match Pipeline.mismatch? call kernel views with
      | some failure => failAll call.count failure
      | none => Act.attempt (execute setup later call kernel views) >>= conclude kernel := by
  unfold invoke Pipeline.mismatch?
  by_cases declared : kernel.signature.results.length ≠ call.count
  · rw [if_pos declared, if_pos declared]
  · rw [if_neg declared, if_neg declared]
    cases kernel.signature.check views with
    | error => rfl
    | ok =>
      refine congrArg (_ >>= ·) (funext fun reply => ?_)
      rcases reply with cause | failure | slots <;> rfl

theorem declared_of_matched {call : Call} {kernel : Kernel} {views : List Memref}
    (matched : Pipeline.mismatch? call kernel views = none) : kernel.signature.results.length = call.count := by
  by_contra apart
  unfold Pipeline.mismatch? at matched
  rw [if_pos apart] at matched
  cases matched

section Run

variable {call : Call} {kernel : Kernel} {views : List Memref} {between : EngineWorld} {raws : List (Nat × Raw)}
  (matched : Pipeline.mismatch? call kernel views = none) (ready : Ready world)
  (adds : Adds .plain (World.executing world call kernel views) kernel.signature.results.length between)

include matched adds

/-- Whatever comes after the kernel has been started is no run of a kernel. -/
theorem concluded_comes {cells : List CellId} {next : EngineWorld} (more : Adds .plain between 0 next)
    (length : cells.length = call.count) (fresh : ∀ cell ∈ cells, Fresh world.store.cells.size next cell)
    (results : ∀ duties, Results setup depth world call kernel views ⟨duties, next⟩ cells) :
    Comes .kernel world call.count call.count (Invokes setup depth world call kernel views) cells next := by
  have noted : Addition .kernel world 0 (World.executing world call kernel views) := .note trivial
  rw [declared_of_matched matched] at adds
  have after := adds.trans more
  refine ⟨((Adds.single noted).trans (after.widen (Scope.plain_within _))).mono (by omega), length, fresh,
    fun duties => ⟨results duties, .run matched ?_⟩⟩
  exact (Turned.note world call.number kernel.name views).after after.silent

include ready

/-- If the kernel fails or panics, or a conversion panics, all results fail in the same way. -/
theorem failed_run_ends {failure : Failure} (raws : List (Nat × Raw))
    (ran : ∀ duties next cells, Adds .plain between 0 next → AllHold ⟨duties, next⟩ cells (.error failure) →
      Ran (fun answers raws => Delivers next answers raws ∧ HandsBack setup depth world call kernel views answers raws)
        ⟨duties, next⟩ call kernel views raws cells) :
    (failAll kernel.signature.results.length failure).Ends between
      (Comes .kernel world call.count call.count (Invokes setup depth world call kernel views)) never := by
  have noted : Adds .kernel world 0 (World.executing world call kernel views) := .single (.note trivial)
  refine (failAll_comes (adds.ready (noted.ready ready)) _ failure).mono (fun cells next fails => ?_) (fun _ _ => id)
  exact concluded_comes setup depth matched adds fails.adds (fails.length.trans (declared_of_matched matched))
    (fun cell member => (fails.fresh cell member).older (Nat.le_trans noted.size_le adds.size_le))
    fun duties => ⟨raws, ran duties next cells fails.adds (fails.holds duties)⟩

/-- If the kernel returns, the results that it left out fail, and the others follow what it handed back. -/
theorem returned_run_ends {slots : List (Option Converted)} {cells : Slots}
    (taking : HandsBack setup depth world call kernel views (kernel.run views).answers raws)
    (yields : Yields between call kernel views raws slots) (filled : Filled world.store.cells.size between slots cells)
    (returned : (kernel.run views).finish = .returned) :
    (complete 0 cells).Ends between
      (Comes .kernel world call.count call.count (Invokes setup depth world call kernel views)) never := by
  have noted : Adds .kernel world 0 (World.executing world call kernel views) := .single (.note trivial)
  have readyBetween := adds.ready (noted.ready ready)
  refine (complete_ends 0 readyBetween (Nat.le_trans noted.size_le adds.size_le) filled).mono ?_ (fun _ _ => id)
  rintro results next ⟨more, length, young, completes⟩
  have yieldsNext := yields.later more readyBetween
  refine concluded_comes setup depth matched adds more ?_ young fun duties => ⟨raws, ?_⟩
  · rw [← length, Pipeline.length_fill yields.filled, emptySlots, List.length_map, declared_of_matched matched]
  · refine .ended matched yieldsNext.brought.handed ⟨yieldsNext.brought.delivers, taking⟩ yields.filled
      (yieldsNext.following duties) ?_
    rw [returned]
    refine ⟨length, fun place slot cell here there => ?_⟩
    have completes := completes duties place slot cell here there
    rwa [Nat.zero_add] at completes

end Run

/-- All results of a call of a kernel. -/
theorem invoke_ends {call : Call} (ready : Ready world) (fits : call.Fits world.store.cells.size)
    (kernel : Kernel) (views : List Memref) :
    (invoke setup (within setup (depth + 1)) call kernel views).Ends world
      (Comes .kernel world call.count call.count (Invokes setup depth world call kernel views)) never := by
  rw [invoke_eq]
  cases matched : Pipeline.mismatch? call kernel views with
  | some failure =>
    refine (failAll_comes ready call.count failure).mono (fun cells next comes => ?_) (fun _ _ => id)
    refine Comes.widen ?_ (Scope.plain_within _)
    exact comes.mono (Nat.zero_le _) fun adds _ hold => ⟨⟨[], .mismatched matched hold⟩, .rejected matched adds.silent⟩
  | none =>
    have noted : Adds .kernel world 0 (World.executing world call kernel views) := .single (.note trivial)
    have readyNoted := noted.ready ready
    refine (execute_ends setup depth ready fits kernel views).attempt.bind fun reply between ended => ?_
    rcases reply with cause | reply
    · obtain ⟨adds, balked⟩ := ended
      have readyBetween := adds.ready readyNoted
      -- It stopped at a conversion, or it panicked after its answers had been accepted.
      rcases balked with ⟨done, rest, raws, split, handed, taking, balks⟩ | ⟨raws, slots, cause, finish, taking, yields⟩
      · refine failed_run_ends setup depth matched ready adds raws fun duties next cells more hold => ?_
        have brought := Brought.later handed more readyBetween
        exact .balked matched split brought.handed ⟨brought.delivers, taking⟩
          (balks.later (more.grows.keeps readyBetween.sound)) hold
      · refine failed_run_ends setup depth matched ready adds raws fun duties next cells more hold => ?_
        have yieldsNext := yields.later more readyBetween
        refine .ended matched yieldsNext.brought.handed ⟨yieldsNext.brought.delivers, taking⟩ yields.filled
          (yieldsNext.following duties) ?_
        rw [finish]
        exact hold
    · obtain ⟨adds, raws, slots, cells, taking, yields, filled, finished⟩ := ended
      have readyBetween := adds.ready readyNoted
      cases finish : (kernel.run views).finish with
      | returned =>
        rw [finish] at finished
        subst finished
        exact returned_run_ends setup depth matched ready adds taking yields filled finish
      | failed failure =>
        rw [finish] at finished
        subst finished
        refine failed_run_ends setup depth matched ready adds raws fun duties next cells more hold => ?_
        have yieldsNext := yields.later more readyBetween
        refine .ended matched yieldsNext.brought.handed ⟨yieldsNext.brought.delivers, taking⟩ yields.filled
          (yieldsNext.following duties) ?_
        rw [finish]
        exact hold
      | panicked cause =>
        rw [finish] at finished
        exact finished.elim

end Kernels

end DeferredJit.Engine
