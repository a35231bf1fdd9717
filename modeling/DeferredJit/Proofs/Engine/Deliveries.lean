import DeferredJit.Proofs.Engine.Callers
import DeferredJit.Proofs.Engine.Refinement
import DeferredJit.Proofs.Engine.Standing

/-! What running kernels have promised: while nobody interferes, tasks deliver it. -/

set_option autoImplicit false

namespace DeferredJit.Engine

open Async (CellId Moment Routine Steps)

/-- Outside parties leave all cells alone, and nothing panics. -/
structure Rules.Aloof (rules : Rules) : Prop where
  calm : ¬ rules.panics
  untouched : ∀ world cell, ¬ rules.touches world cell

namespace Rules

variable {rules : Rules}

theorem Aloof.polite (aloof : rules.Aloof) : rules.Polite := fun touched => (aloof.untouched _ _ touched).elim

theorem Aloof.reserved (aloof : rules.Aloof) : rules.Reserved := fun _ _ _ _ => aloof.untouched _ _

theorem aloof_closed (asks : CacheKey → Request → Prop) : (closed asks).Aloof := ⟨id, fun _ _ => id⟩

end Rules

/-! ## Tasks -/

/-- When no task is left, whatever was seen to has come. -/
theorem Served.settled {errand : Errand} {world : EngineWorld} {cell : CellId} (served : Served errand ⟨[], world⟩ cell)
    (sound : world.store.Sound) (idle : world.outer.queue = []) :
    ∃ outcome, world.store.state cell = some outcome ∧ errand.result world.outer.handles outcome := by
  rcases served.settled_or_queued sound with ⟨-, job, one, -⟩ | ⟨outcome, shown, -, result⟩
  · have member : job ∈ world.outer.serving cell := by
      rw [one]
      exact List.mem_cons_self
    rw [State.mem_serving, idle] at member
    cases member.1
  · exact ⟨outcome, shown, result⟩

/-- Every task sees to its cell alone. -/
def Tasked (moment : EngineMoment) : Prop :=
  ∀ job ∈ moment.world.outer.queue, Served .any moment job.target

namespace Tasked

variable {setup : Setup} {rules : Rules} {scope : Scope} {cost budget : Nat} {before after : EngineMoment}
  {duties : List EngineDuty} {world next : EngineWorld}

theorem addition (tasked : Tasked ⟨duties, world⟩) (fit : Fit ⟨duties, world⟩) (step : Addition scope world cost next) :
    Tasked ⟨duties, next⟩ := by
  have old {job : Job} (member : job ∈ world.outer.queue) : Served .any ⟨duties, next⟩ job.target :=
    (tasked job member).adds fit.ready (.single step)
  have queued {new : Job} (store : next.store = (world.make {}).store)
      (queue : next.outer.queue = world.outer.queue ++ [new]) (target : new.target = world.store.cells.size) :
      Tasked ⟨duties, next⟩ := by
    intro job member
    rcases List.mem_append.1 (queue ▸ member) with former | late
    · exact old former
    · rw [List.mem_singleton.1 late, target]
      exact served_queued fit store queue target trivial
  cases step with
  | specialize | enqueue => exact queued rfl rfl rfl
  | own _ queue => exact fun job member => old (queue ▸ member)
  | derive _ _ waits => exact fun job member => old (waits.outer ▸ member)
  | putOff _ _ _ _ _ _ waits =>
    intro job member
    rw [waits.outer.trans (world.outer_makeMany ..)] at member
    exact old member
  | gather _ _ _ _ waits =>
    intro job member
    rw [waits.outer.trans (world.outer_makeMany ..)] at member
    exact old member
  | _ => exact fun job member => old member

theorem adds (tasked : Tasked ⟨duties, world⟩) (fit : Fit ⟨duties, world⟩) (adds : Adds scope world budget next) :
    Tasked ⟨duties, next⟩ := by
  induction adds with
  | refl => exact tasked
  | tail before step _ ih => exact ih.addition (before.fit fit) step

theorem step (tasked : Tasked before) (fit : Fit before) (aloof : rules.Aloof) (step : Step setup rules before after) :
    Tasked after := by
  have old {job : Job} (member : job ∈ before.world.outer.queue) : Served .any after job.target :=
    (tasked job member).step (Errand.sound_any setup) fit (aloof.untouched _ _) step
  intro job member
  cases step with
  | routine step => exact old (Fit.outer_routine step ▸ member)
  | stage ran =>
    have proceeds := fit.proceeds ran
    exact (tasked.adds fit proceeds.adds job member).proceed proceeds.length
  | grow adds => exact tasked.adds fit adds job member
  | @enter key compilation world =>
    rcases List.mem_append.1 member with former | late
    · exact old former
    · obtain ⟨compilation, rfl, rfl⟩ := Option.map_eq_some_iff.1 (Option.mem_toList.1 late)
      exact (served_enter fit key compilation trivial).1
  | @take place taken outcome world next found ran =>
    have queue := ((prepared_aside setup taken).holds ran).queue
    rw [show _ = _ from queue] at member
    exact old (List.mem_of_mem_eraseIdx member)
  | _ => exact old member

theorem start : Tasked ⟨[], initial⟩ := fun _ member => by cases member

end Tasked

/-! ## Deliveries -/

/-- The task that gives a cell its value. -/
def settling (name : String) (cell : CellId) (payload : Payload) : Errand where
  task job := job = .settle name cell payload
  result _ outcome := outcome = .ok payload
  keeps _ same := same

theorem settling_sound (setup : Setup) (name : String) (cell : CellId) (payload : Payload) :
    (settling name cell payload).Sound setup := by
  rintro job world outcome next rfl ran
  cases ran
  rfl

theorem Promised.served {name : String} {cell : CellId} {payload : Payload} {duties : List EngineDuty}
    {world : EngineWorld} (promised : Promised world name cell payload) (steady : Steady ⟨duties, world⟩)
    (tasked : Tasked ⟨duties, world⟩) : Served (settling name cell payload) ⟨duties, world⟩ cell := by
  rcases promised.settles with ⟨held, idle⟩ | ⟨blank, one⟩
  · refine ⟨.landed held idle rfl, ?_, promised.concrete⟩
    by_contra owned
    have pending := (steady.blank (Nat.pos_of_ne_zero owned)).state_eq_none
    rw [held.state_eq steady.fit.orderly.sound] at pending
    cases pending
  · have member : Job.settle name cell payload ∈ world.outer.serving cell := by
      rw [one]
      exact List.mem_cons_self
    have served := tasked _ (State.mem_serving.1 member).1
    refine ⟨?_, served.unowned, promised.concrete⟩
    cases served.flight with
    | queued _ _ _ away => exact .queued blank one rfl away
    | landing _ none =>
      rw [show world.outer.serving cell = [] from none] at one
      cases one
    | landed _ none =>
      rw [show world.outer.serving cell = [] from none] at one
      cases one

/-- What a task has still to deliver is delivered by it alone. -/
def InHand (moment : EngineMoment) : Answer → Raw → Prop
  | .token (.scheduled name _), .token cell => Served (settling name cell .token) moment cell
  | .asyncMemref (.scheduled name view), .asyncMemref cell => Served (settling name cell (.view view)) moment cell
  | _, _ => True

def AllInHand (moment : EngineMoment) : Delivering :=
  List.Forall₂ fun answer raw => InHand moment answer.2 raw.2

theorem Delivers.inHand {duties : List EngineDuty} {world : EngineWorld} {answers : List (Nat × Answer)}
    {raws : List (Nat × Raw)} (delivers : Delivers world answers raws) (steady : Steady ⟨duties, world⟩)
    (tasked : Tasked ⟨duties, world⟩) : AllInHand ⟨duties, world⟩ answers raws := by
  refine List.Forall₂.imp (fun answer raw delivery => ?_) delivers
  obtain ⟨position, answer⟩ := answer
  obtain ⟨place, raw⟩ := raw
  cases answer with
  | token arrival =>
    cases arrival <;> cases raw <;> first
      | exact Promised.served delivery steady tasked
      | trivial
  | asyncMemref arrival =>
    cases arrival <;> cases raw <;> first
      | exact Promised.served delivery steady tasked
      | trivial
  | memref => trivial

section Steps

variable {setup : Setup} {rules : Rules} {before after : EngineMoment}

theorem AllInHand.step {answers : List (Nat × Answer)} {raws : List (Nat × Raw)}
    (inHand : AllInHand before answers raws) (fit : Fit before) (aloof : rules.Aloof)
    (step : Step setup rules before after) : AllInHand after answers raws := by
  have served {name : String} {cell : CellId} {payload : Payload}
      (served : Served (settling name cell payload) before cell) : Served (settling name cell payload) after cell :=
    served.step (settling_sound setup name cell payload) fit (aloof.untouched _ _) step
  refine List.Forall₂.imp (fun answer raw delivery => ?_) inHand
  obtain ⟨position, answer⟩ := answer
  obtain ⟨place, raw⟩ := raw
  cases answer with
  | token arrival => cases arrival <;> cases raw <;> first | exact served delivery | trivial
  | asyncMemref arrival => cases arrival <;> cases raw <;> first | exact served delivery | trivial
  | memref => trivial

/-- A call stays on its way, and so does what its kernel has promised. -/
theorem OnTheWay.inHand {call : Call} {cells : List CellId} (under : OnTheWay (AllInHand before) before call cells)
    (steady : Steady before) (tasked : Tasked before) (aloof : rules.Aloof) (step : Step setup rules before after) :
    OnTheWay (AllInHand after) after call cells := by
  have steadyAfter := steady.step aloof.polite step
  have weaker : OnTheWay (AllInHand after) before call cells :=
    Leads.mono under fun _ phase => phase.mono fun _ _ inHand => inHand.step steady.fit aloof step
  exact weaker.step steady aloof.calm step fun _ _ delivers =>
    delivers.inHand steadyAfter (tasked.step steady.fit aloof step)

end Steps

/-! ## Generic executables -/

/-- The generic executable of every handle is in its cell. -/
def Generics (world : EngineWorld) : Prop :=
  ∀ handle ∈ world.outer.handles, world.store.Holds handle.genericCell (.ok (.executable handle.generic))

namespace Generics

variable {setup : Setup} {rules : Rules} {scope : Scope} {cost budget : Nat} {world next : EngineWorld}
  {before after : EngineMoment}

theorem of_same (generics : Generics world) (keeps : world.store.Keeps next.store)
    (handles : next.outer.handles = world.outer.handles) : Generics next :=
  fun handle member => (generics handle (handles ▸ member)).later keeps

theorem addition (generics : Generics world) (sound : world.store.Sound) (step : Addition scope world cost next) :
    Generics next := by
  have keeps := step.grows.keeps sound
  have fitted {id : HandleId} {handle : Handle} {key : ShapeKey} {new : CellId}
      (found : world.outer.handles[id]? = some handle)
      (handles : next.outer.handles = world.outer.handles.set id (handle.specialized key new)) : Generics next := by
    intro other member
    rcases List.mem_or_eq_of_mem_set (handles ▸ member) with old | rfl
    · exact (generics other old).later keeps
    · exact (generics handle (List.mem_of_getElem? found)).later keeps
  cases step with
  | own handles => exact generics.of_same keeps handles
  | addHandle inside holds =>
    intro handle member
    rcases List.mem_append.1 member with old | new
    · exact (generics handle old).later keeps
    · rw [List.mem_singleton.1 new]
      exact holds
  | specialize _ found => exact fitted found rfl
  | specializeNow _ found => exact fitted found rfl
  | derive _ _ waits => exact generics.of_same keeps (congrArg State.handles waits.outer)
  | putOff _ _ _ _ _ _ waits =>
    exact generics.of_same keeps (congrArg State.handles (waits.outer.trans (world.outer_makeMany ..)))
  | gather _ _ _ _ waits =>
    exact generics.of_same keeps (congrArg State.handles (waits.outer.trans (world.outer_makeMany ..)))
  | _ => exact generics.of_same keeps rfl

theorem adds (generics : Generics world) (sound : world.store.Sound) (adds : Adds scope world budget next) :
    Generics next := by
  induction adds with
  | refl => exact generics
  | tail before step _ ih => exact ih.addition (before.grows.sound sound) step

theorem step (generics : Generics before.world) (fit : Fit before) (step : Step setup rules before after) :
    Generics after.world := by
  have keeps := step.keeps fit
  cases step with
  | routine step => exact generics.of_same keeps (by rw [Fit.outer_routine step])
  | stage ran =>
    have proceeds := fit.proceeds ran
    exact generics.adds fit.orderly.sound proceeds.adds
  | grow adds => exact generics.adds fit.orderly.sound adds
  | @take place job _ world _ found ran =>
    have taken : Generics (World.taken setup world place job) :=
      generics.of_same (.of_cells_eq (by rw [World.store_taken])) (by rw [World.outer_taken])
    exact taken.adds (fit.taken place job).orderly.sound (fit.prepares found ran).1
  | _ => exact generics.of_same keeps rfl

theorem start : Generics initial := fun _ member => by cases member

theorem steps (generics : Generics before.world) (fit : Fit before) (steps : Steps (Step setup rules) before after) :
    Generics after.world :=
  fit.carry (fun moment => Generics moment.world) steps generics fun step fit generics => generics.step fit step

end Generics

end DeferredJit.Engine
