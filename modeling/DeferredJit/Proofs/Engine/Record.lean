import DeferredJit.Proofs.Engine.Machine

/-! What is on record: the calls of outside parties that an engine has taken note of. -/

set_option autoImplicit false

namespace DeferredJit.Engine

open Async (CellId Routine)

theorem World.notices_noted (world : EngineWorld) (notice : Option Notice) :
    World.notices (World.noted world notice) = notice.toList ++ World.notices world := by
  cases notice with
  | none => rfl
  | some notice => exact World.notices_log ..

/-! ## Executables for certain shapes -/

/-- The handle and the shapes that a task makes an executable for. -/
def Job.fitting? : Job → Option (HandleId × ShapeKey)
  | specialize id _ _ key _ => some (id, key)
  | compile .. | settle .. => none

/-- The handle and the shapes that a specializer is called for. -/
def Notice.fitting? : Notice → Option (HandleId × ShapeKey)
  | specialized id _ key => some (id, key)
  | compiled .. | fetched _ | executed .. => none

/-- An addition that asks for no new executable. -/
structure Plain (world next : EngineWorld) : Prop where
  handles : next.outer.handles = world.outer.handles ∨
    ∃ handle, handle.specializations = [] ∧ next.outer.handles = world.outer.handles ++ [handle]
  queue : ∃ more, next.outer.queue = world.outer.queue ++ more ∧ ∀ job ∈ more, job.fitting? = none
  notices : ∃ more, World.notices next = more ++ World.notices world ∧
    ∀ notice ∈ more, notice.compiled? = none ∧ notice.fitting? = none

theorem Plain.of_same {world next : EngineWorld} (outer : next.outer = world.outer)
    (notices : World.notices next = World.notices world) : Plain world next where
  handles := .inl (by rw [outer])
  queue := ⟨[], by rw [outer, List.append_nil], by simp⟩
  notices := ⟨[], notices, by simp⟩

/-- What a new executable is asked for with. -/
structure Lacks (world : EngineWorld) (id : HandleId) (handle : Handle) (specializer : Specializer)
    (key : ShapeKey) : Prop where
  found : world.outer.handles[id]? = some handle
  fresh : handle.choose key = .fresh
  made : handle.specializer = some specializer

theorem Addition.kinds {scope : Scope} {world next : EngineWorld} {cost : Nat}
    (step : Addition scope world cost next) : Plain world next ∨
      scope.chooses ∧ ∃ id handle specializer key, Lacks world id handle specializer key ∧
        (next = World.enqueue (World.fitted world id handle key {})
            (.specialize id handle.generic specializer key world.store.cells.size) ∨
          next = (World.fitted world id handle key
            { outcome := some (specialized handle.generic specializer key) }).log
              (.noted (.specialized id handle.generic.name key))) := by
  cases step with
  | specialize chooses found fresh made => exact .inr ⟨chooses, _, _, _, _, ⟨found, fresh, made⟩, .inl rfl⟩
  | specializeNow chooses found fresh made => exact .inr ⟨chooses, _, _, _, _, ⟨found, fresh, made⟩, .inr rfl⟩
  | note =>
    refine .inl ⟨.inl rfl, ⟨[], (List.append_nil _).symm, by simp⟩, [_], World.notices_log .., fun notice member => ?_⟩
    rw [List.mem_singleton.1 member]
    exact ⟨rfl, rfl⟩
  | own handles queue =>
    exact .inl ⟨.inl handles, ⟨[], by rw [queue, List.append_nil], by simp⟩, [], rfl, by simp⟩
  | addHandle _ _ empty =>
    exact .inl ⟨.inr ⟨_, empty, rfl⟩, ⟨[], (List.append_nil _).symm, by simp⟩, [], rfl, by simp⟩
  | enqueue =>
    refine .inl ⟨.inl rfl, ⟨[_], rfl, fun job member => ?_⟩, [], rfl, by simp⟩
    rw [List.mem_singleton.1 member]
    rfl
  | derive _ _ waits =>
    have made : World.notices (world.make {}) = World.notices world := rfl
    exact .inl (.of_same waits.outer ((notices_waits waits).trans made))
  | putOff _ _ _ _ _ _ waits =>
    exact .inl (.of_same (waits.outer.trans (world.outer_makeMany ..))
      ((notices_waits waits).trans (notices_makeMany ..)))
  | @gather ids call _ _ _ _ _ waits =>
    have latched : World.notices ((world.makeMany indirect call.count).latch
        ⟨ids.length, .operands call (places world call.count)⟩) = World.notices world :=
      notices_makeMany world indirect call.count
    exact .inl (.of_same (waits.outer.trans (world.outer_makeMany ..)) ((notices_waitsEach waits).trans latched))
  | _ => exact .inl (.of_same rfl rfl)

/-- Additions have nothing compiled. -/
theorem Addition.notices {scope : Scope} {world next : EngineWorld} {cost : Nat}
    (step : Addition scope world cost next) :
    ∃ more, World.notices next = more ++ World.notices world ∧ ∀ notice ∈ more, notice.compiled? = none := by
  rcases step.kinds with plain | ⟨-, id, handle, specializer, key, -, rfl | rfl⟩
  · obtain ⟨more, same, silent⟩ := plain.notices
    exact ⟨more, same, fun notice member => (silent notice member).1⟩
  · exact ⟨[], rfl, by simp⟩
  · refine ⟨[_], World.notices_log .., fun notice member => ?_⟩
    rw [List.mem_singleton.1 member]
    rfl

end DeferredJit.Engine
