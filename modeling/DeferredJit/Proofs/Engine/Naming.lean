import DeferredJit.Proofs.Engine.Selection
import DeferredJit.Proofs.Kernel.ShapeNames

/-! Names of executables for certain shapes. A handle has one executable for the same shapes, and
different shapes have different names, so a name in a log stands for one executable of the handle. -/

set_option autoImplicit false

namespace DeferredJit.Engine

open Async (CellId Steps)

/-- No handle has two executables for the same shapes. -/
def Keyed (world : EngineWorld) : Prop := ∀ id, ((World.table world id).map Prod.fst).Nodup

namespace Keyed

variable {setup : Setup} {rules : Rules} {scope : Scope} {cost budget : Nat} {world next : EngineWorld}
  {before after : EngineMoment}

theorem congr (keyed : Keyed world) (tables : ∀ id, World.table next id = World.table world id) : Keyed next :=
  fun id => tables id ▸ keyed id

theorem addition (keyed : Keyed world) (step : Addition scope world cost next) : Keyed next := by
  -- A new executable is put off or made at once; its shapes are not in the table yet.
  rcases step.kinds with plain | ⟨-, id, handle, specializer, key, lacks, rfl | rfl⟩
  · exact keyed.congr plain.table
  · exact World.keys_fitted keyed lacks {}
  · exact World.keys_fitted keyed lacks _

theorem adds (keyed : Keyed world) (adds : Adds scope world budget next) : Keyed next := by
  induction adds with
  | refl => exact keyed
  | tail _ step _ ih => exact ih.addition step

theorem step (keyed : Keyed before.world) (fit : Fit before) (step : Step setup rules before after) :
    Keyed after.world := by
  cases step with
  | routine step => exact keyed.congr fun id => by rw [World.table, Fit.outer_routine step]; rfl
  | stage ran =>
    have proceeds := fit.proceeds ran
    exact keyed.adds proceeds.adds
  | grow adds => exact keyed.adds adds
  | take found ran =>
    exact (keyed.congr (noneAsked_taken found).tables).adds (fit.prepares found ran).1
  | _ => exact keyed.congr fun _ => rfl

theorem start : Keyed initial := fun _ => List.nodup_nil

theorem steps (keyed : Keyed before.world) (fit : Fit before) (steps : Steps (Step setup rules) before after) :
    Keyed after.world :=
  fit.carry (fun moment => Keyed moment.world) steps keyed fun step fit keyed => keyed.step fit step

theorem names {handle : Handle} (keyed : Keyed world) (member : handle ∈ world.outer.handles)
    (fingerprint : ShapeKey → UInt64) :
    (handle.specializations.map fun entry => entry.1.name fingerprint).Nodup := by
  obtain ⟨id, found⟩ := List.mem_iff_getElem?.1 member
  have distinct := keyed id
  rw [World.table_of_found found] at distinct
  have injective : Function.Injective (ShapeKey.name fingerprint) := fun _ _ => ShapeKey.name_inj
  have named := distinct.map injective
  rwa [List.map_map] at named

end Keyed

/-- The text of shapes is that of no other shapes, and it is the part of their name before the fingerprint.
So different shapes have different names, whatever fingerprints they are given, and no handle ever has two
executables of the same name. -/
theorem names_tell_shapes_apart (setup : Setup) (rules : Rules) :
    (∀ first second : ShapeKey, first.text = second.text ↔ first = second) ∧
    (∀ (fingerprint : ShapeKey → UInt64) (key : ShapeKey),
      Text.beforeLast '_' (key.name fingerprint) = key.text) ∧
    (∀ (fingerprint other : ShapeKey → UInt64) (first second : ShapeKey), first ≠ second →
      first.name fingerprint ≠ second.name other) ∧
    ∀ moment, Steps (Step setup rules) ⟨[], initial⟩ moment → ∀ handle ∈ moment.world.outer.handles,
      ∀ fingerprint : ShapeKey → UInt64,
        (handle.specializations.map fun entry => entry.1.name fingerprint).Nodup := by
  refine ⟨fun first second => ⟨ShapeKey.text_inj, congrArg ShapeKey.text⟩, ShapeKey.beforeLast_name,
    fun _ _ _ _ apart same => apart (ShapeKey.name_inj same), ?_⟩
  intro moment reached handle member fingerprint
  have keyed : Keyed moment.world := Keyed.start.steps fit_initial reached
  exact keyed.names member fingerprint

/-- Executables for a matrix and its transpose, each beside a scalar, whose fingerprints are the same. -/
theorem names_tell_shapes_apart_colliding :
    let kernel : Kernel := ⟨"scale", ⟨[⟨.f32, [.dynamic, .dynamic]⟩, ⟨.f32, []⟩], []⟩, fun _ => ⟨[], .returned⟩⟩
    let specializer : Specializer := fun generic _ => .ok (.ok generic)
    let wide : Memref := ⟨.f32, [], 0, [2, 3], [3, 1], rfl, rfl⟩
    let tall : Memref := ⟨.f32, [], 0, [3, 2], [2, 1], rfl, rfl⟩
    let scalar : Memref := ⟨.f32, [], 0, [], [], rfl, rfl⟩
    ∃ world, Runs failing .guarded initial [.wrap (.ok ⟨kernel, some specializer⟩) .enabled 2,
        .select 0 [wide, scalar], .select 0 [tall, scalar]] world ∧
      ∃ handle ∈ world.outer.handles, ∃ names : List String,
        (handle.specializations.map fun entry => entry.1.name fun _ => 26) = names ∧
        names = ["<2x3xf32,f32>_1a", "<3x2xf32,f32>_1a"] ∧ names.Nodup := by
  intro kernel specializer wide tall scalar
  let handle : Handle := { generic := kernel, genericCell := 0, specializer := some specializer, mode := .enabled,
                           limit := 2
                           specializations := [(.ofMemrefs [wide, scalar], 1), (.ofMemrefs [tall, scalar], 2)] }
  have run : Runs failing .guarded initial [.wrap (.ok ⟨kernel, some specializer⟩) .enabled 2,
      .select 0 [wide, scalar], .select 0 [tall, scalar]] _ :=
    .cons trivial rfl (.inl trivial) (.cons trivial rfl (.inl trivial) (.cons trivial rfl (.inl trivial) .nil))
  have reached := run.steps trivial (fun _ _ => trivial) fit_initial
  have member : handle ∈ _ := List.mem_singleton_self handle
  have distinct := (names_tell_shapes_apart failing .guarded).2.2.2 _ reached handle member fun _ => 26
  exact ⟨_, run, handle, member, _, rfl, by decide, distinct⟩

end DeferredJit.Engine
