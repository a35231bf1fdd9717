import DeferredJit.Proofs.Async.Soundness
import Mathlib.Logic.Function.Basic

/-! Decisions about cells, who waits where left aside: a cell is given an outcome or a link, once. Two
decisions about different cells may be made in either order. -/

set_option autoImplicit false

namespace DeferredJit.Async

variable {α β : Type}

/-! ## Outlines -/

/-- A cell without those who wait in it. -/
structure Outline (α : Type) where
  kind : CellKind
  outcome : Option (Outcome α)
  link : Option CellId

def Cell.outline (cell : Cell α β) : Outline α := ⟨cell.kind, cell.outcome, cell.link⟩

namespace Store

variable {store next : Store α β} {id : CellId}

def outline (store : Store α β) (id : CellId) : Option (Outline α) := (store.cell? id).map Cell.outline

theorem outline_of_found {cell : Cell α β} (found : store.cell? id = some cell) :
    store.outline id = some cell.outline := by
  rw [outline, found, Option.map_some]

theorem outline_put {old : Cell α β} (found : store.cell? id = some old) (new : Cell α β) :
    (store.put id new).outline = Function.update store.outline id (some new.outline) := by
  funext other
  unfold outline
  rw [cell?_put found]
  by_cases same : other = id
  · subst same
    simp
  · simp [same]

theorem outline_of_cells_eq (same : next.cells = store.cells) : next.outline = store.outline := by
  funext id
  simp only [outline, cell?, same]

/-- Only who waits has changed. -/
theorem outline_put_of_eq {old new : Cell α β} (found : store.cell? id = some old) (same : new.outline = old.outline) :
    (store.put id new).outline = store.outline := by
  rw [outline_put found, same]
  exact Function.update_eq_self_iff.2 (outline_of_found found).symm

theorem link?_eq_outline (store : Store α β) (id : CellId) : store.link? id = (store.outline id).bind (·.link) := by
  unfold link? outline
  cases store.cell? id <;> rfl

theorem last_of_outline_eq (grounded : store.Grounded) (same : next.outline = store.outline) (id : CellId) :
    next.last id = store.last id :=
  grounded.last_congr (fun other => by rw [link?_eq_outline, link?_eq_outline, same]) id

theorem state_eq_outline (store : Store α β) (id : CellId) :
    store.state id = (store.outline (store.last id)).bind (·.outcome) := by
  unfold state outline
  cases store.cell? (store.last id) <;> rfl

theorem state_of_outline_eq (grounded : store.Grounded) (same : next.outline = store.outline) (id : CellId) :
    next.state id = store.state id := by
  rw [state_eq_outline, state_eq_outline, last_of_outline_eq grounded same, same]

end Store

/-! ## Decisions -/

/-- What a cell may be given. -/
inductive Decision (α : Type) where
  | settle (outcome : Outcome α)
  | link (target : CellId)

namespace Decision

/-- The cell afterwards. -/
def outline (kind : CellKind) : Decision α → Outline α
  | .settle outcome => ⟨kind, some outcome, none⟩
  | .link target => ⟨kind, none, some target⟩

/-- Where chains end afterwards that ended in the cell. -/
def goal (store : Store α β) (id : CellId) : Decision α → CellId
  | .settle _ => id
  | .link target => store.last target

end Decision

namespace Store

/-- The cell has not been given anything, and may be given this. -/
structure Open (store : Store α β) (id : CellId) (decision : Decision α) (kind : CellKind) : Prop where
  blank : store.outline id = some ⟨kind, none, none⟩
  linkable : ∀ target, decision = .link target → kind = .indirect ∧ store.last target ≠ id

/-- The cell has been given this, and nothing else has changed but who waits where. -/
def Decides (store next : Store α β) (id : CellId) (decision : Decision α) (kind : CellKind) : Prop :=
  next.outline = Function.update store.outline id (some (decision.outline kind))

variable {store next : Store α β} {id : CellId} {decision : Decision α} {kind : CellKind}

theorem settle_iff_open {outcome : Outcome α} :
    (∃ waiters next, store.settle id outcome = some (waiters, next)) ↔
      ∃ kind, store.Open id (.settle outcome) kind := by
  constructor
  · rintro ⟨waiters, next, settled⟩
    obtain ⟨cell, found, free, unsettled, -, -⟩ := settle_eq_some_iff.1 settled
    refine ⟨cell.kind, ?_, fun target same => by cases same⟩
    rw [outline_of_found found, Cell.outline, free, unsettled]
  · rintro ⟨kind, blank, -⟩
    obtain ⟨cell, found, same⟩ := Option.map_eq_some_iff.1 blank
    injection same with _ unsettled free
    exact ⟨_, _, settle_eq_some_iff.2 ⟨cell, found, free, unsettled, rfl, rfl⟩⟩

/-- A cell that has no link is on a chain just if the chain ends there. -/
theorem Grounded.mem_chain_iff_last (grounded : store.Grounded) (free : store.link? id = none) (start : CellId) :
    id ∈ store.chain start ↔ store.last start = id := by
  obtain ⟨path, walk⟩ := grounded start
  rw [walk.chain_eq, walk.last_eq]
  constructor
  · intro member
    exact (walk.eq_getLast member free).symm
  · rintro rfl
    exact List.getLast_mem walk.ne_nil

theorem linkTo_iff_open (grounded : store.Grounded) {target : CellId} :
    (∃ waiters next, store.linkTo id target = .ok (waiters, next)) ↔ ∃ kind, store.Open id (.link target) kind := by
  constructor
  · rintro ⟨waiters, next, linked⟩
    have apart := (joins_of_linkTo grounded linked).apart
    obtain ⟨cell, found, kind, -, unsettled, free, -, -⟩ := linkTo_eq_ok_iff.1 linked
    refine ⟨cell.kind, ?_, fun other same => ?_⟩
    · rw [outline_of_found found, Cell.outline, free, unsettled]
    · cases same
      exact ⟨kind, apart⟩
  · rintro ⟨kind, blank, linkable⟩
    obtain ⟨indirect, apart⟩ := linkable target rfl
    obtain ⟨cell, found, same⟩ := Option.map_eq_some_iff.1 blank
    injection same with sameKind unsettled free
    have elsewhere : id ∉ store.chain target := by
      rwa [grounded.mem_chain_iff_last ((link?_of_cell? found).trans free)]
    exact ⟨_, _, linkTo_eq_ok_iff.2 ⟨cell, found, sameKind.trans indirect, elsewhere, unsettled, free, rfl, rfl⟩⟩

theorem decides_settle {outcome : Outcome α} {waiters : List (Waiter α β)}
    (opened : store.Open id (.settle outcome) kind) (settled : store.settle id outcome = some (waiters, next)) :
    store.Decides next id (.settle outcome) kind := by
  obtain ⟨cell, found, -, -, -, rfl⟩ := settle_eq_some_iff.1 settled
  have same := (outline_of_found found).symm.trans opened.blank
  injection same with same
  injection same with sameKind _ free
  unfold Decides
  rw [outline_put found, Decision.outline, Cell.outline, sameKind, free]

theorem decides_linkTo {target : CellId} {waiters : List (Waiter α β)}
    (opened : store.Open id (.link target) kind) (linked : store.linkTo id target = .ok (waiters, next)) :
    store.Decides next id (.link target) kind := by
  obtain ⟨cell, found, -, -, -, -, -, rfl⟩ := linkTo_eq_ok_iff.1 linked
  have same := (outline_of_found found).symm.trans opened.blank
  injection same with same
  injection same with sameKind unsettled _
  unfold Decides
  rw [outline_put found, Decision.outline, Cell.outline, sameKind, unsettled]

namespace Decides

theorem outline_other (decides : store.Decides next id decision kind) {other : CellId} (apart : other ≠ id) :
    next.outline other = store.outline other := by
  rw [decides, Function.update_of_ne apart]

/-- Chains go on to where the decision leads. -/
theorem last_eq (decides : store.Decides next id decision kind) (opened : store.Open id decision kind)
    (grounded : store.Grounded) (other : CellId) :
    next.last other = if store.last other = id then decision.goal store id else store.last other := by
  cases decision with
  | settle outcome =>
    -- No link has changed.
    have same : next.last other = store.last other := by
      refine grounded.last_congr (fun another => ?_) other
      rw [link?_eq_outline, link?_eq_outline]
      by_cases here : another = id
      · rw [here, decides, Function.update_self, opened.blank]
        rfl
      · rw [decides.outline_other here]
    rw [same, Decision.goal]
    split
    · assumption
    · rfl
  | link target =>
    refine (Joins.mk ?_ ?_ (fun another apart => ?_) (opened.linkable target rfl).2).last_eq grounded other
    · rw [link?_eq_outline, opened.blank]
      rfl
    · rw [link?_eq_outline, decides, Function.update_self]
      rfl
    · rw [link?_eq_outline, link?_eq_outline, decides.outline_other apart]

end Decides

section Swap

variable {between aside : Store α β} {one other : CellId} {first second : Decision α} {firstKind secondKind : CellKind}

/-- What may be decided second may be decided first. -/
theorem Open.early (openSecond : between.Open other second secondKind) (grounded : store.Grounded)
    (apart : one ≠ other) (openFirst : store.Open one first firstKind)
    (decides : store.Decides between one first firstKind) : store.Open other second secondKind := by
  refine ⟨(decides.outline_other (Ne.symm apart)).symm.trans openSecond.blank, fun target same => ?_⟩
  obtain ⟨indirect, elsewhere⟩ := openSecond.linkable target same
  refine ⟨indirect, fun ends => elsewhere ?_⟩
  -- What ended in the other cell has gone on doing so.
  rw [decides.last_eq openFirst grounded, ends, if_neg (Ne.symm apart)]

/-- And what was decided first may be decided after it. -/
theorem Open.late (openFirst : store.Open one first firstKind) (grounded : store.Grounded) (apart : one ≠ other)
    (decides : store.Decides between one first firstKind) (openSecond : between.Open other second secondKind)
    (turned : store.Decides aside other second secondKind) : aside.Open one first firstKind := by
  have early := openSecond.early grounded apart openFirst decides
  refine ⟨(turned.outline_other apart).trans openFirst.blank, fun target same => ?_⟩
  obtain ⟨indirect, elsewhere⟩ := openFirst.linkable target same
  refine ⟨indirect, ?_⟩
  rw [turned.last_eq early grounded]
  split
  · rename_i ends
    cases second with
    | settle outcome => exact Ne.symm apart
    | link onward =>
      -- Both links together would close a cycle, which the second was refused for.
      intro closes
      have closes : store.last onward = one := closes
      refine (openSecond.linkable onward rfl).2 ?_
      rw [decides.last_eq openFirst grounded, if_pos closes, same]
      exact ends
  · exact elsewhere

/-- Both orders leave the same outlines. -/
theorem outline_swap {final last : Store α β} (apart : one ≠ other)
    (here : store.Decides between one first firstKind) (andThere : between.Decides final other second secondKind)
    (there : store.Decides aside other second secondKind) (andHere : aside.Decides last one first firstKind) :
    last.outline = final.outline := by
  rw [andHere, there, andThere, here]
  exact (Function.update_comm apart _ _ _).symm

end Swap

end Store

end DeferredJit.Async
