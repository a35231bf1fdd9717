import DeferredJit.Async.Store
import Mathlib.Data.List.Nodup
import Mathlib.Data.List.Perm.Subperm

/-! Chains of links: that following them comes to an end, where they end, and what a new link does to
their ends. -/

set_option autoImplicit false

namespace DeferredJit.Async.Store

variable {α β : Type}

/-! ## Cells after a change -/

theorem lt_size_of_cell? {store : Store α β} {id : CellId} {cell : Cell α β}
    (found : store.cell? id = some cell) : id < store.cells.size :=
  (Array.getElem?_eq_some_iff.1 found).1

theorem cell?_put {store : Store α β} {id : CellId} {old : Cell α β}
    (found : store.cell? id = some old) (new : Cell α β) (other : CellId) :
    (store.put id new).cell? other = if other = id then some new else store.cell? other := by
  have bound := lt_size_of_cell? found
  simp only [cell?, put, Array.getElem?_setIfInBounds]
  by_cases same : other = id
  · subst same
    simp [bound]
  · simp [same, Ne.symm same]

theorem cell?_make (store : Store α β) (cell : Cell α β) (other : CellId) :
    (store.make cell).2.cell? other =
      if other = store.cells.size then some cell else store.cell? other := by
  simp only [cell?, make, Array.getElem?_push]

@[simp] theorem size_put (store : Store α β) (id : CellId) (cell : Cell α β) :
    (store.put id cell).cells.size = store.cells.size := by
  simp [put]

@[simp] theorem size_make (store : Store α β) (cell : Cell α β) :
    (store.make cell).2.cells.size = store.cells.size + 1 := by
  simp [make]

theorem link?_of_cell? {store : Store α β} {id : CellId} {cell : Cell α β}
    (found : store.cell? id = some cell) : store.link? id = cell.link := by
  simp [link?, found]

theorem lt_size_of_link? {store : Store α β} {id target : CellId}
    (linked : store.link? id = some target) : id < store.cells.size := by
  obtain ⟨cell, found, -⟩ := Option.bind_eq_some_iff.1 linked
  exact lt_size_of_cell? found

theorem link?_put {store : Store α β} {id : CellId} {old : Cell α β}
    (found : store.cell? id = some old) (new : Cell α β) (other : CellId) :
    (store.put id new).link? other = if other = id then new.link else store.link? other := by
  simp only [link?, cell?_put found]
  split <;> rfl

theorem link?_make (store : Store α β) {cell : Cell α β} (free : cell.link = none) (other : CellId) :
    (store.make cell).2.link? other = store.link? other := by
  simp only [link?, cell?_make]
  split
  · rename_i new
    have missing : store.cell? other = none := by simp [cell?, new]
    simp [free, missing]
  · rfl

/-! ## Paths -/

/-- The links from a cell on, as far as they go. -/
inductive Path (store : Store α β) : CellId → List CellId → Prop where
  | stop {id : CellId} : store.link? id = none → Path store id [id]
  | next {id target : CellId} {path : List CellId} : store.link? id = some target →
      Path store target path → Path store id (id :: path)

namespace Path

variable {store : Store α β} {id : CellId} {path : List CellId}

theorem ne_nil (walk : Path store id path) : path ≠ [] := by
  cases walk <;> simp

theorem unique {other : List CellId} (walk : Path store id path) (again : Path store id other) :
    path = other := by
  induction walk generalizing other with
  | stop ended =>
    cases again with
    | stop => rfl
    | next linked => rw [ended] at linked; contradiction
  | next linked _ ih =>
    cases again with
    | stop ended => rw [linked] at ended; contradiction
    | next relinked rest =>
      rw [linked] at relinked
      cases relinked
      rw [ih rest]

/-- From every cell on a path the rest of the path is its own. -/
theorem suffix_of_mem {passed : CellId} (walk : Path store id path) (member : passed ∈ path) :
    ∃ rest, rest <:+ path ∧ Path store passed rest := by
  induction walk with
  | stop ended =>
    rw [List.mem_singleton] at member
    subst member
    exact ⟨_, List.suffix_refl _, .stop ended⟩
  | next linked walk ih =>
    rcases List.mem_cons.1 member with rfl | later
    · exact ⟨_, List.suffix_refl _, .next linked walk⟩
    · obtain ⟨rest, suffix, further⟩ := ih later
      exact ⟨rest, suffix.trans (List.suffix_cons _ _), further⟩

theorem nodup (walk : Path store id path) : path.Nodup := by
  induction walk with
  | stop => simp
  | @next id target path linked walk ih =>
    refine List.nodup_cons.2 ⟨fun member => ?_, ih⟩
    -- A cell met again would have the rest of its path for its whole path.
    obtain ⟨rest, suffix, again⟩ := walk.suffix_of_mem member
    have same := (Path.next linked walk).unique again
    have shorter := suffix.length_le
    rw [← same, List.length_cons] at shorter
    omega

/-- A path goes through no more cells than there are, and its end. -/
theorem length_le (walk : Path store id path) : path.length ≤ store.cells.size + 1 := by
  have linked : ∀ passed ∈ path.dropLast, passed < store.cells.size := by
    induction walk with
    | stop => simp
    | next linked walk ih =>
      rw [List.dropLast_cons_of_ne_nil walk.ne_nil]
      intro passed member
      rcases List.mem_cons.1 member with rfl | later
      · exact lt_size_of_link? linked
      · exact ih passed later
  have distinct : path.dropLast.Nodup := walk.nodup.sublist (List.dropLast_sublist path)
  have within : path.dropLast ⊆ List.range store.cells.size :=
    fun passed member => List.mem_range.2 (linked passed member)
  have counted := (distinct.subperm within).length_le
  simp only [List.length_dropLast, List.length_range] at counted
  omega

theorem link?_getLast (walk : Path store id path) : store.link? (path.getLast walk.ne_nil) = none := by
  induction walk with
  | stop ended => exact ended
  | next linked walk ih => rwa [List.getLast_cons walk.ne_nil]

/-- A path ends with the only cell on it that has no link. -/
theorem eq_getLast {passed : CellId} (walk : Path store id path) (member : passed ∈ path)
    (ended : store.link? passed = none) : passed = path.getLast walk.ne_nil := by
  induction walk with
  | stop => simpa using member
  | next linked walk ih =>
    rw [List.getLast_cons walk.ne_nil]
    rcases List.mem_cons.1 member with rfl | later
    · rw [linked] at ended; contradiction
    · exact ih later

theorem congr {changed : Store α β} (same : ∀ other, changed.link? other = store.link? other)
    (walk : Path store id path) : Path changed id path := by
  induction walk with
  | stop ended => exact .stop ((same _).trans ended)
  | next linked _ ih => exact .next ((same _).trans linked) ih

theorem chainWithin_eq {steps : Nat} (walk : Path store id path) (enough : path.length ≤ steps + 1) :
    store.chainWithin steps id = path := by
  induction walk generalizing steps with
  | stop ended =>
    cases steps with
    | zero => rfl
    | succ steps => simp [chainWithin, ended]
  | next linked walk ih =>
    cases steps with
    | zero =>
      have positive := List.length_pos_iff.2 walk.ne_nil
      simp only [List.length_cons] at enough
      omega
    | succ steps =>
      simp only [List.length_cons] at enough
      have rest : chainWithin _ steps _ = _ := ih (by omega)
      simp [chainWithin, linked, rest]

theorem chain_eq (walk : Path store id path) : store.chain id = path :=
  walk.chainWithin_eq walk.length_le

theorem last_eq (walk : Path store id path) : store.last id = path.getLast walk.ne_nil := by
  unfold last
  congr 1
  exact walk.chain_eq

end Path

theorem last_of_link?_eq_none {store : Store α β} {id : CellId} (ended : store.link? id = none) :
    store.last id = id := by
  rw [(Path.stop ended).last_eq]
  rfl

/-! ## Stores whose links come to an end -/

/-- Following links comes to an end, wherever it starts. -/
def Grounded (store : Store α β) : Prop := ∀ id, ∃ path, Path store id path

namespace Grounded

variable {store : Store α β}

theorem link?_last (grounded : store.Grounded) (id : CellId) : store.link? (store.last id) = none := by
  obtain ⟨path, walk⟩ := grounded id
  rw [walk.last_eq]
  exact walk.link?_getLast

/-- No cell is reached from itself. -/
theorem acyclic (grounded : store.Grounded) (id : CellId) :
    ¬ Relation.TransGen (fun cell target => store.link? cell = some target) id id := by
  intro cycle
  have reached : ∀ {target}, Relation.TransGen (fun cell next => store.link? cell = some next) id target →
      ∃ rest, Path store target rest ∧ ∃ path, Path store id (id :: path) ∧ rest <:+ path := by
    intro target steps
    induction steps with
    | single linked =>
      obtain ⟨rest, walk⟩ := grounded _
      exact ⟨rest, walk, rest, .next linked walk, List.suffix_refl _⟩
    | tail _ linked ih =>
      obtain ⟨rest, walk, path, whole, suffix⟩ := ih
      cases walk with
      | stop ended => rw [linked] at ended; contradiction
      | next relinked further =>
        rw [linked] at relinked
        cases relinked
        exact ⟨_, further, path, whole, (List.suffix_cons _ _).trans suffix⟩
  obtain ⟨rest, walk, path, whole, suffix⟩ := reached cycle
  have same := walk.unique whole
  have shorter := suffix.length_le
  rw [same, List.length_cons] at shorter
  omega

theorem congr {changed : Store α β} (grounded : store.Grounded)
    (same : ∀ other, changed.link? other = store.link? other) : changed.Grounded := fun id =>
  (grounded id).imp fun _ walk => walk.congr same

theorem last_congr {changed : Store α β} (grounded : store.Grounded)
    (same : ∀ other, changed.link? other = store.link? other) (id : CellId) :
    changed.last id = store.last id := by
  obtain ⟨path, walk⟩ := grounded id
  rw [walk.last_eq, (walk.congr same).last_eq]

end Grounded

/-! ## A new link -/

/-- The second store has one more link than the first, from a cell that its target does not lead
to. -/
structure Joins (store changed : Store α β) (source target : CellId) : Prop where
  free : store.link? source = none
  linked : changed.link? source = some target
  same : ∀ other, other ≠ source → changed.link? other = store.link? other
  apart : store.last target ≠ source

namespace Joins

variable {store changed : Store α β} {source target : CellId}

/-- A path that does not end at the source stays; one that does goes on with that of the target. -/
theorem path (joins : Joins store changed source target) {id : CellId} {path rest : List CellId}
    (walk : Path store id path) (further : Path store target rest) :
    Path changed id (if path.getLast walk.ne_nil = source then path ++ rest else path) := by
  have stays : ∀ {start : CellId} {route : List CellId} (way : Path store start route),
      route.getLast way.ne_nil ≠ source → Path changed start route := by
    intro start route way elsewhere
    induction way with
    | stop ended => exact .stop ((joins.same _ (by simpa using elsewhere)).trans ended)
    | next linked way ih =>
      rw [List.getLast_cons way.ne_nil] at elsewhere
      refine .next ?_ (ih elsewhere)
      rw [joins.same, linked]
      rintro rfl
      rw [joins.free] at linked
      contradiction
  induction walk with
  | @stop id ended =>
    by_cases here : id = source
    · subst here
      have onward : Path changed target rest := stays further (further.last_eq ▸ joins.apart)
      simpa using Path.next joins.linked onward
    · simpa [here] using stays (.stop ended) (by simpa using here)
  | @next id next path linked walk ih =>
    have other : id ≠ source := by
      rintro rfl
      rw [joins.free] at linked
      contradiction
    have step := (joins.same id other).trans linked
    simp only [List.getLast_cons walk.ne_nil]
    split at ih
    · rename_i ends
      simpa [ends] using Path.next step ih
    · rename_i elsewhere
      simpa [elsewhere] using Path.next step ih

theorem grounded (joins : Joins store changed source target) (grounded : store.Grounded) :
    changed.Grounded := by
  intro id
  obtain ⟨path, walk⟩ := grounded id
  obtain ⟨rest, further⟩ := grounded target
  exact ⟨_, joins.path walk further⟩

/-- Whatever ended at the source ends where the target does. -/
theorem last_eq (joins : Joins store changed source target) (grounded : store.Grounded) (id : CellId) :
    changed.last id = if store.last id = source then store.last target else store.last id := by
  obtain ⟨path, walk⟩ := grounded id
  obtain ⟨rest, further⟩ := grounded target
  rw [(joins.path walk further).last_eq, walk.last_eq, further.last_eq]
  by_cases ends : path.getLast walk.ne_nil = source
  · simp only [ends, if_true]
    exact List.getLast_append_of_ne_nil _ further.ne_nil
  · simp only [ends, if_false]

end Joins

end DeferredJit.Async.Store
