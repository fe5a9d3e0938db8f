import Mathlib.Data.List.Basic
import LayeredTable.Proofs.Expr.Guard
import LayeredTable.Proofs.Ingest.Keyed
import LayeredTable.Proofs.View.Effect

/-! Views of views. A predicate is evaluated in the version that the view before it has left, so a
view can only show rows that were shown, as long as its predicate guards the column that it selects
first. A view that is built once more on top of itself changes nothing. -/
namespace LayeredTable

/-- What stands under a name is a matter of the frame. -/
theorem Tree.findByName_of_frame {t u : Tree} (same : u.frame = t.frame) (i : Nat)
    (name : String) : u.findByName i name = t.findByName i name := by
  simp only [findByName, children_eq_of_frame same, map_eq_of_frame same _ (·.name) fun _ => rfl]

namespace ViewPlan

variable {t u : Tree} {c root : Nat} {e : Expr} {policy policy' : Policy} {p : ViewPlan}
  {eval eval' : EvalState} {v : View} {s : ViewState} {names : List String}

theorem findColumns_of_frame (same : u.frame = t.frame) (root : Nat) (names : List String) :
    findColumns u root names = findColumns t root names := by
  simp only [findColumns, Tree.findByName_of_frame same]

/-- The rows that a view accepts are those at which the result of its predicate holds. -/
theorem accepts_iff_holds (sound : t.Sound) (built : p.build policy ⟨t, eval⟩ = .ok v s)
    (filter : p.filter = some e) : ∃ o, e.result t = .ok o ∧
      ∀ row, p.accepts policy ⟨t, eval⟩ row = true ↔ o.Holds row := by
  obtain ⟨rows, -, -, passed, -⟩ := build_ok sound built
  rw [filter] at passed
  simp only [accepted] at passed
  cases done : e.eval t policy eval with
  | error cause m =>
    rw [done] at passed
    cases passed
  | ok o m =>
    refine ⟨o, Expr.eval_result done, fun row => ?_⟩
    simp only [accepts, filter, done, beq_iff_eq, Outcome.Holds]

/-! Stacking views whose predicates guard the column that they select first. -/

def GuardsFirst (p : ViewPlan) (t : Tree) (c : Nat) : Prop :=
  p.source = some 0 ∧ (∃ name rest, p.names = name :: rest ∧ t.findByName 0 name = some c) ∧
    ∃ e, p.filter = some e ∧ e.Guards [c]

theorem GuardsFirst.of_frame (guards : p.GuardsFirst t c) (same : u.frame = t.frame) :
    p.GuardsFirst u c := by
  obtain ⟨source, ⟨name, rest, names, found⟩, filter⟩ := guards
  rw [← Tree.findByName_of_frame same] at found
  exact ⟨source, ⟨name, rest, names, found⟩, filter⟩

/-- A guarded view accepts only rows that are not left out and of which the column shows a cell. -/
theorem GuardsFirst.accepted (guards : p.GuardsFirst t c) (sound : t.Sound)
    (built : p.build policy ⟨t, eval⟩ = .ok v s) {row : UInt32}
    (accepts : p.accepts policy ⟨t, eval⟩ row = true) :
    t.ShowsAt c row ∧ (t.exclusions 0).contains row = false := by
  obtain ⟨-, -, e, filter, guarding⟩ := guards
  obtain ⟨o, result, holds⟩ := accepts_iff_holds sound built filter
  obtain ⟨kept, d, member, shows⟩ := guarding.shows sound result ((holds row).mp accepts)
  cases List.mem_singleton.mp member
  exact ⟨shows, kept⟩

theorem GuardsFirst.columns (guards : p.GuardsFirst t c) (sound : t.Sound)
    (built : p.build policy ⟨t, eval⟩ = .ok v s) : ∃ rest, v.columns = c :: rest := by
  obtain ⟨source, ⟨name, rest, names, found⟩, -⟩ := guards
  obtain ⟨rows, root, -, -, columns, -⟩ := build_ok sound built
  rw [source, Option.some.injEq] at root
  rw [← root, names, findColumns_iff, List.map_cons, found] at columns
  cases selected : v.columns with
  | nil => simp [selected] at columns
  | cons d others =>
    rw [selected, List.map_cons, List.cons.injEq, Option.some.injEq] at columns
    exact ⟨others, by rw [columns.1]⟩

structure Made where
  before : Tree
  view : View
  after : Tree

def Made.rows (m : Made) : List UInt32 := m.view.visibleRows m.after

/-- The views that are made when some are built one after another, each in a context of its own. One
that is refused leaves the tree to the next. -/
def stack (t : Tree) : List (EvalContext × ViewPlan) → List Made
  | [] => []
  | (c, p) :: plans =>
    match p.build c.policy ⟨t, c.state⟩ with
    | .ok view s => ⟨t, view, s.tree⟩ :: stack s.tree plans
    | .error _ s => stack s.tree plans

variable {plans : List (EvalContext × ViewPlan)}

/-- A stack starts with a view that is refused and leaves the tree alone, or with one that is made
on the tree. -/
theorem stack_cons (sound : t.Sound) (context : EvalContext) (p : ViewPlan)
    (plans : List (EvalContext × ViewPlan)) : stack t ((context, p) :: plans) = stack t plans ∨
      ∃ v s, p.build context.policy ⟨t, context.state⟩ = .ok v s ∧
        stack t ((context, p) :: plans) = ⟨t, v, s.tree⟩ :: stack s.tree plans := by
  rcases build_cases sound context.policy p context.state with
    ⟨e, eval, -, failed⟩ | ⟨root, rows, columns, eval, -, -, -, -, built⟩
  · left
    rw [stack, failed]
  · right
    exact ⟨_, _, built, by rw [stack, built]⟩

/-- The rows of a guarded view, as rows of the column's cells. -/
theorem GuardsFirst.rows_eq (guards : p.GuardsFirst t c) (sound : t.Sound)
    (built : p.build policy ⟨t, eval⟩ = .ok v s) : (Made.mk t v s.tree).rows =
      ((t.children c).keys.filter fun id => p.accepts policy ⟨t, eval⟩ id.row).map (·.row) := by
  obtain ⟨rest, columns⟩ := guards.columns sound built
  exact built_visibleRows sound built columns

/-- What a guarded view shows afterwards is what it accepted. -/
theorem GuardsFirst.accepts_of_shows (guards : p.GuardsFirst t c) (sound : t.Sound)
    (built : p.build policy ⟨t, eval⟩ = .ok v s) {row : UInt32} (shows : s.tree.ShowsAt c row) :
    p.accepts policy ⟨t, eval⟩ row = true := by
  obtain ⟨rest, columns⟩ := guards.columns sound built
  have member : c ∈ v.columns := by simp [columns]
  obtain ⟨id, -, rfl, visible⟩ := shows
  have shown := (built_visible_iff sound built c id).mp visible
  exact ((shows_column_iff sound built member id).mp shown).2

inductive Guarded (c : Nat) : Tree → List Made → Prop
  | nil {t : Tree} : Guarded c t []
  | cons {t : Tree} {p : ViewPlan} {policy : Policy} {eval : EvalState} {v : View} {s : ViewState}
      {made : List Made} : t.Sound → p.GuardsFirst t c → p.build policy ⟨t, eval⟩ = .ok v s →
      Guarded c s.tree made → Guarded c t (⟨t, v, s.tree⟩ :: made)

theorem guarded_stack (sound : t.Sound) (guards : ∀ plan ∈ plans, plan.2.GuardsFirst t c) :
    Guarded c t (stack t plans) := by
  induction plans generalizing t with
  | nil => exact .nil
  | cons plan plans ih =>
    obtain ⟨context, p⟩ := plan
    have rest (plan) (member : plan ∈ plans) := guards plan (List.mem_cons_of_mem _ member)
    rcases stack_cons sound context p plans with refused | ⟨v, s, built, made⟩
    · rw [refused]
      exact ih sound rest
    · have frame := built_frame sound built
      rw [made]
      exact .cons sound (guards _ List.mem_cons_self) built
        (ih (built_sound sound built) fun plan member => (rest plan member).of_frame frame)

variable {made : List Made}

/-- The rows that are shown are among those of which the column shows a cell at the start. -/
theorem Guarded.rows_sublist (guarded : Guarded c t made) {allowed : UInt32 → Bool}
    (shown : ∀ row, t.ShowsAt c row → allowed row = true) : ∀ m ∈ made,
      m.rows.Sublist (((t.children c).keys.filter fun id => allowed id.row).map (·.row)) := by
  induction guarded with
  | nil => exact nofun
  | cons sound guards built _ ih =>
    intro m member
    rcases List.mem_cons.mp member with rfl | later
    · rw [guards.rows_eq sound built]
      refine (List.monotone_filter_right _ fun id accepts => ?_).map _
      exact shown id.row (guards.accepted sound built accepts).1
    · rw [← Tree.children_eq_of_frame (built_frame sound built)]
      refine ih (fun row shows => ?_) m later
      exact shown row (guards.accepted sound built (guards.accepts_of_shows sound built shows)).1

/-- Every view shows rows of which the column showed a cell just before, and that were not left
out. -/
theorem Guarded.rows_shown (guarded : Guarded c t made) : ∀ m ∈ made, ∀ row ∈ m.rows,
    m.before.ShowsAt c row ∧ (m.before.exclusions 0).contains row = false := by
  induction guarded with
  | nil => exact nofun
  | cons sound guards built _ ih =>
    intro m member row shown
    rcases List.mem_cons.mp member with rfl | later
    · rw [guards.rows_eq sound built] at shown
      obtain ⟨id, accepted, rfl⟩ := List.mem_map.mp shown
      exact guards.accepted sound built (List.mem_filter.mp accepted).2
    · exact ih m later row shown

/-- Each view shows a part of the rows that any view before it showed. -/
theorem Guarded.pairwise (guarded : Guarded c t made) :
    made.Pairwise fun first later => later.rows.Sublist first.rows := by
  induction guarded with
  | nil => exact .nil
  | cons sound guards built rest ih =>
    refine .cons (fun m later => ?_) ih
    rw [guards.rows_eq sound built, ← Tree.children_eq_of_frame (built_frame sound built)]
    exact rest.rows_sublist (fun row => guards.accepts_of_shows sound built) m later

/-- Stacked views only narrow. Whatever state the table is in, a view that selects a column first
and has a predicate that guards it shows rows of which the column showed a cell just before, and
that were not left out then. So no view of a stack shows a row that a view before it did not. -/
theorem stack_narrows (reachable : t.Reachable)
    (guards : ∀ plan ∈ plans, plan.2.GuardsFirst t c) :
    (∀ m ∈ stack t plans, ∀ row ∈ m.rows,
      m.before.ShowsAt c row ∧ (m.before.exclusions 0).contains row = false) ∧
    (stack t plans).Pairwise fun first later => later.rows.Sublist first.rows :=
  have guarded := guarded_stack reachable.sound guards
  ⟨guarded.rows_shown, guarded.pairwise⟩

/-- A later predicate that is true of a hidden row does not let it back in. -/
theorem stack_narrows_again :
    let t := ((Ingest.start {}).run [.column { name := "a", type := .integer .int64 },
      .row [.int64 1], .row [.int64 2], .row [.int64 3]]).tree
    let atLeast (n : Int) : Expr := .binary .ge (.column 1) (.ofValue (.int64 n))
    let filtered (e : Expr) : EvalContext × ViewPlan :=
      ({}, { source := some 0, names := ["a"], filter := some e })
    let plans := [filtered (atLeast 2), filtered (.logic .or (atLeast 1) (atLeast 3))]
    (∀ plan ∈ plans, plan.2.GuardsFirst t 1) ∧
      (stack t plans).map Made.rows = [[2, 3], [2, 3]] ∧
      (stack t plans).Pairwise fun first later => later.rows.Sublist first.rows := by
  intro t atLeast filtered plans
  have reachable : t.Reachable := Tree.Ingested.reachable (Tree.ingested_run _ _)
  have found : t.findByName 0 "a" = some 1 := by decide +kernel
  have filters (e : Expr) (guarding : e.Guards [1]) : (filtered e).2.GuardsFirst t 1 :=
    ⟨rfl, ⟨"a", [], rfl, found⟩, e, rfl, guarding⟩
  have guarding (n : Int) (plain : (Operand.ofValue (.int64 n)).isNull = false) :
      (atLeast n).Guards [1] := ⟨rfl, plain, .inl List.mem_cons_self⟩
  have guards : ∀ plan ∈ plans, plan.2.GuardsFirst t 1 := by
    intro plan member
    rcases List.mem_cons.mp member with rfl | member
    · exact filters _ (guarding 2 (by decide))
    · cases List.mem_singleton.mp member
      exact filters _ ⟨guarding 1 (by decide), guarding 3 (by decide)⟩
  have rows : (stack t plans).map Made.rows = [[2, 3], [2, 3]] := by decide +kernel
  exact ⟨guards, rows, (stack_narrows reachable guards).2⟩

/-! Building a view once more on top of itself. -/

/-- A view on top of another changes nothing if it has the same columns and accepts the same rows of
their cells. -/
theorem isHidden?_of_same (sound : t.Sound) (covers : t.Covers) {p' : ViewPlan} {v' : View}
    {s' : ViewState} (built : p.build policy ⟨t, eval⟩ = .ok v s)
    (built' : p'.build policy' ⟨s.tree, eval'⟩ = .ok v' s') (root : v'.root = v.root)
    (columns : v'.columns = v.columns)
    (same : ∀ c ∈ v.columns, ∀ id ∈ (t.children c).keys,
      p'.accepts policy' ⟨s.tree, eval'⟩ id.row = true ↔ p.accepts policy ⟨t, eval⟩ id.row = true)
    (m : Nat) (id : CellId) : s'.tree.isHidden? m id = s.tree.isHidden? m id := by
  have alive := built_sound sound built
  have frame := built_frame sound built
  have visible : s'.tree.isHidden? m id = some false ↔ s.tree.isHidden? m id = some false := by
    rw [built_visible_iff alive built', built_visible_iff sound built, Shows, Shows, root, columns,
      Tree.children_eq_of_frame frame]
    refine or_congr_right (and_congr_right fun member => and_congr_right fun child => ?_)
    exact same m member id child
  have known : (s'.tree.isHidden? m id).isSome = true ↔ (s.tree.isHidden? m id).isSome = true := by
    rw [built_isSome_iff alive built']
    refine ⟨?_, .inr⟩
    rintro (written | before)
    · -- only children are written, and all of them are known
      have child : id ∈ (s.tree.children m).keys := by
        rcases written with ⟨-, d, -, entry⟩ | ⟨-, listed, -⟩
        · exact OrderedMap.mem_keys_of_get? entry
        · exact listed
      have covered := (built_toggled sound built).covers
        (covers.fork sound (root_inside sound built))
      obtain ⟨hidden, there⟩ := covered.isHidden? alive child
      rw [there]
      rfl
    · exact before
  cases again : s'.tree.isHidden? m id with
  | none => cases once : s.tree.isHidden? m id <;> simp_all
  | some hidden => cases once : s.tree.isHidden? m id <;> cases hidden <;> simp_all

section Again

variable (ingested : t.Ingested) (source : p.source = some 0)
  (built : p.build policy ⟨t, eval⟩ = .ok v s) (compares : e.Compares v.columns)
include ingested source built compares

/-- On the cells of the selected columns, a predicate that reads no others says the same before and
after the view that it was built for. -/
theorem holds_again {o o' : Outcome} (before : e.result t = .ok o)
    (after : e.result s.tree = .ok o')
    (holds : ∀ row, p.accepts policy ⟨t, eval⟩ row = true ↔ o.Holds row)
    (member : c ∈ v.columns) {id : CellId} (child : id ∈ (t.children c).keys) :
    o'.Holds id.row ↔ o.Holds id.row := by
  have sound := ingested.reachable.sound
  have frame := built_frame sound built
  have alive := built_sound sound built
  obtain ⟨rows, root, -⟩ := build_ok sound built
  rw [source, Option.some.injEq] at root
  have column (d : Nat) (selected : d ∈ v.columns) : ∃ id, (t.children 0).get? id = some d := by
    rw [root]
    exact column_child sound built selected
  constructor
  · intro again
    obtain ⟨-, d, selected, cell, listed, same, visible⟩ :=
      (compares.guards after).shows alive after again
    have shown := (built_visible_iff sound built d cell).mp visible
    rw [← same]
    exact (holds cell.row).mp ((shows_column_iff sound built selected cell).mp shown).2
  · intro once
    have accepted := (holds id.row).mpr once
    obtain ⟨name, entry⟩ := column c member
    have single (d : Nat) (selected : d ∈ v.columns) (cell : CellId)
        (listed : cell ∈ (t.children d).keys) (other : CellId)
        (listed' : other ∈ (t.children d).keys) (same : other.row = cell.row) : other = cell := by
      obtain ⟨name, entry⟩ := column d selected
      exact ingested.keyed.eq_of_row entry listed listed' same
    have kept : (s.tree.exclusions 0).contains id.row = false := by
      have inside : 0 < t.size := root ▸ root_inside sound built
      have left := built_exclusions sound built ingested.covers root.symm inside id.row
      simpa [accepted] using left
    have shown (d : Nat) (selected : d ∈ v.columns) (cell : CellId)
        (listed : cell ∈ (t.children d).keys) (same : cell.row = id.row) :
        s.tree.isHidden? d cell = some false := by
      rw [built_visible_iff sound built, shows_column_iff sound built selected, same]
      exact ⟨listed, accepted⟩
    exact compares.holds_of_shown frame alive (ingested.keyed.row_pos entry child) single kept shown
      before after once

/-- A view of the root whose predicate joins comparisons of selected columns can be built again at
once, in any context that is not stopped. The tree gets a version more and is otherwise the same:
the same columns are shown, and everything in them is as visible, hidden or unknown as it was. -/
theorem build_again (filter : p.filter = some e) (unlimited : policy'.expired = false)
    (live : eval'.cancelled = false) :
    ∃ v' s', p.build policy' ⟨s.tree, eval'⟩ = .ok v' s' ∧ v'.columns = v.columns ∧
      s'.tree.version = s.tree.version + 1 ∧
      ∀ m id, s'.tree.isHidden? m id = s.tree.isHidden? m id := by
  have sound := ingested.reachable.sound
  have frame := built_frame sound built
  have alive := built_sound sound built
  obtain ⟨o, before, holds⟩ := accepts_iff_holds sound built filter
  obtain ⟨o', after, boolean⟩ := compares.exists_result frame before
  obtain ⟨m, done, -⟩ := Expr.eval_of_result unlimited live after
  obtain ⟨rows, root, unnamed, -, found, -⟩ := build_ok sound built
  have passed : ViewPlan.accepted policy' p.filter ⟨s.tree, eval'⟩ =
      .ok (some o'.values) ⟨s.tree, m⟩ := by
    simp [filter, ViewPlan.accepted, done, boolean]
  rw [← findColumns_of_frame frame] at found
  have again := build_of_found alive root unnamed passed found
  obtain ⟨o'', result, holds'⟩ := accepts_iff_holds alive again filter
  cases after.symm.trans result
  refine ⟨_, _, again, rfl, (built_toggled alive again).version, ?_⟩
  refine isHidden?_of_same sound ingested.covers built again rfl rfl fun c member id child => ?_
  rw [holds, holds']
  exact holds_again ingested source built compares before after holds member child

end Again

/-- A null that a row shows because of its other column stays shown. -/
theorem build_again_shown_null :
    let t := ((Ingest.start {}).run [
      .column { name := "a", type := .integer .int64, nullable := { allowed := true } },
      .column { name := "b", type := .bool },
      .row [.int64 2, .bool false], .row [.null, .bool true], .row [.int64 1, .bool false]]).tree
    let e : Expr := .logic .or (.binary .ge (.column 1) (.ofValue (.int64 2)))
      (.binary .eq (.column 2) (.ofValue (.bool true)))
    let p : ViewPlan := { source := some 0, names := ["a", "b"], filter := some e }
    ∃ v s v' s', p.build {} ⟨t, {}⟩ = .ok v s ∧ p.build {} ⟨s.tree, {}⟩ = .ok v' s' ∧
      t.isHidden? 1 (.of 1 2) = some true ∧ s.tree.isHidden? 1 (.of 1 2) = some false ∧
      s'.tree.isHidden? 1 (.of 1 2) = some false := by
  intro t e p
  have ingested : t.Ingested := Tree.ingested_run _ _
  have ends : (p.build {}).run' ⟨t, {}⟩ = some ⟨0, 1, [1, 2]⟩ := by decide +kernel
  obtain ⟨s, built⟩ := exists_ok ends
  have compares : e.Compares [1, 2] :=
    ⟨⟨rfl, by decide, List.mem_cons_self, trivial⟩,
      ⟨rfl, by decide, List.mem_cons_of_mem _ List.mem_cons_self, trivial⟩⟩
  have unlimited : Policy.expired {} = false := rfl
  have live : EvalState.cancelled {} = false := rfl
  obtain ⟨v', s', again, -, -, same⟩ :=
    build_again ingested rfl built compares rfl unlimited live
  have hidden : t.isHidden? 1 (.of 1 2) = some true := by decide +kernel
  have accepted : p.accepts {} ⟨t, {}⟩ 2 = true := by decide +kernel
  have child : CellId.of 1 2 ∈ (t.children 1).keys := by decide +kernel
  have shown : s.tree.isHidden? 1 (.of 1 2) = some false :=
    (built_visible_iff ingested.reachable.sound built 1 _).mpr
      (.inr ⟨List.mem_cons_self, child, accepted⟩)
  exact ⟨_, s, v', s', built, again, hidden, shown, (same 1 _).trans shown⟩

end ViewPlan
end LayeredTable
