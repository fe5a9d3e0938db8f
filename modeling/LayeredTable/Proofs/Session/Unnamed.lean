import LayeredTable.Proofs.Expr.Reading
import LayeredTable.Proofs.Session.Exclusion

/-! Hiding and showing cells of a column that an expression does not name. It can still change the
result through the rows that are left out, and it does so only if the root shows the column and the
column admits no null. -/
namespace LayeredTable
namespace Tree

variable {t : Tree} {c i : Nat} {key id : CellId} {hidden : Bool} {nodes : List Nat}

/-- Toggling changes the hidden map of one node. -/
theorem hiddenMap_toggle_of_ne (other : i ≠ c) :
    (t.toggle c id hidden).hiddenMap i = t.hiddenMap i := by
  have elsewhere : ¬ (i = c ∧ t.version = t.version) := fun same => other same.1
  rw [hiddenMap_eq, hiddenMap_eq, version_toggle, toggle, layer?_setHidden, if_neg elsewhere]

/-- A column is no root, be it of a tree that is there or of a node that is not. -/
theorem Shape.rootOf_ne (shape : t.Shape) (column : (t.children 0).get? key = some c) (i : Nat) :
    t.rootOf i ≠ c := by
  by_cases inside : i < t.size
  · rw [shape.rootOf_eq inside]
    exact Nat.ne_of_lt (shape.lt_child column).1
  · have missing : t.nodes[i]? = none := Array.getElem?_eq_none (Nat.le_of_not_lt inside)
    have below := (shape.lt_child column).2
    rw [rootOf, missing]
    show i ≠ c
    omega

/-- A column is listed in the root under its own key and in no other node. -/
theorem Shape.entry_unique (shape : t.Shape) (column : (t.children 0).get? key = some c) {p : Nat}
    (entry : (t.children p).get? id = some c) : p = 0 ∧ id = key := by
  obtain ⟨n, here, same, above⟩ := shape.child column
  obtain ⟨parent, listed⟩ := (shape.listed_iff here).mp entry
  rw [above] at parent
  exact ⟨(Option.some.inj parent).symm, listed.trans same⟩

/-- Toggling below a column that does not constrain the table leaves the same rows out. -/
theorem Shape.exclusions_toggle (shape : t.Shape) (column : (t.children 0).get? key = some c)
    (free : t.constrains 0 (key, c) = false) (i : Nat) :
    (t.toggle c id hidden).exclusions i = t.exclusions i := by
  refine exclusions_congr frame_toggle (constrains_congr frame_toggle
    (hiddenMap_toggle_of_ne (shape.rootOf_ne column i))) ?_
  rintro ⟨other, d⟩ listed constraining
  apply hiddenMap_toggle_of_ne
  rintro rfl
  obtain ⟨root, rfl⟩ := shape.entry_unique column (OrderedMap.mem_entries_iff.mp listed)
  rw [root, free] at constraining
  cases constraining

theorem Shape.alikeOn_toggle (shape : t.Shape) (column : (t.children 0).get? key = some c)
    (free : t.constrains 0 (key, c) = false) (unnamed : c ∉ nodes) (id : CellId) (hidden : Bool) :
    t.AlikeOn nodes (t.toggle c id hidden) where
  frame := frame_toggle
  hidden _ named := hiddenMap_toggle_of_ne fun same => unnamed (same ▸ named)
  exclusions := shape.exclusions_toggle column free

end Tree

namespace EvalContext

variable {t : Tree} {c : Nat} {key : CellId} {e : Expr}

/-- Cells of a column that an expression does not name can be hidden and shown at will, if the
column admits null or the root hides it. Result, error and defects stay what they are. -/
theorem eval_toggle_unnamed (reachable : t.Reachable) (column : (t.children 0).get? key = some c)
    (free : (∃ n, t.nodes[c]? = some n ∧ n.nullable.allowed = true) ∨
      t.isHidden? 0 key = some true)
    (unnamed : c ∉ e.nodes) (id : CellId) (hidden : Bool) (context : EvalContext) :
    context.eval (t.toggle c id hidden) e = context.eval t e := by
  have unconstrained : t.constrains 0 (key, c) = false := by
    rw [Bool.eq_false_iff, ne_eq, Tree.constrains_iff]
    rintro ⟨visible, strict⟩
    rcases free with ⟨n, here, allowed⟩ | rootHides
    · rw [Tree.allowed_of_node here, allowed] at strict
      cases strict
    · exact visible rootHides
  have alike := reachable.sound.shape.alikeOn_toggle column unconstrained unnamed id hidden
  rw [eval, eval, Expr.eval_of_alikeOn alike]

/-- Three columns beside the one that is compared: hiding a cell changes nothing below one that
admits null or one that the root hides, and does below the third. -/
theorem eval_toggle_unnamed_beside_strict :
    let t := ((Session.start (.new ⟨0⟩)).run
      [.add 0 (.column 1 "a" .bool {}) false, .add 1 (.cell (.of 1 1) (.bool true)) false,
        .add 0 (.column 2 "b" .bool { allowed := true }) false,
        .add 3 (.cell (.of 2 1) (.bool true)) false,
        .add 0 (.column 3 "c" .bool {}) true, .add 5 (.cell (.of 3 1) (.bool true)) false,
        .add 0 (.column 4 "d" .bool {}) false, .add 7 (.cell (.of 4 1) (.bool true)) false]).tree
    let e : Expr := .logic .and (.constant true) (.binary .eq (.column 1) (.ofValue (.bool true)))
    let c : EvalContext := {}
    c.eval (t.toggle 3 (.of 2 1) true) e = c.eval t e ∧
      c.eval (t.toggle 5 (.of 3 1) true) e = c.eval t e ∧
      (c.eval (t.toggle 7 (.of 4 1) true) e).1.toOption ≠ (c.eval t e).1.toOption := by
  intro t e c
  have reachable : t.Reachable := ⟨⟨0⟩, _, rfl⟩
  obtain ⟨n, here⟩ := Tree.exists_node (show 3 < t.size by decide +kernel)
  have lenient : t.nodes[3]?.map (·.nullable.allowed) = some true := by decide +kernel
  rw [here] at lenient
  exact ⟨eval_toggle_unnamed reachable (show (t.children 0).get? (.header 2) = some 3 by
      decide +kernel) (.inl ⟨n, here, Option.some.inj lenient⟩) (by decide) _ _ _,
    eval_toggle_unnamed reachable (show (t.children 0).get? (.header 3) = some 5 by
      decide +kernel) (.inr (by decide +kernel)) (by decide) _ _ _,
    by decide +kernel⟩

end EvalContext
end LayeredTable
