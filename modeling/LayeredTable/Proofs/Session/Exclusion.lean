import LayeredTable.Proofs.Session.Sound
import LayeredTable.Proofs.Tree.Exclusion

/-! The rows that a tree in use leaves out, for all that was done with it before. Rows come in any
order and row bounds follow, so the greatest row is never below a cell, and every hidden cell has
its place among the marks. -/
namespace LayeredTable
namespace Tree

variable {t : Tree} {i c : Nat} {id cell : CellId}

theorem length_exclusions (t : Tree) (i : Nat) : (t.exclusions i).length = t.maxRow.toNat + 1 := rfl

/-- The bound on marks that `exclusions` has never drops one. -/
theorem Shape.row_lt_length (shape : t.Shape) (i : Nat) (entry : (t.children 0).get? id = some c)
    (member : cell ∈ (t.children c).keys) : cell.row.toNat < (t.exclusions i).length := by
  have bound := UInt32.le_iff_toNat_le.mp (shape.row_le_maxRow entry member)
  rw [length_exclusions]
  omega

theorem allowed_of_node {n : Node} (here : t.nodes[c]? = some n) :
    (t.nodes[c]?.map (·.nullable.allowed)).getD false = n.nullable.allowed := by
  simp [here]

/-- Asked from any node, the rows left out are those at which some column that the root shows and
that admits no null hides its cell. -/
theorem exclusions_exact (reachable : t.Reachable) (inside : i < t.size) :
    (t.exclusions i).length = t.maxRow.toNat + 1 ∧
    t.exclusions i = t.exclusions 0 ∧
    (∀ row, (t.exclusions i).contains row = true ↔
      ∃ id c n, (t.children 0).get? id = some c ∧ t.nodes[c]? = some n ∧
        t.isHidden? 0 id ≠ some true ∧ n.nullable.allowed = false ∧
        ∃ cell ∈ n.children.keys, cell.row = row ∧ t.isHidden? c cell = some true) ∧
    ∀ id c, (t.children 0).get? id = some c → ∀ cell ∈ (t.children c).keys,
      cell.row.toNat < (t.exclusions i).length := by
  have shape := reachable.sound.shape
  refine ⟨length_exclusions t i, exclusions_eq shape inside, fun row => ?_,
    fun id c entry cell member => shape.row_lt_length i entry member⟩
  rw [contains_exclusions shape inside]
  constructor
  · rintro ⟨id, c, entry, visible, strict, cell, member, hidden, same⟩
    obtain ⟨n, here, -⟩ := shape.child entry
    rw [allowed_of_node here] at strict
    rw [children_of_node here] at member
    exact ⟨id, c, n, entry, here, visible, strict, cell, member, same, hidden⟩
  · rintro ⟨id, c, n, entry, here, visible, strict, cell, member, same, hidden⟩
    rw [← allowed_of_node here] at strict
    rw [← children_of_node here] at member
    exact ⟨id, c, entry, visible, strict, cell, member, hidden, same⟩

/-- A later row comes first, and the greatest row belongs to a column that admits null. -/
theorem exclusions_exact_descending :
    let t := ((Session.start (.new ⟨0⟩)).run
      [.add 0 (.column 1 "a" .bool {}) false, .add 1 (.cell (.of 1 7) .null) true,
        .add 1 (.cell (.of 1 3) (.bool true)) false,
        .add 0 (.column 2 "b" .bool { allowed := true }) false,
        .add 4 (.cell (.of 2 9) .null) true]).tree
    t.exclusions 5 = t.exclusions 0 ∧ (t.exclusions 5).length = 10 ∧
      (t.exclusions 5).contains 7 = true ∧ (t.exclusions 5).contains 9 = false := by
  intro t
  have reachable : t.Reachable := ⟨⟨0⟩, _, rfl⟩
  obtain ⟨length, same, marks, -⟩ := exclusions_exact reachable (show 5 < t.size by decide +kernel)
  obtain ⟨n, here⟩ := exists_node (show 1 < t.size by decide +kernel)
  have column : t.nodes[1]?.map (fun n => (n.nullable.allowed, n.children.keys)) =
      some (false, [.of 1 3, .of 1 7]) := by decide +kernel
  rw [here] at column
  obtain ⟨strict, keys⟩ := Prod.mk.inj (Option.some.inj column)
  refine ⟨same, length.trans (by decide +kernel), (marks 7).mpr ?_, by decide +kernel⟩
  refine ⟨.header 1, 1, n, by decide +kernel, here, by decide +kernel, strict, .of 1 7, ?_, ?_⟩
  · simp [keys]
  · exact ⟨by decide, by decide +kernel⟩

end Tree
end LayeredTable
