import LayeredTable.Proofs.Tree.Fork

/-! Which rows a tree leaves out: those at which a column that is visible and admits no null has a
hidden cell. -/
namespace LayeredTable
namespace Tree

variable {t : Tree} {i c : Nat} {id : CellId} {row : UInt32}

theorem mem_hiddenRows : row ∈ t.hiddenRows c ↔
    ∃ id ∈ (t.children c).keys, t.isHidden? c id = some true ∧ id.row = row := by
  have hidden (id : CellId) :
      (t.isHidden? c id).getD false = true ↔ t.isHidden? c id = some true := by
    cases t.isHidden? c id <;> simp
  simp [hiddenRows, hidden, and_assoc]

theorem constrains_iff {column : CellId × Nat} : t.constrains i column = true ↔
    t.isHidden? i column.1 ≠ some true ∧
      (t.nodes[column.2]?.map (·.nullable.allowed)).getD false = false := by
  rw [constrains]
  cases t.isHidden? i column.1 <;> simp

/-- No cell of a column lies below the greatest row of the table. -/
theorem Shape.row_le_maxRow (shape : t.Shape) (entry : (t.children 0).get? id = some c)
    {cell : CellId} (member : cell ∈ (t.children c).keys) : cell.row ≤ t.maxRow := by
  obtain ⟨n, here, -⟩ := shape.child entry
  rw [children_of_node here] at member
  have own := (shape.bounded here).below cell member
  have listed : n.greatestRow ∈ (t.children 0).values.map fun c =>
      (t.nodes[c]?.map (·.greatestRow)).getD 0 :=
    List.mem_map.mpr ⟨c, OrderedMap.mem_values_of_get? entry, by simp [here]⟩
  have bound : n.greatestRow ≤ t.maxRow := by
    rw [maxRow, List.foldl_max_eq_max (List.ne_nil_of_mem listed)]
    exact Std.le_trans (List.le_max_of_mem listed) Std.right_le_max
  exact Std.le_trans own bound

theorem exclusions_eq (shape : t.Shape) (inside : i < t.size) :
    t.exclusions i = t.exclusions 0 := by
  rw [exclusions, exclusions, shape.rootOf_eq inside, shape.rootOf_eq shape.pos]

/-- A row is left out by a visible column without null that hides its cell there. -/
theorem contains_exclusions (shape : t.Shape) (inside : i < t.size) (row : UInt32) :
    (t.exclusions i).contains row = true ↔ ∃ id c, (t.children 0).get? id = some c ∧
      t.isHidden? 0 id ≠ some true ∧
      (t.nodes[c]?.map (·.nullable.allowed)).getD false = false ∧
      ∃ cell ∈ (t.children c).keys, t.isHidden? c cell = some true ∧ cell.row = row := by
  rw [exclusions, shape.rootOf_eq inside, Exclusions.contains, OrderedMap.contains_iff_mem_keys,
    OrderedMap.mem_keys_ofList]
  simp only [List.map_map, Function.comp_def, List.map_id', List.mem_filter, List.mem_flatMap,
    mem_hiddenRows, decide_eq_true_eq, Prod.exists, OrderedMap.mem_entries_iff, constrains_iff]
  constructor
  · rintro ⟨⟨id, c, ⟨entry, visible, strict⟩, hidden⟩, -⟩
    exact ⟨id, c, entry, visible, strict, hidden⟩
  · rintro ⟨id, c, entry, visible, strict, cell, member, hidden, rfl⟩
    have bound := UInt32.le_iff_toNat_le.mp (shape.row_le_maxRow entry member)
    exact ⟨⟨id, c, ⟨entry, visible, strict⟩, cell, member, hidden, rfl⟩, by omega⟩

end Tree
end LayeredTable
