import LayeredTable.OrderedMap.Lemmas
import LayeredTable.Tree.Basic

/-! A packed identifier is the number of its column and its row as digits to the base `2 ^ 32`, so
identifiers stand for pairs of a column and a row and come in the order of the pairs. Main
statement: `CellId.order_eq_lexicographic`. -/
namespace LayeredTable
namespace CellId

section Packing

variable {a b : CellId} {column row column' row' : UInt32}

theorem toNat_packed_of (column row : UInt32) :
    (of column row).packed.toNat = column.toNat * 4294967296 + row.toNat := by
  have low := row.toNat_lt
  have high := column.toNat_lt
  have fits : column.toNat <<< 32 < 18446744073709551616 := by
    rw [Nat.shiftLeft_eq]
    omega
  simp only [of, UInt64.toNat_or, UInt64.toNat_shiftLeft, UInt32.toNat_toUInt64,
    UInt64.reduceToNat, Nat.reduceMod, Nat.mod_eq_of_lt fits]
  rw [← Nat.shiftLeft_add_eq_or_of_lt low, Nat.shiftLeft_eq]

theorem toNat_column (id : CellId) : id.column.toNat = id.packed.toNat / 4294967296 := by
  have word := id.packed.toNat_lt
  simp only [CellId.column, UInt64.toNat_toUInt32, UInt64.toNat_shiftRight, UInt64.reduceToNat,
    Nat.reduceMod, Nat.shiftRight_eq_div_pow]
  omega

theorem toNat_row (id : CellId) : id.row.toNat = id.packed.toNat % 4294967296 := by
  simp only [CellId.row, UInt64.toNat_toUInt32]

@[simp] theorem column_of (column row : UInt32) : (of column row).column = column := by
  have low := row.toNat_lt
  apply UInt32.toNat_inj.mp
  rw [toNat_column, toNat_packed_of]
  omega

@[simp] theorem row_of (column row : UInt32) : (of column row).row = row := by
  have low := row.toNat_lt
  apply UInt32.toNat_inj.mp
  rw [toNat_row, toNat_packed_of]
  omega

theorem of_inj : of column row = of column' row' ↔ column = column' ∧ row = row' := by
  constructor
  · intro same
    have columns := congrArg CellId.column same
    have rows := congrArg CellId.row same
    rw [column_of, column_of] at columns
    rw [row_of, row_of] at rows
    exact ⟨columns, rows⟩
  · rintro ⟨rfl, rfl⟩
    rfl

/-- Every word is the identifier of its own column and row. -/
@[simp] theorem of_column_row (id : CellId) : of id.column id.row = id := by
  have packed : (of id.column id.row).packed = id.packed := by
    apply UInt64.toNat_inj.mp
    rw [toNat_packed_of, toNat_column, toNat_row]
    omega
  exact congrArg mk packed

theorem eq_iff : a = b ↔ a.column = b.column ∧ a.row = b.row := by
  rw [← of_inj, of_column_row, of_column_row]

end Packing

section Order

variable {a b : CellId}

theorem lt_iff : a < b ↔ a.column < b.column ∨ a.column = b.column ∧ a.row < b.row := by
  have words : a < b ↔ a.packed.toNat < b.packed.toNat := UInt64.lt_iff_toNat_lt
  rw [words, UInt32.lt_iff_toNat_lt, UInt32.lt_iff_toNat_lt, ← UInt32.toNat_inj, toNat_column,
    toNat_column, toNat_row, toNat_row]
  omega

/-- In one column the order of identifiers is that of their rows. -/
theorem lt_iff_row (same : a.column = b.column) : a < b ↔ a.row < b.row := by
  simp [lt_iff, same, Std.lt_irrefl]

theorem compare_eq_lexicographic (a b : CellId) :
    compareOfLessAndEq a b = (compare a.column b.column).then (compare a.row b.row) := by
  have words (x y : UInt32) : compare x y = compareOfLessAndEq x y := rfl
  simp only [words, compareOfLessAndEq, lt_iff, eq_iff]
  rcases Std.lt_trichotomy a.column b.column with less | same | greater
  · simp [less]
  · simp [same]
  · have apart : a.column ≠ b.column := fun same => Std.lt_irrefl (same ▸ greater)
    simp [Std.not_gt_of_lt greater, apart]

/-- An ordered map visits the identifiers of one column in the order of their rows. -/
theorem rows_ascending {α : Type} (m : OrderedMap CellId α) (column : UInt32) :
    (m.keys.filter fun id => id.column = column).Pairwise fun a b => a.row < b.row := by
  refine List.Pairwise.imp_of_mem ?_ (m.keys_ascending.filter _)
  intro a b first second less
  have own : a.column = column := by simpa using (List.mem_filter.mp first).2
  have other : b.column = column := by simpa using (List.mem_filter.mp second).2
  exact (lt_iff_row (own.trans other.symm)).mp less

end Order

/-- Identifiers are pairs of a column and a row, neither more nor fewer, and are ordered as pairs.
So a node's children that have one column number, a column's own cells among them, are visited in
the order of their rows, with no row twice. -/
theorem order_eq_lexicographic :
    (∀ column row : UInt32, (of column row).column = column ∧ (of column row).row = row) ∧
    (∀ word : UInt64, of (mk word).column (mk word).row = mk word) ∧
    (∀ (id : CellId) (row : UInt32),
      (id.withRow row).column = id.column ∧ (id.withRow row).row = row) ∧
    (∀ a b : CellId,
      compareOfLessAndEq a b = (compare a.column b.column).then (compare a.row b.row)) ∧
    ∀ (t : Tree) (i : Nat) (column : UInt32),
      ((t.children i).keys.filter fun id => id.column = column).Pairwise
        fun a b => a.row < b.row := by
  refine ⟨?_, ?_, ?_, compare_eq_lexicographic, ?_⟩
  · exact fun column row => ⟨column_of column row, row_of column row⟩
  · exact fun word => of_column_row (mk word)
  · exact fun id row => ⟨column_of id.column row, row_of id.column row⟩
  · exact fun t i column => rows_ascending (t.children i) column

end CellId
end LayeredTable
