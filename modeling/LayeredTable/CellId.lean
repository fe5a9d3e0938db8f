import LayeredTable.OrderedMap
import LayeredTable.Text.Numeral

/-! Packed identifiers: the column in the high and the row in the low 32 bits of one word. Row 0
belongs to the columns themselves; their cells have the rows from 1 on. -/
namespace LayeredTable

structure CellId where
  packed : UInt64
  deriving DecidableEq, Repr

namespace CellId

def of (column row : UInt32) : CellId := ⟨column.toUInt64 <<< 32 ||| row.toUInt64⟩

def header (column : UInt32) : CellId := of column 0

def column (id : CellId) : UInt32 := (id.packed >>> 32).toUInt32

def row (id : CellId) : UInt32 := id.packed.toUInt32

def withRow (id : CellId) (row : UInt32) : CellId := of id.column row

instance : LT CellId := ⟨fun a b => a.packed < b.packed⟩

instance : LE CellId := ⟨fun a b => a.packed ≤ b.packed⟩

instance : DecidableLT CellId := fun a b => inferInstanceAs (Decidable (a.packed < b.packed))

instance : Std.IsLinearOrder CellId where
  le_refl a := UInt64.le_refl a.packed
  le_trans _ _ _ := UInt64.le_trans
  le_antisymm a b h h' := by
    cases a; cases b
    exact congrArg mk (UInt64.le_antisymm h h')
  le_total a b := UInt64.le_total a.packed b.packed

instance : Std.LawfulOrderLT CellId where
  lt_iff a b := Std.LawfulOrderLT.lt_iff a.packed b.packed

def text (id : CellId) : String :=
  Text.natText id.column.toNat ++ ":" ++ Text.natText id.row.toNat

end CellId
end LayeredTable
