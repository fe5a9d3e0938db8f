import LayeredTable.OrderedMap
import LayeredTable.Value

/-! Results of expressions: a value for each of some rows, perhaps with one constant for all rows
that have none of their own. -/
namespace LayeredTable

/-- Values by row, and the value of all other rows if there is one. -/
structure RowValues where
  rows : OrderedMap UInt32 Value := .empty
  constant : Option Value := none
  deriving DecidableEq, Repr, Inhabited

namespace RowValues

def ofConstant (v : Value) : RowValues := { constant := some v }

def ofList (entries : List (UInt32 × Value)) : RowValues := { rows := .ofList entries }

def insert (m : RowValues) (row : UInt32) (v : Value) : RowValues :=
  { m with rows := m.rows.insert row v }

/-- The value at a row, which is the constant where the row has no own. -/
def get? (m : RowValues) (row : UInt32) : Option Value := (m.rows.get? row).or m.constant

def boolAt? (m : RowValues) (row : UInt32) : Option Bool := (m.get? row).bind Value.asBool?

def map (f : Value → Value) (m : RowValues) : RowValues :=
  { rows := m.rows.map f, constant := m.constant.map f }

end RowValues

structure Outcome where
  values : RowValues
  type : FieldType
  deriving DecidableEq, Repr

end LayeredTable
