import LayeredTable.Expr.Eval

/-! What an expression means at one row, said without the maps that evaluation builds. Choice is
left out: its meaning depends on which rows its branches have. -/
namespace LayeredTable

namespace Operand

/-- What an operand shows at a row: a literal under the type the sides share, or the value of a
visible cell. -/
def shown? (t : Tree) (type : FieldType) (row : UInt32) : Operand → Option Value
  | literal v _ => (v.cast type).toOption
  | column i => (Partner.column i).valueAt? t row

def hiddenAt (t : Tree) (row : UInt32) : Operand → Bool
  | literal _ _ => false
  | column i => (t.isHidden? i (.of ((t.nodes[i]?.map (·.id.column)).getD 0) row)).getD true

end Operand

/-- A comparison or a sum at a row: neutral where the row is left out or a side shows nothing, null
where a value does not fit. -/
def BinaryOp.meaning (t : Tree) (op : BinaryOp) (left right : Operand) (row : UInt32) : Value :=
  let type := ((left.type t).toOption).getD .unknown
  if (t.exclusions 0).contains row then op.skipped
  else
    match left.shown? t type row, right.shown? t type row with
    | some a, some b =>
      if a.conformsTo type && b.conformsTo type then ((op.apply a b).toOption).getD .null
      else .null
    | _, _ => op.skipped

def Expr.meaning (t : Tree) (row : UInt32) : Expr → Value
  | constant b => .bool b
  | binary op left right =>
    match op, right.isNull with
    | .eq, true => .bool (left.hiddenAt t row)
    | .ne, true => .bool (!left.hiddenAt t row)
    | op, _ => op.meaning t left right row
  | not inner =>
    match inner.meaning t row with
    | .bool b => .bool (!b)
    | v => v
  | logic op left right =>
    .bool (!(t.exclusions 0).contains row &&
      op.combine (left.meaning t row == .bool true) (right.meaning t row == .bool true))
  | choice _ _ _ => .null

end LayeredTable
