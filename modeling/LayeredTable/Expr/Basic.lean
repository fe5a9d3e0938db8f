import LayeredTable.Cast
import LayeredTable.Expr.Token
import LayeredTable.Tree.Basic

/-! Expressions over the columns of a tree: comparisons, sums and differences of a column with a
column or a literal, joined by logic and choice. -/
namespace LayeredTable

/-- A side of a comparison or of arithmetic: a node of the tree, or one value for every row with
the type it is declared with. -/
inductive Operand
  | column (node : Nat)
  | literal (value : Value) (type : FieldType)
  deriving DecidableEq, Repr

namespace Operand

def ofValue (v : Value) : Operand := literal v v.kind

/-- The null that equality compares with to ask whether a cell is hidden. -/
def null : Operand := literal .null .null

def isNull : Operand → Bool
  | literal .null _ => true
  | _ => false

end Operand

inductive BinaryOp
  | lt
  | gt
  | eq
  | ge
  | le
  | ne
  | add
  | subtract
  deriving DecidableEq, Repr

namespace BinaryOp

def name : BinaryOp → String
  | lt => "lt"
  | gt => "gt"
  | eq => "eq"
  | ge => "ge"
  | le => "le"
  | ne => "ne"
  | add => "add"
  | subtract => "subtract"

def isComparison : BinaryOp → Bool
  | add | subtract => false
  | _ => true

end BinaryOp

inductive Logic
  | and
  | or
  deriving DecidableEq, Repr

namespace Logic

def name : Logic → String
  | and => "and"
  | or => "or"

def combine : Logic → Bool → Bool → Bool
  | and, a, b => a && b
  | or, a, b => a || b

end Logic

inductive Expr
  | constant (b : Bool)
  | binary (op : BinaryOp) (left right : Operand)
  | not (inner : Expr)
  | logic (op : Logic) (left right : Expr)
  | choice (cond whenTrue otherwise : Expr)
  deriving DecidableEq, Repr

inductive ExprError
  | resolve (cause : TypeError)
  | notBoolean (operator : String) (found : FieldType)
  | literalOnLeft (operator : String)
  | tree (cause : TreeError)
  | unknownColumn (name : String)
  | parse (cause : ParseError)
  | cancelled
  | deadlineExceeded
  deriving DecidableEq, Repr

def ExprError.message : ExprError → String
  | resolve cause => "expression type error: " ++ cause.message
  | notBoolean operator found =>
    "expression type error: " ++ operator ++ " operands must evaluate to boolean(s), found " ++
      found.label
  | literalOnLeft operator =>
    "expression type error: " ++ operator ++ " requires a column on the left-hand side"
  | tree cause => cause.message
  | unknownColumn name => "unknown column: " ++ name
  | parse cause => "parse error: " ++ cause.message
  | cancelled => "evaluation cancelled"
  | deadlineExceeded => "evaluation exceeded its deadline"

end LayeredTable
