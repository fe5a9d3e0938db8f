import LayeredTable.Expr.Grammar

/-! Writing expressions as text that reads back. Columns stand in backticks, operators between
single spaces, and parentheses where the levels of the grammar require them; a writer may ask for
more of them. -/
namespace LayeredTable

open Text

/-- An integer as its numeral, or quoted where no signed 64-bit word holds it. -/
def integerChars (n : Int) : List Char :=
  if IntegerKind.int64.Admits n then intChars n else '\'' :: intChars n ++ ['\'']

def quotedChars (s : String) : List Char :=
  let quote := if s.toList.contains '\'' then '"' else '\''
  quote :: s.toList ++ [quote]

/-- How an operand is written. Floating-point numbers and instants are left to texts. -/
def Operand.chars (t : Tree) : Operand → List Char
  | .column i => '`' :: ((t.nodes[i]?.map (·.name)).getD "").toList ++ ['`']
  | .literal (.integer _ n _) _ => integerChars n
  | .literal (.bool b) _ => if b then "true".toList else "false".toList
  | .literal v _ => if v.isNull then "null".toList else quotedChars v.toText

def BinaryOp.chars : BinaryOp → List Char
  | lt => ['<']
  | gt => ['>']
  | eq => ['=', '=']
  | ge => ['>', '=']
  | le => ['<', '=']
  | ne => ['!', '=']
  | add => ['+']
  | subtract => ['-']

/-- An expression with the parentheses that its writer wants beyond those required. -/
inductive Written
  | constant (b : Bool)
  | binary (op : BinaryOp) (left right : Operand)
  | not (inner : Written)
  | logic (op : Logic) (left right : Written)
  | choice (cond whenTrue otherwise : Written)
  | group (inner : Written)
  deriving DecidableEq, Repr

namespace Written

def expr : Written → Expr
  | constant b => .constant b
  | binary op left right => .binary op left right
  | not inner => .not inner.expr
  | logic op left right => .logic op left.expr right.expr
  | choice cond whenTrue otherwise => .choice cond.expr whenTrue.expr otherwise.expr
  | group inner => inner.expr

def plain : Expr → Written
  | .constant b => constant b
  | .binary op left right => binary op left right
  | .not inner => not (plain inner)
  | .logic op left right => logic op (plain left) (plain right)
  | .choice cond whenTrue otherwise => choice (plain cond) (plain whenTrue) (plain otherwise)

theorem expr_plain (e : Expr) : (plain e).expr = e := by
  induction e <;> simp_all [plain, expr]

def rank : Written → Nat
  | logic .or _ _ => 0
  | logic .and _ _ => 1
  | not _ => 2
  | _ => 3

/-- Puts parentheses around what binds less tightly than its context. -/
def enclose (least : Nat) (w : Written) (cs : List Char) : List Char :=
  if w.rank < least then '(' :: cs ++ [')'] else cs

/-- The text of an expression. The left side of `or` and of `and` may be of its own level, the
right side must bind more tightly. -/
def chars (t : Tree) : Written → List Char
  | constant b => if b then "true".toList else "false".toList
  | binary op left right => left.chars t ++ ' ' :: op.chars ++ ' ' :: right.chars t
  | not inner => "not ".toList ++ inner.enclose 2 (inner.chars t)
  | logic .or left right => left.chars t ++ " or ".toList ++ right.enclose 1 (right.chars t)
  | logic .and left right =>
    left.enclose 1 (left.chars t) ++ " and ".toList ++ right.enclose 2 (right.chars t)
  | choice cond whenTrue otherwise =>
    "if(".toList ++ cond.chars t ++ ", ".toList ++ whenTrue.chars t ++ ", ".toList ++
      otherwise.chars t ++ [')']
  | group inner => '(' :: inner.chars t ++ [')']

def text (t : Tree) (w : Written) : String := .ofList (w.chars t)

end Written
end LayeredTable
