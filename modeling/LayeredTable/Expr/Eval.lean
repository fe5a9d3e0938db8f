import LayeredTable.Defect
import LayeredTable.Expr.Basic
import LayeredTable.Expr.RowValues
import LayeredTable.Policy
import LayeredTable.Tree.Visibility

/-! Evaluating expressions. A comparison or a sum goes through the cells of its left column; rows
that are left out, hidden or without a partner get a neutral value, and a row whose values do not
fit is recorded and becomes null. Logic and choice join the results of their operands; when an
operand fails, the evaluation's cancel flag is raised. -/
namespace LayeredTable

namespace BinaryOp

def orderedTypes : List FieldType :=
  [.integer .uint8, .integer .uint16, .integer .uint32, .integer .uint64, .integer .int8,
    .integer .int16, .integer .int32, .integer .int64, .timestamp, .float32, .float64, .date,
    .text]

def subtractiveTypes : List FieldType :=
  [.integer .uint8, .integer .uint16, .integer .uint32, .integer .uint64, .integer .int8,
    .integer .int16, .integer .int32, .integer .int64, .float32, .float64, .timestamp, .date]

def allowed : BinaryOp → List FieldType
  | lt | gt | ge | le => orderedTypes
  | eq | ne => orderedTypes ++ [.bool]
  | add => subtractiveTypes ++ [.text]
  | subtract => subtractiveTypes

def resultType (op : BinaryOp) (t : FieldType) : FieldType :=
  if op.isComparison then .bool
  else if t.isNumeric then .float64
  else if t.isTemporal then .timestamp
  else t

/-- The value of a row that is left out, hidden or without a partner. -/
def skipped (op : BinaryOp) : Value := if op.isComparison then .bool false else .null

def holds (op : BinaryOp) (order : Option Ordering) : Bool :=
  match op, order with
  | lt, some .lt | gt, some .gt | eq, some .eq => true
  | ge, some .gt | ge, some .eq | le, some .lt | le, some .eq => true
  | ne, some .lt | ne, some .gt => true
  | _, _ => false

/-- The instant at a number of seconds, or null outside the range of instants. -/
def ofEpoch (seconds : Int) : Value :=
  match Instant.of? seconds 0 with
  | some t => .instant t
  | none => .null

def addValues (a b : Value) : Except TypeError Value :=
  match a, b with
  | .text x, .text y => .ok (.text (x ++ y))
  | .instant x, .instant y => .ok (ofEpoch (x.seconds + y.seconds))
  | a, b => do
    let x ← a.toDouble
    let y ← b.toDouble
    return .float64 (x.add y)

def subtractValues (a b : Value) : Except TypeError Value :=
  match a, b with
  | .instant x, .instant y => .ok (ofEpoch (x.seconds - y.seconds))
  | a, b => do
    let x ← a.toDouble
    let y ← b.toDouble
    return .float64 (x.subtract y)

def apply (op : BinaryOp) (a b : Value) : Except TypeError Value :=
  match op with
  | add => addValues a b
  | subtract => subtractValues a b
  | _ => (a.order b).map fun order => .bool (op.holds order)

end BinaryOp

structure EvalState where
  cancelled : Bool := false
  defects : DefectLog := {}
  deriving DecidableEq, Repr, Inhabited

/-- A step of evaluation. Defects recorded and flags raised before it fails stay. -/
abbrev Eval := EStateM ExprError EvalState

def Eval.ofExcept (wrap : ε → ExprError) : Except ε α → Eval α
  | .ok a => return a
  | .error e => throw (wrap e)

def Eval.attempt (step : Eval α) : Eval (Except ExprError α) := fun s =>
  match step s with
  | .ok a s => .ok (.ok a) s
  | .error e s => .ok (.error e) s

/-- Hands on what came of operands. An error raises the cancel flag. -/
def Eval.deliver : Except ExprError α → Eval α
  | .ok a => return a
  | .error e => do
    modify fun s => { s with cancelled := true }
    throw e

/-- Operands are evaluated one after the other, each to its end. That is one of the orders in which
they can work side by side. Of several errors the one that came last is delivered. -/
def Eval.both (first : Eval α) (second : Eval β) : Eval (α × β) := do
  let a ← Eval.attempt first
  let b ← Eval.attempt second
  Eval.deliver do
    let b ← b
    let a ← a
    return (a, b)

def Eval.all (first : Eval α) (second : Eval β) (third : Eval γ) : Eval (α × β × γ) := do
  let a ← Eval.attempt first
  let b ← Eval.attempt second
  let c ← Eval.attempt third
  Eval.deliver do
    let c ← c
    let b ← b
    let a ← a
    return (a, b, c)

/-- Refuses to go on when the evaluation was cancelled or its deadline has passed; the latter
cancels it. -/
def Eval.checkpoint (policy : Policy) : Eval Unit := do
  if (← get).cancelled then throw .cancelled
  if policy.expired then
    modify fun s => { s with cancelled := true }
    throw .deadlineExceeded

def Eval.recordRows (policy : Policy) (ds : List Defect) : Eval Unit :=
  if policy.recordRowDefects then modify fun s => { s with defects := s.defects.logAll ds }
  else return ()

def Operand.type (t : Tree) : Operand → Except TreeError FieldType
  | column i => (t.node i).map (·.type)
  | literal _ type => .ok type

inductive Partner
  | fixed (v : Value)
  | column (node : Nat)
  deriving DecidableEq, Repr

namespace Partner

/-- A literal is cast to the type that the sides share. -/
def ofOperand (t : Tree) (type : FieldType) : Operand → Except ExprError Partner
  | .column i => do
    let _ ← (t.node i).mapError .tree
    return column i
  | .literal v _ => ((v.cast type).mapError .resolve).map fixed

/-- The value beside a row; there is none where the column's cell is hidden or missing. -/
def valueAt? (t : Tree) (p : Partner) (row : UInt32) : Option Value :=
  match p with
  | fixed v => some v
  | column i => do
    let n ← t.nodes[i]?
    let id := CellId.of n.id.column row
    if (t.isHidden? i id).getD true then none
    else
      let cell ← t.findById i id
      (t.nodes[cell]?).map (·.value)

end Partner

structure Scan where
  op : BinaryOp
  column : Nat
  partner : Partner
  type : FieldType
  deriving DecidableEq, Repr

namespace Scan

/-- The value for two cells that count, and what is wrong with them. Both must conform to the
shared type. -/
def combine (s : Scan) (a b : Value) : Value × Option String :=
  if !a.conformsTo s.type || !b.conformsTo s.type then
    (.null, some (s.op.name ++ ": expected " ++ s.type.label ++ " but found " ++ a.kind.label ++
      " and " ++ b.kind.label))
  else
    match s.op.apply a b with
    | .ok v => (v, none)
    | .error e => (.null, some (s.op.name ++ ": " ++ e.message))

/-- The values of the two cells that a row of the left column combines, unless the row is left
out, either cell is hidden or the right one is missing. A cell without visibility is hidden. -/
def operands? (s : Scan) (t : Tree) (excluded : Exclusions) (id : CellId) (cell : Nat) :
    Option (Value × Value) :=
  if excluded.contains id.row || (t.isHidden? s.column id).getD true then none
  else do
    let b ← s.partner.valueAt? t id.row
    return (((t.nodes[cell]?).map (·.value)).getD .null, b)

def row (s : Scan) (t : Tree) (excluded : Exclusions) (entry : CellId × Nat) :
    (UInt32 × Value) × Option Defect :=
  let (id, cell) := entry
  match s.operands? t excluded id cell with
  | none => ((id.row, s.op.skipped), none)
  | some (a, b) =>
    let (v, problem) := s.combine a b
    ((id.row, v), problem.map fun message => (Defect.of message).atCell id.column id.row)

def rows (s : Scan) (t : Tree) : List ((UInt32 × Value) × Option Defect) :=
  (t.children s.column).entries.map (s.row t (t.exclusions s.column))

def outcome (s : Scan) (t : Tree) : Outcome :=
  ⟨.ofList ((s.rows t).map (·.1)), s.op.resultType s.type⟩

def defects (s : Scan) (t : Tree) : List Defect := (s.rows t).filterMap (·.2)

def resolve (t : Tree) (op : BinaryOp) : Operand → Operand → Except ExprError Scan
  | .literal _ _, _ => .error (.literalOnLeft op.name)
  | .column i, right => do
    let n ← (t.node i).mapError .tree
    let other ← (right.type t).mapError .tree
    let type ← (commonType op.allowed n.type other).mapError .resolve
    let partner ← Partner.ofOperand t type right
    return { op, column := i, partner, type }

end Scan

/-- Whether each child of a column is hidden, or whether it is not, by row. -/
def hiddenCheck (t : Tree) (op : BinaryOp) (wantHidden : Bool) : Operand → Except ExprError Outcome
  | .literal _ _ => .error (.literalOnLeft op.name)
  | .column i => do
    let _ ← (t.node i).mapError .tree
    return ⟨.ofList ((t.hiddenMap i).entries.map fun entry =>
      (entry.1.row, .bool (entry.2 == wantHidden))), .bool⟩

namespace Outcome

def ofBool (b : Bool) : Outcome := ⟨.ofConstant (.bool b), .bool⟩

def negate (o : Outcome) : Outcome :=
  ⟨o.values.map fun
    | .bool b => .bool (!b)
    | v => v, .bool⟩

def requireBool (operator : String) (o : Outcome) : Except ExprError Unit :=
  if o.type = .bool then .ok () else .error (.notBoolean operator o.type)

/-- Joins two boolean results row by row. What is no boolean counts as false, and rows that are
left out are false whatever the operands say. -/
def join (op : Logic) (excluded : Exclusions) (l r : Outcome) : Outcome :=
  let rows := l.values.rows.keys ++ r.values.rows.keys ++ excluded.rows.filter (1 ≤ ·)
  let at? (row : UInt32) : Bool :=
    !excluded.contains row &&
      op.combine ((l.values.boolAt? row).getD false) ((r.values.boolAt? row).getD false)
  let constant := do
    let a ← l.values.constant.bind Value.asBool?
    let b ← r.values.constant.bind Value.asBool?
    return Value.bool (op.combine a b)
  ⟨{ rows := .ofList (rows.map fun row => (row, .bool (at? row))), constant }, .bool⟩

/-- The value that a choice takes at a row, and the defect when the chosen branch has none. -/
def choose (whenTrue otherwise : Outcome) (row : UInt32) (cond : Value) :
    (UInt32 × Value) × Option Defect :=
  let (name, branch) :=
    if cond.asBool? = some true then ("then", whenTrue) else ("else", otherwise)
  match branch.values.get? row with
  | some v => ((row, v), none)
  | none =>
    ((row, .bool false), some ((Defect.of ("row " ++ Text.natText row.toNat ++ " missing from " ++
      name ++ " branch")).atRow row))

def chooseRows (cond whenTrue otherwise : Outcome) : List ((UInt32 × Value) × Option Defect) :=
  cond.values.rows.entries.map fun entry => choose whenTrue otherwise entry.1 entry.2

/-- The branch that a condition without rows selects as a whole. -/
def wholeBranch? (cond whenTrue otherwise : Outcome) : Option Outcome :=
  if cond.values.rows.isEmpty then
    (cond.values.constant.bind Value.asBool?).map fun b => if b then whenTrue else otherwise
  else none

end Outcome

def Eval.choose (policy : Policy) (cond whenTrue otherwise : Outcome) : Eval Outcome := do
  Eval.ofExcept id (cond.requireBool "if")
  if whenTrue.type ≠ otherwise.type then
    throw (.resolve (.mismatch whenTrue.type otherwise.type))
  match Outcome.wholeBranch? cond whenTrue otherwise with
  | some o => return o
  | none =>
    let rows := Outcome.chooseRows cond whenTrue otherwise
    Eval.recordRows policy (rows.filterMap (·.2))
    return ⟨.ofList (rows.map (·.1)), whenTrue.type⟩

namespace Expr

/-- Evaluates a comparison or a sum. Equality with null asks which cells are hidden. -/
def evalBinary (t : Tree) (policy : Policy) (op : BinaryOp) (left right : Operand) :
    Eval Outcome :=
  match op, right.isNull with
  | .eq, true => Eval.ofExcept id (hiddenCheck t .eq true left)
  | .ne, true => Eval.ofExcept id (hiddenCheck t .ne false left)
  | op, _ => do
    let scan ← Eval.ofExcept id (Scan.resolve t op left right)
    Eval.recordRows policy (scan.defects t)
    return scan.outcome t

def eval (t : Tree) (policy : Policy) : Expr → Eval Outcome
  | constant b => do
    Eval.checkpoint policy
    return .ofBool b
  | binary op left right => do
    Eval.checkpoint policy
    evalBinary t policy op left right
  | not inner => do
    Eval.checkpoint policy
    let o ← inner.eval t policy
    Eval.ofExcept id (o.requireBool "not")
    return o.negate
  | logic op left right => do
    Eval.checkpoint policy
    let (l, r) ← Eval.both (left.eval t policy) (right.eval t policy)
    Eval.ofExcept id (l.requireBool op.name)
    Eval.ofExcept id (r.requireBool op.name)
    return .join op (t.exclusions 0) l r
  | choice cond whenTrue otherwise => do
    Eval.checkpoint policy
    let (c, a, b) ←
      Eval.all (cond.eval t policy) (whenTrue.eval t policy) (otherwise.eval t policy)
    Eval.choose policy c a b

end Expr

structure EvalContext where
  policy : Policy := {}
  state : EvalState := {}
  deriving DecidableEq, Repr, Inhabited

namespace EvalContext

def cancel (c : EvalContext) : EvalContext := { c with state := { c.state with cancelled := true } }

def eval (c : EvalContext) (t : Tree) (e : Expr) : Except ExprError Outcome × EvalContext :=
  match e.eval t c.policy c.state with
  | .ok o state => (.ok o, { c with state })
  | .error err state => (.error err, { c with state })

end EvalContext
end LayeredTable
