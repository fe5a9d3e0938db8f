import LayeredTable.Expr.Eval

/-! Views: selected columns of a node, and of their cells those in rows that a predicate accepts,
shown in a version of their own. -/
namespace LayeredTable

inductive ViewError
  | fromAlreadySet
  | whereNotBoolean
  | missingFrom
  | noSelection
  | unknownField (name : String)
  | expr (cause : ExprError)
  | tree (cause : TreeError)
  deriving DecidableEq, Repr

def ViewError.message : ViewError → String
  | fromAlreadySet => "root node has already been set"
  | whereNotBoolean => "where clause expressions must evaluate to boolean(s)"
  | missingFrom => "view [From] must be defined"
  | noSelection => "can not create a view without one or more selected nodes"
  | unknownField name => "selected field " ++ name ++ " could not be found"
  | expr cause => cause.message
  | tree cause => cause.message

inductive ViewClause
  /-- The node whose children can be selected; only one is accepted. -/
  | source (node : Nat)
  /-- More columns to show. -/
  | select (names : List String)
  /-- The predicate, in place of any before. -/
  | filter (e : Expr)
  deriving DecidableEq, Repr

structure ViewPlan where
  source : Option Nat := none
  names : List String := []
  filter : Option Expr := none
  deriving DecidableEq, Repr, Inhabited

structure View where
  root : Nat
  version : Nat
  columns : List Nat
  deriving DecidableEq, Repr

structure ViewState where
  tree : Tree
  eval : EvalState := {}
  deriving DecidableEq, Repr

/-- A step of building a view. What it has changed when it fails stays changed. -/
abbrev ViewStep := EStateM ViewError ViewState

namespace ViewPlan

def apply : ViewClause → EStateM ViewError ViewPlan Unit
  | .source node => do
    if (← get).source.isSome then throw .fromAlreadySet
    modify fun p => { p with source := some node }
  | .select names => modify fun p => { p with names := p.names ++ names }
  | .filter e => modify fun p => { p with filter := some e }

def accepted (policy : Policy) : Option Expr → ViewStep (Option RowValues)
  | none => return none
  | some e => fun s =>
    match e.eval s.tree policy s.eval with
    | .error cause eval => .error (.expr cause) { s with eval }
    | .ok o eval =>
      if o.type = .bool then .ok (some o.values) { s with eval }
      else .error .whereNotBoolean { s with eval }

/-- The children of a node that have the given names. -/
def findColumns (t : Tree) (root : Nat) (names : List String) : Except ViewError (List Nat) :=
  names.mapM fun name =>
    match t.findByName root name with
    | some i => .ok i
    | none => .error (.unknownField name)

/-- Shows or hides each cell of a column by the boolean that its row has, if it has one. -/
def reveal (rows : RowValues) (column : Nat) (t : Tree) : Tree :=
  (t.children column).keys.foldl
    (fun t id =>
      match rows.get? id.row with
      | some (.bool keep) => t.toggle column id (!keep)
      | _ => t) t

/-- Shows a column of a forked layer, and of its cells those that the predicate accepts. -/
def showColumn (layer : LayerHandle) (rows : Option RowValues) (column : Nat) : ViewStep Unit := do
  let t := (← get).tree
  let id := ((t.nodes[column]?).map (·.id)).getD ⟨0⟩
  match t.layerToggle layer id false with
  | .error e => throw (.tree e)
  | .ok t =>
    let shown := match rows with
      | some rows => reveal rows column t
      | none => t
    modify fun s => { s with tree := shown }

/-- Forks the tree and shows in the new version what was selected. All columns are found before
the fork, so a missing one leaves the tree alone. -/
def build (policy : Policy) (p : ViewPlan) : ViewStep View := do
  let root ← match p.source with
    | some root => pure root
    | none => throw .missingFrom
  if p.names.isEmpty then throw .noSelection
  let rows ← accepted policy p.filter
  let columns ← match findColumns (← get).tree root p.names with
    | .ok columns => pure columns
    | .error e => throw e
  let (layer, tree) := (← get).tree.fork root
  modify fun s => { s with tree }
  columns.forM (showColumn layer rows)
  return { root, version := layer.version, columns }

end ViewPlan

namespace View

def new (policy : Policy) (clauses : List ViewClause) : ViewStep View := fun s =>
  match (clauses.forM ViewPlan.apply) {} with
  | .error e _ => .error e s
  | .ok _ b => b.build policy s

/-- The rows whose cell is now visible in the first selected column. -/
def visibleRows (v : View) (t : Tree) : List UInt32 :=
  match v.columns with
  | [] => []
  | first :: _ =>
    ((t.hiddenMap first).entries.filter fun entry => !entry.2).map fun entry => entry.1.row

end View
end LayeredTable
