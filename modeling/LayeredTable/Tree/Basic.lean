import LayeredTable.CellId
import LayeredTable.Value

/-! The tree of a table: a root whose children are columns whose children are cells. Nodes are
never removed and their contents never change; what changes is which children are hidden. Each
node holds one hidden map for each visibility version, and the tree names the active version. -/
namespace LayeredTable

abbrev HiddenMap := OrderedMap CellId Bool

/-- A root, a column or a cell, with its links and its hidden maps by version. -/
structure Node where
  id : CellId
  name : String := ""
  value : Value := .null
  type : FieldType := .unknown
  nullable : Nullable := {}
  parent : Option Nat := none
  /-- The positions of the children, by their ids. -/
  children : OrderedMap CellId Nat := .empty
  /-- The least and the greatest row among the children, zero without any. -/
  leastRow : UInt32 := 0
  greatestRow : UInt32 := 0
  /-- The neighbours in the same table row. -/
  next : Option Nat := none
  prev : Option Nat := none
  layers : Array HiddenMap
  deriving DecidableEq, Repr

def Node.widen (n : Node) (row : UInt32) : Node :=
  if n.children.isEmpty then { n with leastRow := row, greatestRow := row }
  else { n with leastRow := min n.leastRow row, greatestRow := max n.greatestRow row }

/-- The nodes by position, the root first, and the active version. -/
structure Tree where
  nodes : Array Node
  version : Nat
  deriving DecidableEq, Repr

inductive TreeError
  | unknownId (id : CellId)
  | unknownNode (position : Nat)
  | duplicateId (parent id : CellId)
  | duplicateColumn (name : String)
  | rowWidth (expected found : Nat)
  | rowLimit
  | staleLayer (version : Nat)
  deriving DecidableEq, Repr

def TreeError.message : TreeError → String
  | unknownId id => "id " ++ id.text ++ " does not exist in node"
  | unknownNode position =>
    "node index " ++ Text.natText position ++ " is not part of this tree"
  | duplicateId parent id =>
    "node " ++ parent.text ++ " already has a child with id " ++ id.text
  | duplicateColumn name => "column " ++ Text.quoted name ++ " is already defined"
  | rowWidth expected found =>
    "row has " ++ Text.natText found ++ " fields but " ++ Text.natText expected ++
      " columns are defined"
  | rowLimit => "row index space exhausted"
  | staleLayer version =>
    "visibility layer " ++ Text.natText version ++ " no longer exists"

structure NodeSpec where
  id : CellId
  name : String := ""
  value : Value := .null
  type : FieldType := .unknown
  nullable : Nullable := {}
  deriving DecidableEq, Repr

namespace NodeSpec

def column (index : UInt32) (name : String) (type : FieldType) (nullable : Nullable) : NodeSpec :=
  { id := .header index, name, type, nullable }

def cell (id : CellId) (value : Value) : NodeSpec := { id, value }

def withType (spec : NodeSpec) (type : FieldType) : NodeSpec := { spec with type }

end NodeSpec

namespace Tree

def new (rootId : CellId := ⟨0⟩) : Tree := ⟨#[{ id := rootId, layers := #[.empty] }], 0⟩

instance : Inhabited Tree := ⟨new⟩

def size (t : Tree) : Nat := t.nodes.size

def isEmpty (t : Tree) : Bool := t.size == 1

def node (t : Tree) (i : Nat) : Except TreeError Node :=
  match t.nodes[i]? with
  | some n => .ok n
  | none => .error (.unknownNode i)

def children (t : Tree) (i : Nat) : OrderedMap CellId Nat :=
  (t.nodes[i]?.map (·.children)).getD .empty

/-- The first child of a name, in the order of ids. -/
def findByName (t : Tree) (i : Nat) (name : String) : Option Nat :=
  (t.children i).values.find? fun c => (t.nodes[c]?.map (·.name)) == some name

def findById (t : Tree) (i : Nat) (id : CellId) : Option Nat := (t.children i).get? id

/-- How many versions each node holds a hidden map for. -/
def versionCount (t : Tree) : Nat := (t.nodes[0]?.map (·.layers.size)).getD 0

def maxRow (t : Tree) : UInt32 :=
  ((t.children 0).values.map fun c => (t.nodes[c]?.map (·.greatestRow)).getD 0).foldl max 0

def rootOf (t : Tree) (i : Nat) : Nat :=
  match t.nodes[i]?.bind (·.parent) with
  | some p => if p < i then t.rootOf p else i
  | none => i
termination_by i

def setHidden (t : Tree) (i version : Nat) (id : CellId) (hidden : Bool) : Tree :=
  { t with nodes := t.nodes.modify i fun n =>
      { n with layers := n.layers.modify version (·.insert id hidden) } }

/-- Adds a node below `parent`, in the active version hidden or not. It starts with an empty map
for each version. The answer is its position. -/
def add (t : Tree) (parent : Nat) (spec : NodeSpec) (hidden : Bool) :
    Except TreeError (Nat × Tree) :=
  match t.nodes[parent]? with
  | none => .error (.unknownNode parent)
  | some p =>
    if p.children.contains spec.id then .error (.duplicateId p.id spec.id)
    else
      let child : Node :=
        { spec with
          parent := some parent
          layers := Array.replicate t.versionCount .empty }
      let nodes := t.nodes.modify parent fun n =>
        { n.widen spec.id.row with children := n.children.insert spec.id t.size }
      .ok (t.size, { t with nodes := nodes.push child }.setHidden parent t.version spec.id hidden)

/-- Sets the next node of `i` unless it has one. The answer is the one it has then. -/
def linkNext (t : Tree) (i next : Nat) : Except TreeError (Nat × Tree) := do
  let _ ← t.node next
  let n ← t.node i
  match n.next with
  | some there => return (there, t)
  | none =>
    return (next, { t with nodes := t.nodes.modify i fun n => { n with next := some next } })

def linkPrev (t : Tree) (i prev : Nat) : Except TreeError (Nat × Tree) := do
  let _ ← t.node prev
  let n ← t.node i
  match n.prev with
  | some there => return (there, t)
  | none =>
    return (prev, { t with nodes := t.nodes.modify i fun n => { n with prev := some prev } })

def firstOf (t : Tree) : (steps : Nat) → Nat → Nat
  | 0, i => i
  | steps + 1, i =>
    match t.nodes[i]?.bind (·.prev) with
    | some p => t.firstOf steps p
    | none => i

def chainFrom (t : Tree) : (limit : Nat) → Nat → List Nat
  | 0, _ => []
  | limit + 1, i =>
    i :: match t.nodes[i]?.bind (·.next) with
      | some n => t.chainFrom limit n
      | none => []

/-- The cells linked with a cell, from the first one on. Links may run in circles, so neither walk
is longer than the tree has nodes. -/
def rowCells (t : Tree) (i : Nat) : Except TreeError (List Nat) := do
  let _ ← t.node i
  return t.chainFrom t.size (t.firstOf t.size i)

end Tree
end LayeredTable
