import LayeredTable.Tree.Basic

/-! Visibility versions of a tree. Version 0 is the one in which the table was read. A fork opens a
version in which all that was known is hidden, and a reset goes back to version 0; a handle on a
forked layer keeps writing to its own version. -/
namespace LayeredTable

structure LayerHandle where
  node : Nat
  version : Nat
  deriving DecidableEq, Repr

/-- The rows that are left out because a column that must not be null hides their cell. -/
structure Exclusions where
  /-- One more than the greatest row. -/
  length : Nat
  marked : OrderedMap UInt32 Unit
  deriving DecidableEq, Repr

namespace Exclusions

def contains (e : Exclusions) (row : UInt32) : Bool := e.marked.contains row

def rows (e : Exclusions) : List UInt32 := e.marked.keys

end Exclusions

def Node.layer (n : Node) (version : Nat) : HiddenMap := n.layers.getD version .empty

/-- Drops the layers after `version` and adds one that hides every id known to that version. -/
def Node.fork (n : Node) (version : Nat) : Node :=
  { n with layers :=
      (n.layers.extract 0 (version + 1)).push ((n.layer version).map fun _ => true) }

namespace Tree

def hiddenMap (t : Tree) (i : Nat) : HiddenMap :=
  (t.nodes[i]?.map (·.layer t.version)).getD .empty

def isHidden? (t : Tree) (i : Nat) (id : CellId) : Option Bool := (t.hiddenMap i).get? id

def excluded (t : Tree) (i : Nat) (id : CellId) : Except TreeError Bool :=
  match t.isHidden? i id with
  | some hidden => .ok hidden
  | none => .error (.unknownId id)

def toggle (t : Tree) (i : Nat) (id : CellId) (hidden : Bool) : Tree :=
  t.setHidden i t.version id hidden

/-- The rows of a column's hidden cells. -/
def hiddenRows (t : Tree) (column : Nat) : List UInt32 :=
  ((t.children column).keys.filter fun id => (t.isHidden? column id).getD false).map (·.row)

/-- Whether hidden cells of a root's column leave out their rows: the column is visible and admits
no null. -/
def constrains (t : Tree) (root : Nat) (column : CellId × Nat) : Bool :=
  !(t.isHidden? root column.1).getD false &&
    !(t.nodes[column.2]?.map (·.nullable.allowed)).getD false

def exclusions (t : Tree) (i : Nat) : Exclusions :=
  let root := t.rootOf i
  let length := t.maxRow.toNat + 1
  let columns := (t.children root).entries.filter (t.constrains root)
  let rows := (columns.flatMap fun column => t.hiddenRows column.2).filter (·.toNat < length)
  { length, marked := .ofList (rows.map fun row => (row, ())) }

/-- A node and all nodes below it, each before its children. Children come after their parents, so
an entry that points back is no child and is left out. -/
def subtree (t : Tree) (i : Nat) : List Nat :=
  i :: (t.children i).values.flatMap fun c => if i < c ∧ c < t.size then t.subtree c else []
termination_by t.size - i

/-- Opens a new version in every node of the tree that holds node `i`, from its root down. -/
def fork (t : Tree) (i : Nat) : LayerHandle × Tree :=
  let version := t.version + 1
  (⟨i, version⟩,
    { nodes := (t.subtree (t.rootOf i)).foldl
        (fun nodes j => nodes.modify j (·.fork t.version)) t.nodes
      version })

/-- Goes back to the version in which the table was read. -/
def reset (t : Tree) : Tree := { t with version := 0 }

def layerSnapshot (t : Tree) (l : LayerHandle) : Except TreeError HiddenMap :=
  match t.nodes[l.node]?.bind fun n => n.layers[l.version]? with
  | some m => .ok m
  | none => .error (.staleLayer l.version)

def layerToggle (t : Tree) (l : LayerHandle) (id : CellId) (hidden : Bool) :
    Except TreeError Tree := do
  let _ ← t.layerSnapshot l
  return t.setHidden l.node l.version id hidden

end Tree
end LayeredTable
