import LayeredTable.Defect
import LayeredTable.Tree.Basic

/-! Filling a tree from decoded rows. Columns and rows are numbered from 1 in the order they come.
A value that does not conform to its column's type is stored as null. Nulls and repeated values of
a unique column are stored hidden. What is wrong with the data goes to the defect log, and only a
wrong shape is an error. -/
namespace LayeredTable

structure ColumnDecl where
  name : String
  type : FieldType
  nullable : Nullable := {}
  unique : Bool := false
  deriving DecidableEq, Repr

/-- A declared column: its node, its number, and the texts of the values that it holds so far, if
it is unique. -/
structure IngestColumn where
  node : Nat
  index : UInt32
  decl : ColumnDecl
  seen : List String := []
  deriving DecidableEq, Repr

namespace IngestColumn

/-- What is stored of a given value. -/
def stored (c : IngestColumn) (given : Value) : Value :=
  if given.conformsTo c.decl.type then given else .null

/-- The text by which a unique column knows a stored value. -/
def key? (c : IngestColumn) (v : Value) : Option String :=
  if c.decl.unique && !v.isNull then some v.toText else none

def repeats (c : IngestColumn) (v : Value) : Bool := (c.key? v).any c.seen.contains

/-- Whether the cell of a stored value starts hidden. -/
def hides (c : IngestColumn) (v : Value) : Bool := v.isNull || c.repeats v

def remember (c : IngestColumn) (v : Value) : IngestColumn :=
  { c with seen := (c.key? v).toList ++ c.seen }

def mismatch (c : IngestColumn) (given : Value) : Defect :=
  .of (c.decl.name ++ ": expected " ++ c.decl.type.label ++ " but found " ++ given.kind.label)

def duplicate (c : IngestColumn) (v : Value) : Defect :=
  (Defect.of ("duplicate id [" ++ v.toText ++ "]")).withKey c.decl.name v.toText

/-- What is wrong with a given value: first its type, then that it is missing or repeated. -/
def defects (c : IngestColumn) (row : UInt32) (given : Value) : List Defect :=
  let v := c.stored given
  let typed := if given.isNull || given.conformsTo c.decl.type then [] else [c.mismatch given]
  let present :=
    if v.isNull && !c.decl.nullable.allowed then
      [Defect.of "null value found in non-null field"]
    else []
  let fresh := if c.repeats v then [c.duplicate v] else []
  (typed ++ present ++ fresh).map fun d => d.atCell c.index row

def cell (c : IngestColumn) (row : UInt32) (v : Value) : NodeSpec :=
  (NodeSpec.cell (.of c.index row) v).withType c.decl.type

end IngestColumn

structure Ingest where
  tree : Tree := .new
  columns : List IngestColumn := []
  nextRow : UInt32 := 1
  defects : DefectLog := {}
  deriving DecidableEq, Repr, Inhabited

/-- A step of ingestion. What it has changed when it fails stays changed. -/
abbrev IngestStep := EStateM TreeError Ingest

namespace Ingest

def onTree (f : Tree → Except TreeError (α × Tree)) : IngestStep α := do
  match f (← get).tree with
  | .ok (a, tree) => modify fun s => { s with tree }; return a
  | .error e => throw e

def declareColumn (decl : ColumnDecl) : IngestStep Nat := do
  let columns := (← get).columns
  if columns.any fun c => c.decl.name == decl.name then throw (.duplicateColumn decl.name)
  if UInt32.size ≤ columns.length + 1 then throw .rowLimit
  let index := UInt32.ofNat (columns.length + 1)
  let node ← onTree fun t => t.add 0 (.column index decl.name decl.type decl.nullable) false
  modify fun s => { s with columns := s.columns ++ [{ node, index, decl }] }
  return node

def note (row : UInt32) (column : IngestColumn) (given : Value) : IngestStep Unit :=
  modify fun s => { s with
    defects := s.defects.logAll (column.defects row given)
    columns := s.columns.map fun c =>
      if c.node = column.node then c.remember (column.stored given) else c }

def addCell (row : UInt32) (column : IngestColumn) (given : Value) : IngestStep Nat := do
  let v := column.stored given
  note row column given
  onTree fun t => t.add column.node (column.cell row v) (column.hides v)

def addCells (row : UInt32) : List IngestColumn → List Value → IngestStep (List Nat)
  | column :: columns, value :: values => do
    let cell ← addCell row column value
    return cell :: (← addCells row columns values)
  | _, _ => return []

def linkCells : List Nat → IngestStep Unit
  | left :: right :: cells => do
    let _ ← onTree fun t => t.linkNext left right
    let _ ← onTree fun t => t.linkPrev right left
    linkCells (right :: cells)
  | _ => return ()

def addRow (values : List Value) : IngestStep UInt32 := do
  let s ← get
  if values.length ≠ s.columns.length then
    throw (.rowWidth s.columns.length values.length)
  let row := s.nextRow
  if row = 4294967295 then throw .rowLimit
  modify fun s => { s with nextRow := row + 1 }
  linkCells (← addCells row s.columns values)
  return row

def rowCount (s : Ingest) : UInt32 := s.nextRow - 1

end Ingest
end LayeredTable
