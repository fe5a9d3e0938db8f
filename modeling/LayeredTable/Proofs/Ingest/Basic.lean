import LayeredTable.Ingest
import LayeredTable.Proofs.State
import LayeredTable.Proofs.Tree.Cover

/-! Ingestion as a run of actions. Whatever is declared and added, in any order and whether or not
it is refused, does nothing to the tree but grow it. -/
namespace LayeredTable

inductive IngestAction
  | column (decl : ColumnDecl)
  | row (values : List Value)
  deriving DecidableEq, Repr

namespace Ingest

variable {α β : Type} {s : Ingest}

def after : EStateM.Result TreeError Ingest α → Ingest
  | .ok _ s | .error _ s => s

def perform (s : Ingest) : IngestAction → Ingest
  | .column decl => after (declareColumn decl s)
  | .row values => after (addRow values s)

def run (s : Ingest) (actions : List IngestAction) : Ingest := actions.foldl perform s

def start (log : DefectLog) : Ingest := { defects := log }

theorem onTree_eq (f : Tree → Except TreeError (α × Tree)) (s : Ingest) : onTree f s =
    match f s.tree with
    | .ok (a, tree) => .ok a { s with tree }
    | .error e => .error e s := by
  rw [onTree, get_bind]
  cases f s.tree <;> rfl

def nextIndex (s : Ingest) : UInt32 := UInt32.ofNat (s.columns.length + 1)

theorem declareColumn_eq (decl : ColumnDecl) (s : Ingest) : declareColumn decl s =
    if s.columns.any fun c => c.decl.name == decl.name then
      .error (.duplicateColumn decl.name) s
    else if UInt32.size ≤ s.columns.length + 1 then .error .rowLimit s
    else
      match s.tree.add 0 (.column s.nextIndex decl.name decl.type decl.nullable) false with
      | .ok (node, tree) =>
        .ok node { s with tree, columns := s.columns ++ [{ node, index := s.nextIndex, decl }] }
      | .error e => .error e s := by
  rw [declareColumn, get_bind]
  simp only
  split
  · rfl
  · split
    · rfl
    · simp only [bind, EStateM.bind, onTree_eq, nextIndex]
      cases s.tree.add 0 (.column (.ofNat (s.columns.length + 1)) decl.name decl.type
        decl.nullable) false <;> rfl

theorem addRow_eq (values : List Value) (s : Ingest) : addRow values s =
    if values.length ≠ s.columns.length then
      .error (.rowWidth s.columns.length values.length) s
    else if s.nextRow = 4294967295 then .error .rowLimit s
    else
      match addCells s.nextRow s.columns values { s with nextRow := s.nextRow + 1 } with
      | .ok cells m =>
        match linkCells cells m with
        | .ok _ m => .ok s.nextRow m
        | .error e m => .error e m
      | .error e m => .error e m := by
  rw [addRow, get_bind]
  simp only
  split
  · rfl
  · split
    · rfl
    · rw [modify_bind]
      simp only [bind, EStateM.bind]
      cases addCells s.nextRow s.columns values { s with nextRow := s.nextRow + 1 } with
      | error e m => rfl
      | ok cells m =>
        simp only
        cases linkCells cells m <;> rfl

theorem addCells_cons (row : UInt32) (column : IngestColumn) (columns : List IngestColumn)
    (given : Value) (values : List Value) (s : Ingest) :
    addCells row (column :: columns) (given :: values) s =
      match addCell row column given s with
      | .ok cell m =>
        match addCells row columns values m with
        | .ok cells m => .ok (cell :: cells) m
        | .error e m => .error e m
      | .error e m => .error e m := by
  simp only [addCells, bind, EStateM.bind]
  cases addCell row column given s with
  | error e m => rfl
  | ok cell m =>
    simp only
    cases addCells row columns values m <;> rfl

def noted (s : Ingest) (row : UInt32) (column : IngestColumn) (given : Value) : Ingest :=
  { s with
    defects := s.defects.logAll (column.defects row given)
    columns := s.columns.map fun c =>
      if c.node = column.node then c.remember (column.stored given) else c }

theorem addCell_eq (row : UInt32) (column : IngestColumn) (given : Value) (s : Ingest) :
    addCell row column given s =
      match s.tree.add column.node (column.cell row (column.stored given))
        (column.hides (column.stored given)) with
      | .ok (cell, tree) => .ok cell { s.noted row column given with tree }
      | .error e => .error e (s.noted row column given) := by
  rw [addCell, note, modify_bind, onTree_eq]
  cases s.tree.add column.node (column.cell row (column.stored given))
    (column.hides (column.stored given)) <;> rfl

theorem linkCells_cons (left right : Nat) (cells : List Nat) (s : Ingest) :
    linkCells (left :: right :: cells) s =
      match s.tree.linkNext left right with
      | .error e => .error e s
      | .ok (_, t) =>
        match t.linkPrev right left with
        | .error e => .error e { s with tree := t }
        | .ok (_, u) => linkCells (right :: cells) { s with tree := u } := by
  simp only [linkCells, bind, EStateM.bind, onTree_eq]
  cases s.tree.linkNext left right with
  | error e => rfl
  | ok result =>
    simp only
    cases result.2.linkPrev right left <;> rfl

theorem grown_declareColumn (decl : ColumnDecl) (s : Ingest) :
    s.tree.Grown (after (declareColumn decl s)).tree := by
  rw [declareColumn_eq]
  split
  · exact .refl
  · split
    · exact .refl
    · cases added : s.tree.add 0 (.column s.nextIndex decl.name decl.type decl.nullable) false with
      | error e => exact .refl
      | ok result => exact .add .refl added

theorem grown_addCell (row : UInt32) (column : IngestColumn) (given : Value) (s : Ingest) :
    s.tree.Grown (after (addCell row column given s)).tree := by
  rw [addCell_eq]
  cases added : s.tree.add column.node (column.cell row (column.stored given))
    (column.hides (column.stored given)) with
  | error e => exact .refl
  | ok result => exact .add .refl added

theorem grown_addCells (row : UInt32) (columns : List IngestColumn) (values : List Value)
    (s : Ingest) : s.tree.Grown (after (addCells row columns values s)).tree := by
  induction columns generalizing values s with
  | nil => exact .refl
  | cons column columns ih =>
    cases values with
    | nil => exact .refl
    | cons given values =>
      have first := grown_addCell row column given s
      rw [addCells_cons]
      cases stored : addCell row column given s with
      | error e m =>
        rw [stored] at first
        exact first
      | ok cell m =>
        rw [stored] at first
        have rest := ih values m
        simp only
        cases others : addCells row columns values m <;> rw [others] at rest <;>
          exact first.trans rest

theorem grown_linkCells (cells : List Nat) (s : Ingest) :
    s.tree.Grown (after (linkCells cells s)).tree := by
  induction cells generalizing s with
  | nil => exact .refl
  | cons left cells ih =>
    cases cells with
    | nil => exact .refl
    | cons right cells =>
      rw [linkCells_cons]
      cases next : s.tree.linkNext left right with
      | error e => exact .refl
      | ok t =>
        have first : s.tree.Grown t.2 := .linkNext .refl next
        simp only
        cases prev : t.2.linkPrev right left with
        | error e => exact first
        | ok u => exact (first.linkPrev prev).trans (ih { s with tree := u.2 })

theorem grown_addRow (values : List Value) (s : Ingest) :
    s.tree.Grown (after (addRow values s)).tree := by
  rw [addRow_eq]
  split
  · exact .refl
  · split
    · exact .refl
    · have first := grown_addCells s.nextRow s.columns values { s with nextRow := s.nextRow + 1 }
      cases stored : addCells s.nextRow s.columns values { s with nextRow := s.nextRow + 1 } with
      | error e m =>
        rw [stored] at first
        exact first
      | ok cells m =>
        rw [stored] at first
        have rest := grown_linkCells cells m
        simp only
        cases linked : linkCells cells m <;> rw [linked] at rest <;> exact first.trans rest

theorem grown_run (actions : List IngestAction) (s : Ingest) :
    s.tree.Grown (s.run actions).tree := by
  induction actions generalizing s with
  | nil => exact .refl
  | cons action actions ih =>
    have first : s.tree.Grown (s.perform action).tree := by
      cases action with
      | column decl => exact grown_declareColumn decl s
      | row values => exact grown_addRow values s
    exact first.trans (ih (s.perform action))

/-- Every tree that is being filled is fresh. -/
theorem run_fresh (log : DefectLog) (actions : List IngestAction) :
    ((start log).run actions).tree.Fresh :=
  (grown_run actions (start log)).fresh (Tree.new_fresh ⟨0⟩)

end Ingest
end LayeredTable
