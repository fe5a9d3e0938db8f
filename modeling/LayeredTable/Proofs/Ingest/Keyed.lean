import LayeredTable.Proofs.Ingest.Table
import LayeredTable.Proofs.Session.Ingested

/-! The cells of an ingested table, whatever order columns and rows come in and whether or not they
are refused. A cell's identifier is made of the number of its column and of its row, and rows start
at 1, so no column has two cells in one row. -/
namespace LayeredTable
namespace Tree

/-- The cells of a column are known by its number and a row from 1 on. -/
def Keyed (t : Tree) : Prop := ∀ id c, (t.children 0).get? id = some c →
  ∀ cell ∈ (t.children c).keys, ∃ row, 1 ≤ row ∧ cell = .of id.column row

variable {t u : Tree} {i c node : Nat} {id cell other : CellId} {index row : UInt32}
  {spec : NodeSpec} {hidden : Bool}

theorem Keyed.of_children (keyed : t.Keyed) (same : ∀ i, u.children i = t.children i) :
    u.Keyed := by
  intro id c entry
  rw [same] at entry ⊢
  exact keyed id c entry

theorem keyed_of_entries (own : ∀ entry ∈ (t.children 0).entries,
    ∀ cell ∈ (t.children entry.2).keys, 1 ≤ cell.row ∧ cell = .of entry.1.column cell.row) :
    t.Keyed :=
  fun id c entry cell child =>
    ⟨cell.row, own (id, c) (OrderedMap.mem_entries_iff.mpr entry) cell child⟩

theorem Keyed.row_pos (keyed : t.Keyed) (entry : (t.children 0).get? id = some c)
    (child : cell ∈ (t.children c).keys) : 1 ≤ cell.row := by
  obtain ⟨row, positive, rfl⟩ := keyed id c entry cell child
  rwa [CellId.row_of]

/-- A column has one cell at most in a row. -/
theorem Keyed.eq_of_row (keyed : t.Keyed) (entry : (t.children 0).get? id = some c)
    (child : cell ∈ (t.children c).keys) (child' : other ∈ (t.children c).keys)
    (same : other.row = cell.row) : other = cell := by
  obtain ⟨row, -, rfl⟩ := keyed id c entry cell child
  obtain ⟨row', -, rfl⟩ := keyed id c entry other child'
  rw [CellId.row_of, CellId.row_of] at same
  rw [same]

/-- The cells of a column come in the order of their rows. -/
theorem Keyed.rows_ascending (keyed : t.Keyed) (entry : (t.children 0).get? id = some c) :
    (t.children c).entries.Pairwise fun a b => a.1.row < b.1.row := by
  refine List.Pairwise.imp_of_mem ?_ (t.children c).ascending
  intro a b first second less
  obtain ⟨row, -, here⟩ := keyed id c entry a.1 (List.mem_map.mpr ⟨a, first, rfl⟩)
  obtain ⟨row', -, there⟩ := keyed id c entry b.1 (List.mem_map.mpr ⟨b, second, rfl⟩)
  have same : a.1.column = b.1.column := by
    rw [here, there, CellId.column_of, CellId.column_of]
  exact (CellId.lt_iff_row same).mp less

/-- A new column has no cells. -/
theorem Keyed.add_column (keyed : t.Keyed) (shape : t.Shape)
    (added : t.add 0 spec hidden = .ok (i, u)) : u.Keyed := by
  obtain ⟨last, inside, -⟩ := add_ok added
  have children := children_add added
  intro id c entry cell child
  rw [children, if_pos rfl, OrderedMap.get?_insert] at entry
  rw [children] at child
  split at entry
  · cases entry
    have apart : ¬ i = 0 := by omega
    rw [if_neg apart, children_of_outside (Nat.le_of_eq last.symm)] at child
    cases child
  · have apart : ¬ c = 0 := Nat.ne_of_gt (shape.lt_child entry).1
    rw [if_neg apart] at child
    exact keyed id c entry cell child

/-- A new cell goes to the column that its identifier names. -/
theorem Keyed.add_cell (keyed : t.Keyed) (shape : t.Shape) (positive : 1 ≤ row)
    (column : (t.children 0).get? (.header index) = some node) (named : spec.id = .of index row)
    (added : t.add node spec hidden = .ok (i, u)) : u.Keyed := by
  have children := children_add added
  have apart : ¬ 0 = node := Nat.ne_of_lt (shape.lt_child column).1
  intro id c entry cell child
  rw [children, if_neg apart] at entry
  rw [children] at child
  split at child
  · rename_i here
    subst here
    rcases OrderedMap.mem_keys_insert.mp child with rfl | old
    · obtain ⟨n, there, own, -⟩ := shape.child column
      obtain ⟨m, again, same, -⟩ := shape.child entry
      rw [there] at again
      cases again
      rw [← same, own, CellId.header, CellId.column_of, named]
      exact ⟨row, positive, rfl⟩
    · exact keyed id c entry cell old
  · exact keyed id c entry cell child

end Tree

namespace Ingest

variable {s : Ingest} {row : UInt32}

structure Placed (s : Ingest) : Prop where
  fresh : s.tree.Fresh
  started : 1 ≤ s.nextRow
  columns : ∀ place ∈ s.places, (s.tree.children 0).get? (.header place.2) = some place.1
  keyed : s.tree.Keyed

theorem start_placed (log : DefectLog) : (start log).Placed := by
  refine ⟨Tree.new_fresh ⟨0⟩, UInt32.le_refl 1, nofun, ?_⟩
  intro id c entry
  have none : (start log).tree.children 0 = .empty := Tree.children_new ⟨0⟩ 0
  rw [none] at entry
  cases entry

theorem Placed.declareColumn (placed : s.Placed) (decl : ColumnDecl) :
    (after (Ingest.declareColumn decl s)).Placed := by
  rw [declareColumn_eq]
  split
  · exact placed
  · split
    · exact placed
    · cases added : s.tree.add 0 (.column s.nextIndex decl.name decl.type decl.nullable) false with
      | error e => exact placed
      | ok grown =>
        obtain ⟨node, u⟩ := grown
        have children := Tree.children_add added
        obtain ⟨-, -, unused, -⟩ := Tree.add_ok added
        refine ⟨placed.fresh.add added, placed.started, ?_,
          placed.keyed.add_column placed.fresh.sound.shape added⟩
        intro place member
        simp only [after, places, List.map_append, List.mem_append] at member ⊢
        rw [children, if_pos rfl, OrderedMap.get?_insert]
        rcases member with old | new
        · have entry := placed.columns place old
          have apart : CellId.header place.2 ≠ .header s.nextIndex := by
            intro same
            rw [same] at entry
            exact Option.some_ne_none place.1 (entry.symm.trans unused)
          exact (if_neg apart).trans entry
        · cases List.mem_singleton.mp new
          exact if_pos rfl

/-- One cell goes to its column, or nothing is stored. -/
theorem Placed.addCell (placed : s.Placed) (positive : 1 ≤ row) {column : IngestColumn}
    (place : (column.node, column.index) ∈ s.places) (given : Value) :
    (after (Ingest.addCell row column given s)).Placed ∧
      (after (Ingest.addCell row column given s)).places = s.places := by
  have columns (t : Tree) (same : t.children 0 = s.tree.children 0) :
      ∀ place ∈ (s.noted row column given).places,
        (t.children 0).get? (.header place.2) = some place.1 := by
    rw [places_noted, same]
    exact placed.columns
  rw [addCell_eq]
  cases added : s.tree.add column.node (column.cell row (column.stored given))
    (column.hides (column.stored given)) with
  | error e =>
    exact ⟨⟨placed.fresh, placed.started, columns s.tree rfl, placed.keyed⟩,
      places_noted row column given⟩
  | ok grown =>
    obtain ⟨cell, u⟩ := grown
    have entry := placed.columns _ place
    have shape := placed.fresh.sound.shape
    have root : u.children 0 = s.tree.children 0 := by
      rw [Tree.children_add added, if_neg (Nat.ne_of_lt (shape.lt_child entry).1)]
    exact ⟨⟨placed.fresh.add added, placed.started, columns u root,
      placed.keyed.add_cell shape positive entry rfl added⟩, places_noted row column given⟩

theorem Placed.addCells (placed : s.Placed) (positive : 1 ≤ row) (columns : List IngestColumn)
    (members : ∀ column ∈ columns, (column.node, column.index) ∈ s.places)
    (values : List Value) : (after (Ingest.addCells row columns values s)).Placed := by
  induction columns generalizing s values with
  | nil => exact placed
  | cons column columns ih =>
    cases values with
    | nil => exact placed
    | cons given values =>
      obtain ⟨first, places⟩ := placed.addCell positive (members column List.mem_cons_self) given
      rw [addCells_cons]
      cases stored : Ingest.addCell row column given s with
      | error e m =>
        rw [stored] at first
        exact first
      | ok cell m =>
        rw [stored] at first places
        change m.Placed at first
        change m.places = s.places at places
        have rest := ih first (fun other member => by
          rw [places]
          exact members other (List.mem_cons_of_mem _ member)) values
        simp only
        cases others : Ingest.addCells row columns values m <;> rw [others] at rest <;> exact rest

theorem Placed.linkCells (placed : s.Placed) (cells : List Nat) :
    (after (Ingest.linkCells cells s)).Placed := by
  obtain ⟨children, places, nextRow⟩ := linkCells_keeps cells s
  refine ⟨(grown_linkCells cells s).fresh placed.fresh, ?_, ?_, placed.keyed.of_children children⟩
  · rw [nextRow]
    exact placed.started
  · rw [places, children]
    exact placed.columns

theorem Placed.addRow (placed : s.Placed) (values : List Value) :
    (after (Ingest.addRow values s)).Placed := by
  rw [addRow_eq]
  split
  · exact placed
  · split
    · exact placed
    · rename_i room
      have next : ({ s with nextRow := s.nextRow + 1 } : Ingest).Placed := by
        have later : s.nextRow < s.nextRow + 1 := (lt_succ_iff room).mpr (.inl rfl)
        exact ⟨placed.fresh, Std.le_of_lt (Std.lt_of_le_of_lt placed.started later),
          placed.columns, placed.keyed⟩
      have first := next.addCells placed.started s.columns
        (fun column member => List.mem_map.mpr ⟨column, member, rfl⟩) values
      cases stored : Ingest.addCells s.nextRow s.columns values
        { s with nextRow := s.nextRow + 1 } with
      | error e m =>
        rw [stored] at first
        exact first
      | ok cells m =>
        rw [stored] at first
        change m.Placed at first
        have rest := first.linkCells cells
        simp only
        cases linked : Ingest.linkCells cells m <;> rw [linked] at rest <;> exact rest

/-- Whatever is declared and added, in any order and refused or not. -/
theorem run_placed (log : DefectLog) (actions : List IngestAction) :
    ((start log).run actions).Placed := by
  have kept (s : Ingest) (placed : s.Placed) : (s.run actions).Placed := by
    induction actions generalizing s with
    | nil => exact placed
    | cons action actions ih =>
      refine ih _ ?_
      cases action with
      | column decl => exact placed.declareColumn decl
      | row values => exact placed.addRow values
  exact kept _ (start_placed log)

end Ingest

theorem Tree.ingested_fill (log : DefectLog) (decls : List ColumnDecl) (rows : List (List Value)) :
    (Ingest.fill log decls rows).tree.Ingested := ingested_run log _

/-- Using a table changes nothing about its cells. -/
theorem Tree.Ingested.keyed {t : Tree} (ingested : t.Ingested) : t.Keyed :=
  ingested.of_frame (fun same keyed => keyed.of_children (children_eq_of_frame same))
    fun log actions => (Ingest.run_placed log actions).keyed

end LayeredTable
