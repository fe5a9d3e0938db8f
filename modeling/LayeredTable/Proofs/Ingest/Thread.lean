import LayeredTable.Proofs.Ingest.Atomic
import LayeredTable.Proofs.Tree.Links

/-! Links of a table that is filled. The cells of a row get consecutive positions, and each is
linked with the one to its right. So two cells are linked exactly if they stand in one row and in
neighbouring columns, whatever lengths the rows have. Main statement: `Ingest.run_threaded`. -/
namespace LayeredTable

namespace Tree

variable {t u : Tree} {column row : UInt32} {a b c : Nat}

def CellAt (t : Tree) (column row : UInt32) (c : Nat) : Prop :=
  ∃ above, t.findById 0 (.header column) = some above ∧
    t.findById above (.of column row) = some c

/-- A cell and the one to its right. -/
def Neighbours (t : Tree) (a b : Nat) : Prop :=
  ∃ column row, t.CellAt column row a ∧ t.CellAt (column + 1) row b

structure Woven (t : Tree) : Prop where
  next : ∀ a b, t.next? a = some b ↔ t.Neighbours a b
  prev : ∀ a b, t.prev? b = some a ↔ t.Neighbours a b

/-- Beside that, columns are numbered from 1, each row has its cells in the first ones, and every
cell is found by its numbers. -/
structure Threaded (t : Tree) : Prop extends Woven t where
  positive : ∀ column row c, t.CellAt column row c → 1 ≤ column
  gapless : ∀ column row c, t.CellAt column row c → column ≠ 1 → ∃ a, t.Neighbours a c
  known : ∀ id above cell c, (t.children 0).get? id = some above →
    (t.children above).get? cell = some c → t.CellAt cell.column cell.row c

theorem CellAt.unique (first : t.CellAt column row a) (second : t.CellAt column row b) : a = b := by
  obtain ⟨above, column, cell⟩ := first
  obtain ⟨above', column', cell'⟩ := second
  rw [column] at column'
  cases column'
  rw [cell] at cell'
  exact Option.some.inj cell'

/-- A cell knows its column and its row. -/
theorem Shape.cellAt_id (shape : t.Shape) (cell : t.CellAt column row c) :
    ∃ n, t.nodes[c]? = some n ∧ n.id = .of column row := by
  obtain ⟨above, -, entry⟩ := cell
  obtain ⟨n, here, named, -⟩ := shape.child entry
  exact ⟨n, here, named⟩

theorem Shape.cellAt_inj (shape : t.Shape) {column' row' : UInt32} (first : t.CellAt column row c)
    (second : t.CellAt column' row' c) : column = column' ∧ row = row' := by
  obtain ⟨n, here, named⟩ := shape.cellAt_id first
  obtain ⟨m, there, named'⟩ := shape.cellAt_id second
  rw [here] at there
  cases there
  exact CellId.of_inj.mp (named.symm.trans named')

/-- A new column has no cells, and those of the others are where they were. -/
theorem Shape.cellAt_addColumn (shape : t.Shape) {i : Nat} {spec : NodeSpec} {hidden : Bool}
    (added : t.add 0 spec hidden = .ok (i, u)) :
    u.CellAt column row c ↔ t.CellAt column row c := by
  obtain ⟨last, rooted, -, -⟩ := add_ok added
  simp only [CellAt, findById_add added]
  constructor
  · rintro ⟨above, ⟨-, -, rfl⟩ | listed, ⟨zero, -⟩ | cell⟩
    · omega
    · rw [findById, children_of_outside (Nat.le_of_eq last.symm)] at cell
      cases cell
    · have := (shape.lt_child listed).1
      omega
    · exact ⟨above, listed, cell⟩
  · rintro ⟨above, listed, cell⟩
    exact ⟨above, .inr listed, .inr cell⟩

/-- A tree without columns has neither links nor cells. -/
theorem new_woven (rootId : CellId) : (new rootId).Woven := by
  have alone (a b : Nat) : ¬ (new rootId).Neighbours a b := by
    rintro ⟨column, row, ⟨above, listed, -⟩, -⟩
    rw [findById, children_new] at listed
    cases listed
  refine ⟨fun a b => iff_of_false ?_ (alone a b), fun a b => iff_of_false ?_ (alone a b)⟩
  · cases a <;> simp [next?, new]
  · cases b <;> simp [prev?, new]

theorem Neighbours.congr
    (same : ∀ column row c, u.CellAt column row c ↔ t.CellAt column row c) :
    u.Neighbours a b ↔ t.Neighbours a b := by
  simp only [Neighbours, same]

theorem Woven.addColumn (woven : t.Woven) (shape : t.Shape) {i : Nat} {spec : NodeSpec}
    {hidden : Bool} (added : t.add 0 spec hidden = .ok (i, u)) : u.Woven := by
  have neighbours (a b : Nat) : u.Neighbours a b ↔ t.Neighbours a b :=
    Neighbours.congr fun _ _ _ => shape.cellAt_addColumn added
  refine ⟨fun a b => ?_, fun a b => ?_⟩
  · rw [(links_add added a).1, woven.next, neighbours]
  · rw [(links_add added b).2, woven.prev, neighbours]

end Tree

def Adjacent (cells : List Nat) (a b : Nat) : Prop :=
  ∃ n, cells[n]? = some a ∧ cells[n + 1]? = some b

theorem adjacent_cons {cells : List Nat} {a b left right : Nat} :
    Adjacent (left :: right :: cells) a b ↔
      (a = left ∧ b = right) ∨ Adjacent (right :: cells) a b := by
  constructor
  · rintro ⟨n, first, second⟩
    cases n with
    | zero =>
      cases first
      cases second
      exact .inl ⟨rfl, rfl⟩
    | succ n => exact .inr ⟨n, first, second⟩
  · rintro (⟨rfl, rfl⟩ | ⟨n, first, second⟩)
    · exact ⟨0, rfl, rfl⟩
    · exact ⟨n + 1, first, second⟩

theorem adjacent_range' {start count a b : Nat} : Adjacent (List.range' start count) a b ↔
    ∃ n, n + 1 < count ∧ a = start + n ∧ b = start + n + 1 := by
  simp only [Adjacent, List.getElem?_eq_some_iff, List.length_range', List.getElem_range']
  constructor
  · rintro ⟨n, ⟨-, first⟩, inside, second⟩
    exact ⟨n, inside, by omega, by omega⟩
  · rintro ⟨n, inside, rfl, rfl⟩
    exact ⟨n, ⟨by omega, by omega⟩, inside, by omega⟩

namespace Ingest

variable {s m : Ingest} {row : UInt32} {columns : List IngestColumn} {values : List Value}
  {cells : List Nat}

structure Seated (s : Ingest) (row : UInt32) (columns : List IngestColumn) (cells : List Nat)
    (m : Ingest) : Prop where
  cells : cells = List.range' s.tree.size columns.length
  size : m.tree.size = s.tree.size + columns.length
  links : ∀ j, m.tree.next? j = s.tree.next? j ∧ m.tree.prev? j = s.tree.prev? j
  found : ∀ j id c, m.tree.findById j id = some c ↔ s.tree.findById j id = some c ∨
    ∃ n column, columns[n]? = some column ∧ j = column.node ∧ id = .of column.index row ∧
      c = s.tree.size + n

theorem addCells_seated (done : addCells row columns values s = .ok cells m)
    (fits : values.length = columns.length) : Seated s row columns cells m := by
  induction columns generalizing s values cells with
  | nil =>
    obtain rfl := List.length_eq_zero_iff.mp fits
    cases done
    exact ⟨rfl, rfl, fun _ => ⟨rfl, rfl⟩, by simp⟩
  | cons column columns ih =>
    cases values with
    | nil => cases fits
    | cons given values =>
      obtain ⟨cell, u, others, rfl, added, rest⟩ := addCells_cons_ok done
      obtain ⟨cells, size, links, found⟩ := ih rest (Nat.succ.inj fits)
      have last := (Tree.add_ok added).1
      have grown := Tree.size_add added
      simp only [grown] at cells size found
      refine ⟨?_, ?_, fun j => ?_, fun j id c => ?_⟩
      · rw [cells, last, List.length_cons, List.range'_succ]
      · rw [size, List.length_cons]
        omega
      · have kept := Tree.links_add added j
        exact ⟨(links j).1.trans kept.1, (links j).2.trans kept.2⟩
      · have child : u.findById j id = some c ↔ _ := Tree.findById_add added
        rw [found, child]
        constructor
        · rintro ((⟨rfl, rfl, rfl⟩ | old) | ⟨n, other, entry, above, named, rfl⟩)
          · exact .inr ⟨0, column, rfl, rfl, rfl, last⟩
          · exact .inl old
          · exact .inr ⟨n + 1, other, entry, above, named, by omega⟩
        · rintro (old | ⟨n, other, entry, above, named, rfl⟩)
          · exact .inl (.inr old)
          · cases n with
            | zero =>
              cases entry
              exact .inl (.inl ⟨above, named, last.symm⟩)
            | succ n => exact .inr ⟨n, other, entry, above, named, by omega⟩

structure Linked (t : Tree) (cells : List Nat) (u : Tree) : Prop where
  next : ∀ a b, u.next? a = some b ↔ t.next? a = some b ∨ Adjacent cells a b
  prev : ∀ a b, u.prev? b = some a ↔ t.prev? b = some a ∨ Adjacent cells a b

/-- Cells without links are linked, each with the one after it. -/
theorem linkCells_linked (inside : ∀ c ∈ cells, c < s.tree.size) (distinct : cells.Nodup)
    (noNext : ∀ c ∈ cells, s.tree.next? c = none)
    (noPrev : ∀ c ∈ cells.tail, s.tree.prev? c = none) :
    ∃ t, linkCells cells s = .ok ⟨⟩ { s with tree := t } ∧ Linked s.tree cells t := by
  induction cells generalizing s with
  | nil => exact ⟨s.tree, rfl, by simp [Adjacent], by simp [Adjacent]⟩
  | cons left cells ih =>
    cases cells with
    | nil => exact ⟨s.tree, rfl, by simp [Adjacent], by simp [Adjacent]⟩
    | cons right cells =>
      obtain ⟨apart, later⟩ := List.nodup_cons.mp distinct
      have first := inside left List.mem_cons_self
      have second := inside right (by simp)
      have free := noNext left List.mem_cons_self
      have free' := noPrev right List.mem_cons_self
      obtain ⟨t, linked, sameSize, nextForth, prevForth⟩ :=
        Tree.linkNext_of_free first second free
      obtain ⟨u, linked', sameSize', prevBack, nextBack⟩ :=
        Tree.linkPrev_of_free (sameSize ▸ second) (sameSize ▸ first) ((prevForth right).trans free')
      have size : u.size = s.tree.size := sameSize'.trans sameSize
      have next (j : Nat) : u.next? j = if j = left then some right else s.tree.next? j :=
        (nextBack j).trans (nextForth j)
      have prev (j : Nat) : u.prev? j = if j = right then some left else s.tree.prev? j := by
        rw [prevBack, prevForth]
      obtain ⟨v, done, nexts, prevs⟩ := ih (s := { s with tree := u })
        (fun c member => size ▸ inside c (List.mem_cons_of_mem _ member)) later
        (fun c member => by
          have other : c ≠ left := fun same => apart (same ▸ member)
          exact (next c).trans ((if_neg other).trans (noNext c (List.mem_cons_of_mem _ member))))
        (fun c member => by
          have other : c ≠ right := fun same => (List.nodup_cons.mp later).1 (same ▸ member)
          exact (prev c).trans ((if_neg other).trans (noPrev c (List.mem_cons_of_mem _ member))))
      refine ⟨v, ?_, fun a b => ?_, fun a b => ?_⟩
      · rw [linkCells_cons, linked]
        simp only [linked']
        exact done
      · rw [nexts, adjacent_cons, ← or_assoc]
        refine or_congr_left ?_
        change u.next? a = some b ↔ _
        rw [next]
        split
        · rename_i same
          subst same
          simp [free, eq_comm]
        · rename_i other
          simp [other]
      · rw [prevs, adjacent_cons, ← or_assoc]
        refine or_congr_left ?_
        change u.prev? b = some a ↔ _
        rw [prev]
        split
        · rename_i same
          subst same
          simp [free', eq_comm]
        · rename_i other
          simp [other]

namespace Tracks

variable {before : Array Defect} {sheet : Sheet} {column : UInt32} {a b c i k : Nat} {t : Tree}
  {u : Ingest}

/-- Each cell is there for a value of some row, in the column that has its number. -/
theorem of_listed (tracks : s.Tracks before sheet) {id cell : CellId} {above : Nat}
    (listed : (s.tree.children 0).get? id = some above)
    (entry : (s.tree.children above).get? cell = some c) :
    ∃ i k values, id = .header (ordinal i) ∧ cell = .of (ordinal i) (ordinal k) ∧
      sheet.rows[k]? = some values ∧ i < values.length := by
  obtain ⟨spec, hidden, held⟩ := tracks.fresh.exists_child? listed
  obtain ⟨i, decl, declared, rfl, -⟩ := (tracks.root _ _ _).mp held
  rw [← tracks.decls, List.getElem?_map, Option.map_eq_some_iff] at declared
  obtain ⟨column, there, -⟩ := declared
  have keeps := tracks.columns i column there
  cases listed.symm.trans keeps.listed
  obtain ⟨spec, hidden, held⟩ := tracks.fresh.exists_child? entry
  obtain ⟨k, values, given, kept, value, named, -⟩ := (keeps.cells _ _ _).mp held
  exact ⟨i, k, values, rfl, named, kept, (List.getElem?_eq_some_iff.mp value).1⟩

theorem of_cellAt (tracks : s.Tracks before sheet) (cell : s.tree.CellAt column row c) :
    ∃ i k values, column = ordinal i ∧ row = ordinal k ∧ sheet.rows[k]? = some values ∧
      i < values.length := by
  obtain ⟨above, listed, entry⟩ := cell
  obtain ⟨i, k, values, -, named, kept, inside⟩ := tracks.of_listed listed entry
  obtain ⟨rfl, rfl⟩ := CellId.of_inj.mp named
  exact ⟨i, k, values, rfl, rfl, kept, inside⟩

/-- Each value of a row has its cell. -/
theorem exists_cellAt (tracks : s.Tracks before sheet) (kept : sheet.rows[k]? = some values)
    (inside : i < values.length) : ∃ c, s.tree.CellAt (ordinal i) (ordinal k) c := by
  have declared : i < s.columns.length := by
    have := tracks.narrow values (List.mem_of_getElem? kept)
    rw [tracks.length_columns]
    omega
  have keeps := tracks.columns i _ (List.getElem?_eq_getElem declared)
  have held := (keeps.cells _ _ _).mpr
    ⟨k, values, values[i], kept, List.getElem?_eq_getElem inside, rfl, rfl, rfl⟩
  obtain ⟨c, found, -⟩ := Option.bind_eq_some_iff.mp held
  exact ⟨c, s.columns[i].node, keeps.listed, found⟩

theorem threaded (tracks : s.Tracks before sheet) (woven : s.tree.Woven) : s.tree.Threaded := by
  refine ⟨woven, ?_, ?_, ?_⟩
  · intro column row c cell
    obtain ⟨i, k, values, rfl, -, kept, inside⟩ := tracks.of_cellAt cell
    have narrow := tracks.narrow values (List.mem_of_getElem? kept)
    have few := tracks.few
    exact one_le_ordinal (by omega)
  · intro column row c cell other
    obtain ⟨i, k, values, rfl, rfl, kept, inside⟩ := tracks.of_cellAt cell
    cases i with
    | zero => exact absurd rfl other
    | succ i =>
      obtain ⟨a, left⟩ := tracks.exists_cellAt kept (Nat.lt_of_succ_lt inside)
      exact ⟨a, ordinal i, ordinal k, left, ordinal_succ i ▸ cell⟩
  · intro id above cell c listed entry
    obtain ⟨i, k, values, rfl, rfl, -⟩ := tracks.of_listed listed entry
    rw [CellId.column_of, CellId.row_of]
    exact ⟨above, listed, entry⟩

/-- A row that is stored has one cell in each column. -/
theorem cellAt_addRow (tracks : s.Tracks before sheet)
    (seated : Seated { s with nextRow := s.nextRow + 1 } s.nextRow s.columns cells m)
    (children : ∀ j, t.children j = m.tree.children j) : t.CellAt column row c ↔
      s.tree.CellAt column row c ∨
        ∃ n < s.columns.length, column = ordinal n ∧ row = s.nextRow ∧ c = s.tree.size + n := by
  have found (j : Nat) (id : CellId) (c : Nat) : t.findById j id = some c ↔
      s.tree.findById j id = some c ∨ ∃ n d, s.columns[n]? = some d ∧ j = d.node ∧
        id = .of d.index s.nextRow ∧ c = s.tree.size + n := by
    rw [Tree.findById, children]
    exact seated.found j id c
  have root (id : CellId) (above : Nat) :
      t.findById 0 id = some above ↔ s.tree.findById 0 id = some above := by
    refine (found 0 id above).trans (or_iff_left ?_)
    rintro ⟨n, d, entry, zero, -⟩
    have := (tracks.node_pos entry).1
    omega
  simp only [Tree.CellAt, root, found, and_or_left, exists_or]
  apply or_congr_right
  constructor
  · rintro ⟨above, listed, n, d, entry, rfl, named, rfl⟩
    obtain ⟨rfl, rfl⟩ := CellId.of_inj.mp named
    have inside := (List.getElem?_eq_some_iff.mp entry).1
    exact ⟨n, inside, (tracks.columns n d entry).index, rfl, rfl⟩
  · rintro ⟨n, inside, rfl, rfl, rfl⟩
    have entry := List.getElem?_eq_getElem inside
    have keeps := tracks.columns n _ entry
    exact ⟨_, keeps.listed, n, _, entry, rfl, by rw [keeps.index], rfl⟩

/-- Neighbours in the new row stand side by side, and no other pair becomes one. -/
theorem neighbours_addRow (tracks : s.Tracks before sheet)
    (cellAt : ∀ column row c, t.CellAt column row c ↔ s.tree.CellAt column row c ∨
      ∃ n < s.columns.length, column = ordinal n ∧ row = s.nextRow ∧ c = s.tree.size + n) :
    t.Neighbours a b ↔
      s.tree.Neighbours a b ∨ Adjacent (List.range' s.tree.size s.columns.length) a b := by
  have numbered {n : Nat} (inside : n < s.columns.length) : n + 1 < UInt32.size := by
    have := tracks.few
    rw [tracks.length_columns] at inside
    omega
  have later {column row : UInt32} {c : Nat} (cell : s.tree.CellAt column row c) :
      row ≠ s.nextRow := by
    obtain ⟨-, k, values, -, rfl, kept, -⟩ := tracks.of_cellAt cell
    have := (List.getElem?_eq_some_iff.mp kept).1
    have short := tracks.short
    rw [tracks.nextRow, ne_eq, ordinal_inj (by omega) short]
    omega
  simp only [Tree.Neighbours, cellAt, adjacent_range']
  constructor
  · rintro ⟨column, row, old | ⟨n, inside, rfl, rfl, rfl⟩, old' | ⟨n', inside', next, same, rfl⟩⟩
    · exact .inl ⟨column, row, old, old'⟩
    · exact absurd same (later old)
    · exact absurd rfl (later old')
    · obtain ⟨k, rfl, same⟩ := exists_ordinal_of_succ next (one_le_ordinal (numbered inside))
      have place := (ordinal_inj (numbered inside) (numbered (by omega))).mp same
      exact .inr ⟨n, by omega, rfl, by omega⟩
  · rintro (⟨column, row, old, old'⟩ | ⟨n, inside, rfl, rfl⟩)
    · exact ⟨column, row, .inl old, .inl old'⟩
    · exact ⟨ordinal n, s.nextRow, .inr ⟨n, by omega, rfl, rfl, rfl⟩,
        .inr ⟨n + 1, inside, ordinal_succ n, rfl, rfl⟩⟩

theorem woven_addRow (tracks : s.Tracks before sheet) (woven : s.tree.Woven)
    (fits : values.length = s.columns.length) (done : addRow values s = .ok row u) :
    u.tree.Woven := by
  obtain ⟨cells, m, stored, linked⟩ := cells_of_addRow_ok done
  have seated := addCells_seated stored fits
  have new (c : Nat) (member : c ∈ cells) : s.tree.size ≤ c ∧ c < m.tree.size := by
    rw [seated.cells, List.mem_range'_1] at member
    rw [seated.size]
    exact member
  obtain ⟨t, again, links⟩ := linkCells_linked (s := m) (fun c member => (new c member).2)
    (seated.cells ▸ List.nodup_range')
    (fun c member => (seated.links c).1.trans (Tree.next?_of_outside (new c member).1))
    (fun c member => (seated.links c).2.trans
      (Tree.prev?_of_outside (new c (List.mem_of_mem_tail member)).1))
  have children := (linkCells_keeps cells m).1
  rw [linked] at again children
  cases again
  have neighbours (a b : Nat) : t.Neighbours a b ↔ _ :=
    tracks.neighbours_addRow fun _ _ _ => tracks.cellAt_addRow seated children
  refine ⟨fun a b => ?_, fun a b => ?_⟩
  · rw [links.next, (seated.links a).1, neighbours, seated.cells]
    exact or_congr_left (woven.next a b)
  · rw [links.prev, (seated.links b).2, neighbours, seated.cells]
    exact or_congr_left (woven.prev a b)

theorem woven_perform (tracks : s.Tracks before sheet) (woven : s.tree.Woven)
    (action : IngestAction) : (s.perform action).tree.Woven := by
  cases admitted : sheet.admits action with
  | false =>
    rw [tracks.perform_refused admitted]
    exact woven
  | true =>
    cases action with
    | column decl =>
      obtain ⟨node, u, done, -⟩ := tracks.declared admitted
      obtain ⟨spec, added⟩ := add_of_declareColumn_ok done
      rw [Ingest.perform, done]
      exact woven.addColumn tracks.fresh.sound.shape added
    | row values =>
      obtain ⟨u, done, -⟩ := tracks.added admitted
      rw [Ingest.perform, done]
      exact tracks.woven_addRow woven ((tracks.admits_row values).mp admitted).1 done

end Tracks

/-- Whatever is declared and added, in any order and refused or not, and whatever log is kept. -/
theorem run_threaded (log : DefectLog) (actions : List IngestAction) :
    ((start log).run actions).tree.Threaded := by
  have kept (s : Ingest) (sheet : Sheet) (tracks : s.Tracks #[] sheet) (woven : s.tree.Woven) :
      (s.run actions).tree.Woven := by
    induction actions generalizing s sheet with
    | nil => exact woven
    | cons action actions ih =>
      exact ih _ _ (tracks.perform action) (tracks.woven_perform woven action)
  have started := start_tracks #[]
  obtain ⟨log', same⟩ := run_withLog (start {}) log actions
  change (start log).run actions = _ at same
  rw [same]
  exact (started.run actions).threaded (kept _ _ started (Tree.new_woven ⟨0⟩))

end Ingest
end LayeredTable
