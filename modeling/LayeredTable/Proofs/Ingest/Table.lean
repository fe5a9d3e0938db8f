import LayeredTable.Proofs.CellId
import LayeredTable.Proofs.Ingest.Basic

/-! Tables whose columns are all declared before the first row. No cell of a row is ever refused,
so every column has one cell for each row. -/
namespace LayeredTable

/-- The identifiers of a node's children are those of its column, for the rows up to `last`. -/
def Tree.Rectangular (t : Tree) (last : UInt32) : Prop :=
  ∀ id c, (t.children 0).get? id = some c → ∀ cell, cell ∈ (t.children c).keys ↔
    ∃ row, 1 ≤ row ∧ row ≤ last ∧ cell = .of id.column row

namespace Ingest

variable {s : Ingest} {c : Nat} {index row : UInt32}

def places (s : Ingest) : List (Nat × UInt32) := s.columns.map fun c => (c.node, c.index)

@[simp] theorem places_noted (row : UInt32) (column : IngestColumn) (given : Value) :
    (s.noted row column given).places = s.places := by
  simp only [places, noted, List.map_map]
  apply List.map_congr_left
  intro c _
  simp only [Function.comp_def]
  split <;> rfl

structure Filled (s : Ingest) : Prop where
  fresh : s.tree.Fresh
  started : 1 ≤ s.nextRow
  distinct : (s.places.map (·.1)).Nodup
  listed : ∀ id c, (s.tree.children 0).get? id = some c ↔
    ∃ index, (c, index) ∈ s.places ∧ id = .header index
  cells : ∀ c index, (c, index) ∈ s.places → ∀ id, id ∈ (s.tree.children c).keys ↔
    ∃ row, 1 ≤ row ∧ row < s.nextRow ∧ id = .of index row

theorem Filled.inside (filled : s.Filled) (place : (c, index) ∈ s.places) :
    0 < c ∧ c < s.tree.size := by
  have entry := (filled.listed (.header index) c).mpr ⟨index, place, rfl⟩
  exact filled.fresh.sound.shape.lt_child entry

theorem start_filled (log : DefectLog) : (start log).Filled := by
  refine ⟨Tree.new_fresh ⟨0⟩, UInt32.le_refl 1, List.nodup_nil, ?_, nofun⟩
  intro id c
  constructor
  · intro entry
    cases entry
  · rintro ⟨index, place, -⟩
    cases place

/-- A column that is declared before the first row starts without cells. -/
theorem Filled.declared (filled : s.Filled) (first : s.nextRow = 1) {spec : NodeSpec}
    {decl : ColumnDecl} {node : Nat} {u : Tree} (named : spec.id = .header s.nextIndex)
    (added : s.tree.add 0 spec false = .ok (node, u)) :
    ({ s with tree := u, columns := s.columns ++ [{ node, index := s.nextIndex, decl }] } :
      Ingest).Filled := by
  obtain ⟨last, rooted, unused, -⟩ := Tree.add_ok added
  have children := Tree.children_add added
  rw [named] at unused
  simp only [named] at children
  have places : ({ s with
      tree := u, columns := s.columns ++ [{ node, index := s.nextIndex, decl }] } :
      Ingest).places = s.places ++ [(node, s.nextIndex)] := by simp [Ingest.places]
  refine ⟨filled.fresh.add added, filled.started, ?_, ?_, ?_⟩
  · rw [places, List.map_append, List.nodup_append]
    refine ⟨filled.distinct, by simp, fun c old d new => ?_⟩
    obtain ⟨⟨_, index⟩, place, rfl⟩ := List.mem_map.mp old
    have before := (filled.inside place).2
    simp only [List.map_cons, List.map_nil, List.mem_singleton] at new
    omega
  · intro id c
    rw [places, children, if_pos rfl, OrderedMap.get?_insert]
    constructor
    · intro entry
      split at entry
      · rename_i same
        cases entry
        exact ⟨s.nextIndex, by simp, same⟩
      · obtain ⟨index, place, rfl⟩ := (filled.listed id c).mp entry
        exact ⟨index, List.mem_append_left _ place, rfl⟩
    · rintro ⟨index, place, rfl⟩
      rcases List.mem_append.mp place with old | new
      · have entry := (filled.listed (.header index) c).mpr ⟨index, old, rfl⟩
        have apart : CellId.header index ≠ .header s.nextIndex := by
          intro same
          rw [same, unused] at entry
          cases entry
        rw [if_neg apart, entry]
      · cases List.mem_singleton.mp new
        rw [if_pos rfl]
  · intro c index place id
    rw [places] at place
    rw [children]
    rcases List.mem_append.mp place with old | new
    · have apart : c ≠ 0 := Nat.ne_of_gt (filled.inside old).1
      rw [if_neg apart]
      exact filled.cells c index old id
    · cases List.mem_singleton.mp new
      have apart : node ≠ 0 := by omega
      rw [if_neg apart, Tree.children_of_outside (Nat.le_of_eq last.symm), first]
      constructor
      · intro listed
        cases listed
      · rintro ⟨row, atLeast, below, -⟩
        exact absurd (Std.lt_of_le_of_lt atLeast below) Std.lt_irrefl

theorem Filled.declareColumn (filled : s.Filled) (first : s.nextRow = 1) (decl : ColumnDecl) :
    (after (Ingest.declareColumn decl s)).Filled ∧
      (after (Ingest.declareColumn decl s)).nextRow = 1 := by
  rw [declareColumn_eq]
  split
  · exact ⟨filled, first⟩
  · split
    · exact ⟨filled, first⟩
    · cases added : s.tree.add 0 (.column s.nextIndex decl.name decl.type decl.nullable) false with
      | error e => exact ⟨filled, first⟩
      | ok result => exact ⟨filled.declared first rfl added, first⟩

/-- No cell of a row is refused when all its columns are there and have none for the row. -/
theorem addCells_ok (row : UInt32) (columns : List IngestColumn) (values : List Value)
    (fits : values.length = columns.length) (distinct : (columns.map (·.node)).Nodup)
    (room : ∀ c ∈ columns, c.node < s.tree.size ∧
      (s.tree.children c.node).get? (.of c.index row) = none) :
    ∃ cells m, addCells row columns values s = .ok cells m ∧ m.nextRow = s.nextRow ∧
      m.places = s.places ∧
      (∀ j, j ∉ columns.map (·.node) → m.tree.children j = s.tree.children j) ∧
      ∀ c ∈ columns, ∀ id, id ∈ (m.tree.children c.node).keys ↔
        id = .of c.index row ∨ id ∈ (s.tree.children c.node).keys := by
  induction columns generalizing values s with
  | nil => exact ⟨[], s, rfl, rfl, rfl, fun _ _ => rfl, nofun⟩
  | cons column columns ih =>
    cases values with
    | nil => cases fits
    | cons given values =>
      obtain ⟨absent, later⟩ := List.nodup_cons.mp distinct
      obtain ⟨inside, unused⟩ := room column List.mem_cons_self
      have accepted : ∃ u, s.tree.add column.node (column.cell row (column.stored given))
          (column.hides (column.stored given)) = .ok (s.tree.size, u) :=
        Tree.add_of_fresh inside unused _
      obtain ⟨u, added⟩ := accepted
      have children := Tree.children_add added
      have stored : addCell row column given s =
          .ok s.tree.size { s.noted row column given with tree := u } := by
        rw [addCell_eq, added]
      have others (c : IngestColumn) (member : c ∈ columns) : c.node ≠ column.node := by
        intro same
        exact absent (List.mem_map.mpr ⟨c, member, same⟩)
      obtain ⟨cells, m, done, nextRow, places, untouched, grown⟩ := ih
        (s := { s.noted row column given with tree := u }) values (Nat.succ.inj fits) later
        fun c member => by
          obtain ⟨before, free⟩ := room c (List.mem_cons_of_mem _ member)
          rw [Tree.size_add added, children, if_neg (others c member)]
          exact ⟨Nat.lt_succ_of_lt before, free⟩
      refine ⟨s.tree.size :: cells, m, ?_, nextRow, ?_, ?_, ?_⟩
      · rw [addCells_cons, stored]
        simp only [done]
      · exact places.trans (places_noted row column given)
      · intro j outside
        rw [List.map_cons, List.mem_cons, not_or] at outside
        rw [untouched j outside.2]
        exact (children j).trans (if_neg outside.1)
      · intro c member id
        rcases List.mem_cons.mp member with rfl | member
        · rw [untouched c.node absent]
          change id ∈ (u.children c.node).keys ↔ _
          rw [children, if_pos rfl, OrderedMap.mem_keys_insert]
          rfl
        · rw [grown c member id]
          change _ ∨ id ∈ (u.children c.node).keys ↔ _
          rw [children, if_neg (others c member)]

/-- Linking cells touches neither the columns nor the children of any node. -/
theorem linkCells_keeps (cells : List Nat) (s : Ingest) :
    (∀ j, (after (linkCells cells s)).tree.children j = s.tree.children j) ∧
      (after (linkCells cells s)).places = s.places ∧
      (after (linkCells cells s)).nextRow = s.nextRow := by
  induction cells generalizing s with
  | nil => exact ⟨fun _ => rfl, rfl, rfl⟩
  | cons left cells ih =>
    cases cells with
    | nil => exact ⟨fun _ => rfl, rfl, rfl⟩
    | cons right cells =>
      rw [linkCells_cons]
      cases next : s.tree.linkNext left right with
      | error e => exact ⟨fun _ => rfl, rfl, rfl⟩
      | ok t =>
        have first := (Tree.relinked_linkNext next).children
        simp only
        cases prev : t.2.linkPrev right left with
        | error e => exact ⟨first, rfl, rfl⟩
        | ok u =>
          have second := (Tree.relinked_linkPrev prev).children
          obtain ⟨children, places, nextRow⟩ := ih { s with tree := u.2 }
          exact ⟨fun j => (children j).trans ((second j).trans (first j)), places, nextRow⟩

theorem lt_succ_iff {row last : UInt32} (room : last ≠ 4294967295) :
    row < last + 1 ↔ row = last ∨ row < last := by
  have bound : last.toNat ≠ 4294967295 := fun same => room (UInt32.toNat_inj.mp same)
  have below := last.toNat_lt
  rw [UInt32.lt_iff_toNat_lt, UInt32.lt_iff_toNat_lt, ← UInt32.toNat_inj, UInt32.toNat_add]
  simp only [UInt32.reduceToNat]
  omega

/-- One more cell in every column makes one more row. -/
theorem Filled.extended (filled : s.Filled) (room : s.nextRow ≠ 4294967295) {u : Ingest}
    (fresh : u.tree.Fresh) (nextRow : u.nextRow = s.nextRow + 1) (places : u.places = s.places)
    (root : u.tree.children 0 = s.tree.children 0)
    (added : ∀ c index, (c, index) ∈ s.places → ∀ id, id ∈ (u.tree.children c).keys ↔
      id = .of index s.nextRow ∨ id ∈ (s.tree.children c).keys) : u.Filled := by
  refine ⟨fresh, ?_, ?_, ?_, ?_⟩
  · have started := filled.started
    have next := (lt_succ_iff room).mpr (.inl rfl)
    rw [nextRow]
    exact Std.le_of_lt (Std.lt_of_le_of_lt started next)
  · rw [places]
    exact filled.distinct
  · intro id c
    rw [places, root]
    exact filled.listed id c
  · intro c index place id
    rw [places] at place
    rw [added c index place id, filled.cells c index place id, nextRow]
    simp only [lt_succ_iff room]
    constructor
    · rintro (rfl | ⟨row, atLeast, below, rfl⟩)
      · exact ⟨s.nextRow, filled.started, .inl rfl, rfl⟩
      · exact ⟨row, atLeast, .inr below, rfl⟩
    · rintro ⟨row, atLeast, rfl | below, rfl⟩
      · exact .inl rfl
      · exact .inr ⟨row, atLeast, below, rfl⟩

theorem after_addRow {values : List Value} {cells : List Nat} {m : Ingest}
    (fits : values.length = s.columns.length) (room : s.nextRow ≠ 4294967295)
    (stored : addCells s.nextRow s.columns values { s with nextRow := s.nextRow + 1 } =
      .ok cells m) : after (addRow values s) = after (linkCells cells m) := by
  rw [addRow_eq, if_neg (not_not_intro fits), if_neg room, stored]
  simp only
  cases linkCells cells m <;> rfl

theorem Filled.addRow (filled : s.Filled) (values : List Value) :
    (after (Ingest.addRow values s)).Filled := by
  by_cases fits : values.length = s.columns.length
  · by_cases room : s.nextRow = 4294967295
    · rw [addRow_eq, if_neg (not_not_intro fits), if_pos room]
      exact filled
    · have place {column : IngestColumn} (member : column ∈ s.columns) :
          (column.node, column.index) ∈ s.places := List.mem_map.mpr ⟨column, member, rfl⟩
      have nodes : s.columns.map (·.node) = s.places.map (·.1) := by simp [places]
      have distinct : (s.columns.map (·.node)).Nodup := by
        rw [nodes]
        exact filled.distinct
      have free (column : IngestColumn) (member : column ∈ s.columns) :
          (s.tree.children column.node).get? (.of column.index s.nextRow) = none := by
        cases taken : (s.tree.children column.node).get? (.of column.index s.nextRow) with
        | none => rfl
        | some c =>
          have listed := OrderedMap.mem_keys_of_get? taken
          obtain ⟨row, -, below, same⟩ := (filled.cells _ _ (place member) _).mp listed
          rw [(CellId.of_inj.mp same).2] at below
          exact absurd below Std.lt_irrefl
      obtain ⟨cells, m, stored, nextRow, places, untouched, added⟩ := addCells_ok
        (s := { s with nextRow := s.nextRow + 1 }) s.nextRow s.columns values fits distinct
        fun column member => ⟨(filled.inside (place member)).2, free column member⟩
      obtain ⟨children, samePlaces, sameRow⟩ := linkCells_keeps cells m
      have fresh := (grown_addRow values s).fresh filled.fresh
      rw [after_addRow fits room stored] at fresh ⊢
      apply filled.extended room fresh (sameRow.trans nextRow) (samePlaces.trans places)
      · refine (children 0).trans (untouched 0 ?_)
        intro member
        rw [nodes] at member
        obtain ⟨⟨_, index⟩, listed, rfl⟩ := List.mem_map.mp member
        exact Nat.lt_irrefl 0 (filled.inside listed).1
      · intro c index listed id
        obtain ⟨column, member, same⟩ := List.mem_map.mp listed
        cases same
        rw [children]
        exact added column member id
  · rw [addRow_eq, if_pos fits]
    exact filled

def fill (log : DefectLog) (decls : List ColumnDecl) (rows : List (List Value)) : Ingest :=
  (start log).run (decls.map .column ++ rows.map .row)

/-- Whatever is declared and then added, refused or not. -/
theorem fill_filled (log : DefectLog) (decls : List ColumnDecl) (rows : List (List Value)) :
    (fill log decls rows).Filled := by
  have declared (s : Ingest) (filled : s.Filled) (first : s.nextRow = 1) :
      (s.run (decls.map .column)).Filled := by
    induction decls generalizing s with
    | nil => exact filled
    | cons decl decls ih =>
      obtain ⟨next, still⟩ := filled.declareColumn first decl
      exact ih _ next still
  have added (s : Ingest) (filled : s.Filled) : (s.run (rows.map .row)).Filled := by
    induction rows generalizing s with
    | nil => exact filled
    | cons values rows ih => exact ih _ (filled.addRow values)
  rw [fill, run, List.foldl_append]
  exact added _ (declared (start log) (start_filled log) rfl)

theorem Filled.rectangular (filled : s.Filled) : s.tree.Rectangular s.rowCount := by
  have last (row : UInt32) : row ≤ s.rowCount ↔ row < s.nextRow := by
    have started := UInt32.le_iff_toNat_le.mp filled.started
    have below := s.nextRow.toNat_lt
    rw [UInt32.le_iff_toNat_le, UInt32.lt_iff_toNat_lt, rowCount,
      UInt32.toNat_sub_of_le _ _ filled.started]
    simp only [UInt32.reduceToNat] at started ⊢
    omega
  intro id c entry cell
  obtain ⟨index, place, rfl⟩ := (filled.listed id c).mp entry
  rw [filled.cells c index place cell, CellId.header, CellId.column_of]
  simp only [last]

end Ingest
end LayeredTable
