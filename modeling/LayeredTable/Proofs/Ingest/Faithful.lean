import LayeredTable.Proofs.Ingest.Row
import LayeredTable.Proofs.Ingest.Sheet

/-! Ingestion leaves behind what the sheet of its actions says, whatever order they come in. The
invariant ties each column's memory to the texts that the sheet keeps in it; one declaration and
one row each carry it over, and a refused action changes nothing. Main statement:
`Ingest.run_faithful`. -/
namespace LayeredTable

namespace IngestColumn

variable {c : IngestColumn} {i : Nat} {rows : List (List Value)} {values : List Value}

def Remembers (c : IngestColumn) (i : Nat) (rows : List (List Value)) : Prop :=
  ∀ text, text ∈ c.seen ↔ c.decl.unique = true ∧ text ∈ c.decl.texts i rows

theorem stored_eq (c : IngestColumn) (given : Value) : c.stored given = c.decl.keep given := by
  cases given <;> simp [stored, ColumnDecl.keep, Value.isNull]

theorem key?_eq_some_iff {v : Value} {text : String} :
    c.key? v = some text ↔ c.decl.unique = true ∧ v.isNull = false ∧ v.toText = text := by
  simp [key?, and_assoc]

theorem Remembers.repeats (remembers : c.Remembers i rows) (given : Value) :
    c.repeats (c.stored given) = c.decl.duplicates i rows given := by
  rw [Bool.eq_iff_iff]
  simp only [IngestColumn.repeats, ColumnDecl.duplicates, stored_eq, Option.any_eq_true,
    key?_eq_some_iff, List.contains_iff_mem, remembers _, Bool.and_eq_true,
    Bool.not_eq_true']
  constructor
  · rintro ⟨text, ⟨unique, present, rfl⟩, -, kept⟩
    exact ⟨⟨unique, present⟩, kept⟩
  · rintro ⟨⟨unique, present⟩, kept⟩
    exact ⟨_, ⟨unique, present, rfl⟩, unique, kept⟩

theorem Remembers.remember (remembers : c.Remembers i rows) {given : Value}
    (entry : values[i]? = some given) :
    (c.remember (c.stored given)).Remembers i (rows ++ [values]) := by
  intro text
  simp only [IngestColumn.remember, List.mem_append, Option.mem_toList,
    key?_eq_some_iff, remembers _, ColumnDecl.mem_texts_append, stored_eq, entry,
    Option.some.injEq, exists_eq_left']
  grind

theorem Remembers.defects (remembers : c.Remembers i rows) (index : c.index = ordinal i)
    (given : Value) :
    c.defects (ordinal rows.length) given = c.decl.faults i rows given := by
  have repeats := remembers.repeats given
  rw [stored_eq] at repeats
  simp only [IngestColumn.defects, ColumnDecl.faults, stored_eq, repeats, index, mismatch,
    duplicate]

end IngestColumn

namespace Ingest

variable {s : Ingest} {before : Array Defect} {sheet : Sheet} {decl : ColumnDecl}
  {values : List Value} {i : Nat} {c : IngestColumn}

structure Keeps (t : Tree) (sheet : Sheet) (i : Nat) (c : IngestColumn) : Prop where
  index : c.index = ordinal i
  listed : (t.children 0).get? (.header (ordinal i)) = some c.node
  remembers : c.Remembers i sheet.rows
  cells : ∀ id spec hidden, t.child? c.node id = some (spec, hidden) ↔
    sheet.Holds i c.decl id spec hidden

structure Tracks (s : Ingest) (before : Array Defect) (sheet : Sheet) : Prop where
  fresh : s.tree.Fresh
  nextRow : s.nextRow = ordinal sheet.rows.length
  few : sheet.decls.length < UInt32.size
  short : sheet.rows.length + 1 < UInt32.size
  narrow : ∀ values ∈ sheet.rows, values.length ≤ sheet.decls.length
  decls : s.columns.map (·.decl) = sheet.decls
  columns : ∀ i c, s.columns[i]? = some c → Keeps s.tree sheet i c
  root : ∀ id spec hidden, s.tree.child? 0 id = some (spec, hidden) ↔
    sheet.Declares id spec hidden
  log : s.defects = { records := before ++ sheet.faults.toArray }

theorem start_tracks (before : Array Defect) :
    (start { records := before }).Tracks before {} := by
  refine ⟨Tree.new_fresh ⟨0⟩, rfl, by decide, by decide, nofun, rfl, nofun, ?_, ?_⟩
  · intro id spec hidden
    constructor
    · intro held
      cases held
    · rintro ⟨i, decl, entry, -⟩
      cases entry
  · simp [start, Sheet.faults]

namespace Tracks

theorem length_columns (tracks : s.Tracks before sheet) :
    s.columns.length = sheet.decls.length := by
  rw [← tracks.decls, List.length_map]

theorem decl_column (tracks : s.Tracks before sheet) (entry : s.columns[i]? = some c) :
    sheet.decls[i]? = some c.decl := by
  simp [← tracks.decls, entry]

theorem index_lt (tracks : s.Tracks before sheet) (entry : sheet.decls[i]? = some decl) :
    i + 1 < UInt32.size := by
  obtain ⟨within, -⟩ := List.getElem?_eq_some_iff.mp entry
  have := tracks.few
  omega

/-- Columns at different places have different nodes. -/
theorem node_inj (tracks : s.Tracks before sheet) {k : Nat} {d : IngestColumn}
    (first : s.columns[i]? = some c) (second : s.columns[k]? = some d)
    (same : c.node = d.node) : i = k := by
  obtain ⟨n, here, named, -⟩ := tracks.fresh.sound.shape.child (tracks.columns i c first).listed
  obtain ⟨m, there, alsoNamed, -⟩ :=
    tracks.fresh.sound.shape.child (tracks.columns k d second).listed
  rw [← same, here] at there
  cases there
  have numbers := (CellId.of_inj.mp (named.symm.trans alsoNamed)).1
  exact (ordinal_inj (tracks.index_lt (tracks.decl_column first))
    (tracks.index_lt (tracks.decl_column second))).mp numbers

theorem distinct (tracks : s.Tracks before sheet) : (s.columns.map (·.node)).Nodup := by
  rw [List.Nodup, List.pairwise_map, List.pairwise_iff_getElem]
  intro i k first second before same
  have := tracks.node_inj (List.getElem?_eq_getElem first) (List.getElem?_eq_getElem second) same
  omega

theorem node_pos (tracks : s.Tracks before sheet) (entry : s.columns[i]? = some c) :
    0 < c.node ∧ c.node < s.tree.size :=
  tracks.fresh.sound.shape.lt_child (tracks.columns i c entry).listed

theorem header_free (tracks : s.Tracks before sheet)
    (room : sheet.decls.length + 1 < UInt32.size) :
    s.tree.child? 0 (.header (ordinal sheet.decls.length)) = none := by
  cases held : s.tree.child? 0 (.header (ordinal sheet.decls.length)) with
  | none => rfl
  | some child =>
    obtain ⟨i, decl, entry, named, -⟩ := (tracks.root _ _ _).mp held
    have same := (ordinal_inj room (tracks.index_lt entry)).mp (CellId.of_inj.mp named).1
    rw [← same] at entry
    simp at entry

theorem cell_free (tracks : s.Tracks before sheet) (entry : s.columns[i]? = some c) :
    s.tree.child? c.node (.of (ordinal i) (ordinal sheet.rows.length)) = none := by
  cases held : s.tree.child? c.node (.of (ordinal i) (ordinal sheet.rows.length)) with
  | none => rfl
  | some child =>
    obtain ⟨k, _, _, row, -, named, -⟩ := ((tracks.columns i c entry).cells _ _ _).mp held
    obtain ⟨within, -⟩ := List.getElem?_eq_some_iff.mp row
    have short := tracks.short
    have same := (ordinal_inj short (by omega)).mp (CellId.of_inj.mp named).2
    omega

section Columns

theorem admits_column (tracks : s.Tracks before sheet) (decl : ColumnDecl) :
    sheet.admits (.column decl) = (!(s.columns.any fun c => c.decl.name == decl.name) &&
      decide (s.columns.length + 1 < UInt32.size)) := by
  rw [Sheet.admits, ← tracks.decls, List.map_map, List.length_map, List.contains_eq_any_beq,
    List.any_map]
  simp only [Function.comp_def, BEq.comm]

/-- A refused declaration changes nothing. -/
theorem refused_column (tracks : s.Tracks before sheet)
    (refused : sheet.admits (.column decl) = false) : ∃ e, declareColumn decl s = .error e s := by
  rw [tracks.admits_column, Bool.and_eq_false_iff, Bool.not_eq_false'] at refused
  rw [declareColumn_eq]
  by_cases taken : (s.columns.any fun c => c.decl.name == decl.name) = true
  · exact ⟨_, if_pos taken⟩
  · have full := of_decide_eq_false (refused.resolve_left taken)
    rw [if_neg taken, if_pos (Nat.le_of_not_lt full)]
    exact ⟨_, rfl⟩

/-- What is kept in a column stays when a child is added to the root. -/
theorem keeps_add {node : Nat} {spec : NodeSpec} {u : Tree} (tracks : s.Tracks before sheet)
    (added : s.tree.add 0 spec false = .ok (node, u)) (entry : s.columns[i]? = some c) :
    Keeps u { sheet with decls := sheet.decls ++ [decl] } i c := by
  have keeps := tracks.columns i c entry
  obtain ⟨-, -, free, -⟩ := Tree.add_ok added
  have apart : CellId.header (ordinal i) ≠ spec.id := by
    intro same
    rw [← same, keeps.listed] at free
    cases free
  refine ⟨keeps.index, ?_, keeps.remembers, fun id spec hidden => ?_⟩
  · rw [Tree.children_add added, if_pos rfl, OrderedMap.get?_insert, if_neg apart, keeps.listed]
  · have below : c.node ≠ 0 := Nat.ne_of_gt (tracks.node_pos entry).1
    simp only [Tree.child?_add_eq_some_iff tracks.fresh.sound added, below, false_and, false_or]
    exact keeps.cells id spec hidden

/-- A new column has no cells: every row so far is shorter. -/
theorem keeps_new {node : Nat} {spec : NodeSpec} {u : Tree} (tracks : s.Tracks before sheet)
    (added : s.tree.add 0 spec false = .ok (node, u))
    (named : spec.id = .header (ordinal sheet.decls.length)) :
    Keeps u { sheet with decls := sheet.decls ++ [decl] } sheet.decls.length
      { node, index := ordinal sheet.decls.length, decl } := by
  obtain ⟨last, rooted, -, -⟩ := Tree.add_ok added
  have below : node ≠ 0 := by omega
  have beyond (values : List Value) (member : values ∈ sheet.rows) :
      values[sheet.decls.length]? = none :=
    List.getElem?_eq_none (tracks.narrow values member)
  refine ⟨rfl, ?_, fun text => ⟨nofun, ?_⟩, fun id held hidden => ⟨fun there => ?_, ?_⟩⟩
  · rw [Tree.children_add added, if_pos rfl, OrderedMap.get?_insert, if_pos named.symm]
  · rintro ⟨-, kept⟩
    obtain ⟨values, member, v, entry, -⟩ := ColumnDecl.mem_texts.mp kept
    rw [beyond values member] at entry
    cases entry
  · simp only [Tree.child?_add_eq_some_iff tracks.fresh.sound added, below, false_and,
      false_or] at there
    rw [Tree.child?, Tree.findById, Tree.children_of_outside (by omega)] at there
    cases there
  · rintro ⟨k, values, given, row, entry, -⟩
    rw [beyond values (List.mem_of_getElem? row)] at entry
    cases entry

theorem declared (tracks : s.Tracks before sheet)
    (admitted : sheet.admits (.column decl) = true) :
    ∃ node u, declareColumn decl s = .ok node u ∧
      u.Tracks before { sheet with decls := sheet.decls ++ [decl] } := by
  rw [tracks.admits_column, Bool.and_eq_true, Bool.not_eq_true', decide_eq_true_eq] at admitted
  obtain ⟨unnamed, room⟩ := admitted
  have length := tracks.length_columns
  have index : s.nextIndex = ordinal sheet.decls.length := by rw [nextIndex, length, ordinal]
  rw [length] at room
  have free := tracks.fresh.child?_eq_none_iff.mp (tracks.header_free room)
  obtain ⟨u, added⟩ : ∃ u, s.tree.add 0
      (.column (ordinal sheet.decls.length) decl.name decl.type decl.nullable) false =
        .ok (s.tree.size, u) :=
    Tree.add_of_fresh tracks.fresh.sound.shape.pos free false
  refine ⟨s.tree.size, { s with
    tree := u
    columns := s.columns ++ [⟨s.tree.size, ordinal sheet.decls.length, decl, []⟩] }, ?_, ?_⟩
  · rw [declareColumn_eq, if_neg (by simp [unnamed]), if_neg (by omega), index, added]
  · refine ⟨tracks.fresh.add added, tracks.nextRow, ?_, tracks.short, ?_, ?_, ?_, ?_, ?_⟩
    · simpa using room
    · intro values member
      have := tracks.narrow values member
      simp only [List.length_append, List.length_singleton]
      omega
    · simp [tracks.decls]
    · intro k d entry
      rcases Sheet.getElem?_concat_eq_some_iff.mp entry with old | ⟨rfl, rfl⟩
      · exact tracks.keeps_add added old
      · rw [length]
        exact tracks.keeps_new added rfl
    · intro id spec hidden
      rw [Tree.child?_add_eq_some_iff tracks.fresh.sound added, Sheet.declares_addColumn,
        tracks.root]
      simp only [Prod.mk.injEq, true_and]
      exact or_comm
    · rw [Sheet.faults_addColumn tracks.narrow]
      exact tracks.log

end Columns

section Rows

theorem admits_row (tracks : s.Tracks before sheet) (values : List Value) :
    sheet.admits (.row values) = true ↔
      values.length = s.columns.length ∧ s.nextRow ≠ 4294967295 := by
  have last : s.nextRow = 4294967295 ↔ sheet.rows.length = 4294967294 := by
    rw [tracks.nextRow]
    exact ordinal_inj tracks.short (by decide)
  have short := tracks.short
  simp only [Sheet.admits, tracks.length_columns, ne_eq, last, Bool.and_eq_true, beq_iff_eq,
    decide_eq_true_eq, UInt32.size] at short ⊢
  omega

/-- A refused row changes nothing. -/
theorem refused_row (tracks : s.Tracks before sheet)
    (refused : sheet.admits (.row values) = false) : ∃ e, addRow values s = .error e s := by
  rw [← Bool.not_eq_true, tracks.admits_row] at refused
  rw [addRow_eq]
  by_cases fits : values.length = s.columns.length
  · by_cases full : s.nextRow = 4294967295
    · rw [if_neg (not_not_intro fits), if_pos full]
      exact ⟨_, rfl⟩
    · exact absurd ⟨fits, full⟩ refused
  · exact ⟨_, if_pos fits⟩

/-- A row is stored and its cells are linked. -/
theorem stores (tracks : s.Tracks before sheet) (fits : values.length = s.columns.length)
    (room : s.nextRow ≠ 4294967295) :
    ∃ cells m t, Stored { s with nextRow := s.nextRow + 1 } s.nextRow [] s.columns values cells m ∧
      addRow values s = .ok s.nextRow { m with tree := t } ∧ m.nextRow = s.nextRow + 1 ∧
      t.children 0 = s.tree.children 0 ∧ ∀ j id, t.child? j id = m.tree.child? j id := by
  obtain ⟨cells, m, done, nextRow, -, untouched, -⟩ := addCells_ok
    (s := { s with nextRow := s.nextRow + 1 }) s.nextRow s.columns values fits tracks.distinct
    fun c member => by
      obtain ⟨i, entry⟩ := List.getElem?_of_mem member
      have free := tracks.fresh.child?_eq_none_iff.mp (tracks.cell_free entry)
      rw [(tracks.columns i c entry).index, tracks.nextRow]
      exact ⟨(tracks.node_pos entry).2, free⟩
  have stored : Stored _ _ [] _ _ _ _ :=
    addCells_stored done fits rfl tracks.distinct tracks.fresh.sound
  obtain ⟨t, linked, same⟩ := linkCells_ok stored.inside
  have children := (linkCells_keeps cells m).1 0
  rw [linked] at children
  refine ⟨cells, m, t, stored, ?_, nextRow, children.trans (untouched 0 ?_), same⟩
  · rw [addRow_eq, if_neg (not_not_intro fits), if_neg room, done]
    simp only [linked]
  · intro member
    obtain ⟨c, listed, root⟩ := List.mem_map.mp member
    obtain ⟨i, entry⟩ := List.getElem?_of_mem listed
    have := (tracks.node_pos entry).1
    omega

/-- The defects that the columns log of a row are those of the sheet. -/
theorem logged_row (tracks : s.Tracks before sheet) (values : List Value) :
    ((s.columns.zip values).flatMap fun c => c.1.defects s.nextRow c.2) =
      Sheet.rowFaults sheet.decls sheet.rows values := by
  rw [Sheet.rowFaults, List.flatMap_def, List.flatMap_def]
  congr 1
  apply List.ext_getElem?
  intro i
  have decl : sheet.decls[i]? = s.columns[i]?.map (·.decl) := by simp [← tracks.decls]
  cases entry : s.columns[i]? with
  | none => simp [List.zip, List.getElem?_zipWith, decl, entry]
  | some c =>
    cases given : values[i]? with
    | none => simp [List.zip, List.getElem?_zipWith, entry, given]
    | some v =>
      have keeps := tracks.columns i c entry
      simp [List.zip, List.getElem?_zipWith, decl, entry, given, tracks.nextRow,
        keeps.remembers.defects keeps.index]

/-- What a row stores in a column is what the sheet has for it. -/
theorem mem_row (tracks : s.Tracks before sheet) (entry : s.columns[i]? = some c) {id : CellId}
    {held : NodeSpec × Bool} :
    (∃ d v, (d, v) ∈ s.columns.zip values ∧ c.node = d.node ∧ id = .of d.index s.nextRow ∧
        held = (d.cell s.nextRow (d.stored v), d.hides (d.stored v))) ↔
      ∃ given, values[i]? = some given ∧ id = .of (ordinal i) (ordinal sheet.rows.length) ∧
        held = (c.decl.cellAt i sheet.rows.length given,
          c.decl.conceals i sheet.rows given) := by
  have keeps := tracks.columns i c entry
  have made (given : Value) :
      (c.cell s.nextRow (c.stored given), c.hides (c.stored given)) =
        (c.decl.cellAt i sheet.rows.length given, c.decl.conceals i sheet.rows given) := by
    rw [IngestColumn.hides, keeps.remembers.repeats, IngestColumn.stored_eq,
      IngestColumn.cell, keeps.index, tracks.nextRow]
    rfl
  constructor
  · rintro ⟨d, v, member, same, rfl, rfl⟩
    obtain ⟨k, zipped⟩ := List.getElem?_of_mem member
    obtain ⟨there, given⟩ := List.getElem?_zip_eq_some.mp zipped
    obtain rfl := tracks.node_inj entry there same
    rw [entry] at there
    cases there
    exact ⟨v, given, by rw [keeps.index, tracks.nextRow], made v⟩
  · rintro ⟨given, there, rfl, rfl⟩
    refine ⟨c, given, ?_, rfl, by rw [keeps.index, tracks.nextRow], (made given).symm⟩
    exact List.mem_of_getElem? (List.getElem?_zip_eq_some.mpr ⟨entry, there⟩)

/-- A column after a row keeps the row's value on top of what it kept before. -/
theorem keeps_row {m : Ingest} {t : Tree} {cells : List Nat}
    (tracks : s.Tracks before sheet)
    (stored : Stored { s with nextRow := s.nextRow + 1 } s.nextRow [] s.columns values cells m)
    (root : t.children 0 = s.tree.children 0) (same : ∀ j id, t.child? j id = m.tree.child? j id)
    (entry : s.columns[i]? = some c) {given : Value} (value : values[i]? = some given) :
    Keeps t { sheet with rows := sheet.rows ++ [values] } i (c.remember (c.stored given)) := by
  have keeps := tracks.columns i c entry
  refine ⟨keeps.index, ?_, keeps.remembers.remember value, fun id spec hidden => ?_⟩
  · rw [root]
    exact keeps.listed
  · rw [same, Sheet.holds_addRow]
    refine (stored.children _ _ _).trans (or_congr (keeps.cells id spec hidden) ?_)
    refine (tracks.mem_row entry).trans ?_
    simp only [Prod.mk.injEq]
    exact Iff.rfl

theorem added (tracks : s.Tracks before sheet) (admitted : sheet.admits (.row values) = true) :
    ∃ u, addRow values s = .ok (ordinal sheet.rows.length) u ∧
      u.Tracks before { sheet with rows := sheet.rows ++ [values] } := by
  obtain ⟨fits, room⟩ := (tracks.admits_row values).mp admitted
  obtain ⟨cells, m, t, stored, done, nextRow, root, same⟩ := tracks.stores fits room
  have fresh := (grown_addRow values s).fresh tracks.fresh
  rw [done] at fresh
  have columns : m.columns = s.columns.zipWith (fun c v => c.remember (c.stored v)) values :=
    stored.remembered
  refine ⟨{ m with tree := t }, ?_, fresh, ?_, tracks.few, ?_, ?_, ?_, ?_, ?_, ?_⟩
  · rw [done, tracks.nextRow]
  · rw [List.length_append, List.length_singleton, ← ordinal_succ, ← tracks.nextRow]
    exact nextRow
  · simp only [Sheet.admits, Bool.and_eq_true, decide_eq_true_eq] at admitted
    rw [List.length_append, List.length_singleton]
    exact admitted.2
  · intro row member
    rcases List.mem_append.mp member with old | new
    · exact tracks.narrow row old
    · rw [List.mem_singleton.mp new]
      exact Nat.le_of_eq (fits.trans tracks.length_columns)
  · rw [← tracks.decls]
    apply List.ext_getElem
    · simp [columns, fits]
    · intro i _ _
      simp [columns, IngestColumn.remember]
  · intro i d entry
    rw [columns] at entry
    obtain ⟨c, given, there, value, rfl⟩ := List.getElem?_zipWith_eq_some.mp entry
    exact tracks.keeps_row stored root same there value
  · intro id spec hidden
    rw [same, stored.children]
    refine Iff.trans ?_ (tracks.root id spec hidden)
    refine or_iff_left fun ⟨c, v, member, here, _⟩ => ?_
    obtain ⟨i, entry⟩ := List.getElem?_of_mem (List.of_mem_zip member).1
    have := (tracks.node_pos entry).1
    omega
  · have logged := stored.logged
    simp only [tracks.logged_row values, tracks.log, DefectLog.logAll_enabled] at logged
    rw [Sheet.faults_addRow]
    exact logged.trans (by simp)

end Rows

theorem perform_refused (tracks : s.Tracks before sheet) {action : IngestAction}
    (refused : sheet.admits action = false) : s.perform action = s := by
  cases action with
  | column decl =>
    obtain ⟨e, failed⟩ := tracks.refused_column refused
    rw [Ingest.perform, failed]
    rfl
  | row values =>
    obtain ⟨e, failed⟩ := tracks.refused_row refused
    rw [Ingest.perform, failed]
    rfl

theorem perform (tracks : s.Tracks before sheet) (action : IngestAction) :
    (s.perform action).Tracks before (sheet.accept action) := by
  cases admitted : sheet.admits action with
  | false =>
    rw [tracks.perform_refused admitted, Sheet.accept, admitted]
    exact tracks
  | true =>
    rw [Sheet.accept, if_pos admitted]
    cases action with
    | column decl =>
      obtain ⟨node, u, done, next⟩ := tracks.declared admitted
      rw [Ingest.perform, done]
      exact next
    | row values =>
      obtain ⟨u, done, next⟩ := tracks.added admitted
      rw [Ingest.perform, done]
      exact next

theorem run (tracks : s.Tracks before sheet) (actions : List IngestAction) :
    (s.run actions).Tracks before (actions.foldl Sheet.accept sheet) := by
  induction actions generalizing s sheet with
  | nil => exact tracks
  | cons action actions ih => exact ih (tracks.perform action)

end Tracks

/-- What an ingestion has made of its actions, in terms of their sheet: its tree, its log after the
records `before`, and which action it takes next. -/
structure Faithful (s : Ingest) (before : Array Defect) (sheet : Sheet) : Prop where
  version : s.tree.version = 0
  columns : ∀ id spec hidden, s.tree.child? 0 id = some (spec, hidden) ↔
    sheet.Declares id spec hidden
  cells : ∀ i decl, sheet.decls[i]? = some decl →
    ∃ c, s.tree.findById 0 (.header (ordinal i)) = some c ∧
      ∀ id spec hidden, s.tree.child? c id = some (spec, hidden) ↔
        sheet.Holds i decl id spec hidden
  records : s.defects.records = before ++ sheet.faults.toArray
  declares : ∀ decl, (∃ node u, declareColumn decl s = .ok node u) ↔
    sheet.admits (.column decl) = true
  adds : ∀ values row, (∃ u, addRow values s = .ok row u) ↔
    sheet.admits (.row values) = true ∧ row = ordinal sheet.rows.length

theorem Tracks.faithful (tracks : s.Tracks before sheet) : s.Faithful before sheet := by
  refine ⟨tracks.fresh.version, tracks.root, ?_, ?_, ?_, ?_⟩
  · intro i decl entry
    rw [← tracks.decls, List.getElem?_map, Option.map_eq_some_iff] at entry
    obtain ⟨c, there, rfl⟩ := entry
    have keeps := tracks.columns i c there
    exact ⟨c.node, keeps.listed, keeps.cells⟩
  · rw [tracks.log]
  · intro decl
    constructor
    · rintro ⟨node, u, done⟩
      cases admitted : sheet.admits (.column decl) with
      | true => rfl
      | false =>
        obtain ⟨e, failed⟩ := tracks.refused_column admitted
        rw [failed] at done
        cases done
    · intro admitted
      obtain ⟨node, u, done, -⟩ := tracks.declared admitted
      exact ⟨node, u, done⟩
  · intro values row
    constructor
    · rintro ⟨u, done⟩
      cases admitted : sheet.admits (.row values) with
      | true =>
        obtain ⟨v, expected, -⟩ := tracks.added admitted
        rw [expected] at done
        cases done
        exact ⟨rfl, rfl⟩
      | false =>
        obtain ⟨e, failed⟩ := tracks.refused_row admitted
        rw [failed] at done
        cases done
    · rintro ⟨admitted, rfl⟩
      obtain ⟨u, done, -⟩ := tracks.added admitted
      exact ⟨u, done⟩

/-- Whatever is declared and added, in any order, to a new ingestion with a log that is switched
on: what is left behind is what the sheet of the actions says. -/
theorem run_faithful (before : Array Defect) (actions : List IngestAction) :
    ((start { records := before }).run actions).Faithful before (.ofActions actions) :=
  ((start_tracks before).run actions).faithful

def interleaved : List IngestAction :=
  let seven : Value := .integer .int64 7 (by decide)
  [.column { name := "key", type := .integer .int64, unique := true }, .row [seven],
    .column { name := "note", type := .text, nullable := { allowed := true } },
    .row [seven, .null], .row [.text "7", .text "seven"], .row [seven]]

theorem run_faithful_interleaved :
    ∃ c, ((start {}).run interleaved).tree.findById 0 (.header 1) = some c ∧
      ((start {}).run interleaved).tree.child? c (.of 1 2) =
        some ({ id := .of 1 2, value := .integer .int64 7 (by decide), type := .integer .int64 },
          true) ∧
      ((start {}).run interleaved).tree.child? c (.of 1 3) =
        some ({ id := .of 1 3, type := .integer .int64 }, true) := by
  have columns : (Sheet.ofActions interleaved).decls[0]? =
      some { name := "key", type := .integer .int64, unique := true } := by decide +kernel
  obtain ⟨c, found, held⟩ := (run_faithful #[] interleaved).cells 0 _ columns
  refine ⟨c, found, (held _ _ _).mpr ?_, (held _ _ _).mpr ?_⟩
  · exact ⟨1, [.integer .int64 7 (by decide), .null], .integer .int64 7 (by decide),
      by decide +kernel, rfl, rfl, rfl, by decide +kernel⟩
  · exact ⟨2, [.text "7", .text "seven"], .text "7", by decide +kernel, rfl, rfl, rfl,
      by decide +kernel⟩

example : (Sheet.ofActions interleaved).faults.map (fun d => (d.column, d.row, d.message)) =
    [(some 1, some 2, "duplicate id [7]"),
      (some 1, some 3, "key: expected INT64 but found STRING"),
      (some 1, some 3, "null value found in non-null field")] := by
  decide +kernel

end Ingest
end LayeredTable
