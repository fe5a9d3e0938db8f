import Mathlib.Logic.ExistsUnique
import LayeredTable.Proofs.Ingest.Atomic
import LayeredTable.Proofs.Value.Text

/-! Unique columns. A column knows its values by their texts, and the values of one type are told
apart by these as long as the type is exact. So a repeated value is hidden and its first occurrence
is not. Main statement: `Ingest.run_unique`. -/
namespace LayeredTable

namespace ColumnDecl

variable {decl : ColumnDecl} {i : Nat} {rows : List (List Value)} {given other : Value}

theorem keep_conformsTo (present : (decl.keep given).isNull = false) :
    (decl.keep given).conformsTo decl.type = true := by
  unfold keep at present ⊢
  split
  · rename_i kept
    rw [if_pos kept] at present
    simpa [present] using kept
  · rename_i dropped
    rw [if_neg dropped] at present
    cases present

/-- A column of an exact type keeps no two values of one text. -/
theorem toText_keep_inj (exact : decl.type.isFloat = false)
    (first : (decl.keep given).isNull = false) (second : (decl.keep other).isNull = false) :
    (decl.keep given).toText = (decl.keep other).toText ↔ decl.keep given = decl.keep other :=
  Value.toText_inj_of_conformsTo exact (keep_conformsTo first) (keep_conformsTo second)

/-- A unique column of an exact type repeats a value if some row before has the same one. -/
theorem duplicates_iff (unique : decl.unique = true) (exact : decl.type.isFloat = false)
    (present : (decl.keep given).isNull = false) : decl.duplicates i rows given = true ↔
      ∃ values ∈ rows, ∃ v, values[i]? = some v ∧ decl.keep v = decl.keep given := by
  simp only [duplicates, unique, present, Bool.not_false, Bool.true_and, List.contains_iff_mem,
    mem_texts]
  constructor
  · rintro ⟨values, member, v, entry, shown, same⟩
    exact ⟨values, member, v, entry, (toText_keep_inj exact shown present).mp same⟩
  · rintro ⟨values, member, v, entry, same⟩
    exact ⟨values, member, v, entry, same ▸ present, congrArg Value.toText same⟩

end ColumnDecl

namespace Tree

variable {t : Tree} {c : Nat} {id other : CellId} {v : Value} {hidden : Bool}

def Stores (t : Tree) (c : Nat) (id : CellId) (v : Value) (hidden : Bool) : Prop :=
  ∃ spec, t.child? c id = some (spec, hidden) ∧ spec.value = v

/-- The cells of a column are unique by value: repetitions are hidden, and of what is not null only
they. -/
structure UniqueByValue (t : Tree) (c : Nat) : Prop where
  stored : ∀ id ∈ (t.children c).keys, ∃ v hidden, t.Stores c id v hidden
  hidden_iff : ∀ id v hidden, t.Stores c id v hidden → v ≠ .null →
    (hidden = true ↔ ∃ earlier hidden, t.Stores c earlier v hidden ∧ earlier.row < id.row)
  distinct : ∀ id other v, t.Stores c id v false → t.Stores c other v false → id = other
  visible : ∀ id v hidden, t.Stores c id v hidden → v ≠ .null →
    ∃! row, ∃ first, t.Stores c first v false ∧ first.row = row

/-- It is enough that repetitions are hidden, no null is shown and no row is used twice: the least
of the rows that store a value shows it. -/
theorem UniqueByValue.of_hidden_iff
    (stored : ∀ id ∈ (t.children c).keys, ∃ v hidden, t.Stores c id v hidden)
    (hidden_iff : ∀ id v hidden, t.Stores c id v hidden → v ≠ .null →
      (hidden = true ↔ ∃ earlier hidden, t.Stores c earlier v hidden ∧ earlier.row < id.row))
    (present : ∀ id v, t.Stores c id v false → v ≠ .null)
    (rows : ∀ id other v w hidden hidden', t.Stores c id v hidden →
      t.Stores c other w hidden' → id.row = other.row → id = other) : t.UniqueByValue c := by
  have notEarlier {id other : CellId} {v : Value} (first : t.Stores c id v false)
      (second : t.Stores c other v false) : ¬ id.row < other.row := by
    intro earlier
    have hidden := (hidden_iff other v false second (present id v first)).mpr
      ⟨id, false, first, earlier⟩
    cases hidden
  have distinct (id other : CellId) (v : Value) (first : t.Stores c id v false)
      (second : t.Stores c other v false) : id = other := by
    refine rows id other v v false false first second ?_
    exact Std.le_antisymm (Std.not_lt.mp (notEarlier second first))
      (Std.not_lt.mp (notEarlier first second))
  have visible (row : Nat) : ∀ id v hidden, id.row.toNat = row → t.Stores c id v hidden →
      v ≠ .null → ∃ first, t.Stores c first v false := by
    induction row using Nat.strongRecOn with
    | ind row earliest =>
      rintro id v hidden rfl stores some
      cases hidden with
      | false => exact ⟨id, stores⟩
      | true =>
        obtain ⟨earlier, hidden, before, less⟩ := (hidden_iff id v true stores some).mp rfl
        exact earliest _ (UInt32.lt_iff_toNat_lt.mp less) earlier v hidden rfl before some
  refine ⟨stored, hidden_iff, distinct, fun id v hidden stores some => ?_⟩
  obtain ⟨first, shown⟩ := visible _ id v hidden rfl stores some
  refine ⟨first.row, ⟨first, shown, rfl⟩, ?_⟩
  rintro row ⟨other, again, rfl⟩
  rw [distinct other first v again shown]

/-- In a fresh tree every child stores a value. -/
theorem Fresh.stores (fresh : t.Fresh) (child : id ∈ (t.children c).keys) :
    ∃ v hidden, t.Stores c id v hidden := by
  obtain ⟨cell, entry⟩ := OrderedMap.exists_get?_of_mem_keys child
  obtain ⟨spec, hidden, held⟩ := fresh.exists_child? entry
  exact ⟨spec.value, hidden, spec, held, rfl⟩

end Tree

namespace Sheet

variable {sheet : Sheet} {i : Nat} {decl : ColumnDecl} {id : CellId} {spec : NodeSpec}
  {hidden : Bool}

/-- A cell of a unique column is hidden if some row before has its value. -/
theorem Holds.hidden_iff (held : sheet.Holds i decl id spec hidden)
    (short : sheet.rows.length + 1 < UInt32.size) (unique : decl.unique = true)
    (exact : decl.type.isFloat = false) (present : spec.value.isNull = false) : hidden = true ↔
      ∃ earlier other hidden, sheet.Holds i decl earlier other hidden ∧
        other.value = spec.value ∧ earlier.row < id.row := by
  obtain ⟨k, values, given, row, entry, rfl, rfl, rfl⟩ := held
  change (decl.keep given).isNull = false at present
  have bound {m : Nat} {values : List Value} (row : sheet.rows[m]? = some values) :
      m + 1 < UInt32.size := by
    have := (List.getElem?_eq_some_iff.mp row).1
    omega
  simp only [ColumnDecl.conceals, present, Bool.false_or,
    ColumnDecl.duplicates_iff unique exact present, CellId.row_of]
  constructor
  · rintro ⟨_, member, v, value, same⟩
    obtain ⟨m, before, there⟩ := List.mem_take_iff_getElem.mp member
    have first : sheet.rows[m]? = some _ := List.getElem?_eq_some_iff.mpr ⟨by omega, there⟩
    refine ⟨_, _, _, ⟨m, _, v, first, value, rfl, rfl, rfl⟩, same, ?_⟩
    rw [CellId.row_of]
    exact (ordinal_lt_iff (bound first) (bound row)).mpr (by omega)
  · rintro ⟨_, _, _, ⟨m, _, v, first, value, rfl, rfl, rfl⟩, same, less⟩
    rw [CellId.row_of] at less
    have before := (ordinal_lt_iff (bound first) (bound row)).mp less
    obtain ⟨inside, there⟩ := List.getElem?_eq_some_iff.mp first
    exact ⟨_, List.mem_take_iff_getElem.mpr ⟨m, by omega, there⟩, v, value, same⟩

end Sheet

namespace Ingest

variable {s : Ingest} {before : Array Defect} {sheet : Sheet} {i : Nat} {c : IngestColumn}

theorem Tracks.uniqueByValue (tracks : s.Tracks before sheet) (entry : s.columns[i]? = some c)
    (unique : c.decl.unique = true) (exact : c.decl.type.isFloat = false) :
    s.tree.UniqueByValue c.node := by
  have keeps := tracks.columns i c entry
  apply Tree.UniqueByValue.of_hidden_iff
  · intro id child
    exact tracks.fresh.stores child
  · rintro id v hidden ⟨spec, held, rfl⟩ some
    have present : spec.value.isNull = false := by
      simpa [← Value.isNull_iff] using some
    rw [((keeps.cells _ _ _).mp held).hidden_iff tracks.short unique exact present]
    constructor
    · rintro ⟨earlier, other, hidden, held, same, less⟩
      exact ⟨earlier, hidden, ⟨other, (keeps.cells _ _ _).mpr held, same⟩, less⟩
    · rintro ⟨earlier, hidden, ⟨other, held, same⟩, less⟩
      exact ⟨earlier, other, hidden, (keeps.cells _ _ _).mp held, same, less⟩
  · rintro id v ⟨spec, held, rfl⟩ null
    obtain ⟨k, values, given, -, -, -, rfl, shown⟩ := (keeps.cells _ _ _).mp held
    change c.decl.keep given = .null at null
    rw [ColumnDecl.conceals, Value.isNull_iff.mpr null] at shown
    cases shown
  · rintro id other v w hidden hidden' ⟨_, held, -⟩ ⟨_, held', -⟩ same
    obtain ⟨k, _, _, -, -, rfl, -⟩ := (keeps.cells _ _ _).mp held
    obtain ⟨m, _, _, -, -, rfl, -⟩ := (keeps.cells _ _ _).mp held'
    rw [CellId.row_of, CellId.row_of] at same
    rw [same]

/-- Whatever is declared and added, in any order and refused or not, and whatever log is kept: each
unique column of an exact type is found in the tree, where its cells are unique by value. -/
theorem run_unique (log : DefectLog) (actions : List IngestAction) (c : IngestColumn)
    (member : c ∈ ((start log).run actions).columns) (unique : c.decl.unique = true)
    (exact : c.decl.type.isFloat = false) :
    ((start log).run actions).tree.findById 0 (.header c.index) = some c.node ∧
      ((start log).run actions).tree.UniqueByValue c.node := by
  have tracks := (start_tracks #[]).run actions
  obtain ⟨log', same⟩ := run_withLog (start {}) log actions
  change (start log).run actions = _ at same
  rw [same] at member ⊢
  obtain ⟨i, entry⟩ := List.getElem?_of_mem member
  have keeps := tracks.columns i c entry
  exact ⟨keeps.index ▸ keeps.listed, tracks.uniqueByValue entry unique exact⟩

def leapSeconds : List IngestAction :=
  [.column { name := "at", type := .timestamp, unique := true },
    .row [.instant ⟨1483228799, 500000000, by decide⟩],
    .row [.instant ⟨1483228799, 1500000000, by decide⟩],
    .row [.instant ⟨1483228799, 500000000, by decide⟩]]

theorem run_unique_leap_seconds :
    let s := (start {}).run leapSeconds
    ∃ c ∈ s.columns, c.decl.unique = true ∧ c.decl.type.isFloat = false ∧
      s.tree.findById 0 (.header c.index) = some c.node ∧ s.tree.UniqueByValue c.node ∧
      s.tree.isHidden? c.node (.of 1 2) = some false ∧
      s.tree.isHidden? c.node (.of 1 3) = some true := by
  intro s
  have column : ⟨1, 1, { name := "at", type := .timestamp, unique := true },
      ["2016-12-31T23:59:59.500+00:00", "2016-12-31T23:59:60.500+00:00",
        "2016-12-31T23:59:59.500+00:00"]⟩ ∈ s.columns := by
    decide +kernel
  obtain ⟨listed, unique⟩ := run_unique {} leapSeconds _ column rfl rfl
  exact ⟨_, column, rfl, rfl, listed, unique, by decide +kernel, by decide +kernel⟩

end Ingest
end LayeredTable
