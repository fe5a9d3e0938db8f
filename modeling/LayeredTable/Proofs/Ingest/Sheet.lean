import LayeredTable.Proofs.Ingest.Basic

/-! What a run of declarations and rows should leave behind, read off the actions alone: which of
them are accepted, what is kept of each value, which cells start hidden, and which defects are
recorded. A row may come between two declarations, so rows can differ in length. -/
namespace LayeredTable

/-- Columns and rows are numbered from 1. -/
def ordinal (i : Nat) : UInt32 := .ofNat (i + 1)

theorem ordinal_inj {i k : Nat} (first : i + 1 < UInt32.size) (second : k + 1 < UInt32.size) :
    ordinal i = ordinal k ↔ i = k := by
  rw [ordinal, ordinal, ← UInt32.toNat_inj, UInt32.toNat_ofNat_of_lt' first,
    UInt32.toNat_ofNat_of_lt' second]
  omega

theorem ordinal_lt_iff {i k : Nat} (first : i + 1 < UInt32.size) (second : k + 1 < UInt32.size) :
    ordinal i < ordinal k ↔ i < k := by
  rw [ordinal, ordinal, UInt32.lt_iff_toNat_lt, UInt32.toNat_ofNat_of_lt' first,
    UInt32.toNat_ofNat_of_lt' second]
  omega

theorem one_le_ordinal {i : Nat} (bound : i + 1 < UInt32.size) : 1 ≤ ordinal i := by
  rw [ordinal, UInt32.le_iff_toNat_le, UInt32.toNat_ofNat_of_lt' bound]
  exact Nat.succ_le_succ (Nat.zero_le i)

theorem ordinal_succ (i : Nat) : ordinal i + 1 = ordinal (i + 1) := by
  rw [ordinal, ordinal, UInt32.ofNat_add (i + 1)]
  rfl

/-- The number before one that is no overflow. -/
theorem exists_ordinal_of_succ {column : UInt32} {i : Nat} (next : column + 1 = ordinal i)
    (positive : 1 ≤ column) : ∃ k, i = k + 1 ∧ column = ordinal k := by
  cases i with
  | zero =>
    have zero : column = 0 := (UInt32.add_left_inj 1).mp next
    rw [zero] at positive
    exact absurd positive (by decide)
  | succ k =>
    rw [← ordinal_succ, UInt32.add_left_inj] at next
    exact ⟨k, rfl, next⟩

namespace ColumnDecl

/-- A column keeps a value of its type, and null in place of any other. -/
def keep (decl : ColumnDecl) (given : Value) : Value :=
  if given.isNull || given.conformsTo decl.type then given else .null

/-- The texts of the values other than null that the column at `i` keeps of some rows. -/
def texts (decl : ColumnDecl) (i : Nat) (rows : List (List Value)) : List String :=
  (((rows.filterMap fun values => values[i]?).map decl.keep).filter fun v => !v.isNull).map
    Value.toText

/-- Whether a unique column keeps the text of a value twice, given the rows before. -/
def duplicates (decl : ColumnDecl) (i : Nat) (earlier : List (List Value)) (given : Value) : Bool :=
  decl.unique && !(decl.keep given).isNull &&
    (decl.texts i earlier).contains (decl.keep given).toText

def conceals (decl : ColumnDecl) (i : Nat) (earlier : List (List Value)) (given : Value) : Bool :=
  (decl.keep given).isNull || decl.duplicates i earlier given

def cellAt (decl : ColumnDecl) (i k : Nat) (given : Value) : NodeSpec :=
  { id := .of (ordinal i) (ordinal k), value := decl.keep given, type := decl.type }

/-- What is wrong with a value: its type, then that it is missing, then that it is repeated. -/
def faults (decl : ColumnDecl) (i : Nat) (earlier : List (List Value)) (given : Value) :
    List Defect :=
  let text := (decl.keep given).toText
  let mistyped :=
    if given.isNull || given.conformsTo decl.type then []
    else [Defect.of
      (decl.name ++ ": expected " ++ decl.type.label ++ " but found " ++ given.kind.label)]
  let missing :=
    if (decl.keep given).isNull && !decl.nullable.allowed then
      [Defect.of "null value found in non-null field"]
    else []
  let repeated :=
    if decl.duplicates i earlier given then
      [(Defect.of ("duplicate id [" ++ text ++ "]")).withKey decl.name text]
    else []
  (mistyped ++ missing ++ repeated).map fun d => d.atCell (ordinal i) (ordinal earlier.length)

variable {decl : ColumnDecl} {i : Nat} {rows : List (List Value)} {values : List Value}
  {text : String}

theorem mem_texts : text ∈ decl.texts i rows ↔ ∃ values ∈ rows, ∃ v, values[i]? = some v ∧
    (decl.keep v).isNull = false ∧ (decl.keep v).toText = text := by
  simp only [texts, List.mem_map, List.mem_filter, List.mem_filterMap, Bool.not_eq_true']
  constructor
  · rintro ⟨_, ⟨⟨v, ⟨values, member, entry⟩, rfl⟩, present⟩, same⟩
    exact ⟨values, member, v, entry, present, same⟩
  · rintro ⟨values, member, v, entry, present, same⟩
    exact ⟨_, ⟨⟨v, ⟨values, member, entry⟩, rfl⟩, present⟩, same⟩

theorem mem_texts_append : text ∈ decl.texts i (rows ++ [values]) ↔
    text ∈ decl.texts i rows ∨
      ∃ v, values[i]? = some v ∧ (decl.keep v).isNull = false ∧ (decl.keep v).toText = text := by
  simp only [mem_texts, List.mem_append, List.mem_singleton, or_and_right, exists_or,
    exists_eq_left]

end ColumnDecl

structure Sheet where
  decls : List ColumnDecl := []
  rows : List (List Value) := []
  deriving DecidableEq, Repr

namespace Sheet

/-- A column needs a name of its own, a row a value for each column, and both a number. -/
def admits (sheet : Sheet) : IngestAction → Bool
  | .column decl =>
    !(sheet.decls.map (·.name)).contains decl.name && sheet.decls.length + 1 < UInt32.size
  | .row values => values.length == sheet.decls.length && sheet.rows.length + 2 < UInt32.size

def append (sheet : Sheet) : IngestAction → Sheet
  | .column decl => { sheet with decls := sheet.decls ++ [decl] }
  | .row values => { sheet with rows := sheet.rows ++ [values] }

/-- A refused action leaves no trace. -/
def accept (sheet : Sheet) (action : IngestAction) : Sheet :=
  if sheet.admits action then sheet.append action else sheet

def ofActions (actions : List IngestAction) : Sheet := actions.foldl accept {}

def rowFaults (decls : List ColumnDecl) (earlier : List (List Value)) (values : List Value) :
    List Defect :=
  (decls.zip values).zipIdx.flatMap fun cell => cell.1.1.faults cell.2 earlier cell.1.2

def faults (sheet : Sheet) : List Defect :=
  sheet.rows.zipIdx.flatMap fun row => rowFaults sheet.decls (sheet.rows.take row.2) row.1

def Declares (sheet : Sheet) (id : CellId) (spec : NodeSpec) (hidden : Bool) : Prop :=
  ∃ i decl, sheet.decls[i]? = some decl ∧ id = .header (ordinal i) ∧
    spec = .column (ordinal i) decl.name decl.type decl.nullable ∧ hidden = false

/-- The cells of the column at `i`: one for each row that has a value for it. -/
def Holds (sheet : Sheet) (i : Nat) (decl : ColumnDecl) (id : CellId) (spec : NodeSpec)
    (hidden : Bool) : Prop :=
  ∃ k values given, sheet.rows[k]? = some values ∧ values[i]? = some given ∧
    id = .of (ordinal i) (ordinal k) ∧ spec = decl.cellAt i k given ∧
    hidden = decl.conceals i (sheet.rows.take k) given

variable {sheet : Sheet} {i : Nat} {decl : ColumnDecl} {id : CellId} {spec : NodeSpec}
  {hidden : Bool}

theorem getElem?_concat_eq_some_iff {α : Type} {xs : List α} {x y : α} :
    (xs ++ [x])[i]? = some y ↔ xs[i]? = some y ∨ i = xs.length ∧ x = y := by
  rcases Nat.lt_trichotomy i xs.length with inside | rfl | after
  · rw [List.getElem?_append_left inside]
    simp [Nat.ne_of_lt inside]
  · simp
  · have beyond : (xs ++ [x])[i]? = none := List.getElem?_eq_none (by simp; omega)
    simp [beyond, List.getElem?_eq_none (Nat.le_of_lt after), Nat.ne_of_gt after]

theorem declares_addColumn (decl : ColumnDecl) :
    Declares { sheet with decls := sheet.decls ++ [decl] } id spec hidden ↔
      sheet.Declares id spec hidden ∨ (id = .header (ordinal sheet.decls.length) ∧
        spec = .column (ordinal sheet.decls.length) decl.name decl.type decl.nullable ∧
        hidden = false) := by
  simp only [Declares, getElem?_concat_eq_some_iff, or_and_right, exists_or]
  apply or_congr_right
  constructor
  · rintro ⟨_, _, ⟨rfl, rfl⟩, made⟩
    exact made
  · intro made
    exact ⟨_, _, ⟨rfl, rfl⟩, made⟩

/-- A further row changes nothing about those before. -/
theorem holds_addRow (values : List Value) :
    Holds { sheet with rows := sheet.rows ++ [values] } i decl id spec hidden ↔
      sheet.Holds i decl id spec hidden ∨
        ∃ given, values[i]? = some given ∧ id = .of (ordinal i) (ordinal sheet.rows.length) ∧
          spec = decl.cellAt i sheet.rows.length given ∧
          hidden = decl.conceals i sheet.rows given := by
  have earlier {k : Nat} {row : List Value} (entry : sheet.rows[k]? = some row) :
      (sheet.rows ++ [values]).take k = sheet.rows.take k := by
    obtain ⟨old, -⟩ := List.getElem?_eq_some_iff.mp entry
    exact List.take_append_of_le_length (Nat.le_of_lt old)
  constructor
  · rintro ⟨k, row, given, entry, value, named, made, hides⟩
    rcases getElem?_concat_eq_some_iff.mp entry with old | ⟨rfl, rfl⟩
    · exact .inl ⟨k, row, given, old, value, named, made, by rw [hides, earlier old]⟩
    · exact .inr ⟨given, value, named, made, by simpa using hides⟩
  · rintro (⟨k, row, given, old, value, named, made, hides⟩ | ⟨given, value, named, made, hides⟩)
    · exact ⟨k, row, given, getElem?_concat_eq_some_iff.mpr (.inl old), value, named, made,
        by rw [hides, earlier old]⟩
    · exact ⟨_, values, given, getElem?_concat_eq_some_iff.mpr (.inr ⟨rfl, rfl⟩), value, named,
        made, by simpa using hides⟩

theorem faults_addRow (values : List Value) :
    faults { sheet with rows := sheet.rows ++ [values] } =
      sheet.faults ++ rowFaults sheet.decls sheet.rows values := by
  have earlier (row : List Value × Nat) (member : row ∈ sheet.rows.zipIdx) :
      rowFaults sheet.decls ((sheet.rows ++ [values]).take row.2) row.1 =
        rowFaults sheet.decls (sheet.rows.take row.2) row.1 := by
    have old := (List.mem_zipIdx member).2.1
    rw [List.take_append_of_le_length (by omega)]
  simp only [faults, List.zipIdx_append, List.flatMap_def, List.map_append,
    List.map_congr_left earlier]
  simp

/-- A further column changes nothing about the rows before. -/
theorem faults_addColumn (narrow : ∀ values ∈ sheet.rows, values.length ≤ sheet.decls.length)
    (decl : ColumnDecl) :
    faults { sheet with decls := sheet.decls ++ [decl] } = sheet.faults := by
  have same (row : List Value × Nat) (member : row ∈ sheet.rows.zipIdx) :
      rowFaults (sheet.decls ++ [decl]) (sheet.rows.take row.2) row.1 =
        rowFaults sheet.decls (sheet.rows.take row.2) row.1 := by
    have fits := narrow row.1 (List.fst_mem_of_mem_zipIdx member)
    have zipped : (sheet.decls ++ [decl]).zip row.1 = sheet.decls.zip row.1 := by
      apply List.ext_getElem?
      intro j
      by_cases old : j < sheet.decls.length
      · simp [List.zip, List.getElem?_zipWith, List.getElem?_append_left old]
      · have beyond : row.1[j]? = none := List.getElem?_eq_none (by omega)
        simp [List.zip, List.getElem?_zipWith, beyond]
    rw [rowFaults, zipped, rowFaults]
  simp only [faults, List.flatMap_def]
  rw [List.map_congr_left same]

end Sheet
end LayeredTable
