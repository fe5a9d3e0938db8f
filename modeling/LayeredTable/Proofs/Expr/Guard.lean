import LayeredTable.Proofs.Expr.Join
import LayeredTable.Proofs.Expr.Live
import LayeredTable.Proofs.Tree.Exclusion

/-! Predicates that let no hidden row in. A comparison is true only at rows that are not left out
and at which both of its columns show a cell, and joining predicates brings in no other rows. Where
nothing but comparisons is joined, a row that was accepted stays accepted as long as it is not left
out and its cells are shown. -/
namespace LayeredTable

def Operand.Reads (columns : List Nat) : Operand → Prop
  | column i => i ∈ columns
  | literal _ _ => False

def Operand.Within (columns : List Nat) : Operand → Prop
  | column i => i ∈ columns
  | literal _ _ => True

namespace Expr

/-- Predicates that ask for a visible cell in one of some columns: comparisons that read one of
them, with no null on the right, conjunctions of which one side asks for it and disjunctions of
which both sides do. -/
def Guards (columns : List Nat) : Expr → Prop
  | binary op left right => op.isComparison = true ∧ right.isNull = false ∧
      (left.Reads columns ∨ right.Reads columns)
  | logic .and left right => left.Guards columns ∨ right.Guards columns
  | logic .or left right => left.Guards columns ∧ right.Guards columns
  | constant _ | not _ | choice .. => False

/-- Predicates that join comparisons of some columns and literals, with no null on the right. -/
def Compares (columns : List Nat) : Expr → Prop
  | binary op left right => op.isComparison = true ∧ right.isNull = false ∧
      left.Within columns ∧ right.Within columns
  | logic _ left right => left.Compares columns ∧ right.Compares columns
  | constant _ | not _ | choice .. => False

end Expr

/-! Joined results at any row. -/

theorem Logic.Joins.imp {op : Logic} {p p' q q' : Prop} (joins : op.Joins p q) (left : p → p')
    (right : q → q') : op.Joins p' q' := by
  cases op with
  | and => exact And.imp left right joins
  | or => exact Or.imp left right joins

namespace Outcome

variable {l r : Outcome} {row : UInt32} {op : Logic} {excluded : Exclusions}

/-- Where a join holds its operands do, and the row is not left out unless it is row 0. -/
theorem joins_of_holds (left : l.BooleanConstant) (right : r.BooleanConstant)
    (holds : (join op excluded l r).Holds row) : op.Joins (l.Holds row) (r.Holds row) := by
  rw [Holds, join_get?] at holds
  split at holds
  · have combined := (Bool.and_eq_true_iff.mp (Value.bool.inj (Option.some.inj holds))).2
    rw [Logic.combine_iff] at combined
    exact combined.imp boolAt?_iff_holds.mp boolAt?_iff_holds.mp
  · rename_i unlisted
    simp only [List.mem_append, not_or] at unlisted
    obtain ⟨⟨noLeft, noRight⟩, -⟩ := unlisted
    have constants := ((join_constant_iff left right).mp holds).1
    exact constants.imp (holds_of_no_entry noLeft).mpr (holds_of_no_entry noRight).mpr

theorem entry_of_holds {o : Outcome} (constant : o.values.constant = none) (holds : o.Holds row) :
    o.values.rows.contains row = true := by
  rw [Holds, RowValues.get?, constant, Option.or_none] at holds
  rw [OrderedMap.contains, holds]
  rfl

end Outcome

/-! Comparisons at single rows. -/

section Comparisons

variable {t u : Tree} {i c cell : Nat} {id : CellId} {row : UInt32} {v a b : Value} {scan : Scan}
  {excluded : Exclusions} {op : BinaryOp} {left right : Operand} {o : Outcome}

theorem Partner.valueAt?_column_iff : (Partner.column i).valueAt? t row = some v ↔
    ∃ n, t.nodes[i]? = some n ∧ t.isHidden? i (.of n.id.column row) = some false ∧
      ∃ cell, (t.children i).get? (.of n.id.column row) = some cell ∧
        (t.nodes[cell]?).map (·.value) = some v := by
  simp only [valueAt?, Option.bind_eq_bind, Option.bind_eq_some_iff]
  apply exists_congr
  intro n
  apply and_congr_right
  intro _
  cases t.isHidden? i (.of n.id.column row) with
  | none => simp
  | some hidden =>
    cases hidden with
    | true => simp
    | false => simp only [Option.getD_some, Bool.false_eq_true, if_false, Tree.findById, true_and,
        Option.bind_eq_some_iff]

theorem Partner.ofOperand_column {type : FieldType} {partner : Partner}
    (done : ofOperand t type (.column c) = .ok partner) : partner = .column c := by
  obtain ⟨n, -, answer⟩ := exceptBind_ok done
  exact (Except.ok.inj answer).symm

/-- What a partner shows at a row it shows in every state in which its cell is visible. -/
theorem Partner.valueAt?_of_shown {type : FieldType} {partner : Partner} {columns : List Nat}
    (done : ofOperand t type right = .ok partner) (within : right.Within columns)
    (same : u.frame = t.frame)
    (shown : ∀ c ∈ columns, ∀ id ∈ (t.children c).keys, id.row = row →
      u.isHidden? c id = some false)
    (beside : partner.valueAt? t row = some v) : partner.valueAt? u row = some v := by
  cases right with
  | literal w declared =>
    rw [ofOperand] at done
    cases kept : w.cast type with
    | error e =>
      rw [kept] at done
      cases done
    | ok x =>
      rw [kept] at done
      cases done
      exact beside
  | column c =>
    rw [ofOperand_column done] at beside ⊢
    obtain ⟨n, here, -, cell, entry, value⟩ := valueAt?_column_iff.mp beside
    rcases Tree.nodes_of_frame same c with ⟨absent, -⟩ | ⟨m, n', there, now, bare⟩
    · rw [here] at absent
      cases absent
    · rw [here] at there
      cases there
      rw [(Node.bare_fields bare).1] at entry
      rw [valueAt?_column_iff, Tree.children_eq_of_frame same]
      have visible := shown c within _ (OrderedMap.mem_keys_of_get? entry) (CellId.row_of _ _)
      refine ⟨n', now, visible, cell, entry, ?_⟩
      rw [Tree.map_eq_of_frame same cell (·.value) fun _ => rfl, value]

theorem Scan.operands?_eq_some_iff : scan.operands? t excluded id cell = some (a, b) ↔
    excluded.contains id.row = false ∧ t.isHidden? scan.column id = some false ∧
      ((t.nodes[cell]?).map (·.value)).getD .null = a ∧
      scan.partner.valueAt? t id.row = some b := by
  rw [operands?]
  cases excluded.contains id.row with
  | true => simp
  | false =>
    cases t.isHidden? scan.column id with
    | none => simp
    | some hidden =>
      cases hidden with
      | true => simp
      | false => cases scan.partner.valueAt? t id.row <;> simp

theorem Scan.row_row (scan : Scan) (t : Tree) (excluded : Exclusions) (id : CellId) (cell : Nat) :
    (scan.row t excluded (id, cell)).1.1 = id.row := by
  rw [Scan.row]
  split <;> rfl

/-- A comparison holds at a row only by a cell of its left column that has operands. -/
theorem Scan.exists_of_holds (compares : scan.op.isComparison = true)
    (holds : (scan.outcome t).Holds row) : ∃ id cell a b,
      (t.children scan.column).get? id = some cell ∧ id.row = row ∧
      scan.operands? t (t.exclusions scan.column) id cell = some (a, b) ∧
      (scan.combine a b).1 = .bool true := by
  have entry : (row, Value.bool true) ∈ (scan.rows t).map (·.1) := by
    apply RowValues.mem_of_rows_ofList
    rwa [Outcome.Holds, outcome, RowValues.get?, RowValues.ofList, Option.or_none] at holds
  obtain ⟨made, listed, same⟩ := List.mem_map.mp entry
  obtain ⟨⟨id, cell⟩, member, rfl⟩ := List.mem_map.mp listed
  simp only [Scan.row] at same
  cases found : scan.operands? t (t.exclusions scan.column) id cell with
  | none =>
    rw [found] at same
    simp [BinaryOp.skipped, compares] at same
  | some operands =>
    rw [found] at same
    simp only [Prod.mk.injEq] at same
    exact ⟨id, cell, _, _, OrderedMap.mem_entries_iff.mp member, same.1, found, same.2⟩

/-- A cell that has operands decides its row if no other cell of the column is in that row. -/
theorem Scan.get?_of_operands (entry : (t.children scan.column).get? id = some cell)
    (single : ∀ other ∈ (t.children scan.column).keys, other.row = id.row → other = id)
    (found : scan.operands? t (t.exclusions scan.column) id cell = some (a, b)) :
    (scan.outcome t).values.get? id.row = some (scan.combine a b).1 := by
  rw [outcome]
  apply RowValues.get?_ofList
  · refine List.mem_map.mpr ⟨_, List.mem_map.mpr
      ⟨(id, cell), OrderedMap.mem_entries_iff.mpr entry, rfl⟩, ?_⟩
    simp only [Scan.row, found]
  · intro w member
    obtain ⟨made, listed, same⟩ := List.mem_map.mp member
    obtain ⟨⟨other, c⟩, there, rfl⟩ := List.mem_map.mp listed
    have child := OrderedMap.mem_entries_iff.mp there
    have row := Scan.row_row scan t (t.exclusions scan.column) other c
    rw [same] at row
    obtain rfl := single other (OrderedMap.mem_keys_of_get? child) row.symm
    rw [entry] at child
    cases child
    simp only [Scan.row, found] at same
    exact (Prod.mk.inj same).2.symm

theorem Scan.holds_of_operands (entry : (t.children scan.column).get? id = some cell)
    (single : ∀ other ∈ (t.children scan.column).keys, other.row = id.row → other = id)
    (found : scan.operands? t (t.exclusions scan.column) id cell = some (a, b))
    (combined : (scan.combine a b).1 = .bool true) : (scan.outcome t).Holds id.row := by
  rw [Outcome.Holds, get?_of_operands entry single found, combined]

theorem BinaryOp.not_asksHidden (plain : right.isNull = false) : ¬ op.AsksHidden right := by
  rintro ⟨-, null⟩
  rw [plain] at null
  cases null

/-- A comparison with no null on the right is made by a scan of its left column. -/
theorem BinaryOp.scan_of_result (plain : right.isNull = false)
    (done : op.result t left right = .ok o) :
    ∃ scan, Scan.resolve t op left right = .ok scan ∧ o = scan.outcome t := by
  rw [BinaryOp.result_of_scan (not_asksHidden plain)] at done
  cases resolved : Scan.resolve t op left right with
  | error e =>
    rw [resolved] at done
    cases done
  | ok scan =>
    rw [resolved] at done
    cases done
    exact ⟨scan, rfl, rfl⟩

theorem BinaryOp.result_of_resolve (plain : right.isNull = false)
    (resolved : Scan.resolve t op left right = .ok scan) :
    op.result t left right = .ok (scan.outcome t) := by
  rw [BinaryOp.result_of_scan (not_asksHidden plain), resolved]
  rfl

/-- A row of a column shows a cell if some child of that row is visible. -/
def Tree.ShowsAt (t : Tree) (c : Nat) (row : UInt32) : Prop :=
  ∃ id ∈ (t.children c).keys, id.row = row ∧ t.isHidden? c id = some false

/-- Where a comparison holds the row is not left out, and the columns that it reads show a cell. -/
theorem BinaryOp.shows_of_holds (sound : t.Sound) (compares : op.isComparison = true)
    (plain : right.isNull = false) (done : op.result t left right = .ok o)
    (holds : o.Holds row) : (t.exclusions 0).contains row = false ∧
      ∀ c, left = .column c ∨ right = .column c → t.ShowsAt c row := by
  obtain ⟨scan, resolved, rfl⟩ := scan_of_result plain done
  obtain ⟨i, n, rfl, here, same, rfl, -, -, partner⟩ := Scan.resolve_ok resolved
  rw [← same] at compares
  obtain ⟨id, cell, a, b, entry, rfl, found, -⟩ := Scan.exists_of_holds compares holds
  obtain ⟨kept, visible, -, beside⟩ := Scan.operands?_eq_some_iff.mp found
  rw [Tree.exclusions_eq sound.shape (Tree.lt_size here)] at kept
  refine ⟨kept, fun c reads => ?_⟩
  rcases reads with own | other
  · cases own
    exact ⟨id, OrderedMap.mem_keys_of_get? entry, rfl, visible⟩
  · subst other
    rw [Partner.ofOperand_column partner, Partner.valueAt?_column_iff] at beside
    obtain ⟨m, -, shown, d, there, -⟩ := beside
    exact ⟨_, OrderedMap.mem_keys_of_get? there, CellId.row_of _ _, shown⟩

end Comparisons

namespace Expr

variable {t u : Tree} {e : Expr} {o o' : Outcome} {row : UInt32} {columns : List Nat}

/-- Where a guarding predicate holds the row is not left out, and one of the columns that it guards
shows a cell. -/
theorem Guards.shows (guards : e.Guards columns) (sound : t.Sound) (done : e.result t = .ok o)
    (holds : o.Holds row) :
    (t.exclusions 0).contains row = false ∧ ∃ c ∈ columns, t.ShowsAt c row := by
  induction e generalizing o with
  | constant b => exact guards.elim
  | not inner => exact guards.elim
  | choice cond whenTrue otherwise => exact guards.elim
  | binary op left right =>
    obtain ⟨compares, plain, reads⟩ := guards
    obtain ⟨kept, shows⟩ := BinaryOp.shows_of_holds sound compares plain done holds
    refine ⟨kept, ?_⟩
    rcases reads with own | other
    · cases left with
      | literal v type => exact own.elim
      | column c => exact ⟨c, own, shows c (.inl rfl)⟩
    · cases right with
      | literal v type => exact other.elim
      | column c => exact ⟨c, other, shows c (.inr rfl)⟩
  | logic op left right ihLeft ihRight =>
    obtain ⟨l, r, first, second, -, -, rfl⟩ := result_logic done
    have joined := Outcome.joins_of_holds (result_booleanConstant first)
      (result_booleanConstant second) holds
    cases op with
    | and =>
      rcases guards with inLeft | inRight
      · exact ihLeft inLeft first joined.1
      · exact ihRight inRight second joined.2
    | or =>
      rcases joined with inLeft | inRight
      · exact ihLeft guards.1 first inLeft
      · exact ihRight guards.2 second inRight

/-- Comparisons that have a result, and whatever is joined of them, guard the columns they read. -/
theorem Compares.guards (compares : e.Compares columns) (done : e.result t = .ok o) :
    e.Guards columns := by
  induction e generalizing o with
  | constant b => exact compares.elim
  | not inner => exact compares.elim
  | choice cond whenTrue otherwise => exact compares.elim
  | binary op left right =>
    obtain ⟨comparison, plain, within, -⟩ := compares
    obtain ⟨scan, resolved, -⟩ := BinaryOp.scan_of_result plain done
    obtain ⟨i, n, rfl, -⟩ := Scan.resolve_ok resolved
    exact ⟨comparison, plain, .inl within⟩
  | logic op left right ihLeft ihRight =>
    obtain ⟨l, r, first, second, -⟩ := result_logic done
    cases op with
    | and => exact .inl (ihLeft compares.1 first)
    | or => exact ⟨ihLeft compares.1 first, ihRight compares.2 second⟩

/-- Comparisons have entries only, and so has what is joined of them. -/
theorem Compares.constant (compares : e.Compares columns) (done : e.result t = .ok o) :
    o.values.constant = none := by
  induction e generalizing o with
  | constant b => exact compares.elim
  | not inner => exact compares.elim
  | choice cond whenTrue otherwise => exact compares.elim
  | binary op left right => exact BinaryOp.result_constant done
  | logic op left right ihLeft =>
    obtain ⟨l, r, first, -, -, -, rfl⟩ := result_logic done
    simp [Outcome.join, ihLeft compares.1 first]

/-- Whether comparisons have a result is a matter of the frame, and it is boolean. -/
theorem Compares.exists_result (compares : e.Compares columns) (same : u.frame = t.frame)
    (done : e.result t = .ok o) : ∃ o', e.result u = .ok o' ∧ o'.type = .bool := by
  induction e generalizing o with
  | constant b => exact compares.elim
  | not inner => exact compares.elim
  | choice cond whenTrue otherwise => exact compares.elim
  | binary op left right =>
    obtain ⟨comparison, plain, -⟩ := compares
    obtain ⟨scan, resolved, -⟩ := BinaryOp.scan_of_result plain done
    obtain ⟨i, n, -, -, named, -⟩ := Scan.resolve_ok resolved
    rw [← Scan.resolve_of_frame same] at resolved
    refine ⟨scan.outcome u, BinaryOp.result_of_resolve plain resolved, ?_⟩
    rw [Scan.outcome, BinaryOp.resultType, named, comparison]
    rfl
  | logic op left right ihLeft ihRight =>
    obtain ⟨l, r, first, second, -⟩ := result_logic done
    obtain ⟨l', left', leftBoolean⟩ := ihLeft compares.1 first
    obtain ⟨r', right', rightBoolean⟩ := ihRight compares.2 second
    refine ⟨.join op (u.exclusions 0) l' r', ?_, rfl⟩
    simp [result, left', right', Outcome.requireBool_of_bool leftBoolean,
      Outcome.requireBool_of_bool rightBoolean, bind, Except.bind, pure, Except.pure]

/-- A row that is accepted stays accepted in another state of the same table, as long as it is not
left out there and shows the cells of all columns that are read. -/
theorem Compares.holds_of_shown (compares : e.Compares columns) (same : u.frame = t.frame)
    (sound : u.Sound) (positive : 1 ≤ row)
    (single : ∀ c ∈ columns, ∀ id ∈ (t.children c).keys, ∀ other ∈ (t.children c).keys,
      other.row = id.row → other = id)
    (kept : (u.exclusions 0).contains row = false)
    (shown : ∀ c ∈ columns, ∀ id ∈ (t.children c).keys, id.row = row →
      u.isHidden? c id = some false)
    (before : e.result t = .ok o) (after : e.result u = .ok o') (holds : o.Holds row) :
    o'.Holds row := by
  induction e generalizing o o' with
  | constant b => exact compares.elim
  | not inner => exact compares.elim
  | choice cond whenTrue otherwise => exact compares.elim
  | binary op left right =>
    obtain ⟨comparison, plain, own, within⟩ := compares
    obtain ⟨scan, resolved, rfl⟩ := BinaryOp.scan_of_result plain before
    obtain ⟨i, n, rfl, here, named, rfl, -, -, partner⟩ := Scan.resolve_ok resolved
    rw [← Scan.resolve_of_frame same] at resolved
    cases after.symm.trans (BinaryOp.result_of_resolve plain resolved)
    rw [← named] at comparison
    obtain ⟨id, cell, a, b, entry, rfl, found, combined⟩ := Scan.exists_of_holds comparison holds
    obtain ⟨-, -, value, beside⟩ := Scan.operands?_eq_some_iff.mp found
    have child := OrderedMap.mem_keys_of_get? entry
    have inside : scan.column < u.size := by
      rw [Tree.size_eq_of_frame same]
      exact Tree.lt_size here
    rw [← Tree.children_eq_of_frame same] at entry
    refine Scan.holds_of_operands entry ?_
      (Scan.operands?_eq_some_iff.mpr ⟨?_, ?_, ?_, ?_⟩) combined
    · rw [Tree.children_eq_of_frame same]
      exact single scan.column own id child
    · rwa [Tree.exclusions_eq sound.shape inside]
    · exact shown scan.column own id child rfl
    · rwa [Tree.map_eq_of_frame same cell (·.value) fun _ => rfl]
    · exact Partner.valueAt?_of_shown partner within same shown beside
  | logic op left right ihLeft ihRight =>
    obtain ⟨l, r, first, second, -, -, rfl⟩ := result_logic before
    obtain ⟨l', r', first', second', -, -, rfl⟩ := result_logic after
    have joined := (Outcome.joins_of_holds (result_booleanConstant first)
      (result_booleanConstant second) holds).imp (ihLeft compares.1 first first')
        (ihRight compares.2 second second')
    refine (Outcome.join_holds_iff (result_booleanConstant first')
      (result_booleanConstant second') positive).mpr ⟨kept, joined, ?_⟩
    -- comparisons have no constants, so that a side that holds has an entry
    rintro rfl
    rcases joined with inLeft | inRight
    · exact .inl (Outcome.entry_of_holds (compares.1.constant first') inLeft)
    · exact .inr (.inl (Outcome.entry_of_holds (compares.2.constant second') inRight))

end Expr
end LayeredTable
