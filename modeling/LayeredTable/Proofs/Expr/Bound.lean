import LayeredTable.Proofs.Expr.Ends
import LayeredTable.Proofs.Expr.Literal
import LayeredTable.Proofs.Session.Versions

/-! Expressions that are bound to a tree: the nodes that they name are there, and their literals are
of the types that they are declared with. What is read from text is bound, and stays bound as the
tree grows. The parts of a bound expression fail for how they are put together only, never for the
tree or for a literal. -/
namespace LayeredTable

namespace Operand

/-- A node that is there, or a literal of its declared type. -/
def Bound (t : Tree) : Operand → Prop
  | column i => i < t.size
  | literal v type => v.conformsTo type = true

variable {t u : Tree} {o : Operand} {type : FieldType}

theorem Bound.mono (bound : o.Bound t) (grown : t.size ≤ u.size) : o.Bound u := by
  cases o with
  | column i => exact Nat.lt_of_lt_of_le bound grown
  | literal v type => exact bound

theorem Bound.exists_type (bound : o.Bound t) : ∃ type, o.type t = .ok type := by
  cases o with
  | column i =>
    obtain ⟨n, here⟩ := Tree.exists_node bound
    exact ⟨n.type, type_column_eq_ok_iff.mpr ⟨n, here, rfl⟩⟩
  | literal v type => exact ⟨type, rfl⟩

/-- Under its own type a bound operand is read as it is. -/
theorem Bound.exists_partner (bound : o.Bound t) (declared : o.type t = .ok type) :
    ∃ p, Partner.ofOperand t type o = .ok p := by
  cases o with
  | column i => exact ⟨_, Partner.ofOperand_of_type declared⟩
  | literal v own =>
    cases declared
    rw [Partner.ofOperand, Value.cast_of_conformsTo bound]
    exact ⟨_, rfl⟩

end Operand

namespace Expr

def Bound (t : Tree) (e : Expr) : Prop :=
  ∀ op left right, (op, left, right) ∈ e.binaries → left.Bound t ∧ right.Bound t

variable {t u : Tree} {e : Expr}

theorem Bound.mono (bound : e.Bound t) (grown : t.size ≤ u.size) : e.Bound u :=
  fun op left right member =>
    ⟨(bound op left right member).1.mono grown, (bound op left right member).2.mono grown⟩

end Expr

section Reading

variable {t : Tree} {type : Option FieldType} {token : Token} {o : Operand} {text : String}
  {e : Expr}

theorem Expr.Denotes.bound (shape : t.Shape) (denotes : Denotes t type token o) : o.Bound t := by
  cases denotes with
  | name found =>
    obtain ⟨id, entry⟩ := Tree.exists_entry_of_findByName found
    exact (shape.lt_child entry).2
  | null => rfl
  | literal => exact Value.conformsTo_kind _
  | cast denoted kept => exact Value.cast_conformsTo (literal?_plain denoted) kept

/-- What is read from text is bound to the tree that it is read over. -/
theorem Expr.bound_of_text (shape : t.Shape) (read : ofText t text = .ok e) : e.Bound t := by
  obtain ⟨ts, -, derives⟩ := exists_tokens_of_text read
  have each : e.binaries.Forall₂ (fun read written =>
      (read.2.1.Bound t ∧ read.2.2.Bound t) ∧ ReadAs t written read) (combinations ts) := by
    refine List.Forall₂.flip (derives.spells.each.imp ?_)
    rintro written read ⟨left, combines, right⟩
    exact ⟨⟨left.bound shape, right.bound shape⟩, left, combines, right⟩
  intro op left right member
  exact ((List.forall₂_and_left _ _).mp each).1 _ member

end Reading

/-- What is wrong with an expression that is put together from operands that do not go together:
a literal where a column is asked for, operands of types that are not allowed or not the same, or a
result that is no boolean where one is asked for. -/
inductive ExprError.Misuse : ExprError → Prop
  | literalOnLeft (operator : String) : Misuse (.literalOnLeft operator)
  | notBoolean (operator : String) (found : FieldType) : Misuse (.notBoolean operator found)
  | notAllowed (left right : FieldType) : Misuse (.resolve (.notAllowed left right))
  | mismatch (left right : FieldType) : Misuse (.resolve (.mismatch left right))

section Failures

variable {t : Tree} {op : BinaryOp} {left right : Operand} {err : ExprError} {e n : Expr}
  {k : Nat}

theorem commonType_error {allowed : List FieldType} {first second : FieldType} {cause : TypeError}
    (refused : commonType allowed first second = .error cause) :
    cause = .notAllowed first second ∨ cause = .mismatch first second := by
  simp only [commonType] at refused
  split at refused
  · cases refused
    exact .inl rfl
  · split at refused <;> cases refused
    exact .inr rfl

/-- A scan of bound operands is refused for their types, or for a literal on its left. -/
theorem Scan.misuse_of_resolve (leftBound : left.Bound t) (rightBound : right.Bound t)
    (refused : resolve t op left right = .error err) : err.Misuse := by
  cases left with
  | literal v type =>
    cases refused
    exact .literalOnLeft _
  | column i =>
    obtain ⟨own, declared⟩ := leftBound.exists_type
    obtain ⟨other, declared'⟩ := rightBound.exists_type
    rw [resolve_column, declared, declared'] at refused
    cases common : commonType op.allowed own other with
    | error cause =>
      simp only [mapError_of_ok, Except.bind, common] at refused
      cases refused
      rcases commonType_error common with rfl | rfl
      · exact .notAllowed _ _
      · exact .mismatch _ _
    | ok type =>
      obtain ⟨-, rfl, -⟩ := commonType_eq_ok_iff.mp common
      obtain ⟨p, partner⟩ := rightBound.exists_partner declared'
      simp only [mapError_of_ok, Except.bind, common, partner] at refused
      cases refused

theorem misuse_of_hiddenCheck {wantHidden : Bool} (bound : left.Bound t)
    (refused : hiddenCheck t op wantHidden left = .error err) : err.Misuse := by
  cases left with
  | literal v type =>
    cases refused
    exact .literalOnLeft _
  | column i =>
    obtain ⟨n, here⟩ := Tree.exists_node bound
    simp only [hiddenCheck, Tree.node, here] at refused
    cases refused

theorem BinaryOp.misuse_of_result (leftBound : left.Bound t) (rightBound : right.Bound t)
    (refused : op.result t left right = .error err) : err.Misuse := by
  by_cases asks : op.AsksHidden right
  · rcases asks with ⟨rfl | rfl, null⟩ <;>
    · simp only [BinaryOp.result, null] at refused
      exact misuse_of_hiddenCheck leftBound refused
  · rw [result_of_scan asks] at refused
    cases resolved : Scan.resolve t op left right with
    | error cause =>
      rw [resolved] at refused
      cases refused
      exact Scan.misuse_of_resolve leftBound rightBound resolved
    | ok scan =>
      rw [resolved] at refused
      cases refused

namespace Expr

theorem binaries_subset_of_operand {a : Expr} (operand : a ∈ e.operands) :
    a.binaries ⊆ e.binaries := by
  cases e with
  | constant | binary => cases operand
  | not inner =>
    cases List.mem_singleton.mp operand
    exact List.Subset.refl _
  | logic | choice =>
    simp only [operands, List.mem_cons, List.not_mem_nil, or_false] at operand
    rcases operand with rfl | rfl | rfl <;> simp [binaries]

/-- A part makes no other comparisons and sums than the whole. -/
theorem binaries_subset_of_part (part : (k, n) ∈ e.parts) : n.binaries ⊆ e.binaries := by
  induction e using operands_induction generalizing k with
  | step e ih =>
    rcases mem_parts_iff.mp part with ⟨-, rfl⟩ | ⟨a, operand, j, deeper, -⟩
    · exact List.Subset.refl _
    · exact List.Subset.trans (ih a operand deeper) (binaries_subset_of_operand operand)

theorem Bound.of_part (bound : e.Bound t) (part : (k, n) ∈ e.parts) : n.Bound t :=
  fun op left right member => bound op left right (binaries_subset_of_part part member)

theorem Bound.misuse_of_raises (bound : e.Bound t) (raises : e.Raises t err) : err.Misuse := by
  cases e with
  | constant => exact raises.elim
  | binary op left right =>
    obtain ⟨leftBound, rightBound⟩ := bound op left right (List.mem_singleton.mpr rfl)
    exact BinaryOp.misuse_of_result leftBound rightBound raises
  | not inner =>
    obtain ⟨o, -, -, rfl⟩ := raises
    exact .notBoolean _ _
  | logic op left right =>
    obtain ⟨l, r, -, -, ⟨-, rfl⟩ | ⟨-, -, rfl⟩⟩ := raises
    · exact .notBoolean _ _
    · exact .notBoolean _ _
  | choice cond whenTrue otherwise =>
    obtain ⟨c, a, b, -, -, -, ⟨-, rfl⟩ | ⟨-, -, rfl⟩⟩ := raises
    · exact .notBoolean _ _
    · exact .mismatch _ _

end Expr

end Failures

/-- What is read from text over a tree, evaluated whenever later, whatever was done with the tree
meanwhile and whatever turns the workers take. Without a deadline and with the flag down it has a
result, or a part of it fails for how it is put together; or it comes to `cancelled`, and can do so
just if such a part lies within two operands, one in the other. Where a literal comes to be cast, it
is of the type that is asked for and stays as it is. -/
theorem Expr.ends_of_text {rootId : CellId} {before : List Action} {text : String} {e : Expr}
    (read : Expr.ofText ((Session.start (.new rootId)).run before).tree text = .ok e)
    (after : List Action) :
    let u := (((Session.start (.new rootId)).run before).run after).tree
    (∀ c : EvalContext, c.policy.limit = none → c.state.cancelled = false →
      (∃ r left, c.Ends u e r left) ∧
      (∀ err left, c.Ends u e (.error err) left → err.Misuse ∨ err = .cancelled) ∧
      ((∃ left, c.Ends u e (.error .cancelled) left) ↔
        ∃ k n err, (k, n) ∈ e.parts ∧ 2 ≤ k ∧ n.Raises u err ∧ err.Misuse)) ∧
    ∀ op left v type, (op, left, .literal v type) ∈ e.binaries →
      ∀ own shared, left.type u = .ok own → commonType op.allowed own type = .ok shared →
        v.cast shared = .ok v := by
  intro u
  have sound : ((Session.start (.new rootId)).run before).tree.Sound :=
    Session.run_sound (Tree.new_sound rootId) before
  have bound : e.Bound u :=
    (bound_of_text sound.shape read).mono (Session.size_le_run sound after)
  have misuse {k : Nat} {n : Expr} {err : ExprError} (part : (k, n) ∈ e.parts)
      (raises : n.Raises u err) : err.Misuse :=
    (bound.of_part part).misuse_of_raises raises
  refine ⟨fun c unlimited live => ⟨⟨_, _, c.ends_eval u e⟩, fun err left ends => ?_, ?_⟩, ?_⟩
  · rcases (EvalContext.exists_ends_error_iff unlimited live).mp ⟨left, ends⟩ with
      ⟨k, n, part, raises⟩ | ⟨rfl, -⟩
    · exact .inl (misuse part raises)
    · exact .inr rfl
  · rw [EvalContext.exists_ends_error_iff unlimited live]
    constructor
    · rintro (⟨k, n, part, raises⟩ | ⟨-, k, n, err, part, deep, raises⟩)
      · exact absurd rfl raises.genuine.1
      · exact ⟨k, n, err, part, deep, raises, misuse part raises⟩
    · rintro ⟨k, n, err, part, deep, raises, -⟩
      exact .inr ⟨rfl, k, n, err, part, deep, raises⟩
  · intro op left v type member own shared _ common
    obtain ⟨rfl, rfl, -⟩ := commonType_eq_ok_iff.mp common
    exact Value.cast_of_conformsTo (bound op left _ member).2

/-- Comparisons are read while their column is empty, and evaluated after the column got a cell and
a neighbour and a fork hid both columns. They are not stopped, as nothing fails within them. -/
theorem Expr.ends_of_text_grown :
    let before : List Action := [.add 0 (.column 1 "a" .bool {}) false]
    let after : List Action :=
      [.add 1 (.cell (.of 1 1) (.bool true)) false, .add 0 (.column 2 "b" .text {}) false, .fork 0]
    let t := ((Session.start (.new ⟨0⟩)).run before).tree
    let u := (((Session.start (.new ⟨0⟩)).run before).run after).tree
    let e : Expr := .binary .eq (.column 1) (.literal (.bool true) .bool)
    Expr.ofText t "a == true" = .ok e ∧
      (∃ r left, ({} : EvalContext).Ends u e r left) ∧
      (¬ ∃ left, ({} : EvalContext).Ends u e (.error .cancelled) left) ∧
      Value.cast (.bool true) .bool = .ok (.bool true) := by
  intro before after t u e
  have read : Expr.ofText t "a == true" = .ok e := ok_of_toOption (by decide +kernel)
  obtain ⟨evaluates, casts⟩ := ends_of_text read after
  have declared : (Operand.column 1).type u = .ok .bool := ok_of_toOption (by decide +kernel)
  have listed : (.eq, .column 1, .literal (.bool true) .bool) ∈ e.binaries :=
    List.mem_singleton.mpr rfl
  obtain ⟨some, -, stops⟩ := evaluates {} rfl rfl
  refine ⟨read, some, ?_, casts _ _ _ _ listed .bool .bool declared rfl⟩
  rw [stops]
  rintro ⟨k, n, err, part, deep, -⟩
  cases List.mem_singleton.mp part
  cases deep

/-- A text that is read, and an evaluation of what is read, without a deadline and with the flag
down, that fails with nothing that is wrong with the text. -/
theorem Expr.ends_of_text_cancelled :
    let t := ((Session.start (.new ⟨0⟩)).run [.add 0 (.column 1 "S" .text {}) false,
      .add 0 (.column 2 "A" (.integer .int64) {}) false]).tree
    let c : EvalContext := {}
    ∃ e, Expr.ofText t "S - S and A > 1 and A > 1" = .ok e ∧ c.policy.limit = none ∧
      c.state.cancelled = false ∧ (∃ left, c.Ends t e (.error .cancelled) left) ∧
      ¬ ExprError.cancelled.Misuse := by
  intro t c
  let above : Expr :=
    .binary .gt (.column 2) (.literal (.integer .int64 1 (by decide)) (.integer .int64))
  let e : Expr :=
    .logic .and (.logic .and (.binary .subtract (.column 1) (.column 1)) above) above
  have read : Expr.ofText t "S - S and A > 1 and A > 1" = .ok e :=
    ok_of_toOption (by decide +kernel)
  have stopped : (c.eval t e).1 = .error .cancelled := rfl
  exact ⟨e, read, rfl, rfl, ⟨_, stopped ▸ c.ends_eval t e⟩, nofun⟩

end LayeredTable
