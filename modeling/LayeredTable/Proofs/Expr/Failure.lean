import LayeredTable.Proofs.Expr.Live

/-! How an evaluation fails that nothing stopped before. Some part of the expression refuses the
results of its own operands. Parts that can fail so lie side by side: none lies in another, and
either all of them lie in operands of logic or of a choice or none does. -/
namespace LayeredTable

namespace Expr

/-- The parts of an expression, itself included, each with the number of operands, of logic or of
choices, that it lies in. -/
def parts : Expr → List (Nat × Expr)
  | constant b => [(0, constant b)]
  | binary op left right => [(0, binary op left right)]
  | not inner => (0, not inner) :: inner.parts
  | logic op left right =>
    (0, logic op left right) :: (left.parts ++ right.parts).map fun part => (part.1 + 1, part.2)
  | choice cond whenTrue otherwise =>
    (0, choice cond whenTrue otherwise) ::
      (cond.parts ++ whenTrue.parts ++ otherwise.parts).map fun part => (part.1 + 1, part.2)

/-- The expressions that an expression is made of. -/
def operands : Expr → List Expr
  | constant _ | binary .. => []
  | not inner => [inner]
  | logic _ left right => [left, right]
  | choice cond whenTrue otherwise => [cond, whenTrue, otherwise]

def joins : Expr → Bool
  | logic .. | choice .. => true
  | constant _ | binary .. | not _ => false

/-- The error that an expression raises itself. Its parts have results, and it refuses them. -/
def Raises (t : Tree) (err : ExprError) : Expr → Prop
  | constant _ => False
  | binary op left right => op.result t left right = .error err
  | not inner => ∃ o, inner.result t = .ok o ∧ o.type ≠ .bool ∧ err = .notBoolean "not" o.type
  | logic op left right => ∃ l r, left.result t = .ok l ∧ right.result t = .ok r ∧
      (l.type ≠ .bool ∧ err = .notBoolean op.name l.type ∨
        l.type = .bool ∧ r.type ≠ .bool ∧ err = .notBoolean op.name r.type)
  | choice cond whenTrue otherwise => ∃ c a b,
      cond.result t = .ok c ∧ whenTrue.result t = .ok a ∧ otherwise.result t = .ok b ∧
      (c.type ≠ .bool ∧ err = .notBoolean "if" c.type ∨
        c.type = .bool ∧ a.type ≠ b.type ∧ err = .resolve (.mismatch a.type b.type))

end Expr

section Failures

variable {t : Tree} {policy : Policy} {s m : EvalState} {o : Outcome} {err err' : ExprError}
  {k k' : Nat} {e n n' : Expr} {op : BinaryOp} {left right : Operand}

namespace Outcome

theorem requireBool_eq_error_iff {name : String} :
    o.requireBool name = .error err ↔ o.type ≠ .bool ∧ err = .notBoolean name o.type := by
  rw [requireBool]
  split
  · rename_i boolean
    exact iff_of_false (by rintro ⟨⟩) fun refused => refused.1 boolean
  · rename_i other
    simp [other, eq_comm]

theorem select_eq_error_iff {c a b : Outcome} : select c a b = .error err ↔
    c.type ≠ .bool ∧ err = .notBoolean "if" c.type ∨
      c.type = .bool ∧ a.type ≠ b.type ∧ err = .resolve (.mismatch a.type b.type) := by
  by_cases boolean : c.type = .bool
  · by_cases same : a.type = b.type
    · simp [select, requireBool, boolean, same, bind, Except.bind, pure, Except.pure]
    · have refused : select c a b = .error (.resolve (.mismatch a.type b.type)) := by
        simp [select, requireBool, boolean, same, bind, Except.bind]
        rfl
      simp [refused, boolean, same, eq_comm]
  · simp [select, requireBool, boolean, bind, Except.bind, eq_comm]

end Outcome

theorem Scan.resolve_error (refused : resolve t op left right = .error err) :
    (∃ name, err = .literalOnLeft name) ∨ (∃ cause, err = .tree cause) ∨
      ∃ cause, err = .resolve cause := by
  cases left with
  | literal v type =>
    cases refused
    exact .inl ⟨_, rfl⟩
  | column i =>
    right
    rw [resolve_column] at refused
    rcases exceptBind_error refused with missing | ⟨own, -, next⟩
    · exact .inl (mapError_error missing)
    rcases exceptBind_error next with missing | ⟨other, -, next⟩
    · exact .inl (mapError_error missing)
    rcases exceptBind_error next with apart | ⟨type, -, next⟩
    · exact .inr (mapError_error apart)
    rcases exceptBind_error next with unread | ⟨partner, -, next⟩
    · cases right with
      | column j =>
        rcases exceptBind_error unread with missing | ⟨n, -, next⟩
        · exact .inl (mapError_error missing)
        · cases next
      | literal v declared =>
        rw [Partner.ofOperand] at unread
        cases cast : v.cast type with
        | ok w =>
          rw [cast] at unread
          cases unread
        | error cause =>
          rw [cast] at unread
          cases unread
          exact .inr ⟨cause, rfl⟩
    · cases next

/-- A comparison or a sum is refused for a literal on its left, for a node that is not there, or for
its types. -/
theorem BinaryOp.result_error (failed : op.result t left right = .error err) :
    (∃ name, err = .literalOnLeft name) ∨ (∃ cause, err = .tree cause) ∨
      ∃ cause, err = .resolve cause := by
  by_cases asks : op.AsksHidden right
  · obtain ⟨op', want, checked⟩ : ∃ op' want, hiddenCheck t op' want left = .error err := by
      rcases asks with ⟨rfl | rfl, null⟩ <;>
      · simp only [result, null] at failed
        exact ⟨_, _, failed⟩
    cases left with
    | literal v type =>
      cases checked
      exact .inl ⟨_, rfl⟩
    | column i =>
      rcases exceptBind_error checked with missing | ⟨n, -, next⟩
      · exact .inr (.inl (mapError_error missing))
      · cases next
  · rw [result_of_scan asks] at failed
    cases resolved : Scan.resolve t op left right with
    | ok scan =>
      rw [resolved] at failed
      cases failed
    | error cause =>
      rw [resolved] at failed
      cases failed
      exact Scan.resolve_error resolved

namespace Expr

theorem operands_induction {motive : Expr → Prop}
    (step : ∀ e : Expr, (∀ a ∈ e.operands, motive a) → motive e) (e : Expr) : motive e := by
  induction e with
  | constant | binary => exact step _ nofun
  | not inner ih => exact step _ (by simp [operands, ih])
  | logic op left right ihLeft ihRight => exact step _ (by simp [operands, ihLeft, ihRight])
  | choice cond whenTrue otherwise ihCond ihTrue ihOtherwise =>
    exact step _ (by simp [operands, ihCond, ihTrue, ihOtherwise])

/-- An expression that joins nothing is made of one at most. -/
theorem operand_unique {a a' : Expr} (alone : e.joins = false) (operand : a ∈ e.operands)
    (operand' : a' ∈ e.operands) : a' = a := by
  cases e with
  | constant | binary => cases operand
  | not inner => rw [List.mem_singleton.mp operand, List.mem_singleton.mp operand']
  | logic | choice => cases alone

theorem mem_parts_iff : (k, n) ∈ e.parts ↔ (k = 0 ∧ n = e) ∨
    ∃ a ∈ e.operands, ∃ j, (j, n) ∈ a.parts ∧ k = j + e.joins.toNat := by
  have above {parts : List (Nat × Expr)} : (k, n) ∈ parts.map (fun part => (part.1 + 1, part.2)) ↔
      ∃ j, (j, n) ∈ parts ∧ k = j + 1 := by
    simp only [List.mem_map, Prod.mk.injEq, Prod.exists]
    constructor
    · rintro ⟨j, m, part, rfl, rfl⟩
      exact ⟨j, part, rfl⟩
    · rintro ⟨j, part, rfl⟩
      exact ⟨j, n, part, rfl, rfl⟩
  cases e with
  | constant | binary => simp [parts, operands]
  | not inner => simp [parts, operands, joins]
  | logic | choice =>
    simp only [parts, List.mem_cons, Prod.mk.injEq, above, List.mem_append]
    simp only [operands, joins, List.mem_cons, List.not_mem_nil, or_false, Bool.toNat_true,
      exists_eq_left, or_and_right, exists_or, or_assoc]

theorem mem_parts_self (e : Expr) : (0, e) ∈ e.parts := mem_parts_iff.mpr (.inl ⟨rfl, rfl⟩)

/-- A part of an operand lies one level deeper in what joins it. -/
theorem mem_parts_of_operand {a : Expr} (operand : a ∈ e.operands) (part : (k, n) ∈ a.parts) :
    (k + e.joins.toNat, n) ∈ e.parts :=
  mem_parts_iff.mpr (.inr ⟨a, operand, k, part, rfl⟩)

end Expr

namespace Eval

variable {α : Type} {x : Except ExprError α} {c a b : Outcome}

theorem ofExcept_of_error (failed : x = .error err) : ofExcept id x s = .error err s := by
  rw [failed]
  rfl

theorem checkpoint_of_cancelled (cancelled : s.cancelled = true) :
    checkpoint policy s = .error .cancelled s := by
  rw [checkpoint, get_bind, cancelled]
  rfl

theorem choose_of_error (refused : Outcome.select c a b = .error err) (policy : Policy)
    (s : EvalState) : choose policy c a b s = .error err s := by
  rcases exceptBind_error refused with failed | ⟨⟨⟩, boolean, next⟩
  · rw [choose, bind_of_error (ofExcept_of_error failed)]
  · rw [choose, bind_of_ok (ofExcept_of_ok boolean)]
    by_cases same : a.type = b.type
    · simp only [ne_eq, same, not_true_eq_false, if_false] at next
      cases next
    · simp only [ne_eq, same, not_false_eq_true, if_true] at next ⊢
      cases next
      rfl

end Eval

namespace Expr

theorem evalBinary_of_error (failed : op.result t left right = .error err) (policy : Policy)
    (s : EvalState) : evalBinary t policy op left right s = .error err s := by
  by_cases asks : op.AsksHidden right
  · rcases asks with ⟨rfl | rfl, null⟩ <;>
    · simp only [BinaryOp.result, null] at failed
      simp only [evalBinary, null]
      exact Eval.ofExcept_of_error failed
  · rw [BinaryOp.result_of_scan asks] at failed
    cases resolved : Scan.resolve t op left right with
    | ok scan =>
      rw [resolved] at failed
      cases failed
    | error e =>
      rw [resolved] at failed
      cases failed
      rw [evalBinary_of_scan asks, bind_of_error (Eval.ofExcept_of_error resolved)]

/-- Nothing is evaluated once the flag is up. -/
theorem eval_of_cancelled (cancelled : s.cancelled = true) (t : Tree) (policy : Policy) (e : Expr) :
    e.eval t policy s = .error .cancelled s := by
  have stopped : Eval.checkpoint policy s = .error .cancelled s :=
    Eval.checkpoint_of_cancelled cancelled
  cases e <;> rw [eval, bind_of_error stopped]

/-- An expression whose operands have results fails with the error that it raises itself. -/
theorem eval_of_raises (unlimited : policy.expired = false) (live : s.cancelled = false)
    (raises : e.Raises t err) : ∃ m, e.eval t policy s = .error err m := by
  have refuse {o : Outcome} {name : String} (other : o.type ≠ .bool) :
      o.requireBool name = .error (.notBoolean name o.type) :=
    Outcome.requireBool_eq_error_iff.mpr ⟨other, rfl⟩
  cases e with
  | constant b => exact raises.elim
  | binary op left right =>
    rw [eval, bind_of_ok (Eval.checkpoint_of_live unlimited live), evalBinary_of_error raises]
    exact ⟨s, rfl⟩
  | not inner =>
    obtain ⟨o, first, other, rfl⟩ := raises
    obtain ⟨m, done, -⟩ := eval_of_result unlimited live first
    rw [eval, bind_of_ok (Eval.checkpoint_of_live unlimited live), bind_of_ok done]
    exact ⟨m, bind_of_error (Eval.ofExcept_of_error (refuse other))⟩
  | logic op left right =>
    obtain ⟨l, r, first, second, refused⟩ := raises
    obtain ⟨m, leftDone, kept⟩ := eval_of_result unlimited live first
    obtain ⟨k, rightDone, -⟩ := eval_of_result unlimited kept second
    rw [eval, bind_of_ok (Eval.checkpoint_of_live unlimited live),
      bind_of_ok (Eval.both_of_ok leftDone rightDone)]
    rcases refused with ⟨other, rfl⟩ | ⟨boolean, other, rfl⟩
    · exact ⟨k, bind_of_error (Eval.ofExcept_of_error (refuse other))⟩
    · have passed : l.requireBool op.name = .ok () := Outcome.requireBool_of_bool boolean
      exact ⟨k, (bind_of_ok (Eval.ofExcept_of_ok passed)).trans
        (bind_of_error (Eval.ofExcept_of_error (refuse other)))⟩
  | choice cond whenTrue otherwise =>
    obtain ⟨c, a, b, first, second, third, refused⟩ := raises
    obtain ⟨m, condDone, kept⟩ := eval_of_result unlimited live first
    obtain ⟨k, trueDone, still⟩ := eval_of_result unlimited kept second
    obtain ⟨l, otherDone, -⟩ := eval_of_result unlimited still third
    rw [eval, bind_of_ok (Eval.checkpoint_of_live unlimited live),
      bind_of_ok (Eval.all_of_ok condDone trueDone otherDone)]
    exact ⟨l, Eval.choose_of_error (Outcome.select_eq_error_iff.mpr refused) policy l⟩

/-- An expression that raises an error has no result. -/
theorem Raises.result (raises : e.Raises t err) : e.result t = .error err := by
  cases e with
  | constant b => exact raises.elim
  | binary op left right => exact raises
  | not inner =>
    obtain ⟨o, first, other, rfl⟩ := raises
    simp [Expr.result, first, Outcome.requireBool, other, bind, Except.bind]
  | logic op left right =>
    obtain ⟨l, r, first, second, ⟨other, rfl⟩ | ⟨boolean, other, rfl⟩⟩ := raises
    · simp [Expr.result, first, second, Outcome.requireBool, other, bind, Except.bind]
    · simp [Expr.result, first, second, Outcome.requireBool, boolean, other, bind, Except.bind]
  | choice cond whenTrue otherwise =>
    obtain ⟨c, a, b, first, second, third, refused⟩ := raises
    rw [Expr.result, first, second, third]
    exact Outcome.select_eq_error_iff.mpr refused

theorem exists_result_of_operand (result : e.result t = .ok o) :
    ∀ a ∈ e.operands, ∃ o', a.result t = .ok o' := by
  cases e with
  | constant | binary => exact nofun
  | not inner =>
    obtain ⟨a, first, -⟩ := result_not result
    simp [operands, first]
  | logic op left right =>
    obtain ⟨l, r, first, second, -⟩ := result_logic result
    simp [operands, first, second]
  | choice cond whenTrue otherwise =>
    obtain ⟨c, a, b, first, second, third, -⟩ := result_choice result
    simp [operands, first, second, third]

/-- An expression refuses the results that its operands have. -/
theorem Raises.exists_result (raises : e.Raises t err) :
    ∀ a ∈ e.operands, ∃ o, a.result t = .ok o := by
  cases e with
  | constant | binary => exact nofun
  | not inner =>
    obtain ⟨o, first, -⟩ := raises
    simp [operands, first]
  | logic op left right =>
    obtain ⟨l, r, first, second, -⟩ := raises
    simp [operands, first, second]
  | choice cond whenTrue otherwise =>
    obtain ⟨c, a, b, first, second, third, -⟩ := raises
    simp [operands, first, second, third]

/-- All parts of an expression with a result have results. -/
theorem exists_result_of_part (result : e.result t = .ok o) (part : (k, n) ∈ e.parts) :
    ∃ o', n.result t = .ok o' := by
  induction e using operands_induction generalizing o k with
  | step e ih =>
    rcases mem_parts_iff.mp part with ⟨-, rfl⟩ | ⟨a, operand, j, deeper, -⟩
    · exact ⟨o, result⟩
    · obtain ⟨o', first⟩ := exists_result_of_operand result a operand
      exact ih a operand first deeper

/-- Where an expression raises an error, no part below it raises one. -/
theorem Raises.only (raises : e.Raises t err) (part : (k, n) ∈ e.parts)
    (raises' : n.Raises t err') : k = 0 := by
  rcases mem_parts_iff.mp part with ⟨top, -⟩ | ⟨a, operand, j, deeper, -⟩
  · exact top
  · obtain ⟨o, first⟩ := raises.exists_result a operand
    obtain ⟨o', below⟩ := exists_result_of_part first deeper
    rw [raises'.result] at below
    cases below

/-- All parts that raise errors lie in operands of logic or of a choice, or none does. -/
theorem same_side (part : (k, n) ∈ e.parts) (raises : n.Raises t err)
    (part' : (k', n') ∈ e.parts) (raises' : n'.Raises t err') : k = 0 ↔ k' = 0 := by
  induction e using operands_induction generalizing k k' with
  | step e ih =>
    rcases mem_parts_iff.mp part with ⟨top, rfl⟩ | ⟨a, operand, j, deeper, rfl⟩
    · exact iff_of_true top (raises.only part' raises')
    · rcases mem_parts_iff.mp part' with ⟨top, rfl⟩ | ⟨a', operand', j', deeper', rfl⟩
      · exact iff_of_true (raises'.only part raises) top
      · cases joined : e.joins with
        | true => exact iff_of_false (Nat.succ_ne_zero j) (Nat.succ_ne_zero j')
        | false =>
          rw [operand_unique joined operand operand'] at deeper'
          exact ih a operand deeper deeper'

/-- No part raises an error that stops an evaluation from outside. -/
theorem Raises.genuine (raises : e.Raises t err) :
    err ≠ .cancelled ∧ err ≠ .deadlineExceeded := by
  cases e with
  | constant b => exact raises.elim
  | binary op left right =>
    obtain ⟨name, rfl⟩ | ⟨cause, rfl⟩ | ⟨cause, rfl⟩ := BinaryOp.result_error raises <;>
      exact ⟨nofun, nofun⟩
  | not inner =>
    obtain ⟨o, -, -, rfl⟩ := raises
    exact ⟨nofun, nofun⟩
  | logic op left right =>
    obtain ⟨l, r, -, -, ⟨-, rfl⟩ | ⟨-, -, rfl⟩⟩ := raises <;> exact ⟨nofun, nofun⟩
  | choice cond whenTrue otherwise =>
    obtain ⟨c, a, b, -, -, -, ⟨-, rfl⟩ | ⟨-, -, rfl⟩⟩ := raises <;> exact ⟨nofun, nofun⟩

end Expr

end Failures
end LayeredTable
