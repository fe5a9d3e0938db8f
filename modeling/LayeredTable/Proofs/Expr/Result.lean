import LayeredTable.Proofs.Expr.Pointwise

/-! Results of evaluation without its effects. Policies, recorded defects and the cancel flag decide
whether an evaluation goes through, but not what it gives: that depends on the tree alone. -/
namespace LayeredTable

namespace Outcome

/-- What a choice gives when its condition and its branches are known. -/
def chosen (cond whenTrue otherwise : Outcome) : Outcome :=
  (wholeBranch? cond whenTrue otherwise).getD
    ⟨.ofList ((chooseRows cond whenTrue otherwise).map (·.1)), whenTrue.type⟩

def select (cond whenTrue otherwise : Outcome) : Except ExprError Outcome := do
  cond.requireBool "if"
  if whenTrue.type ≠ otherwise.type then
    throw (.resolve (.mismatch whenTrue.type otherwise.type))
  return chosen cond whenTrue otherwise

/-- Whatever stands for the rows without a value of their own is a boolean. -/
def BooleanConstant (o : Outcome) : Prop := ∀ v, o.values.constant = some v → ∃ b, v = .bool b

end Outcome

def BinaryOp.result (t : Tree) (op : BinaryOp) (left right : Operand) : Except ExprError Outcome :=
  match op, right.isNull with
  | .eq, true => hiddenCheck t .eq true left
  | .ne, true => hiddenCheck t .ne false left
  | op, _ => (Scan.resolve t op left right).map (·.outcome t)

/-- What an expression gives in a tree when nothing stops its evaluation. -/
def Expr.result (t : Tree) : Expr → Except ExprError Outcome
  | constant b => .ok (.ofBool b)
  | binary op left right => op.result t left right
  | not inner => do
    let o ← inner.result t
    o.requireBool "not"
    return o.negate
  | logic op left right => do
    let l ← left.result t
    let r ← right.result t
    l.requireBool op.name
    r.requireBool op.name
    return .join op (t.exclusions 0) l r
  | choice cond whenTrue otherwise => do
    let c ← cond.result t
    let a ← whenTrue.result t
    let b ← otherwise.result t
    Outcome.select c a b

section Results

variable {t : Tree} {policy policy' : Policy} {s s' m m' : EvalState} {o o' c a b : Outcome}
  {op : BinaryOp} {left right : Operand} {e : Expr}

theorem BinaryOp.result_of_scan (scans : ¬ op.AsksHidden right) :
    op.result t left right = (Scan.resolve t op left right).map (·.outcome t) := by
  rw [BinaryOp.result]
  · rintro rfl null
    exact scans ⟨.inl rfl, null⟩
  · rintro rfl null
    exact scans ⟨.inr rfl, null⟩

theorem Expr.evalBinary_result (done : evalBinary t policy op left right s = .ok o m) :
    op.result t left right = .ok o := by
  by_cases asks : op.AsksHidden right
  · rcases asks with ⟨rfl | rfl, null⟩ <;>
    · simp only [evalBinary, null] at done
      simp only [BinaryOp.result, null]
      exact Eval.ofExcept_ok done
  · rw [evalBinary_of_scan asks] at done
    obtain ⟨scan, k, resolved, others⟩ := bind_ok done
    obtain ⟨-, l, -, answer⟩ := bind_ok others
    cases answer
    rw [BinaryOp.result_of_scan asks, Eval.ofExcept_ok resolved]
    rfl

theorem Eval.choose_select (done : Eval.choose policy c a b s = .ok o m) :
    Outcome.select c a b = .ok o := by
  obtain ⟨⟨⟩, k, boolean, next⟩ := bind_ok done
  have typed := Eval.ofExcept_ok boolean
  by_cases same : a.type = b.type
  · simp only [ne_eq, same, not_true_eq_false, if_false] at next
    have chosen : o = Outcome.chosen c a b := by
      rw [Outcome.chosen]
      cases whole : Outcome.wholeBranch? c a b with
      | some branch =>
        simp only [whole] at next
        cases next
        rfl
      | none =>
        simp only [whole] at next
        obtain ⟨-, l, -, answer⟩ := bind_ok next
        cases answer
        rw [Option.getD_none, same]
    simp [Outcome.select, typed, same, chosen, bind, Except.bind, pure, Except.pure]
  · simp only [ne_eq, same, not_false_eq_true, if_true] at next
    cases next

/-- An evaluation that goes through gives the result of its expression. -/
theorem Expr.eval_result (done : e.eval t policy s = .ok o m) : e.result t = .ok o := by
  induction e generalizing s m o with
  | constant x =>
    obtain ⟨-, k, -, answer⟩ := bind_ok done
    cases answer
    rfl
  | binary op left right =>
    obtain ⟨-, k, -, next⟩ := bind_ok done
    exact evalBinary_result next
  | not inner ih =>
    obtain ⟨-, k, -, next⟩ := bind_ok done
    obtain ⟨a, k', first, others⟩ := bind_ok next
    obtain ⟨⟨⟩, k'', boolean, answer⟩ := bind_ok others
    cases answer
    simp [result, ih first, Eval.ofExcept_ok boolean, bind, Except.bind, pure, Except.pure]
  | logic op left right ihLeft ihRight =>
    obtain ⟨-, k, -, next⟩ := bind_ok done
    obtain ⟨⟨l, r⟩, k', both, others⟩ := bind_ok next
    obtain ⟨i, first, last⟩ := Eval.both_ok both
    obtain ⟨⟨⟩, k'', leftBoolean, others⟩ := bind_ok others
    obtain ⟨⟨⟩, k'', rightBoolean, answer⟩ := bind_ok others
    cases answer
    simp [result, ihLeft first, ihRight last, Eval.ofExcept_ok leftBoolean,
      Eval.ofExcept_ok rightBoolean, bind, Except.bind, pure, Except.pure]
  | choice cond whenTrue otherwise ihCond ihTrue ihOtherwise =>
    obtain ⟨-, k, -, next⟩ := bind_ok done
    obtain ⟨⟨c, a, b⟩, k', all, answer⟩ := bind_ok next
    obtain ⟨i, i', first, middle, last⟩ := Eval.all_ok all
    simp [result, ihCond first, ihTrue middle, ihOtherwise last, Eval.choose_select answer, bind,
      Except.bind]

end Results

section Constants

variable {t : Tree} {o l r c a b : Outcome} {op : BinaryOp} {left right : Operand} {e : Expr}

/-- A comparison or a sum gives what a check of the hidden cells says or what a scan found. -/
theorem BinaryOp.result_ok (done : op.result t left right = .ok o) :
    (∃ op' want, hiddenCheck t op' want left = .ok o) ∨
      ∃ scan, Scan.resolve t op left right = .ok scan ∧ o = scan.outcome t := by
  by_cases asks : op.AsksHidden right
  · left
    rcases asks with ⟨rfl | rfl, null⟩ <;>
    · simp only [BinaryOp.result, null] at done
      exact ⟨_, _, done⟩
  · right
    rw [BinaryOp.result_of_scan asks] at done
    cases resolved : Scan.resolve t op left right with
    | error e =>
      rw [resolved] at done
      cases done
    | ok scan =>
      rw [resolved] at done
      cases done
      exact ⟨scan, rfl, rfl⟩

/-- Results of scans and of hidden checks have entries only. -/
theorem BinaryOp.result_constant (done : op.result t left right = .ok o) :
    o.values.constant = none := by
  rcases result_ok done with ⟨op', want, checked⟩ | ⟨scan, -, rfl⟩
  · cases left with
    | literal v type => cases checked
    | column i =>
      obtain ⟨n, -, answer⟩ := exceptBind_ok checked
      cases answer
      rfl
  · rfl

namespace Outcome

theorem BooleanConstant.negate (boolean : o.BooleanConstant) : o.negate.BooleanConstant := by
  intro v same
  obtain ⟨w, constant, rfl⟩ := Option.map_eq_some_iff.mp same
  obtain ⟨b, rfl⟩ := boolean w constant
  exact ⟨!b, rfl⟩

theorem join_booleanConstant (op : Logic) (excluded : Exclusions) :
    (join op excluded l r).BooleanConstant := by
  intro v same
  simp only [join] at same
  obtain ⟨x, -, same⟩ := Option.bind_eq_some_iff.mp same
  obtain ⟨y, -, same⟩ := Option.bind_eq_some_iff.mp same
  exact ⟨_, (Option.some.inj same).symm⟩

theorem eq_of_wholeBranch? (whole : wholeBranch? c a b = some o) : o = a ∨ o = b := by
  rw [wholeBranch?] at whole
  split at whole
  · obtain ⟨x, -, rfl⟩ := Option.map_eq_some_iff.mp whole
    cases x
    · exact .inr rfl
    · exact .inl rfl
  · cases whole

theorem BooleanConstant.chosen (whenTrue : a.BooleanConstant) (otherwise : b.BooleanConstant) :
    (chosen c a b).BooleanConstant := by
  rw [Outcome.chosen]
  cases whole : wholeBranch? c a b with
  | none =>
    intro v same
    simp [RowValues.ofList] at same
  | some branch =>
    rcases eq_of_wholeBranch? whole with rfl | rfl
    · exact whenTrue
    · exact otherwise

theorem requireBool_ok {name : String} (done : o.requireBool name = .ok ()) : o.type = .bool := by
  rw [requireBool] at done
  split at done
  · assumption
  · cases done

theorem select_ok (done : select c a b = .ok o) : a.type = b.type ∧ o = chosen c a b := by
  obtain ⟨⟨⟩, -, next⟩ := exceptBind_ok done
  by_cases same : a.type = b.type
  · simp only [ne_eq, same, not_true_eq_false, if_false] at next
    cases next
    exact ⟨same, rfl⟩
  · simp only [ne_eq, same, not_false_eq_true, if_true] at next
    cases next

end Outcome

namespace Expr

/-! What is known of the parts when an expression has a result. -/

theorem result_not {inner : Expr} (done : (Expr.not inner).result t = .ok o) :
    ∃ a, inner.result t = .ok a ∧ a.type = .bool ∧ o = a.negate := by
  obtain ⟨a, first, next⟩ := exceptBind_ok done
  obtain ⟨⟨⟩, boolean, answer⟩ := exceptBind_ok next
  cases answer
  exact ⟨a, first, Outcome.requireBool_ok boolean, rfl⟩

theorem result_logic {op : Logic} {left right : Expr}
    (done : (Expr.logic op left right).result t = .ok o) :
    ∃ l r, left.result t = .ok l ∧ right.result t = .ok r ∧ l.type = .bool ∧ r.type = .bool ∧
      o = .join op (t.exclusions 0) l r := by
  obtain ⟨l, first, next⟩ := exceptBind_ok done
  obtain ⟨r, second, next⟩ := exceptBind_ok next
  obtain ⟨⟨⟩, leftBoolean, next⟩ := exceptBind_ok next
  obtain ⟨⟨⟩, rightBoolean, answer⟩ := exceptBind_ok next
  cases answer
  exact ⟨l, r, first, second, Outcome.requireBool_ok leftBoolean,
    Outcome.requireBool_ok rightBoolean, rfl⟩

theorem result_choice {cond whenTrue otherwise : Expr}
    (done : (Expr.choice cond whenTrue otherwise).result t = .ok o) :
    ∃ c a b, cond.result t = .ok c ∧ whenTrue.result t = .ok a ∧ otherwise.result t = .ok b ∧
      a.type = b.type ∧ o = .chosen c a b := by
  obtain ⟨c, first, next⟩ := exceptBind_ok done
  obtain ⟨a, second, next⟩ := exceptBind_ok next
  obtain ⟨b, third, answer⟩ := exceptBind_ok next
  obtain ⟨same, chosen⟩ := Outcome.select_ok answer
  exact ⟨c, a, b, first, second, third, same, chosen⟩

theorem result_booleanConstant (done : e.result t = .ok o) : o.BooleanConstant := by
  induction e generalizing o with
  | constant x =>
    cases done
    intro v same
    cases same
    exact ⟨x, rfl⟩
  | binary op left right =>
    intro v same
    rw [BinaryOp.result_constant done] at same
    cases same
  | not inner ih =>
    obtain ⟨a, first, -, rfl⟩ := result_not done
    exact (ih first).negate
  | logic op left right =>
    obtain ⟨l, r, -, -, -, -, rfl⟩ := result_logic done
    exact Outcome.join_booleanConstant op (t.exclusions 0)
  | choice cond whenTrue otherwise _ ihTrue ihOtherwise =>
    obtain ⟨c, a, b, -, first, second, -, rfl⟩ := result_choice done
    exact (ihTrue first).chosen (ihOtherwise second)

end Expr

end Constants

end LayeredTable
