import LayeredTable.Proofs.Expr.Result

/-! Evaluations that nothing stops. Without a deadline and with the cancel flag down, an expression
that has a result evaluates to it, and the flag stays down; under any other context nothing is
evaluated. -/
namespace LayeredTable

/-- Whether evaluations in a context go on: its deadline has not passed and its flag is down. -/
def EvalContext.Live (c : EvalContext) : Prop :=
  c.policy.expired = false ∧ c.state.cancelled = false

section Live

variable {t : Tree} {policy : Policy} {s m : EvalState} {o : Outcome} {e : Expr} {op : BinaryOp}
  {left right : Operand}

theorem Outcome.requireBool_of_bool {name : String} (boolean : o.type = .bool) :
    o.requireBool name = .ok () := by
  rw [requireBool, if_pos boolean]

namespace Eval

variable {α : Type} {x : Except ExprError α} {step : Eval α} {v : α} {k l : EvalState}
  {first second third : Eval Outcome} {c a b : Outcome}

theorem checkpoint_of_live (unlimited : policy.expired = false) (live : s.cancelled = false) :
    checkpoint policy s = .ok () s := by
  rw [checkpoint, get_bind, live, unlimited]
  rfl

theorem live_of_checkpoint (passed : checkpoint policy s = .ok () m) :
    policy.expired = false ∧ s.cancelled = false := by
  rw [checkpoint, get_bind] at passed
  cases stopped : s.cancelled <;> rw [stopped] at passed
  · cases late : policy.expired <;> rw [late] at passed
    · exact ⟨rfl, rfl⟩
    · cases passed
  · cases passed

theorem checkpoint_ok (done : checkpoint policy s = .ok () m) : m = s := by
  obtain ⟨unlimited, live⟩ := live_of_checkpoint done
  rw [checkpoint_of_live unlimited live] at done
  cases done
  rfl

theorem ofExcept_of_ok (done : x = .ok v) : ofExcept id x s = .ok v s := by
  rw [done]
  rfl

theorem recordRows_keeps (policy : Policy) (ds : List Defect) (s : EvalState) :
    ∃ m, recordRows policy ds s = .ok () m ∧ m.cancelled = s.cancelled := by
  rw [recordRows]
  split
  · exact ⟨_, rfl, rfl⟩
  · exact ⟨_, rfl, rfl⟩

theorem attempt_of_ok (done : step s = .ok v m) : attempt step s = .ok (.ok v) m := by
  rw [attempt, done]

/-! The operands of logic, and those of a choice. -/

theorem both_of_ok (done : first s = .ok a m) (next : second m = .ok b k) :
    both first second s = .ok (a, b) k := by
  rw [both, bind_of_ok (attempt_of_ok done), bind_of_ok (attempt_of_ok next)]
  rfl

theorem all_of_ok (done : first s = .ok c m) (next : second m = .ok a k)
    (last : third k = .ok b l) : all first second third s = .ok (c, a, b) l := by
  rw [all, bind_of_ok (attempt_of_ok done), bind_of_ok (attempt_of_ok next),
    bind_of_ok (attempt_of_ok last)]
  rfl

theorem choose_of_ok (selected : Outcome.select c a b = .ok o) (policy : Policy) (s : EvalState) :
    ∃ m, choose policy c a b s = .ok o m ∧ m.cancelled = s.cancelled := by
  obtain ⟨⟨⟩, boolean, next⟩ := exceptBind_ok selected
  obtain ⟨same, rfl⟩ := Outcome.select_ok selected
  rw [choose, bind_of_ok (ofExcept_of_ok boolean), Outcome.chosen]
  simp only [ne_eq, same, not_true_eq_false, if_false]
  cases Outcome.wholeBranch? c a b with
  | some branch => exact ⟨s, rfl, rfl⟩
  | none =>
    obtain ⟨m, recorded, kept⟩ :=
      recordRows_keeps policy ((Outcome.chooseRows c a b).filterMap (·.2)) s
    refine ⟨m, ?_, kept⟩
    simp only [bind_of_ok recorded]
    rfl

end Eval

namespace Expr

theorem evalBinary_of_ok (done : op.result t left right = .ok o) (policy : Policy)
    (s : EvalState) :
    ∃ m, evalBinary t policy op left right s = .ok o m ∧ m.cancelled = s.cancelled := by
  by_cases asks : op.AsksHidden right
  · rcases asks with ⟨rfl | rfl, null⟩ <;>
    · simp only [BinaryOp.result, null] at done
      simp only [evalBinary, null]
      exact ⟨s, Eval.ofExcept_of_ok done, rfl⟩
  · rw [BinaryOp.result_of_scan asks] at done
    cases resolved : Scan.resolve t op left right with
    | error e =>
      rw [resolved] at done
      cases done
    | ok scan =>
      rw [resolved] at done
      cases done
      obtain ⟨m, recorded, kept⟩ := Eval.recordRows_keeps policy (scan.defects t) s
      refine ⟨m, ?_, kept⟩
      rw [evalBinary_of_scan asks, bind_of_ok (Eval.ofExcept_of_ok resolved), bind_of_ok recorded]
      rfl

/-- An expression that has a result evaluates to it, and leaves the flag down. -/
theorem eval_of_result (unlimited : policy.expired = false) (live : s.cancelled = false)
    (result : e.result t = .ok o) : ∃ m, e.eval t policy s = .ok o m ∧ m.cancelled = false := by
  induction e generalizing s o with
  | constant b =>
    cases result
    rw [eval, bind_of_ok (Eval.checkpoint_of_live unlimited live)]
    exact ⟨s, rfl, live⟩
  | binary op left right =>
    obtain ⟨m, done, kept⟩ := evalBinary_of_ok result policy s
    rw [eval, bind_of_ok (Eval.checkpoint_of_live unlimited live)]
    exact ⟨m, done, kept.trans live⟩
  | not inner ih =>
    obtain ⟨a, first, boolean, rfl⟩ := result_not result
    obtain ⟨m, done, kept⟩ := ih live first
    have checked : a.requireBool "not" = .ok () := Outcome.requireBool_of_bool boolean
    rw [eval, bind_of_ok (Eval.checkpoint_of_live unlimited live), bind_of_ok done,
      bind_of_ok (Eval.ofExcept_of_ok checked)]
    exact ⟨m, rfl, kept⟩
  | logic op left right ihLeft ihRight =>
    obtain ⟨l, r, first, second, leftBoolean, rightBoolean, rfl⟩ := result_logic result
    obtain ⟨m, leftDone, kept⟩ := ihLeft live first
    obtain ⟨k, rightDone, still⟩ := ihRight kept second
    rw [eval, bind_of_ok (Eval.checkpoint_of_live unlimited live),
      bind_of_ok (Eval.both_of_ok leftDone rightDone)]
    simp only [bind_of_ok (Eval.ofExcept_of_ok (Outcome.requireBool_of_bool leftBoolean)),
      bind_of_ok (Eval.ofExcept_of_ok (Outcome.requireBool_of_bool rightBoolean))]
    exact ⟨k, rfl, still⟩
  | choice cond whenTrue otherwise ihCond ihTrue ihOtherwise =>
    obtain ⟨c, first, next⟩ := exceptBind_ok result
    obtain ⟨a, second, next⟩ := exceptBind_ok next
    obtain ⟨b, third, selected⟩ := exceptBind_ok next
    obtain ⟨m, condDone, kept⟩ := ihCond live first
    obtain ⟨k, trueDone, still⟩ := ihTrue kept second
    obtain ⟨l, otherDone, lasting⟩ := ihOtherwise still third
    obtain ⟨last, chosen, down⟩ := Eval.choose_of_ok selected policy l
    rw [eval, bind_of_ok (Eval.checkpoint_of_live unlimited live),
      bind_of_ok (Eval.all_of_ok condDone trueDone otherDone)]
    exact ⟨last, chosen, down.trans lasting⟩

/-- Every evaluation starts with a checkpoint. -/
theorem live_of_eval (done : e.eval t policy s = .ok o m) :
    policy.expired = false ∧ s.cancelled = false := by
  have passed : ∃ k, Eval.checkpoint policy s = .ok () k := by
    cases e <;>
    · obtain ⟨⟨⟩, k, first, -⟩ := bind_ok done
      exact ⟨k, first⟩
  obtain ⟨k, first⟩ := passed
  exact Eval.live_of_checkpoint first

end Expr

/-- What an evaluation in a context succeeds with is the result of its expression, and it succeeds
in live contexts only. -/
theorem EvalContext.eval_eq_ok_iff {c : EvalContext} :
    (c.eval t e).1 = .ok o ↔ c.Live ∧ e.result t = .ok o := by
  rw [EvalContext.eval]
  constructor
  · intro done
    cases ends : e.eval t c.policy c.state with
    | error err m =>
      rw [ends] at done
      cases done
    | ok o' m =>
      rw [ends] at done
      cases done
      exact ⟨Expr.live_of_eval ends, Expr.eval_result ends⟩
  · rintro ⟨⟨unlimited, live⟩, result⟩
    obtain ⟨m, done, -⟩ := Expr.eval_of_result unlimited live result
    rw [done]

end Live
end LayeredTable
