import LayeredTable.Proofs.Expr.Schedule

/-! How evaluations in a context can end when their workers take turns in any way. Success is
settled by the tree alone. A failure is the error of some part; but where a part fails within two
operands, one in the other, it can also be `cancelled`, though nobody cancelled the evaluation. -/
namespace LayeredTable

namespace EvalContext

variable {c after : EvalContext} {t : Tree} {e : Expr} {o : Outcome} {err err' : ExprError}
  {k : Nat} {n : Expr} {r : Except ExprError Outcome}

/-- The evaluator itself ends in one of these ways. -/
theorem ends_eval (c : EvalContext) (t : Tree) (e : Expr) :
    c.Ends t e (c.eval t e).1 (c.eval t e).2 := by
  obtain ⟨es, r, m, ends, own, ran⟩ := e.behaviour_allows t c.policy c.state
  rcases Eval.attempt_ok ends with ⟨o, rfl, done⟩ | ⟨err, rfl, failed⟩
  · simp only [eval, done]
    exact ⟨rfl, es, _, _, id, own, ran⟩
  · simp only [eval, failed]
    exact ⟨rfl, es, _, _, id, own, ran⟩

/-- In a context that has been cancelled, evaluations do nothing. -/
theorem ends_of_cancelled (cancelled : c.state.cancelled = true) :
    c.Ends t e r after ↔ r = .error .cancelled ∧ after = c := by
  constructor
  · rintro ⟨kept, es, late, late', -, own, ran⟩
    rcases Expr.behaviour_first own with ⟨rfl, rfl⟩ | ⟨rest, rfl⟩
    · rw [Shared.run?_of_cancelled cancelled (by simp)] at ran
      cases after
      cases ran
      cases kept
      exact ⟨rfl, rfl⟩
    · obtain ⟨m, first, -⟩ := Shared.run?_cons_eq_some.mp ran
      simp [Shared.step?, cancelled] at first
  · rintro ⟨rfl, rfl⟩
    exact ⟨rfl, [.flag true], true, true, fun _ => rfl, e.behaviour_stopped t after.policy,
      Shared.run?_of_cancelled cancelled (by simp)⟩

/-- An evaluation that succeeds comes to the result of its expression, in whatever turns. -/
theorem result_of_ends (ends : c.Ends t e (.ok o) after) : e.result t = .ok o := by
  obtain ⟨-, es, late, late', -, own, -⟩ := ends
  exact (Expr.result_of_behaviour own).1

/-- After a success the flag is down. -/
theorem live_of_ends (ends : c.Ends t e (.ok o) after) : after.state.cancelled = false := by
  cases flag : c.state.cancelled with
  | true =>
    obtain ⟨⟨⟩, -⟩ := (ends_of_cancelled flag).mp ends
  | false =>
    obtain ⟨-, es, late, late', -, own, ran⟩ := ends
    have quiet := (Expr.result_of_behaviour own).2
    have up := Shared.cancelled_of_run? ran
    simpa [flag, quiet.2] using up

/-- With the flag down, a deadline can pass before an evaluation is done, whenever there is one. -/
theorem exists_ends_deadline_iff (live : c.state.cancelled = false) :
    (∃ after, c.Ends t e (.error .deadlineExceeded) after) ↔ c.policy.limit.isSome := by
  constructor
  · rintro ⟨after, -, es, late, late', -, own, -⟩
    rcases Expr.behaviour_error own with (⟨⟨⟩, -⟩ | ⟨-, limited, -⟩) | ⟨k, n, part, raises, -⟩
    · exact limited
    · exact absurd rfl raises.genuine.2
  · intro limited
    refine ⟨c.cancel, rfl, [.flag false, .clock true, .raise], true, true, fun _ => rfl,
      Expr.behaviour_of_checkpoint (Behaviour.checkpoint_late limited) t e, ?_⟩
    simp [Shared.run?, Shared.step?, live, cancel]

section Unlimited

variable (unlimited : c.policy.limit = none)
include unlimited

theorem exists_ends_of_run {es : List Event} {m : Shared}
    (own : e.behaviour t c.policy es r) (ran : Shared.run? ⟨c.state, false⟩ es = some m) :
    ∃ after, c.Ends t e r after := by
  have expired := Policy.expired_of_unlimited unlimited
  exact ⟨⟨c.policy, m.toEvalState⟩, rfl, es, false, m.late, by simp [expired], own, ran⟩

variable (live : c.state.cancelled = false)
include live

/-- From a live context an evaluation can succeed just with the result of its expression. -/
theorem exists_ends_ok_iff : (∃ after, c.Ends t e (.ok o) after) ↔ e.result t = .ok o := by
  have expired := Policy.expired_of_unlimited unlimited
  constructor
  · rintro ⟨after, ends⟩
    exact result_of_ends ends
  · intro result
    have done : (c.eval t e).1 = .ok o := eval_eq_ok_iff.mpr ⟨⟨expired, live⟩, result⟩
    exact ⟨_, done ▸ c.ends_eval t e⟩

/-- Which errors an evaluation can fail with from a live context. -/
theorem exists_ends_error_iff : (∃ after, c.Ends t e (.error err) after) ↔
    (∃ k n, (k, n) ∈ e.parts ∧ n.Raises t err) ∨
      err = .cancelled ∧ ∃ k n err', (k, n) ∈ e.parts ∧ 2 ≤ k ∧ n.Raises t err' := by
  constructor
  · rintro ⟨after, -, es, late, late', -, own, ran⟩
    rcases Expr.behaviour_error own with (⟨rfl, seen⟩ | ⟨-, limited, -⟩) | ⟨k, n, part, raises, -⟩
    · have raised : Raised es := raised_of_run? live ran fun quiet => quiet.1 seen
      exact .inr ⟨rfl, Expr.exists_raises_of_cancelled unlimited own raised⟩
    · simp [unlimited] at limited
    · exact .inl ⟨k, n, part, raises⟩
  · rintro (⟨k, n, part, raises⟩ | ⟨rfl, k, n, err', part, deep, raises⟩)
    · obtain ⟨es, m, own, ran⟩ := Expr.behaviour_of_part unlimited live part raises
      exact exists_ends_of_run unlimited own ran
    · obtain ⟨es, m, own, ran⟩ := Expr.behaviour_cancelled_of_part unlimited live part deep raises
      exact exists_ends_of_run unlimited own ran

/-- Wherever a part raises an error, a failure leaves the flag up just if that part lies in an
operand of logic or of a choice. -/
theorem cancelled_of_ends (ends : c.Ends t e (.error err) after) (part : (k, n) ∈ e.parts)
    (raises : n.Raises t err') : after.state.cancelled = true ↔ k ≠ 0 := by
  obtain ⟨-, es, late, late', -, own, ran⟩ := ends
  have up : after.state.cancelled = true ↔ .raise ∈ es := by
    simpa [live] using Shared.cancelled_of_run? ran
  have deep_of_raised (raised : Raised es) : k ≠ 0 := by
    obtain ⟨k', n', _, part', deep, raises'⟩ := Expr.exists_raises_of_raised unlimited own raised
    exact fun top => deep ((Expr.same_side part raises part' raises').mp top)
  rw [up]
  constructor
  · intro raised
    exact deep_of_raised (raised_of_run? live ran fun quiet => quiet.2 raised)
  · intro deep
    rcases Expr.behaviour_error own with
      (⟨rfl, seen⟩ | ⟨-, limited, -⟩) | ⟨k', n', part', raises', -⟩
    · exact (raised_of_run? live ran fun quiet => quiet.1 seen).mem
    · simp [unlimited] at limited
    · exact Expr.raise_mem_of_error own part' raises' fun top =>
        deep ((Expr.same_side part raises part' raises').mpr top)

end Unlimited

end EvalContext
end LayeredTable
