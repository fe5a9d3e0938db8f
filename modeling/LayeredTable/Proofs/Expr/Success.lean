import LayeredTable.Proofs.DefectLog
import LayeredTable.Proofs.Expr.Ends

/-! Evaluations that succeed. Whatever turns its workers take, an evaluation that succeeds comes to
what the evaluator comes to, and records the same defects in some order. -/
namespace LayeredTable

/-- Whether all successes of a worker are one, up to the order of what it does. -/
def Behaviour.Steady (b : Behaviour α) : Prop :=
  ∀ es es' v v', b es (.ok v) → b es' (.ok v') → v = v' ∧ es.Perm es'

section Successes

variable {t : Tree} {policy : Policy} {es : List Event}

namespace Behaviour

variable {α β : Type} {b : Behaviour α}

theorem Steady.pure (v : α) : Steady (Pure.pure v) := by
  rintro es es' w w' ⟨rfl, ⟨⟩⟩ ⟨rfl, ⟨⟩⟩
  exact ⟨rfl, .refl _⟩

theorem Steady.ofExcept (x : Except ExprError α) : Steady (ofExcept x) := by
  rintro es es' w w' ⟨rfl, rfl⟩ ⟨rfl, ⟨⟩⟩
  exact ⟨rfl, .refl _⟩

theorem Steady.emit (events : List Event) : Steady (emit events) := by
  rintro es es' w w' ⟨rfl, ⟨⟩⟩ ⟨rfl, ⟨⟩⟩
  exact ⟨rfl, .refl _⟩

theorem Steady.bind {next : α → Behaviour β} (first : Steady b) (others : ∀ v, Steady (next v)) :
    Steady (b >>= next) := by
  rintro es es' w w' (⟨err, -, ⟨⟩⟩ | ⟨front, back, v, done, ends, rfl⟩)
    (⟨err, -, ⟨⟩⟩ | ⟨front', back', v', done', ends', rfl⟩)
  obtain ⟨rfl, early⟩ := first front front' v v' done done'
  obtain ⟨rfl, late⟩ := others v back back' w w' ends ends'
  exact ⟨rfl, early.append late⟩

theorem Steady.checkpoint (policy : Policy) : Steady (checkpoint policy) :=
  fun _ _ _ _ passed passed' =>
    ⟨rfl, by rw [checkpoint_passed passed, checkpoint_passed passed']⟩

theorem Steady.recordRows (policy : Policy) (ds : List Defect) : Steady (recordRows policy ds) := by
  rw [Behaviour.recordRows]
  split
  · exact .emit _
  · exact .pure _

theorem Steady.scanRows (policy : Policy) (n : Nat) (ds : List (Option Defect)) :
    Steady (scanRows policy n ds) := by
  induction ds generalizing n with
  | nil => exact .pure _
  | cons d ds ih =>
    have rest : Steady (do
        Behaviour.recordRows policy d.toList
        Behaviour.scanRows policy (n + 1) ds) :=
      .bind (.recordRows policy _) fun _ => ih (n + 1)
    rw [Behaviour.scanRows]
    split
    · exact .bind (.checkpoint policy) fun _ => rest
    · exact rest

theorem Steady.combine (op : Logic) (excluded : Exclusions) (l r : Outcome) :
    Steady (combine op excluded l r) :=
  .bind (.ofExcept _) fun _ => .bind (.ofExcept _) fun _ => .pure _

theorem Steady.choose (policy : Policy) (c a b : Outcome) : Steady (choose policy c a b) := by
  refine .bind (.ofExcept _) fun _ => ?_
  by_cases same : a.type = b.type
  · simp only [ne_eq, same, not_true_eq_false, if_false]
    cases Outcome.wholeBranch? c a b with
    | some branch => exact .pure branch
    | none => exact .bind (.recordRows policy _) fun _ => .pure _
  · simp only [ne_eq, same, not_false_eq_true, if_true]
    rintro es es' v v' (⟨err, -, ⟨⟩⟩ | ⟨front, back, u, ⟨-, ⟨⟩⟩, -⟩)

theorem Steady.joining {size : Nat} {workers : Fin size → Behaviour α}
    {finish : (Fin size → α) → Behaviour β} (each : ∀ i, Steady (workers i))
    (last : ∀ results, Steady (finish results)) : Steady (joining policy workers finish) := by
  refine .bind (.checkpoint policy) fun _ => .bind ?_ last
  rintro es es' results results' ⟨done, turns⟩ ⟨done', turns'⟩
  have same (i) := each i _ _ _ _ (done i) (done' i)
  exact ⟨funext fun i => (same i).1, Interleaves.perm turns turns' fun i => (same i).2⟩

end Behaviour

namespace Expr

open Behaviour

variable {e : Expr} {o : Outcome}

theorem binaryBehaviour_steady (t : Tree) (policy : Policy) (op : BinaryOp) (left right : Operand) :
    Steady (binaryBehaviour t policy op left right) := by
  by_cases asks : op.AsksHidden right
  · rcases asks with ⟨rfl | rfl, null⟩ <;>
    · simp only [binaryBehaviour, null]
      exact .ofExcept _
  · rw [binaryBehaviour_of_scan asks]
    exact .bind (.ofExcept _) fun _ => .bind (.scanRows policy 0 _) fun _ => .pure _

theorem behaviour_steady (t : Tree) (policy : Policy) (e : Expr) :
    Steady (e.behaviour t policy) := by
  induction e with
  | constant x => exact .bind (.checkpoint policy) fun _ => .pure _
  | binary op left right =>
    exact .bind (.checkpoint policy) fun _ => binaryBehaviour_steady t policy op left right
  | not inner ih =>
    exact .bind (.checkpoint policy) fun _ => .bind ih fun _ => .bind (.ofExcept _) fun _ => .pure _
  | logic op left right ihLeft ihRight =>
    exact .joining (Fin.forall_fin_two.mpr ⟨ihLeft, ihRight⟩) fun o => .combine op _ (o 0) (o 1)
  | choice cond whenTrue otherwise ihCond ihTrue ihOtherwise =>
    exact .joining (forall_fin_three.mpr ⟨ihCond, ihTrue, ihOtherwise⟩) fun o =>
      .choose policy (o 0) (o 1) (o 2)

/-- Under a deadline, an evaluation that succeeds has seen that it has not passed. -/
theorem clock_mem_of_behaviour (limited : policy.limit.isSome)
    (ends : e.behaviour t policy es (.ok o)) : .clock false ∈ es := by
  have first {next : Unit → Behaviour Outcome}
      (ends : (checkpoint policy >>= next) es (.ok o)) : .clock false ∈ es := by
    obtain (⟨err, -, ⟨⟩⟩ | ⟨front, back, ⟨⟩, passed, -, rfl⟩) := ends
    rw [checkpoint_passed passed, if_pos limited]
    simp
  cases e <;> exact first ends

end Expr

end Successes

def Event.defect? : Event → Option Defect
  | record d => some d
  | flag _ | clock _ | raise => none

theorem Shared.defects_of_run? {s after : Shared} {es : List Event} (ran : s.run? es = some after) :
    after.defects = s.defects.logAll (es.filterMap Event.defect?) := by
  induction es generalizing s with
  | nil =>
    cases ran
    rfl
  | cons e es ih =>
    obtain ⟨m, first, rest⟩ := run?_cons_eq_some.mp ran
    rw [ih rest]
    rcases step?_cases first with
      ⟨rfl, rfl⟩ | ⟨late, rfl, -, rfl⟩ | ⟨rfl, rfl⟩ | ⟨d, rfl, rfl⟩ <;> rfl

/-- A deadline that has passed stays passed. -/
theorem Shared.clock_not_mem_of_late {s after : Shared} {es : List Event} (late : s.late = true)
    (ran : s.run? es = some after) : .clock false ∉ es := by
  induction es generalizing s with
  | nil => exact List.not_mem_nil
  | cons e es ih =>
    obtain ⟨m, first, rest⟩ := run?_cons_eq_some.mp ran
    rw [List.mem_cons, not_or]
    rcases step?_cases first with
      ⟨rfl, rfl⟩ | ⟨now, rfl, stays, rfl⟩ | ⟨rfl, rfl⟩ | ⟨d, rfl, rfl⟩
    · exact ⟨by simp, ih late rest⟩
    · exact ⟨by simp [stays late], ih (stays late) rest⟩
    · exact ⟨by simp, ih (by exact late) rest⟩
    · exact ⟨by simp, ih (by exact late) rest⟩

theorem DefectLog.logAll_perm (l : DefectLog) {ds ds' : List Defect} (same : ds.Perm ds') :
    (l.logAll ds).records.toList.Perm (l.logAll ds').records.toList := by
  cases enabled : l.enabled with
  | true =>
    rw [records_logAll enabled, records_logAll enabled]
    exact same.append_left _
  | false =>
    have dropped (ds : List Defect) : l.logAll ds = l := by
      induction ds with
      | nil => rfl
      | cons d ds ih =>
        rw [logAll, List.foldl_cons, log, enabled]
        exact ih
    rw [dropped, dropped]

/-- Whatever turns its workers take, an evaluation that succeeds comes to what the evaluator comes
to. Only the order in which the defects are recorded may differ. -/
theorem EvalContext.eval_of_ends {c after : EvalContext} {t : Tree} {e : Expr} {o : Outcome}
    (ends : c.Ends t e (.ok o) after) :
    (c.eval t e).1 = .ok o ∧
      after.state.defects.records.toList.Perm (c.eval t e).2.state.defects.records.toList := by
  have live : c.state.cancelled = false := by
    cases flag : c.state.cancelled with
    | false => rfl
    | true => cases ((ends_of_cancelled flag).mp ends).1
  have result := result_of_ends ends
  obtain ⟨-, es, late, late', expires, own, ran⟩ := ends
  have going : c.policy.expired = false := by
    cases expired : c.policy.expired with
    | false => rfl
    | true =>
      have limited : c.policy.limit.isSome := Option.isSome_of_any expired
      exact absurd (Expr.clock_mem_of_behaviour limited own)
        (Shared.clock_not_mem_of_late (expires expired) ran)
  have done : (c.eval t e).1 = .ok o := eval_eq_ok_iff.mpr ⟨⟨going, live⟩, result⟩
  obtain ⟨-, es', _, _, -, own', ran'⟩ := c.ends_eval t e
  rw [done] at own'
  have same := (e.behaviour_steady t c.policy es es' o o own own').2
  have defects := Shared.defects_of_run? ran
  have defects' := Shared.defects_of_run? ran'
  refine ⟨done, ?_⟩
  simp only at defects defects'
  rw [defects, defects']
  exact c.state.defects.logAll_perm (same.filterMap _)

end LayeredTable
