import LayeredTable.Proofs.Expr.Failure
import LayeredTable.Proofs.Expr.Trace

/-! What an evaluation comes to, whatever turns its workers take. -/
namespace LayeredTable

/-- Whether a trace shows why its worker was stopped by such an error. -/
def Stopped (policy : Policy) (es : List Event) (err : ExprError) : Prop :=
  err = .cancelled ∧ .flag true ∈ es ∨
    err = .deadlineExceeded ∧ policy.limit.isSome ∧ .raise ∈ es

/-- Whether a worker failed because it was stopped, and raised the flag only for a deadline. -/
def Halted (policy : Policy) (es : List Event) (r : Except ExprError α) : Prop :=
  ∃ err, r = .error err ∧ Stopped policy es err ∧ (policy.limit = none → .raise ∉ es)

/-- Whether a worker that does not halt succeeds and leaves the flag alone. -/
def Behaviour.Plain (policy : Policy) (b : Behaviour α) : Prop :=
  ∀ es r, b es r → Halted policy es r ∨ (∃ v, r = .ok v) ∧ Quiet es

section Ends

variable {t : Tree} {policy : Policy} {es es' front back : List Event} {err : ExprError}
  {o c a b : Outcome} {op : BinaryOp} {left right : Operand}

theorem Stopped.mono (stopped : Stopped policy es err) (kept : es ⊆ es') :
    Stopped policy es' err := by
  rcases stopped with ⟨rfl, seen⟩ | ⟨rfl, limited, raised⟩
  · exact .inl ⟨rfl, kept seen⟩
  · exact .inr ⟨rfl, limited, kept raised⟩

theorem Quiet.nil : Quiet [] := ⟨List.not_mem_nil, List.not_mem_nil⟩

theorem Halted.after {α : Type} {r : Except ExprError α} (halted : Halted policy back r)
    (quiet : Quiet front) : Halted policy (front ++ back) r := by
  obtain ⟨err, rfl, stopped, calm⟩ := halted
  refine ⟨err, rfl, stopped.mono (List.subset_append_right _ _), fun unlimited => ?_⟩
  simp [quiet.2, calm unlimited]

namespace Behaviour

variable {α β : Type} {step : Behaviour α} {next : α → Behaviour β}

theorem ask_bind_iff {question : Bool → Event} {next : Bool → Behaviour α}
    {r : Except ExprError α} :
    (ask question >>= next) es r ↔
      ∃ answer rest, es = question answer :: rest ∧ next answer rest r := by
  constructor
  · rintro (⟨err, ⟨_, -, ⟨⟩⟩, -⟩ | ⟨front, rest, answer, ⟨answer, rfl, ⟨⟩⟩, ends, rfl⟩)
    exact ⟨answer, rest, rfl, ends⟩
  · rintro ⟨answer, rest, rfl, ends⟩
    exact .inr ⟨[question answer], rest, answer, ⟨answer, rfl, rfl⟩, ends, rfl⟩

theorem emit_bind_iff {events : List Event} {next : Unit → Behaviour α}
    {r : Except ExprError α} :
    (emit events >>= next) es r ↔ ∃ rest, es = events ++ rest ∧ next () rest r := by
  constructor
  · rintro (⟨err, ⟨-, ⟨⟩⟩, -⟩ | ⟨front, rest, ⟨⟩, ⟨rfl, -⟩, ends, rfl⟩)
    exact ⟨rest, rfl, ends⟩
  · rintro ⟨rest, rfl, ends⟩
    exact .inr ⟨events, rest, (), ⟨rfl, rfl⟩, ends, rfl⟩

/-- At a checkpoint a worker sees the flag up, or passes, or finds that the deadline has passed. -/
theorem checkpoint_iff {r : Except ExprError Unit} :
    checkpoint policy es r ↔
      es = [.flag true] ∧ r = .error .cancelled ∨
      (es = .flag false :: if policy.limit.isSome then [.clock false] else []) ∧ r = .ok () ∨
      policy.limit.isSome ∧ es = [.flag false, .clock true, .raise] ∧
        r = .error .deadlineExceeded := by
  have up {rest : List Event} :
      (ofExcept (.error .cancelled) : Behaviour Unit) rest r ↔
        rest = [] ∧ r = .error .cancelled := Iff.rfl
  have passes {rest : List Event} :
      (pure () : Behaviour Unit) rest r ↔ rest = [] ∧ r = .ok () := Iff.rfl
  have late {rest : List Event} :
      (do emit [.raise]; ofExcept (.error .deadlineExceeded) : Behaviour Unit) rest r ↔
        rest = [.raise] ∧ r = .error .deadlineExceeded := by
    rw [emit_bind_iff]
    constructor
    · rintro ⟨rest, rfl, rfl, rfl⟩
      exact ⟨rfl, rfl⟩
    · rintro ⟨rfl, rfl⟩
      exact ⟨[], rfl, rfl, rfl⟩
  rw [checkpoint, ask_bind_iff]
  cases limited : policy.limit.isSome with
  | true =>
    simp [Bool.exists_bool, ask_bind_iff, up, passes, late, and_or_left, exists_or, or_comm]
  | false => simp [Bool.exists_bool, up, passes, or_comm]

theorem checkpoint_passed (passed : checkpoint policy es (.ok ())) :
    es = .flag false :: if policy.limit.isSome then [.clock false] else [] := by
  rcases checkpoint_iff.mp passed with ⟨-, ⟨⟩⟩ | ⟨rfl, -⟩ | ⟨-, -, ⟨⟩⟩
  rfl

theorem Plain.quiet {v : α} (plain : Plain policy step) (done : step es (.ok v)) : Quiet es := by
  obtain ⟨_, ⟨⟩, -⟩ | ⟨-, quiet⟩ := plain es _ done
  exact quiet

theorem Plain.halted (plain : Plain policy step) (failed : step es (.error err)) :
    Halted policy es (.error err : Except ExprError β) := by
  obtain ⟨_, ⟨⟩, halted⟩ | ⟨⟨_, ⟨⟩⟩, -⟩ := plain es _ failed
  exact ⟨err, rfl, halted⟩

theorem Plain.pure (v : α) : Plain policy (Pure.pure v) := by
  rintro es r ⟨rfl, rfl⟩
  exact .inr ⟨⟨v, rfl⟩, Quiet.nil⟩

theorem Plain.bind (first : Plain policy step) (others : ∀ v, Plain policy (next v)) :
    Plain policy (step >>= next) := by
  rintro es r (⟨err, failed, rfl⟩ | ⟨front, back, v, done, ends, rfl⟩)
  · exact .inl (first.halted failed)
  · rcases others v back r ends with halted | ⟨succeeds, rest⟩
    · exact .inl (halted.after (first.quiet done))
    · exact .inr ⟨succeeds, (first.quiet done).append rest⟩

theorem Plain.emit (quiet : Quiet es) : Plain policy (emit es) := by
  rintro es r ⟨rfl, rfl⟩
  exact .inr ⟨⟨(), rfl⟩, quiet⟩

theorem Plain.checkpoint (policy : Policy) : Plain policy (checkpoint policy) := by
  intro es r ends
  rcases checkpoint_iff.mp ends with ⟨rfl, rfl⟩ | ⟨rfl, rfl⟩ | ⟨limited, rfl, rfl⟩
  · exact .inl ⟨_, rfl, .inl ⟨rfl, by simp⟩, fun _ => by simp⟩
  · refine .inr ⟨⟨(), rfl⟩, ?_⟩
    split <;> simp [Quiet]
  · refine .inl ⟨_, rfl, .inr ⟨rfl, limited, by simp⟩, fun unlimited => ?_⟩
    simp [unlimited] at limited

theorem Plain.recordRows (policy : Policy) (ds : List Defect) :
    Plain policy (recordRows policy ds) := by
  rw [Behaviour.recordRows]
  split
  · exact .emit (by simp [Quiet])
  · exact .pure _

theorem Plain.scanRows (policy : Policy) (n : Nat) (ds : List (Option Defect)) :
    Plain policy (scanRows policy n ds) := by
  induction ds generalizing n with
  | nil => exact .pure _
  | cons d ds ih =>
    rw [Behaviour.scanRows]
    have rest : Plain policy (do
        Behaviour.recordRows policy d.toList
        Behaviour.scanRows policy (n + 1) ds) :=
      .bind (.recordRows policy _) fun _ => ih (n + 1)
    split
    · exact .bind (.checkpoint policy) fun _ => rest
    · exact rest

theorem select_of_choose {r : Except ExprError Outcome} (ends : choose policy c a b es r) :
    r = Outcome.select c a b ∧ Quiet es := by
  rcases ends with ⟨err, ⟨rfl, refused⟩, rfl⟩ | ⟨front, back, ⟨⟩, ⟨rfl, boolean⟩, ends, rfl⟩
  · rw [Outcome.select, ← refused]
    exact ⟨rfl, Quiet.nil⟩
  · rw [Outcome.select, ← boolean]
    by_cases same : a.type = b.type
    · simp only [ne_eq, same, not_true_eq_false, if_false] at ends ⊢
      rw [Outcome.chosen]
      cases whole : Outcome.wholeBranch? c a b with
      | some branch =>
        simp only [whole] at ends
        obtain ⟨rfl, rfl⟩ := ends
        exact ⟨rfl, Quiet.nil⟩
      | none =>
        simp only [whole] at ends
        have plain := Plain.recordRows policy ((Outcome.chooseRows c a b).filterMap (·.2))
        rcases ends with ⟨err, failed, -⟩ | ⟨front, back, v, recorded, ⟨rfl, rfl⟩, rfl⟩
        · rw [Behaviour.recordRows] at failed
          split at failed <;> cases failed.2
        · rw [List.append_nil, Option.getD_none, same]
          exact ⟨rfl, plain.quiet recorded⟩
    · simp only [ne_eq, same, not_false_eq_true, if_true] at ends ⊢
      rcases ends with ⟨err, ⟨rfl, ⟨⟩⟩, rfl⟩ | ⟨-, -, -, ⟨-, ⟨⟩⟩, -⟩
      exact ⟨rfl, Quiet.nil⟩

/-- A worker is stopped at its first checkpoint or passes it quietly. -/
theorem checkpoint_bind {next : Unit → Behaviour α} {r : Except ExprError α}
    (ends : (checkpoint policy >>= next) es r) :
    Halted policy es r ∨
      ∃ front back, es = front ++ back ∧ Quiet front ∧ next () back r := by
  rcases ends with ⟨err, failed, rfl⟩ | ⟨front, back, ⟨⟩, passed, ends, rfl⟩
  · exact .inl ((Plain.checkpoint policy).halted failed)
  · exact .inr ⟨front, back, rfl, (Plain.checkpoint policy).quiet passed, ends⟩

/-- A worker reads the flag before anything else, and is done when it is up. -/
theorem checkpoint_first {next : Unit → Behaviour α} {r : Except ExprError α}
    (ends : (checkpoint policy >>= next) es r) :
    es = [.flag true] ∧ r = .error .cancelled ∨ ∃ rest, es = .flag false :: rest := by
  rcases ends with ⟨err, failed, rfl⟩ | ⟨front, back, ⟨⟩, passed, -, rfl⟩
  · rcases checkpoint_iff.mp failed with ⟨rfl, ⟨⟩⟩ | ⟨-, ⟨⟩⟩ | ⟨-, rfl, -⟩
    · exact .inl ⟨rfl, rfl⟩
    · exact .inr ⟨_, rfl⟩
  · rw [checkpoint_passed passed]
    exact .inr ⟨_, rfl⟩

/-- A gathering that succeeds is as quiet as the workers were. -/
theorem gather_ok {workers : Fin n → Behaviour α} {results : Fin n → α}
    (ran : gather policy workers es (.ok results)) :
    ∃ traces : Fin n → List Event, (∀ i, workers i (traces i) (.ok (results i))) ∧
      ((∀ i, Quiet (traces i)) → Quiet es) := by
  obtain ⟨done, turns⟩ := ran
  refine ⟨_, done, fun each => ?_⟩
  simp only [Quiet, turns.mem_iff, not_exists]
  exact ⟨fun i => (each i).1, fun i => (each i).2⟩

/-- Where the flag is raised first, without a deadline, a worker raised it first among its own
events, or a worker failed that had not seen it up, and the join delivers that failure. -/
theorem gather_raised {workers : Fin n → Behaviour α} {r : Except ExprError (Fin n → α)}
    (unlimited : policy.limit = none) (ran : gather policy workers es r) (raised : Raised es) :
    ∃ i trace answer, workers i trace answer ∧
      (Raised trace ∨ .flag true ∉ trace ∧ ∃ err, answer = .error err ∧ r = .error err) := by
  obtain ⟨front, back, rfl, unseen⟩ := raised
  cases ran with
  | @all traces results _ done turns =>
    obtain ⟨i, before, later, split, subset⟩ := turns.exists_split
    exact ⟨i, traces i, _, done i, .inl ⟨before, later, split, fun seen => unseen (subset seen)⟩⟩
  | @failed traces i err _ ends first turns =>
    obtain ⟨j, before, later, split, subset⟩ := turns.exists_split
    have unseen' : .flag true ∉ before := fun seen => unseen (subset seen)
    by_cases same : j = i
    · subst same
      rw [if_pos rfl] at split
      rcases List.eq_nil_or_concat later with rfl | ⟨later, last, rfl⟩
      · obtain ⟨rfl, -⟩ := List.append_inj' split rfl
        exact ⟨j, traces j, _, first, .inr ⟨unseen', err, rfl, rfl⟩⟩
      · rw [List.concat_eq_append, ← List.cons_append, ← List.append_assoc] at split
        obtain ⟨own, -⟩ := List.append_inj' split rfl
        exact ⟨j, traces j, _, first, .inl ⟨before, later, own, unseen'⟩⟩
    · rw [if_neg same] at split
      obtain ⟨answer, ends⟩ := ends j
      exact ⟨j, traces j, answer, ends, .inl ⟨before, later, split, unseen'⟩⟩
  | late limited => simp [unlimited] at limited

end Behaviour

namespace Expr

open Behaviour

variable {e : Expr} {k : Nat} {n : Expr} {r : Except ExprError Outcome}

theorem binaryBehaviour_of_scan (scans : ¬ op.AsksHidden right) :
    binaryBehaviour t policy op left right = do
      let scan ← ofExcept (Scan.resolve t op left right)
      scanRows policy 0 ((scan.rows t).map (·.2))
      return scan.outcome t := by
  rw [binaryBehaviour]
  · rintro rfl null
    exact scans ⟨.inl rfl, null⟩
  · rintro rfl null
    exact scans ⟨.inr rfl, null⟩

/-- A comparison or a sum comes to its result, unless it is stopped on its way through the rows. -/
theorem binaryBehaviour_ends (ends : binaryBehaviour t policy op left right es r) :
    Halted policy es r ∨
      r = op.result t left right ∧ Quiet es := by
  by_cases asks : op.AsksHidden right
  · right
    rcases asks with ⟨rfl | rfl, null⟩ <;>
    · simp only [binaryBehaviour, null] at ends
      obtain ⟨rfl, rfl⟩ := ends
      exact ⟨by simp only [BinaryOp.result, null], Quiet.nil⟩
  · rw [binaryBehaviour_of_scan asks] at ends
    rw [BinaryOp.result_of_scan asks]
    rcases ends with ⟨err, ⟨rfl, refused⟩, rfl⟩ | ⟨front, back, scan, ⟨rfl, resolved⟩, ends, rfl⟩
    · rw [← refused]
      exact .inr ⟨rfl, Quiet.nil⟩
    · have plain := Plain.scanRows policy 0 ((scan.rows t).map (·.2))
      rcases ends with ⟨err, stopped, rfl⟩ | ⟨front, back, ⟨⟩, passed, ⟨rfl, rfl⟩, rfl⟩
      · exact .inl (plain.halted stopped)
      · rw [← resolved, List.append_nil]
        exact .inr ⟨rfl, plain.quiet passed⟩

/-- What an expression comes to once its operands have results. -/
def Settles (t : Tree) (e : Expr) : Except ExprError Outcome → Prop
  | .ok o => e.result t = .ok o
  | .error err => e.Raises t err

/-- How an expression works that joins its operands: who does them, and what it makes of their
results. -/
structure Workers (t : Tree) (policy : Policy) (e : Expr) {n : Nat} (operand : Fin n → Expr)
    (finish : (Fin n → Outcome) → Behaviour Outcome) : Prop where
  joins : e.joins = true
  several : 2 ≤ n
  mem_operands : ∀ a, a ∈ e.operands ↔ ∃ i, operand i = a
  behaviour_eq : e.behaviour t policy =
    joining policy (fun i => (operand i).behaviour t policy) finish
  finish_ends : ∀ results es r, (∀ i, (operand i).result t = .ok (results i)) →
    finish results es r → Quiet es ∧ e.Settles t r

theorem exists_workers (t : Tree) (policy : Policy) (joined : e.joins = true) :
    ∃ (n : Nat) (operand : Fin n → Expr) (finish : (Fin n → Outcome) → Behaviour Outcome),
      e.Workers t policy operand finish := by
  cases e with
  | constant | binary | not => cases joined
  | logic op left right =>
    refine ⟨2, ![left, right], fun o => combine op (t.exclusions 0) (o 0) (o 1), rfl, Nat.le_refl 2,
      fun a => ?_, ?_, fun results es r known ends => ?_⟩
    · simp [operands, Fin.exists_fin_two, eq_comm]
    · rw [behaviour]
      congr 1
      exact funext (Fin.forall_fin_two.mpr ⟨rfl, rfl⟩)
    · have first : left.result t = .ok (results 0) := known 0
      have second : right.result t = .ok (results 1) := known 1
      rcases ends with ⟨err, ⟨rfl, refused⟩, rfl⟩ | ⟨front, back, ⟨⟩, ⟨rfl, passed⟩, ends, rfl⟩
      · exact ⟨Quiet.nil, _, _, first, second,
          .inl (Outcome.requireBool_eq_error_iff.mp refused.symm)⟩
      rcases ends with ⟨err, ⟨rfl, refused⟩, rfl⟩ | ⟨front, back, ⟨⟩, ⟨rfl, passed'⟩, ends, rfl⟩
      · exact ⟨Quiet.nil, _, _, first, second, .inr ⟨Outcome.requireBool_ok passed.symm,
          Outcome.requireBool_eq_error_iff.mp refused.symm⟩⟩
      obtain ⟨rfl, rfl⟩ := ends
      refine ⟨Quiet.nil, ?_⟩
      simp only [Settles, result, first, second, bind, Except.bind, ← passed, ← passed', pure,
        Except.pure]
  | choice cond whenTrue otherwise =>
    refine ⟨3, ![cond, whenTrue, otherwise], fun o => choose policy (o 0) (o 1) (o 2), rfl,
      by decide, fun a => ?_, ?_, fun results es r known ends => ?_⟩
    · simp [operands, Fin.exists_fin_succ, eq_comm]
    · rw [behaviour]
      congr 1
      exact funext (forall_fin_three.mpr ⟨rfl, rfl, rfl⟩)
    · have first : cond.result t = .ok (results 0) := known 0
      have second : whenTrue.result t = .ok (results 1) := known 1
      have third : otherwise.result t = .ok (results 2) := known 2
      obtain ⟨rfl, quiet⟩ := select_of_choose ends
      refine ⟨quiet, ?_⟩
      cases selected : Outcome.select (results 0) (results 1) (results 2) with
      | ok o => simp only [Settles, result, first, second, third, bind, Except.bind, selected]
      | error err =>
        exact ⟨_, _, _, first, second, third, Outcome.select_eq_error_iff.mp selected⟩

namespace Workers

variable {size : Nat} {operand : Fin size → Expr}
  {finish : (Fin size → Outcome) → Behaviour Outcome} {i : Fin size}

theorem mem_operand (workers : e.Workers t policy operand finish) (i : Fin size) :
    operand i ∈ e.operands :=
  (workers.mem_operands _).mpr ⟨i, rfl⟩

/-- Parts of an operand lie one level deeper in what joins it. -/
theorem mem_parts (workers : e.Workers t policy operand finish)
    (part : (k, n) ∈ (operand i).parts) : (k + 1, n) ∈ e.parts := by
  have deeper := mem_parts_of_operand (workers.mem_operand i) part
  rwa [workers.joins] at deeper

/-- A join of workers is stopped at its checkpoint, or fails with its operands, or finishes with
their results. -/
theorem ends (workers : e.Workers t policy operand finish) (ran : e.behaviour t policy es r) :
    Halted policy es r ∨
      ∃ front back, es = front ++ back ∧ Quiet front ∧
        ((∃ err, r = .error err ∧
          gather policy (fun i => (operand i).behaviour t policy) back (.error err)) ∨
        ∃ mixed last results, back = mixed ++ last ∧
          gather policy (fun i => (operand i).behaviour t policy) mixed (.ok results) ∧
          finish results last r) := by
  rw [workers.behaviour_eq] at ran
  rcases checkpoint_bind ran with stopped | ⟨front, back, rfl, quiet, ends⟩
  · exact .inl stopped
  · refine .inr ⟨front, back, rfl, quiet, ?_⟩
    rcases ends with ⟨err, failed, rfl⟩ | ⟨mixed, last, results, done, ends, rfl⟩
    · exact .inl ⟨err, rfl, failed⟩
    · exact .inr ⟨mixed, last, results, rfl, done, ends⟩

end Workers

theorem behaviour_first (ends : e.behaviour t policy es r) :
    es = [.flag true] ∧ r = .error .cancelled ∨ ∃ rest, es = .flag false :: rest := by
  cases e <;> exact checkpoint_first ends

theorem behaviour_constant {x : Bool} (ends : (constant x).behaviour t policy es r) :
    Halted policy es r ∨
      r = .ok (.ofBool x) ∧ Quiet es := by
  rcases checkpoint_bind ends with stopped | ⟨front, back, rfl, quiet, rfl, rfl⟩
  · exact .inl stopped
  · rw [List.append_nil]
    exact .inr ⟨rfl, quiet⟩

theorem behaviour_binary (ends : (binary op left right).behaviour t policy es r) :
    Halted policy es r ∨
      r = op.result t left right ∧ Quiet es := by
  rcases checkpoint_bind ends with stopped | ⟨front, back, rfl, quiet, ends⟩
  · exact .inl stopped
  rcases binaryBehaviour_ends ends with halted | ⟨rfl, rest⟩
  · exact .inl (halted.after quiet)
  · exact .inr ⟨rfl, quiet.append rest⟩

theorem behaviour_not {inner : Expr} (ran : (Expr.not inner).behaviour t policy es r) :
    Halted policy es r ∨
      ∃ front back, es = front ++ back ∧ Quiet front ∧
        ((∃ err, r = .error err ∧ inner.behaviour t policy back (.error err)) ∨
        ∃ o, inner.behaviour t policy back (.ok o) ∧
          (o.type = .bool ∧ r = .ok o.negate ∨
            o.type ≠ .bool ∧ r = .error (.notBoolean "not" o.type))) := by
  rcases checkpoint_bind ran with stopped | ⟨front, back, rfl, quiet, rest⟩
  · exact .inl stopped
  refine .inr ⟨front, back, rfl, quiet, ?_⟩
  rcases rest with ⟨err, failed, rfl⟩ | ⟨mid, last, o, done, ends, rfl⟩
  · exact .inl ⟨err, rfl, failed⟩
  rcases ends with ⟨err, ⟨rfl, refused⟩, rfl⟩ | ⟨front, back, ⟨⟩, ⟨rfl, passed⟩, ⟨rfl, rfl⟩, rfl⟩
  · obtain ⟨other, rfl⟩ := Outcome.requireBool_eq_error_iff.mp refused.symm
    rw [List.append_nil]
    exact .inr ⟨o, done, .inr ⟨other, rfl⟩⟩
  · rw [List.append_nil, List.append_nil]
    exact .inr ⟨o, done, .inl ⟨Outcome.requireBool_ok passed.symm, rfl⟩⟩

/-- Whatever turns its workers take, an expression that succeeds comes to its result, and its
workers do not touch the flag. -/
theorem result_of_behaviour (ends : e.behaviour t policy es (.ok o)) :
    e.result t = .ok o ∧ Quiet es := by
  induction e using operands_induction generalizing es o with
  | step e ih =>
    cases joined : e.joins with
    | true =>
      obtain ⟨size, operand, finish, workers⟩ := exists_workers t policy joined
      rcases workers.ends ends with ⟨err, ⟨⟩, -⟩ |
        ⟨front, back, rfl, quiet, ⟨err, ⟨⟩, -⟩ | ⟨mixed, last, results, rfl, gathered, ended⟩⟩
      obtain ⟨traces, done, calm⟩ := gather_ok gathered
      have each (i) := ih (operand i) (workers.mem_operand i) (done i)
      obtain ⟨rest, known⟩ := workers.finish_ends results last _ (fun i => (each i).1) ended
      exact ⟨known, quiet.append ((calm fun i => (each i).2).append rest)⟩
    | false =>
      cases e with
      | logic | choice => cases joined
      | constant x =>
        rcases behaviour_constant ends with ⟨err, ⟨⟩, -⟩ | ⟨⟨⟩, quiet⟩
        exact ⟨rfl, quiet⟩
      | binary op left right =>
        rcases behaviour_binary ends with ⟨err, ⟨⟩, -⟩ | ⟨known, quiet⟩
        exact ⟨known.symm, quiet⟩
      | not inner =>
        rcases behaviour_not ends with ⟨err, ⟨⟩, -⟩ |
          ⟨front, back, rfl, quiet, ⟨err, ⟨⟩, -⟩ | ⟨o', done, ⟨boolean, ⟨⟩⟩ | ⟨-, ⟨⟩⟩⟩⟩
        obtain ⟨first, rest⟩ := ih inner List.mem_cons_self done
        have passed : o'.requireBool "not" = .ok () := Outcome.requireBool_of_bool boolean
        refine ⟨?_, quiet.append rest⟩
        simp [result, first, passed, bind, Except.bind, pure, Except.pure]

/-- How the course of an evaluation looks from above: it is halted, or passes on the failure of its
only operand or of the join of its operands, or settles once it has their results. -/
inductive Course (t : Tree) (policy : Policy) (e : Expr) :
    List Event → Except ExprError Outcome → Prop
  | halted {es : List Event} {r : Except ExprError Outcome} (halted : Halted policy es r) :
      Course t policy e es r
  | operand {front back : List Event} {a : Expr} {err : ExprError} (quiet : Quiet front)
      (alone : e.joins = false) (member : a ∈ e.operands)
      (failed : a.behaviour t policy back (.error err)) :
      Course t policy e (front ++ back) (.error err)
  | gathered {front back : List Event} {err : ExprError} {n : Nat} {operand : Fin n → Expr}
      {finish : (Fin n → Outcome) → Behaviour Outcome} (quiet : Quiet front)
      (workers : e.Workers t policy operand finish)
      (failed : gather policy (fun i => (operand i).behaviour t policy) back (.error err)) :
      Course t policy e (front ++ back) (.error err)
  | settled {es : List Event} {r : Except ExprError Outcome} (quiet : Quiet es)
      (settles : e.Settles t r) : Course t policy e es r

theorem behaviour_course (ran : e.behaviour t policy es r) : Course t policy e es r := by
  cases joined : e.joins with
  | true =>
    obtain ⟨size, operand, finish, workers⟩ := exists_workers t policy joined
    rcases workers.ends ran with halted |
      ⟨front, back, rfl, quiet, ⟨err, rfl, failed⟩ | ⟨mixed, last, results, rfl, gathered, ended⟩⟩
    · exact .halted halted
    · exact .gathered quiet workers failed
    · obtain ⟨traces, done, calm⟩ := gather_ok gathered
      have each (i) := result_of_behaviour (done i)
      obtain ⟨rest, settles⟩ := workers.finish_ends results last r (fun i => (each i).1) ended
      exact .settled (quiet.append ((calm fun i => (each i).2).append rest)) settles
  | false =>
    cases e with
    | logic | choice => cases joined
    | constant x =>
      rcases behaviour_constant ran with halted | ⟨rfl, quiet⟩
      · exact .halted halted
      · exact .settled quiet rfl
    | binary op left right =>
      rcases behaviour_binary ran with halted | ⟨known, quiet⟩
      · exact .halted halted
      · refine .settled quiet ?_
        cases r with
        | ok o => exact known.symm
        | error err => exact known.symm
    | not inner =>
      rcases behaviour_not ran with halted |
        ⟨front, back, rfl, quiet, ⟨err, rfl, failed⟩ | ⟨o, done, ends⟩⟩
      · exact .halted halted
      · exact .operand quiet rfl List.mem_cons_self failed
      · obtain ⟨first, rest⟩ := result_of_behaviour done
        refine .settled (quiet.append rest) ?_
        rcases ends with ⟨boolean, rfl⟩ | ⟨other, rfl⟩
        · have passed : o.requireBool "not" = .ok () := Outcome.requireBool_of_bool boolean
          simp [Settles, result, first, passed, bind, Except.bind, pure, Except.pure]
        · exact ⟨o, first, other, rfl⟩

/-- Parts of an only operand lie no deeper in what it belongs to. -/
theorem mem_parts_of_only {a : Expr} (alone : e.joins = false) (member : a ∈ e.operands)
    (part : (k, n) ∈ a.parts) : (k, n) ∈ e.parts := by
  have deeper := mem_parts_of_operand member part
  rwa [alone] at deeper

/-- An evaluation that fails was stopped, or delivers the error that a part raises. When that part
lies in an operand of logic or of a choice, the flag has been raised. -/
theorem behaviour_error (ends : e.behaviour t policy es (.error err)) :
    Stopped policy es err ∨
      ∃ k n, (k, n) ∈ e.parts ∧ n.Raises t err ∧ (k ≠ 0 → .raise ∈ es) := by
  induction e using operands_induction generalizing es err with
  | step e ih =>
    cases behaviour_course ends with
    | halted halted =>
      obtain ⟨_, ⟨⟩, stopped, -⟩ := halted
      exact .inl stopped
    | operand quiet alone member failed =>
      rcases ih _ member failed with stopped | ⟨k, n, part, raises, raised⟩
      · exact .inl (stopped.mono (List.subset_append_right _ _))
      · exact .inr ⟨k, n, mem_parts_of_only alone member part, raises, fun deep =>
          List.mem_append_right _ (raised deep)⟩
    | @gathered front back _ size operand finish quiet workers failed =>
      cases failed with
      | @failed traces i _ _ others first turns =>
        have own : ∀ x ∈ traces i ++ [.raise], x ∈ front ++ back := fun x member =>
          List.mem_append_right _ (turns.mem_iff.mpr ⟨i, by rwa [if_pos rfl]⟩)
        rcases ih (operand i) (workers.mem_operand i) first with stopped | ⟨k, n, part, raises, -⟩
        · exact .inl (stopped.mono fun x member => own x (List.mem_append_left _ member))
        · exact .inr ⟨k + 1, n, workers.mem_parts part, raises, fun _ => own _ (by simp)⟩
      | @late traces _ limited others turns =>
        have raised : .raise ∈ back := turns.mem_iff.mpr ⟨none, by simp⟩
        exact .inl (.inr ⟨rfl, limited, List.mem_append_right _ raised⟩)
    | settled _ raises => exact .inr ⟨0, e, e.mem_parts_self, raises, fun deep => absurd rfl deep⟩

/-- The error of a part within an operand of logic or of a choice is not delivered before the flag
has been raised. -/
theorem raise_mem_of_error (ends : e.behaviour t policy es (.error err)) (part : (k, n) ∈ e.parts)
    (raises : n.Raises t err) (deep : k ≠ 0) : .raise ∈ es := by
  rcases behaviour_error ends with (⟨rfl, -⟩ | ⟨rfl, -⟩) | ⟨k', n', part', raises', raised⟩
  · exact absurd rfl raises.genuine.1
  · exact absurd rfl raises.genuine.2
  · exact raised fun top => deep ((same_side part raises part' raises').mpr top)

/-- Without a deadline, an error of a worker that did not see the flag up is raised by a part. -/
theorem exists_raises_of_unseen (unlimited : policy.limit = none)
    (ends : e.behaviour t policy es (.error err)) (unseen : .flag true ∉ es) :
    ∃ k n, (k, n) ∈ e.parts ∧ n.Raises t err := by
  rcases behaviour_error ends with (⟨-, seen⟩ | ⟨-, limited, -⟩) | ⟨k, n, part, raises, -⟩
  · exact absurd seen unseen
  · simp [unlimited] at limited
  · exact ⟨k, n, part, raises⟩

/-- Without a deadline, the flag is raised first for a part that raises an error within an operand
of logic or of a choice. -/
theorem exists_raises_of_raised (unlimited : policy.limit = none)
    (ends : e.behaviour t policy es r) (raised : Raised es) :
    ∃ k n err, (k, n) ∈ e.parts ∧ k ≠ 0 ∧ n.Raises t err := by
  induction e using operands_induction generalizing es r with
  | step e ih =>
    cases behaviour_course ends with
    | halted halted =>
      obtain ⟨_, rfl, -, calm⟩ := halted
      exact absurd raised.mem (calm unlimited)
    | operand quiet alone member failed =>
      obtain ⟨k, n, err, part, deep, raises⟩ := ih _ member failed (raised.of_append quiet.2)
      exact ⟨k, n, err, mem_parts_of_only alone member part, deep, raises⟩
    | @gathered _ _ _ _ operand _ quiet workers failed =>
      obtain ⟨i, trace, answer, own, raised | ⟨unseen, err, rfl, -⟩⟩ :=
        gather_raised unlimited failed (raised.of_append quiet.2)
      · obtain ⟨k, n, err, part, -, raises⟩ := ih (operand i) (workers.mem_operand i) own raised
        exact ⟨k + 1, n, err, workers.mem_parts part, Nat.succ_ne_zero k, raises⟩
      · obtain ⟨k, n, part, raises⟩ := exists_raises_of_unseen unlimited own unseen
        exact ⟨k + 1, n, err, workers.mem_parts part, Nat.succ_ne_zero k, raises⟩
    | settled quiet _ => exact absurd raised.mem quiet.2

/-- Without a deadline and from a flag that is down, `cancelled` is delivered only where an error is
raised within two operands, one in the other: the inner one has raised the flag before the outer
one is done with it. -/
theorem exists_raises_of_cancelled (unlimited : policy.limit = none)
    (ends : e.behaviour t policy es (.error .cancelled)) (raised : Raised es) :
    ∃ k n err, (k, n) ∈ e.parts ∧ 2 ≤ k ∧ n.Raises t err := by
  induction e using operands_induction generalizing es with
  | step e ih =>
    cases behaviour_course ends with
    | halted halted =>
      obtain ⟨_, -, -, calm⟩ := halted
      exact absurd raised.mem (calm unlimited)
    | operand quiet alone member failed =>
      obtain ⟨k, n, err, part, deep, raises⟩ := ih _ member failed (raised.of_append quiet.2)
      exact ⟨k, n, err, mem_parts_of_only alone member part, deep, raises⟩
    | gathered quiet workers failed =>
      obtain ⟨i, trace, answer, own, raised | ⟨unseen, _, rfl, ⟨⟩⟩⟩ :=
        gather_raised unlimited failed (raised.of_append quiet.2)
      · obtain ⟨k, n, err, part, deep, raises⟩ := exists_raises_of_raised unlimited own raised
        exact ⟨k + 1, n, err, workers.mem_parts part, by omega, raises⟩
      · obtain ⟨k, n, part, raises⟩ := exists_raises_of_unseen unlimited own unseen
        exact absurd rfl raises.genuine.1
    | settled quiet _ => exact absurd raised.mem quiet.2

end Expr

end Ends
end LayeredTable
