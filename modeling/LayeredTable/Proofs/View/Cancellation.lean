import LayeredTable.Proofs.Expr.Ends
import LayeredTable.Proofs.View.Build

/-! What a failure does to the context it happens in. A context whose flag is up evaluates nothing
any more, neither by itself nor for the predicate of a view. The flag goes up when a part fails that
lies in an operand of logic or of a choice, and not when the failing part is reached through
negations alone. -/
namespace LayeredTable

inductive Use
  | evaluate (t : Tree) (e : Expr)
  | build (t : Tree) (p : ViewPlan)
  deriving DecidableEq, Repr

/-- Whether a use comes to evaluate anything. A view does so when it knows its node, selects a
column and has a predicate. -/
def Use.Evaluates : Use → Prop
  | evaluate _ _ => True
  | build _ p => p.source ≠ none ∧ p.names ≠ [] ∧ p.filter ≠ none

/-- Why a use is refused, if it is, and the context that it leaves behind. -/
def EvalContext.use (c : EvalContext) : Use → Option ViewError × EvalContext
  | .evaluate t e =>
    match e.eval t c.policy c.state with
    | .ok _ state => (none, { c with state })
    | .error err state => (some (.expr err), { c with state })
  | .build t p =>
    match p.build c.policy ⟨t, c.state⟩ with
    | .ok _ s => (none, { c with state := s.eval })
    | .error err s => (some err, { c with state := s.eval })

namespace ViewPlan

variable {t : Tree} {root c : Nat} {columns : List Nat} {rows : Option RowValues} {policy : Policy}
  {p : ViewPlan} {eval : EvalState} {layer : LayerHandle}

/-- Showing columns evaluates nothing, whether it succeeds or not. -/
theorem showColumn_keeps (layer : LayerHandle) (rows : Option RowValues) (c : Nat) (t : Tree)
    (eval : EvalState) :
    (∃ e, showColumn layer rows c ⟨t, eval⟩ = .error e ⟨t, eval⟩) ∨
      ∃ u, showColumn layer rows c ⟨t, eval⟩ = .ok () ⟨u, eval⟩ := by
  rw [showColumn, get_bind]
  simp only
  cases written : t.layerToggle layer (columnId t c) false with
  | error e =>
    rw [columnId] at written
    rw [written]
    exact .inl ⟨.tree e, by cases rows <;> rfl⟩
  | ok u =>
    rw [columnId] at written
    rw [written]
    cases rows with
    | none => exact .inr ⟨u, rfl⟩
    | some values => exact .inr ⟨reveal values c u, rfl⟩

theorem showColumns_keeps (layer : LayerHandle) (rows : Option RowValues) (columns : List Nat)
    (t : Tree) (eval : EvalState) :
    (∃ e u, forM columns (showColumn layer rows) ⟨t, eval⟩ = .error e ⟨u, eval⟩) ∨
      ∃ u, forM columns (showColumn layer rows) ⟨t, eval⟩ = .ok () ⟨u, eval⟩ := by
  induction columns generalizing t with
  | nil => exact .inr ⟨t, rfl⟩
  | cons c columns ih =>
    rw [List.forM_cons]
    rcases showColumn_keeps layer rows c t eval with ⟨e, failed⟩ | ⟨u, done⟩
    · rw [bind_of_error failed]
      exact .inl ⟨e, t, rfl⟩
    · rw [bind_of_ok done]
      exact ih u

/-- A view that would evaluate its predicate is refused once the flag is up, and no view changes
the state of the evaluation then. -/
theorem build_of_cancelled (cancelled : eval.cancelled = true) (policy : Policy) (p : ViewPlan)
    (t : Tree) :
    (p.source ≠ none ∧ p.names ≠ [] ∧ p.filter ≠ none →
      ∃ s, p.build policy ⟨t, eval⟩ = .error (.expr .cancelled) s) ∧
    ((∃ e u, p.build policy ⟨t, eval⟩ = .error e ⟨u, eval⟩) ∨
      ∃ v u, p.build policy ⟨t, eval⟩ = .ok v ⟨u, eval⟩) := by
  cases source : p.source with
  | none =>
    have refused : p.build policy ⟨t, eval⟩ = .error .missingFrom ⟨t, eval⟩ := by
      simp [build, source]
      rfl
    exact ⟨fun evaluates => absurd rfl evaluates.1, .inl ⟨_, t, refused⟩⟩
  | some root =>
    by_cases unnamed : p.names = []
    · have refused : p.build policy ⟨t, eval⟩ = .error .noSelection ⟨t, eval⟩ := by
        simp [build, source, unnamed]
        rfl
      exact ⟨fun evaluates => absurd unnamed evaluates.2.1, .inl ⟨_, t, refused⟩⟩
    · rw [build_eq source unnamed]
      cases filter : p.filter with
      | some e =>
        have refused : accepted policy (some e) ⟨t, eval⟩ =
            .error (.expr .cancelled) ⟨t, eval⟩ := by
          simp only [accepted, e.eval_of_cancelled cancelled]
        rw [bind_of_error refused]
        exact ⟨fun _ => ⟨_, rfl⟩, .inl ⟨_, t, rfl⟩⟩
      | none =>
        have passed : accepted policy none ⟨t, eval⟩ = .ok none ⟨t, eval⟩ := rfl
        refine ⟨fun evaluates => absurd rfl evaluates.2.2, ?_⟩
        rw [bind_of_ok passed, get_bind]
        cases findColumns t root p.names with
        | error e => exact .inl ⟨e, t, rfl⟩
        | ok columns =>
          rcases showColumns_keeps (t.fork root).1 none columns (t.fork root).2 eval with
            ⟨e, u, failed⟩ | ⟨u, done⟩
          · simp only
            rw [modify_bind, List.forM_eq_forM, bind_of_error failed]
            exact .inl ⟨e, u, rfl⟩
          · simp only
            rw [modify_bind, List.forM_eq_forM, bind_of_ok done]
            exact .inr ⟨_, u, rfl⟩

end ViewPlan

namespace EvalContext

variable {c : EvalContext}

/-- A cancelled context stays as it is, records included, and every use of it that would evaluate
anything is refused. -/
theorem use_of_cancelled (cancelled : c.state.cancelled = true) (use : Use) :
    (c.use use).2 = c ∧ (use.Evaluates → (c.use use).1 = some (.expr .cancelled)) := by
  cases use with
  | evaluate t e => simp [EvalContext.use, e.eval_of_cancelled cancelled]
  | build t p =>
    obtain ⟨refused, kept⟩ := ViewPlan.build_of_cancelled cancelled c.policy p t
    constructor
    · rcases kept with ⟨e, u, failed⟩ | ⟨v, u, built⟩
      · simp [EvalContext.use, failed]
      · simp [EvalContext.use, built]
    · intro evaluates
      obtain ⟨s, failed⟩ := refused evaluates
      simp [EvalContext.use, failed]

theorem foldl_use_of_cancelled (cancelled : c.state.cancelled = true) (uses : List Use) :
    uses.foldl (fun c use => (c.use use).2) c = c := by
  induction uses with
  | nil => rfl
  | cons use uses ih => rw [List.foldl_cons, (use_of_cancelled cancelled use).1, ih]

/-- Evaluation in a strict context, whatever turns its workers take. A cancelled context refuses and
stays as it is, and success leaves the flag down. From a context with the flag down, an evaluation
can fail with the error of each part that raises one, and with `cancelled` if one of these parts
lies within two operands of logic or of choices, one in the other; it fails with nothing else.
Wherever a part raises an error, the flag is up after the failure just if that part lies in an
operand of logic or of a choice. From then on, whatever else is done with the context, nothing is
evaluated in it any more. -/
theorem ends_strict (strict : c.policy.mode = .strict) (t : Tree) (e : Expr) :
    (c.state.cancelled = true → ∀ r after, c.Ends t e r after ↔ r = .error .cancelled ∧ after = c) ∧
    (∀ o after, c.Ends t e (.ok o) after → after.state.cancelled = false) ∧
    (c.state.cancelled = false → ∀ err,
      ((∃ after, c.Ends t e (.error err) after) ↔
        (∃ k n, (k, n) ∈ e.parts ∧ n.Raises t err) ∨
          err = .cancelled ∧ ∃ k n err', (k, n) ∈ e.parts ∧ 2 ≤ k ∧ n.Raises t err') ∧
      ∀ after, c.Ends t e (.error err) after → ∀ k n err', (k, n) ∈ e.parts → n.Raises t err' →
        (after.state.cancelled = true ↔ k ≠ 0)) ∧
    (∀ err after, c.Ends t e (.error err) after → after.state.cancelled = true →
      (∀ t' e' r after', after.Ends t' e' r after' ↔ r = .error .cancelled ∧ after' = after) ∧
      ∀ (uses : List Use) (use : Use), use.Evaluates →
        ((uses.foldl (fun c use => (c.use use).2) after).use use).1 = some (.expr .cancelled)) := by
  have unlimited : c.policy.limit = none := by rw [Policy.limit, strict]
  refine ⟨fun cancelled r after => ends_of_cancelled cancelled, fun o after => live_of_ends,
    fun live err => ⟨exists_ends_error_iff unlimited live, fun after ends k n err' part raises =>
      cancelled_of_ends unlimited live ends part raises⟩, fun err after _ up => ⟨?_, ?_⟩⟩
  · intro t' e' r after'
    exact ends_of_cancelled up
  · intro uses use evaluates
    rw [foldl_use_of_cancelled up]
    exact (use_of_cancelled up use).2 evaluates

/-- A sum that is not allowed lies in an operand of an operand. Its error can be delivered, and so
can `cancelled`; in either case the context is of no use afterwards. -/
theorem ends_strict_nested_failure :
    let t := ((Session.start (.new ⟨0⟩)).run [.add 0 (.column 1 "a" .text {}) false]).tree
    let refused : Expr := .binary .subtract (.column 1) (.column 1)
    let e : Expr := .logic .and (.logic .and refused (.constant true)) (.constant true)
    let c : EvalContext := {}
    (∃ after, c.Ends t e (.error (.resolve (.notAllowed .text .text))) after) ∧
    ∃ after, c.Ends t e (.error .cancelled) after ∧ after.state.cancelled = true ∧
      (after.use (.evaluate t (.constant true))).1 = some (.expr .cancelled) := by
  intro t refused e c
  obtain ⟨-, -, fails, later⟩ := ends_strict (c := c) rfl t e
  have part : (2, refused) ∈ e.parts := by decide
  have raises : refused.Raises t (.resolve (.notAllowed .text .text)) := rfl
  refine ⟨(fails rfl _).1.mpr (.inl ⟨2, refused, part, raises⟩), ?_⟩
  obtain ⟨after, ends⟩ :=
    (fails rfl .cancelled).1.mpr (.inr ⟨rfl, 2, refused, _, part, Nat.le_refl 2, raises⟩)
  have up : after.state.cancelled = true :=
    ((fails rfl _).2 after ends 2 refused _ part raises).mpr (by decide)
  exact ⟨after, ends, up, (later _ after ends up).2 [] _ trivial⟩

/-- Nobody cancels this evaluation, and no part of its expression raises `cancelled`. Still that is
what it comes to: one comparison is stopped when the sum beside the other one is refused. -/
theorem ends_cancelled_by_sibling :
    let t := ((Session.start (.new ⟨0⟩)).run [.add 0 (.column 1 "S" .text {}) false,
      .add 0 (.column 2 "A" (.integer .int64) {}) false]).tree
    let above : Expr := .binary .gt (.column 2) (.ofValue (.integer .int64 1 (by decide)))
    let e : Expr :=
      .logic .and (.logic .and (.binary .subtract (.column 1) (.column 1)) above) above
    let c : EvalContext := {}
    c.policy.mode = .strict ∧ c.state.cancelled = false ∧
      (∃ after, c.Ends t e (.error .cancelled) after) ∧
      ∀ k n, (k, n) ∈ e.parts → ¬ n.Raises t .cancelled := by
  intro t above e c
  have stopped : (c.eval t e).1 = .error .cancelled := rfl
  refine ⟨rfl, rfl, ⟨_, stopped ▸ c.ends_eval t e⟩, fun k n _ raises => ?_⟩
  exact raises.genuine.1 rfl

end EvalContext
end LayeredTable
