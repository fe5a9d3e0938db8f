import Mathlib.Data.Fin.VecNotation
import LayeredTable.Expr.Eval

/-! What evaluations can do when the operands of logic and of choice work side by side. All workers
share one cancel flag, one clock and one log. What a worker does to these, or learns of them, is its
trace, and the workers of a join mix their traces in any way. An evaluation can take such a course
if the shared state answers what was asked of it, event after event. -/
namespace LayeredTable

/-- A reading of the cancel flag or of the clock, or a change that other workers can see. -/
inductive Event
  | flag (up : Bool)
  | clock (late : Bool)
  | raise
  | record (d : Defect)
  deriving DecidableEq, Repr

structure Shared extends EvalState where
  late : Bool
  deriving DecidableEq, Repr

namespace Shared

/-- The flag is read as it is. Between two events any time can pass, so the clock may show that the
deadline has passed, and does so from then on. -/
def step? (s : Shared) : Event → Option Shared
  | .flag up => if up = s.cancelled then some s else none
  | .clock late => if s.late && !late then none else some { s with late }
  | .raise => some { s with cancelled := true }
  | .record d => some { s with defects := s.defects.log d }

def run? (s : Shared) (es : List Event) : Option Shared := es.foldlM step? s

end Shared

/-- Whether a list consists of other lists whose elements take turns, each list in its own order. -/
def Interleaves [DecidableEq ι] (traces : ι → List α) (es : List α) : Prop :=
  ∃ turns : List (ι × α), turns.map (·.2) = es ∧
    ∀ i, (turns.filter (·.1 = i)).map (·.2) = traces i

/-- The traces that a worker can leave, each with the answer that it then comes to. -/
def Behaviour (α : Type) : Type := List Event → Except ExprError α → Prop

namespace Behaviour

instance : Monad Behaviour where
  pure a := fun es r => es = [] ∧ r = .ok a
  bind b next := fun es r =>
    (∃ e, b es (.error e) ∧ r = .error e) ∨
      ∃ front back a, b front (.ok a) ∧ next a back r ∧ es = front ++ back

def ofExcept (x : Except ExprError α) : Behaviour α := fun es r => es = [] ∧ r = x

def emit (events : List Event) : Behaviour Unit := fun es r => es = events ∧ r = .ok ()

def ask (question : Bool → Event) : Behaviour Bool := fun es r =>
  ∃ answer, es = [question answer] ∧ r = .ok answer

/-- As `Eval.checkpoint`, by a clock that goes on. -/
def checkpoint (policy : Policy) : Behaviour Unit := do
  if ← ask .flag then
    ofExcept (.error .cancelled)
  else if policy.limit.isSome then
    if ← ask .clock then
      emit [.raise]
      ofExcept (.error .deadlineExceeded)

def recordRows (policy : Policy) (ds : List Defect) : Behaviour Unit :=
  if policy.recordRowDefects then emit (ds.map .record) else return ()

def stride : Nat := 256

/-- Goes through the rows of a scan from the `n`-th on, of which each may have a defect. -/
def scanRows (policy : Policy) : Nat → List (Option Defect) → Behaviour Unit
  | _, [] => return ()
  | n, d :: ds => do
    if n % stride = 0 then checkpoint policy
    recordRows policy d.toList
    scanRows policy (n + 1) ds

/-- How a join of workers ends. All come to their ends in any case. The join takes their results
if there are only results, and otherwise the first error that it receives, whichever that is. It
raises the flag some time after the worker with that error is done. It also gives up, at any time,
when the deadline has passed. -/
inductive Gathers (policy : Policy) (workers : Fin n → Behaviour α) :
    List Event → Except ExprError (Fin n → α) → Prop
  | all {traces : Fin n → List Event} {results es}
      (done : ∀ i, workers i (traces i) (.ok (results i)))
      (mixed : Interleaves traces es) : Gathers policy workers es (.ok results)
  | failed {traces : Fin n → List Event} {i err es} (ends : ∀ j, ∃ r, workers j (traces j) r)
      (first : workers i (traces i) (.error err))
      (mixed : Interleaves (fun j => if j = i then traces j ++ [.raise] else traces j) es) :
      Gathers policy workers es (.error err)
  | late {traces : Fin n → List Event} {es} (limited : policy.limit.isSome)
      (ends : ∀ j, ∃ r, workers j (traces j) r)
      (mixed : Interleaves (fun j : Option (Fin n) => j.elim [.clock true, .raise] traces) es) :
      Gathers policy workers es (.error .deadlineExceeded)

def gather (policy : Policy) (workers : Fin n → Behaviour α) : Behaviour (Fin n → α) :=
  Gathers policy workers

def combine (op : Logic) (excluded : Exclusions) (l r : Outcome) : Behaviour Outcome := do
  ofExcept (l.requireBool op.name)
  ofExcept (r.requireBool op.name)
  return .join op excluded l r

def choose (policy : Policy) (cond whenTrue otherwise : Outcome) : Behaviour Outcome := do
  ofExcept (cond.requireBool "if")
  if whenTrue.type ≠ otherwise.type then
    ofExcept (.error (.resolve (.mismatch whenTrue.type otherwise.type)))
  match Outcome.wholeBranch? cond whenTrue otherwise with
  | some o => return o
  | none =>
    let rows := Outcome.chooseRows cond whenTrue otherwise
    recordRows policy (rows.filterMap (·.2))
    return ⟨.ofList (rows.map (·.1)), whenTrue.type⟩

/-- A worker that has others do its operands, and finishes when it has all their results. -/
def joining (policy : Policy) (workers : Fin n → Behaviour α) (finish : (Fin n → α) → Behaviour β) :
    Behaviour β := do
  checkpoint policy
  let results ← gather policy workers
  finish results

end Behaviour

namespace Expr

open Behaviour

def binaryBehaviour (t : Tree) (policy : Policy) (op : BinaryOp) (left right : Operand) :
    Behaviour Outcome :=
  match op, right.isNull with
  | .eq, true => ofExcept (hiddenCheck t .eq true left)
  | .ne, true => ofExcept (hiddenCheck t .ne false left)
  | op, _ => do
    let scan ← ofExcept (Scan.resolve t op left right)
    scanRows policy 0 ((scan.rows t).map (·.2))
    return scan.outcome t

def behaviour (t : Tree) (policy : Policy) : Expr → Behaviour Outcome
  | constant b => do
    checkpoint policy
    return .ofBool b
  | binary op left right => do
    checkpoint policy
    binaryBehaviour t policy op left right
  | not inner => do
    checkpoint policy
    let o ← inner.behaviour t policy
    ofExcept (o.requireBool "not")
    return o.negate
  | logic op left right =>
    joining policy ![left.behaviour t policy, right.behaviour t policy] fun o =>
      combine op (t.exclusions 0) (o 0) (o 1)
  | choice cond whenTrue otherwise =>
    joining policy ![cond.behaviour t policy, whenTrue.behaviour t policy,
      otherwise.behaviour t policy] fun o => choose policy (o 0) (o 1) (o 2)

end Expr

/-- Whether an evaluation in a context can come to an answer and leave another context behind. Any
time may have passed since the context was made. -/
def EvalContext.Ends (c : EvalContext) (t : Tree) (e : Expr) (r : Except ExprError Outcome)
    (after : EvalContext) : Prop :=
  after.policy = c.policy ∧ ∃ es late late', (c.policy.expired = true → late = true) ∧
    e.behaviour t c.policy es r ∧
    Shared.run? ⟨c.state, late⟩ es = some ⟨after.state, late'⟩

end LayeredTable
