import LayeredTable.Proofs.Expr.Behaviour

/-! Courses that an evaluation can take. The evaluator does operands one after the other, which is
one of them; others follow a failing operand with those that it stops. -/
namespace LayeredTable

/-- Whether a step, done on its own from a state, is among what a worker can do. -/
def Behaviour.Allows (policy : Policy) (b : Behaviour α) (step : Eval α) (s : EvalState) : Prop :=
  ∃ es r m, step.attempt s = .ok r m ∧ b es r ∧
    Shared.run? ⟨s, policy.expired⟩ es = some ⟨m, policy.expired⟩

section Schedules

variable {t : Tree} {policy : Policy} {s m : EvalState}

theorem Policy.expired_of_unlimited (unlimited : policy.limit = none) : policy.expired = false := by
  rw [expired, unlimited]
  rfl

namespace Behaviour

variable {α β γ : Type} {b b' b'' : Behaviour α} {step : Eval α} {es : List Event}

theorem Allows.pure (v : α) : Allows policy (Pure.pure v) (Pure.pure v) s :=
  ⟨[], .ok v, s, rfl, ⟨rfl, rfl⟩, rfl⟩

theorem Allows.ofExcept (x : Except ExprError α) :
    Allows policy (Behaviour.ofExcept x) (Eval.ofExcept id x) s :=
  ⟨[], x, s, by cases x <;> rfl, ⟨rfl, rfl⟩, rfl⟩

theorem Allows.congr {step' : Eval α} (allowed : Allows policy b step s) (same : step s = step' s) :
    Allows policy b step' s := by
  obtain ⟨es, r, m, ends, own, ran⟩ := allowed
  exact ⟨es, r, m, by rw [← ends, Eval.attempt, Eval.attempt, same], own, ran⟩

theorem Allows.bind {next : α → Behaviour β} {rest : α → Eval β} (first : Allows policy b step s)
    (others : ∀ v m, step s = .ok v m → Allows policy (next v) (rest v) m) :
    Allows policy (b >>= next) (step >>= rest) s := by
  obtain ⟨es, r, m, ends, own, ran⟩ := first
  rcases Eval.attempt_ok ends with ⟨v, rfl, done⟩ | ⟨err, rfl, failed⟩
  · obtain ⟨es', r', k, ends', own', ran'⟩ := others v m done
    refine ⟨es ++ es', r', k, ?_, .inr ⟨es, es', v, own, own', rfl⟩, ?_⟩
    · rw [Eval.attempt, bind_of_ok done]
      exact ends'
    · rw [Shared.run?_append, ran]
      exact ran'
  · refine ⟨es, .error err, m, ?_, .inl ⟨err, own, rfl⟩, ran⟩
    rw [Eval.attempt, bind_of_error failed]

theorem checkpoint_cancelled (policy : Policy) :
    checkpoint policy [.flag true] (.error .cancelled) :=
  checkpoint_iff.mpr (.inl ⟨rfl, rfl⟩)

theorem checkpoint_passes (unlimited : policy.limit = none) :
    checkpoint policy [.flag false] (.ok ()) :=
  checkpoint_iff.mpr (.inr (.inl ⟨by rw [unlimited]; rfl, rfl⟩))

theorem checkpoint_late (limited : policy.limit.isSome) :
    checkpoint policy [.flag false, .clock true, .raise] (.error .deadlineExceeded) :=
  checkpoint_iff.mpr (.inr (.inr ⟨limited, rfl, rfl⟩))

theorem Allows.checkpoint (policy : Policy) (s : EvalState) :
    Allows policy (Behaviour.checkpoint policy) (Eval.checkpoint policy) s := by
  cases flag : s.cancelled with
  | true =>
    refine ⟨_, _, s, ?_, checkpoint_cancelled policy, ?_⟩
    · rw [Eval.attempt, Eval.checkpoint_of_cancelled flag]
    · simp [Shared.run?, Shared.step?, flag]
  | false =>
    cases limit : policy.limit with
    | none =>
      have expired := Policy.expired_of_unlimited limit
      refine ⟨_, _, s, ?_, checkpoint_passes limit, ?_⟩
      · rw [Eval.attempt, Eval.checkpoint_of_live expired flag]
      · simp [Shared.run?, Shared.step?, flag]
    | some d =>
      have limited : policy.limit.isSome := by rw [limit]; rfl
      cases expired : policy.expired with
      | true =>
        refine ⟨_, _, { s with cancelled := true }, ?_, checkpoint_late limited, ?_⟩
        · rw [Eval.attempt, Eval.checkpoint, get_bind, flag, expired]
          rfl
        · simp [Shared.run?, Shared.step?, flag, expired]
      | false =>
        have passes : Behaviour.checkpoint policy [.flag false, .clock false] (.ok ()) :=
          checkpoint_iff.mpr (.inr (.inl ⟨by rw [limit]; rfl, rfl⟩))
        refine ⟨_, _, s, ?_, passes, ?_⟩
        · rw [Eval.attempt, Eval.checkpoint_of_live expired flag]
        · simp [Shared.run?, Shared.step?, flag, expired]

theorem Allows.recordRows (policy : Policy) (ds : List Defect) (s : EvalState) :
    Allows policy (Behaviour.recordRows policy ds) (Eval.recordRows policy ds) s := by
  have logged (log : DefectLog) (late : Bool) :
      Shared.run? ⟨{ s with defects := log }, late⟩ (ds.map .record) =
        some ⟨{ s with defects := log.logAll ds }, late⟩ := by
    induction ds generalizing log with
    | nil => rfl
    | cons d ds ih => exact ih (log.log d)
  rw [Behaviour.recordRows, Eval.recordRows]
  split
  · exact ⟨ds.map .record, .ok (), _, rfl, ⟨rfl, rfl⟩, logged s.defects policy.expired⟩
  · exact .pure ()

theorem recordRows_append (policy : Policy) (ds ds' : List Defect) (s : EvalState) :
    (do Eval.recordRows policy ds; Eval.recordRows policy ds') s =
      Eval.recordRows policy (ds ++ ds') s := by
  simp only [Eval.recordRows]
  split
  · simp only [modify_bind, DefectLog.logAll, List.foldl_append]
    rfl
  · rfl

/-- With the flag down and time left, a scan goes through its rows, and has recorded their defects
in the end. -/
theorem Allows.scanRows (unlimited : policy.expired = false) (live : s.cancelled = false) (n : Nat)
    (ds : List (Option Defect)) :
    Allows policy (Behaviour.scanRows policy n ds)
      (Eval.recordRows policy (ds.filterMap id)) s := by
  induction ds generalizing n s with
  | nil =>
    have nothing : (Pure.pure () : Eval Unit) s = Eval.recordRows policy [] s := by
      rw [Eval.recordRows]
      split <;> rfl
    exact (Allows.pure ()).congr nothing
  | cons d ds ih =>
    have later : Allows policy (do
        Behaviour.recordRows policy d.toList
        Behaviour.scanRows policy (n + 1) ds)
        (do Eval.recordRows policy d.toList; Eval.recordRows policy (ds.filterMap id)) s := by
      refine (Allows.recordRows policy d.toList s).bind fun _ m recorded => ?_
      obtain ⟨m', recorded', kept⟩ := Eval.recordRows_keeps policy d.toList s
      rw [recorded'] at recorded
      cases recorded
      exact ih (kept.trans live) (n + 1)
    have together : d.toList ++ ds.filterMap id = (d :: ds).filterMap id := by cases d <;> rfl
    have rest := later.congr (recordRows_append policy _ _ s)
    rw [together] at rest
    rw [Behaviour.scanRows]
    split
    · have checked : Allows policy (do
          Behaviour.checkpoint policy
          Behaviour.recordRows policy d.toList
          Behaviour.scanRows policy (n + 1) ds)
          (do Eval.checkpoint policy; Eval.recordRows policy ((d :: ds).filterMap id)) s := by
        refine (Allows.checkpoint policy s).bind fun _ m passed => ?_
        rw [Eval.checkpoint_ok passed]
        exact rest
      exact checked.congr (bind_of_ok (Eval.checkpoint_of_live unlimited live))
    · exact rest

theorem Allows.combine (op : Logic) (excluded : Exclusions) (l r : Outcome) :
    Allows policy (Behaviour.combine op excluded l r) (do
      Eval.ofExcept id (l.requireBool op.name)
      Eval.ofExcept id (r.requireBool op.name)
      return .join op excluded l r) s :=
  (Allows.ofExcept _).bind fun _ _ _ => (Allows.ofExcept _).bind fun _ _ _ => .pure _

theorem Allows.choose (policy : Policy) (c a b : Outcome) (s : EvalState) :
    Allows policy (Behaviour.choose policy c a b) (Eval.choose policy c a b) s := by
  refine (Allows.ofExcept _).bind fun _ m _ => ?_
  by_cases same : a.type = b.type
  · simp only [ne_eq, same, not_true_eq_false, if_false]
    cases Outcome.wholeBranch? c a b with
    | some branch => exact .pure branch
    | none => exact (Allows.recordRows policy _ m).bind fun _ _ _ => .pure _
  · simp only [ne_eq, same, not_false_eq_true, if_true]
    refine (Allows.ofExcept (.error (.resolve (.mismatch a.type b.type)))).bind fun _ _ failed => ?_
    cases failed

section Gather

variable {size : Nat} {workers : Fin size → Behaviour α} {traces : Fin size → List Event}
  {answers : Fin size → Except ExprError α}

theorem gather_of_ok {results : Fin size → α} (ends : ∀ i, workers i (traces i) (.ok (results i))) :
    gather policy workers ((List.finRange size).flatMap traces) (.ok results) :=
  .all ends (.flatMap (List.nodup_finRange size) List.mem_finRange traces)

theorem gather_of_error {i : Fin size} {err : ExprError}
    (ends : ∀ j, workers j (traces j) (answers j)) (failed : answers i = .error err) :
    gather policy workers ((List.finRange size).flatMap traces ++ [.raise]) (.error err) :=
  .failed (fun j => ⟨_, ends j⟩) (failed ▸ ends i)
    ((Interleaves.flatMap (List.nodup_finRange size) List.mem_finRange traces).concat i .raise)

/-- What is delivered after all operands are done is what a join can end with at that moment. -/
theorem Allows.deliver {answer : Except ExprError γ} {results : γ → Fin size → α}
    {next : (Fin size → α) → Behaviour β} {rest : γ → Eval β}
    (ran : Shared.run? ⟨s, policy.expired⟩ es = some ⟨m, policy.expired⟩)
    (done : ∀ v, answer = .ok v → gather policy workers es (.ok (results v)))
    (failed : ∀ err, answer = .error err → gather policy workers (es ++ [.raise]) (.error err))
    (others : ∀ v m, Allows policy (next (results v)) (rest v) m) :
    ∃ es r k, Eval.attempt (do let v ← Eval.deliver answer; rest v) m = .ok r k ∧
      (gather policy workers >>= next) es r ∧
      Shared.run? ⟨s, policy.expired⟩ es = some ⟨k, policy.expired⟩ := by
  cases answer with
  | ok v =>
    obtain ⟨es', r, k, ends, own, ran'⟩ := others v m
    refine ⟨es ++ es', r, k, ends, .inr ⟨es, es', _, done v rfl, own, rfl⟩, ?_⟩
    rw [Shared.run?_append, ran]
    exact ran'
  | error err =>
    refine ⟨es ++ [.raise], .error err, { m with cancelled := true }, rfl,
      .inl ⟨err, failed err rfl, rfl⟩, ?_⟩
    rw [Shared.run?_append, ran]
    rfl

theorem Allows.both {first second : Eval α} {next : (Fin 2 → α) → Behaviour β}
    {rest : α × α → Eval β} (one : Allows policy b first s) (two : ∀ m, Allows policy b' second m)
    (others : ∀ v m, Allows policy (next ![v.1, v.2]) (rest v) m) :
    Allows policy (gather policy ![b, b'] >>= next) (Eval.both first second >>= rest) s := by
  obtain ⟨es, r, m, ends, own, ran⟩ := one
  obtain ⟨es', r', m', ends', own', ran'⟩ := two m
  have each : ∀ i, ![b, b'] i (![es, es'] i) (![r, r'] i) :=
    Fin.forall_fin_two.mpr ⟨own, own'⟩
  have whole : Shared.run? ⟨s, policy.expired⟩ ((List.finRange 2).flatMap ![es, es']) =
      some ⟨m', policy.expired⟩ := by
    have turns : (List.finRange 2).flatMap ![es, es'] = es ++ es' := by simp [List.finRange_succ]
    rw [turns, Shared.run?_append, ran]
    exact ran'
  have done : (Eval.both first second >>= rest) s = (do
      let v ← Eval.deliver do
        let a' ← r'
        let a ← r
        return (a, a')
      rest v) m' :=
    bind_of_eq (by rw [Eval.both, bind_of_ok ends, bind_of_ok ends'])
  rw [Allows, Eval.attempt, done]
  refine Allows.deliver whole (fun v both => ?_) (fun err failed => ?_) others
  · obtain ⟨a', rfl, next⟩ := exceptBind_ok both
    obtain ⟨a, rfl, pair⟩ := exceptBind_ok next
    cases pair
    exact gather_of_ok (Fin.forall_fin_two.mpr ⟨own, own'⟩)
  · rcases exceptBind_error failed with rfl | ⟨a', rfl, next⟩
    · exact gather_of_error each (i := 1) rfl
    · rcases exceptBind_error next with rfl | ⟨a, rfl, ⟨⟩⟩
      exact gather_of_error each (i := 0) rfl

theorem Allows.all {first second third : Eval α} {next : (Fin 3 → α) → Behaviour β}
    {rest : α × α × α → Eval β} (one : Allows policy b first s)
    (two : ∀ m, Allows policy b' second m) (three : ∀ m, Allows policy b'' third m)
    (others : ∀ v m, Allows policy (next ![v.1, v.2.1, v.2.2]) (rest v) m) :
    Allows policy (gather policy ![b, b', b''] >>= next)
      (Eval.all first second third >>= rest) s := by
  obtain ⟨es, r, m, ends, own, ran⟩ := one
  obtain ⟨es', r', m', ends', own', ran'⟩ := two m
  obtain ⟨es'', r'', m'', ends'', own'', ran''⟩ := three m'
  have each : ∀ i, ![b, b', b''] i (![es, es', es''] i) (![r, r', r''] i) :=
    forall_fin_three.mpr ⟨own, own', own''⟩
  have whole : Shared.run? ⟨s, policy.expired⟩ ((List.finRange 3).flatMap ![es, es', es'']) =
      some ⟨m'', policy.expired⟩ := by
    have turns : (List.finRange 3).flatMap ![es, es', es''] = es ++ (es' ++ es'') := by
      simp [List.finRange_succ]
    rw [turns, Shared.run?_append, ran, Option.bind_some, Shared.run?_append, ran']
    exact ran''
  have done : (Eval.all first second third >>= rest) s = (do
      let v ← Eval.deliver do
        let a'' ← r''
        let a' ← r'
        let a ← r
        return (a, a', a'')
      rest v) m'' :=
    bind_of_eq (by rw [Eval.all, bind_of_ok ends, bind_of_ok ends', bind_of_ok ends''])
  rw [Allows, Eval.attempt, done]
  refine Allows.deliver whole (fun v all => ?_) (fun err failed => ?_) others
  · obtain ⟨a'', rfl, others⟩ := exceptBind_ok all
    obtain ⟨a', rfl, last⟩ := exceptBind_ok others
    obtain ⟨a, rfl, triple⟩ := exceptBind_ok last
    cases triple
    exact gather_of_ok (forall_fin_three.mpr ⟨own, own', own''⟩)
  · rcases exceptBind_error failed with rfl | ⟨a'', rfl, others⟩
    · exact gather_of_error each (i := 2) rfl
    · rcases exceptBind_error others with rfl | ⟨a', rfl, last⟩
      · exact gather_of_error each (i := 1) rfl
      · rcases exceptBind_error last with rfl | ⟨a, rfl, ⟨⟩⟩
        exact gather_of_error each (i := 0) rfl

/-- The `i`-th worker goes first, and when it is done the flag is up, or is raised for its error.
All others are stopped. The join delivers the error of any of them. -/
theorem gather_after {i f : Fin size} {answer : Except ExprError α} {err : ExprError}
    {before after : Shared} (stops : ∀ j, workers j [.flag true] (.error .cancelled))
    (ends : workers i es answer)
    (failing : workers f (if f = i then es else [.flag true]) (.error err))
    (ran : before.run? (if f = i then es ++ [.raise] else es) = some after)
    (up : after.cancelled = true) :
    ∃ es', gather policy workers es' (.error err) ∧ before.run? es' = some after := by
  have distinct : (i :: (List.finRange size).erase i).Nodup :=
    have listed := List.nodup_finRange size
    List.nodup_cons.mpr ⟨listed.not_mem_erase, listed.erase i⟩
  have complete (j : Fin size) : j ∈ i :: (List.finRange size).erase i := by
    by_cases same : j = i
    · exact List.mem_cons.mpr (.inl same)
    · exact List.mem_cons_of_mem i ((List.mem_erase_of_ne same).mpr (List.mem_finRange j))
  refine ⟨_, @Gathers.failed _ _ policy workers (fun j => if j = i then es else [.flag true]) f err
    _ (fun j => ?_) failing (.flatMap distinct complete _), ?_⟩
  · by_cases same : j = i
    · subst same
      exact ⟨answer, by rwa [if_pos rfl]⟩
    · exact ⟨.error .cancelled, by rw [if_neg same]; exact stops j⟩
  · have first : (if i = f then (if i = i then es else [.flag true]) ++ [.raise]
        else if i = i then es else [.flag true]) = if f = i then es ++ [.raise] else es := by
      simp [eq_comm]
    rw [List.flatMap_cons, first, Shared.run?_append, ran]
    refine Shared.run?_of_cancelled up fun e member => ?_
    obtain ⟨j, listed, own⟩ := List.mem_flatMap.mp member
    have other : j ≠ i := fun same => (List.nodup_cons.mp distinct).1 (same ▸ listed)
    rw [if_neg other] at own
    split at own <;> simp at own <;> tauto

end Gather

end Behaviour

namespace Expr

open Behaviour

variable {e : Expr} {op : BinaryOp} {left right : Operand}

theorem binaryBehaviour_allows (unlimited : policy.expired = false) (live : s.cancelled = false) :
    Allows policy (binaryBehaviour t policy op left right)
      (evalBinary t policy op left right) s := by
  by_cases asks : op.AsksHidden right
  · rcases asks with ⟨rfl | rfl, null⟩ <;>
    · simp only [binaryBehaviour, evalBinary, null]
      exact .ofExcept _
  · rw [binaryBehaviour_of_scan asks, evalBinary_of_scan asks]
    refine (Allows.ofExcept _).bind fun scan m resolved => ?_
    rw [Eval.ofExcept_of_ok (Eval.ofExcept_ok resolved)] at resolved
    cases resolved
    have defects : scan.defects t = ((scan.rows t).map (·.2)).filterMap id := by
      rw [List.filterMap_map]
      rfl
    rw [defects]
    exact (Allows.scanRows unlimited live 0 _).bind fun _ _ _ => .pure _

/-- The evaluator takes one of the courses that an evaluation can take. -/
theorem behaviour_allows (t : Tree) (policy : Policy) (e : Expr) (s : EvalState) :
    Allows policy (e.behaviour t policy) (e.eval t policy) s := by
  induction e generalizing s with
  | constant x => exact (Allows.checkpoint policy s).bind fun _ m _ => .pure _
  | binary op left right =>
    refine (Allows.checkpoint policy s).bind fun _ m passed => ?_
    obtain ⟨unlimited, live⟩ := Eval.live_of_checkpoint passed
    rw [Eval.checkpoint_ok passed]
    exact binaryBehaviour_allows unlimited live
  | not inner ih =>
    exact (Allows.checkpoint policy s).bind fun _ m _ =>
      (ih m).bind fun _ m _ => (Allows.ofExcept _).bind fun _ _ _ => .pure _
  | logic op left right ihLeft ihRight =>
    exact (Allows.checkpoint policy s).bind fun _ m _ =>
      .both (ihLeft m) ihRight fun v m => .combine op (t.exclusions 0) v.1 v.2
  | choice cond whenTrue otherwise ihCond ihTrue ihOtherwise =>
    exact (Allows.checkpoint policy s).bind fun _ m _ =>
      .all (ihCond m) ihTrue ihOtherwise fun v m => .choose policy v.1 v.2.1 v.2.2 m

variable {k : Nat} {n : Expr} {err err' : ExprError}

theorem behaviour_of_checkpoint {es : List Event} (stopped : checkpoint policy es (.error err))
    (t : Tree) (e : Expr) : e.behaviour t policy es (.error err) := by
  cases e <;> exact .inl ⟨err, stopped, rfl⟩

theorem behaviour_stopped (t : Tree) (policy : Policy) (e : Expr) :
    e.behaviour t policy [.flag true] (.error .cancelled) :=
  behaviour_of_checkpoint (checkpoint_cancelled policy) t e

/-- What a join of workers fails with, its own evaluation fails with. -/
theorem Workers.behaviour_of_gather {size : Nat} {operand : Fin size → Expr}
    {finish : (Fin size → Outcome) → Behaviour Outcome} {es : List Event}
    (workers : e.Workers t policy operand finish) (unlimited : policy.limit = none)
    (failed : gather policy (fun i => (operand i).behaviour t policy) es (.error err)) :
    e.behaviour t policy (.flag false :: es) (.error err) := by
  rw [workers.behaviour_eq]
  exact .inr ⟨[.flag false], es, (), checkpoint_passes unlimited, .inl ⟨err, failed, rfl⟩, rfl⟩

theorem behaviour_not_of_error {inner : Expr} {es : List Event} (unlimited : policy.limit = none)
    (failed : inner.behaviour t policy es (.error err)) :
    (Expr.not inner).behaviour t policy (.flag false :: es) (.error err) :=
  .inr ⟨[.flag false], es, (), checkpoint_passes unlimited, .inl ⟨err, failed, rfl⟩, rfl⟩

/-- Without a deadline and from a flag that is down, the error of any part can be the one that is
delivered. -/
theorem behaviour_of_part (unlimited : policy.limit = none) (live : s.cancelled = false)
    (part : (k, n) ∈ e.parts) (raises : n.Raises t err) :
    ∃ es after, e.behaviour t policy es (.error err) ∧
      Shared.run? ⟨s, false⟩ es = some after := by
  have expired := Policy.expired_of_unlimited unlimited
  induction e using operands_induction generalizing k with
  | step e ih =>
    rcases mem_parts_iff.mp part with ⟨-, rfl⟩ | ⟨a, member, j, deeper, -⟩
    · obtain ⟨m, failed⟩ := eval_of_raises expired live raises
      obtain ⟨es, r, m', ends, own, ran⟩ := behaviour_allows t policy n s
      rw [Eval.attempt, failed] at ends
      cases ends
      rw [expired] at ran
      exact ⟨es, _, own, ran⟩
    · obtain ⟨es, after, own, ran⟩ := ih a member deeper
      cases joined : e.joins with
      | true =>
        obtain ⟨size, operand, finish, workers⟩ := exists_workers t policy joined
        obtain ⟨i, rfl⟩ := (workers.mem_operands a).mp member
        obtain ⟨es', failed, ran'⟩ := gather_after (f := i)
          (fun j => behaviour_stopped t policy (operand j)) own (by rwa [if_pos rfl])
          (by rw [if_pos rfl, Shared.run?_append, ran]; rfl) rfl
        exact ⟨.flag false :: es', _, workers.behaviour_of_gather unlimited failed,
          (Shared.run?_flag_false live).trans ran'⟩
      | false =>
        cases e with
        | constant | binary => cases member
        | logic | choice => cases joined
        | not inner =>
          cases List.mem_singleton.mp member
          exact ⟨.flag false :: es, after, behaviour_not_of_error unlimited own,
            (Shared.run?_flag_false live).trans ran⟩

/-- Where a part fails within two operands, one in the other, the outer join can receive a worker
that the inner failure stopped before it receives that failure. -/
theorem behaviour_cancelled_of_part (unlimited : policy.limit = none) (live : s.cancelled = false)
    (part : (k, n) ∈ e.parts) (deep : 2 ≤ k) (raises : n.Raises t err) :
    ∃ es after, e.behaviour t policy es (.error .cancelled) ∧
      Shared.run? ⟨s, false⟩ es = some after := by
  induction e using operands_induction generalizing k with
  | step e ih =>
    rcases mem_parts_iff.mp part with ⟨rfl, -⟩ | ⟨a, member, j, deeper, rfl⟩
    · omega
    · cases joined : e.joins with
      | true =>
        rw [joined, Bool.toNat_true] at deep
        obtain ⟨size, operand, finish, workers⟩ := exists_workers t policy joined
        obtain ⟨i, rfl⟩ := (workers.mem_operands a).mp member
        obtain ⟨es, after, own, ran⟩ := behaviour_of_part unlimited live deeper raises
        have up : after.cancelled = true := (Shared.cancelled_of_run? ran).mpr
          (.inr (raise_mem_of_error own deeper raises (by omega)))
        have : Nontrivial (Fin size) := Fin.nontrivial_iff_two_le.mpr workers.several
        obtain ⟨f, other⟩ := exists_ne i
        obtain ⟨es', failed, ran'⟩ := gather_after (f := f)
          (fun j => behaviour_stopped t policy (operand j)) own
          (by rw [if_neg other]; exact behaviour_stopped t policy (operand f))
          (by rwa [if_neg other]) up
        exact ⟨.flag false :: es', after, workers.behaviour_of_gather unlimited failed,
          (Shared.run?_flag_false live).trans ran'⟩
      | false =>
        rw [joined] at deep
        obtain ⟨es, after, own, ran⟩ := ih a member deeper deep
        cases e with
        | constant | binary => cases member
        | logic | choice => cases joined
        | not inner =>
          cases List.mem_singleton.mp member
          exact ⟨.flag false :: es, after, behaviour_not_of_error unlimited own,
            (Shared.run?_flag_false live).trans ran⟩

end Expr

end Schedules
end LayeredTable
