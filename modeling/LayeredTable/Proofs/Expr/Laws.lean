import LayeredTable.Proofs.Expr.Join
import LayeredTable.Proofs.Expr.Live

/-! The laws of logic for whole results. Conjunction and disjunction are commutative and conjunction
is associative with every row and the constant, which rows there are included; a double negation is
the result it started from. De Morgan's laws hold only row by row, at rows that are not left out: at
the others every join is false, and so a negated join is true. -/
namespace LayeredTable

namespace Logic

theorem combine_comm (op : Logic) (a b : Bool) : op.combine a b = op.combine b a := by
  cases op with
  | and => exact Bool.and_comm a b
  | or => exact Bool.or_comm a b

def dual : Logic → Logic
  | and => or
  | or => and

theorem combine_dual (op : Logic) (a b : Bool) :
    op.dual.combine (!a) (!b) = !op.combine a b := by
  cases op with
  | and => exact (Bool.not_and a b).symm
  | or => exact (Bool.not_or a b).symm

end Logic

def Value.flip : Value → Value
  | .bool b => .bool (!b)
  | v => v

theorem Value.flip_comp_flip : flip ∘ flip = id := by
  funext v
  cases v with
  | bool b => exact congrArg Value.bool (Bool.not_not b)
  | _ => rfl

namespace Outcome

variable {o l r l' r' : Outcome} {op : Logic} {excluded : Exclusions} {row : UInt32} {x y : Bool}

theorem mem_keys_join : row ∈ (join op excluded l r).values.rows.keys ↔
    row ∈ l.values.rows.keys ++ r.values.rows.keys ++ excluded.rows.filter (1 ≤ ·) := by
  rw [join, OrderedMap.mem_keys_ofList, List.map_map]
  simp only [Function.comp_def, List.map_id']

/-- Joins are equal if they list the same rows, combine to the same at the rows that are kept, and
have the same constant. -/
theorem join_congr
    (rows : ∀ row,
      row ∈ l.values.rows.keys ++ r.values.rows.keys ++ excluded.rows.filter (1 ≤ ·) ↔
        row ∈ l'.values.rows.keys ++ r'.values.rows.keys ++ excluded.rows.filter (1 ≤ ·))
    (values : ∀ row, excluded.contains row = false →
      op.combine ((l.values.boolAt? row).getD false) ((r.values.boolAt? row).getD false) =
        op.combine ((l'.values.boolAt? row).getD false) ((r'.values.boolAt? row).getD false))
    (constant : (join op excluded l r).values.constant =
      (join op excluded l' r').values.constant) :
    join op excluded l r = join op excluded l' r' := by
  have entries : (join op excluded l r).values.rows = (join op excluded l' r').values.rows := by
    refine OrderedMap.ofList_tabulate_congr rows fun row _ => congrArg Value.bool ?_
    dsimp only
    cases kept : excluded.contains row with
    | true => rw [Bool.not_true, Bool.false_and, Bool.false_and]
    | false => rw [values row kept]
  simp only [join, Outcome.mk.injEq, RowValues.mk.injEq, and_true]
  exact ⟨entries, constant⟩

theorem join_comm (op : Logic) (excluded : Exclusions) (l r : Outcome) :
    join op excluded l r = join op excluded r l := by
  refine join_congr (fun row => ?_) (fun row _ => op.combine_comm _ _) ?_
  · simp only [List.mem_append, or_comm (a := row ∈ l.values.rows.keys)]
  · rw [join_constant, join_constant]
    cases l.values.constant.bind Value.asBool? with
    | none => cases r.values.constant.bind Value.asBool? <;> rfl
    | some a =>
      cases r.values.constant.bind Value.asBool? with
      | none => rfl
      | some b => exact congrArg (some ∘ Value.bool) (op.combine_comm a b)

/-- A conjunction counts at a kept row as its operands do, by an entry or by the constants. -/
theorem boolAt?_conjunction (kept : excluded.contains row = false) :
    ((join .and excluded l r).values.boolAt? row).getD false =
      ((l.values.boolAt? row).getD false && (r.values.boolAt? row).getD false) := by
  rw [RowValues.boolAt?, join_get?, kept]
  split
  · rfl
  · rename_i unlisted
    simp only [List.mem_append, not_or] at unlisted
    obtain ⟨⟨absentLeft, absentRight⟩, -⟩ := unlisted
    rw [RowValues.boolAt?, RowValues.boolAt?, RowValues.get?_of_absent absentLeft,
      RowValues.get?_of_absent absentRight, join_constant]
    cases l.values.constant.bind Value.asBool? with
    | none => rfl
    | some a => cases r.values.constant.bind Value.asBool? <;> simp [Value.asBool?, Logic.combine]

theorem conjunction_assoc (excluded : Exclusions) (a b c : Outcome) :
    join .and excluded (join .and excluded a b) c =
      join .and excluded a (join .and excluded b c) := by
  refine join_congr (fun row => ?_) (fun row kept => ?_) ?_
  · simp only [List.mem_append, mem_keys_join]
    grind
  · rw [boolAt?_conjunction kept, boolAt?_conjunction kept]
    exact Bool.and_assoc _ _ _
  · simp only [join_constant]
    cases a.values.constant.bind Value.asBool? <;> cases b.values.constant.bind Value.asBool? <;>
      cases c.values.constant.bind Value.asBool? <;>
      simp [Value.asBool?, Logic.combine, Bool.and_assoc]

theorem negate_eq (o : Outcome) : o.negate = ⟨o.values.map Value.flip, .bool⟩ := rfl

theorem negate_negate (boolean : o.type = .bool) : o.negate.negate = o := by
  obtain ⟨⟨rows, constant⟩, type⟩ := o
  obtain rfl : type = .bool := boolean
  have entries : (rows.map Value.flip).map Value.flip = rows := by
    refine OrderedMap.ext_get? fun row => ?_
    rw [OrderedMap.get?_map, OrderedMap.get?_map, Option.map_map, Value.flip_comp_flip,
      Option.map_id, id]
  simp only [negate_eq, RowValues.map, entries, Option.map_map, Value.flip_comp_flip,
    Option.map_id, id]

/-- A join of two booleans at a kept row, whether they come from entries or from constants. -/
theorem join_get?_of_bools (kept : excluded.contains row = false)
    (left : l.values.get? row = some (.bool x)) (right : r.values.get? row = some (.bool y)) :
    (join op excluded l r).values.get? row = some (.bool (op.combine x y)) := by
  rw [join_get?]
  split
  · rw [kept, RowValues.boolAt?, RowValues.boolAt?, left, right]
    rfl
  · rename_i unlisted
    simp only [List.mem_append, not_or] at unlisted
    obtain ⟨⟨absentLeft, absentRight⟩, -⟩ := unlisted
    rw [RowValues.get?_of_absent absentLeft] at left
    rw [RowValues.get?_of_absent absentRight] at right
    rw [join_constant, left, right]
    rfl

theorem negate_get?_of_bool (value : o.values.get? row = some (.bool x)) :
    o.negate.values.get? row = some (.bool (!x)) := by
  rw [negate_eq, RowValues.get?_map, value]
  rfl

end Outcome

theorem hiddenCheck_type {t : Tree} {op : BinaryOp} {want : Bool} {left : Operand} {o : Outcome}
    (done : hiddenCheck t op want left = .ok o) : o.type = .bool := by
  cases left with
  | literal v type => cases done
  | column i =>
    obtain ⟨n, -, answer⟩ := exceptBind_ok done
    cases answer
    rfl

/-- A check for what is not hidden negates the check for what is. -/
theorem hiddenCheck_ne (t : Tree) (i : Nat) :
    hiddenCheck t .ne false (.column i) =
      (hiddenCheck t .eq true (.column i)).map Outcome.negate := by
  rw [hiddenCheck, hiddenCheck]
  cases (t.node i).mapError ExprError.tree with
  | error e => rfl
  | ok n =>
    refine congrArg Except.ok ?_
    have flipped (b : Bool) : Value.bool (b == false) = (Value.bool (b == true)).flip := by
      cases b <;> rfl
    simp only [Outcome.negate_eq, RowValues.map, RowValues.ofList, OrderedMap.map_ofList,
      List.map_map, Function.comp_def, flipped, Option.map_none]

namespace Expr

variable {t : Tree} {e f : Expr} {o l r : Outcome} {c : EvalContext}

/-- Whether an expression is a condition with the given result: it evaluates to it in the live
contexts and in no other. -/
def Decides (t : Tree) (e : Expr) (o : Outcome) : Prop :=
  o.type = .bool ∧ ∀ c : EvalContext, (c.eval t e).1 = .ok o ↔ c.Live

theorem decides_iff : e.Decides t o ↔ o.type = .bool ∧ e.result t = .ok o := by
  simp only [Decides, EvalContext.eval_eq_ok_iff]
  refine and_congr_right fun _ => ⟨fun each => ?_, fun result c => ?_⟩
  · exact ((each {}).mpr ⟨rfl, rfl⟩).2
  · exact and_iff_left result

theorem decides_of_eval (done : (c.eval t e).1 = .ok o) (boolean : o.type = .bool) :
    e.Decides t o := decides_iff.mpr ⟨boolean, (EvalContext.eval_eq_ok_iff.mp done).2⟩

theorem Decides.not (decides : e.Decides t o) : (Expr.not e).Decides t o.negate := by
  obtain ⟨boolean, result⟩ := decides_iff.mp decides
  have checked : o.requireBool "not" = .ok () := Outcome.requireBool_of_bool boolean
  refine decides_iff.mpr ⟨rfl, ?_⟩
  rw [Expr.result, result]
  simp only [bind, Except.bind, checked]
  rfl

theorem Decides.logic (op : Logic) (left : e.Decides t l) (right : f.Decides t r) :
    (Expr.logic op e f).Decides t (.join op (t.exclusions 0) l r) := by
  obtain ⟨leftBoolean, leftResult⟩ := decides_iff.mp left
  obtain ⟨rightBoolean, rightResult⟩ := decides_iff.mp right
  refine decides_iff.mpr ⟨rfl, ?_⟩
  rw [Expr.result, leftResult, rightResult]
  simp only [bind, Except.bind, Outcome.requireBool_of_bool leftBoolean,
    Outcome.requireBool_of_bool rightBoolean]
  rfl

/-- Asking which cells of a column are not hidden is refused or answered like the negated question
which are, and changes as much. -/
theorem eval_ne_null (t : Tree) (policy : Policy) (i : Nat) (type : FieldType) :
    (binary .ne (.column i) (.literal .null type)).eval t policy =
      (not (binary .eq (.column i) (.literal .null type))).eval t policy := by
  funext s
  rw [eval, eval]
  cases passed : Eval.checkpoint policy s with
  | error e m => rw [bind_of_error passed, bind_of_error passed]
  | ok _ m =>
    obtain rfl := Eval.checkpoint_ok passed
    rw [bind_of_ok passed, bind_of_ok passed]
    have asked : (binary .eq (.column i) (.literal .null type)).eval t policy m =
        Eval.ofExcept id (hiddenCheck t .eq true (.column i)) m := by
      rw [eval, bind_of_ok passed]
      rfl
    have other : evalBinary t policy .ne (.column i) (.literal .null type) m =
        Eval.ofExcept id ((hiddenCheck t .eq true (.column i)).map Outcome.negate) m := by
      rw [← hiddenCheck_ne]
      rfl
    rw [other]
    cases checked : hiddenCheck t .eq true (.column i) with
    | error e =>
      rw [checked] at asked
      exact (bind_of_error asked).symm
    | ok o =>
      have boolean : o.requireBool "not" = .ok () :=
        Outcome.requireBool_of_bool (hiddenCheck_type checked)
      rw [checked] at asked
      rw [bind_of_ok asked, bind_of_ok (Eval.ofExcept_of_ok boolean)]
      rfl

end Expr

/-- The laws of logic. Conjunction and disjunction are commutative, conjunction is associative and
negation is its own inverse for whole results of any boolean operands; De Morgan's laws hold at each
row that is not left out and at which both operands have a boolean. Asking which cells of a column
are not hidden negates asking which are. -/
theorem Expr.logic_laws {t : Tree} :
    (∀ (u v w : EvalContext) (e f g : Expr) (a b c : Outcome), (u.eval t e).1 = .ok a →
      (v.eval t f).1 = .ok b → (w.eval t g).1 = .ok c → a.type = .bool → b.type = .bool →
      c.type = .bool →
      (∀ op : Logic, ∃ o, (logic op e f).Decides t o ∧ (logic op f e).Decides t o) ∧
      (∃ o, (logic .and (logic .and e f) g).Decides t o ∧
        (logic .and e (logic .and f g)).Decides t o) ∧
      (not (not e)).Decides t a ∧
      ∀ op : Logic, ∃ negated dual, (not (logic op e f)).Decides t negated ∧
        (logic op.dual (not e) (not f)).Decides t dual ∧
        ∀ (row : UInt32) (x y : Bool), (t.exclusions 0).contains row = false →
          a.values.get? row = some (.bool x) → b.values.get? row = some (.bool y) →
          negated.values.get? row = some (.bool (!op.combine x y)) ∧
            dual.values.get? row = some (.bool (!op.combine x y))) ∧
    ∀ (c : EvalContext) (i : Nat) (type : FieldType),
      c.eval t (binary .ne (.column i) (.literal .null type)) =
        c.eval t (not (binary .eq (.column i) (.literal .null type))) := by
  constructor
  · intro u v w e f g a b c first second third aBoolean bBoolean cBoolean
    have left := decides_of_eval first aBoolean
    have right := decides_of_eval second bBoolean
    have last := decides_of_eval third cBoolean
    refine ⟨fun op => ⟨_, left.logic op right, ?_⟩,
      ⟨_, (left.logic .and right).logic .and last, ?_⟩, ?_,
      fun op => ⟨_, _, (left.logic op right).not, left.not.logic op.dual right.not, ?_⟩⟩
    · rw [Outcome.join_comm]
      exact right.logic op left
    · rw [Outcome.conjunction_assoc]
      exact left.logic .and (right.logic .and last)
    · have twice := left.not.not
      rwa [Outcome.negate_negate aBoolean] at twice
    · intro row x y kept there other
      refine ⟨Outcome.negate_get?_of_bool (Outcome.join_get?_of_bools kept there other), ?_⟩
      rw [← Logic.combine_dual]
      exact Outcome.join_get?_of_bools kept (Outcome.negate_get?_of_bool there)
        (Outcome.negate_get?_of_bool other)
  · intro c i type
    rw [EvalContext.eval, EvalContext.eval, eval_ne_null]

theorem Expr.logic_laws_gapped :
    ∃ a o nested negated,
      (logic .and atLeastOne keptRows).Decides gappedColumn o ∧
      (logic .and keptRows atLeastOne).Decides gappedColumn o ∧
      (logic .and (logic .and atLeastOne keptRows) (constant true)).Decides gappedColumn nested ∧
      (logic .and atLeastOne (logic .and keptRows (constant true))).Decides gappedColumn nested ∧
      (not (not atLeastOne)).Decides gappedColumn a ∧
      (logic .or (not atLeastOne) (not keptRows)).Decides gappedColumn negated ∧
      (gappedColumn.exclusions 0).contains 3 = false ∧
      negated.values.get? 3 = some (.bool false) := by
  have first : (EvalContext.eval {} gappedColumn atLeastOne).1.toOption.map
      (fun a => (a.type, a.values.get? 3)) = some (.bool, some (.bool true)) := by decide +kernel
  have second : (EvalContext.eval {} gappedColumn keptRows).1.toOption.map
      (fun b => (b.type, b.values.get? 3)) = some (.bool, some (.bool true)) := by decide +kernel
  obtain ⟨a, aEnds, aValues⟩ := Option.map_eq_some_iff.mp first
  obtain ⟨b, bEnds, bValues⟩ := Option.map_eq_some_iff.mp second
  obtain ⟨aBoolean, aTrue⟩ := Prod.mk.inj aValues
  obtain ⟨bBoolean, bTrue⟩ := Prod.mk.inj bValues
  have always : (EvalContext.eval {} gappedColumn (constant true)).1 = .ok (.ofBool true) := rfl
  have kept : (gappedColumn.exclusions 0).contains 3 = false := by decide +kernel
  obtain ⟨commute, associate, twice, morgan⟩ := Expr.logic_laws.1 {} {} {} _ _ _ a b _
    (ok_of_toOption aEnds) (ok_of_toOption bEnds) always aBoolean bBoolean rfl
  obtain ⟨o, forward, backward⟩ := commute .and
  obtain ⟨nested, left, right⟩ := associate
  obtain ⟨_, dual, -, decides, values⟩ := morgan .and
  exact ⟨a, o, nested, dual, forward, backward, left, right, twice, decides, kept,
    (values 3 true true kept aTrue bTrue).2⟩

end LayeredTable
