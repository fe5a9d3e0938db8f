import Mathlib.Data.List.Forall2
import LayeredTable.Proofs.Expr.Derivation
import LayeredTable.Proofs.Expr.Reading

/-! Where the comparisons and sums of an expression stand in its tokens. Each operator token makes
one, of the two tokens beside it, and they come in one order on both sides. -/
namespace LayeredTable.Expr

open Token

/-- The operator tokens, each between its two neighbours. -/
def combinations : List Token → List (Token × Token × Token)
  | left :: sign :: right :: ts =>
    let later := combinations (sign :: right :: ts)
    if (operator? sign).isSome then (left, sign, right) :: later else later
  | _ => []

def ReadAs (t : Tree) (written : Token × Token × Token) (read : BinaryOp × Operand × Operand) :
    Prop :=
  Denotes t none written.1 read.2.1 ∧ operator? written.2.1 = some read.1 ∧
    Denotes t (declaredType t read.2.1) written.2.2 read.2.2

structure Framed (ts : List Token) : Prop where
  first : ∀ token, ts.head? = some token → operator? token = none
  last : ∀ token, ts.getLast? = some token → operator? token = none

variable {t : Tree} {type : Option FieldType} {token left sign right : Token}
  {ts front back : List Token} {level : Level} {o : Operand} {e : Expr}

theorem Framed.single (plain : operator? token = none) : Framed [token] := by
  constructor <;>
  · intro other same
    cases same
    exact plain

theorem Framed.append (before : Framed front) (after : Framed back) : Framed (front ++ back) where
  first token head := by
    rw [List.head?_append, Option.or_eq_some_iff] at head
    rcases head with first | ⟨-, first⟩
    · exact before.first token first
    · exact after.first token first
  last token final := by
    rw [List.getLast?_append, Option.or_eq_some_iff] at final
    rcases final with last | ⟨-, last⟩
    · exact after.last token last
    · exact before.last token last

/-- A token before one that is no operator stands beside none. -/
theorem combinations_cons (plain : ∀ token, ts.head? = some token → operator? token = none) :
    combinations (left :: ts) = combinations ts := by
  match ts with
  | [] | [_] => rfl
  | sign :: right :: ts =>
    rw [combinations, plain sign rfl]
    rfl

theorem combinations_append (before : Framed front) (after : Framed back) :
    combinations (front ++ back) = combinations front ++ combinations back := by
  have plain := before.last
  clear before
  induction front with
  | nil => rfl
  | cons left front ih =>
    match front with
    | [] => exact combinations_cons after.first
    | [sign] =>
      have head : ∀ token, (sign :: back).head? = some token → operator? token = none := plain
      exact (combinations_cons head).trans (combinations_cons after.first)
    | sign :: right :: ts =>
      have rest := ih plain
      simp only [List.cons_append] at rest ⊢
      simp only [combinations, rest]
      split <;> rfl

theorem Denotes.no_operator (denotes : Denotes t type token o) : operator? token = none := by
  cases denotes with
  | name | null => rfl
  | literal denoted | cast denoted => cases token <;> first | rfl | cases denoted

/-- Tokens with no operator at either end, whose operators spell the given comparisons and sums. -/
structure Spells (t : Tree) (ts : List Token) (read : List (BinaryOp × Operand × Operand)) :
    Prop where
  framed : Framed ts
  each : (combinations ts).Forall₂ (ReadAs t) read

namespace Spells

variable {read first second : List (BinaryOp × Operand × Operand)}

theorem append (before : Spells t front first) (after : Spells t back second) :
    Spells t (front ++ back) (first ++ second) where
  framed := before.framed.append after.framed
  each := by
    rw [combinations_append before.framed after.framed]
    exact List.rel_append before.each after.each

theorem single (t : Tree) (plain : operator? token = none) : Spells t [token] [] :=
  ⟨.single plain, .nil⟩

theorem cons (spells : Spells t ts read) (plain : operator? token = none) :
    Spells t (token :: ts) read :=
  (single t plain).append spells

theorem snoc (spells : Spells t ts read) (plain : operator? token = none) :
    Spells t (ts ++ [token]) read := by
  simpa using spells.append (single t plain)

theorem binary {op : BinaryOp} {a b : Operand} (leftDenotes : Denotes t none left a)
    (combines : operator? sign = some op) (rightDenotes : Denotes t (declaredType t a) right b) :
    Spells t [left, sign, right] [(op, a, b)] where
  framed := by
    constructor <;>
    · intro token same
      cases same
      first | exact leftDenotes.no_operator | exact rightDenotes.no_operator
  each := by
    rw [combinations, combines]
    exact .cons ⟨leftDenotes, combines, rightDenotes⟩ .nil

end Spells

/-- The comparisons and sums of an expression are those that its operator tokens spell, one each
and in their order. -/
theorem Derives.spells (derives : Derives t level ts e) : Spells t ts e.binaries := by
  induction derives with
  | disjunction _ _ ihLeft ihRight | conjunction _ _ ihLeft ihRight =>
    exact ihLeft.append (ihRight.cons rfl)
  | negation _ ih => exact ih.cons rfl
  | ofConjunction _ ih | ofNegation _ ih | ofPrimary _ ih => exact ih
  | true | false => exact .single t rfl
  | group _ ih => exact (ih.cons rfl).snoc rfl
  | choice _ _ _ ihCond ihTrue ihOtherwise =>
    exact ((((ihCond.cons rfl).cons rfl).append (ihTrue.cons rfl)).append
      (ihOtherwise.cons rfl)).snoc rfl
  | binary _ leftDenotes combines rightDenotes =>
    exact .binary leftDenotes combines rightDenotes

end LayeredTable.Expr
