import LayeredTable.Expr.Grammar
import LayeredTable.Proofs.State

/-! Reading expressions and the grammar. What the readers take, the grammar derives, whatever their
fuel; what the grammar derives, the readers take as soon as they have fuel for four steps a token.
So tokens are read exactly if they derive, as the one expression they spell. -/
namespace LayeredTable.Expr

open Token

section Operands

variable {t : Tree} {type : Option FieldType} {token left : Token} {ts rest : List Token}
  {o : Operand} {e : Expr}

/-- One operand is read from one token. -/
theorem parseOperand_ok (done : parseOperand t type ts = .ok (o, rest)) :
    ∃ token, ts = token :: rest ∧ Denotes t type token o := by
  cases ts with
  | nil => cases done
  | cons token ts =>
    unfold parseOperand at done
    split at done
    case h_1 => simp_all
    case h_2 name _ same =>
      obtain ⟨rfl, rfl⟩ := List.cons.inj same
      cases found : t.findByName 0 name with
      | none => simp [found] at done
      | some i =>
        simp only [found, Except.ok.injEq, Prod.mk.injEq] at done
        obtain ⟨rfl, rfl⟩ := done
        exact ⟨_, rfl, .name found⟩
    case h_3 same =>
      obtain ⟨rfl, rfl⟩ := List.cons.inj same
      cases done
      exact ⟨_, rfl, .null⟩
    case h_4 same =>
      obtain ⟨rfl, rfl⟩ := List.cons.inj same
      cases denoted : literal? token with
      | none => simp [denoted] at done
      | some v =>
        cases type with
        | none =>
          simp only [denoted, Except.ok.injEq, Prod.mk.injEq] at done
          obtain ⟨rfl, rfl⟩ := done
          exact ⟨_, rfl, .literal denoted⟩
        | some type =>
          cases kept : v.cast type with
          | error cause => simp [denoted, kept] at done
          | ok w =>
            simp only [denoted, kept, Except.ok.injEq, Prod.mk.injEq] at done
            obtain ⟨rfl, rfl⟩ := done
            exact ⟨_, rfl, .cast denoted kept⟩

theorem Denotes.parseOperand (denotes : Denotes t type token o) (rest : List Token) :
    parseOperand t type (token :: rest) = .ok (o, rest) := by
  cases denotes with
  | name found => simp [Expr.parseOperand, found]
  | null => rfl
  | literal denoted => cases token <;> simp_all [Expr.parseOperand, literal?]
  | cast denoted kept => cases token <;> simp_all [Expr.parseOperand, literal?]

end Operands

section Binary

variable {t : Tree} {left sign right : Token} {ts rest : List Token} {a b : Operand}
  {op : BinaryOp} {e : Expr}

def Uncompared (ts : List Token) : Prop := ∀ token ∈ ts.head?, comparison? token = none

theorem refuseComparison_of_uncompared (uncompared : Uncompared rest) :
    refuseComparison rest = .ok () := by
  cases rest with
  | nil => rfl
  | cons token rest => simp [refuseComparison, uncompared token rfl]

theorem parseBinary_ok (done : parseBinary t ts = .ok (e, rest)) :
    ∃ left sign right a op b, ts = left :: sign :: right :: rest ∧ Denotes t none left a ∧
      operator? sign = some op ∧ Denotes t (declaredType t a) right b ∧ e = .binary op a b := by
  rw [parseBinary] at done
  obtain ⟨⟨a, after⟩, first, next⟩ := exceptBind_ok done
  obtain ⟨left, rfl, leftDenotes⟩ := parseOperand_ok first
  cases after with
  | nil => cases next
  | cons sign after =>
    simp only at next
    cases compares : comparison? sign with
    | some op =>
      rw [compares] at next
      obtain ⟨⟨b, others⟩, second, last⟩ := exceptBind_ok next
      obtain ⟨right, rfl, rightDenotes⟩ := parseOperand_ok second
      cases last
      exact ⟨left, sign, right, a, op, b, rfl, leftDenotes, by simp [operator?, compares],
        rightDenotes, rfl⟩
    | none =>
      cases computes : arithmetic? sign with
      | none =>
        rw [compares, computes] at next
        cases next
      | some op =>
        rw [compares, computes] at next
        obtain ⟨⟨b, others⟩, second, last⟩ := exceptBind_ok next
        obtain ⟨right, rfl, rightDenotes⟩ := parseOperand_ok second
        obtain ⟨-, -, answer⟩ := exceptBind_ok last
        cases answer
        exact ⟨left, sign, right, a, op, b, rfl, leftDenotes,
          by simp [operator?, compares, computes], rightDenotes, rfl⟩

theorem parseBinary_of_denotes (leftDenotes : Denotes t none left a)
    (combines : operator? sign = some op) (rightDenotes : Denotes t (declaredType t a) right b)
    (uncompared : Uncompared rest) :
    parseBinary t (left :: sign :: right :: rest) = .ok (.binary op a b, rest) := by
  simp only [parseBinary, leftDenotes.parseOperand, bind, Except.bind]
  cases compares : comparison? sign with
  | some found =>
    have same : found = op := by simpa [operator?, compares] using combines
    simp only [rightDenotes.parseOperand, same]
    rfl
  | none =>
    have computes : arithmetic? sign = some op := by simpa [operator?, compares] using combines
    simp only [computes, rightDenotes.parseOperand, refuseComparison_of_uncompared uncompared]
    rfl

end Binary

section Readers

variable {t : Tree} {fuel : Nat} {ts : List Token} {left : Expr} {token : Token}

theorem parseOrTail_or : parseOrTail t (fuel + 1) left (Token.or :: ts) =
    (parseAnd t fuel ts).bind fun next =>
      parseOrTail t fuel (.logic .or left next.1) next.2 := rfl

theorem parseOrTail_of_ne (other : ts.head? ≠ some Token.or) :
    parseOrTail t (fuel + 1) left ts = .ok (left, ts) := by
  rw [parseOrTail]
  rintro _ rfl
  exact other rfl

theorem parseAndTail_and : parseAndTail t (fuel + 1) left (Token.and :: ts) =
    (parseNot t fuel ts).bind fun next =>
      parseAndTail t fuel (.logic .and left next.1) next.2 := rfl

theorem parseAndTail_of_ne (other : ts.head? ≠ some Token.and) :
    parseAndTail t (fuel + 1) left ts = .ok (left, ts) := by
  rw [parseAndTail]
  rintro _ rfl
  exact other rfl

theorem parseNot_not : parseNot t (fuel + 1) (Token.not :: ts) =
    (parseNot t fuel ts).bind fun next => .ok (.not next.1, next.2) := rfl

theorem parseNot_of_ne (other : ts.head? ≠ some Token.not) :
    parseNot t (fuel + 1) ts = parsePrimary t fuel ts := by
  rw [parseNot]
  rintro _ rfl
  exact other rfl

theorem parsePrimary_lparen : parsePrimary t (fuel + 1) (lparen :: ts) =
    (parseOr t fuel ts).bind fun inner =>
      (expect rparen "closing ')'" inner.2).bind fun rest => .ok (inner.1, rest) := rfl

theorem parsePrimary_if : parsePrimary t (fuel + 1) (Token.if :: ts) =
    (expect lparen "'(' after if" ts).bind fun ts =>
      (parseOr t fuel ts).bind fun cond =>
        (expect comma "',' after if condition" cond.2).bind fun ts =>
          (parseOr t fuel ts).bind fun whenTrue =>
            (expect comma "',' after if branch" whenTrue.2).bind fun ts =>
              (parseOr t fuel ts).bind fun otherwise =>
                (expect rparen "closing ')' of if" otherwise.2).bind fun rest =>
                  .ok (.choice cond.1 whenTrue.1 otherwise.1, rest) := rfl

theorem parsePrimary_operand (starts : startsOperand token) :
    parsePrimary t (fuel + 1) (token :: ts) = parseBinary t (token :: ts) := by
  cases token <;> simp_all [parsePrimary, startsOperand]

end Readers

section Soundness

/-- All tokens but those of `rest` spell an expression. -/
def Spelt (t : Tree) (level : Level) (ts : List Token) (e : Expr) (rest : List Token) : Prop :=
  ∃ front, ts = front ++ rest ∧ Derives t level front e

/-- What each reader takes with some fuel, the grammar derives. A tail goes on with what was read
before it. -/
structure Sound (t : Tree) (fuel : Nat) : Prop where
  or : parseOr t fuel ts = .ok (e, rest) → Spelt t .disjunction ts e rest
  orTail : parseOrTail t fuel left ts = .ok (e, rest) → Derives t .disjunction before left →
    Spelt t .disjunction (before ++ ts) e rest
  and : parseAnd t fuel ts = .ok (e, rest) → Spelt t .conjunction ts e rest
  andTail : parseAndTail t fuel left ts = .ok (e, rest) → Derives t .conjunction before left →
    Spelt t .conjunction (before ++ ts) e rest
  not : parseNot t fuel ts = .ok (e, rest) → Spelt t .negation ts e rest
  primary : parsePrimary t fuel ts = .ok (e, rest) → Spelt t .primary ts e rest

variable {t : Tree} {fuel : Nat} {ts rest before : List Token} {left e : Expr}

theorem expectBind_ok {token : Token} {what : String} {α : Type}
    {next : List Token → Except ExprError α} {answer : α}
    (done : (expect token what ts).bind next = .ok answer) :
    ∃ rest, ts = token :: rest ∧ next rest = .ok answer := by
  obtain ⟨rest, passed, others⟩ := exceptBind_ok done
  cases ts with
  | nil => cases passed
  | cons head ts =>
    rw [expect] at passed
    split at passed
    · rename_i same
      cases passed
      exact ⟨rest, by rw [same], others⟩
    · cases passed

theorem sound_zero (t : Tree) : Sound t 0 := by
  constructor <;> intros <;> contradiction

theorem Sound.parseOr_succ (sound : Sound t fuel)
    (done : parseOr t (fuel + 1) ts = .ok (e, rest)) : Spelt t .disjunction ts e rest := by
  rw [parseOr] at done
  obtain ⟨⟨left, after⟩, first, others⟩ := exceptBind_ok done
  obtain ⟨front, rfl, derives⟩ := sound.and first
  exact sound.orTail others (.ofConjunction derives)

theorem Sound.parseOrTail_succ (sound : Sound t fuel)
    (done : parseOrTail t (fuel + 1) left ts = .ok (e, rest))
    (derives : Derives t .disjunction before left) :
    Spelt t .disjunction (before ++ ts) e rest := by
  by_cases joins : ts.head? = some Token.or
  · obtain ⟨ts, rfl⟩ := List.head?_eq_some_iff.mp joins
    rw [parseOrTail_or] at done
    obtain ⟨⟨right, after⟩, second, others⟩ := exceptBind_ok done
    obtain ⟨front, rfl, rightDerives⟩ := sound.and second
    have joined := sound.orTail others (derives.disjunction rightDerives)
    simpa using joined
  · rw [parseOrTail_of_ne joins] at done
    cases done
    exact ⟨before, rfl, derives⟩

theorem Sound.parseAnd_succ (sound : Sound t fuel)
    (done : parseAnd t (fuel + 1) ts = .ok (e, rest)) : Spelt t .conjunction ts e rest := by
  rw [parseAnd] at done
  obtain ⟨⟨left, after⟩, first, others⟩ := exceptBind_ok done
  obtain ⟨front, rfl, derives⟩ := sound.not first
  exact sound.andTail others (.ofNegation derives)

theorem Sound.parseAndTail_succ (sound : Sound t fuel)
    (done : parseAndTail t (fuel + 1) left ts = .ok (e, rest))
    (derives : Derives t .conjunction before left) :
    Spelt t .conjunction (before ++ ts) e rest := by
  by_cases joins : ts.head? = some Token.and
  · obtain ⟨ts, rfl⟩ := List.head?_eq_some_iff.mp joins
    rw [parseAndTail_and] at done
    obtain ⟨⟨right, after⟩, second, others⟩ := exceptBind_ok done
    obtain ⟨front, rfl, rightDerives⟩ := sound.not second
    have joined := sound.andTail others (derives.conjunction rightDerives)
    simpa using joined
  · rw [parseAndTail_of_ne joins] at done
    cases done
    exact ⟨before, rfl, derives⟩

theorem Sound.parseNot_succ (sound : Sound t fuel)
    (done : parseNot t (fuel + 1) ts = .ok (e, rest)) : Spelt t .negation ts e rest := by
  by_cases negates : ts.head? = some Token.not
  · obtain ⟨ts, rfl⟩ := List.head?_eq_some_iff.mp negates
    rw [parseNot_not] at done
    obtain ⟨⟨inner, after⟩, first, answer⟩ := exceptBind_ok done
    obtain ⟨front, rfl, derives⟩ := sound.not first
    cases answer
    exact ⟨_, rfl, .negation derives⟩
  · rw [parseNot_of_ne negates] at done
    obtain ⟨front, rfl, derives⟩ := sound.primary done
    exact ⟨front, rfl, .ofPrimary derives⟩

theorem Sound.group (sound : Sound t fuel)
    (done : parsePrimary t (fuel + 1) (lparen :: ts) = .ok (e, rest)) :
    Spelt t .primary (lparen :: ts) e rest := by
    rw [parsePrimary_lparen] at done
    obtain ⟨⟨inner, after⟩, first, closes⟩ := exceptBind_ok done
    obtain ⟨front, rfl, derives⟩ := sound.or first
    obtain ⟨_, rfl, answer⟩ := expectBind_ok closes
    cases answer
    exact ⟨_, by simp, .group derives⟩

theorem Sound.choice (sound : Sound t fuel)
    (done : parsePrimary t (fuel + 1) (Token.if :: ts) = .ok (e, rest)) :
    Spelt t .primary (Token.if :: ts) e rest := by
    rw [parsePrimary_if] at done
    obtain ⟨_, rfl, opened⟩ := expectBind_ok done
    obtain ⟨⟨cond, _⟩, first, parted⟩ := exceptBind_ok opened
    obtain ⟨front, rfl, condDerives⟩ := sound.or first
    obtain ⟨_, rfl, branches⟩ := expectBind_ok parted
    obtain ⟨⟨whenTrue, _⟩, second, partedAgain⟩ := exceptBind_ok branches
    obtain ⟨middle, rfl, trueDerives⟩ := sound.or second
    obtain ⟨_, rfl, branch⟩ := expectBind_ok partedAgain
    obtain ⟨⟨otherwise, _⟩, third, closes⟩ := exceptBind_ok branch
    obtain ⟨back, rfl, otherwiseDerives⟩ := sound.or third
    obtain ⟨_, rfl, answer⟩ := expectBind_ok closes
    cases answer
    exact ⟨_, by simp, .choice condDerives trueDerives otherwiseDerives⟩

theorem Sound.parsePrimary_succ (sound : Sound t fuel)
    (done : parsePrimary t (fuel + 1) ts = .ok (e, rest)) : Spelt t .primary ts e rest := by
  cases ts with
  | nil => cases done
  | cons token ts =>
    by_cases starts : startsOperand token
    · rw [parsePrimary_operand starts] at done
      obtain ⟨left, sign, right, a, op, b, same, leftDenotes, combines, rightDenotes, rfl⟩ :=
        parseBinary_ok done
      obtain ⟨rfl, rfl⟩ := List.cons.inj same
      exact ⟨[token, sign, right], rfl, .binary starts leftDenotes combines rightDenotes⟩
    · cases token
      case true =>
        cases done
        exact ⟨[Token.true], rfl, .true⟩
      case false =>
        cases done
        exact ⟨[Token.false], rfl, .false⟩
      case lparen =>
        exact sound.group done
      case «if» =>
        exact sound.choice done
      all_goals simp_all [parsePrimary, startsOperand]

/-- The readers call each other with one less fuel, so the induction is on the fuel of all six. -/
theorem sound (t : Tree) (fuel : Nat) : Sound t fuel := by
  induction fuel with
  | zero => exact sound_zero t
  | succ fuel ih =>
    exact ⟨ih.parseOr_succ, ih.parseOrTail_succ, ih.parseAnd_succ, ih.parseAndTail_succ,
      ih.parseNot_succ, ih.parsePrimary_succ⟩

theorem derives_of_ofTokens (done : ofTokens t ts = .ok e) : Derives t .disjunction ts e := by
  rw [ofTokens] at done
  obtain ⟨⟨read, rest⟩, first, whole⟩ := exceptBind_ok done
  obtain ⟨front, same, derives⟩ := (sound t _).or first
  cases rest with
  | nil =>
    cases whole
    rwa [same, List.append_nil]
  | cons token rest => cases whole

end Soundness

section Completeness

/-- The tokens of an expression are read as it, as long as what follows cannot belong to it. On the
two levels that group from the left the last term read may be followed by more of its level, so
there the reader is only said to arrive at its tail, with fuel left for it. -/
def Reads (t : Tree) : Level → List Token → Expr → Prop
  | .disjunction, ts, e => ∀ fuel rest, 4 * ts.length ≤ fuel → Uncompared rest →
      rest.head? ≠ some Token.and → ∃ left, fuel ≤ left + ts.length ∧
        parseOr t fuel (ts ++ rest) = parseOrTail t left e rest
  | .conjunction, ts, e => ∀ fuel rest, 4 * ts.length ≤ fuel + 1 → Uncompared rest →
      ∃ left, fuel ≤ left + ts.length ∧
        parseAnd t fuel (ts ++ rest) = parseAndTail t left e rest
  | .negation, ts, e => ∀ fuel rest, 4 * ts.length ≤ fuel + 2 → Uncompared rest →
      parseNot t fuel (ts ++ rest) = .ok (e, rest)
  | .primary, ts, e => ∀ fuel rest, 4 * ts.length ≤ fuel + 3 → Uncompared rest →
      parsePrimary t fuel (ts ++ rest) = .ok (e, rest)

variable {t : Tree} {fuel : Nat} {ts rest front middle back : List Token} {level : Level}
  {e a b c : Expr} {token : Token}

theorem uncompared_cons (other : comparison? token = none) (ts : List Token) :
    Uncompared (token :: ts) := by
  intro head same
  cases same
  exact other

theorem uncompared_nil : Uncompared [] := nofun

theorem Derives.length_pos (derives : Derives t level ts e) : 0 < ts.length := by
  induction derives <;>
    first | assumption | (simp only [List.length_append, List.length_cons]; omega)

theorem Derives.head_ne_not (derives : Derives t .primary ts e) :
    (ts ++ rest).head? ≠ some Token.not := by
  cases derives with
  | binary starts =>
    intro same
    cases same
    cases starts
  | _ => simp

theorem Reads.parseAnd (reads : Reads t .conjunction ts e) (positive : 0 < ts.length)
    (enough : 4 * ts.length ≤ fuel + 1) (uncompared : Uncompared rest)
    (ends : rest.head? ≠ some Token.and) : parseAnd t fuel (ts ++ rest) = .ok (e, rest) := by
  obtain ⟨left, bound, read⟩ := reads fuel rest enough uncompared
  obtain ⟨left, rfl⟩ := Nat.exists_eq_succ_of_ne_zero (n := left) (by omega)
  rw [read, parseAndTail_of_ne ends]

theorem Reads.parseOr (reads : Reads t .disjunction ts e) (positive : 0 < ts.length)
    (enough : 4 * ts.length ≤ fuel) (uncompared : Uncompared rest)
    (ends : rest.head? ≠ some Token.and) (last : rest.head? ≠ some Token.or) :
    parseOr t fuel (ts ++ rest) = .ok (e, rest) := by
  obtain ⟨left, bound, read⟩ := reads fuel rest enough uncompared ends
  obtain ⟨left, rfl⟩ := Nat.exists_eq_succ_of_ne_zero (n := left) (by omega)
  rw [read, parseOrTail_of_ne last]

theorem Reads.ofPrimary (reads : Reads t .primary ts e) (derives : Derives t .primary ts e) :
    Reads t .negation ts e := by
  intro fuel rest enough uncompared
  have positive := derives.length_pos
  obtain ⟨fuel, rfl⟩ := Nat.exists_eq_succ_of_ne_zero (n := fuel) (by omega)
  rw [parseNot_of_ne derives.head_ne_not]
  exact reads fuel rest (by omega) uncompared

theorem Reads.negation (reads : Reads t .negation ts e) :
    Reads t .negation (Token.not :: ts) (.not e) := by
  intro fuel rest enough uncompared
  rw [List.length_cons] at enough
  obtain ⟨fuel, rfl⟩ := Nat.exists_eq_succ_of_ne_zero (n := fuel) (by omega)
  rw [List.cons_append, parseNot_not, reads fuel rest (by omega) uncompared]
  rfl

theorem Reads.ofNegation (reads : Reads t .negation ts e) (positive : 0 < ts.length) :
    Reads t .conjunction ts e := by
  intro fuel rest enough uncompared
  obtain ⟨fuel, rfl⟩ := Nat.exists_eq_succ_of_ne_zero (n := fuel) (by omega)
  refine ⟨fuel, by omega, ?_⟩
  rw [Expr.parseAnd, reads fuel rest (by omega) uncompared]
  rfl

theorem Reads.conjunction (first : Reads t .conjunction front a)
    (second : Reads t .negation back b) :
    Reads t .conjunction (front ++ Token.and :: back) (.logic .and a b) := by
  intro fuel rest enough uncompared
  rw [List.length_append, List.length_cons] at enough ⊢
  -- After the front the reader stands at its tail, and there the `and` is next.
  obtain ⟨left, bound, read⟩ :=
    first fuel (Token.and :: (back ++ rest)) (by omega) (uncompared_cons rfl _)
  obtain ⟨left, rfl⟩ := Nat.exists_eq_succ_of_ne_zero (n := left) (by omega)
  refine ⟨left, by omega, ?_⟩
  rw [List.append_assoc, List.cons_append, read, parseAndTail_and,
    second left rest (by omega) uncompared]
  rfl

theorem Reads.ofConjunction (reads : Reads t .conjunction ts e) (positive : 0 < ts.length) :
    Reads t .disjunction ts e := by
  intro fuel rest enough uncompared ends
  obtain ⟨fuel, rfl⟩ := Nat.exists_eq_succ_of_ne_zero (n := fuel) (by omega)
  refine ⟨fuel, by omega, ?_⟩
  rw [Expr.parseOr, reads.parseAnd positive (by omega) uncompared ends]
  rfl

theorem Reads.disjunction (first : Reads t .disjunction front a)
    (second : Reads t .conjunction back b) (positive : 0 < back.length) :
    Reads t .disjunction (front ++ Token.or :: back) (.logic .or a b) := by
  intro fuel rest enough uncompared ends
  rw [List.length_append, List.length_cons] at enough ⊢
  obtain ⟨left, bound, read⟩ :=
    first fuel (Token.or :: (back ++ rest)) (by omega) (uncompared_cons rfl _) (by simp)
  obtain ⟨left, rfl⟩ := Nat.exists_eq_succ_of_ne_zero (n := left) (by omega)
  refine ⟨left, by omega, ?_⟩
  rw [List.append_assoc, List.cons_append, read, parseOrTail_or,
    second.parseAnd positive (by omega) uncompared ends]
  rfl

theorem Reads.group (reads : Reads t .disjunction ts e) (positive : 0 < ts.length) :
    Reads t .primary (lparen :: ts ++ [rparen]) e := by
  intro fuel rest enough uncompared
  simp only [List.length_append, List.length_cons, List.length_nil] at enough
  obtain ⟨fuel, rfl⟩ := Nat.exists_eq_succ_of_ne_zero (n := fuel) (by omega)
  have inner : Expr.parseOr t fuel (ts ++ rparen :: rest) = .ok (e, rparen :: rest) :=
    reads.parseOr positive (by omega) (uncompared_cons rfl _) (by simp) (by simp)
  rw [List.append_assoc, List.cons_append, parsePrimary_lparen, List.singleton_append, inner]
  rfl

theorem Reads.choice (first : Reads t .disjunction front c) (second : Reads t .disjunction middle a)
    (third : Reads t .disjunction back b) (frontPos : 0 < front.length)
    (middlePos : 0 < middle.length) (backPos : 0 < back.length) :
    Reads t .primary
      (Token.if :: lparen :: front ++ comma :: middle ++ comma :: back ++ [rparen])
      (.choice c a b) := by
  intro fuel rest enough uncompared
  simp only [List.length_append, List.length_cons, List.length_nil] at enough
  obtain ⟨fuel, rfl⟩ := Nat.exists_eq_succ_of_ne_zero (n := fuel) (by omega)
  have cond (rest : List Token) :
      Expr.parseOr t fuel (front ++ comma :: rest) = .ok (c, comma :: rest) :=
    first.parseOr frontPos (by omega) (uncompared_cons rfl _) (by simp) (by simp)
  have whenTrue (rest : List Token) :
      Expr.parseOr t fuel (middle ++ comma :: rest) = .ok (a, comma :: rest) :=
    second.parseOr middlePos (by omega) (uncompared_cons rfl _) (by simp) (by simp)
  have otherwise : Expr.parseOr t fuel (back ++ rparen :: rest) = .ok (b, rparen :: rest) :=
    third.parseOr backPos (by omega) (uncompared_cons rfl _) (by simp) (by simp)
  simp [parsePrimary_if, expect, Except.bind, cond, whenTrue, otherwise]

theorem reads_binary {left sign right : Token} {o p : Operand} {op : BinaryOp}
    (starts : startsOperand left) (leftDenotes : Denotes t none left o)
    (combines : operator? sign = some op) (rightDenotes : Denotes t (declaredType t o) right p) :
    Reads t .primary [left, sign, right] (.binary op o p) := by
  intro fuel rest enough uncompared
  obtain ⟨fuel, rfl⟩ := Nat.exists_eq_succ_of_ne_zero (n := fuel) (by simp at enough; omega)
  rw [List.cons_append, parsePrimary_operand starts]
  exact parseBinary_of_denotes leftDenotes combines rightDenotes uncompared

theorem reads_constant (token : Token) (b : Bool)
    (read : ∀ fuel rest, parsePrimary t (fuel + 1) (token :: rest) = .ok (.constant b, rest)) :
    Reads t .primary [token] (.constant b) := by
  intro fuel rest enough uncompared
  obtain ⟨fuel, rfl⟩ := Nat.exists_eq_succ_of_ne_zero (n := fuel) (by simp at enough; omega)
  exact read fuel rest

/-- Derivations are read. The induction is on the derivation, and each production has its lemma. -/
theorem Derives.reads (derives : Derives t level ts e) : Reads t level ts e := by
  induction derives with
  | disjunction _ backDerives first second => exact first.disjunction second backDerives.length_pos
  | conjunction _ _ first second => exact first.conjunction second
  | negation _ ih => exact ih.negation
  | ofConjunction derives ih => exact ih.ofConjunction derives.length_pos
  | ofNegation derives ih => exact ih.ofNegation derives.length_pos
  | ofPrimary derives ih => exact ih.ofPrimary derives
  | true => exact reads_constant Token.true Bool.true fun _ _ => rfl
  | false => exact reads_constant Token.false Bool.false fun _ _ => rfl
  | group derives ih => exact ih.group derives.length_pos
  | choice frontDerives middleDerives backDerives first second third =>
    exact first.choice second third frontDerives.length_pos middleDerives.length_pos
      backDerives.length_pos
  | binary starts leftDenotes combines rightDenotes =>
    exact reads_binary starts leftDenotes combines rightDenotes

theorem Derives.ofTokens (derives : Derives t .disjunction ts e) : ofTokens t ts = .ok e := by
  have whole : parseOr t (4 * ts.length + 4) ts = .ok (e, []) := by
    have read : parseOr t (4 * ts.length + 4) (ts ++ []) = .ok (e, []) :=
      derives.reads.parseOr derives.length_pos (by omega) uncompared_nil nofun nofun
    rwa [List.append_nil] at read
  rw [Expr.ofTokens, whole]
  rfl

end Completeness

section Signs

/-- Every arithmetic sign has a token after it, and then no comparison. -/
def Settled (ts : List Token) : Prop := ∀ i sign, ts[i]? = some sign → (arithmetic? sign).isSome →
  i + 1 < ts.length ∧ Uncompared (ts.drop (i + 2))

variable {t : Tree} {level : Level} {ts front back : List Token} {token : Token} {e : Expr}
  {type : Option FieldType} {o : Operand}

theorem settled_nil : Settled [] := nofun

theorem Settled.join (first : Settled front) (token : Token) (second : Settled back)
    (noSign : arithmetic? token = none) (noComparison : comparison? token = none) :
    Settled (front ++ token :: back) := by
  intro i sign here arithmetic
  rw [List.length_append, List.length_cons]
  rcases Nat.lt_trichotomy i front.length with inside | rfl | after
  · rw [List.getElem?_append_left inside] at here
    obtain ⟨follows, uncompared⟩ := first i sign here arithmetic
    refine ⟨by omega, ?_⟩
    rw [List.drop_append_of_le_length (by omega)]
    intro head same
    cases kept : front.drop (i + 2) with
    | nil =>
      rw [kept] at same
      cases same
      exact noComparison
    | cons other others =>
      rw [kept] at same uncompared
      exact uncompared head same
  · rw [List.getElem?_append_right (Nat.le_refl _), Nat.sub_self] at here
    cases here
    rw [noSign] at arithmetic
    cases arithmetic
  · obtain ⟨j, rfl⟩ : ∃ j, i = front.length + 1 + j := ⟨i - front.length - 1, by omega⟩
    have there : back[j]? = some sign := by
      rw [List.getElem?_append_right (by omega)] at here
      rwa [show front.length + 1 + j - front.length = j + 1 by omega,
        List.getElem?_cons_succ] at here
    obtain ⟨follows, uncompared⟩ := second j sign there arithmetic
    refine ⟨by omega, ?_⟩
    rwa [List.drop_append, List.drop_eq_nil_of_le (by omega), List.nil_append,
      show front.length + 1 + j + 2 - front.length = j + 2 + 1 by omega, List.drop_succ_cons]

theorem Denotes.no_sign (denotes : Denotes t type token o) : arithmetic? token = none := by
  cases denotes with
  | name => rfl
  | null => rfl
  | literal denoted => cases token <;> simp_all [literal?, arithmetic?]
  | cast denoted => cases token <;> simp_all [literal?, arithmetic?]

theorem settled_binary {left right : Token} (noSign : arithmetic? left = none)
    (lastNoSign : arithmetic? right = none) : Settled [left, token, right] := by
  intro i sign here arithmetic
  match i with
  | 0 =>
    cases here
    simp [noSign] at arithmetic
  | 1 => exact ⟨by simp, uncompared_nil⟩
  | 2 =>
    cases here
    simp [lastNoSign] at arithmetic
  | i + 3 => simp at here

theorem Derives.settled (derives : Derives t level ts e) : Settled ts := by
  induction derives with
  | disjunction _ _ first second => exact first.join Token.or second rfl rfl
  | conjunction _ _ first second => exact first.join Token.and second rfl rfl
  | negation _ ih => exact settled_nil.join Token.not ih rfl rfl
  | ofConjunction _ ih => exact ih
  | ofNegation _ ih => exact ih
  | ofPrimary _ ih => exact ih
  | true => exact settled_nil.join Token.true settled_nil rfl rfl
  | false => exact settled_nil.join Token.false settled_nil rfl rfl
  | group _ ih =>
    have closed := ih.join Token.rparen settled_nil rfl rfl
    exact settled_nil.join Token.lparen closed rfl rfl
  | choice _ _ _ first second third =>
    have closed := third.join Token.rparen settled_nil rfl rfl
    have branches := second.join Token.comma closed rfl rfl
    have parts := first.join Token.comma branches rfl rfl
    have opened := settled_nil.join Token.lparen parts rfl rfl
    have whole := settled_nil.join Token.if opened rfl rfl
    simpa using whole
  | binary _ leftDenotes _ rightDenotes =>
    exact settled_binary leftDenotes.no_sign rightDenotes.no_sign

end Signs

/-- Tokens are read as an expression exactly if the grammar has them as a whole, and then as the
one expression that they spell. A comparison of what arithmetic gives is never read. -/
theorem ofTokens_eq_ok_iff (t : Tree) (ts : List Token) :
    (∀ e, ofTokens t ts = .ok e ↔ Derives t .disjunction ts e ∧
      ∀ other, Derives t .disjunction ts other → other = e) ∧
    ∀ front sign right compared back, (arithmetic? sign).isSome → (comparison? compared).isSome →
      ts = front ++ sign :: right :: compared :: back → ∀ e, ofTokens t ts ≠ .ok e := by
  constructor
  · intro e
    constructor
    · intro read
      refine ⟨derives_of_ofTokens read, fun other derives => ?_⟩
      have again := derives.ofTokens
      rw [read] at again
      exact (Except.ok.inj again).symm
    · rintro ⟨derives, -⟩
      exact derives.ofTokens
  · rintro front sign right compared back arithmetic compares rfl e read
    have settled := (derives_of_ofTokens read).settled
    have here : (front ++ sign :: right :: compared :: back)[front.length]? = some sign := by simp
    obtain ⟨-, uncompared⟩ := settled front.length sign here arithmetic
    have none : comparison? compared = none := uncompared compared (by simp [List.drop_append])
    simp [none] at compares

def joinedTokens : List Token :=
  [Token.true, Token.or, Token.false, Token.and, Token.not, Token.true]

def joined : Expr :=
  .logic .or (.constant true) (.logic .and (.constant false) (.not (.constant true)))

theorem ofTokens_eq_ok_iff_joined :
    (Derives .new .disjunction joinedTokens joined ∧
      ∀ other, Derives .new .disjunction joinedTokens other → other = joined) ∧
    ∀ e, ofTokens .new [.int 1, .plus, .int 2, .gt, .int 3] ≠ .ok e := by
  have read : ofTokens .new joinedTokens = .ok joined := rfl
  constructor
  · exact ((ofTokens_eq_ok_iff _ _).1 _).mp read
  · exact (ofTokens_eq_ok_iff _ _).2 [.int 1] .plus (.int 2) .gt [.int 3] rfl rfl rfl

end LayeredTable.Expr
