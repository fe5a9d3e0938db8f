import LayeredTable.Expr.Parse

/-! The grammar of expressions, as a relation between tokens and the expression they spell. The
relation says nothing of how tokens are read: a derivation takes the whole of its tokens, and `or`
and `and` group from the left because only their left side may be of their own level. -/
namespace LayeredTable.Expr

/-- How tightly the parts of an expression are bound, loosest first. -/
inductive Level
  | disjunction
  | conjunction
  | negation
  | primary
  deriving DecidableEq, Repr

/-- The operand that one token names or denotes. Where there is a type, a literal denotes its cast
to it. -/
inductive Denotes (t : Tree) : Option FieldType → Token → Operand → Prop
  | name : t.findByName 0 name = some i → Denotes t type (.ident name) (.column i)
  | null : Denotes t type .null .null
  | literal : literal? token = some v → Denotes t none token (.ofValue v)
  | cast : literal? token = some v → v.cast type = .ok w →
      Denotes t (some type) token (.literal w type)

def operator? (token : Token) : Option BinaryOp := (comparison? token).or (arithmetic? token)

/-- Tokens spell an expression at a level. On its own a boolean is an expression, so no operand on
the left is one. -/
inductive Derives (t : Tree) : Level → List Token → Expr → Prop
  | disjunction : Derives t .disjunction front a → Derives t .conjunction back b →
      Derives t .disjunction (front ++ Token.or :: back) (.logic .or a b)
  | conjunction : Derives t .conjunction front a → Derives t .negation back b →
      Derives t .conjunction (front ++ Token.and :: back) (.logic .and a b)
  | negation : Derives t .negation ts e → Derives t .negation (Token.not :: ts) (.not e)
  | ofConjunction : Derives t .conjunction ts e → Derives t .disjunction ts e
  | ofNegation : Derives t .negation ts e → Derives t .conjunction ts e
  | ofPrimary : Derives t .primary ts e → Derives t .negation ts e
  | true : Derives t .primary [Token.true] (.constant Bool.true)
  | false : Derives t .primary [Token.false] (.constant Bool.false)
  | group : Derives t .disjunction ts e →
      Derives t .primary (Token.lparen :: ts ++ [Token.rparen]) e
  | choice : Derives t .disjunction front c → Derives t .disjunction middle a →
      Derives t .disjunction back b →
      Derives t .primary
        (Token.if :: Token.lparen :: front ++ Token.comma :: middle ++ Token.comma :: back ++
          [Token.rparen])
        (.choice c a b)
  | binary : startsOperand left → Denotes t none left a → operator? token = some op →
      Denotes t (declaredType t a) right b →
      Derives t .primary [left, token, right] (.binary op a b)

end LayeredTable.Expr
