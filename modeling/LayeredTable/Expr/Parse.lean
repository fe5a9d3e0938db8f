import LayeredTable.Expr.Basic

/-! Reading expressions. `or` binds least, then `and`, then `not`; a comparison or a sum has one
operand on each side. Names are looked up among the root's columns, and a literal to the right of
a column is cast to the column's declared type. -/
namespace LayeredTable.Expr

open Token

def comparison? : Token → Option BinaryOp
  | eqEq => some .eq
  | notEq => some .ne
  | gt => some .gt
  | ge => some .ge
  | lt => some .lt
  | le => some .le
  | _ => none

def arithmetic? : Token → Option BinaryOp
  | plus => some .add
  | minus => some .subtract
  | _ => none

/-- The value that a literal token denotes; null is no literal of this kind. -/
def literal? : Token → Option Value
  | int n => Value.ofInt? .int64 n
  | float x => some (.float64 x)
  | str s => some (.text s)
  | Token.true => some (.bool Bool.true)
  | Token.false => some (.bool Bool.false)
  | _ => none

def parseOperand (t : Tree) (type : Option FieldType) :
    List Token → Except ExprError (Operand × List Token)
  | [] => .error (.parse .unexpectedEnd)
  | ident name :: rest =>
    match t.findByName 0 name with
    | some i => .ok (.column i, rest)
    | none => .error (.unknownColumn name)
  | null :: rest => .ok (.null, rest)
  | token :: rest =>
    match literal? token with
    | none => .error (.parse (.expectedOperand token))
    | some v =>
      match type with
      | none => .ok (.ofValue v, rest)
      | some type =>
        match v.cast type with
        | .ok w => .ok (.literal w type, rest)
        | .error e => .error (.resolve e)

def declaredType (t : Tree) : Operand → Option FieldType
  | .column i => (t.nodes[i]?).map (·.type)
  | .literal _ _ => none

/-- Refuses a comparison of what arithmetic gives. -/
def refuseComparison : List Token → Except ExprError Unit
  | token :: _ =>
    if (comparison? token).isSome then .error (.parse .comparedArithmetic) else .ok ()
  | [] => .ok ()

def parseBinary (t : Tree) (ts : List Token) : Except ExprError (Expr × List Token) := do
  let (left, ts) ← parseOperand t none ts
  match ts with
  | [] => throw (.parse (.expectedOperator none))
  | token :: ts =>
    match comparison? token, arithmetic? token with
    | some op, _ =>
      let (right, ts) ← parseOperand t (declaredType t left) ts
      return (.binary op left right, ts)
    | none, some op =>
      let (right, ts) ← parseOperand t (declaredType t left) ts
      refuseComparison ts
      return (.binary op left right, ts)
    | none, none => throw (.parse (.expectedOperator (some token)))

def expect (token : Token) (what : String) : List Token → Except ExprError (List Token)
  | head :: rest => if head = token then .ok rest else .error (.parse (.expected what))
  | [] => .error (.parse (.expected what))

/-- Whether an operand can start with the token; the booleans are expressions there. -/
def startsOperand : Token → Bool
  | ident _ | int _ | float _ | str _ | null => Bool.true
  | _ => Bool.false

mutual

def parseOr (t : Tree) : (fuel : Nat) → List Token → Except ExprError (Expr × List Token)
  | 0, _ => .error (.parse .unexpectedEnd)
  | fuel + 1, ts => do
    let (left, ts) ← parseAnd t fuel ts
    parseOrTail t fuel left ts

def parseOrTail (t : Tree) : (fuel : Nat) → Expr → List Token →
    Except ExprError (Expr × List Token)
  | 0, _, _ => .error (.parse .unexpectedEnd)
  | fuel + 1, left, Token.or :: ts => do
    let (right, ts) ← parseAnd t fuel ts
    parseOrTail t fuel (.logic .or left right) ts
  | _ + 1, left, ts => .ok (left, ts)

def parseAnd (t : Tree) : (fuel : Nat) → List Token → Except ExprError (Expr × List Token)
  | 0, _ => .error (.parse .unexpectedEnd)
  | fuel + 1, ts => do
    let (left, ts) ← parseNot t fuel ts
    parseAndTail t fuel left ts

def parseAndTail (t : Tree) : (fuel : Nat) → Expr → List Token →
    Except ExprError (Expr × List Token)
  | 0, _, _ => .error (.parse .unexpectedEnd)
  | fuel + 1, left, Token.and :: ts => do
    let (right, ts) ← parseNot t fuel ts
    parseAndTail t fuel (.logic .and left right) ts
  | _ + 1, left, ts => .ok (left, ts)

def parseNot (t : Tree) : (fuel : Nat) → List Token → Except ExprError (Expr × List Token)
  | 0, _ => .error (.parse .unexpectedEnd)
  | fuel + 1, Token.not :: ts => do
    let (inner, ts) ← parseNot t fuel ts
    return (.not inner, ts)
  | fuel + 1, ts => parsePrimary t fuel ts

def parsePrimary (t : Tree) : (fuel : Nat) → List Token → Except ExprError (Expr × List Token)
  | 0, _ => .error (.parse .unexpectedEnd)
  | _ + 1, [] => .error (.parse .unexpectedEnd)
  | _ + 1, Token.true :: ts => .ok (.constant Bool.true, ts)
  | _ + 1, Token.false :: ts => .ok (.constant Bool.false, ts)
  | fuel + 1, lparen :: ts => do
    let (inner, ts) ← parseOr t fuel ts
    let ts ← expect rparen "closing ')'" ts
    return (inner, ts)
  | fuel + 1, Token.if :: ts => do
    let ts ← expect lparen "'(' after if" ts
    let (cond, ts) ← parseOr t fuel ts
    let ts ← expect comma "',' after if condition" ts
    let (whenTrue, ts) ← parseOr t fuel ts
    let ts ← expect comma "',' after if branch" ts
    let (otherwise, ts) ← parseOr t fuel ts
    let ts ← expect rparen "closing ')' of if" ts
    return (.choice cond whenTrue otherwise, ts)
  | _ + 1, token :: ts =>
    if startsOperand token then parseBinary t (token :: ts)
    else .error (.parse (.unexpectedToken token))

end

/-- Reads an expression that takes all tokens. Each level of nesting passes the four readers once
and takes at least one token. -/
def ofTokens (t : Tree) (ts : List Token) : Except ExprError Expr := do
  let (e, rest) ← parseOr t (4 * ts.length + 4) ts
  match rest with
  | [] => return e
  | token :: _ => throw (.parse (.leftover (ts.length - rest.length) token))

def ofText (t : Tree) (s : String) : Except ExprError Expr := do
  let ts ← (Token.ofText s).mapError .parse
  ofTokens t ts

end LayeredTable.Expr
