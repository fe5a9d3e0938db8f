import LayeredTable.Binary.Text
import LayeredTable.FieldType
import LayeredTable.Text.Blank
import LayeredTable.Text.Letter
import LayeredTable.Text.Quoted

/-! The tokens of expression text, and how text is cut into them. -/
namespace LayeredTable

open Text

inductive Token
  | ident (name : String)
  | int (n : Int)
  | float (x : Binary64)
  | str (s : String)
  | true
  | false
  | null
  | eqEq
  | notEq
  | gt
  | ge
  | lt
  | le
  | plus
  | minus
  | lparen
  | rparen
  | comma
  | and
  | or
  | not
  | if
  deriving DecidableEq, Repr

namespace Token

def label : Token → String
  | ident name => "Ident(" ++ quoted name ++ ")"
  | int n => "Int(" ++ intText n ++ ")"
  | float x => "Float(" ++ x.text .message ++ ")"
  | str s => "Str(" ++ quoted s ++ ")"
  | true => "True"
  | false => "False"
  | null => "Null"
  | eqEq => "EqEq"
  | notEq => "NotEq"
  | gt => "Gt"
  | ge => "Ge"
  | lt => "Lt"
  | le => "Le"
  | plus => "Plus"
  | minus => "Minus"
  | lparen => "LParen"
  | rparen => "RParen"
  | comma => "Comma"
  | and => "And"
  | or => "Or"
  | not => "Not"
  | «if» => "If"

/-- Whether a minus sign after the token can only be the operator. -/
def endsOperand : Token → Bool
  | ident _ | int _ | float _ | str _ | rparen => Bool.true
  | _ => Bool.false

def ofWord (w : String) : Token :=
  if w = "and" then and
  else if w = "or" then or
  else if w = "not" then not
  else if w = "if" then «if»
  else if w = "true" then true
  else if w = "false" then false
  else if w = "null" then null
  else ident w

end Token

inductive ParseError
  | invalidFloat (text : String)
  | invalidInteger (text : String)
  | singleEquals
  | singleBang
  | unterminatedQuote
  | unexpectedCharacter (c : Char)
  | unexpectedToken (token : Token)
  | leftover (position : Nat) (token : Token)
  | unexpectedEnd
  | expected (what : String)
  | expectedOperator (found : Option Token)
  | expectedOperand (found : Token)
  | comparedArithmetic
  deriving DecidableEq, Repr

def ParseError.message : ParseError → String
  | invalidFloat text => "invalid float: " ++ text
  | invalidInteger text => "invalid integer: " ++ text
  | singleEquals => "expected '==' but found single '='"
  | singleBang => "expected '!=' but found single '!'"
  | unterminatedQuote => "unterminated quoted text"
  | unexpectedCharacter c => "unexpected character: '" ++ .ofList [c] ++ "'"
  | unexpectedToken token => "unexpected token: " ++ token.label
  | leftover position token =>
    "unexpected token at position " ++ natText position ++ ": " ++ token.label
  | unexpectedEnd => "unexpected end of expression"
  | expected what => "expected " ++ what
  | expectedOperator none => "expected a comparison or arithmetic operator"
  | expectedOperator (some token) =>
    "expected a comparison or arithmetic operator, found " ++ token.label
  | expectedOperand token => "expected an operand, found " ++ token.label
  | comparedArithmetic => "arithmetic results cannot be compared"

namespace Token

def ofNumber (cs : List Char) : Except ParseError Token :=
  if cs.contains '.' then
    match Binary.readPositional cs with
    | some x => .ok (float x)
    | none => .error (.invalidFloat (.ofList cs))
  else
    match (readInt cs).filter fun n => decide (IntegerKind.int64.Admits n) with
    | some n => .ok (int n)
    | none => .error (.invalidInteger (.ofList cs))

def inNumber (c : Char) : Bool := isDigit c || c == '.'

def takeNumber (c : Char) (cs : List Char) : Except ParseError (Token × List Char) :=
  (ofNumber (c :: cs.takeWhile inNumber)).map fun token => (token, cs.dropWhile inNumber)

def takeQuoted (quote : Char) (cs : List Char) : Except ParseError (Token × List Char) :=
  let inner := String.ofList (cs.takeWhile (· != quote))
  match cs.dropWhile (· != quote) with
  | _ :: rest => .ok (if quote = '`' then ident inner else str inner, rest)
  | [] => .error .unterminatedQuote

/-- The token `long` when an equals sign follows, else `short`. -/
def takePair (long : Token) (short : Except ParseError Token) :
    List Char → Except ParseError (Token × List Char)
  | '=' :: rest => .ok (long, rest)
  | cs => short.map fun token => (token, cs)

inductive Opening
  /-- A token of this one character. -/
  | symbol (token : Token)
  | minus
  /-- A token of this character, if it can stand alone, or of this one and an equals sign. -/
  | pair (long : Token) (short : Except ParseError Token)
  | quote
  | digit
  | letter
  | other

def opening (c : Char) : Opening :=
  if c = '+' then .symbol plus
  else if c = '-' then .minus
  else if c = '(' then .symbol lparen
  else if c = ')' then .symbol rparen
  else if c = ',' then .symbol comma
  else if c = '=' then .pair eqEq (.error .singleEquals)
  else if c = '!' then .pair notEq (.error .singleBang)
  else if c = '>' then .pair ge (.ok gt)
  else if c = '<' then .pair le (.ok lt)
  else if c = '\'' ∨ c = '"' ∨ c = '`' then .quote
  else if isDigit c then .digit
  else if startsWord c then .letter
  else .other

/-- The token that starts with `c`, and the text after it. A minus sign before a digit belongs to
the number unless the last token ends an operand. -/
def take (last : Option Token) (c : Char) (cs : List Char) :
    Except ParseError (Token × List Char) :=
  match opening c with
  | .symbol token => .ok (token, cs)
  | .minus =>
    if cs.head?.any isDigit && !last.any endsOperand then takeNumber c cs else .ok (minus, cs)
  | .pair long short => takePair long short cs
  | .quote => takeQuoted c cs
  | .digit => takeNumber c cs
  | .letter =>
    .ok (ofWord (.ofList (c :: cs.takeWhile continuesWord)), cs.dropWhile continuesWord)
  | .other => .error (.unexpectedCharacter c)

theorem length_dropWhile_le (p : Char → Bool) (cs : List Char) :
    (cs.dropWhile p).length ≤ cs.length := (List.dropWhile_sublist p).length_le

theorem length_takeNumber_le {c : Char} {cs rest : List Char} {token : Token}
    (h : takeNumber c cs = .ok (token, rest)) : rest.length ≤ cs.length := by
  unfold takeNumber at h
  cases read : ofNumber (c :: cs.takeWhile inNumber) with
  | error e => simp [read, Except.map] at h
  | ok t =>
    simp only [read, Except.map, Except.ok.injEq, Prod.mk.injEq] at h
    exact h.2 ▸ length_dropWhile_le _ _

theorem length_takeQuoted_le {quote : Char} {cs rest : List Char} {token : Token}
    (h : takeQuoted quote cs = .ok (token, rest)) : rest.length ≤ cs.length := by
  have bound := length_dropWhile_le (· != quote) cs
  unfold takeQuoted at h
  split at h
  · rename_i same
    simp only [Except.ok.injEq, Prod.mk.injEq] at h
    rw [same, h.2] at bound
    exact Nat.le_of_succ_le bound
  · cases h

theorem length_takePair_le {long : Token} {short : Except ParseError Token}
    {cs rest : List Char} {token : Token} (h : takePair long short cs = .ok (token, rest)) :
    rest.length ≤ cs.length := by
  unfold takePair at h
  cases short <;> grind [Except.map]

/-- A token leaves no more text than follows its first character. -/
theorem length_take_le {last : Option Token} {c : Char} {cs rest : List Char} {token : Token}
    (h : take last c cs = .ok (token, rest)) : rest.length ≤ cs.length := by
  unfold take at h
  cases c' : opening c <;> simp only [c'] at h
  case symbol => cases h; exact Nat.le_refl _
  case minus =>
    split at h
    · exact length_takeNumber_le h
    · cases h; exact Nat.le_refl _
  case pair => exact length_takePair_le h
  case quote => exact length_takeQuoted_le h
  case digit => exact length_takeNumber_le h
  case letter => cases h; exact length_dropWhile_le _ _
  case other => cases h

/-- The tokens of a text that follows the token `last`. Blanks separate tokens and are no part of
any. -/
def scan (last : Option Token) : List Char → Except ParseError (List Token)
  | [] => .ok []
  | c :: cs =>
    if isBlank c then scan last cs
    else
      match _h : take last c cs with
      | .error e => .error e
      | .ok (token, rest) => (scan (some token) rest).map (token :: ·)
termination_by cs => cs.length
decreasing_by
  · simp
  · exact Nat.lt_succ_of_le (length_take_le _h)

def ofText (s : String) : Except ParseError (List Token) := scan none s.toList

end Token
end LayeredTable
