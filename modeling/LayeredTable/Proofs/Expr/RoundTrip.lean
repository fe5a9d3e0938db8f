import LayeredTable.Proofs.Expr.Derivation
import LayeredTable.Proofs.Expr.Spelling
import LayeredTable.Proofs.Expr.Steps
import LayeredTable.Proofs.Ingest.Table

/-! Written expressions read back. The text is cut into the tokens that the writer put down, and
these derive the expression: the parentheses stand wherever a part binds less tightly than its
place in the grammar asks. Main statement: `Expr.ofText_text`. -/
namespace LayeredTable

open Text

/-- The column of a node is the first that the root finds under the node's name, and the name can
stand between backticks. -/
structure Named (t : Tree) (i : Nat) (n : Node) : Prop where
  node : t.nodes[i]? = some n
  found : t.findByName 0 n.name = some i
  plain : '`' ∉ n.name.toList

/-- The values with a spelling: integers, booleans, and texts that lack one of the quotes. -/
inductive Value.Spellable : Value → Prop
  | integer (kind : IntegerKind) (n : Int) (admitted : kind.Admits n) :
      Spellable (.integer kind n admitted)
  | bool (b : Bool) : Spellable (.bool b)
  | text : '\'' ∉ s.toList ∨ '"' ∉ s.toList → Spellable (.text s)

inductive Operand.Spellable (t : Tree) (type : FieldType) : Operand → Prop
  | column : Named t i n → Spellable t type (.column i)
  | null : Spellable t type .null
  | literal : v.conformsTo type → v.Spellable → Spellable t type (.literal v type)

inductive Expr.Spellable (t : Tree) : Expr → Prop
  | constant : Spellable t (.constant b)
  | binary : Named t i n → right.Spellable t n.type → Spellable t (.binary op (.column i) right)
  | not : Spellable t e → Spellable t (.not e)
  | logic : Spellable t a → Spellable t b → Spellable t (.logic op a b)
  | choice : Spellable t c → Spellable t a → Spellable t b → Spellable t (.choice c a b)

variable {t : Tree} {i : Nat} {n : Node} {type : FieldType} {o : Operand} {v : Value}
  {kind : IntegerKind} {cs : List Char} {ts : List Token} {w : Written} {e : Expr}

section Literals

/-- A literal's token denotes a value that casts to the literal's. -/
theorem Value.Spellable.literal (spellable : v.Spellable) (conforms : v.conformsTo type) :
    ∃ w, Expr.literal? ((Operand.literal v type).token t) = some w ∧ w.cast type = .ok v := by
  cases spellable with
  | bool b => exact ⟨.bool b, by cases b <;> rfl, cast_of_conformsTo conforms⟩
  | text => exact ⟨_, rfl, cast_of_conformsTo conforms⟩
  | integer kind n admitted =>
    obtain rfl : .integer kind = type := by
      cases type <;> simp_all [conformsTo, Value.kind]
    by_cases word : IntegerKind.int64.Admits n
    · refine ⟨.integer .int64 n word, ?_, cast_of_integral rfl admitted⟩
      simp [Operand.token, word, Expr.literal?, ofInt?]
    · refine ⟨.text (intText n), ?_, cast_of_integral ?_ admitted⟩
      · simp [Operand.token, word, Expr.literal?]
      · exact integral?_intText admitted.isWide

theorem Named.denotes (named : Named t i n) (type : Option FieldType) :
    Expr.Denotes t type ((Operand.column i).token t) (.column i) := by
  have token : (Operand.column i).token t = .ident n.name := by simp [Operand.token, named.node]
  exact token ▸ .name named.found

theorem Operand.Spellable.denotes (spellable : o.Spellable t type) :
    Expr.Denotes t (some type) (o.token t) o := by
  cases spellable with
  | column named => exact named.denotes _
  | null => exact .null
  | literal conforms spellable =>
    obtain ⟨w, denotes, casts⟩ := spellable.literal conforms
    exact .cast denotes casts

end Literals

section Cutting

open Token

theorem Named.cut (named : Named t i n) (cut : Cut cs ts) :
    Cut ((Operand.column i).chars t ++ cs) ((Operand.column i).token t :: ts) := by
  have name := cut.name named.plain
  simpa [Operand.chars, Operand.token, named.node] using name

/-- An operand after an operator is cut out as its token. -/
theorem Operand.Spellable.scan (spellable : o.Spellable t type) (op : BinaryOp) (cut : Cut cs ts)
    (delimited : Delimited cs) :
    Token.scan (some op.token) (o.chars t ++ cs) = .ok (o.token t :: ts) := by
  cases spellable with
  | column named => exact named.cut cut _
  | null => exact cut.word 'n' "ull".toList rfl rfl rfl rfl delimited _
  | literal conforms spellable =>
    cases spellable with
    | bool b => exact cut.truth delimited b _
    | text plain => exact cut.quoted plain _
    | integer kind n admitted =>
      by_cases word : IntegerKind.int64.Admits n
      · have number := scan_intChars cut word delimited op.token_free
        simpa [Operand.chars, Operand.token, integerChars, word] using number
      · have between := cut.between (.inl rfl) (not_mem_intChars (by decide) rfl n)
        simpa [Operand.chars, Operand.token, integerChars, word, intText] using
          between (some op.token)

end Cutting

namespace Written

def encloseTokens (least : Nat) (w : Written) (ts : List Token) : List Token :=
  if w.rank < least then .lparen :: ts ++ [.rparen] else ts

def tokens (t : Tree) : Written → List Token
  | constant b => [if b then .true else .false]
  | binary op left right => [left.token t, op.token, right.token t]
  | not inner => .not :: inner.encloseTokens 2 (inner.tokens t)
  | logic .or left right => left.tokens t ++ .or :: right.encloseTokens 1 (right.tokens t)
  | logic .and left right =>
    left.encloseTokens 1 (left.tokens t) ++ .and :: right.encloseTokens 2 (right.tokens t)
  | choice cond whenTrue otherwise =>
    .if :: .lparen :: cond.tokens t ++ .comma :: whenTrue.tokens t ++ .comma ::
      otherwise.tokens t ++ [.rparen]
  | group inner => .lparen :: inner.tokens t ++ [.rparen]

section Characters

variable (left right inner : Written)

@[simp] theorem chars_binary (op : BinaryOp) (a b : Operand) :
    (binary op a b).chars t = a.chars t ++ ' ' :: op.chars ++ ' ' :: b.chars t := rfl

@[simp] theorem chars_not :
    (not inner).chars t = 'n' :: 'o' :: 't' :: ' ' :: inner.enclose 2 (inner.chars t) := rfl

@[simp] theorem chars_or : (logic .or left right).chars t =
    left.chars t ++ ' ' :: 'o' :: 'r' :: ' ' :: right.enclose 1 (right.chars t) := by
  show left.chars t ++ " or ".toList ++ right.enclose 1 (right.chars t) = _
  simp

@[simp] theorem chars_and : (logic .and left right).chars t =
    left.enclose 1 (left.chars t) ++ ' ' :: 'a' :: 'n' :: 'd' :: ' ' ::
      right.enclose 2 (right.chars t) := by
  show left.enclose 1 (left.chars t) ++ " and ".toList ++ right.enclose 2 (right.chars t) = _
  simp

@[simp] theorem chars_choice (cond : Written) : (choice cond left right).chars t =
    'i' :: 'f' :: '(' :: cond.chars t ++ ',' :: ' ' :: left.chars t ++ ',' :: ' ' ::
      right.chars t ++ [')'] := by
  show "if(".toList ++ cond.chars t ++ ", ".toList ++ left.chars t ++ ", ".toList ++
    right.chars t ++ [')'] = _
  simp

@[simp] theorem chars_group : (group inner).chars t = '(' :: inner.chars t ++ [')'] := rfl

end Characters

section Cutting

open Token

/-- The expression's characters are cut into its tokens, in front of any text that goes on with
no word or numeral. -/
def Cuts (t : Tree) (w : Written) : Prop :=
  ∀ cs ts, Cut cs ts → Delimited cs → Cut (w.chars t ++ cs) (w.tokens t ++ ts)

theorem Cuts.between (cuts : w.Cuts t) (cut : Cut cs ts) :
    Cut ('(' :: w.chars t ++ ')' :: cs) (.lparen :: w.tokens t ++ .rparen :: ts) := by
  have closed : Cut (')' :: cs) (.rparen :: ts) := cut.symbol rfl rfl
  exact (cuts _ _ closed (delimited_cons cs ⟨rfl, rfl⟩)).symbol rfl rfl

theorem Cuts.enclose (cuts : w.Cuts t) (least : Nat) (cut : Cut cs ts) (delimited : Delimited cs) :
    Cut (w.enclose least (w.chars t) ++ cs) (w.encloseTokens least (w.tokens t) ++ ts) := by
  by_cases loose : w.rank < least
  · simpa [Written.enclose, encloseTokens, loose] using cuts.between cut
  · simpa [Written.enclose, encloseTokens, loose] using cuts cs ts cut delimited

theorem cuts_binary (op : BinaryOp) (named : Named t i n) (spellable : o.Spellable t type) :
    (binary op (.column i) o).Cuts t := by
  intro cs ts cut delimited
  have operator : Cut (op.chars ++ ' ' :: o.chars t ++ cs) (op.token :: o.token t :: ts) := by
    intro last
    have right := spellable.scan op cut delimited
    simp only [List.append_assoc, List.cons_append, op.scan_chars, right]
    rfl
  simpa [tokens] using named.cut operator.blank

theorem cuts_of_spellable (spellable : w.expr.Spellable t) : w.Cuts t := by
  induction w with
  | constant b =>
    intro cs ts cut delimited
    exact cut.truth delimited b
  | binary op left right =>
    obtain _ | ⟨named, right⟩ := spellable
    exact cuts_binary op named right
  | not inner ih =>
    obtain _ | _ | inner := spellable
    intro cs ts cut delimited
    have operand := (ih inner).enclose 2 cut delimited
    have negated : Cut _ (.not :: _) := operand.keyword 'n' "ot".toList rfl rfl rfl rfl
    simpa [tokens] using negated
  | logic op left right ihLeft ihRight =>
    obtain _ | _ | _ | ⟨left, right⟩ := spellable
    intro cs ts cut delimited
    cases op with
    | or =>
      have back := (ihRight right).enclose 1 cut delimited
      have joined : Cut _ (.or :: _) := back.keyword 'o' "r".toList rfl rfl rfl rfl
      simpa [tokens] using ihLeft left _ _ joined.blank (delimited_cons _ ⟨rfl, rfl⟩)
    | and =>
      have back := (ihRight right).enclose 2 cut delimited
      have joined : Cut _ (.and :: _) := back.keyword 'a' "nd".toList rfl rfl rfl rfl
      simpa [tokens] using
        (ihLeft left).enclose 1 joined.blank (delimited_cons _ ⟨rfl, rfl⟩)
  | choice cond whenTrue otherwise ihCond ihTrue ihOtherwise =>
    obtain _ | _ | _ | _ | ⟨cond, whenTrue, otherwise⟩ := spellable
    intro cs ts cut delimited
    have closed : Cut (')' :: cs) (.rparen :: ts) := cut.symbol rfl rfl
    have last := ihOtherwise otherwise _ _ closed (delimited_cons _ ⟨rfl, rfl⟩)
    have second : Cut (',' :: ' ' :: _) (.comma :: _) := last.blank.symbol rfl rfl
    have middle := ihTrue whenTrue _ _ second (delimited_cons _ ⟨rfl, rfl⟩)
    have first : Cut (',' :: ' ' :: _) (.comma :: _) := middle.blank.symbol rfl rfl
    have front := ihCond cond _ _ first (delimited_cons _ ⟨rfl, rfl⟩)
    have opened : Cut ('(' :: _) (.lparen :: _) := front.symbol rfl rfl
    have chosen : Cut _ (.if :: _) :=
      opened.word 'i' "f".toList rfl rfl rfl rfl (delimited_cons _ ⟨rfl, rfl⟩)
    simpa [tokens] using chosen
  | group inner ih =>
    intro cs ts cut delimited
    simpa [tokens] using (ih spellable).between cut

end Cutting

section Deriving

open LayeredTable.Expr

/-- The level of the grammar whose expressions bind as tightly as the rank says. -/
def levelOf : Nat → Level
  | 0 => .disjunction
  | 1 => .conjunction
  | 2 => .negation
  | _ => .primary

/-- What binds tightly may stand where less is asked for. -/
theorem derives_of_le {least rank : Nat} (le : least ≤ rank)
    (derives : Derives t (levelOf rank) ts e) : Derives t (levelOf least) ts e := by
  induction le with
  | refl => exact derives
  | @step rank _ ih =>
    apply ih
    match rank with
    | 0 => exact .ofConjunction derives
    | 1 => exact .ofNegation derives
    | 2 => exact .ofPrimary derives
    | _ + 3 => exact derives

/-- Parentheses make of an expression of any level one that may stand anywhere. -/
theorem derives_encloseTokens (least : Nat) (derives : Derives t (levelOf w.rank) ts e) :
    Derives t (levelOf least) (w.encloseTokens least ts) e := by
  unfold encloseTokens
  split
  · have primary : Derives t (levelOf (least + 3)) _ e :=
      .group (derives_of_le (Nat.zero_le _) derives)
    exact derives_of_le (Nat.le_add_right least 3) primary
  · exact derives_of_le (Nat.le_of_not_lt ‹_›) derives

theorem derives_tokens (spellable : w.expr.Spellable t) :
    Derives t (levelOf w.rank) (w.tokens t) w.expr := by
  induction w with
  | constant b =>
    cases b
    · exact .false
    · exact .true
  | binary op left right =>
    obtain _ | ⟨named, right⟩ := spellable
    refine .binary rfl (named.denotes none) op.operator?_token ?_
    simpa [declaredType, named.node] using right.denotes
  | not inner ih =>
    obtain _ | _ | inner := spellable
    exact .negation (derives_encloseTokens 2 (ih inner))
  | logic op left right ihLeft ihRight =>
    obtain _ | _ | _ | ⟨left, right⟩ := spellable
    cases op with
    | or =>
      exact .disjunction (derives_of_le (Nat.zero_le _) (ihLeft left))
        (derives_encloseTokens 1 (ihRight right))
    | and =>
      exact .conjunction (derives_encloseTokens 1 (ihLeft left))
        (derives_encloseTokens 2 (ihRight right))
  | choice cond whenTrue otherwise ihCond ihTrue ihOtherwise =>
    obtain _ | _ | _ | _ | ⟨cond, whenTrue, otherwise⟩ := spellable
    exact .choice (derives_of_le (Nat.zero_le _) (ihCond cond))
      (derives_of_le (Nat.zero_le _) (ihTrue whenTrue))
      (derives_of_le (Nat.zero_le _) (ihOtherwise otherwise))
  | group inner ih => exact .group (derives_of_le (Nat.zero_le _) (ih spellable))

end Deriving

theorem ofText_text_expr (spellable : w.expr.Spellable t) :
    Expr.ofText t (w.text t) = .ok w.expr := by
  have cut : Token.Cut (w.chars t ++ []) (w.tokens t ++ []) :=
    cuts_of_spellable spellable [] [] Token.cut_nil Token.delimited_nil
  have tokens : Token.ofText (w.text t) = .ok (w.tokens t) := by
    simpa [Token.ofText, text] using cut none
  have derives := derives_of_le (Nat.zero_le _) (derives_tokens spellable)
  rw [Expr.ofText, tokens]
  exact derives.ofTokens

end Written

/-- A spellable expression reads back from its text, both with the parentheses that it needs and
with any further ones around its parts. -/
theorem Expr.ofText_text (spellable : e.Spellable t) :
    Expr.ofText t ((Written.plain e).text t) = .ok e ∧
      ∀ w : Written, w.expr = e → Expr.ofText t (w.text t) = .ok e := by
  have reads (w : Written) (same : w.expr = e) : Expr.ofText t (w.text t) = .ok e := by
    subst same
    exact w.ofText_text_expr spellable
  exact ⟨reads _ (Written.expr_plain e), reads⟩

def ledger : Tree :=
  (Ingest.fill {}
    [{ name := "key", type := .integer .uint64 }, { name := "their note", type := .text },
      { name := "open", type := .bool }, { name := "balance", type := .integer .int32 }] []).tree

def ledgerColumn (index : UInt32) (name : String) (type : FieldType) : Node :=
  { NodeSpec.column index name type {} with parent := some 0, layers := #[.empty] }

def overdrawn : Expr :=
  .choice
    (.not (.logic .or
      (.binary .ge (.column 1) (.literal (.integer .uint64 18446744073709551615 (by decide))
        (.integer .uint64)))
      (.binary .ne (.column 2) .null)))
    (.logic .and
      (.binary .eq (.column 2) (.literal (.text "it's due") .text))
      (.logic .and (.binary .eq (.column 3) (.literal (.bool true) .bool)) (.constant false)))
    (.binary .subtract (.column 4)
      (.literal (.integer .int32 (-5) (by decide)) (.integer .int32)))

def Written.grouped : Expr → Written
  | .constant b => group (constant b)
  | .binary op left right => group (binary op left right)
  | .not inner => group (not (grouped inner))
  | .logic op left right => group (logic op (grouped left) (grouped right))
  | .choice cond whenTrue otherwise =>
    group (choice (grouped cond) (grouped whenTrue) (grouped otherwise))

theorem Expr.ofText_text_overdrawn :
    overdrawn.Spellable ledger ∧
      Expr.ofText ledger ((Written.plain overdrawn).text ledger) = .ok overdrawn ∧
      (Written.grouped overdrawn).expr = overdrawn ∧
      Expr.ofText ledger ((Written.grouped overdrawn).text ledger) = .ok overdrawn := by
  have key : Named ledger 1 (ledgerColumn 1 "key" (.integer .uint64)) :=
    ⟨by decide +kernel, by decide +kernel, by decide⟩
  have note : Named ledger 2 (ledgerColumn 2 "their note" .text) :=
    ⟨by decide +kernel, by decide +kernel, by decide⟩
  have isOpen : Named ledger 3 (ledgerColumn 3 "open" .bool) :=
    ⟨by decide +kernel, by decide +kernel, by decide⟩
  have balance : Named ledger 4 (ledgerColumn 4 "balance" (.integer .int32)) :=
    ⟨by decide +kernel, by decide +kernel, by decide⟩
  have spellable : overdrawn.Spellable ledger := by
    refine .choice (.not (.logic (.binary key ?_) (.binary note .null)))
      (.logic (.binary note ?_) (.logic (.binary isOpen ?_) .constant)) (.binary balance ?_)
    · exact .literal (by decide) (.integer _ _ _)
    · exact .literal (by decide) (.text (.inr (by decide)))
    · exact .literal (by decide) (.bool true)
    · exact .literal (by decide) (.integer _ _ _)
  obtain ⟨plain, written⟩ := Expr.ofText_text spellable
  exact ⟨spellable, plain, rfl, written (.grouped overdrawn) rfl⟩

example : (Written.plain overdrawn).text ledger =
    "if(not (`key` >= '18446744073709551615' or `their note` != null), " ++
      "`their note` == \"it's due\" and (`open` == true and false), `balance` - -5)" := by
  decide +kernel

end LayeredTable
