import LayeredTable.Proofs.Cast
import LayeredTable.Proofs.Expr.Choice
import LayeredTable.Proofs.Expr.Occurrence

/-! What becomes of the numbers, quotations and booleans to the right of an operator. Each is cast
to the type that the column on the left is declared with. A column that is declared as null casts
all of them to null, and equality with null asks which cells are hidden. -/
namespace LayeredTable.Expr

variable {t : Tree} {type : Option FieldType} {token : Token} {v : Value} {o : Operand}
  {op : BinaryOp} {text : String} {e : Expr}

theorem literal?_plain (denoted : literal? token = some v) : v.isNull = false := by
  cases token with
  | int n =>
    rw [literal?, Value.ofInt?] at denoted
    split at denoted <;> cases denoted
    rfl
  | float | str | true | false =>
    cases denoted
    rfl
  | _ => cases denoted

/-- A literal token denotes a literal, which is null only under the type that holds nothing else. -/
theorem Denotes.literal_value (denotes : Denotes t type token o)
    (denoted : literal? token = some v) :
    ∃ w, o = .literal w (type.getD v.kind) ∧ (w.isNull = true ↔ type = some .null) := by
  have plain := literal?_plain denoted
  cases denotes with
  | name | null => cases denoted
  | literal same =>
    rw [denoted] at same
    cases same
    exact ⟨v, rfl, by simp [plain]⟩
  | cast same kept =>
    rw [denoted] at same
    cases same
    exact ⟨_, rfl, by rw [Value.cast_isNull_iff plain kept, Option.some.injEq]⟩

/-- Whether equality asks which cells are hidden is known from its right side's null. -/
theorem asksHidden_literal (v : Value) (type : FieldType) :
    op.AsksHidden (.literal v type) ↔ (op = .eq ∨ op = .ne) ∧ v.isNull = true := by
  cases v <;> rfl

theorem exists_tokens_of_text (read : ofText t text = .ok e) :
    ∃ ts, Token.ofText text = .ok ts ∧ Derives t .disjunction ts e := by
  obtain ⟨ts, cut, taken⟩ := exceptBind_ok read
  exact ⟨ts, mapError_ok cut, derives_of_ofTokens taken⟩

/-- What a literal token to the right of `op` becomes, beside an operand that is declared with
`type`: a literal that is null just if `type` holds nothing else, and just then equality with it
asks which cells are hidden. -/
structure RightLiteral (type : Option FieldType) (v : Value) (op : BinaryOp) (o : Operand) :
    Prop where
  value : ∃ w, o = .literal w (type.getD v.kind) ∧ (w.isNull = true ↔ type = some .null)
  asks : op.AsksHidden o ↔ (op = .eq ∨ op = .ne) ∧ type = some .null

theorem Denotes.rightLiteral (denotes : Denotes t type token o) (denoted : literal? token = some v)
    (op : BinaryOp) : RightLiteral type v op o := by
  obtain ⟨w, literal, null⟩ := denotes.literal_value denoted
  exact ⟨⟨w, literal, null⟩, by rw [literal, asksHidden_literal, null]⟩

/-- In a text that is read, each number, quotation or boolean to the right of an operator becomes a
literal. It is null just if the column to the left is declared as null, and just then does
equality with it ask which cells are hidden. -/
theorem literals_of_text (read : ofText t text = .ok e) :
    ∃ ts, Token.ofText text = .ok ts ∧ (combinations ts).Forall₂ (fun written read =>
      operator? written.2.1 = some read.1 ∧ ∀ v, literal? written.2.2 = some v →
        RightLiteral (declaredType t read.2.1) v read.1 read.2.2) e.binaries := by
  obtain ⟨ts, cut, derives⟩ := exists_tokens_of_text read
  refine ⟨ts, cut, derives.spells.each.imp ?_⟩
  intro written read ⟨_, combines, right⟩
  exact ⟨combines, fun v denoted => right.rightLiteral denoted read.1⟩

def halfDeclared : Tree :=
  (Ingest.fill {} [{ name := "A", type := .integer .int64 }, { name := "N", type := .null }]
    [[.int64 7, .null]]).tree

theorem literals_of_text_half_declared :
    let e : Expr := .logic .and (.binary .eq (.column 1) (.literal (.int64 5) (.integer .int64)))
      (.binary .eq (.column 2) .null)
    ofText halfDeclared "A == 5 and N == 5" = .ok e ∧
      ¬ BinaryOp.eq.AsksHidden (.literal (.int64 5) (.integer .int64)) ∧
      BinaryOp.eq.AsksHidden .null := by
  intro e
  have read : ofText halfDeclared "A == 5 and N == 5" = .ok e :=
    ok_of_toOption (by decide +kernel)
  obtain ⟨ts, cut, each⟩ := literals_of_text read
  have tokens : Token.ofText "A == 5 and N == 5" =
      .ok [.ident "A", .eqEq, .int 5, .and, .ident "N", .eqEq, .int 5] :=
    ok_of_toOption (by decide +kernel)
  rw [tokens] at cut
  cases cut
  obtain _ | ⟨number, _ | ⟨null, -⟩⟩ := each
  have plain := (number.2 (.int64 5) rfl).asks
  have hides := (null.2 (.int64 5) rfl).asks
  refine ⟨read, fun hidden => ?_, hides.mpr ⟨.inl rfl, by decide +kernel⟩⟩
  have declared := (plain.mp hidden).2
  revert declared
  decide +kernel

/-- A number beside a column that is declared as null is read as null, and the comparison holds
where the column's cell is hidden. -/
theorem number_read_as_null :
    let e : Expr := .binary .eq (.column 2) .null
    Token.ofText "N == 5" = .ok [.ident "N", .eqEq, .int 5] ∧
      ofText halfDeclared "N == 5" = .ok e ∧ ofText halfDeclared "N == null" = .ok e ∧
      halfDeclared.isHidden? 2 (.of 2 1) = some true ∧
      ((e.eval halfDeclared {}).run' {}).map (·.values.get? 1) = some (some (.bool true)) := by
  refine ⟨ok_of_toOption ?_, ok_of_toOption ?_, ok_of_toOption ?_, ?_, ?_⟩ <;> decide +kernel

end LayeredTable.Expr
