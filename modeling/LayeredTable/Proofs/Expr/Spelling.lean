import LayeredTable.Expr.Print
import LayeredTable.Proofs.Text.Numeral

/-! How written tokens are cut out of a text again. Names and texts end at their quote, words and
numerals at a character that cannot go on with them, and only a minus sign before a digit asks which
token came before. -/
namespace LayeredTable

open Text

namespace Token

variable {last : Option Token} {token : Token} {c quote : Char} {front cs rest : List Char}
  {ts : List Token}

theorem scan_blank (blank : isBlank c = Bool.true) (last : Option Token) (cs : List Char) :
    scan last (c :: cs) = scan last cs := by
  rw [scan, if_pos blank]

theorem scan_take (visible : isBlank c = Bool.false)
    (taken : take last c cs = .ok (token, rest)) :
    scan last (c :: cs) = (scan (some token) rest).map (token :: ·) := by
  rw [scan, if_neg (by simp [visible])]
  split <;> simp_all

/-- A text that gives the same tokens after any token. -/
def Cut (cs : List Char) (ts : List Token) : Prop := ∀ last, scan last cs = .ok ts

def Delimited (cs : List Char) : Prop :=
  ∀ c ∈ cs.head?, continuesWord c = Bool.false ∧ inNumber c = Bool.false

theorem cut_nil : Cut [] [] := fun _ => by rw [scan]

theorem delimited_nil : Delimited [] := nofun

theorem delimited_cons (cs : List Char)
    (ends : continuesWord c = Bool.false ∧ inNumber c = Bool.false) : Delimited (c :: cs) := by
  intro head same
  cases same
  exact ends

theorem Cut.blank (cut : Cut cs ts) : Cut (' ' :: cs) ts :=
  fun last => (scan_blank rfl last cs).trans (cut last)

theorem Cut.take (cut : Cut rest ts) (visible : isBlank c = Bool.false)
    (taken : ∀ last, Token.take last c cs = .ok (token, rest)) : Cut (c :: cs) (token :: ts) := by
  intro last
  rw [scan_take visible (taken last), cut]
  rfl

theorem Cut.symbol (cut : Cut cs ts) (visible : isBlank c = Bool.false)
    (opens : opening c = .symbol token) : Cut (c :: cs) (token :: ts) :=
  cut.take visible fun last => by simp [Token.take, opens]

theorem Cut.word (cut : Cut cs ts) (c : Char) (front : List Char)
    (reads : ofWord (.ofList (c :: front)) = token) (visible : isBlank c = Bool.false)
    (opens : opening c = .letter) (continues : front.all continuesWord = Bool.true)
    (delimited : Delimited cs) : Cut (c :: front ++ cs) (token :: ts) := by
  obtain ⟨taken, dropped⟩ :=
    span_append (List.all_eq_true.mp continues) fun d head => (delimited d head).1
  exact cut.take visible fun last => by simp [Token.take, opens, taken, dropped, ← reads]

/-- The words for the booleans. -/
theorem Cut.truth (cut : Cut cs ts) (delimited : Delimited cs) (b : Bool) :
    Cut ((if b then "true".toList else "false".toList) ++ cs)
      ((if b then true else false) :: ts) := by
  cases b
  · exact cut.word 'f' "alse".toList rfl rfl rfl rfl delimited
  · exact cut.word 't' "rue".toList rfl rfl rfl rfl delimited

/-- A word in front of a blank. -/
theorem Cut.keyword (cut : Cut cs ts) (c : Char) (front : List Char)
    (reads : ofWord (.ofList (c :: front)) = token) (visible : isBlank c = Bool.false)
    (opens : opening c = .letter) (continues : front.all continuesWord = Bool.true) :
    Cut (c :: front ++ ' ' :: cs) (token :: ts) :=
  cut.blank.word c front reads visible opens continues (delimited_cons cs ⟨rfl, rfl⟩)

/-- What stands between two quotes that are not in it is one token. -/
theorem takeQuoted_append (plain : quote ∉ front) :
    takeQuoted quote (front ++ quote :: cs) =
      .ok (if quote = '`' then ident (.ofList front) else str (.ofList front), cs) := by
  obtain ⟨taken, dropped⟩ : (front ++ quote :: cs).takeWhile (· != quote) = front ∧
      (front ++ quote :: cs).dropWhile (· != quote) = quote :: cs := by
    apply span_append
    · intro d member
      simp only [bne_iff_ne]
      rintro rfl
      exact plain member
    · intro d head
      cases head
      simp
  simp only [takeQuoted, taken, dropped]

theorem Cut.name (cut : Cut cs ts) {name : String} (plain : '`' ∉ name.toList) :
    Cut ('`' :: name.toList ++ '`' :: cs) (ident name :: ts) :=
  cut.take rfl fun last => by
    have taken : takeQuoted '`' (name.toList ++ '`' :: cs) = _ := takeQuoted_append plain
    simpa [Token.take, opening, isDigit] using taken

theorem Cut.between (cut : Cut cs ts) (isQuote : quote = '\'' ∨ quote = '"')
    (plain : quote ∉ front) :
    Cut (quote :: front ++ quote :: cs) (str (.ofList front) :: ts) := by
  have taken : takeQuoted quote (front ++ quote :: cs) = _ := takeQuoted_append plain
  obtain rfl | rfl := isQuote <;>
    exact cut.take rfl fun last => by simpa [Token.take, opening, isDigit] using taken

/-- A text is written in a quote that it does not hold, if there is one. -/
theorem Cut.quoted (cut : Cut cs ts) {s : String} (plain : '\'' ∉ s.toList ∨ '"' ∉ s.toList) :
    Cut (quotedChars s ++ cs) (str s :: ts) := by
  by_cases single : '\'' ∈ s.toList
  · have double := cut.between (.inr rfl) (plain.resolve_left (not_not_intro single))
    simpa [quotedChars, single] using double
  · have between := cut.between (.inl rfl) single
    simpa [quotedChars, single] using between

section Numerals

variable {n : Int}

theorem opening_of_isDigit (digit : isDigit c = Bool.true) : opening c = .digit := by
  have apart (d : Char) (other : isDigit d = Bool.false) : c ≠ d := by
    rintro rfl
    rw [digit] at other
    cases other
  simp [opening, digit, apart '+' rfl, apart '-' rfl, apart '(' rfl, apart ')' rfl, apart ',' rfl,
    apart '=' rfl, apart '!' rfl, apart '>' rfl, apart '<' rfl, apart '\'' rfl, apart '"' rfl,
    apart '`' rfl]

theorem ofNumber_intChars (admits : IntegerKind.int64.Admits n) :
    ofNumber (intChars n) = .ok (int n) := by
  have whole : '.' ∉ intChars n := not_mem_intChars (by decide) rfl n
  simp [ofNumber, whole, readInt_intChars, Option.filter, admits]

theorem takeNumber_intChars (written : c :: front = intChars n)
    (digits : ∀ d ∈ front, isDigit d = Bool.true) (admits : IntegerKind.int64.Admits n)
    (delimited : Delimited cs) : takeNumber c (front ++ cs) = .ok (int n, cs) := by
  have within : ∀ d ∈ front, inNumber d = Bool.true := fun d member => by
    simp [inNumber, digits d member]
  obtain ⟨taken, dropped⟩ := span_append within fun d head => (delimited d head).2
  rw [takeNumber, taken, dropped, written, ofNumber_intChars admits]
  rfl

theorem scan_intChars (cut : Cut cs ts) (admits : IntegerKind.int64.Admits n)
    (delimited : Delimited cs) (free : last.any endsOperand = Bool.false) :
    scan last (intChars n ++ cs) = .ok (int n :: ts) := by
  cases n with
  | ofNat n =>
    obtain ⟨d, ds, same⟩ := List.exists_cons_of_ne_nil (digits_ne_nil n)
    have all (c : Char) (member : c ∈ d :: ds) : isDigit c = Bool.true :=
      isDigit_of_mem_digits n (same ▸ member)
    have digit := all d List.mem_cons_self
    have taken : take last d (ds ++ cs) = .ok (int n, cs) := by
      simp only [take, opening_of_isDigit digit]
      exact takeNumber_intChars same.symm (fun c member => all c (List.mem_cons_of_mem d member))
        admits delimited
    rw [intChars, same, List.cons_append, scan_take (isBlank_of_isDigit digit) taken, cut]
    rfl
  | negSucc n =>
    have digit (c : Char) (member : c ∈ digits (n + 1)) := isDigit_of_mem_digits (n + 1) member
    have first : (digits (n + 1) ++ cs).head?.any isDigit = Bool.true := by
      obtain ⟨d, ds, same, first⟩ := exists_cons_digits (n + 1)
      simp [same, first]
    have taken : take last '-' (digits (n + 1) ++ cs) = .ok (int (.negSucc n), cs) := by
      have opens : opening '-' = .minus := rfl
      simp only [take, opens, first, free]
      exact takeNumber_intChars rfl digit admits delimited
    rw [intChars, List.cons_append, scan_take rfl taken, cut]
    rfl

end Numerals

end Token

def BinaryOp.token : BinaryOp → Token
  | lt => .lt
  | gt => .gt
  | eq => .eqEq
  | ge => .ge
  | le => .le
  | ne => .notEq
  | add => .plus
  | subtract => .minus

def Operand.token (t : Tree) : Operand → Token
  | .column i => .ident ((t.nodes[i]?.map (·.name)).getD "")
  | .literal (.integer _ n _) _ => if IntegerKind.int64.Admits n then .int n else .str (intText n)
  | .literal (.bool b) _ => if b then .true else .false
  | .literal v _ => if v.isNull then .null else .str v.toText

/-- After an operator and a blank a minus sign can only belong to a number. -/
theorem BinaryOp.token_free (op : BinaryOp) : (some op.token).any Token.endsOperand = false := by
  cases op <;> rfl

theorem BinaryOp.operator?_token (op : BinaryOp) : Expr.operator? op.token = some op := by
  cases op <;> rfl

theorem BinaryOp.scan_chars (op : BinaryOp) (last : Option Token) (cs : List Char) :
    Token.scan last (op.chars ++ ' ' :: cs) =
      (Token.scan (some op.token) cs).map (op.token :: ·) := by
  have blank : Token.scan (some op.token) (' ' :: cs) = Token.scan (some op.token) cs :=
    Token.scan_blank rfl _ cs
  rw [← blank]
  cases op <;> exact Token.scan_take rfl rfl

end LayeredTable
