import LayeredTable.Text.Blank
import LayeredTable.Text.Numeral

/-! Numerals read back. The digits of a number are digits only, they denote it, and neither a sign
nor trimming is in the way. -/
namespace LayeredTable.Text

/-- A run of characters of a class ends where the class does. -/
theorem span_append {p : Char → Bool} {front rest : List Char} (all : ∀ c ∈ front, p c = true)
    (ends : ∀ c ∈ rest.head?, p c = false) :
    (front ++ rest).takeWhile p = front ∧ (front ++ rest).dropWhile p = rest := by
  rw [List.takeWhile_append_of_pos all, List.dropWhile_append_of_pos all]
  cases rest with
  | nil => simp
  | cons c rest => simp [ends c rfl]

theorem isDigit_digitChar {d : Nat} (below : d < 10) : isDigit (digitChar d) = true := by
  decide +revert

theorem digitValue_digitChar {d : Nat} (below : d < 10) : digitValue (digitChar d) = d := by
  decide +revert

theorem isDigit_of_mem_digits {c : Char} (n : Nat) (member : c ∈ digits n) :
    isDigit c = true := by
  fun_induction digits n with
  | case1 n small =>
    rw [List.mem_singleton.mp member]
    exact isDigit_digitChar small
  | case2 n large ih =>
    rcases List.mem_append.mp member with front | last
    · exact ih front
    · rw [List.mem_singleton.mp last]
      exact isDigit_digitChar (Nat.mod_lt _ (by decide))

theorem digits_ne_nil (n : Nat) : digits n ≠ [] := by
  rw [digits]
  split <;> simp

theorem exists_cons_digits (n : Nat) : ∃ c cs, digits n = c :: cs ∧ isDigit c = true := by
  obtain ⟨c, cs, same⟩ := List.exists_cons_of_ne_nil (digits_ne_nil n)
  exact ⟨c, cs, same, isDigit_of_mem_digits n (same ▸ List.mem_cons_self)⟩

theorem digitsValue_append (cs : List Char) (c : Char) :
    digitsValue (cs ++ [c]) = digitsValue cs * 10 + digitValue c := by
  simp [digitsValue]

theorem digitsValue_digits (n : Nat) : digitsValue (digits n) = n := by
  fun_induction digits n with
  | case1 n small => simp [digitsValue, digitValue_digitChar small]
  | case2 n large ih =>
    rw [digitsValue_append, ih, digitValue_digitChar (Nat.mod_lt _ (by decide))]
    omega

/-- Only zero begins with the digit zero. -/
theorem eq_nil_of_digits {n : Nat} {ds : List Char} (zero : digits n = '0' :: ds) : ds = [] := by
  fun_induction digits n generalizing ds with
  | case1 n small => exact (List.cons.inj zero).2.symm
  | case2 n large ih =>
    obtain ⟨c, cs, front, -⟩ := exists_cons_digits (n / 10)
    rw [front, List.cons_append] at zero
    obtain ⟨rfl, -⟩ := List.cons.inj zero
    have value := digitsValue_digits (n / 10)
    rw [front, ih front, show digitsValue ['0'] = 0 from rfl] at value
    omega

theorem length_digits_le {n width : Nat} (fits : n < pow10 (width + 1)) :
    (digits n).length ≤ width + 1 := by
  induction width generalizing n with
  | zero =>
    have small : n < 10 := fits
    rw [digits, if_pos small]
    exact Nat.le_refl 1
  | succ width ih =>
    rw [digits]
    split
    · simp
    · have front : n / 10 < pow10 (width + 1) := by
        have scaled : n < pow10 (width + 1) * 10 := fits
        omega
      simpa using ih front

theorem le_length_paddedDigits (width n : Nat) : width ≤ (paddedDigits width n).length := by
  simp only [paddedDigits, List.length_append, List.length_replicate]
  omega

theorem length_paddedDigits {width n : Nat} (positive : 0 < width) (fits : n < pow10 width) :
    (paddedDigits width n).length = width := by
  obtain ⟨width, rfl⟩ := Nat.exists_eq_succ_of_ne_zero (Nat.pos_iff_ne_zero.mp positive)
  have short := length_digits_le fits
  simp only [paddedDigits, List.length_append, List.length_replicate]
  omega

theorem isDigit_of_mem_paddedDigits {width n : Nat} {c : Char}
    (member : c ∈ paddedDigits width n) : isDigit c = true := by
  rcases List.mem_append.mp member with zero | digit
  · rw [List.eq_of_mem_replicate zero]
    decide
  · exact isDigit_of_mem_digits n digit

theorem exists_cons_paddedDigits (width n : Nat) :
    ∃ c cs, paddedDigits width n = c :: cs ∧ isDigit c = true := by
  have some : paddedDigits width n ≠ [] := by simp [paddedDigits, digits_ne_nil]
  obtain ⟨c, cs, same⟩ := List.exists_cons_of_ne_nil some
  have first : c ∈ paddedDigits width n := same ▸ List.mem_cons_self
  exact ⟨c, cs, same, isDigit_of_mem_paddedDigits first⟩

theorem digitsValue_paddedDigits (width n : Nat) : digitsValue (paddedDigits width n) = n := by
  have zeros (count : Nat) (cs : List Char) :
      digitsValue (List.replicate count '0' ++ cs) = digitsValue cs := by
    induction count with
    | zero => rfl
    | succ count ih => exact ih
  rw [paddedDigits, zeros, digitsValue_digits]

theorem readNat_digits (n : Nat) : readNat (digits n) = some n := by
  have all : (digits n).all isDigit = true :=
    List.all_eq_true.mpr fun _ => isDigit_of_mem_digits n
  simp [readNat, all, digits_ne_nil, digitsValue_digits]

/-- Without a sign an integer is read as a natural number. -/
theorem readInt_of_digit {c : Char} (digit : isDigit c = true) (cs : List Char) :
    readInt (c :: cs) = (readNat (c :: cs)).map fun n => (n : Int) := by
  unfold readInt
  split
  · rename_i same
    obtain ⟨rfl, -⟩ := List.cons.inj same
    exact absurd digit (by decide)
  · rename_i same
    obtain ⟨rfl, -⟩ := List.cons.inj same
    exact absurd digit (by decide)
  · rfl

theorem readInt_intChars (n : Int) : readInt (intChars n) = some n := by
  cases n with
  | ofNat n =>
    obtain ⟨c, cs, same, digit⟩ := exists_cons_digits n
    rw [intChars, same, readInt_of_digit digit, ← same, readNat_digits]
    rfl
  | negSucc n =>
    rw [intChars, readInt, readNat_digits]
    rfl

theorem toNat_of_isDigit {c : Char} (digit : isDigit c = true) : 48 ≤ c.toNat ∧ c.toNat ≤ 57 := by
  simp only [isDigit, Bool.and_eq_true, decide_eq_true_eq] at digit
  exact ⟨UInt32.le_iff_toNat_le.mp digit.1, UInt32.le_iff_toNat_le.mp digit.2⟩

theorem isBlank_of_isDigit {c : Char} (digit : isDigit c = true) : isBlank c = false := by
  have range := toNat_of_isDigit digit
  simp only [isBlank, Bool.or_eq_false_iff, Bool.and_eq_false_iff, decide_eq_false_iff_not,
    beq_eq_false_iff_ne]
  omega

theorem mem_intChars {c : Char} (n : Int) (member : c ∈ intChars n) :
    c = '-' ∨ isDigit c = true := by
  cases n with
  | ofNat n => exact .inr (isDigit_of_mem_digits n member)
  | negSucc n =>
    rcases List.mem_cons.mp member with sign | member
    · exact .inl sign
    · exact .inr (isDigit_of_mem_digits (n + 1) member)

theorem not_mem_intChars {c : Char} (sign : c ≠ '-') (other : isDigit c = false) (n : Int) :
    c ∉ intChars n := by
  intro member
  rcases mem_intChars n member with rfl | digit
  · exact sign rfl
  · rw [other] at digit
    cases digit

theorem isBlank_of_mem_intChars {c : Char} (n : Int) (member : c ∈ intChars n) :
    isBlank c = false := by
  rcases mem_intChars n member with rfl | digit
  · decide
  · exact isBlank_of_isDigit digit

def Visible (cs : List Char) : Prop := ∀ c ∈ cs, isBlank c = false

@[simp] theorem visible_nil : Visible [] := nofun

@[simp] theorem visible_cons {c : Char} {cs : List Char} :
    Visible (c :: cs) ↔ isBlank c = false ∧ Visible cs := List.forall_mem_cons

@[simp] theorem visible_append {cs ds : List Char} :
    Visible (cs ++ ds) ↔ Visible cs ∧ Visible ds := List.forall_mem_append

@[simp] theorem visible_paddedDigits (width n : Nat) : Visible (paddedDigits width n) :=
  fun _ member => isBlank_of_isDigit (isDigit_of_mem_paddedDigits member)

/-- Trimming takes the blanks around a text without blanks. -/
theorem trim_append {front cs back : List Char} (leading : ∀ c ∈ front, isBlank c = true)
    (trailing : ∀ c ∈ back, isBlank c = true) (visible : Visible cs) :
    trim (front ++ cs ++ back) = cs := by
  cases cs with
  | nil =>
    have none : trimStart (front ++ [] ++ back) = [] := by
      rw [List.append_nil, ← List.append_nil (front ++ back)]
      refine (span_append (List.forall_mem_append.mpr ⟨leading, trailing⟩) ?_).2
      rintro _ ⟨⟩
    rw [trim, none]
    rfl
  | cons c cs =>
    have start : trimStart (front ++ c :: cs ++ back) = c :: cs ++ back := by
      rw [List.append_assoc]
      refine (span_append leading ?_).2
      rintro _ ⟨⟩
      exact visible c List.mem_cons_self
    rw [trim, start, trimEnd, List.reverse_append]
    refine (congrArg List.reverse (span_append ?_ ?_).2).trans (List.reverse_reverse _)
    · exact fun b member => trailing b (List.mem_reverse.mp member)
    · exact fun b last => visible b (List.mem_reverse.mp (List.mem_of_mem_head? last))

theorem trim_of_visible {cs : List Char} (visible : Visible cs) : trim cs = cs := by
  have alone := @trim_append [] cs [] (by simp) (by simp) visible
  rwa [List.nil_append, List.append_nil] at alone

theorem trim_intChars (n : Int) : trim (intChars n) = intChars n :=
  trim_of_visible fun _ => isBlank_of_mem_intChars n

end LayeredTable.Text
