import LayeredTable.Json.Read
import LayeredTable.Proofs.Text.Numeral

/-! Texts read back as the trees they were written from. A spelled text is passed over as a whole
and denotes the text, a spelled integer is a number that denotes it, and from these a tree of any
depth is read up to where its text ends. -/
namespace LayeredTable.Json

open Text (isDigit digits intChars hexDigit)

section Strings

theorem hexValue?_hexDigit {d : Nat} (below : d < 16) : hexValue? (hexDigit d) = some d := by
  decide +revert

theorem hexWord?_of_lt {n : Nat} (control : n < 32) :
    hexWord? '0' '0' (hexDigit (n / 16)) (hexDigit (n % 16)) = some n := by
  have zero : hexValue? '0' = some 0 := rfl
  have high := hexValue?_hexDigit (d := n / 16) (by omega)
  have low := hexValue?_hexDigit (d := n % 16) (by omega)
  simp only [hexWord?, zero, high, low, Option.bind_eq_bind, Option.bind_some, Option.pure_def,
    Option.some.injEq]
  omega

/-- A character is spelled by a letter after a backslash, by its number, or by itself. -/
theorem escape_cases (c : Char) :
    (∃ d, d ≠ 'u' ∧ escaped? d = some c ∧ escape c = ['\\', d]) ∨
    (c.toNat < 32 ∧ escape c =
      ['\\', 'u', '0', '0', hexDigit (c.toNat / 16), hexDigit (c.toNat % 16)]) ∨
    (c ≠ '"' ∧ c ≠ '\\' ∧ ¬ c.toNat < 32 ∧ escape c = [c]) := by
  by_cases quote : c = '"'
  · subst c
    exact .inl ⟨'"', by decide, rfl, rfl⟩
  by_cases backslash : c = '\\'
  · subst c
    exact .inl ⟨'\\', by decide, rfl, rfl⟩
  by_cases backspace : c = '\x08'
  · subst c
    exact .inl ⟨'b', by decide, rfl, rfl⟩
  by_cases feed : c = '\x0c'
  · subst c
    exact .inl ⟨'f', by decide, rfl, rfl⟩
  by_cases line : c = '\n'
  · subst c
    exact .inl ⟨'n', by decide, rfl, rfl⟩
  by_cases carriage : c = '\r'
  · subst c
    exact .inl ⟨'r', by decide, rfl, rfl⟩
  by_cases tab : c = '\t'
  · subst c
    exact .inl ⟨'t', by decide, rfl, rfl⟩
  by_cases control : c.toNat < 32
  · exact .inr (.inl ⟨control, by
      simp [escape, quote, backslash, backspace, feed, line, carriage, tab, control]⟩)
  · exact .inr (.inr ⟨quote, backslash, control, by
      simp [escape, quote, backslash, backspace, feed, line, carriage, tab, control]⟩)

variable {rest : List Char}

theorem takeString_escape (c : Char) (cs : List Char) :
    takeString (escape c ++ cs) =
      (takeString cs).map fun (spelling, rest) => (escape c ++ spelling, rest) := by
  rcases escape_cases c with ⟨d, other, denotes, spelled⟩ | ⟨control, spelled⟩ |
    ⟨quote, backslash, visible, spelled⟩
  · rw [spelled]
    cases found : takeString cs <;> simp [takeString, other, denotes, found]
  · rw [spelled]
    cases found : takeString cs <;> simp [takeString, hexWord?_of_lt control, found]
  · rw [spelled]
    simp [takeString, backslash, visible]

theorem textOf?_escape (c : Char) (cs : List Char) :
    textOf? (escape c ++ cs) = (textOf? cs).map (c :: ·) := by
  rcases escape_cases c with ⟨d, other, denotes, spelled⟩ | ⟨control, spelled⟩ |
    ⟨quote, backslash, visible, spelled⟩
  · rw [spelled]
    cases found : textOf? cs <;> simp [textOf?, other, denotes, found]
  · have single : c.toNat < 55296 := by omega
    rw [spelled]
    cases found : textOf? cs <;>
      simp [textOf?, hexWord?_of_lt control, found, single, Char.ofNat_toNat]
  · rw [spelled]
    simp [textOf?, backslash]

/-- A spelled text ends at the first quote after it. -/
theorem takeString_spell (s : String) (rest : List Char) :
    takeString (spell s ++ '"' :: rest) = some (spell s, rest) := by
  rw [spell]
  induction s.toList with
  | nil => rfl
  | cons c cs ih =>
    rw [List.flatMap_cons, List.append_assoc, takeString_escape, ih, Option.map_some]

/-- A spelled text denotes the text. -/
theorem textOf?_spell (s : String) : textOf? (spell s) = some s.toList := by
  rw [spell]
  induction s.toList with
  | nil => rfl
  | cons c cs ih => rw [List.flatMap_cons, textOf?_escape, ih, Option.map_some]

end Strings

section Numbers

theorem takeWhole_digits (n : Nat) : JsonNumber.takeWhole (digits n) = some (digits n, []) := by
  have ends : ∀ c ∈ ([] : List Char).head?, isDigit c = false := by simp
  obtain ⟨run, after⟩ := Text.span_append (fun _ => Text.isDigit_of_mem_digits n) ends
  rw [List.append_nil] at run after
  rw [JsonNumber.takeWhole, run, after]
  split
  · rename_i none
    exact absurd none (Text.digits_ne_nil n)
  · rename_i c cs same
    have proper : ¬ (c = '0' ∧ cs ≠ []) := by
      rintro ⟨rfl, more⟩
      exact more (Text.eq_nil_of_digits same)
    rw [if_neg proper, same]

theorem read_digits (n : Nat) : JsonNumber.read (digits n) = some ⟨false, digits n, [], none⟩ := by
  have unsigned (cs : List Char) : digits n ≠ '-' :: cs := fun same =>
    absurd (Text.isDigit_of_mem_digits n (same ▸ List.mem_cons_self)) (by decide)
  rw [JsonNumber.read, takeWhole_digits]
  · rfl
  · exact unsigned

theorem read_minus_digits (n : Nat) :
    JsonNumber.read ('-' :: digits n) = some ⟨true, digits n, [], none⟩ := by
  rw [JsonNumber.read, takeWhole_digits]
  rfl

/-- The spelling of an integer denotes it. -/
theorem toInt?_intChars (n : Int) :
    ∃ number, JsonNumber.read (intChars n) = some number ∧ number.toInt? = some n := by
  cases n with
  | ofNat n => exact ⟨_, read_digits n, by simp [JsonNumber.toInt?, Text.digitsValue_digits]⟩
  | negSucc n =>
    refine ⟨_, read_minus_digits (n + 1), ?_⟩
    simp [JsonNumber.toInt?, Text.digitsValue_digits, Int.negSucc_eq]

end Numbers

section Trees

def Quotable (spelling : List Char) : Prop :=
  ∀ rest, takeString (spelling ++ '"' :: rest) = some (spelling, rest)

inductive WellSpelled : Json → Prop
  | null : WellSpelled .null
  | bool (b : Bool) : WellSpelled (.bool b)
  | number (spelling : List Char) : (∀ c ∈ spelling, inNumber c = true) →
      (JsonNumber.read spelling).isSome → WellSpelled (.number spelling)
  | string (spelling : List Char) : Quotable spelling → WellSpelled (.string spelling)
  | array (items : List Json) : (∀ item ∈ items, WellSpelled item) → WellSpelled (.array items)
  | object (members : List (List Char × Json)) : (∀ member ∈ members, Quotable member.1) →
      (∀ member ∈ members, WellSpelled member.2) → WellSpelled (.object members)

variable {fuel : Nat} {c : Char} {cs rest spelling key : List Char} {j : Json}
  {items : List Json} {members : List (List Char × Json)}

theorem takeNumber_append (within : ∀ c ∈ spelling, inNumber c = true)
    (readable : (JsonNumber.read spelling).isSome)
    (ends : ∀ c ∈ rest.head?, inNumber c = false) :
    takeNumber (spelling ++ rest) = some (number spelling, rest) := by
  obtain ⟨n, same⟩ := Option.isSome_iff_exists.mp readable
  obtain ⟨run, after⟩ := Text.span_append within ends
  simp [takeNumber, run, after, same]

/-- A number begins with a minus or a digit. -/
theorem exists_cons_of_read (readable : (JsonNumber.read cs).isSome) :
    ∃ c rest, cs = c :: rest ∧ (c = '-' ∨ isDigit c = true) := by
  cases cs with
  | nil => cases readable
  | cons c rest =>
    refine ⟨c, rest, rfl, ?_⟩
    by_cases minus : c = '-'
    · exact .inl minus
    · refine .inr ?_
      cases digit : isDigit c with
      | true => rfl
      | false => simp [JsonNumber.read, minus, JsonNumber.takeWhole, digit] at readable

theorem skipGaps_cons (visible : isGap c = false) (cs : List Char) :
    skipGaps (c :: cs) = c :: cs := by
  simp [skipGaps, visible]

theorem isGap_of_start (start : c = '-' ∨ isDigit c = true) : isGap c = false := by
  cases gap : isGap c with
  | false => rfl
  | true =>
    simp only [isGap, Bool.or_eq_true, decide_eq_true_eq] at gap
    rcases gap with ((rfl | rfl) | rfl) | rfl <;> exact absurd start (by decide)

/-- No other value begins as numbers do. -/
theorem takeValue_of_number (start : c = '-' ∨ isDigit c = true) (cs : List Char) :
    takeValue (fuel + 1) (c :: cs) = takeNumber (c :: cs) := by
  rw [takeValue, skipGaps_cons (isGap_of_start start)]
  split <;> first
    | rfl
    | rename_i same
      obtain ⟨rfl, -⟩ := List.cons.inj same
      exact absurd start (by decide)

theorem takeValue_of_item (visible : isGap c = false) (item : c ≠ ']') (cs : List Char) :
    takeValue (fuel + 1) ('[' :: c :: cs) =
      (takeItems fuel (c :: cs)).map fun (items, rest) => (array items, rest) := by
  simp [takeValue, skipGaps_cons (c := '[') (by decide), skipGaps_cons visible, item]

theorem takeValue_of_key (cs : List Char) :
    takeValue (fuel + 1) ('\x7b' :: '"' :: cs) =
      (takeMembers fuel ('"' :: cs)).map fun (members, rest) => (object members, rest) := rfl

theorem takeKey_quote (quotable : Quotable key) (cs : List Char) :
    takeKey (quote key ++ ':' :: cs) = some (key, cs) := by
  have passed := quotable (':' :: cs)
  simp [takeKey, quote, skipGaps, isGap, passed]

/-- A value that `fuel` is enough for is read up to its end. -/
def TakesValues (fuel : Nat) : Prop :=
  ∀ j rest, WellSpelled j → (∀ c ∈ rest.head?, inNumber c = false) → j.chars.length ≤ fuel →
    takeValue fuel (j.chars ++ rest) = some (j, rest)

def TakesItems (fuel : Nat) : Prop :=
  ∀ items rest, items ≠ [] → (∀ item ∈ items, WellSpelled item) →
    (itemChars items).length ≤ fuel → takeItems fuel (itemChars items ++ rest) = some (items, rest)

def TakesMembers (fuel : Nat) : Prop :=
  ∀ members rest, members ≠ [] → (∀ member ∈ members, Quotable member.1) →
    (∀ member ∈ members, WellSpelled member.2) → (memberChars members).length ≤ fuel →
    takeMembers fuel (memberChars members ++ rest) = some (members, rest)

theorem itemChars_cons (more : items ≠ []) (item : Json) :
    itemChars (item :: items) = item.chars ++ ',' :: itemChars items := by
  rw [itemChars]
  exact more

theorem memberChars_singleton (key : List Char) (value : Json) :
    memberChars [(key, value)] = quote key ++ ':' :: (value.chars ++ ['\x7d']) := by
  simp [memberChars]

theorem memberChars_cons (more : members ≠ []) (key : List Char) (value : Json) :
    memberChars ((key, value) :: members) =
      quote key ++ ':' :: (value.chars ++ ',' :: memberChars members) := by
  rw [memberChars]
  · simp
  · exact more

/-- A value begins with neither a gap nor the end of an array. -/
theorem WellSpelled.exists_cons (spelled : WellSpelled j) :
    ∃ c cs, j.chars = c :: cs ∧ isGap c = false ∧ c ≠ ']' := by
  cases spelled with
  | number spelling within readable =>
    obtain ⟨c, rest, rfl, start⟩ := exists_cons_of_read readable
    refine ⟨c, rest, by rw [chars], isGap_of_start start, ?_⟩
    rintro rfl
    exact absurd start (by decide)
  | null => exact ⟨_, _, rfl, by decide, by decide⟩
  | bool b => cases b <;> exact ⟨_, _, rfl, by decide, by decide⟩
  | string => exact ⟨'"', _, by rw [chars, quote]; rfl, by decide, by decide⟩
  | array => exact ⟨'[', _, by rw [chars], by decide, by decide⟩
  | object => exact ⟨'\x7b', _, by rw [chars], by decide, by decide⟩

theorem exists_cons_itemChars (some : items ≠ []) (spelled : ∀ item ∈ items, WellSpelled item) :
    ∃ c cs, itemChars items = c :: cs ∧ isGap c = false ∧ c ≠ ']' := by
  obtain ⟨item, others, rfl⟩ := List.exists_cons_of_ne_nil some
  obtain ⟨c, cs, same, start⟩ := (spelled item List.mem_cons_self).exists_cons
  by_cases last : others = []
  · exact ⟨c, cs ++ [']'], by simp [last, itemChars, same], start⟩
  · exact ⟨c, _, by rw [itemChars_cons last, same]; rfl, start⟩

theorem exists_cons_memberChars (some : members ≠ []) : ∃ cs, memberChars members = '"' :: cs := by
  obtain ⟨⟨key, value⟩, others, rfl⟩ := List.exists_cons_of_ne_nil some
  by_cases last : others = []
  · exact ⟨_, by rw [last, memberChars_singleton, quote]; rfl⟩
  · exact ⟨_, by rw [memberChars_cons last, quote]; rfl⟩

theorem TakesValues.items_succ (values : TakesValues fuel) (more : TakesItems fuel) :
    TakesItems (fuel + 1) := by
  intro items rest some spelled enough
  obtain ⟨item, others, rfl⟩ := List.exists_cons_of_ne_nil some
  obtain ⟨first, spelled⟩ := List.forall_mem_cons.mp spelled
  -- The bracket or the comma after an item is the character that the step to the item takes.
  by_cases last : others = []
  · subst last
    simp only [itemChars, List.length_append, List.length_singleton] at enough
    have value := values item (']' :: rest) first (by rintro c ⟨⟩; decide) (by omega)
    rw [itemChars, List.append_assoc, List.singleton_append, takeItems, value]
    rfl
  · simp only [itemChars_cons last, List.length_append, List.length_cons] at enough
    have value := values item (',' :: (itemChars others ++ rest)) first (by rintro c ⟨⟩; decide)
      (by omega)
    rw [itemChars_cons last, List.append_assoc, List.cons_append, takeItems, value]
    simp [skipGaps_cons (c := ',') (by decide), more others rest last spelled (by omega)]

theorem TakesValues.members_succ (values : TakesValues fuel) (more : TakesMembers fuel) :
    TakesMembers (fuel + 1) := by
  intro members rest some quotable spelled enough
  obtain ⟨⟨key, value⟩, others, rfl⟩ := List.exists_cons_of_ne_nil some
  obtain ⟨firstKey, quotable⟩ := List.forall_mem_cons.mp quotable
  obtain ⟨first, spelled⟩ := List.forall_mem_cons.mp spelled
  by_cases last : others = []
  · subst last
    simp only [memberChars_singleton, List.length_append, List.length_cons] at enough
    have taken := values value ('\x7d' :: rest) first (by rintro c ⟨⟩; decide) (by omega)
    rw [memberChars_singleton, List.append_assoc, List.cons_append, List.append_assoc,
      List.singleton_append, takeMembers, takeKey_quote firstKey]
    simp [skipGaps_cons (c := '\x7d') (by decide), taken]
  · simp only [memberChars_cons last, List.length_append, List.length_cons] at enough
    have taken := values value (',' :: (memberChars others ++ rest)) first
      (by rintro c ⟨⟩; decide) (by omega)
    rw [memberChars_cons last, List.append_assoc, List.cons_append, List.append_assoc,
      List.cons_append, takeMembers, takeKey_quote firstKey]
    simp [skipGaps_cons (c := ',') (by decide), taken,
      more others rest last quotable spelled (by omega)]

theorem TakesItems.array (takes : TakesItems fuel) (spelled : ∀ item ∈ items, WellSpelled item)
    (enough : (array items).chars.length ≤ fuel + 1) :
    takeValue (fuel + 1) ((array items).chars ++ rest) = some (array items, rest) := by
  rw [chars, List.length_cons] at enough
  by_cases some : items = []
  · rw [some]
    rfl
  · have taken := takes items rest some spelled (by omega)
    obtain ⟨c, cs, same, visible, item⟩ := exists_cons_itemChars some spelled
    rw [same, List.cons_append] at taken
    rw [chars, same, List.cons_append, List.cons_append, takeValue_of_item visible item, taken]
    rfl

theorem TakesMembers.object (takes : TakesMembers fuel)
    (quotable : ∀ member ∈ members, Quotable member.1)
    (spelled : ∀ member ∈ members, WellSpelled member.2)
    (enough : (object members).chars.length ≤ fuel + 1) :
    takeValue (fuel + 1) ((object members).chars ++ rest) = some (object members, rest) := by
  rw [chars, List.length_cons] at enough
  by_cases some : members = []
  · rw [some]
    rfl
  · have taken := takes members rest some quotable spelled (by omega)
    obtain ⟨cs, same⟩ := exists_cons_memberChars some
    rw [same, List.cons_append] at taken
    rw [chars, same, List.cons_append, List.cons_append, takeValue_of_key, taken]
    rfl

theorem TakesItems.values_succ (items : TakesItems fuel) (members : TakesMembers fuel) :
    TakesValues (fuel + 1) := by
  intro j rest spelled ends enough
  cases spelled with
  | null => rfl
  | bool b => cases b <;> rfl
  | number spelling within readable =>
    obtain ⟨c, cs, same, start⟩ := exists_cons_of_read readable
    have taken := takeNumber_append within readable ends
    rw [same, List.cons_append] at taken
    rw [chars, same, List.cons_append, takeValue_of_number start, taken]
  | string spelling quotable =>
    rw [chars, quote]
    simp [takeValue, skipGaps, isGap, quotable rest]
  | array elements all => exact items.array all enough
  | object fields quotable all => exact members.object quotable all enough

/-- As much fuel as a text has characters is enough to read it. -/
theorem takes (fuel : Nat) : TakesValues fuel ∧ TakesItems fuel ∧ TakesMembers fuel := by
  induction fuel with
  | zero =>
    refine ⟨fun j rest spelled _ enough => ?_, fun items rest some spelled enough => ?_,
      fun members rest some _ _ enough => ?_⟩
    · obtain ⟨c, cs, same, -⟩ := spelled.exists_cons
      simp [same] at enough
    · obtain ⟨c, cs, same, -⟩ := exists_cons_itemChars some spelled
      simp [same] at enough
    · obtain ⟨cs, same⟩ := exists_cons_memberChars some
      simp [same] at enough
  | succ fuel ih =>
    obtain ⟨values, items, members⟩ := ih
    exact ⟨items.values_succ members, values.items_succ items, values.members_succ members⟩

/-- A tree is what is read from its text. -/
theorem readText_text (spelled : WellSpelled j) : readText j.text = some j := by
  have enough : j.chars.length ≤ 2 * j.chars.length + 1 := by omega
  have taken := (takes _).1 j [] spelled (by simp) enough
  rw [List.append_nil] at taken
  rw [readText, text, String.toList_ofList, read, taken]
  rfl

end Trees
end LayeredTable.Json
