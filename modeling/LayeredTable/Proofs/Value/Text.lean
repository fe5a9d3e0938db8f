import LayeredTable.Proofs.Cast
import LayeredTable.Proofs.Time.Timestamp

/-! The texts of values. Values of one kind are told apart by their texts, floating-point numbers
apart, and a text that is cast to the type of its value gives the value again. Main statement:
`Value.cast_toText`. -/
namespace LayeredTable

open Text

theorem Text.intText_inj {m n : Int} : intText m = intText n ↔ m = n := by
  constructor
  · intro same
    rw [intText, intText, ← String.toList_inj, String.toList_ofList, String.toList_ofList] at same
    have read := readInt_intChars m
    rw [same, readInt_intChars] at read
    exact (Option.some.inj read).symm
  · rintro rfl
    rfl

/-- A cell's instant is read back exactly if its year is written with four digits. -/
theorem readInstant_text_iff (t : Instant) : readInstant t.text = .ok t ↔
    0 ≤ t.reading.date.year ∧ t.reading.date.year ≤ 9999 := by
  rw [readInstant, t.toList_text, t.trim_chars, ← t.read_text_iff]
  cases Instant.read (t.chars Instant.utc) <;> simp

namespace Value

variable {v w : Value} {type : FieldType}

/-- Values of one kind have one text only if they are the same. -/
theorem toText_inj (kind : v.kind = w.kind) (exact : v.kind.isFloat = false) :
    v.toText = w.toText ↔ v = w := by
  refine ⟨fun same => ?_, congrArg toText⟩
  cases v with
  | null => cases w <;> first | rfl | cases kind
  | bool a =>
    cases w with
    | bool b => cases a <;> cases b <;> first | rfl | exact absurd same (by decide)
    | _ => cases kind
  | integer =>
    cases w <;> cases kind
    obtain rfl := intText_inj.mp same
    rfl
  | float32 | float64 => cases exact
  | text =>
    cases w <;> cases kind
    exact congrArg text same
  | instant =>
    cases w <;> cases kind
    exact congrArg instant (Instant.text_inj.mp same)

/-- Values of one type have one text only if they are the same. -/
theorem toText_inj_of_conformsTo (exact : type.isFloat = false) (first : v.conformsTo type = true)
    (second : w.conformsTo type = true) : v.toText = w.toText ↔ v = w := by
  have kinds := (kind_of_conformsTo first).trans (kind_of_conformsTo second).symm
  refine toText_inj kinds ?_
  rw [kind_of_conformsTo first, FieldType.isFloat_carrier, exact]

/-- The values that their texts give back: not floating-point numbers, to which no text is cast,
and not instants of a year that is written with a sign. -/
def Legible : Value → Prop
  | float32 _ | float64 _ => False
  | instant t => 0 ≤ t.reading.date.year ∧ t.reading.date.year ≤ 9999
  | null | bool _ | integer .. | text _ => True

theorem cast_text_of_isTemporal (temporal : type.isTemporal = true) (s : String) :
    (text s).cast type = (readInstant s).map instant := by
  cases type with
  | timestamp | date => rfl
  | _ => cases temporal

/-- The text of a value, cast to any type that the value conforms to, its own kind to begin with,
gives the value again exactly if the value is legible. -/
theorem cast_toText (conforms : v.conformsTo type = true) :
    (text v.toText).cast type = .ok v ↔ v.Legible := by
  have carried := kind_of_conformsTo conforms
  cases v with
  | null =>
    cases type <;> cases carried
    exact ⟨fun _ => trivial, fun _ => rfl⟩
  | bool b =>
    cases type <;> cases carried
    exact ⟨fun _ => trivial, fun _ => by cases b <;> rfl⟩
  | integer kind n admitted =>
    cases type <;> cases carried
    exact ⟨fun _ => trivial, fun _ => cast_of_integral (integral?_intText admitted.isWide) admitted⟩
  | float32 | float64 =>
    cases type <;> cases carried
    exact ⟨nofun, False.elim⟩
  | text s => exact ⟨fun _ => trivial, fun _ => cast_of_conformsTo conforms⟩
  | instant t =>
    have temporal : type.isTemporal = true := by cases type <;> first | rfl | cases carried
    rw [cast_text_of_isTemporal temporal, Legible, ← readInstant_text_iff, toText]
    cases readInstant t.text <;> simp [Except.map]

/-- Half a second into the leap second that ended a year, and the least number of all. -/
theorem cast_toText_at_limits :
    let leap : Instant := ⟨1483228799, 1500000000, by decide⟩
    let least : Value := integer .int64 (-9223372036854775808) (by decide)
    (text "2016-12-31T23:59:60.500+00:00").cast .date = .ok (instant leap) ∧
      (text "-9223372036854775808").cast (.integer .int64) = .ok least := by
  intro leap least
  have written : (instant leap).toText = "2016-12-31T23:59:60.500+00:00" := by decide +kernel
  have digits : least.toText = "-9223372036854775808" := by decide +kernel
  have years : 0 ≤ leap.reading.date.year ∧ leap.reading.date.year ≤ 9999 := by decide +kernel
  rw [← written, ← digits]
  exact ⟨(cast_toText rfl).mpr years, (cast_toText (conformsTo_kind least)).mpr trivial⟩

end Value
end LayeredTable
