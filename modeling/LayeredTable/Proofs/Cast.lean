import LayeredTable.Cast
import LayeredTable.Proofs.Text.Numeral
import LayeredTable.Proofs.Value.Kind

/-! What a cast gives: a value of the type that was asked for, and the same value when it is cast
again. No value but null becomes null, save under the type that holds nothing else. Between integer
types a cast keeps the number, and is refused where the range does not have it. Main statement:
`Value.cast_exact`. -/
namespace LayeredTable

open Text

/-- The range of each kind lies in that of a signed word of 128 bits. -/
theorem IntegerKind.Admits.isWide {kind : IntegerKind} {n : Int} (admitted : kind.Admits n) :
    Value.isWide n := by
  obtain ⟨lower, upper⟩ := admitted
  cases kind <;> simp only [IntegerKind.least, IntegerKind.greatest] at lower upper <;>
    simp only [Value.isWide, Bool.and_eq_true, decide_eq_true_eq] <;> omega

namespace Value

variable {v w : Value} {type : FieldType} {kind source target : IntegerKind} {n : Int}

/-- An integer of a kind conforms to the kind. -/
theorem conformsTo_of_ofInt? (made : ofInt? kind n = some w) :
    w.conformsTo (.integer kind) = true := by
  rw [ofInt?] at made
  split at made
  · cases made
    exact beq_self_eq_true _
  · cases made

theorem cast_of_conformsTo (conforms : v.conformsTo type) : v.cast type = .ok v := by
  simp [cast, conforms]

theorem cast_null (type : FieldType) : Value.null.cast type = .ok .null := rfl

theorem cast_conformsTo (plain : v.isNull = false) (done : v.cast type = .ok w) :
    w.conformsTo type = true := by
  unfold cast at done
  rw [plain, Bool.false_or] at done
  split at done
  · rename_i conforms
    cases done
    exact conforms
  · cases type with
    | null =>
      cases done
      rfl
    | bool =>
      cases v with
      | text s =>
        cases read : boolOfText? (Text.trim s.toList) <;> simp only [read] at done <;> cases done
        rfl
      | _ => cases done
    | integer kind =>
      cases denoted : v.integral? with
      | none =>
        simp only [denoted] at done
        cases done
      | some n =>
        cases made : ofInt? kind n <;> simp only [denoted, made] at done <;> cases done
        exact conformsTo_of_ofInt? made
    | float32 =>
      cases number : v.toDouble <;> simp only [number] at done <;> cases done
      rfl
    | float64 =>
      cases number : v.toDouble <;> simp only [number] at done <;> cases done
      rfl
    | timestamp | date =>
      cases v with
      | text s =>
        cases instant : readInstant s <;> simp only [instant] at done <;> cases done
        rfl
      | _ => cases done
    | text | custom | unknown => cases done

/-- A value that is not null is cast to null only where the type holds nothing else. -/
theorem cast_isNull_iff (plain : v.isNull = false) (done : v.cast type = .ok w) :
    w.isNull = true ↔ type = .null :=
  isNull_iff_of_conformsTo (cast_conformsTo plain done)

/-- Whatever was cast, a second cast to the same type changes nothing. -/
theorem cast_again (done : v.cast type = .ok w) : w.cast type = .ok w := by
  cases null : v.isNull with
  | true =>
    obtain rfl := isNull_iff.mp null
    rw [cast_null] at done
    cases done
    exact cast_null type
  | false => exact cast_of_conformsTo (cast_conformsTo null done)

section Integers

/-- A value that denotes an integer casts to any kind that admits it. -/
theorem cast_of_integral (integral : v.integral? = some n) (admitted : kind.Admits n) :
    v.cast (.integer kind) = .ok (.integer kind n admitted) := by
  by_cases conforms : v.conformsTo (.integer kind)
  · cases v <;> simp_all [cast, conformsTo, Value.kind, integral?]
  · have known : v.isNull = false := by
      cases v <;> first | rfl | cases integral
    simp [cast, known, conforms, integral, ofInt?, admitted]

/-- Outside the range of a kind the cast is refused, for the number's sake and not for its kind's. -/
theorem cast_of_outside (held : source.Admits n) (outside : ¬ target.Admits n) :
    (integer source n held).cast (.integer target) =
      .error (.lossyCast (intText n) (.integer target)) := by
  have other : source ≠ target := by
    rintro rfl
    exact outside held
  have unlike : (integer source n held).conformsTo (.integer target) = false := by
    simp [conformsTo, Value.kind, other]
  simp [cast, isNull, unlike, integral?, ofInt?, outside, toText]

theorem integral?_intText (wide : isWide n) : (Value.text (intText n)).integral? = some n := by
  simp [integral?, intText, trim_intChars, readInt_intChars, Option.filter, wide]

end Integers

/-- A cast gives a value of the type that was asked for, or null. It gives null only for null or
under the type of nulls, and is stable. Between integer types it keeps the number wherever the
target's range has it, so that casting back restores the value, and loses it nowhere. -/
theorem cast_exact :
    (∀ (v w : Value) (type : FieldType), v.cast type = .ok w →
      (w.conformsTo type = true ∨ w = .null) ∧ (w = .null → v = .null ∨ type = .null) ∧
        w.cast type = .ok w) ∧
    ∀ (source target : IntegerKind) (n : Int) (held : source.Admits n),
      (∀ fits : target.Admits n,
        (integer source n held).cast (.integer target) = .ok (integer target n fits) ∧
        (integer target n fits).cast (.integer source) = .ok (integer source n held)) ∧
      (¬ target.Admits n → (integer source n held).cast (.integer target) =
        .error (.lossyCast (intText n) (.integer target))) := by
  refine ⟨fun v w type done => ?_, fun source target n held => ⟨fun fits => ?_, fun outside => ?_⟩⟩
  · refine ⟨?_, fun none => ?_, cast_again done⟩
    · cases null : v.isNull with
      | true =>
        obtain rfl := isNull_iff.mp null
        cases done
        exact .inr rfl
      | false => exact .inl (cast_conformsTo null done)
    · cases null : v.isNull with
      | true => exact .inl (isNull_iff.mp null)
      | false => exact .inr ((cast_isNull_iff null done).mp (isNull_iff.mpr none))
  · exact ⟨cast_of_integral rfl fits, cast_of_integral rfl held⟩
  · exact cast_of_outside held outside

/-- The greatest unsigned number is no signed one, the least signed number no unsigned one, and a
text with blanks around it is cast once. -/
theorem cast_exact_at_limits :
    (integer .uint64 18446744073709551615 (by decide)).cast (.integer .int64) =
        .error (.lossyCast "18446744073709551615" (.integer .int64)) ∧
      (integer .int64 (-9223372036854775808) (by decide)).cast (.integer .uint64) =
        .error (.lossyCast "-9223372036854775808" (.integer .uint64)) ∧
      (integer .uint64 127 (by decide)).cast (.integer .int8) =
        .ok (integer .int8 127 (by decide)) ∧
      (integer .int8 7 (by decide)).cast (.integer .int8) = .ok (integer .int8 7 (by decide)) := by
  have signed := (cast_exact.2 .uint64 .int64 18446744073709551615 (by decide)).2 (by decide)
  have unsigned := (cast_exact.2 .int64 .uint64 (-9223372036854775808) (by decide)).2 (by decide)
  have narrow := ((cast_exact.2 .uint64 .int8 127 (by decide)).1 (by decide)).1
  have greatest : intText 18446744073709551615 = "18446744073709551615" := by decide +kernel
  have least : intText (-9223372036854775808) = "-9223372036854775808" := by decide +kernel
  have denoted : (text " +7\n").integral? = some 7 := by decide +kernel
  have admitted : IntegerKind.int8.Admits 7 := by decide
  have again := (cast_exact.1 _ _ _ (cast_of_integral denoted admitted)).2.2
  rw [greatest] at signed
  rw [least] at unsigned
  exact ⟨signed, unsigned, narrow, again⟩

end Value
end LayeredTable
