import LayeredTable.Value

/-! Kinds of values and declared types. The values that conform to a type are all of one kind, which
is the type's own save for dates and custom fields. -/
namespace LayeredTable

namespace FieldType

def carrier : FieldType → FieldType
  | date => .timestamp
  | custom => .text
  | t => t

theorem isNumeric_carrier (t : FieldType) : t.carrier.isNumeric = t.isNumeric := by
  cases t <;> rfl

theorem isFloat_carrier (t : FieldType) : t.carrier.isFloat = t.isFloat := by
  cases t <;> rfl

theorem carrier_of_isTemporal {t : FieldType} (temporal : t.isTemporal = true) :
    t.carrier = .timestamp := by
  cases t with
  | timestamp | date => rfl
  | _ => cases temporal

theorem isNumeric_of_isTemporal {t : FieldType} (temporal : t.isTemporal = true) :
    t.isNumeric = false := by
  rw [← isNumeric_carrier, carrier_of_isTemporal temporal]
  rfl

end FieldType

namespace Value

variable {v : Value} {type : FieldType}

theorem isNull_iff : v.isNull = true ↔ v = .null := by
  cases v <;> simp [isNull]

theorem isNull_iff_of_conformsTo (conforms : v.conformsTo type = true) :
    v.isNull = true ↔ type = .null := by
  cases v <;> cases type <;> simp_all [conformsTo, kind, isNull]

theorem conformsTo_kind (v : Value) : v.conformsTo v.kind = true := by
  cases v with
  | integer => exact beq_self_eq_true _
  | _ => rfl

theorem kind_of_conformsTo (conforms : v.conformsTo type = true) : v.kind = type.carrier := by
  rw [conformsTo.eq_def] at conforms
  split at conforms
  · cases conforms
  · rfl
  · rfl
  · obtain rfl := eq_of_beq conforms
    cases v <;> rfl

end Value
end LayeredTable
