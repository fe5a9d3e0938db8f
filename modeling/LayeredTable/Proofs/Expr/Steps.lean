import LayeredTable.Expr.Meaning
import LayeredTable.Proofs.Cast
import LayeredTable.Proofs.Expr.Reading
import LayeredTable.Proofs.State

/-! Results by row, and what is known of the steps of an evaluation that succeeds. -/
namespace LayeredTable

namespace RowValues

theorem get?_map (f : Value → Value) (m : RowValues) (row : UInt32) :
    (m.map f).get? row = (m.get? row).map f := by
  rw [map, get?, get?, OrderedMap.get?_map]
  cases m.rows.get? row <;> rfl

/-- Where a map has no entry it has its constant. -/
theorem get?_of_absent {m : RowValues} {row : UInt32} (absent : row ∉ m.rows.keys) :
    m.get? row = m.constant := by
  rw [OrderedMap.mem_keys_iff, Option.not_isSome_iff_eq_none] at absent
  rw [get?, absent, Option.none_or]

theorem get?_ofList {entries : List (UInt32 × Value)} {row : UInt32} {v : Value}
    (listed : (row, v) ∈ entries) (only : ∀ w, (row, w) ∈ entries → w = v) :
    (ofList entries).get? row = some v := by
  rw [get?, ofList, OrderedMap.get?_ofList]
  cases found : lookupEntry row entries.reverse with
  | none =>
    rw [lookupEntry_eq_none_iff] at found
    exact absurd rfl (found _ (List.mem_reverse.mpr listed))
  | some w => rw [only w (List.mem_reverse.mp (mem_of_lookupEntry found))]; rfl

theorem mem_of_rows_ofList {entries : List (UInt32 × Value)} {row : UInt32} {v : Value}
    (found : (ofList entries).rows.get? row = some v) : (row, v) ∈ entries := by
  rw [ofList, OrderedMap.get?_ofList] at found
  exact List.mem_reverse.mp (mem_of_lookupEntry found)

/-- Values computed for some rows, and a constant for all others. -/
theorem get?_tabulate (rows : List UInt32) (f : UInt32 → Value) (constant : Option Value)
    (row : UInt32) :
    get? { rows := .ofList (rows.map fun row => (row, f row)), constant } row =
      if row ∈ rows then some (f row) else constant := by
  rw [get?, OrderedMap.get?_ofList]
  split
  · rename_i member
    have listed : (row, f row) ∈ rows.map fun row => (row, f row) :=
      List.mem_map.mpr ⟨row, member, rfl⟩
    have only (w : Value) (there : (row, w) ∈ rows.map fun row => (row, f row)) : w = f row := by
      obtain ⟨other, -, same⟩ := List.mem_map.mp there
      cases same
      rfl
    have found := get?_ofList listed only
    rw [get?, ofList, OrderedMap.get?_ofList, Option.or_none] at found
    rw [found]
    rfl
  · rename_i absent
    have missing : lookupEntry row (rows.map fun row => (row, f row)).reverse = none := by
      rw [lookupEntry_eq_none_iff]
      rintro entry member rfl
      obtain ⟨row, there, rfl⟩ := List.mem_map.mp (List.mem_reverse.mp member)
      exact absent there
    rw [missing]
    rfl

end RowValues

theorem Value.asBool?_getD (v : Value) : v.asBool?.getD false = (v == .bool true) := by
  cases v with
  | bool b => cases b <;> decide
  | _ => simp [asBool?]

namespace Eval

variable {α : Type} {s m : EvalState}

theorem ofExcept_ok {ε : Type} {wrap : ε → ExprError} {x : Except ε α} {a : α}
    (done : ofExcept wrap x s = .ok a m) : x = .ok a := by
  cases x with
  | error e => cases done
  | ok b =>
    cases done
    rfl

theorem attempt_ok {step : Eval α} {answer : Except ExprError α}
    (done : attempt step s = .ok answer m) :
    (∃ a, answer = .ok a ∧ step s = .ok a m) ∨ ∃ e, answer = .error e ∧ step s = .error e m := by
  rw [attempt] at done
  cases ends : step s with
  | ok a k =>
    rw [ends] at done
    cases done
    exact .inl ⟨a, rfl, rfl⟩
  | error e k =>
    rw [ends] at done
    cases done
    exact .inr ⟨e, rfl, rfl⟩

theorem ok_of_attempt {step : Eval α} {a : α} (done : attempt step s = .ok (.ok a) m) :
    step s = .ok a m := by
  rcases attempt_ok done with ⟨b, same, first⟩ | ⟨e, same, -⟩
  · cases same
    exact first
  · cases same

theorem deliver_ok {answer : Except ExprError α} {a : α} (done : deliver answer s = .ok a m) :
    answer = .ok a ∧ m = s := by
  cases answer with
  | error e => cases done
  | ok b =>
    cases done
    exact ⟨rfl, rfl⟩

theorem both_ok {β : Type} {first : Eval α} {second : Eval β} {a : α} {b : β}
    (done : both first second s = .ok (a, b) m) :
    ∃ k, first s = .ok a k ∧ second k = .ok b m := by
  obtain ⟨x, k, one, next⟩ := bind_ok done
  obtain ⟨y, l, two, next⟩ := bind_ok next
  obtain ⟨answers, rfl⟩ := deliver_ok next
  obtain ⟨b', rfl, others⟩ := exceptBind_ok answers
  obtain ⟨a', rfl, pair⟩ := exceptBind_ok others
  cases pair
  exact ⟨k, ok_of_attempt one, ok_of_attempt two⟩

theorem all_ok {β γ : Type} {first : Eval α} {second : Eval β} {third : Eval γ} {a : α} {b : β}
    {c : γ} (done : all first second third s = .ok (a, b, c) m) :
    ∃ k l, first s = .ok a k ∧ second k = .ok b l ∧ third l = .ok c m := by
  obtain ⟨x, k, one, next⟩ := bind_ok done
  obtain ⟨y, l, two, next⟩ := bind_ok next
  obtain ⟨z, i, three, next⟩ := bind_ok next
  obtain ⟨answers, rfl⟩ := deliver_ok next
  obtain ⟨c', rfl, others⟩ := exceptBind_ok answers
  obtain ⟨b', rfl, last⟩ := exceptBind_ok others
  obtain ⟨a', rfl, triple⟩ := exceptBind_ok last
  cases triple
  exact ⟨k, l, ok_of_attempt one, ok_of_attempt two, ok_of_attempt three⟩

end Eval

section Scans

variable {t : Tree} {op : BinaryOp} {left right : Operand} {scan : Scan}

theorem commonType_eq_ok_iff {allowed : List FieldType} {first second type : FieldType} :
    commonType allowed first second = .ok type ↔
      first = type ∧ second = type ∧ type ≠ .unknown ∧ type ∈ allowed := by
  simp only [commonType]
  split
  · rename_i refused
    refine iff_of_false nofun ?_
    rintro ⟨rfl, rfl, known, admitted⟩
    simp [known, admitted] at refused
  · rename_i admitted
    simp only [Bool.or_eq_true, Bool.not_eq_true', not_or, Bool.not_eq_false, Bool.and_eq_true,
      bne_iff_ne, List.contains_iff_mem] at admitted
    split
    · rename_i apart
      exact iff_of_false nofun fun same => apart (same.1.trans same.2.1.symm)
    · rename_i same
      rw [Classical.not_not] at same
      constructor
      · intro found
        cases found
        exact ⟨rfl, same.symm, admitted.1⟩
      · rintro ⟨rfl, -⟩
        rfl

/-- A scan of a column is found if both sides are of one type that its operator allows and the
right side can be read under it. -/
theorem Scan.resolve_column_eq_ok_iff {i : Nat} : resolve t op (.column i) right = .ok scan ↔
    (Operand.column i).type t = .ok scan.type ∧ right.type t = .ok scan.type ∧
      scan.type ≠ .unknown ∧ scan.type ∈ op.allowed ∧
      Partner.ofOperand t scan.type right = .ok scan.partner ∧ scan.op = op ∧
      scan.column = i := by
  rw [resolve_column]
  constructor
  · intro done
    obtain ⟨own, first, done⟩ := exceptBind_ok done
    obtain ⟨other, second, done⟩ := exceptBind_ok done
    obtain ⟨type, common, done⟩ := exceptBind_ok done
    obtain ⟨p, partner, done⟩ := exceptBind_ok done
    cases done
    obtain ⟨rfl, rfl, known, allowed⟩ := commonType_eq_ok_iff.mp (mapError_ok common)
    exact ⟨mapError_ok first, mapError_ok second, known, allowed, partner, rfl, rfl⟩
  · rintro ⟨own, other, known, allowed, partner, rfl, rfl⟩
    have common := commonType_eq_ok_iff.mpr ⟨rfl, rfl, known, allowed⟩
    simp only [own, other, common, partner, mapError_of_ok, Except.bind]

theorem Operand.type_column_eq_ok_iff {i : Nat} {type : FieldType} :
    (column i).type t = .ok type ↔ ∃ n, t.nodes[i]? = some n ∧ n.type = type := by
  rw [Operand.type, Tree.node]
  cases t.nodes[i]? <;> simp [Except.map]

theorem Partner.ofOperand_of_type {i : Nat} {type : FieldType}
    (declared : (Operand.column i).type t = .ok type) :
    ofOperand t type (.column i) = .ok (.column i) := by
  obtain ⟨n, here, -⟩ := Operand.type_column_eq_ok_iff.mp declared
  rw [ofOperand, Tree.node, here]
  rfl

/-- A scan goes over its left operand's column, under that column's type, which its operator
allows. -/
theorem Scan.resolve_ok (done : Scan.resolve t op left right = .ok scan) :
    ∃ i n, left = .column i ∧ t.nodes[i]? = some n ∧ scan.op = op ∧ scan.column = i ∧
      scan.type = n.type ∧ scan.type ∈ op.allowed ∧
      Partner.ofOperand t n.type right = .ok scan.partner := by
  cases left with
  | literal v type => cases done
  | column i =>
    obtain ⟨declared, -, -, allowed, partner, operator, column⟩ :=
      resolve_column_eq_ok_iff.mp done
    obtain ⟨n, here, type⟩ := Operand.type_column_eq_ok_iff.mp declared
    rw [← type] at partner
    exact ⟨i, n, rfl, here, operator, column, type.symm, allowed, partner⟩

/-- A partner shows at each row what its operand shows. -/
theorem Partner.valueAt?_ofOperand {type : FieldType} {partner : Partner}
    (done : ofOperand t type right = .ok partner) (row : UInt32) :
    partner.valueAt? t row = right.shown? t type row := by
  cases right with
  | column i =>
    simp only [ofOperand, Tree.node] at done
    cases here : t.nodes[i]? with
    | none =>
      rw [here] at done
      cases done
    | some n =>
      rw [here] at done
      cases done
      rfl
  | literal v declared =>
    rw [ofOperand] at done
    cases kept : v.cast type with
    | error e =>
      rw [kept] at done
      cases done
    | ok w =>
      rw [kept] at done
      cases done
      simp [valueAt?, Operand.shown?, kept, Except.toOption]

theorem Scan.combine_fst (s : Scan) (a b : Value) : (s.combine a b).1 =
    if a.conformsTo s.type && b.conformsTo s.type then ((s.op.apply a b).toOption).getD .null
    else .null := by
  rw [combine]
  cases a.conformsTo s.type with
  | false => rfl
  | true =>
    cases b.conformsTo s.type with
    | false => rfl
    | true => cases s.op.apply a b <;> rfl

end Scans
end LayeredTable
