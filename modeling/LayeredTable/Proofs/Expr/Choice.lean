import LayeredTable.Proofs.Expr.Result

/-! A choice takes at each row the branch that its condition says there. It does so at every row
for which the condition has an entry, and everywhere if the condition is one constant; of a
condition with entries and a constant only the entries count. -/
namespace LayeredTable

/-- The map of values computed from a map's entries is the map of the computed values. -/
theorem RowValues.get?_ofList_entries (m : OrderedMap UInt32 Value) (f : UInt32 → Value → Value)
    (row : UInt32) :
    (ofList (m.entries.map fun entry => (entry.1, f entry.1 entry.2))).get? row =
      (m.get? row).map (f row) := by
  cases found : m.get? row with
  | some v =>
    apply get?_ofList
    · exact List.mem_map.mpr ⟨(row, v), OrderedMap.mem_entries_iff.mpr found, rfl⟩
    · intro w listed
      obtain ⟨⟨other, x⟩, entry, same⟩ := List.mem_map.mp listed
      obtain ⟨rfl, rfl⟩ := Prod.mk.inj same
      have also := OrderedMap.mem_entries_iff.mp entry
      rw [found] at also
      rw [Option.some.inj also]
  | none =>
    have missing : lookupEntry row
        (m.entries.map fun entry => (entry.1, f entry.1 entry.2)).reverse = none := by
      rw [lookupEntry_eq_none_iff]
      rintro _ listed rfl
      obtain ⟨⟨row, x⟩, entry, rfl⟩ := List.mem_map.mp (List.mem_reverse.mp listed)
      have also := OrderedMap.mem_entries_iff.mp entry
      rw [found] at also
      cases also
    rw [get?, ofList, OrderedMap.get?_ofList, missing]
    rfl

namespace Outcome

variable {c a b : Outcome} {row : UInt32} {v : Value}

def branch (whenTrue otherwise : Outcome) (v : Value) : Outcome :=
  if v = .bool true then whenTrue else otherwise

theorem asBool?_eq_true_iff : v.asBool? = some true ↔ v = .bool true := by
  cases v <;> simp [Value.asBool?]

theorem choose_fst (row : UInt32) (v : Value) : (choose a b row v).1 =
    (row, ((branch a b v).values.get? row).getD (.bool false)) := by
  simp only [choose, branch, asBool?_eq_true_iff]
  by_cases holds : v = .bool true
  · simp only [if_pos holds]
    cases a.values.get? row <;> rfl
  · simp only [if_neg holds]
    cases b.values.get? row <;> rfl

/-- A choice has a defect where the chosen branch has no value. -/
theorem choose_snd (row : UInt32) (v : Value) :
    (choose a b row v).2.isNone = ((branch a b v).values.get? row).isSome := by
  simp only [choose, branch, asBool?_eq_true_iff]
  by_cases holds : v = .bool true
  · simp only [if_pos holds]
    cases a.values.get? row <;> rfl
  · simp only [if_neg holds]
    cases b.values.get? row <;> rfl

theorem chosen_get?_of_entries (entries : c.values.rows.isEmpty = false) (row : UInt32) :
    (chosen c a b).values.get? row = (c.values.rows.get? row).map fun v =>
      ((branch a b v).values.get? row).getD (.bool false) := by
  have partly : wholeBranch? c a b = none := by simp [wholeBranch?, entries]
  have rows : (chooseRows c a b).map (·.1) = c.values.rows.entries.map fun entry =>
      (entry.1, ((branch a b entry.2).values.get? entry.1).getD (.bool false)) := by
    rw [chooseRows, List.map_map]
    exact List.map_congr_left fun entry _ => choose_fst entry.1 entry.2
  rw [chosen, partly, Option.getD_none, rows]
  exact RowValues.get?_ofList_entries c.values.rows
    (fun row v => ((branch a b v).values.get? row).getD (.bool false)) row

theorem chosen_of_constant {x : Bool} (empty : c.values.rows.isEmpty = true)
    (constant : c.values.constant = some (.bool x)) : chosen c a b = branch a b (.bool x) := by
  simp only [chosen, wholeBranch?, empty, constant]
  cases x <;> rfl

end Outcome

/-- A choice has the value of the branch that its condition selects at a row exactly if the
condition has an entry for the row or no entries at all. The condition's constant is lost beside
entries, and the choice has no value at the rows that it stands for. -/
theorem Expr.choice_selects_iff {t : Tree} {cond whenTrue otherwise : Expr}
    {policy p q r : Policy} {s m i i' j j' k k' : EvalState} {o c a b : Outcome}
    (done : (Expr.choice cond whenTrue otherwise).eval t policy s = .ok o m)
    (condDone : cond.eval t p i = .ok c i') (trueDone : whenTrue.eval t q j = .ok a j')
    (otherwiseDone : otherwise.eval t r k = .ok b k') {row : UInt32} {v w : Value}
    (defined : c.values.get? row = some v)
    (selected : (if v = .bool true then a else b).values.get? row = some w) :
    o.values.get? row = some w ↔
      c.values.rows.contains row = true ∨ c.values.rows.isEmpty = true := by
  have parts : (Expr.choice cond whenTrue otherwise).result t = .ok o := eval_result done
  rw [result, eval_result condDone, eval_result trueDone, eval_result otherwiseDone] at parts
  obtain ⟨-, rfl⟩ := Outcome.select_ok parts
  cases empty : c.values.rows.isEmpty with
  | true =>
    have constant : c.values.constant = some v := by
      rwa [RowValues.get?, (OrderedMap.isEmpty_iff _).mp empty row, Option.none_or] at defined
    obtain ⟨x, rfl⟩ := result_booleanConstant (eval_result condDone) v constant
    rw [Outcome.chosen_of_constant empty constant]
    exact iff_of_true selected (.inr rfl)
  | false =>
    rw [Outcome.chosen_get?_of_entries empty]
    cases entry : c.values.rows.get? row with
    | none => simp [OrderedMap.contains, entry]
    | some x =>
      have same : x = v := by
        rw [RowValues.get?, entry, Option.some_or] at defined
        exact Option.some.inj defined
      rw [same, Option.map_some, Outcome.branch, selected]
      simp [OrderedMap.contains, entry]

def Value.int64 (n : Int) : Value := (ofInt? .int64 n).getD .null

/-- A column with a null between two numbers, so that the second row is left out. -/
def gappedColumn : Tree :=
  let number (n : Int) (admitted : IntegerKind.int64.Admits n) : Value :=
    .integer .int64 n admitted
  (Ingest.fill {} [{ name := "A", type := .integer .int64 }]
    [[number 1 (by decide)], [.null], [number 3 (by decide)]]).tree

def keptRows : Expr := .logic .or (.constant true) (.constant false)

def atLeastOne : Expr :=
  .binary .ge (.column 1) (.ofValue (.integer .int64 1 (by decide)))

theorem Expr.choice_selects_iff_gapped :
    ∃ o m, (Expr.choice keptRows atLeastOne (.constant false)).eval gappedColumn {} {} = .ok o m ∧
      o.values.get? 1 ≠ some (.bool true) ∧ o.values.get? 2 = some (.bool false) := by
  have whole : (((Expr.choice keptRows atLeastOne (.constant false)).eval gappedColumn {}).run'
      {}).isSome = true := by decide +kernel
  have cond : ((keptRows.eval gappedColumn {}).run' {}).map (fun c =>
      (c.values.get? 1, c.values.get? 2, c.values.rows.keys)) =
        some (some (.bool true), some (.bool false), [2]) := by decide +kernel
  have whenTrue : ((atLeastOne.eval gappedColumn {}).run' {}).map (fun a => a.values.get? 1) =
      some (some (.bool true)) := by decide +kernel
  obtain ⟨o, ends⟩ := Option.isSome_iff_exists.mp whole
  obtain ⟨m, done⟩ := exists_ok ends
  obtain ⟨c, condEnds, condValues⟩ := Option.map_eq_some_iff.mp cond
  obtain ⟨i, condDone⟩ := exists_ok condEnds
  obtain ⟨a, trueEnds, trueValue⟩ := Option.map_eq_some_iff.mp whenTrue
  obtain ⟨j, trueDone⟩ := exists_ok trueEnds
  simp only [Prod.mk.injEq] at condValues
  obtain ⟨first, second, keys⟩ := condValues
  have otherwiseDone : (Expr.constant false).eval gappedColumn {} {} = .ok (.ofBool false) {} := rfl
  have atFirst := Expr.choice_selects_iff done condDone trueDone otherwiseDone first trueValue
  have atSecond : o.values.get? 2 = some (.bool false) ↔ _ :=
    Expr.choice_selects_iff done condDone trueDone otherwiseDone second rfl
  have entry (row : UInt32) : c.values.rows.contains row = true ↔ row = 2 := by
    rw [OrderedMap.contains_iff_mem_keys, keys, List.mem_singleton]
  have some : c.values.rows.isEmpty ≠ true := by
    intro empty
    have absent := (OrderedMap.isEmpty_iff _).mp empty 2
    have present := (entry 2).mpr rfl
    rw [OrderedMap.contains, absent] at present
    cases present
  refine ⟨o, m, done, fun same => ?_, atSecond.mpr (.inl ((entry 2).mpr rfl))⟩
  rcases atFirst.mp same with listed | empty
  · exact absurd ((entry 1).mp listed) (by decide)
  · exact some empty

/-- The condition holds at the first row, by its constant, and the choice has no value there. -/
theorem Expr.choice_drops_constant :
    ((keptRows.eval gappedColumn {}).run' {}).bind (fun c => c.values.get? 1) =
        some (.bool true) ∧
      ((atLeastOne.eval gappedColumn {}).run' {}).bind (fun a => a.values.get? 1) =
        some (.bool true) ∧
      ((Expr.choice keptRows atLeastOne (.constant false)).eval gappedColumn {} |>.run' {}).map
        (fun o => o.values.get? 1) = some none := by
  refine ⟨?_, ?_, ?_⟩ <;> decide +kernel

end LayeredTable
