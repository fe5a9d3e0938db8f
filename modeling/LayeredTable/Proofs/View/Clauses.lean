import LayeredTable.Proofs.Session.Sound
import LayeredTable.Proofs.View.Build

/-! What a list of clauses asks for, and when there is a view of it. A view is all or nothing: it is
made exactly if one source is named, something is selected, all of it is found and the predicate
gives booleans; and whatever is refused is refused before the fork. -/
namespace LayeredTable

namespace ViewClause

def source? : ViewClause → Option Nat
  | source node => some node
  | _ => none

def names : ViewClause → List String
  | select names => names
  | _ => []

def filter? : ViewClause → Option Expr
  | filter e => some e
  | _ => none

end ViewClause

namespace ViewPlan

variable {t : Tree} {root : Nat} {names : List String} {policy : Policy} {eval : EvalState}
  {p q : ViewPlan} {clauses : List ViewClause}

def take (p : ViewPlan) (clause : ViewClause) : ViewPlan :=
  { source := p.source.or clause.source?
    names := p.names ++ clause.names
    filter := clause.filter?.or p.filter }

/-- What a list of clauses asks for: its first source, all that it selects and its last
predicate. -/
def ofClauses (clauses : List ViewClause) : ViewPlan :=
  { source := (clauses.filterMap (·.source?)).head?
    names := clauses.flatMap (·.names)
    filter := (clauses.filterMap (·.filter?)).getLast? }

/-- Only a second source is refused, and then the plan stays as it is. -/
theorem apply_eq (clause : ViewClause) (p : ViewPlan) : apply clause p =
    if p.source.isSome && clause.source?.isSome then .error .fromAlreadySet p
    else .ok () (p.take clause) := by
  obtain ⟨source, names, filter⟩ := p
  cases clause with
  | source node =>
    cases source with
    | none =>
      simp only [take, ViewClause.names, List.append_nil]
      rfl
    | some other => rfl
  | select more =>
    simp only [take, ViewClause.source?, Option.isSome_none, Bool.and_false, Option.or_none]
    rfl
  | filter e =>
    simp only [take, ViewClause.source?, ViewClause.names, Option.isSome_none, Bool.and_false,
      Option.or_none, List.append_nil]
    rfl

def sources (p : ViewPlan) (clauses : List ViewClause) : List Nat :=
  p.source.toList ++ clauses.filterMap (·.source?)

/-- Further clauses are taken as a whole unless they name a second source. -/
theorem forM_apply (clauses : List ViewClause) (p : ViewPlan) :
    ((p.sources clauses).length ≤ 1 ∧ forM clauses apply p = .ok () (clauses.foldl take p)) ∨
      1 < (p.sources clauses).length ∧ ∃ q, forM clauses apply p = .error .fromAlreadySet q := by
  induction clauses generalizing p with
  | nil =>
    refine .inl ⟨?_, rfl⟩
    cases source : p.source <;> simp [sources, source]
  | cons clause clauses ih =>
    have first := apply_eq clause p
    rw [List.forM_cons]
    by_cases second : p.source.isSome = true ∧ clause.source?.isSome = true
    · obtain ⟨before, source⟩ := Option.isSome_iff_exists.mp second.1
      obtain ⟨node, named⟩ := Option.isSome_iff_exists.mp second.2
      simp only [source, named, Option.isSome_some, Bool.and_self, if_true] at first
      rw [bind_of_error first]
      exact .inr ⟨by simp [sources, source, named], p, rfl⟩
    · -- a clause that is taken moves its source from the clauses to the plan
      rw [← Bool.and_eq_true] at second
      rw [if_neg second] at first
      have same : p.sources (clause :: clauses) = (p.take clause).sources clauses := by
        cases source : p.source <;> cases named : clause.source? <;>
          simp_all [sources, take]
      rw [bind_of_ok first, same]
      exact ih (p.take clause)

theorem foldl_take (clauses : List ViewClause) (p : ViewPlan) : clauses.foldl take p =
    { source := (p.source.toList ++ clauses.filterMap (·.source?)).head?
      names := p.names ++ clauses.flatMap (·.names)
      filter := (p.filter.toList ++ clauses.filterMap (·.filter?)).getLast? } := by
  induction clauses generalizing p with
  | nil =>
    obtain ⟨source, names, filter⟩ := p
    cases source <;> cases filter <;> simp
  | cons clause clauses ih =>
    rw [List.foldl_cons, ih]
    obtain ⟨source, names, filter⟩ := p
    cases clause <;> cases source <;> cases filter <;>
      simp [take, ViewClause.source?, ViewClause.names, ViewClause.filter?]

theorem findByName_eq_some_iff {name : String} :
    (∃ c, t.findByName root name = some c) ↔
      ∃ id c, (t.children root).get? id = some c ∧ t.nodes[c]?.map (·.name) = some name := by
  constructor
  · rintro ⟨c, found⟩
    obtain ⟨id, entry⟩ := Tree.exists_entry_of_findByName found
    rw [Tree.findByName] at found
    exact ⟨id, c, entry, by simpa using List.find?_some found⟩
  · rintro ⟨id, c, entry, named⟩
    apply Option.isSome_iff_exists.mp
    rw [Tree.findByName, List.find?_isSome]
    exact ⟨c, OrderedMap.mem_values_of_get? entry, by simp [named]⟩

theorem findColumns_succeeds_iff : (∃ columns, findColumns t root names = .ok columns) ↔
    ∀ name ∈ names, ∃ c, t.findByName root name = some c := by
  induction names with
  | nil => simp [findColumns, pure, Except.pure]
  | cons name names ih =>
    rw [findColumns_cons, List.forall_mem_cons, ← ih]
    cases t.findByName root name with
    | none => simp
    | some c => cases findColumns t root names <;> simp [Except.map]

theorem accepted_succeeds_iff {filter : Option Expr} :
    (∃ rows s, accepted policy filter ⟨t, eval⟩ = .ok rows s) ↔
      ∀ e, filter = some e → ∃ o eval', e.eval t policy eval = .ok o eval' ∧ o.type = .bool := by
  cases filter with
  | none => exact ⟨fun _ => nofun, fun _ => ⟨none, _, rfl⟩⟩
  | some e =>
    simp only [accepted, Option.some.injEq, forall_eq']
    cases e.eval t policy eval with
    | error cause eval' => simp
    | ok o eval' => by_cases boolean : o.type = .bool <;> simp [boolean]

/-- A build succeeds exactly if it has a source and a selection, the predicate gives booleans, and
all that is selected is found. -/
theorem build_succeeds_iff (sound : t.Sound) : (∃ v s, p.build policy ⟨t, eval⟩ = .ok v s) ↔
    ∃ root, p.source = some root ∧ p.names ≠ [] ∧
      (∃ rows s, accepted policy p.filter ⟨t, eval⟩ = .ok rows s) ∧
      ∃ columns, findColumns t root p.names = .ok columns := by
  constructor
  · rintro ⟨v, s, built⟩
    rcases build_cases sound policy p eval with
      ⟨e, eval', -, failed⟩ | ⟨root, rows, columns, eval', source, unnamed, passed, found, -⟩
    · rw [failed] at built
      cases built
    · exact ⟨root, source, unnamed, ⟨rows, _, passed⟩, columns, found⟩
  · rintro ⟨root, source, unnamed, ⟨rows, s, passed⟩, columns, found⟩
    rcases accepted_tree policy p.filter ⟨t, eval⟩ with
      ⟨e, eval', -, failed⟩ | ⟨rows, eval', passed⟩
    · rw [failed] at passed
      cases passed
    · exact ⟨_, _, build_of_found sound source unnamed passed found⟩

end ViewPlan

namespace View

variable {t : Tree} {policy : Policy} {eval : EvalState}

/-- A list of clauses with a second source is refused at once, and any other is built. -/
theorem new_eq (policy : Policy) (clauses : List ViewClause) (s : ViewState) :
    View.new policy clauses s =
      if (clauses.filterMap (·.source?)).length ≤ 1 then
        (ViewPlan.ofClauses clauses).build policy s
      else .error .fromAlreadySet s := by
  rw [View.new, List.forM_eq_forM]
  rcases ViewPlan.forM_apply clauses {} with ⟨single, taken⟩ | ⟨several, q, refused⟩
  · have plan : clauses.foldl ViewPlan.take {} = .ofClauses clauses := by
      simp [ViewPlan.foldl_take, ViewPlan.ofClauses]
    have single : (clauses.filterMap (·.source?)).length ≤ 1 := single
    rw [taken, if_pos single, plan]
  · have several : 1 < (clauses.filterMap (·.source?)).length := several
    rw [refused, if_neg (by omega)]

theorem source_ofClauses {clauses : List ViewClause} {root : Nat}
    (single : (clauses.filterMap (·.source?)).length ≤ 1) :
    (ViewPlan.ofClauses clauses).source = some root ↔ clauses.filterMap (·.source?) = [root] := by
  change (clauses.filterMap (·.source?)).head? = some root ↔ _
  cases named : clauses.filterMap (·.source?) with
  | nil => simp
  | cons node others =>
    rw [named, List.length_cons] at single
    have alone : others = [] := List.eq_nil_of_length_eq_zero (by omega)
    simp [alone]

/-- Whatever fails leaves the tree alone, and the tree is never what refuses. -/
theorem new_refused (sound : t.Sound) {clauses : List ViewClause} {e : ViewError} {s : ViewState}
    (failed : View.new policy clauses ⟨t, eval⟩ = .error e s) :
    s.tree = t ∧ ∀ cause, e ≠ .tree cause := by
  rw [View.new_eq] at failed
  split at failed
  · rcases ViewPlan.build_cases sound policy (.ofClauses clauses) eval with
      ⟨e, eval', outside, refused⟩ | ⟨root, rows, columns, eval', -, -, -, -, built⟩
    · rw [refused] at failed
      cases failed
      exact ⟨rfl, outside⟩
    · rw [built] at failed
      cases failed
  · cases failed
    exact ⟨rfl, nofun⟩

/-- A view is made of a list of clauses exactly if there is one source, a selection, a predicate
that gives booleans, and a child of the source for every selected name. Otherwise the tree stays as
it was, and so does a plan that refuses a clause. -/
theorem new_all_or_nothing (reachable : t.Reachable) (policy : Policy)
    (clauses : List ViewClause) (eval : EvalState) :
    ((∃ v s, View.new policy clauses ⟨t, eval⟩ = .ok v s) ↔
      ∃ root, clauses.filterMap (·.source?) = [root] ∧ clauses.flatMap (·.names) ≠ [] ∧
        (∀ e, (clauses.filterMap (·.filter?)).getLast? = some e →
          ∃ o eval', e.eval t policy eval = .ok o eval' ∧ o.type = .bool) ∧
        ∀ name ∈ clauses.flatMap (·.names), ∃ id c, (t.children root).get? id = some c ∧
          t.nodes[c]?.map (·.name) = some name) ∧
    (∀ e s, View.new policy clauses ⟨t, eval⟩ = .error e s →
      s.tree = t ∧ ∀ cause, e ≠ .tree cause) ∧
    ∀ (clause : ViewClause) (p q : ViewPlan) (e : ViewError),
      ViewPlan.apply clause p = .error e q → q = p := by
  have sound := reachable.sound
  refine ⟨?_, fun e s failed => new_refused sound failed, ?_⟩
  · rw [View.new_eq]
    split
    · rename_i single
      rw [ViewPlan.build_succeeds_iff sound]
      apply exists_congr
      intro root
      rw [source_ofClauses single, ViewPlan.accepted_succeeds_iff,
        ViewPlan.findColumns_succeeds_iff]
      simp only [ViewPlan.findByName_eq_some_iff]
      rfl
    · rename_i several
      constructor
      · rintro ⟨v, s, made⟩
        cases made
      · rintro ⟨root, one, -⟩
        rw [one] at several
        exact absurd (Nat.le_refl 1) several
  · intro clause p q e refused
    rw [ViewPlan.apply_eq] at refused
    split at refused
    · cases refused
      rfl
    · cases refused

theorem new_all_or_nothing_misspelt :
    let t := ((Session.start (.new ⟨0⟩)).run [.add 0 (.column 1 "a" .bool {}) false,
      .add 1 (.cell (.of 1 1) (.bool true)) false, .fork 1]).tree
    let clauses : List ViewClause := [.select ["a"],
      .filter (.binary .eq (.column 1) (.ofValue (.bool true))), .source 0]
    (∃ v s, View.new {} clauses ⟨t, {}⟩ = .ok v s) ∧
      ∃ e s, View.new {} (clauses ++ [.select ["b"]]) ⟨t, {}⟩ = .error e s ∧ s.tree = t := by
  intro t clauses
  have reachable : t.Reachable := ⟨⟨0⟩, _, rfl⟩
  constructor
  · obtain ⟨succeeds, -, -⟩ := new_all_or_nothing reachable {} clauses {}
    refine succeeds.mpr ⟨0, rfl, by decide, ?_, ?_⟩
    · intro e last
      cases last
      have ends : ((Expr.eval t {} (.binary .eq (.column 1) (.ofValue (.bool true)))).run'
        {}).map (·.type) = some .bool := by decide +kernel
      obtain ⟨o, ends, boolean⟩ := Option.map_eq_some_iff.mp ends
      obtain ⟨eval', done⟩ := exists_ok ends
      exact ⟨o, eval', done, boolean⟩
    · intro name selected
      cases List.mem_singleton.mp selected
      exact ⟨.header 1, 1, by decide +kernel, by decide +kernel⟩
  · obtain ⟨-, refused, -⟩ := new_all_or_nothing reachable {} (clauses ++ [.select ["b"]]) {}
    have missing : (View.new {} (clauses ++ [.select ["b"]])).run' ⟨t, {}⟩ = none := by
      decide +kernel
    obtain ⟨e, s, made⟩ := exists_error missing
    exact ⟨e, s, made, (refused e s made).1⟩

end View
end LayeredTable
