import LayeredTable.Proofs.State
import LayeredTable.Proofs.Tree.Cover
import LayeredTable.View

/-! Building a view is a check followed by a change. Whatever fails, fails before the fork and
leaves the tree alone; after the fork only children that exist are written, and only in the new
version. -/
namespace LayeredTable

namespace ViewPlan

variable {t u : Tree} {root c : Nat} {names : List String} {columns : List Nat}
  {rows : Option RowValues} {policy : Policy} {p : ViewPlan} {eval : EvalState}

def columnId (t : Tree) (column : Nat) : CellId := (t.nodes[column]?.map (·.id)).getD ⟨0⟩

def shown (root : Nat) (rows : Option RowValues) (t : Tree) (column : Nat) : Tree :=
  match rows with
  | some rows => reveal rows column (t.toggle root (columnId t column) false)
  | none => t.toggle root (columnId t column) false

theorem findColumns_cons (t : Tree) (root : Nat) (name : String) (names : List String) :
    findColumns t root (name :: names) =
      match t.findByName root name with
      | some c => (findColumns t root names).map (c :: ·)
      | none => .error (.unknownField name) := by
  rw [findColumns, List.mapM_cons]
  cases t.findByName root name with
  | none => rfl
  | some c =>
    change (findColumns t root names >>= fun cs => pure (c :: cs)) = _
    cases findColumns t root names <;> rfl

theorem findColumns_iff :
    findColumns t root names = .ok columns ↔ names.map (t.findByName root) = columns.map some := by
  induction names generalizing columns with
  | nil =>
    cases columns with
    | nil => simp [findColumns, pure, Except.pure]
    | cons => simp [findColumns, pure, Except.pure]
  | cons name names ih =>
    rw [findColumns_cons]
    cases found : t.findByName root name with
    | none => cases columns <;> simp [found]
    | some c =>
      cases columns with
      | nil => cases findColumns t root names <;> simp [Except.map]
      | cons d ds =>
        rw [List.map_cons, List.map_cons, found, List.cons.injEq, Option.some.injEq, ← ih]
        cases findColumns t root names with
        | error e => simp [Except.map]
        | ok cs => simp [Except.map]

theorem findColumns_error {e : ViewError} (failed : findColumns t root names = .error e) :
    ∃ name, e = .unknownField name := by
  induction names with
  | nil => cases failed
  | cons name names ih =>
    rw [findColumns_cons] at failed
    cases found : t.findByName root name with
    | none =>
      rw [found] at failed
      cases failed
      exact ⟨name, rfl⟩
    | some c =>
      rw [found] at failed
      cases rest : findColumns t root names with
      | error other =>
        rw [rest] at failed
        cases failed
        exact ih rest
      | ok columns =>
        rw [rest] at failed
        cases failed

/-- A selected column is a child of the node that the view is made of. -/
theorem selected_child (found : findColumns t root names = .ok columns) (member : c ∈ columns) :
    ∃ id, (t.children root).get? id = some c := by
  have listed : some c ∈ columns.map some := List.mem_map_of_mem member
  rw [← findColumns_iff.mp found] at listed
  obtain ⟨name, -, found⟩ := List.mem_map.mp listed
  exact Tree.exists_entry_of_findByName found

theorem columns_ne_nil (unnamed : names ≠ []) (found : findColumns t root names = .ok columns) :
    columns ≠ [] := by
  rintro rfl
  exact unnamed (List.map_eq_nil_iff.mp (findColumns_iff.mp found))

theorem source_inside (unnamed : names ≠ []) (found : findColumns t root names = .ok columns) :
    root < t.size := by
  obtain ⟨c, member⟩ := List.exists_mem_of_ne_nil _ (columns_ne_nil unnamed found)
  obtain ⟨id, entry⟩ := selected_child found member
  obtain ⟨n, here, -⟩ := Tree.exists_parent_of_child entry
  exact Tree.lt_size here

theorem columnId_eq (shape : t.Shape) {id : CellId} (entry : (t.children root).get? id = some c) :
    columnId t c = id := by
  obtain ⟨n, here, named, -⟩ := shape.child entry
  simp [columnId, here, named]

theorem columnId_of_frame (same : u.frame = t.frame) : columnId u c = columnId t c := by
  rw [columnId, columnId, Tree.map_eq_of_frame same c (·.id) fun _ => rfl]

def revealCell (rows : RowValues) (column : Nat) (t : Tree) (id : CellId) : Tree :=
  match rows.get? id.row with
  | some (.bool keep) => t.toggle column id (!keep)
  | _ => t

theorem reveal_eq (rows : RowValues) (column : Nat) (t : Tree) :
    reveal rows column t = (t.children column).keys.foldl (revealCell rows column) t := rfl

theorem toggled_reveal (values : RowValues) (column : Nat) (t : Tree) :
    t.Toggled (reveal values column t) := by
  have all (ids : List CellId) (u : Tree) (known : t.Toggled u)
      (listed : ∀ id ∈ ids, id ∈ (t.children column).keys) :
      t.Toggled (ids.foldl (revealCell values column) u) := by
    induction ids generalizing u with
    | nil => exact known
    | cons id ids ih =>
      refine ih _ ?_ fun other member => listed other (List.mem_cons_of_mem _ member)
      rw [revealCell]
      split
      · apply known.step
        rw [Tree.children_eq_of_frame known.frame]
        exact listed id List.mem_cons_self
      · exact known
  rw [reveal_eq]
  exact all _ t .refl fun _ member => member

theorem toggled_shown {id : CellId} (shape : t.Shape)
    (entry : (t.children root).get? id = some c) : t.Toggled (shown root rows t c) := by
  have first : t.Toggled (t.toggle root (columnId t c) false) := by
    apply Tree.Toggled.step .refl
    rw [columnId_eq shape entry]
    exact OrderedMap.mem_keys_of_get? entry
  cases rows with
  | none => exact first
  | some values => exact first.trans (toggled_reveal values c _)

theorem toggled_columns (rows : Option RowValues) (shape : t.Shape) (same : u.frame = t.frame)
    (children : ∀ c ∈ columns, ∃ id, (t.children root).get? id = some c) :
    u.Toggled (columns.foldl (shown root rows) u) := by
  induction columns generalizing u with
  | nil => exact .refl
  | cons c columns ih =>
    obtain ⟨id, entry⟩ := children c List.mem_cons_self
    rw [← Tree.children_eq_of_frame same] at entry
    have first : u.Toggled (shown root rows u c) := toggled_shown (shape.of_frame same) entry
    refine first.trans (ih (first.frame.trans same) ?_)
    intro d member
    exact children d (List.mem_cons_of_mem _ member)

/-- In a sound tree a column is shown without error. -/
theorem showColumn_eq (sound : t.Sound) (inside : root < t.size) :
    showColumn ⟨root, t.version⟩ rows c ⟨t, eval⟩ = .ok () ⟨shown root rows t c, eval⟩ := by
  obtain ⟨m, there⟩ := sound.layer inside sound.aligned.version_lt
  have written : t.layerToggle ⟨root, t.version⟩ (columnId t c) false =
      .ok (t.toggle root (columnId t c) false) := by
    rw [Tree.layerToggle_eq, there]
    rfl
  rw [showColumn, get_bind]
  simp only
  rw [show ((t.nodes[c]?.map (·.id)).getD ⟨0⟩) = columnId t c from rfl, written]
  cases rows <;> rfl

theorem showColumns_eq (sound : t.Sound) (inside : root < t.size)
    (children : ∀ c ∈ columns, ∃ id, (t.children root).get? id = some c) :
    forM columns (showColumn ⟨root, t.version⟩ rows) ⟨t, eval⟩ =
      .ok () ⟨columns.foldl (shown root rows) t, eval⟩ := by
  induction columns generalizing t with
  | nil => rfl
  | cons c columns ih =>
    obtain ⟨id, entry⟩ := children c List.mem_cons_self
    have first : t.Toggled (shown root rows t c) := toggled_shown sound.shape entry
    have later := ih (t := shown root rows t c) (first.sound sound).1
      (by rwa [Tree.size_eq_of_frame first.frame])
      (fun d member => by
        rw [Tree.children_eq_of_frame first.frame]
        exact children d (List.mem_cons_of_mem _ member))
    rw [first.version] at later
    rw [List.forM_cons, List.foldl_cons]
    simp only [bind, EStateM.bind, showColumn_eq sound inside, later]

/-- Evaluating the predicate leaves the tree alone. -/
theorem accepted_tree (policy : Policy) (filter : Option Expr) (s : ViewState) :
    (∃ e eval, (∀ cause, e ≠ .tree cause) ∧
      accepted policy filter s = .error e ⟨s.tree, eval⟩) ∨
      ∃ rows eval, accepted policy filter s = .ok rows ⟨s.tree, eval⟩ := by
  cases filter with
  | none => exact .inr ⟨none, s.eval, rfl⟩
  | some e =>
    simp only [accepted]
    cases e.eval s.tree policy s.eval with
    | error cause eval => exact .inl ⟨.expr cause, eval, nofun, rfl⟩
    | ok o eval =>
      by_cases boolean : o.type = .bool
      · exact .inr ⟨some o.values, eval, by simp [boolean]⟩
      · exact .inl ⟨.whereNotBoolean, eval, nofun, by simp [boolean]⟩

/-- A build with a source and a selection filters, finds the columns, forks and then shows. -/
theorem build_eq (source : p.source = some root) (unnamed : p.names ≠ []) :
    p.build policy = accepted policy p.filter >>= fun rows => get >>= fun s =>
      match findColumns s.tree root p.names with
      | .error e => throw e
      | .ok columns => do
        modify fun s => { s with tree := (s.tree.fork root).2 }
        columns.forM (showColumn (s.tree.fork root).1 rows)
        return { root, version := (s.tree.fork root).1.version, columns } := by
  have named : p.names.isEmpty = false := by simpa using unnamed
  funext s
  rw [build, source]
  simp only [named]
  change (accepted policy p.filter >>= _) s = _
  cases passed : accepted policy p.filter s with
  | error e m => rw [bind_of_error passed, bind_of_error passed]
  | ok rows m =>
    rw [bind_of_ok passed, bind_of_ok passed, get_bind, get_bind]
    cases findColumns m.tree root p.names <;> rfl

/-- What was asked for and found is shown in a new version. -/
theorem build_of_found {eval' : EvalState} (sound : t.Sound) (source : p.source = some root)
    (unnamed : p.names ≠ []) (passed : accepted policy p.filter ⟨t, eval⟩ = .ok rows ⟨t, eval'⟩)
    (found : findColumns t root p.names = .ok columns) :
    p.build policy ⟨t, eval⟩ = .ok ⟨root, t.version + 1, columns⟩
      ⟨columns.foldl (shown root rows) (t.fork root).2, eval'⟩ := by
  have inside : root < t.size := source_inside unnamed found
  have frame := Tree.frame_fork sound inside
  have forked : forM columns (showColumn ⟨root, t.version + 1⟩ rows) ⟨(t.fork root).2, eval'⟩ =
      .ok () ⟨columns.foldl (shown root rows) (t.fork root).2, eval'⟩ := by
    refine showColumns_eq (sound.fork inside).1 ?_ ?_
    · rwa [Tree.size_eq_of_frame frame]
    · intro c member
      rw [Tree.children_eq_of_frame frame]
      exact selected_child found member
  rw [build_eq source unnamed, bind_of_ok passed, get_bind]
  simp only [found]
  rw [modify_bind, Tree.handle_fork, List.forM_eq_forM, bind_of_ok forked]
  rfl

/-- A build fails and leaves the tree alone, or it forks the tree and shows what was selected. The
tree itself refuses nothing. -/
theorem build_cases (sound : t.Sound) (policy : Policy) (p : ViewPlan) (eval : EvalState) :
    (∃ e eval', (∀ cause, e ≠ .tree cause) ∧ p.build policy ⟨t, eval⟩ = .error e ⟨t, eval'⟩) ∨
      ∃ root rows columns eval', p.source = some root ∧ p.names ≠ [] ∧
        accepted policy p.filter ⟨t, eval⟩ = .ok rows ⟨t, eval'⟩ ∧
        findColumns t root p.names = .ok columns ∧
        p.build policy ⟨t, eval⟩ = .ok ⟨root, t.version + 1, columns⟩
          ⟨columns.foldl (shown root rows) (t.fork root).2, eval'⟩ := by
  cases source : p.source with
  | none => exact .inl ⟨.missingFrom, eval, nofun, by simp [build, source]; rfl⟩
  | some root =>
    by_cases unnamed : p.names = []
    · exact .inl ⟨.noSelection, eval, nofun, by simp [build, source, unnamed]; rfl⟩
    · rcases accepted_tree policy p.filter ⟨t, eval⟩ with
        ⟨e, eval', outside, failed⟩ | ⟨rows, eval', passed⟩
      · refine .inl ⟨e, eval', outside, ?_⟩
        rw [build_eq source unnamed, bind_of_error failed]
      · cases found : findColumns t root p.names with
        | error e =>
          obtain ⟨name, rfl⟩ := findColumns_error found
          refine .inl ⟨.unknownField name, eval', nofun, ?_⟩
          rw [build_eq source unnamed, bind_of_ok passed, get_bind]
          simp only [found]
          rfl
        | ok columns =>
          exact .inr ⟨root, rows, columns, eval', rfl, unnamed, passed, found,
            build_of_found sound source unnamed passed found⟩

end ViewPlan
end LayeredTable
