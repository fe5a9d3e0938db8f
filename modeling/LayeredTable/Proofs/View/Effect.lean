import LayeredTable.Proofs.Session.Ingested
import LayeredTable.Proofs.Tree.Exclusion

/-! What a view shows: its columns, and of their cells those in rows that the predicate accepts.
All else that was known is hidden in the view's version, and no earlier version is touched. -/
namespace LayeredTable
namespace ViewPlan

variable {t u : Tree} {root c : Nat} {columns : List Nat} {rows : Option RowValues}
  {policy : Policy} {p : ViewPlan} {eval : EvalState} {v : View} {s : ViewState}

def verdict (rows : Option RowValues) (row : UInt32) : Option Bool := rows.bind (·.boolAt? row)

/-- A cell's visibility after its column was shown. -/
def judged (rows : Option RowValues) (id : CellId) (before : Option Bool) : Option Bool :=
  ((verdict rows id.row).map (!·)).or before

theorem judged_judged (rows : Option RowValues) (id : CellId) (before : Option Bool) :
    judged rows id (judged rows id before) = judged rows id before := by
  rw [judged, judged]
  cases verdict rows id.row <;> rfl

theorem revealCell_cases (rows : RowValues) (column : Nat) (t : Tree) (id : CellId) :
    (∃ keep, rows.boolAt? id.row = some keep ∧
      revealCell rows column t id = t.toggle column id (!keep)) ∨
      rows.boolAt? id.row = none ∧ revealCell rows column t id = t := by
  rw [RowValues.boolAt?, revealCell]
  split
  · rename_i keep found
    exact .inl ⟨keep, by simp [found, Value.asBool?], rfl⟩
  · rename_i other
    refine .inr ⟨?_, rfl⟩
    cases found : rows.get? id.row with
    | none => rfl
    | some v => cases v <;> simp_all [Value.asBool?]

theorem isHidden?_revealCell {rows : RowValues} (sound : t.Sound) (inside : c < t.size)
    (id : CellId) (j : Nat) (other : CellId) : (revealCell rows c t id).isHidden? j other =
      if j = c ∧ other = id then judged (some rows) other (t.isHidden? j other)
      else t.isHidden? j other := by
  rcases revealCell_cases rows c t id with ⟨keep, said, written⟩ | ⟨silent, same⟩
  · rw [written, sound.isHidden?_toggle inside]
    split
    · rename_i here
      rw [here.2]
      simp [judged, verdict, said]
    · rfl
  · rw [same]
    split
    · rename_i here
      rw [here.2]
      simp [judged, verdict, silent]
    · rfl

theorem isHidden?_revealCells {rows : RowValues} (ids : List CellId) (sound : t.Sound)
    (inside : c < t.size) (j : Nat) (other : CellId) :
    (ids.foldl (revealCell rows c) t).isHidden? j other =
      if j = c ∧ other ∈ ids then judged (some rows) other (t.isHidden? j other)
      else t.isHidden? j other := by
  induction ids generalizing t with
  | nil => simp
  | cons id ids ih =>
    have next : (revealCell rows c t id).Sound ∧ c < (revealCell rows c t id).size := by
      rcases revealCell_cases rows c t id with ⟨keep, -, written⟩ | ⟨-, same⟩
      · rw [written, Tree.toggle, Tree.size_setHidden]
        exact ⟨sound.toggle, inside⟩
      · rw [same]
        exact ⟨sound, inside⟩
    rw [List.foldl_cons, ih next.1 next.2, isHidden?_revealCell sound inside]
    by_cases column : j = c
    · by_cases here : other = id
      · by_cases again : other ∈ ids <;> simp [column, here, judged_judged]
      · simp [column, here]
    · simp [column]

/-- Showing a column makes it visible and judges its cells. -/
theorem isHidden?_shown (sound : t.Sound) {id : CellId} (entry : (t.children root).get? id = some c)
    (j : Nat) (other : CellId) : (shown root rows t c).isHidden? j other =
      if j = root ∧ other = columnId t c then some false
      else if j = c ∧ other ∈ (t.children c).keys then judged rows other (t.isHidden? j other)
      else t.isHidden? j other := by
  obtain ⟨below, inside⟩ := sound.shape.lt_child entry
  have rooted : root < t.size := by omega
  have apart : ¬ c = root := by omega
  cases rows with
  | none =>
    rw [shown, sound.isHidden?_toggle rooted]
    simp [judged, verdict]
  | some rows =>
    have inside' : c < (t.toggle root (columnId t c) false).size := by
      rwa [Tree.toggle, Tree.size_setHidden]
    rw [shown, reveal_eq, isHidden?_revealCells _ sound.toggle inside',
      sound.isHidden?_toggle rooted, Tree.children_eq_of_frame Tree.frame_toggle]
    by_cases column : j = c
    · simp [column, apart]
    · simp [column]

theorem isHidden?_columns (sound : t.Sound) (same : u.frame = t.frame) (alive : u.Sound)
    (children : ∀ c ∈ columns, ∃ id, (t.children root).get? id = some c)
    (j : Nat) (other : CellId) : (columns.foldl (shown root rows) u).isHidden? j other =
      if j = root ∧ other ∈ columns.map (columnId t) then some false
      else if j ∈ columns ∧ other ∈ (t.children j).keys then judged rows other (u.isHidden? j other)
      else u.isHidden? j other := by
  induction columns generalizing u with
  | nil => simp
  | cons c columns ih =>
    obtain ⟨id, entry⟩ := children c List.mem_cons_self
    have listed : (u.children root).get? id = some c := by
      rwa [Tree.children_eq_of_frame same]
    have first : u.Toggled (shown root rows u c) := toggled_shown alive.shape listed
    have later := ih (first.frame.trans same) (first.sound alive).1
      fun d member => children d (List.mem_cons_of_mem _ member)
    rw [List.foldl_cons, later, isHidden?_shown alive listed, columnId_of_frame same,
      Tree.children_eq_of_frame same]
    obtain ⟨below, -⟩ := sound.shape.lt_child entry
    by_cases atRoot : j = root
    · have apart : ¬ j = c := by omega
      have absent : j ∉ columns := by
        intro member
        obtain ⟨key, there⟩ := children j (List.mem_cons_of_mem _ member)
        have := sound.shape.lt_child there
        omega
      by_cases here : other = columnId t c <;> simp [atRoot, here] <;> simp_all
    · by_cases here : j = c
      · by_cases again : j ∈ columns <;> simp_all [judged_judged]
      · simp [atRoot, here]

/-- Whether the result of the predicate at a row is `true`. Without a predicate no row is
accepted. -/
def accepts (p : ViewPlan) (policy : Policy) (s : ViewState) (row : UInt32) : Bool :=
  match p.filter with
  | none => false
  | some e =>
    match e.eval s.tree policy s.eval with
    | .ok o _ => o.values.get? row == some (.bool true)
    | .error _ _ => false

/-- What a view of a tree shows: the names of its columns, and the cells in accepted rows. -/
def Shows (p : ViewPlan) (policy : Policy) (s : ViewState) (v : View) (m : Nat) (id : CellId) :
    Prop :=
  (m = v.root ∧ ∃ c ∈ v.columns, (s.tree.children m).get? id = some c) ∨
    (m ∈ v.columns ∧ id ∈ (s.tree.children m).keys ∧ p.accepts policy s id.row = true)

/-- What a view of a tree writes: that its columns are visible, and of their cells whether they are,
wherever the predicate says something of the row. -/
def Writes (p : ViewPlan) (policy : Policy) (s : ViewState) (v : View) (m : Nat) (id : CellId) :
    Prop :=
  (m = v.root ∧ ∃ c ∈ v.columns, (s.tree.children m).get? id = some c) ∨
    (m ∈ v.columns ∧ id ∈ (s.tree.children m).keys ∧ ∃ rows after,
      accepted policy p.filter s = .ok rows after ∧ (verdict rows id.row).isSome = true)

/-- All that a build does when it succeeds. -/
theorem build_ok (sound : t.Sound) (built : p.build policy ⟨t, eval⟩ = .ok v s) :
    ∃ rows, p.source = some v.root ∧ p.names ≠ [] ∧
      accepted policy p.filter ⟨t, eval⟩ = .ok rows ⟨t, s.eval⟩ ∧
      findColumns t v.root p.names = .ok v.columns ∧ v.version = t.version + 1 ∧
      s.tree = v.columns.foldl (shown v.root rows) (t.fork v.root).2 := by
  rcases build_cases sound policy p eval with
    ⟨e, eval', -, failed⟩ | ⟨root, rows, columns, eval', source, unnamed, passed, found, done⟩
  · rw [failed] at built
    cases built
  · rw [done] at built
    cases built
    exact ⟨rows, source, unnamed, passed, found, rfl, rfl⟩

theorem accepts_iff (passed : accepted policy p.filter ⟨t, eval⟩ = .ok rows s) (row : UInt32) :
    p.accepts policy ⟨t, eval⟩ row = true ↔ verdict rows row = some true := by
  rw [accepts]
  cases filter : p.filter with
  | none =>
    rw [filter] at passed
    cases passed
    simp [verdict]
  | some e =>
    rw [filter] at passed
    simp only [accepted] at passed
    cases result : e.eval t policy eval with
    | error cause eval' =>
      rw [result] at passed
      cases passed
    | ok o eval' =>
      rw [result] at passed
      simp only at passed
      split at passed
      · cases passed
        simp only [result, verdict, Option.bind_some, RowValues.boolAt?, beq_iff_eq]
        cases o.values.get? row with
        | none => simp
        | some value => cases value <;> simp [Value.asBool?]
      · cases passed

theorem judged_hidden (rows : Option RowValues) (id : CellId) (known : Option Bool) :
    judged rows id (known.map fun _ => true) = some false ↔ verdict rows id.row = some true := by
  rw [judged]
  cases verdict rows id.row with
  | none => cases known <;> simp
  | some keep => cases keep <;> simp

section Built

variable (sound : t.Sound) (built : p.build policy ⟨t, eval⟩ = .ok v s)
include sound built

theorem root_inside : v.root < t.size := by
  obtain ⟨rows, -, unnamed, -, found, -⟩ := build_ok sound built
  exact source_inside unnamed found

theorem built_toggled : (t.fork v.root).2.Toggled s.tree := by
  obtain ⟨rows, -, -, -, found, -, tree⟩ := build_ok sound built
  rw [tree]
  exact toggled_columns rows sound.shape (Tree.frame_fork sound (root_inside sound built))
    fun c member => selected_child found member

theorem built_frame : s.tree.frame = t.frame :=
  (built_toggled sound built).frame.trans (Tree.frame_fork sound (root_inside sound built))

theorem built_sound : s.tree.Sound :=
  ((built_toggled sound built).sound (sound.fork (root_inside sound built)).1).1

/-- The layers up to the version that was active are untouched. -/
theorem built_layer? (m : Nat) {k : Nat} (old : k ≤ t.version) :
    s.tree.layer? m k = t.layer? m k := by
  have apart : k ≠ (t.fork v.root).2.version := by
    rw [Tree.version_fork]
    omega
  rw [(built_toggled sound built).layer? apart,
    Tree.layer?_fork sound (root_inside sound built), if_pos old]

theorem column_child {c : Nat} (member : c ∈ v.columns) :
    ∃ id, (t.children v.root).get? id = some c := by
  obtain ⟨rows, -, -, -, found, -⟩ := build_ok sound built
  exact selected_child found member

theorem root_lt_column {c : Nat} (member : c ∈ v.columns) : v.root < c := by
  obtain ⟨id, entry⟩ := column_child sound built member
  exact (sound.shape.lt_child entry).1

theorem mem_columnIds (id : CellId) : id ∈ v.columns.map (columnId t) ↔
    ∃ c ∈ v.columns, (t.children v.root).get? id = some c := by
  rw [List.mem_map]
  constructor
  · rintro ⟨c, member, rfl⟩
    obtain ⟨id, entry⟩ := column_child sound built member
    exact ⟨c, member, by rwa [columnId_eq sound.shape entry]⟩
  · rintro ⟨c, member, entry⟩
    exact ⟨c, member, columnId_eq sound.shape entry⟩

theorem isHidden?_of_accepted : ∃ rows, accepted policy p.filter ⟨t, eval⟩ = .ok rows ⟨t, s.eval⟩ ∧
    ∀ m id, s.tree.isHidden? m id =
      if m = v.root ∧ id ∈ v.columns.map (columnId t) then some false
      else if m ∈ v.columns ∧ id ∈ (t.children m).keys then
        judged rows id ((t.isHidden? m id).map fun _ => true)
      else (t.isHidden? m id).map fun _ => true := by
  have inside := root_inside sound built
  obtain ⟨rows, -, -, passed, found, -, tree⟩ := build_ok sound built
  refine ⟨rows, passed, ?_⟩
  intro m id
  rw [tree, isHidden?_columns sound (Tree.frame_fork sound inside) (sound.fork inside).1
    (fun c member => selected_child found member), Tree.isHidden?_fork sound inside]

theorem built_isHidden? : ∃ rows, (∀ row, p.accepts policy ⟨t, eval⟩ row = true ↔
    verdict rows row = some true) ∧ ∀ m id, s.tree.isHidden? m id =
      if m = v.root ∧ id ∈ v.columns.map (columnId t) then some false
      else if m ∈ v.columns ∧ id ∈ (t.children m).keys then
        judged rows id ((t.isHidden? m id).map fun _ => true)
      else (t.isHidden? m id).map fun _ => true := by
  obtain ⟨rows, passed, closed⟩ := isHidden?_of_accepted sound built
  exact ⟨rows, accepts_iff passed, closed⟩

/-- What is written is known afterwards, and all that was known before. -/
theorem built_isSome_iff (m : Nat) (id : CellId) : (s.tree.isHidden? m id).isSome = true ↔
    p.Writes policy ⟨t, eval⟩ v m id ∨ (t.isHidden? m id).isSome = true := by
  obtain ⟨rows, passed, closed⟩ := isHidden?_of_accepted sound built
  have result : (∃ rows after, accepted policy p.filter ⟨t, eval⟩ = .ok rows after ∧
      (verdict rows id.row).isSome = true) ↔ (verdict rows id.row).isSome = true := by
    simp [passed]
  have names := mem_columnIds sound built id
  rw [closed, Writes, result]
  by_cases named : m = v.root ∧ id ∈ v.columns.map (columnId t)
  · obtain ⟨rfl, listed⟩ := named
    simp [listed, names.mp listed]
  · have unnamed : ¬ (m = v.root ∧ ∃ c ∈ v.columns, (t.children m).get? id = some c) := by
      rintro ⟨rfl, listed⟩
      exact named ⟨rfl, names.mpr listed⟩
    rw [if_neg named]
    split
    · rename_i cell
      rw [judged]
      cases verdict rows id.row <;> simp [unnamed, cell]
    · rename_i other
      have outside : ¬ (m ∈ v.columns ∧ id ∈ (t.children m).keys ∧
          (verdict rows id.row).isSome = true) := fun all => other ⟨all.1, all.2.1⟩
      simp [unnamed, outside]

/-- Exactly what is selected and accepted is visible. -/
theorem built_visible_iff (m : Nat) (id : CellId) :
    s.tree.isHidden? m id = some false ↔ p.Shows policy ⟨t, eval⟩ v m id := by
  obtain ⟨rows, accepted, closed⟩ := built_isHidden? sound built
  have names := mem_columnIds sound built id
  have known : (t.isHidden? m id).map (fun _ => true) ≠ some false := by
    cases t.isHidden? m id <;> simp
  rw [closed, Shows]
  by_cases root : m = v.root
  · have apart : m ∉ v.columns := by
      intro member
      have := root_lt_column sound built member
      omega
    by_cases named : id ∈ v.columns.map (columnId t)
    · have listed := names.mp named
      rw [← root] at listed
      rw [if_pos ⟨root, named⟩]
      exact ⟨fun _ => .inl ⟨root, listed⟩, fun _ => rfl⟩
    · rw [if_neg fun both => named both.2, if_neg fun both => apart both.1]
      refine ⟨fun same => absurd same known, ?_⟩
      intro shows
      rcases shows with ⟨-, listed⟩ | ⟨member, -⟩
      · rw [root] at listed
        exact absurd (names.mpr listed) named
      · exact absurd member apart
  · rw [if_neg fun both => root both.1]
    by_cases cell : m ∈ v.columns ∧ id ∈ (t.children m).keys
    · rw [if_pos cell, judged_hidden, ← accepted]
      simp [root, cell]
    · rw [if_neg cell]
      refine ⟨fun same => absurd same known, ?_⟩
      intro shows
      rcases shows with ⟨same, -⟩ | ⟨member, child, -⟩
      · exact absurd same root
      · exact absurd ⟨member, child⟩ cell

/-- All else that was known is hidden. -/
theorem built_hidden {m : Nat} {id : CellId} (known : (t.isHidden? m id).isSome = true)
    (other : ¬ p.Shows policy ⟨t, eval⟩ v m id) : s.tree.isHidden? m id = some true := by
  obtain ⟨before, there⟩ := Option.isSome_iff_exists.mp known
  obtain ⟨rows, -, closed⟩ := built_isHidden? sound built
  have still : (s.tree.isHidden? m id).isSome = true := by
    rw [closed, there, judged]
    split
    · rfl
    · split
      · cases verdict rows id.row <;> rfl
      · rfl
  cases now : s.tree.isHidden? m id with
  | none => simp [now] at still
  | some hidden =>
    cases hidden with
    | true => rfl
    | false => exact absurd ((built_visible_iff sound built m id).mp now) other

theorem shows_root_iff (id : CellId) : p.Shows policy ⟨t, eval⟩ v v.root id ↔
    ∃ c ∈ v.columns, (t.children v.root).get? id = some c := by
  refine ⟨?_, fun listed => .inl ⟨rfl, listed⟩⟩
  intro shows
  rcases shows with ⟨-, listed⟩ | ⟨member, -⟩
  · exact listed
  · have := root_lt_column sound built member
    omega

theorem shows_column_iff {c : Nat} (member : c ∈ v.columns) (id : CellId) :
    p.Shows policy ⟨t, eval⟩ v c id ↔
      id ∈ (t.children c).keys ∧ p.accepts policy ⟨t, eval⟩ id.row = true := by
  refine ⟨?_, fun cell => .inr ⟨member, cell⟩⟩
  intro shows
  rcases shows with ⟨root, -⟩ | ⟨-, cell⟩
  · have := root_lt_column sound built member
    omega
  · exact cell

/-- The visible rows are the accepted rows of the first column, in the order of its cells. -/
theorem built_visibleRows {first : Nat} {rest : List Nat} (columns : v.columns = first :: rest) :
    v.visibleRows s.tree = ((t.children first).keys.filter fun id =>
      p.accepts policy ⟨t, eval⟩ id.row).map (·.row) := by
  have member : first ∈ v.columns := by simp [columns]
  have entries : (s.tree.hiddenMap first).entries.filter (fun entry => !entry.2) =
      ((t.children first).keys.filter fun id => p.accepts policy ⟨t, eval⟩ id.row).map
        (·, false) := by
    apply Ascending.eq_of_mem_iff ((s.tree.hiddenMap first).ascending.filter _)
    · exact List.pairwise_map.mpr ((t.children first).keys_ascending.filter _)
    · intro entry
      have shown := (built_visible_iff sound built first entry.1).trans
        (shows_column_iff sound built member entry.1)
      rw [Tree.isHidden?] at shown
      obtain ⟨id, hidden⟩ := entry
      cases hidden with
      | true => simp
      | false =>
        simp only [List.mem_filter, OrderedMap.mem_entries_iff, shown, List.mem_map]
        simp
  rw [View.visibleRows, columns]
  simp only [entries, List.map_map, Function.comp_def]

/-- In a table that is viewed from its root, what leaves out a row is a cell of a selected column
without null that was not accepted. -/
theorem built_exclusions (covers : t.Covers) (root : v.root = 0) {i : Nat} (inside : i < t.size)
    (row : UInt32) : (s.tree.exclusions i).contains row = true ↔
      ∃ c ∈ v.columns, (t.nodes[c]?.map (·.nullable.allowed)).getD false = false ∧
        ∃ cell ∈ (t.children c).keys, cell.row = row ∧
          p.accepts policy ⟨t, eval⟩ row = false := by
  have frame := built_frame sound built
  have nullable (c : Nat) := Tree.map_eq_of_frame frame c (·.nullable.allowed) fun _ => rfl
  have within : i < s.tree.size := by rwa [Tree.size_eq_of_frame frame]
  rw [Tree.contains_exclusions (sound.shape.of_frame frame) within]
  simp only [Tree.children_eq_of_frame frame, nullable]
  constructor
  · rintro ⟨id, c, entry, visible, strict, cell, child, hidden, same⟩
    have listed : p.Shows policy ⟨t, eval⟩ v 0 id := by
      by_cases shows : p.Shows policy ⟨t, eval⟩ v 0 id
      · exact shows
      · have column := OrderedMap.mem_keys_of_get? entry
        obtain ⟨before, known⟩ := covers.isHidden? sound column
        exact absurd (built_hidden sound built (known ▸ rfl) shows) visible
    rw [← root, shows_root_iff sound built, root] at listed
    obtain ⟨d, member, there⟩ := listed
    rw [entry] at there
    cases there
    refine ⟨c, member, strict, cell, child, same, ?_⟩
    by_cases accepted : p.accepts policy ⟨t, eval⟩ row = true
    · rw [← same] at accepted
      have shown := (built_visible_iff sound built c cell).mpr (.inr ⟨member, child, accepted⟩)
      rw [hidden] at shown
      cases shown
    · simpa using accepted
  · rintro ⟨c, member, strict, cell, child, same, refused⟩
    obtain ⟨id, entry⟩ := column_child sound built member
    have visible := (built_visible_iff sound built v.root id).mpr (.inl ⟨rfl, c, member, entry⟩)
    rw [root] at entry visible
    refine ⟨id, c, entry, by simp [visible], strict, cell, child, ?_, same⟩
    obtain ⟨before, known⟩ := covers.isHidden? sound child
    apply built_hidden sound built (known ▸ rfl)
    intro shows
    rw [shows_column_iff sound built member, same, refused] at shows
    cases shows.2

end Built

/-- The whole effect of a build: a new version in which exactly what is selected and accepted is
visible, over versions that stay as they were. -/
theorem build_effect (reachable : t.Reachable) (built : p.build policy ⟨t, eval⟩ = .ok v s) :
    p.source = some v.root ∧ p.names.map (t.findByName v.root) = v.columns.map some ∧
    v.version = t.version + 1 ∧ s.tree.version = t.version + 1 ∧
    (∀ m k, k ≤ t.version → s.tree.layer? m k = t.layer? m k) ∧
    (∀ m id, s.tree.isHidden? m id = some false ↔ p.Shows policy ⟨t, eval⟩ v m id) ∧
    (∀ m id, (t.isHidden? m id).isSome = true → ¬ p.Shows policy ⟨t, eval⟩ v m id →
      s.tree.isHidden? m id = some true) ∧
    (∃ first rest, v.columns = first :: rest ∧ v.visibleRows s.tree =
      ((t.children first).keys.filter fun id =>
        p.accepts policy ⟨t, eval⟩ id.row).map (·.row)) ∧
    (t.Ingested → v.root = 0 → ∀ i < t.size, ∀ row,
      ((s.tree.exclusions i).contains row = true ↔
        ∃ c ∈ v.columns, (t.nodes[c]?.map (·.nullable.allowed)).getD false = false ∧
          ∃ cell ∈ (t.children c).keys, cell.row = row ∧
            p.accepts policy ⟨t, eval⟩ row = false)) := by
  have sound := reachable.sound
  obtain ⟨rows, source, unnamed, -, found, version, -⟩ := build_ok sound built
  obtain ⟨first, rest, columns⟩ := List.exists_cons_of_ne_nil (columns_ne_nil unnamed found)
  refine ⟨source, findColumns_iff.mp found, version, (built_toggled sound built).version,
    fun m k old => built_layer? sound built m old, built_visible_iff sound built,
    fun m id known other => built_hidden sound built known other,
    ⟨first, rest, columns, built_visibleRows sound built columns⟩, ?_⟩
  intro ingested root i inside row
  exact built_exclusions sound built ingested.covers root inside row

theorem build_effect_true_rows :
    let t := ((Ingest.start {}).run [.column { name := "a", type := .bool },
      .row [.bool true], .row [.bool false], .row [.null]]).tree
    let p : ViewPlan :=
      { source := some 0, names := ["a"],
        filter := some (.binary .eq (.column 1) (.ofValue (.bool true))) }
    ∃ v s, p.build {} ⟨t, {}⟩ = .ok v s ∧ s.tree.version = 1 ∧ v.visibleRows s.tree = [1] ∧
      (s.tree.exclusions 0).contains 2 = true := by
  intro t p
  have ingested : t.Ingested := ⟨{}, [.column { name := "a", type := .bool },
    .row [.bool true], .row [.bool false], .row [.null]], .start t, .refl, rfl⟩
  have ends : (p.build {}).run' ⟨t, {}⟩ = some ⟨0, 1, [1]⟩ := by decide +kernel
  obtain ⟨s, result⟩ := exists_ok ends
  obtain ⟨-, -, -, version, -, -, -, ⟨first, rest, columns, rows⟩, excluded⟩ :=
    build_effect ingested.reachable result
  cases columns
  have accepted : ((t.children 1).keys.filter fun id =>
    p.accepts {} ⟨t, {}⟩ id.row).map (·.row) = [1] := by decide +kernel
  have refused : ∃ c ∈ [1], (t.nodes[c]?.map (·.nullable.allowed)).getD false = false ∧
    ∃ cell ∈ (t.children c).keys, cell.row = 2 ∧ p.accepts {} ⟨t, {}⟩ 2 = false := by
    decide +kernel
  have within : 0 < t.size := by decide +kernel
  exact ⟨_, s, result, version, rows.trans accepted,
    (excluded ingested rfl 0 within 2).mpr refused⟩

end ViewPlan
end LayeredTable
