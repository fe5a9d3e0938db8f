import LayeredTable.Proofs.Ingest.Table
import LayeredTable.Proofs.Session.Ingested

/-! Tables in use. While only existing children are shown and hidden, every column has exactly one
cell for each row, and every layer knows exactly the children. -/
namespace LayeredTable

def Session.TogglesChildren (s : Session) (a : Action) : Prop :=
  a.KeepsNodes ∧
    match a with
    | .toggle i id _ => id ∈ (s.tree.children i).keys
    | .layerToggle k id _ => ∀ l, s.handles[k]? = some l → id ∈ (s.tree.children l.node).keys
    | _ => True

namespace Tree

/-- A tree that got its rows, up to number `last`, after all its columns were declared, and was then
used by showing and hiding existing children. -/
def Table (t : Tree) (last : UInt32) : Prop :=
  ∃ log decls rows s, (Ingest.fill log decls rows).rowCount = last ∧
    Session.Reaches Session.TogglesChildren (.start (Ingest.fill log decls rows).tree) s ∧
    s.tree = t

structure Tabular (t : Tree) (last : UInt32) : Prop where
  sound : t.Sound
  rectangular : t.Rectangular last
  covers : t.Covers
  confined : t.Confined

section Tabular

variable {t : Tree} {i : Nat} {id : CellId} {last row : UInt32}

/-- The column's cell at a row, and whether it is hidden. -/
theorem Tabular.cell (tabular : t.Tabular last) (column : (t.children 0).get? id = some i)
    (atLeast : 1 ≤ row) (atMost : row ≤ last) :
    ∃ cell hidden, (t.children i).get? (.of id.column row) = some cell ∧
      t.isHidden? i (.of id.column row) = some hidden := by
  have child := (tabular.rectangular id i column _).mpr ⟨row, atLeast, atMost, rfl⟩
  obtain ⟨hidden, known⟩ := tabular.covers.isHidden? tabular.sound child
  obtain ⟨cell, entry⟩ := OrderedMap.exists_get?_of_mem_keys child
  exact ⟨cell, hidden, entry, known⟩

theorem Tabular.eq_of_row (tabular : t.Tabular last) (column : (t.children 0).get? id = some i)
    {cell : CellId} (child : cell ∈ (t.children i).keys) : cell = .of id.column cell.row := by
  obtain ⟨row, -, -, rfl⟩ := (tabular.rectangular id i column cell).mp child
  rw [CellId.row_of]

end Tabular

theorem Rectangular.of_frame {t u : Tree} {last : UInt32} (same : u.frame = t.frame)
    (rectangular : t.Rectangular last) : u.Rectangular last := by
  intro id c entry
  rw [children_eq_of_frame same] at entry ⊢
  exact rectangular id c entry

end Tree

namespace Session

variable {s u : Session} {a : Action} {last : UInt32}

theorem Change.confined (change : Change s a u) (sound : s.tree.Sound)
    (toggles : s.TogglesChildren a) (confined : s.tree.Confined) : u.tree.Confined := by
  obtain ⟨keeps, known⟩ := toggles
  cases change with
  | same => exact confined
  | add => exact keeps.elim
  | linkNext => exact keeps.elim
  | linkPrev => exact keeps.elim
  | toggle => exact confined.setHidden known
  | fork inside => exact confined.fork sound inside
  | reset => exact confined
  | layerToggle given written =>
    obtain ⟨-, rfl⟩ := Tree.layerToggle_ok written
    exact confined.setHidden (known _ given)
  | view inside toggled => exact toggled.confined (confined.fork sound inside)

end Session

theorem Tree.Table.tabular {t : Tree} {last : UInt32} (table : t.Table last) :
    t.Tabular last := by
  obtain ⟨log, decls, rows, s, rfl, used, rfl⟩ := table
  have filled := Ingest.fill_filled log decls rows
  have kept (m : Session) (a : Action) (toggles : m.TogglesChildren a)
      (tabular : m.tree.Tabular (Ingest.fill log decls rows).rowCount) :
      (m.perform a).tree.Tabular (Ingest.fill log decls rows).rowCount := by
    have change := Session.change_perform tabular.sound a
    exact ⟨change.sound tabular.sound,
      tabular.rectangular.of_frame (change.frame tabular.sound toggles.1),
      change.covers toggles.1 tabular.sound tabular.covers,
      change.confined tabular.sound toggles tabular.confined⟩
  exact used.invariant kept ⟨filled.fresh.sound, filled.rectangular, filled.fresh.covers,
    filled.fresh.confined⟩

end LayeredTable
