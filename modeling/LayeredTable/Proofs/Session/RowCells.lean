import LayeredTable.Proofs.Ingest.Thread
import LayeredTable.Proofs.Session.Ingested

/-! The cells that are found from a cell along its row. Links may run in circles, so the walk has a
bound, which cuts no row short. In an ingested tree the walk back ends in the first column and the
walk forth takes one column after the other. Main statement: `Tree.rowCells_whole`. -/
namespace LayeredTable

open Relation

namespace Tree

variable {t u : Tree} {column row : UInt32} {a b c i : Nat}

def IsCell (t : Tree) (id : CellId) (c : Nat) : Prop :=
  ∃ key above, (t.children 0).get? key = some above ∧ (t.children above).get? id = some c

/-- Nodes that are found from one along links: not more than there are, each linked with the next
one. If links run in no circle, they go from a node before which there is none to a node after which
there is none, and are all that links lead to from the first. -/
structure Walked (t : Tree) (i : Nat) (cells : List Nat) : Prop where
  nonempty : cells ≠ []
  bounded : cells.length ≤ t.size
  linked : cells.IsChain (Leads t.next?)
  complete : Acyclic t.prev? i → ∃ first, ReflTransGen (Leads t.prev?) i first ∧
    t.prev? first = none ∧ cells.head? = some first ∧
      (Acyclic t.next? first → (∃ last, cells.getLast? = some last ∧ t.next? last = none) ∧
        ∀ j, j ∈ cells ↔ ReflTransGen (Leads t.next?) first j)

structure RowOf (t : Tree) (row : UInt32) (cells : List Nat) : Prop where
  exact : ∀ d, d ∈ cells ↔ ∃ id, t.IsCell id d ∧ id.row = row
  ascending : cells.Pairwise fun a b =>
    ∃ id other, t.IsCell id a ∧ t.IsCell other b ∧ id.column < other.column

theorem Shape.walked (shape : t.Shape) (inside : i < t.size) :
    t.Walked i (walk t.next? t.size (t.firstOf t.size i)) := by
  obtain ⟨limit, size⟩ := Nat.exists_eq_succ_of_ne_zero (Nat.ne_of_gt shape.pos)
  have starts (j : Nat) : (walk t.next? t.size j).head? = some j := by
    rw [size, walk, List.head?_cons]
  refine ⟨fun none => ?_, length_walk_le _ _, isChain_walk _ _, fun acyclic => ?_⟩
  · have first := starts (t.firstOf t.size i)
    rw [none] at first
    cases first
  · obtain ⟨reached, ends⟩ := shape.firstOf_reached inside acyclic
    refine ⟨_, reached, ends, starts _, fun acyclic => ?_⟩
    exact walk_complete acyclic (firstOf_lt shape inside t.size) shape.next?_lt (Nat.le_refl _)

theorem Threaded.of_frame (same : u.frame = t.frame) (threaded : t.Threaded) : u.Threaded := by
  have children := children_eq_of_frame same
  have cellAt (column row : UInt32) (c : Nat) : u.CellAt column row c ↔ t.CellAt column row c := by
    simp only [CellAt, findById, children]
  have neighbours (a b : Nat) : u.Neighbours a b ↔ t.Neighbours a b := Neighbours.congr cellAt
  refine ⟨⟨fun a b => ?_, fun a b => ?_⟩, ?_, ?_, ?_⟩
  · rw [next?_of_frame same, neighbours]
    exact threaded.next a b
  · rw [prev?_of_frame same, neighbours]
    exact threaded.prev a b
  · simp only [cellAt]
    exact threaded.positive
  · simp only [cellAt, neighbours]
    exact threaded.gapless
  · simp only [cellAt, children]
    exact threaded.known

theorem Ingested.threaded (ingested : t.Ingested) : t.Threaded :=
  ingested.of_frame Threaded.of_frame Ingest.run_threaded

theorem Threaded.cellAt_iff (threaded : t.Threaded) :
    t.CellAt column row c ↔ ∃ id, t.IsCell id c ∧ id.column = column ∧ id.row = row := by
  constructor
  · rintro ⟨above, listed, entry⟩
    exact ⟨.of column row, ⟨_, above, listed, entry⟩, CellId.column_of _ _, CellId.row_of _ _⟩
  · rintro ⟨id, ⟨key, above, listed, entry⟩, rfl, rfl⟩
    exact threaded.known key above id c listed entry

def LeftOf (t : Tree) (a b : Nat) : Prop :=
  ∃ column column' row, t.CellAt column row a ∧ t.CellAt column' row b ∧ column < column'

theorem Shape.leftOf_trans (shape : t.Shape) (first : t.LeftOf a b) (second : t.LeftOf b c) :
    t.LeftOf a c := by
  obtain ⟨left, middle, row, start, between, less⟩ := first
  obtain ⟨middle', right, row', again, stop, less'⟩ := second
  obtain ⟨rfl, rfl⟩ := shape.cellAt_inj between again
  exact ⟨left, right, row, start, stop, Std.lt_trans less less'⟩

theorem Shape.not_leftOf_self (shape : t.Shape) : ¬ t.LeftOf a a := by
  rintro ⟨column, column', row, cell, again, less⟩
  rw [(shape.cellAt_inj cell again).1] at less
  exact Std.lt_irrefl less

/-- Column numbers do not overflow. -/
theorem Threaded.lt_succ (threaded : t.Threaded) (cell : t.CellAt (column + 1) row c) :
    column < column + 1 := by
  have positive := threaded.positive _ _ _ cell
  refine (Ingest.lt_succ_iff ?_).mpr (.inl rfl)
  rintro rfl
  exact absurd positive (by decide)

theorem Threaded.leftOf (threaded : t.Threaded) (neighbours : t.Neighbours a b) : t.LeftOf a b := by
  obtain ⟨column, row, left, right⟩ := neighbours
  exact ⟨column, column + 1, row, left, right, threaded.lt_succ right⟩

/-- Next links lead to the right. -/
theorem Threaded.leftOf_of_next (threaded : t.Threaded) (shape : t.Shape)
    (leads : TransGen (Leads t.next?) a b) : t.LeftOf a b := by
  induction leads with
  | single leads => exact threaded.leftOf ((threaded.next _ _).mp leads)
  | tail _ leads ih => exact shape.leftOf_trans ih (threaded.leftOf ((threaded.next _ _).mp leads))

/-- Previous links lead to the left. -/
theorem Threaded.leftOf_of_prev (threaded : t.Threaded) (shape : t.Shape)
    (leads : TransGen (Leads t.prev?) a b) : t.LeftOf b a := by
  induction leads with
  | single leads => exact threaded.leftOf ((threaded.prev _ _).mp leads)
  | tail _ leads ih => exact shape.leftOf_trans (threaded.leftOf ((threaded.prev _ _).mp leads)) ih

/-- Links stay in the row. -/
theorem Shape.cellAt_of_neighbours (shape : t.Shape) {link : Nat → Option Nat}
    (joins : ∀ a b, link a = some b → t.Neighbours a b ∨ t.Neighbours b a)
    (cell : t.CellAt column row a) (leads : ReflTransGen (Leads link) a b) :
    ∃ column', t.CellAt column' row b := by
  induction leads with
  | refl => exact ⟨column, cell⟩
  | @tail b c _ leads ih =>
    obtain ⟨middle, here⟩ := ih
    rcases joins b c leads with ⟨left, row', first, second⟩ | ⟨left, row', first, second⟩
    · obtain ⟨rfl, rfl⟩ := shape.cellAt_inj here first
      exact ⟨_, second⟩
    · obtain ⟨rfl, rfl⟩ := shape.cellAt_inj here second
      exact ⟨_, first⟩

/-- Going back from a cell ends in the first column of its row. -/
theorem Threaded.firstOf (threaded : t.Threaded) (shape : t.Shape)
    (cell : t.CellAt column row i) : t.CellAt 1 row (t.firstOf t.size i) := by
  obtain ⟨n, here, -⟩ := shape.cellAt_id cell
  have acyclic : Acyclic t.prev? i := fun j _ circle =>
    shape.not_leftOf_self (threaded.leftOf_of_prev shape circle)
  obtain ⟨reached, ends⟩ := shape.firstOf_reached (lt_size here) acyclic
  obtain ⟨first, there⟩ := shape.cellAt_of_neighbours
    (fun a b leads => .inr ((threaded.prev b a).mp leads)) cell reached
  by_cases one : first = 1
  · exact one ▸ there
  · obtain ⟨left, neighbours⟩ := threaded.gapless _ _ _ there one
    have back := (threaded.prev _ _).mpr neighbours
    rw [ends] at back
    cases back

/-- From the first column of a row next links lead to all its cells. -/
theorem Threaded.reaches (threaded : t.Threaded) (shape : t.Shape) (first : t.CellAt 1 row a)
    (cell : t.CellAt column row c) : ReflTransGen (Leads t.next?) a c := by
  -- by induction on the number of the column, which the cell to the left has one less of
  obtain ⟨place, same⟩ : ∃ place, column.toNat = place := ⟨_, rfl⟩
  induction place using Nat.strongRecOn generalizing column c with
  | ind place ih =>
    by_cases one : column = 1
    · subst one
      rw [first.unique cell]
    · obtain ⟨b, left, row', beside, again⟩ := threaded.gapless _ _ _ cell one
      obtain ⟨rfl, rfl⟩ := shape.cellAt_inj again cell
      have less := UInt32.lt_iff_toNat_lt.mp (threaded.lt_succ cell)
      have leads := (threaded.next b c).mpr ⟨left, row', beside, cell⟩
      exact (ih _ (same ▸ less) beside rfl).tail leads

theorem Threaded.rowOf (threaded : t.Threaded) (shape : t.Shape) (cell : t.CellAt column row i) :
    t.RowOf row (walk t.next? t.size (t.firstOf t.size i)) := by
  have first := threaded.firstOf shape cell
  obtain ⟨n, here, -⟩ := shape.cellAt_id first
  have acyclic : Acyclic t.next? (t.firstOf t.size i) := fun j _ circle =>
    shape.not_leftOf_self (threaded.leftOf_of_next shape circle)
  obtain ⟨-, met⟩ := walk_complete acyclic (lt_size here) shape.next?_lt (Nat.le_refl t.size)
  refine ⟨fun d => ?_, (pairwise_walk _ _).imp fun leads => ?_⟩
  · rw [met]
    constructor
    · intro reached
      obtain ⟨column', there⟩ := shape.cellAt_of_neighbours
        (fun a b leads => .inl ((threaded.next a b).mp leads)) first reached
      obtain ⟨id, cell, -, same⟩ := threaded.cellAt_iff.mp there
      exact ⟨id, cell, same⟩
    · rintro ⟨id, cell, same⟩
      exact threaded.reaches shape first (threaded.cellAt_iff.mpr ⟨id, cell, rfl, same⟩)
  · obtain ⟨left, right, row, start, stop, less⟩ := threaded.leftOf_of_next shape leads
    obtain ⟨id, cell, rfl, -⟩ := threaded.cellAt_iff.mp start
    obtain ⟨other, cell', rfl, -⟩ := threaded.cellAt_iff.mp stop
    exact ⟨id, other, cell, cell', less⟩

/-- Whatever links a tree in use has: what is found from a node is never empty, bounded and whole.
In a tree that was filled by ingestion, and in which nothing was added or linked since, it is the row
of the cell that is asked for. -/
theorem rowCells_whole (reachable : t.Reachable) (inside : i < t.size) :
    ∃ cells, t.rowCells i = .ok cells ∧ t.Walked i cells ∧
      (t.Ingested → ∀ id, t.IsCell id i → t.RowOf id.row cells) := by
  have shape := reachable.sound.shape
  refine ⟨_, rowCells_eq inside, shape.walked inside, fun ingested id cell => ?_⟩
  have threaded := ingested.threaded
  exact threaded.rowOf shape (threaded.cellAt_iff.mpr ⟨id, cell, rfl, rfl⟩)

/-- Two cells of one column that are linked in a circle, and a row that is longer than the one before
it. -/
theorem rowCells_whole_circular :
    let circular := ((Session.start .new).run [.add 0 (.column 1 "c" .text {}) false,
      .add 1 (.cell (.of 1 1) .null) false, .add 1 (.cell (.of 1 2) .null) false,
      .linkNext 2 3, .linkNext 3 2, .linkPrev 3 2]).tree
    let filled := ((Ingest.start {}).run Ingest.interleaved).tree
    circular.rowCells 3 = .ok [2, 3, 2, 3] ∧ circular.Walked 3 [2, 3, 2, 3] ∧
      filled.rowCells 5 = .ok [4, 5] ∧ filled.Walked 5 [4, 5] ∧ filled.RowOf 2 [4, 5] := by
  intro circular filled
  have reachable : circular.Reachable := ⟨⟨0⟩, _, rfl⟩
  have ingested : filled.Ingested := ingested_run {} Ingest.interleaved
  obtain ⟨round, found, walked, -⟩ :=
    rowCells_whole reachable (show 3 < circular.size by decide +kernel)
  obtain ⟨cells, found', walked', exact⟩ :=
    rowCells_whole ingested.reachable (show 5 < filled.size by decide +kernel)
  have whole := exact ingested (.of 2 2) ⟨.header 2, 3, by decide +kernel, by decide +kernel⟩
  have circle : (circular.rowCells 3).toOption = some [2, 3, 2, 3] := by decide +kernel
  have row : (filled.rowCells 5).toOption = some [4, 5] := by decide +kernel
  rw [found] at circle
  rw [found'] at row
  cases circle
  cases row
  rw [CellId.row_of] at whole
  exact ⟨found, walked, found', walked', whole⟩

end Tree
end LayeredTable
