import LayeredTable.Proofs.DefectLog
import LayeredTable.Proofs.Ingest.Table
import LayeredTable.Proofs.Tree.Child

/-! What storing one row does, cell by cell: to the tree, to what the columns remember, and to the
defect log. Linking the cells afterwards changes none of it. -/
namespace LayeredTable
namespace Ingest

variable {s m : Ingest} {row : UInt32} {column : IngestColumn} {given : Value}
  {columns front : List IngestColumn} {values : List Value} {cells : List Nat} {cell : Nat}

/-- A row is stored from the left: its first cell, then the others. -/
theorem addCells_cons_ok
    (done : addCells row (column :: columns) (given :: values) s = .ok cells m) :
    ∃ cell u others, cells = cell :: others ∧
      s.tree.add column.node (column.cell row (column.stored given))
        (column.hides (column.stored given)) = .ok (cell, u) ∧
      addCells row columns values { s.noted row column given with tree := u } = .ok others m := by
  rw [addCells_cons, addCell_eq] at done
  cases added : s.tree.add column.node (column.cell row (column.stored given))
    (column.hides (column.stored given)) with
  | error e => simp [added] at done
  | ok result =>
    obtain ⟨cell, u⟩ := result
    cases rest : addCells row columns values { s.noted row column given with tree := u } with
    | error e k => simp [added, rest] at done
    | ok others k =>
      simp only [added, rest] at done
      cases done
      exact ⟨cell, u, others, rfl, rfl, rest⟩

/-- Noting a value lets its own column remember it and no other. -/
theorem noted_columns (split : s.columns = front ++ column :: columns)
    (distinct : (s.columns.map (·.node)).Nodup) (row : UInt32) (given : Value) :
    (s.noted row column given).columns =
      front ++ column.remember (column.stored given) :: columns := by
  simp only [split, List.map_append, List.map_cons, List.nodup_append, List.nodup_cons,
    List.mem_map, List.mem_cons] at distinct
  obtain ⟨-, ⟨later, -⟩, earlier⟩ := distinct
  have kept (cs : List IngestColumn) (apart : ∀ c ∈ cs, c.node ≠ column.node) :
      cs.map (fun c => if c.node = column.node then c.remember (column.stored given) else c) =
        cs :=
    (List.map_congr_left fun c member => if_neg (apart c member)).trans (List.map_id' cs)
  have before : ∀ c ∈ front, c.node ≠ column.node :=
    fun c member => earlier _ ⟨c, member, rfl⟩ _ (.inl rfl)
  have behind : ∀ c ∈ columns, c.node ≠ column.node := fun c member same => later ⟨c, member, same⟩
  simp only [noted, split, List.map_append, List.map_cons, if_true, kept front before,
    kept columns behind]

structure Stored (s : Ingest) (row : UInt32) (front columns : List IngestColumn)
    (values : List Value) (cells : List Nat) (m : Ingest) : Prop where
  remembered : m.columns = front ++ columns.zipWith (fun c v => c.remember (c.stored v)) values
  logged : m.defects =
    s.defects.logAll ((columns.zip values).flatMap fun c => c.1.defects row c.2)
  larger : s.tree.size ≤ m.tree.size
  inside : ∀ cell ∈ cells, cell < m.tree.size
  children : ∀ j id held, m.tree.child? j id = some held ↔ s.tree.child? j id = some held ∨
    ∃ c v, (c, v) ∈ columns.zip values ∧ j = c.node ∧ id = .of c.index row ∧
      held = (c.cell row (c.stored v), c.hides (c.stored v))

theorem Stored.cons {u : Tree} (sound : s.tree.Sound)
    (added : s.tree.add column.node (column.cell row (column.stored given))
      (column.hides (column.stored given)) = .ok (cell, u))
    (stored : Stored { s.noted row column given with tree := u } row
      (front ++ [column.remember (column.stored given)]) columns values cells m) :
    Stored s row front (column :: columns) (given :: values) (cell :: cells) m := by
  have last := (Tree.add_ok added).1
  have larger := stored.larger
  simp only [Tree.size_add added] at larger
  refine ⟨?_, ?_, ?_, ?_, ?_⟩
  · simpa using stored.remembered
  · rw [stored.logged]
    exact DefectLog.logAll_append _ _ _
  · omega
  · intro c member
    rcases List.mem_cons.mp member with rfl | member
    · omega
    · exact stored.inside c member
  · intro j id held
    have child : u.child? j id = some held ↔ _ := Tree.child?_add_eq_some_iff sound added
    rw [stored.children, child]
    constructor
    · rintro ((⟨above, named, made⟩ | old) | ⟨c, v, member, made⟩)
      · exact .inr ⟨column, given, List.mem_cons_self, above, named, made⟩
      · exact .inl old
      · exact .inr ⟨c, v, List.mem_cons_of_mem _ member, made⟩
    · rintro (old | ⟨c, v, member, made⟩)
      · exact .inl (.inr old)
      · rcases List.mem_cons.mp member with same | member
        · cases same
          exact .inl (.inl made)
        · exact .inr ⟨c, v, member, made⟩

theorem addCells_stored (done : addCells row columns values s = .ok cells m)
    (fits : values.length = columns.length) (split : s.columns = front ++ columns)
    (distinct : (s.columns.map (·.node)).Nodup) (sound : s.tree.Sound) :
    Stored s row front columns values cells m := by
  induction columns generalizing s front values cells with
  | nil =>
    obtain rfl := List.length_eq_zero_iff.mp fits
    cases done
    exact ⟨by simpa using split, rfl, Nat.le_refl _, nofun, by simp⟩
  | cons column columns ih =>
    cases values with
    | nil => cases fits
    | cons given values =>
      obtain ⟨cell, u, others, rfl, added, rest⟩ := addCells_cons_ok done
      have nodes : (s.noted row column given).columns.map (·.node) = s.columns.map (·.node) := by
        have places := congrArg (·.map (·.1)) (places_noted (s := s) row column given)
        simpa [Ingest.places, Function.comp_def] using places
      have noted : (s.noted row column given).columns =
          (front ++ [column.remember (column.stored given)]) ++ columns := by
        rw [noted_columns split distinct, List.append_assoc]
        rfl
      apply Stored.cons sound added
      exact ih rest (Nat.succ.inj fits) noted (nodes ▸ distinct) (sound.add added).1

/-- Cells that are there are linked, which none of their data shows. -/
theorem linkCells_ok (inside : ∀ cell ∈ cells, cell < s.tree.size) :
    ∃ t, linkCells cells s = .ok ⟨⟩ { s with tree := t } ∧
      ∀ j id, t.child? j id = s.tree.child? j id := by
  induction cells generalizing s with
  | nil => exact ⟨s.tree, rfl, fun _ _ => rfl⟩
  | cons left cells ih =>
    cases cells with
    | nil => exact ⟨s.tree, rfl, fun _ _ => rfl⟩
    | cons right cells =>
      have first := inside left List.mem_cons_self
      have second := inside right (by simp)
      obtain ⟨_, t, next⟩ := Tree.exists_linkNext first second
      obtain ⟨size, nextSame⟩ := Tree.linkNext_keeps next
      obtain ⟨_, u, prev⟩ := Tree.exists_linkPrev (size ▸ second) (size ▸ first)
      obtain ⟨sizeAgain, prevSame⟩ := Tree.linkPrev_keeps prev
      obtain ⟨v, linked, same⟩ := ih (s := { s with tree := u }) fun cell member =>
        (sizeAgain.trans size) ▸ inside cell (List.mem_cons_of_mem _ member)
      refine ⟨v, ?_, fun j id => ?_⟩
      · rw [linkCells_cons]
        simp only [next, prev]
        exact linked
      · rw [same, prevSame, nextSame]

end Ingest
end LayeredTable
