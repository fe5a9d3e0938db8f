import LayeredTable.Proofs.Ingest.Faithful

/-! Ingestion fails before it writes anything, or not at all. The defect log is written and never
read, so whatever it holds, each step answers alike and leaves the same tree, columns and row
number behind. -/
namespace LayeredTable
namespace Ingest

def withLog (s : Ingest) (log : DefectLog) : Ingest := { s with defects := log }

@[simp] theorem tree_withLog (s : Ingest) (log : DefectLog) : (s.withLog log).tree = s.tree := rfl

def relogged {α : Type} (log : DefectLog) : EStateM.Result TreeError Ingest α →
    EStateM.Result TreeError Ingest α
  | .ok a s => .ok a (s.withLog log)
  | .error e s => .error e (s.withLog log)

/-- Whether a step reads nothing of the log: from states that differ in their logs only it gives
results that differ in their logs only. -/
def BlindToLog {α : Type} (step : IngestStep α) : Prop :=
  ∀ (s : Ingest) (log : DefectLog), ∃ log', step (s.withLog log) = relogged log' (step s)

namespace BlindToLog

variable {α β : Type} {step : IngestStep α} {next : α → IngestStep β}

theorem pure (a : α) : BlindToLog (Pure.pure a) := fun _ log => ⟨log, rfl⟩

theorem throw_bind (e : TreeError) : BlindToLog ((throw e : IngestStep α) >>= next) :=
  fun _ log => ⟨log, rfl⟩

theorem bind (first : BlindToLog step) (rest : ∀ a, BlindToLog (next a)) :
    BlindToLog (step >>= next) := by
  intro s log
  obtain ⟨log', same⟩ := first s log
  simp only [Bind.bind, EStateM.bind, same]
  cases step s with
  | ok a m => exact rest a m log'
  | error e m => exact ⟨log', rfl⟩

/-- What is read of the state must not be its log. -/
theorem get {next : Ingest → IngestStep β}
    (blind : ∀ (s : Ingest) (log : DefectLog), next (s.withLog log) = next s)
    (rest : ∀ s, BlindToLog (next s)) : BlindToLog (MonadState.get >>= next) := by
  intro s log
  rw [get_bind, get_bind, blind]
  exact rest s s log

theorem modify {f : Ingest → Ingest}
    (blind : ∀ (s : Ingest) (log : DefectLog), ∃ log', f (s.withLog log) = (f s).withLog log') :
    BlindToLog (modify f : IngestStep PUnit) := by
  intro s log
  obtain ⟨log', same⟩ := blind s log
  refine ⟨log', ?_⟩
  change EStateM.Result.ok PUnit.unit (f (s.withLog log)) = .ok ⟨⟩ ((f s).withLog log')
  rw [same]

theorem onTree (f : Tree → Except TreeError (α × Tree)) : BlindToLog (Ingest.onTree f) := by
  intro s log
  refine ⟨log, ?_⟩
  rw [onTree_eq, onTree_eq, tree_withLog]
  cases f s.tree <;> rfl

theorem declareColumn (decl : ColumnDecl) : BlindToLog (Ingest.declareColumn decl) := by
  refine get (fun _ _ => rfl) fun s => ?_
  dsimp only
  split
  · exact throw_bind _
  · split
    · exact throw_bind _
    · exact (onTree _).bind fun node => (modify fun _ log => ⟨log, rfl⟩).bind fun _ => pure node

theorem addCell (row : UInt32) (column : IngestColumn) (given : Value) :
    BlindToLog (Ingest.addCell row column given) :=
  (modify fun _ _ => ⟨_, rfl⟩).bind fun _ => onTree _

theorem addCells (row : UInt32) (columns : List IngestColumn) (values : List Value) :
    BlindToLog (Ingest.addCells row columns values) := by
  induction columns generalizing values with
  | nil => exact pure []
  | cons column columns ih =>
    cases values with
    | nil => exact pure []
    | cons given values =>
      exact (addCell row column given).bind fun cell =>
        (ih values).bind fun cells => pure (cell :: cells)

theorem linkCells (cells : List Nat) : BlindToLog (Ingest.linkCells cells) := by
  induction cells with
  | nil => exact pure _
  | cons left cells ih =>
    cases cells with
    | nil => exact pure _
    | cons right cells => exact (onTree _).bind fun _ => (onTree _).bind fun _ => ih

theorem addRow (values : List Value) : BlindToLog (Ingest.addRow values) := by
  refine get (fun _ _ => rfl) fun s => ?_
  dsimp only
  split
  · exact throw_bind _
  · split
    · exact throw_bind _
    · exact (modify fun _ log => ⟨log, rfl⟩).bind fun _ =>
        (addCells _ _ values).bind fun cells => (linkCells cells).bind fun _ => pure _

end BlindToLog

section Runs

variable {s : Ingest} {values : List Value} {row : UInt32} {u : Ingest}

theorem perform_withLog (s : Ingest) (log : DefectLog) (action : IngestAction) :
    ∃ log', (s.withLog log).perform action = (s.perform action).withLog log' := by
  have kept {α : Type} (log' : DefectLog) (result : EStateM.Result TreeError Ingest α) :
      after (relogged log' result) = (after result).withLog log' := by
    cases result <;> rfl
  cases action with
  | column decl =>
    obtain ⟨log', same⟩ := BlindToLog.declareColumn decl s log
    exact ⟨log', by rw [perform, same, kept, perform]⟩
  | row values =>
    obtain ⟨log', same⟩ := BlindToLog.addRow values s log
    exact ⟨log', by rw [perform, same, kept, perform]⟩

theorem run_withLog (s : Ingest) (log : DefectLog) (actions : List IngestAction) :
    ∃ log', (s.withLog log).run actions = (s.run actions).withLog log' := by
  induction actions generalizing s log with
  | nil => exact ⟨log, rfl⟩
  | cons action actions ih =>
    obtain ⟨log', same⟩ := perform_withLog s log action
    obtain ⟨last, rest⟩ := ih (s.perform action) log'
    exact ⟨last, by rw [run, List.foldl_cons, same]; exact rest⟩

/-- A declaration adds its column to the root. -/
theorem add_of_declareColumn_ok {decl : ColumnDecl} {node : Nat}
    (done : declareColumn decl s = .ok node u) :
    ∃ spec, s.tree.add 0 spec false = .ok (node, u.tree) := by
  rw [declareColumn_eq] at done
  split at done
  · cases done
  · split at done
    · cases done
    · split at done
      · rename_i added
        cases done
        exact ⟨_, added⟩
      · cases done

/-- A row that is added has all its cells stored and linked. -/
theorem cells_of_addRow_ok (done : addRow values s = .ok row u) :
    ∃ cells m, addCells s.nextRow s.columns values { s with nextRow := s.nextRow + 1 } =
      .ok cells m ∧ linkCells cells m = .ok ⟨⟩ u := by
  rw [addRow_eq] at done
  split at done
  · cases done
  · split at done
    · cases done
    · cases stored : addCells s.nextRow s.columns values { s with nextRow := s.nextRow + 1 } with
      | error e m => simp [stored] at done
      | ok cells m =>
        cases linked : linkCells cells m with
        | error e m => simp [stored, linked] at done
        | ok _ m =>
          simp only [stored, linked] at done
          cases done
          exact ⟨cells, _, rfl, linked⟩

/-- Each declaration and each row either goes through or is refused by a check that comes before
anything is written. -/
structure Atomic (s : Ingest) : Prop where
  column : ∀ decl,
    ((∀ c ∈ s.columns, c.decl.name ≠ decl.name) ∧ s.columns.length + 1 < UInt32.size ∧
      ∃ node u, declareColumn decl s = .ok node u) ∨
    ((∃ c ∈ s.columns, c.decl.name = decl.name) ∧
      declareColumn decl s = .error (.duplicateColumn decl.name) s) ∨
    UInt32.size ≤ s.columns.length + 1 ∧ declareColumn decl s = .error .rowLimit s
  row : ∀ values,
    (values.length = s.columns.length ∧ s.nextRow ≠ 4294967295 ∧
      ∃ cells m u, addCells s.nextRow s.columns values { s with nextRow := s.nextRow + 1 } =
        .ok cells m ∧ linkCells cells m = .ok ⟨⟩ u ∧ addRow values s = .ok s.nextRow u) ∨
    (values.length ≠ s.columns.length ∧
      addRow values s = .error (.rowWidth s.columns.length values.length) s) ∨
    s.nextRow = 4294967295 ∧ addRow values s = .error .rowLimit s

theorem Tracks.atomic {before : Array Defect} {sheet : Sheet} (tracks : s.Tracks before sheet)
    (held : DefectLog) : (s.withLog held).Atomic where
  column decl := by
    by_cases taken : ∃ c ∈ s.columns, c.decl.name = decl.name
    · have found : (s.columns.any fun c => c.decl.name == decl.name) = true := by simpa using taken
      exact .inr (.inl ⟨taken, by rw [declareColumn_eq]; exact if_pos found⟩)
    · have unnamed : (s.columns.any fun c => c.decl.name == decl.name) = false := by
        simpa using taken
      by_cases full : UInt32.size ≤ s.columns.length + 1
      · refine .inr (.inr ⟨full, ?_⟩)
        rw [declareColumn_eq]
        exact (if_neg (by simp [withLog, unnamed])).trans (if_pos full)
      · have room := Nat.lt_of_not_le full
        have admitted : sheet.admits (.column decl) = true := by
          rw [tracks.admits_column, unnamed, decide_eq_true room]
          rfl
        obtain ⟨node, u, done, -⟩ := tracks.declared admitted
        obtain ⟨log', same⟩ := BlindToLog.declareColumn decl s held
        rw [done] at same
        exact .inl ⟨fun c member named => taken ⟨c, member, named⟩, room, node, _, same⟩
  row values := by
    by_cases fits : values.length = s.columns.length
    · by_cases full : s.nextRow = 4294967295
      · refine .inr (.inr ⟨full, ?_⟩)
        rw [addRow_eq]
        exact (if_neg (not_not_intro fits)).trans (if_pos full)
      · obtain ⟨cells, m, t, -, done, -⟩ := tracks.stores fits full
        obtain ⟨log', same⟩ := BlindToLog.addRow values s held
        rw [done] at same
        obtain ⟨cells, m, stored, linked⟩ := cells_of_addRow_ok same
        exact .inl ⟨fits, full, cells, m, _, stored, linked, same⟩
    · refine .inr (.inl ⟨fits, ?_⟩)
      rw [addRow_eq]
      exact if_pos fits

/-- Whatever was declared and added before, refused or not, and whatever the log holds by now. -/
theorem run_atomic (log held : DefectLog) (actions : List IngestAction) :
    (((start log).run actions).withLog held).Atomic := by
  have tracks := (start_tracks #[]).run actions
  obtain ⟨log', same⟩ := run_withLog (start {}) log actions
  have shared := congrArg (fun s : Ingest => (s.withLog held).Atomic) same
  exact shared.mpr (tracks.atomic held)

end Runs

end Ingest
end LayeredTable
