import LayeredTable.Proofs.Ingest.Basic
import LayeredTable.Proofs.Session.Sound

/-! Trees that were filled by ingestion and then used. As long as no nodes are added, every layer
knows all children. -/
namespace LayeredTable

/-- A tree that was filled from decoded rows and then used in any way. -/
def Tree.Ingested (t : Tree) : Prop :=
  ∃ log actions s, Session.Reaches (fun _ a => a.KeepsNodes)
    (.start ((Ingest.start log).run actions).tree) s ∧ s.tree = t

namespace Session

variable {t : Tree} {s u : Session} {a : Action} {allowed : Session → Action → Prop}

theorem Reaches.exists_run (run : Reaches allowed s u) : ∃ actions, s.run actions = u := by
  induction run with
  | refl => exact ⟨[], rfl⟩
  | @step m a _ _ ih =>
    obtain ⟨actions, rfl⟩ := ih
    exact ⟨actions ++ [a], run_append s actions [a]⟩

theorem run_of_grown (grown : s.tree.Grown t) :
    ∃ actions, s.run actions = { s with tree := t } := by
  have extend {u v : Tree} {actions : List Action} (a : Action)
      (before : s.run actions = { s with tree := u })
      (done : ({ s with tree := u } : Session).perform a = { s with tree := v }) :
      ∃ actions, s.run actions = { s with tree := v } :=
    ⟨actions ++ [a], by rw [run_append, before]; exact done⟩
  induction grown with
  | refl => exact ⟨[], rfl⟩
  | @add u v parent i spec hidden _ added ih =>
    obtain ⟨actions, before⟩ := ih
    exact extend (.add parent spec hidden) before (by simp [perform, added, keep, Except.map])
  | @linkNext u v i k j _ linked ih =>
    obtain ⟨actions, before⟩ := ih
    exact extend (.linkNext i k) before (by simp [perform, linked, keep, Except.map])
  | @linkPrev u v i k j _ linked ih =>
    obtain ⟨actions, before⟩ := ih
    exact extend (.linkPrev i k) before (by simp [perform, linked, keep, Except.map])

theorem Change.covers (change : Change s a u) (keeps : a.KeepsNodes) (sound : s.tree.Sound)
    (covers : s.tree.Covers) : u.tree.Covers := by
  cases change with
  | same => exact covers
  | add => exact keeps.elim
  | linkNext => exact keeps.elim
  | linkPrev => exact keeps.elim
  | toggle => exact covers.setHidden
  | fork inside => exact covers.fork sound inside
  | reset => exact covers
  | layerToggle _ written =>
    obtain ⟨-, rfl⟩ := Tree.layerToggle_ok written
    exact covers.setHidden
  | view inside toggled => exact toggled.covers (covers.fork sound inside)

end Session

namespace Tree

variable {t : Tree}

/-- A tree that was just filled is in use. -/
theorem ingested_run (log : DefectLog) (filling : List IngestAction) :
    ((Ingest.start log).run filling).tree.Ingested :=
  ⟨log, filling, .start _, .refl, rfl⟩

theorem Ingested.reachable (ingested : t.Ingested) : t.Reachable := by
  obtain ⟨log, filling, s, used, rfl⟩ := ingested
  obtain ⟨adding, filled⟩ := Session.run_of_grown (s := .start .new)
    (Ingest.grown_run filling (Ingest.start log))
  obtain ⟨uses, rfl⟩ := used.exists_run
  refine ⟨⟨0⟩, adding ++ uses, ?_⟩
  rw [Session.run_append, filled]
  rfl

/-- What filling brings about and what only nodes and links matter for holds while a tree is used. -/
theorem Ingested.of_frame {p : Tree → Prop} (ingested : t.Ingested)
    (framed : ∀ {t u : Tree}, u.frame = t.frame → p t → p u)
    (filled : ∀ log actions, p ((Ingest.start log).run actions).tree) : p t := by
  obtain ⟨log, filling, s, used, rfl⟩ := ingested
  have kept (m : Session) (a : Action) (keeps : a.KeepsNodes) (known : m.tree.Sound ∧ p m.tree) :
      (m.perform a).tree.Sound ∧ p (m.perform a).tree := by
    have change := Session.change_perform known.1 a
    exact ⟨change.sound known.1, framed (change.frame known.1 keeps) known.2⟩
  exact (used.invariant kept ⟨(Ingest.run_fresh log filling).sound, filled log filling⟩).2

theorem Ingested.covers (ingested : t.Ingested) : t.Covers := by
  obtain ⟨log, filling, s, used, rfl⟩ := ingested
  have fresh := Ingest.run_fresh log filling
  have kept (m : Session) (a : Action) (keeps : a.KeepsNodes)
      (known : m.tree.Sound ∧ m.tree.Covers) :
      (m.perform a).tree.Sound ∧ (m.perform a).tree.Covers :=
    ⟨Session.perform_sound known.1 a,
      (Session.change_perform known.1 a).covers keeps known.1 known.2⟩
  exact (used.invariant kept ⟨fresh.sound, fresh.covers⟩).2

end Tree
end LayeredTable
