import LayeredTable.Proofs.Expr.Reading
import LayeredTable.Proofs.Session.Sound

/-! Version 0 is the table as it was read. Forks, views and handles only ever write to later
versions, so going back to version 0 restores all that can be read of the tree. -/
namespace LayeredTable
namespace Session

/-- The steps that leave the nodes alone and do not write to version 0 on purpose. -/
def Spares (s : Session) (a : Action) : Prop :=
  a.KeepsNodes ∧
    match a with
    | .toggle .. => 0 < s.tree.version
    | _ => True

structure Intact (t : Tree) (s : Session) : Prop where
  sound : s.tree.Sound
  frame : s.tree.frame = t.frame
  first : ∀ i, s.tree.layer? i 0 = t.layer? i 0
  handles : ∀ l ∈ s.handles, 0 < l.version

variable {t : Tree} {s u : Session} {a : Action}

theorem Change.intact (change : Change s a u) (spares : s.Spares a) (intact : s.Intact t) :
    u.Intact t := by
  have sound := change.sound intact.sound
  have frame := (change.frame intact.sound spares.1).trans intact.frame
  obtain ⟨before, -, first, handles⟩ := intact
  obtain ⟨keeps, later⟩ := spares
  cases change with
  | same => exact ⟨sound, frame, first, handles⟩
  | add => exact keeps.elim
  | linkNext => exact keeps.elim
  | linkPrev => exact keeps.elim
  | reset => exact ⟨sound, frame, first, handles⟩
  | toggle =>
    have other : 0 ≠ s.tree.version := Nat.ne_of_lt later
    refine ⟨sound, frame, ?_, handles⟩
    intro i
    rw [Tree.toggle, Tree.layer?_setHidden]
    simp [other, first]
  | fork inside =>
    refine ⟨sound, frame, ?_, ?_⟩
    · intro i
      rw [Tree.layer?_fork before inside, if_pos (Nat.zero_le _), first]
    · intro l member
      rcases List.mem_append.mp member with old | new
      · exact handles l old
      · cases List.mem_singleton.mp new
        exact Nat.succ_pos _
  | @layerToggle k l id hidden v given written =>
    have other : 0 ≠ l.version := Nat.ne_of_lt (handles l (List.mem_of_getElem? given))
    obtain ⟨-, rfl⟩ := Tree.layerToggle_ok written
    refine ⟨sound, frame, ?_, handles⟩
    intro i
    rw [Tree.layer?_setHidden]
    simp [other, first]
  | view inside toggled =>
    refine ⟨sound, frame, ?_, handles⟩
    intro i
    rw [toggled.layer? (Nat.succ_ne_zero _).symm, Tree.layer?_fork before inside,
      if_pos (Nat.zero_le _), first]

theorem Reaches.intact (run : Reaches Spares (start t) s) (sound : t.Sound) : s.Intact t := by
  have kept (m : Session) (a : Action) (spares : m.Spares a) (intact : m.Intact t) :
      (m.perform a).Intact t := (change_perform intact.sound a).intact spares intact
  exact run.invariant kept ⟨sound, rfl, fun _ => rfl, nofun⟩

theorem Intact.alike (intact : s.Intact t) (initial : t.version = 0) :
    t.Alike s.tree.reset := by
  refine ⟨intact.frame, ?_⟩
  intro i
  rw [Tree.hiddenMap_eq, Tree.hiddenMap_eq, Tree.version_reset, Tree.layer?_reset, intact.first,
    initial]

/-- A reset brings back all that was read of a tree in version 0, whatever was done since then in
other versions. -/
theorem reset_restores (reachable : t.Reachable) (initial : t.version = 0)
    (run : Reaches Spares (start t) s) :
    s.tree.reset.version = 0 ∧
    (∀ i, s.tree.reset.layer? i 0 = t.layer? i 0) ∧
    (∀ i, s.tree.reset.hiddenMap i = t.hiddenMap i) ∧
    (∀ i id, s.tree.reset.isHidden? i id = t.isHidden? i id) ∧
    (∀ i, s.tree.reset.exclusions i = t.exclusions i) ∧
    ∀ (c : EvalContext) (e : Expr), c.eval s.tree.reset e = c.eval t e := by
  have intact := run.intact reachable.sound
  have alike := intact.alike initial
  refine ⟨rfl, intact.first, alike.hidden, alike.isHidden?, alike.exclusions, ?_⟩
  intro c e
  simp only [EvalContext.eval, Expr.eval_of_alike alike]

theorem reset_restores_after_reused_handle :
    let id := CellId.of 1 1
    let t := ((start (.new ⟨0⟩)).run [.add 0 (.column 1 "a" .unknown {}) false,
      .add 1 (.cell id (.bool true)) false]).tree
    let again := (((start t).perform (.fork 1)).perform .reset).perform (.fork 2)
    let s := (again.perform (.toggle 1 id false)).perform (.layerToggle 0 id true)
    t.isHidden? 1 id = some false ∧ s.tree.isHidden? 1 id = some true ∧
      s.tree.reset.isHidden? 1 id = some false := by
  intro id t again s
  have forked : Reaches Spares (start t) again :=
    .step (.step (.step .refl ⟨trivial, trivial⟩) ⟨trivial, trivial⟩) ⟨trivial, trivial⟩
  have later : 0 < again.tree.version := by decide +kernel
  have run : Reaches Spares (start t) s := .step (.step forked ⟨trivial, later⟩) ⟨trivial, trivial⟩
  obtain ⟨-, -, -, hidden, -⟩ := reset_restores ⟨⟨0⟩, _, rfl⟩ (by decide +kernel) run
  have before : t.isHidden? 1 id = some false := by decide +kernel
  have written : s.tree.isHidden? 1 id = some true := by decide +kernel
  exact ⟨before, written, (hidden 1 id).trans before⟩

end Session
end LayeredTable
