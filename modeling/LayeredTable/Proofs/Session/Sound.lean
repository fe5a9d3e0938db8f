import LayeredTable.Proofs.Session.Basic

/-! Every tree in use is sound: its nodes hang together, and all of them have one hidden map for
each version, of which the active one is the first or the last. -/
namespace LayeredTable
namespace Session

variable {s u : Session} {allowed : Session → Action → Prop}

theorem Change.sound {a : Action} (change : Change s a u) (sound : s.tree.Sound) :
    u.tree.Sound := by
  cases change with
  | same => exact sound
  | add added => exact (sound.add added).1
  | linkNext linked => exact (sound.linkNext linked).1
  | linkPrev linked => exact (sound.linkPrev linked).1
  | toggle => exact sound.toggle
  | fork inside => exact (sound.fork inside).1
  | reset => exact sound.reset
  | layerToggle _ written => exact sound.layerToggle written
  | view inside toggled => exact (toggled.sound (sound.fork inside).1).1

theorem Change.frame {a : Action} (change : Change s a u) (sound : s.tree.Sound)
    (keeps : a.KeepsNodes) : u.tree.frame = s.tree.frame := by
  cases change with
  | same => rfl
  | add => exact keeps.elim
  | linkNext => exact keeps.elim
  | linkPrev => exact keeps.elim
  | toggle => exact Tree.frame_toggle
  | fork inside => exact Tree.frame_fork sound inside
  | reset => rfl
  | layerToggle _ written =>
    obtain ⟨-, rfl⟩ := Tree.layerToggle_ok written
    exact Tree.frame_setHidden
  | view inside toggled => exact toggled.frame.trans (Tree.frame_fork sound inside)

theorem perform_sound (sound : s.tree.Sound) (a : Action) : (s.perform a).tree.Sound :=
  (change_perform sound a).sound sound

theorem run_sound (sound : s.tree.Sound) (actions : List Action) : (s.run actions).tree.Sound := by
  have kept (m : Session) (a : Action) (sound : m.tree.Sound) : (m.perform a).tree.Sound :=
    perform_sound sound a
  exact run_invariant kept sound actions

theorem Reaches.sound (run : Reaches allowed s u) (sound : s.tree.Sound) : u.tree.Sound := by
  have kept (m : Session) (a : Action) (_ : allowed m a) (sound : m.tree.Sound) :
      (m.perform a).tree.Sound := perform_sound sound a
  exact run.invariant kept sound

end Session

/-- A tree that some session leads to from a new tree. -/
def Tree.Reachable (t : Tree) : Prop :=
  ∃ rootId actions, ((Session.start (.new rootId)).run actions).tree = t

theorem Tree.Reachable.sound {t : Tree} (reachable : t.Reachable) : t.Sound := by
  obtain ⟨rootId, actions, rfl⟩ := reachable
  exact Session.run_sound (new_sound rootId) actions

/-- Whatever is done with a new tree, in any order and whether or not it is refused. -/
theorem Session.run_consistent (rootId : CellId) (actions : List Action) :
    let t := ((start (.new rootId)).run actions).tree
    (∃ d, 1 ≤ d ∧ (t.version = 0 ∨ t.version = d - 1) ∧
      ∀ (i : Nat) (n : Node), t.nodes[i]? = some n →
        n.layers.size = d ∧ (n.layers[t.version]?).isSome) ∧
    (∃ root, t.nodes[0]? = some root ∧ root.parent = none) ∧
    (∀ (i : Nat) (n : Node), t.nodes[i]? = some n → i ≠ 0 → ∃ p < i, n.parent = some p ∧
      ∀ (q : Nat) (id : CellId), (t.children q).get? id = some i ↔ q = p ∧ id = n.id) ∧
    (∀ (q : Nat) (id : CellId) (c : Nat), (t.children q).get? id = some c →
      ∃ n, t.nodes[c]? = some n ∧ n.id = id ∧ n.parent = some q) ∧
    (∀ (i : Nat) (n : Node) (k : Nat), t.nodes[i]? = some n →
      n.next = some k ∨ n.prev = some k → k < t.size) ∧
    (∀ (i : Nat) (n : Node), t.nodes[i]? = some n → n.children.isEmpty = false →
      ((∃ id ∈ n.children.keys, id.row = n.leastRow) ∧
        ∀ id ∈ n.children.keys, n.leastRow ≤ id.row) ∧
      ((∃ id ∈ n.children.keys, id.row = n.greatestRow) ∧
        ∀ id ∈ n.children.keys, id.row ≤ n.greatestRow)) := by
  intro t
  have sound : t.Sound := run_sound (Tree.new_sound rootId) actions
  have active := sound.aligned.version_lt
  refine ⟨⟨t.versionCount, sound.aligned.nonempty, ?_, ?_⟩, sound.shape.root,
    ?_, fun q id c entry => sound.shape.child entry,
    fun i n k here link => sound.shape.links here link, ?_⟩
  · have last := sound.aligned.active
    omega
  · intro i n here
    have size := sound.aligned.layers here
    refine ⟨size, ?_⟩
    rw [← size] at active
    simp [active]
  · intro i n here notRoot
    obtain ⟨p, before, above, -⟩ := sound.shape.parent here notRoot
    refine ⟨p, before, above, ?_⟩
    intro q id
    rw [sound.shape.listed_iff here, above, Option.some.injEq, eq_comm]
  · intro i n here inhabited
    obtain ⟨least, low, greatest, high⟩ := sound.shape.bounded here
    exact ⟨⟨least inhabited, low⟩, greatest inhabited, high⟩

end LayeredTable
