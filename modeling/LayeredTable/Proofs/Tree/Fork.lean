import LayeredTable.Proofs.Tree.Shape

/-! A fork walks the tree from its root. In a sound tree the walk reaches every node, and it does
not matter from where the fork was asked for, so every node gets exactly one more layer. -/
namespace LayeredTable
namespace Tree

variable {t : Tree} {i j c v w : Nat} {id : CellId}

theorem Shape.rootOf_eq (shape : t.Shape) (inside : i < t.size) : t.rootOf i = 0 := by
  induction i using Nat.strongRecOn with
  | ind i ih =>
    obtain ⟨n, here⟩ := exists_node inside
    rw [rootOf, here]
    by_cases root : i = 0
    · obtain ⟨m, there, none⟩ := shape.root
      rw [← root, here] at there
      cases there
      simp [none, root]
    · obtain ⟨p, before, above, -⟩ := shape.parent here root
      simp only [Option.bind_some, above, if_pos before]
      exact ih p before (by omega)

theorem self_mem_subtree (t : Tree) (i : Nat) : i ∈ t.subtree i := by
  rw [subtree]
  exact List.mem_cons_self

theorem mem_subtree_of_child (entry : (t.children i).get? id = some c)
    (after : i < c ∧ c < t.size) (below : j ∈ t.subtree c) : j ∈ t.subtree i := by
  rw [subtree]
  refine List.mem_cons_of_mem _ (List.mem_flatMap.mpr ⟨c, ?_, by rwa [if_pos after]⟩)
  exact OrderedMap.mem_values_of_get? entry

/-- The walk goes on from every node it reaches. -/
theorem child_mem_subtree (shape : t.Shape) (reached : j ∈ t.subtree i)
    (entry : (t.children j).get? id = some c) : c ∈ t.subtree i := by
  induction rest : t.size - i using Nat.strongRecOn generalizing i with
  | ind rest ih =>
    rw [subtree] at reached
    rcases List.mem_cons.mp reached with rfl | deeper
    · exact mem_subtree_of_child entry (shape.lt_child entry) (self_mem_subtree t c)
    · obtain ⟨d, listed, deeper⟩ := List.mem_flatMap.mp deeper
      split at deeper
      · rename_i after
        obtain ⟨key, there⟩ := OrderedMap.exists_get?_of_mem_values listed
        exact mem_subtree_of_child there after (ih (t.size - d) (by omega) deeper rfl)
      · cases deeper

theorem mem_subtree_root (shape : t.Shape) (inside : i < t.size) : i ∈ t.subtree 0 := by
  induction i using Nat.strongRecOn with
  | ind i ih =>
    by_cases root : i = 0
    · rw [root]
      exact self_mem_subtree t 0
    · obtain ⟨n, here⟩ := exists_node inside
      obtain ⟨p, before, -, entry⟩ := shape.parent here root
      exact child_mem_subtree shape (ih p before (by omega)) entry

/-- A change that can be repeated without effect is made once at every listed place. -/
theorem getElem?_foldl_modify {f : Node → Node} (places : List Nat) (nodes : Array Node)
    (again : ∀ (j : Nat) (n : Node), nodes[j]? = some n → f (f n) = f n) (j : Nat) :
    (places.foldl (fun nodes k => nodes.modify k f) nodes)[j]? =
      if j ∈ places then nodes[j]?.map f else nodes[j]? := by
  induction places generalizing nodes with
  | nil => simp
  | cons k places ih =>
    have still (j : Nat) (n : Node) (here : (nodes.modify k f)[j]? = some n) :
        f (f n) = f n := by
      rw [Array.getElem?_modify] at here
      split at here
      · obtain ⟨m, there, rfl⟩ := Option.map_eq_some_iff.mp here
        rw [again j m there, again j m there]
      · exact again j n here
    rw [List.foldl_cons, ih _ still, Array.getElem?_modify]
    by_cases here : k = j
    · subst here
      cases there : nodes[k]? with
      | none => simp
      | some n => simp [again k n there]
    · have other : ¬ j = k := fun same => here same.symm
      simp [here, other]

/-- Every node of a sound tree is forked, from wherever in the tree the fork is made. -/
theorem getElem?_nodes_fork (sound : t.Sound) (inside : i < t.size) (j : Nat) :
    (t.fork i).2.nodes[j]? = t.nodes[j]?.map (·.fork t.version) := by
  have again (j : Nat) (n : Node) (here : t.nodes[j]? = some n) :
      (n.fork t.version).fork t.version = n.fork t.version := by
    apply Node.fork_fork
    rw [sound.aligned.layers here]
    exact sound.aligned.version_lt
  rw [fork, sound.shape.rootOf_eq inside]
  refine (getElem?_foldl_modify (f := (·.fork t.version)) _ _ again j).trans ?_
  split
  · rfl
  · rename_i missed
    cases here : t.nodes[j]? with
    | none => rfl
    | some n => exact absurd (mem_subtree_root sound.shape (lt_size here)) missed

/-- The tree that a fork leaves does not depend on the node that was asked. -/
theorem fork_snd_eq (shape : t.Shape) (inside : i < t.size) (inside' : j < t.size) :
    (t.fork j).2 = (t.fork i).2 := by
  simp only [fork, shape.rootOf_eq inside, shape.rootOf_eq inside']

@[simp] theorem version_fork : (t.fork i).2.version = t.version + 1 := rfl

@[simp] theorem handle_fork : (t.fork i).1 = ⟨i, t.version + 1⟩ := rfl

theorem frame_fork (sound : t.Sound) (inside : i < t.size) : (t.fork i).2.frame = t.frame := by
  apply Array.ext_getElem?
  intro j
  rw [frame, frame, Array.getElem?_map, Array.getElem?_map, getElem?_nodes_fork sound inside]
  cases t.nodes[j]? <;> rfl

/-- A fork keeps the layers up to the active version, adds one that hides all that the active one
knows, and drops the rest. -/
theorem layer?_fork (sound : t.Sound) (inside : i < t.size) (j w : Nat) :
    (t.fork i).2.layer? j w =
      if w ≤ t.version then t.layer? j w
      else if w = t.version + 1 then (t.layer? j t.version).map (·.map fun _ => true)
      else none := by
  rw [layer?, layer?, layer?, getElem?_nodes_fork sound inside]
  cases here : t.nodes[j]? with
  | none => simp
  | some n =>
    have active : t.version < n.layers.size := by
      rw [sound.aligned.layers here]
      exact sound.aligned.version_lt
    simp only [Option.map_some, Option.bind_some, Node.getElem?_layers_fork active]
    simp [Node.layer, active]

/-- After a fork all that was known is hidden. -/
theorem isHidden?_fork (sound : t.Sound) (inside : i < t.size) (j : Nat) (id : CellId) :
    (t.fork i).2.isHidden? j id = (t.isHidden? j id).map fun _ => true := by
  have later : ¬ t.version + 1 ≤ t.version := by omega
  rw [isHidden?, isHidden?, hiddenMap_eq, hiddenMap_eq, layer?_fork sound inside, version_fork,
    if_neg later, if_pos rfl]
  cases t.layer? j t.version <;> simp

theorem Sound.fork (sound : t.Sound) (inside : i < t.size) :
    (t.fork i).2.Sound ∧ (t.fork i).2.versionCount = t.version + 2 := by
  have frame := frame_fork sound inside
  have rooted : 0 < (t.fork i).2.size := by
    rw [size_eq_of_frame frame]
    exact sound.shape.pos
  have aligned := Aligned.of_size (t := (t.fork i).2) (t.version + 2) rooted
    (fun {j} {m} here => by
      rw [getElem?_nodes_fork sound inside] at here
      obtain ⟨n, there, rfl⟩ := Option.map_eq_some_iff.mp here
      apply Node.size_layers_fork
      rw [sound.aligned.layers there]
      exact sound.aligned.version_lt)
    (by omega) (.inr rfl)
  exact ⟨⟨sound.shape.of_frame frame, aligned.1⟩, aligned.2⟩

end Tree
end LayeredTable
