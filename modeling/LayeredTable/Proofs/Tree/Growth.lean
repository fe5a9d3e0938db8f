import LayeredTable.Proofs.Tree.Shape

/-! Adding and linking nodes. A new node goes to the end, so all that was there stays where it was;
its parent lists it, and only the active layer of the parent learns of it. -/
namespace LayeredTable
namespace Tree

variable {t u : Tree} {i j k parent v : Nat} {n : Node} {spec : NodeSpec} {hidden : Bool}

def newborn (t : Tree) (parent : Nat) (spec : NodeSpec) : Node :=
  { spec with
    parent := some parent
    layers := Array.replicate t.versionCount .empty }

def attach (t : Tree) (parent : Nat) (spec : NodeSpec) : Tree :=
  { t with nodes :=
      (t.nodes.modify parent (·.adopt spec.id t.size)).push (t.newborn parent spec) }

/-- All that adding does when it is not refused. -/
theorem add_ok (added : t.add parent spec hidden = .ok (i, u)) :
    i = t.size ∧ parent < t.size ∧ (t.children parent).get? spec.id = none ∧
      u = (t.attach parent spec).setHidden parent t.version spec.id hidden := by
  rw [add] at added
  cases here : t.nodes[parent]? with
  | none => simp [here] at added
  | some p =>
    rw [here] at added
    simp only at added
    split at added
    · cases added
    · rename_i fresh
      cases added
      refine ⟨rfl, lt_size here, ?_, rfl⟩
      rw [children_of_node here]
      simpa [OrderedMap.contains] using fresh

/-- Adding below a node that is there is refused for a repeated id only. -/
theorem add_of_fresh (inside : parent < t.size) (fresh : (t.children parent).get? spec.id = none)
    (hidden : Bool) : ∃ u, t.add parent spec hidden = .ok (t.size, u) := by
  obtain ⟨p, here⟩ := exists_node inside
  rw [children_of_node here] at fresh
  rw [add, here]
  simp [OrderedMap.contains, fresh]

@[simp] theorem size_attach : (t.attach parent spec).size = t.size + 1 := by
  simp [attach, size]

theorem getElem?_nodes_attach (j : Nat) : (t.attach parent spec).nodes[j]? =
    if j = t.size then some (t.newborn parent spec)
    else if parent = j then t.nodes[j]?.map (·.adopt spec.id t.size) else t.nodes[j]? := by
  rw [attach, Array.getElem?_push, Array.size_modify, Array.getElem?_modify]
  rfl

/-- A node of the grown tree is the new one or was there before, perhaps with one child less. -/
theorem node_of_attach (here : (t.attach parent spec).nodes[j]? = some n) :
    (j = t.size ∧ n = t.newborn parent spec) ∨
      ∃ m, t.nodes[j]? = some m ∧ (n = m ∨ n = m.adopt spec.id t.size) := by
  rw [getElem?_nodes_attach] at here
  split at here
  · rename_i last
    exact .inl ⟨last, (Option.some.inj here).symm⟩
  · split at here
    · obtain ⟨m, there, rfl⟩ := Option.map_eq_some_iff.mp here
      exact .inr ⟨m, there, .inr rfl⟩
    · exact .inr ⟨n, here, .inl rfl⟩

/-- A node that was there still is, with its links and its layers. -/
theorem node_attach (here : t.nodes[j]? = some n) :
    ∃ m, (t.attach parent spec).nodes[j]? = some m ∧
      (m = n ∨ m = n.adopt spec.id t.size) := by
  have old : j ≠ t.size := Nat.ne_of_lt (lt_size here)
  rw [getElem?_nodes_attach, if_neg old, here]
  split
  · exact ⟨_, rfl, .inr rfl⟩
  · exact ⟨n, rfl, .inl rfl⟩

theorem children_attach (inside : parent < t.size) (j : Nat) :
    (t.attach parent spec).children j =
      if j = parent then (t.children parent).insert spec.id t.size else t.children j := by
  obtain ⟨p, here⟩ := exists_node inside
  rw [children, getElem?_nodes_attach]
  by_cases last : j = t.size
  · subst last
    have other : t.size ≠ parent := by omega
    have absent : t.nodes[t.size]? = none := Array.getElem?_eq_none (Nat.le_refl _)
    simp [newborn, other, children, absent]
  · by_cases same : j = parent
    · subst same
      simp [last, here, children_of_node here, Node.adopt_children]
    · have different : ¬ parent = j := fun equal => same equal.symm
      simp [last, same, different, children]

theorem Shape.attach (shape : t.Shape) (inside : parent < t.size)
    (fresh : (t.children parent).get? spec.id = none) : (t.attach parent spec).Shape := by
  have kept {m n : Node} (grown : m = n ∨ m = n.adopt spec.id t.size) :
      m.id = n.id ∧ m.parent = n.parent ∧ m.next = n.next ∧ m.prev = n.prev := by
    rcases grown with rfl | rfl
    · exact ⟨rfl, rfl, rfl, rfl⟩
    · have frame := n.adopt_frame spec.id t.size
      exact ⟨frame.1, frame.2.1, frame.2.2.1, frame.2.2.2.1⟩
  constructor
  case root =>
    obtain ⟨n, here, none⟩ := shape.root
    obtain ⟨m, there, grown⟩ := node_attach here
    exact ⟨m, there, (kept grown).2.1.trans none⟩
  case parent =>
    intro j m here notRoot
    rcases node_of_attach here with ⟨last, rfl⟩ | ⟨n, there, grown⟩
    · refine ⟨parent, by omega, rfl, ?_⟩
      rw [children_attach inside, if_pos rfl, OrderedMap.get?_insert]
      simp [newborn, last]
    · obtain ⟨p, before, above, entry⟩ := shape.parent there notRoot
      refine ⟨p, before, (kept grown).2.1.trans above, ?_⟩
      rw [(kept grown).1, children_attach inside]
      split
      · rename_i same
        rw [same] at entry
        have other : n.id ≠ spec.id := by
          intro equal
          rw [equal, fresh] at entry
          cases entry
        rw [OrderedMap.get?_insert, if_neg other, entry]
      · exact entry
  case child =>
    intro j id c entry
    have old (entry : (t.children j).get? id = some c) :
        ∃ m, (t.attach parent spec).nodes[c]? = some m ∧ m.id = id ∧ m.parent = some j := by
      obtain ⟨n, here, named, above⟩ := shape.child entry
      obtain ⟨m, there, grown⟩ := node_attach here
      exact ⟨m, there, (kept grown).1.trans named, (kept grown).2.1.trans above⟩
    rw [children_attach inside] at entry
    split at entry
    · rename_i same
      rw [OrderedMap.get?_insert] at entry
      split at entry
      · rename_i new
        cases entry
        refine ⟨t.newborn parent spec, ?_, new.symm, by rw [same]; rfl⟩
        rw [getElem?_nodes_attach, if_pos rfl]
      · exact old (by rwa [same])
    · exact old entry
  case links =>
    intro j m k here link
    rw [size_attach]
    rcases node_of_attach here with ⟨-, rfl⟩ | ⟨n, there, grown⟩
    · simp [newborn] at link
    · rw [(kept grown).2.2.1, (kept grown).2.2.2] at link
      have := shape.links there link
      omega
  case bounded =>
    intro j m here
    rcases node_of_attach here with ⟨-, rfl⟩ | ⟨n, there, rfl | rfl⟩
    · constructor <;> simp [newborn, OrderedMap.keys, OrderedMap.empty, OrderedMap.isEmpty]
    · exact shape.bounded there
    · exact (shape.bounded there).adopt spec.id t.size

theorem layer?_attach (j w : Nat) : (t.attach parent spec).layer? j w =
    if j = t.size then (if w < t.versionCount then some .empty else none) else t.layer? j w := by
  rw [layer?, layer?, getElem?_nodes_attach]
  split
  · simp [newborn, Array.getElem?_replicate]
  · split
    · cases t.nodes[j]? with
      | none => rfl
      | some n => simp [(n.adopt_frame spec.id t.size).2.2.2.2]
    · rfl

theorem Sound.add (sound : t.Sound) (added : t.add parent spec hidden = .ok (i, u)) :
    u.Sound ∧ u.versionCount = t.versionCount := by
  obtain ⟨-, inside, fresh, rfl⟩ := add_ok added
  have rooted : 0 < (t.attach parent spec).size := by simp
  have aligned : (t.attach parent spec).Aligned ∧
      (t.attach parent spec).versionCount = t.versionCount := by
    refine Aligned.of_size t.versionCount rooted ?_ sound.aligned.nonempty
      sound.aligned.active
    intro j m here
    rcases node_of_attach here with ⟨-, rfl⟩ | ⟨n, there, rfl | rfl⟩
    · simp [newborn]
    · exact sound.aligned.layers there
    · rw [(n.adopt_frame spec.id t.size).2.2.2.2]
      exact sound.aligned.layers there
  have grown : (t.attach parent spec).Sound := ⟨sound.shape.attach inside fresh, aligned.1⟩
  exact ⟨grown.setHidden.1, grown.setHidden.2.trans aligned.2⟩

def relink (t : Tree) (i : Nat) (f : Node → Node) : Tree := { t with nodes := t.nodes.modify i f }

/-- Setting a link that points inside keeps a tree sound and all its layers. -/
theorem Sound.relink (sound : t.Sound) (f : Node → Node)
    (core : ∀ n, (f n).core = n.core) (layers : ∀ n, (f n).layers = n.layers)
    (links : ∀ n k, (f n).next = some k ∨ (f n).prev = some k →
      (n.next = some k ∨ n.prev = some k) ∨ k < t.size) :
    (t.relink i f).Sound ∧ (t.relink i f).versionCount = t.versionCount := by
  have nodes (j : Nat) : (t.relink i f).nodes[j]? =
      if i = j then t.nodes[j]?.map f else t.nodes[j]? := Array.getElem?_modify
  have node {j : Nat} {m : Node} (here : (t.relink i f).nodes[j]? = some m) :
      ∃ n, t.nodes[j]? = some n ∧ (m = n ∨ m = f n) := by
    rw [nodes] at here
    split at here
    · obtain ⟨n, there, rfl⟩ := Option.map_eq_some_iff.mp here
      exact ⟨n, there, .inr rfl⟩
    · exact ⟨m, here, .inl rfl⟩
  have rooted : 0 < (t.relink i f).size := by
    rw [Tree.relink, size, Array.size_modify]
    exact sound.shape.pos
  have aligned := sound.aligned.of_same (u := t.relink i f) rooted rfl fun here => by
    rcases node here with ⟨n, there, rfl | rfl⟩
    · exact ⟨_, there, rfl⟩
    · exact ⟨n, there, by rw [layers]⟩
  refine ⟨⟨sound.shape.of_core ?_ ?_, aligned.1⟩, aligned.2⟩
  · intro j
    rw [nodes]
    split
    · rw [Option.map_map, Function.comp_def]
      simp only [core]
    · rfl
  · intro j m k here link
    rcases node here with ⟨n, there, rfl | rfl⟩
    · exact sound.shape.links there link
    · rcases links n _ link with old | inside
      · exact sound.shape.links there old
      · exact inside

theorem layer?_relink (f : Node → Node) (layers : ∀ n, (f n).layers = n.layers) (j w : Nat) :
    (t.relink i f).layer? j w = t.layer? j w := by
  rw [layer?, layer?, Tree.relink, Array.getElem?_modify]
  split
  · cases t.nodes[j]? <;> simp [layers]
  · rfl

/-- A link that was set already stays, so only a missing one is written. -/
theorem linkNext_ok (linked : t.linkNext i k = .ok (j, u)) :
    k < t.size ∧ (u = t ∨ u = t.relink i fun n => { n with next := some k }) := by
  simp only [linkNext, node, bind, Except.bind] at linked
  cases target : t.nodes[k]? with
  | none => simp [target] at linked
  | some m =>
    cases here : t.nodes[i]? with
    | none => simp [target, here] at linked
    | some n =>
      refine ⟨lt_size target, ?_⟩
      simp only [target, here] at linked
      split at linked <;> cases linked
      · exact .inl rfl
      · exact .inr rfl

theorem linkPrev_ok (linked : t.linkPrev i k = .ok (j, u)) :
    k < t.size ∧ (u = t ∨ u = t.relink i fun n => { n with prev := some k }) := by
  simp only [linkPrev, node, bind, Except.bind] at linked
  cases target : t.nodes[k]? with
  | none => simp [target] at linked
  | some m =>
    cases here : t.nodes[i]? with
    | none => simp [target, here] at linked
    | some n =>
      refine ⟨lt_size target, ?_⟩
      simp only [target, here] at linked
      split at linked <;> cases linked
      · exact .inl rfl
      · exact .inr rfl

theorem Sound.linkNext (sound : t.Sound) (linked : t.linkNext i k = .ok (j, u)) :
    u.Sound ∧ u.versionCount = t.versionCount := by
  rcases linkNext_ok linked with ⟨inside, rfl | rfl⟩
  · exact ⟨sound, rfl⟩
  · refine sound.relink _ (fun _ => rfl) (fun _ => rfl) ?_
    intro n m link
    rcases link with new | old
    · cases new
      exact .inr inside
    · exact .inl (.inr old)

theorem Sound.linkPrev (sound : t.Sound) (linked : t.linkPrev i k = .ok (j, u)) :
    u.Sound ∧ u.versionCount = t.versionCount := by
  rcases linkPrev_ok linked with ⟨inside, rfl | rfl⟩
  · exact ⟨sound, rfl⟩
  · refine sound.relink _ (fun _ => rfl) (fun _ => rfl) ?_
    intro n m link
    rcases link with old | new
    · exact .inl (.inl old)
    · cases new
      exact .inr inside

end Tree
end LayeredTable
