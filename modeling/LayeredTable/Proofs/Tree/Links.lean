import LayeredTable.Proofs.Tree.Child
import LayeredTable.Proofs.Tree.Walk

/-! Links while a tree grows. A new node has no links and no node gets any by an addition; linking
writes one link where there was none. -/
namespace LayeredTable
namespace Tree

variable {t u : Tree} {i j k c parent : Nat} {id : CellId} {spec : NodeSpec} {hidden : Bool}

theorem next?_of_frame (same : u.frame = t.frame) (j : Nat) : u.next? j = t.next? j := by
  have links := congrArg (Option.bind · id) (map_eq_of_frame same j (·.next) fun _ => rfl)
  simp only [Option.bind_map] at links
  exact links

theorem prev?_of_frame (same : u.frame = t.frame) (j : Nat) : u.prev? j = t.prev? j := by
  have links := congrArg (Option.bind · id) (map_eq_of_frame same j (·.prev) fun _ => rfl)
  simp only [Option.bind_map] at links
  exact links

theorem next?_of_outside (outside : t.size ≤ j) : t.next? j = none := by
  rw [next?, Array.getElem?_eq_none outside]
  rfl

theorem prev?_of_outside (outside : t.size ≤ j) : t.prev? j = none := by
  rw [prev?, Array.getElem?_eq_none outside]
  rfl

/-- Adding a node changes no link. -/
theorem links_add (added : t.add parent spec hidden = .ok (i, u)) (j : Nat) :
    u.next? j = t.next? j ∧ u.prev? j = t.prev? j := by
  obtain ⟨rfl, -, -, rfl⟩ := add_ok added
  rw [next?_of_frame frame_setHidden, prev?_of_frame frame_setHidden]
  have adopted (n : Node) := n.adopt_frame spec.id t.size
  by_cases last : j = t.size
  · subst last
    rw [next?_of_outside (Nat.le_refl t.size), prev?_of_outside (Nat.le_refl t.size), next?, prev?,
      getElem?_nodes_attach, if_pos rfl]
    exact ⟨rfl, rfl⟩
  · simp only [next?, prev?, getElem?_nodes_attach, if_neg last]
    split
    · cases t.nodes[j]? with
      | none => exact ⟨rfl, rfl⟩
      | some n => exact ⟨(adopted n).2.2.1, (adopted n).2.2.2.1⟩
    · exact ⟨rfl, rfl⟩

/-- What is found under an id after an addition is the new node or what was found before. -/
theorem findById_add (added : t.add parent spec hidden = .ok (i, u)) : u.findById j id = some c ↔
    (j = parent ∧ id = spec.id ∧ c = i) ∨ t.findById j id = some c := by
  obtain ⟨-, -, free, -⟩ := add_ok added
  rw [findById, findById, children_add added]
  by_cases above : j = parent
  · subst above
    rw [if_pos rfl, OrderedMap.get?_insert]
    by_cases same : id = spec.id
    · subst same
      simp [free, eq_comm]
    · simp [same]
  · simp [above]

theorem getElem?_nodes_relink (f : Node → Node) (j : Nat) :
    (t.relink i f).nodes[j]? = if i = j then t.nodes[j]?.map f else t.nodes[j]? :=
  Array.getElem?_modify

/-- A link that is missing is written, and no other. -/
theorem linkNext_of_free (inside : i < t.size) (target : k < t.size) (free : t.next? i = none) :
    ∃ u, t.linkNext i k = .ok (k, u) ∧ u.size = t.size ∧
      (∀ j, u.next? j = if j = i then some k else t.next? j) ∧ ∀ j, u.prev? j = t.prev? j := by
  obtain ⟨n, here⟩ := exists_node inside
  obtain ⟨m, there⟩ := exists_node target
  have missing : n.next = none := by simpa [next?, here] using free
  refine ⟨t.relink i fun n => { n with next := some k }, ?_, Array.size_modify, fun j => ?_,
    fun j => ?_⟩
  · simp only [linkNext, node, here, there, bind, Except.bind, missing]
    rfl
  · rw [next?, getElem?_nodes_relink]
    by_cases same : j = i
    · simp [same, here]
    · simp [same, Ne.symm same, next?]
  · rw [prev?, getElem?_nodes_relink]
    by_cases same : j = i
    · simp [same, here, prev?]
    · simp [Ne.symm same, prev?]

theorem linkPrev_of_free (inside : i < t.size) (target : k < t.size) (free : t.prev? i = none) :
    ∃ u, t.linkPrev i k = .ok (k, u) ∧ u.size = t.size ∧
      (∀ j, u.prev? j = if j = i then some k else t.prev? j) ∧ ∀ j, u.next? j = t.next? j := by
  obtain ⟨n, here⟩ := exists_node inside
  obtain ⟨m, there⟩ := exists_node target
  have missing : n.prev = none := by simpa [prev?, here] using free
  refine ⟨t.relink i fun n => { n with prev := some k }, ?_, Array.size_modify, fun j => ?_,
    fun j => ?_⟩
  · simp only [linkPrev, node, here, there, bind, Except.bind, missing]
    rfl
  · rw [prev?, getElem?_nodes_relink]
    by_cases same : j = i
    · simp [same, here]
    · simp [same, Ne.symm same, prev?]
  · rw [next?, getElem?_nodes_relink]
    by_cases same : j = i
    · simp [same, here, next?]
    · simp [Ne.symm same, next?]

end Tree
end LayeredTable
