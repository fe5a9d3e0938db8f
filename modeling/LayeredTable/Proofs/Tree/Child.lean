import LayeredTable.Proofs.Tree.Cover

/-! What a tree holds under an identifier: the data of a child, and whether it is hidden. Adding a
node changes this in one place, and linking nodes in none. -/
namespace LayeredTable

def Node.spec (n : Node) : NodeSpec :=
  { id := n.id, name := n.name, value := n.value, type := n.type, nullable := n.nullable }

namespace Tree

def spec? (t : Tree) (i : Nat) : Option NodeSpec := t.nodes[i]?.map (·.spec)

/-- The data of a node's child, and whether the node hides it. -/
def child? (t : Tree) (i : Nat) (id : CellId) : Option (NodeSpec × Bool) :=
  (t.findById i id).bind fun c => (t.spec? c).bind fun spec =>
    (t.isHidden? i id).map fun hidden => (spec, hidden)

variable {t u : Tree} {i j k c parent : Nat} {id : CellId} {spec : NodeSpec} {hidden : Bool}

theorem spec?_add (added : t.add parent spec hidden = .ok (i, u)) (c : Nat) :
    u.spec? c = if c = i then some spec else t.spec? c := by
  obtain ⟨rfl, -, -, rfl⟩ := add_ok added
  have adopted (n : Node) : (n.adopt spec.id t.size).spec = n.spec := by
    rw [Node.adopt, Node.widen]
    split <;> rfl
  rw [spec?, map_eq_of_frame frame_setHidden c Node.spec fun _ => rfl, getElem?_nodes_attach]
  split
  · rfl
  · split
    · rw [Option.map_map, Function.comp_def]
      simp only [adopted, spec?]
    · rfl

theorem isHidden?_add (sound : t.Sound) (added : t.add parent spec hidden = .ok (i, u)) (j : Nat)
    (id : CellId) : u.isHidden? j id =
      if j = parent ∧ id = spec.id then some hidden else t.isHidden? j id := by
  obtain ⟨last, inside, -, grown⟩ := add_ok added
  have version : u.version = t.version := by
    rw [grown]
    rfl
  simp only [isHidden?, hiddenMap_eq, version, layer?_add added]
  by_cases new : j = i
  · have apart : ¬ j = parent := by omega
    have layer : t.layer? j t.version = none := by simp [layer?, new, last, size]
    rw [if_pos new, layer]
    simp only [apart, false_and, if_false]
    split <;> rfl
  · rw [if_neg new]
    by_cases above : j = parent
    · obtain ⟨layer, active⟩ := sound.layer inside sound.aligned.version_lt
      simp [above, active]
    · simp [above]

theorem child?_add (sound : t.Sound) (added : t.add parent spec hidden = .ok (i, u)) (j : Nat)
    (id : CellId) : u.child? j id =
      if j = parent ∧ id = spec.id then some (spec, hidden) else t.child? j id := by
  obtain ⟨last, -, -, -⟩ := add_ok added
  simp only [child?, findById, children_add added, spec?_add added, isHidden?_add sound added]
  by_cases here : j = parent ∧ id = spec.id
  · simp [here]
  · have same :
        (if j = parent then (t.children parent).insert spec.id i else t.children j).get? id =
          (t.children j).get? id := by
      split
      · rename_i above
        rw [OrderedMap.get?_insert, if_neg fun equal => here ⟨above, equal⟩, above]
      · rfl
    rw [same, if_neg here, if_neg here]
    cases entry : (t.children j).get? id with
    | none => rfl
    | some c =>
      have old : c ≠ i := by
        have := (sound.shape.lt_child entry).2
        omega
      simp only [Option.bind_some, if_neg old]

/-- Adding a child adds what is held under its id, where nothing was held before. -/
theorem child?_add_eq_some_iff (sound : t.Sound) (added : t.add parent spec hidden = .ok (i, u))
    {j : Nat} {id : CellId} {held : NodeSpec × Bool} : u.child? j id = some held ↔
      (j = parent ∧ id = spec.id ∧ held = (spec, hidden)) ∨ t.child? j id = some held := by
  obtain ⟨-, -, free, -⟩ := add_ok added
  have empty : t.child? parent spec.id = none := by simp [child?, findById, free]
  rw [child?_add sound added]
  by_cases here : j = parent ∧ id = spec.id
  · obtain ⟨rfl, rfl⟩ := here
    simp [empty, eq_comm]
  · have apart : ¬ (j = parent ∧ id = spec.id ∧ held = (spec, hidden)) :=
      fun all => here ⟨all.1, all.2.1⟩
    rw [if_neg here]
    simp only [apart, false_or]

theorem relink_keeps (f : Node → Node) (core : ∀ n, (f n).core = n.core)
    (layers : ∀ n, (f n).layers = n.layers) (spec : ∀ n, (f n).spec = n.spec) :
    (t.relink i f).size = t.size ∧ ∀ j id, (t.relink i f).child? j id = t.child? j id := by
  have relinked : t.Relinked (t.relink i f) := relinked_relink f core layers
  have specs (c : Nat) : (t.relink i f).spec? c = t.spec? c := by
    rw [spec?, spec?, relink, Array.getElem?_modify]
    split
    · cases t.nodes[c]? <;> simp [spec]
    · rfl
  refine ⟨Array.size_modify, fun j id => ?_⟩
  simp only [child?, findById, isHidden?, hiddenMap_eq, relinked.children, relinked.layers,
    relinked.version, specs]

theorem linkNext_keeps (linked : t.linkNext i k = .ok (c, u)) :
    u.size = t.size ∧ ∀ j id, u.child? j id = t.child? j id := by
  rcases linkNext_ok linked with ⟨-, rfl | rfl⟩
  · exact ⟨rfl, fun _ _ => rfl⟩
  · exact relink_keeps (fun n => { n with next := some k }) (fun _ => rfl) (fun _ => rfl)
      fun _ => rfl

theorem linkPrev_keeps (linked : t.linkPrev i k = .ok (c, u)) :
    u.size = t.size ∧ ∀ j id, u.child? j id = t.child? j id := by
  rcases linkPrev_ok linked with ⟨-, rfl | rfl⟩
  · exact ⟨rfl, fun _ _ => rfl⟩
  · exact relink_keeps (fun n => { n with prev := some k }) (fun _ => rfl) (fun _ => rfl)
      fun _ => rfl

/-- In a fresh tree all children have their data and their visibility. -/
theorem Fresh.child?_eq_none_iff (fresh : t.Fresh) :
    t.child? i id = none ↔ (t.children i).get? id = none := by
  constructor
  · intro absent
    cases entry : (t.children i).get? id with
    | none => rfl
    | some c =>
      obtain ⟨n, here, -⟩ := fresh.sound.shape.child entry
      obtain ⟨hidden, known⟩ :=
        fresh.covers.isHidden? fresh.sound (OrderedMap.mem_keys_of_get? entry)
      simp [child?, findById, spec?, entry, here, known] at absent
  · intro absent
    simp [child?, findById, absent]

theorem Fresh.exists_child? (fresh : t.Fresh) (entry : t.findById i id = some c) :
    ∃ spec hidden, t.child? i id = some (spec, hidden) := by
  cases held : t.child? i id with
  | none =>
    have absent : t.findById i id = none := fresh.child?_eq_none_iff.mp held
    rw [entry] at absent
    cases absent
  | some child => exact ⟨child.1, child.2, rfl⟩

/-- Linking is refused only where there is no node. -/
theorem exists_linkNext (first : i < t.size) (second : k < t.size) :
    ∃ j u, t.linkNext i k = .ok (j, u) := by
  obtain ⟨n, here⟩ := exists_node first
  obtain ⟨m, there⟩ := exists_node second
  simp only [linkNext, node, here, there, bind, Except.bind]
  cases n.next <;> exact ⟨_, _, rfl⟩

theorem exists_linkPrev (first : i < t.size) (second : k < t.size) :
    ∃ j u, t.linkPrev i k = .ok (j, u) := by
  obtain ⟨n, here⟩ := exists_node first
  obtain ⟨m, there⟩ := exists_node second
  simp only [linkPrev, node, here, there, bind, Except.bind]
  cases n.prev <;> exact ⟨_, _, rfl⟩

end Tree
end LayeredTable
