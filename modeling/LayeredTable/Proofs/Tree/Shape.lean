import LayeredTable.Proofs.Tree.Layers

/-! How the nodes of a tree hang together. Parents come before their children, and the two name
each other; links stay inside the tree; row bounds are exact. Nodes are only ever added and linked,
so all this is kept. -/
namespace LayeredTable

instance lawfulMaxUInt32 : Std.LawfulOrderLeftLeaningMax UInt32 where
  max_eq_left a b le := by
    change (if a ≤ b then b else a) = a
    split
    · rename_i ge
      exact UInt32.le_antisymm le ge
    · rfl
  max_eq_right a b notLe := by
    change (if a ≤ b then b else a) = b
    rw [if_pos ((UInt32.le_total a b).resolve_right notLe)]

namespace Node

structure Bounded (n : Node) : Prop where
  least : n.children.isEmpty = false → ∃ id ∈ n.children.keys, id.row = n.leastRow
  above : ∀ id ∈ n.children.keys, n.leastRow ≤ id.row
  greatest : n.children.isEmpty = false → ∃ id ∈ n.children.keys, id.row = n.greatestRow
  below : ∀ id ∈ n.children.keys, id.row ≤ n.greatestRow

def adopt (n : Node) (id : CellId) (c : Nat) : Node :=
  { n.widen id.row with children := n.children.insert id c }

/-- A node without its links to neighbours and its hidden maps. -/
def core (n : Node) : Node := { n with next := none, prev := none, layers := #[] }

theorem core_fields {m n : Node} (same : m.core = n.core) :
    m.id = n.id ∧ m.parent = n.parent ∧ m.children = n.children ∧ m.leastRow = n.leastRow ∧
      m.greatestRow = n.greatestRow := by
  simp only [core, mk.injEq] at same
  simp [same]

theorem bare_links {m n : Node} (same : m.bare = n.bare) : m.next = n.next ∧ m.prev = n.prev := by
  simp only [bare, mk.injEq] at same
  simp [same]

theorem adopt_children (n : Node) (id : CellId) (c : Nat) :
    (n.adopt id c).children = n.children.insert id c := rfl

theorem adopt_frame (n : Node) (id : CellId) (c : Nat) :
    (n.adopt id c).id = n.id ∧ (n.adopt id c).parent = n.parent ∧ (n.adopt id c).next = n.next ∧
      (n.adopt id c).prev = n.prev ∧ (n.adopt id c).layers = n.layers := by
  rw [adopt, widen]
  split <;> exact ⟨rfl, rfl, rfl, rfl, rfl⟩

/-- A first child sets both bounds, and a later one moves at most one of them to its own row. -/
theorem Bounded.adopt {n : Node} (bounded : n.Bounded) (id : CellId) (c : Nat) :
    (n.adopt id c).Bounded := by
  have members (other : CellId) :
      other ∈ (n.adopt id c).children.keys ↔ other = id ∨ other ∈ n.children.keys := by
    rw [adopt_children, OrderedMap.mem_keys_insert]
  cases empty : n.children.isEmpty with
  | true =>
    have none (other : CellId) : other ∉ n.children.keys := by
      simp [OrderedMap.mem_keys_iff, (OrderedMap.isEmpty_iff _).mp empty other]
    have least : (n.adopt id c).leastRow = id.row := by simp [Node.adopt, widen, empty]
    have greatest : (n.adopt id c).greatestRow = id.row := by simp [Node.adopt, widen, empty]
    refine ⟨fun _ => ⟨id, ?_⟩, ?_, fun _ => ⟨id, ?_⟩, ?_⟩
    · exact ⟨(members id).mpr (.inl rfl), least.symm⟩
    · intro other member
      have same := ((members other).mp member).resolve_right (none other)
      rw [same, least]
      exact UInt32.le_refl _
    · exact ⟨(members id).mpr (.inl rfl), greatest.symm⟩
    · intro other member
      have same := ((members other).mp member).resolve_right (none other)
      rw [same, greatest]
      exact UInt32.le_refl _
  | false =>
    obtain ⟨low, lowMember, lowRow⟩ := bounded.least empty
    obtain ⟨high, highMember, highRow⟩ := bounded.greatest empty
    have least : (n.adopt id c).leastRow = min n.leastRow id.row := by
      simp [Node.adopt, widen, empty]
    have greatest : (n.adopt id c).greatestRow = max n.greatestRow id.row := by
      simp [Node.adopt, widen, empty]
    refine ⟨?_, ?_, ?_, ?_⟩
    · intro _
      rw [least]
      rcases Std.min_eq_or (a := n.leastRow) (b := id.row) with same | same
      · exact ⟨low, (members low).mpr (.inr lowMember), by rw [same, lowRow]⟩
      · exact ⟨id, (members id).mpr (.inl rfl), same.symm⟩
    · intro other member
      rw [least]
      rcases (members other).mp member with rfl | old
      · exact Std.min_le_right
      · exact Std.le_trans Std.min_le_left (bounded.above other old)
    · intro _
      rw [greatest]
      rcases Std.max_eq_or (a := n.greatestRow) (b := id.row) with same | same
      · exact ⟨high, (members high).mpr (.inr highMember), by rw [same, highRow]⟩
      · exact ⟨id, (members id).mpr (.inl rfl), same.symm⟩
    · intro other member
      rw [greatest]
      rcases (members other).mp member with rfl | old
      · exact Std.right_le_max
      · exact Std.le_trans (bounded.below other old) Std.left_le_max

end Node

namespace Tree

variable {t u : Tree} {i j k p v : Nat} {n : Node} {id : CellId} {hidden : Bool} {spec : NodeSpec}

/-- Parents come before their children and the two name each other, links stay inside the tree,
and row bounds are exact. -/
structure Shape (t : Tree) : Prop where
  root : ∃ n, t.nodes[0]? = some n ∧ n.parent = none
  parent : ∀ {i : Nat} {n : Node}, t.nodes[i]? = some n → i ≠ 0 →
    ∃ p < i, n.parent = some p ∧ (t.children p).get? n.id = some i
  child : ∀ {i : Nat} {id : CellId} {c : Nat}, (t.children i).get? id = some c →
    ∃ n, t.nodes[c]? = some n ∧ n.id = id ∧ n.parent = some i
  links : ∀ {i : Nat} {n : Node} {k : Nat}, t.nodes[i]? = some n →
    n.next = some k ∨ n.prev = some k → k < t.size
  bounded : ∀ {i : Nat} {n : Node}, t.nodes[i]? = some n → n.Bounded

theorem lt_size (here : t.nodes[i]? = some n) : i < t.size :=
  (Array.getElem?_eq_some_iff.mp here).1

theorem exists_node (inside : i < t.size) : ∃ n, t.nodes[i]? = some n :=
  ⟨_, Array.getElem?_eq_getElem inside⟩

theorem children_of_node (here : t.nodes[i]? = some n) : t.children i = n.children := by
  simp [children, here]

theorem exists_parent_of_child {c : Nat} (entry : (t.children i).get? id = some c) :
    ∃ n, t.nodes[i]? = some n ∧ n.children.get? id = some c := by
  cases here : t.nodes[i]? with
  | none => simp [children, here] at entry
  | some n => exact ⟨n, rfl, by rwa [children_of_node here] at entry⟩

theorem exists_entry_of_findByName {name : String} {c : Nat}
    (found : t.findByName i name = some c) : ∃ id, (t.children i).get? id = some c :=
  OrderedMap.exists_get?_of_mem_values (List.mem_of_find?_eq_some found)

theorem Shape.pos (shape : t.Shape) : 0 < t.size := by
  obtain ⟨n, here, -⟩ := shape.root
  exact lt_size here

/-- Children come after their parents. -/
theorem Shape.lt_child (shape : t.Shape) {c : Nat} (entry : (t.children i).get? id = some c) :
    i < c ∧ c < t.size := by
  obtain ⟨n, here, -, above⟩ := shape.child entry
  refine ⟨?_, lt_size here⟩
  by_cases root : c = 0
  · obtain ⟨m, rootHere, none⟩ := shape.root
    rw [root, rootHere] at here
    cases here
    rw [none] at above
    cases above
  · obtain ⟨p, before, same, -⟩ := shape.parent here root
    rw [above] at same
    cases same
    exact before

/-- A node is listed in its parent under its own id and nowhere else. -/
theorem Shape.listed_iff (shape : t.Shape) (here : t.nodes[i]? = some n) :
    (t.children p).get? id = some i ↔ n.parent = some p ∧ id = n.id := by
  constructor
  · intro entry
    obtain ⟨m, there, same, above⟩ := shape.child entry
    rw [here] at there
    cases there
    exact ⟨above, same.symm⟩
  · rintro ⟨above, rfl⟩
    by_cases root : i = 0
    · obtain ⟨m, rootHere, none⟩ := shape.root
      rw [root, rootHere] at here
      cases here
      rw [none] at above
      cases above
    · obtain ⟨q, -, same, entry⟩ := shape.parent here root
      rw [above] at same
      cases same
      exact entry

/-- The shape does not depend on hidden maps, nor on what the links inside the tree are. -/
theorem Shape.of_core (same : ∀ i : Nat, u.nodes[i]?.map Node.core = t.nodes[i]?.map Node.core)
    (links : ∀ {i : Nat} {n : Node} {k : Nat}, u.nodes[i]? = some n →
      n.next = some k ∨ n.prev = some k → k < t.size)
    (shape : t.Shape) : u.Shape := by
  have back {i : Nat} {n : Node} (here : u.nodes[i]? = some n) :
      ∃ m, t.nodes[i]? = some m ∧ m.core = n.core :=
    Option.map_eq_some_iff.mp (by rw [← same i, here]; rfl)
  have forth {i : Nat} {m : Node} (here : t.nodes[i]? = some m) :
      ∃ n, u.nodes[i]? = some n ∧ n.core = m.core :=
    Option.map_eq_some_iff.mp (by rw [same i, here]; rfl)
  have children (i : Nat) : u.children i = t.children i := by
    have maps := congrArg (Option.map Node.children) (same i)
    simp only [Option.map_map] at maps
    exact congrArg (·.getD .empty) maps
  have size : t.size ≤ u.size := by
    by_cases positive : t.size = 0
    · omega
    · obtain ⟨m, last⟩ := exists_node (show t.size - 1 < t.size by omega)
      obtain ⟨n, here, -⟩ := forth last
      have := lt_size here
      omega
  constructor
  case root =>
    obtain ⟨m, here, none⟩ := shape.root
    obtain ⟨n, there, core⟩ := forth here
    obtain ⟨-, above, -⟩ := Node.core_fields core
    exact ⟨n, there, above.trans none⟩
  case parent =>
    intro i n here root
    obtain ⟨m, there, core⟩ := back here
    obtain ⟨p, before, above, entry⟩ := shape.parent there root
    obtain ⟨named, same, -⟩ := Node.core_fields core
    rw [named] at entry
    exact ⟨p, before, same.symm.trans above, by rwa [children]⟩
  case child =>
    intro i id c entry
    rw [children] at entry
    obtain ⟨m, there, named, above⟩ := shape.child entry
    obtain ⟨n, here, core⟩ := forth there
    obtain ⟨sameName, sameParent, -⟩ := Node.core_fields core
    exact ⟨n, here, sameName.trans named, sameParent.trans above⟩
  case links =>
    intro i n k here link
    exact Nat.lt_of_lt_of_le (links here link) size
  case bounded =>
    intro i n here
    obtain ⟨m, there, core⟩ := back here
    obtain ⟨-, -, keys, least, greatest⟩ := Node.core_fields core
    obtain ⟨low, above, high, below⟩ := shape.bounded there
    rw [keys, least] at low above
    rw [keys, greatest] at high below
    exact ⟨low, above, high, below⟩

theorem Shape.of_frame (same : u.frame = t.frame) (shape : t.Shape) : u.Shape := by
  apply shape.of_core (fun i => map_eq_of_frame same i Node.core fun _ => rfl)
  intro i n k here link
  obtain ⟨m, there, bare⟩ := node_of_frame same here
  obtain ⟨next, prev⟩ := Node.bare_links bare
  rw [← next, ← prev] at link
  exact shape.links there link

structure Aligned (t : Tree) : Prop where
  layers : ∀ {i : Nat} {n : Node}, t.nodes[i]? = some n → n.layers.size = t.versionCount
  nonempty : 0 < t.versionCount
  active : t.version = 0 ∨ t.version + 1 = t.versionCount

theorem Aligned.version_lt (aligned : t.Aligned) : t.version < t.versionCount := by
  have nonempty := aligned.nonempty
  rcases aligned.active with first | last <;> omega

structure Sound (t : Tree) : Prop where
  shape : t.Shape
  aligned : t.Aligned

theorem versionCount_of_root (here : t.nodes[0]? = some n) : t.versionCount = n.layers.size := by
  simp [versionCount, here]

/-- Layers are aligned as soon as all nodes have equally many. -/
theorem Aligned.of_size (count : Nat) (rooted : 0 < t.size)
    (layers : ∀ {i : Nat} {n : Node}, t.nodes[i]? = some n → n.layers.size = count)
    (nonempty : 0 < count) (active : t.version = 0 ∨ t.version + 1 = count) :
    t.Aligned ∧ t.versionCount = count := by
  obtain ⟨n, here⟩ := exists_node rooted
  have same : t.versionCount = count := (versionCount_of_root here).trans (layers here)
  rw [← same] at nonempty active
  exact ⟨⟨fun there => (layers there).trans same.symm, nonempty, active⟩, same⟩

/-- Layers stay aligned when every node keeps as many as it had. -/
theorem Aligned.of_same (aligned : t.Aligned) (rooted : 0 < u.size)
    (version : u.version = t.version) (same : ∀ {j : Nat} {m : Node}, u.nodes[j]? = some m →
      ∃ n, t.nodes[j]? = some n ∧ m.layers.size = n.layers.size) :
    u.Aligned ∧ u.versionCount = t.versionCount := by
  refine Aligned.of_size t.versionCount rooted ?_ aligned.nonempty ?_
  · intro j m here
    obtain ⟨n, there, size⟩ := same here
    rw [size, aligned.layers there]
  · rw [version]
    exact aligned.active

@[simp] theorem size_setHidden : (t.setHidden i v id hidden).size = t.size :=
  size_eq_of_frame frame_setHidden

theorem Sound.setHidden (sound : t.Sound) :
    (t.setHidden i v id hidden).Sound ∧
      (t.setHidden i v id hidden).versionCount = t.versionCount := by
  have rooted : 0 < (t.setHidden i v id hidden).size := by
    rw [size_setHidden]
    exact sound.shape.pos
  have aligned := sound.aligned.of_same rooted version_setHidden size_layers_setHidden
  exact ⟨⟨sound.shape.of_frame frame_setHidden, aligned.1⟩, aligned.2⟩

theorem Sound.toggle (sound : t.Sound) : (t.toggle i id hidden).Sound := sound.setHidden.1

theorem Sound.reset (sound : t.Sound) : t.reset.Sound :=
  ⟨sound.shape.of_frame frame_reset,
    ⟨sound.aligned.layers, sound.aligned.nonempty, .inl rfl⟩⟩

theorem Sound.layerToggle {l : LayerHandle} (sound : t.Sound)
    (done : t.layerToggle l id hidden = .ok u) : u.Sound := by
  obtain ⟨-, rfl⟩ := layerToggle_ok done
  exact sound.setHidden.1

theorem Sound.layer (sound : t.Sound) (inside : i < t.size) (there : k < t.versionCount) :
    ∃ m, t.layer? i k = some m := by
  obtain ⟨n, here⟩ := exists_node inside
  rw [← sound.aligned.layers here] at there
  exact ⟨n.layers[k], by simp [layer?, here, there]⟩

theorem Sound.isHidden?_toggle (sound : t.Sound) (inside : i < t.size) (j : Nat)
    (other : CellId) : (t.toggle i id hidden).isHidden? j other =
      if j = i ∧ other = id then some hidden else t.isHidden? j other := by
  obtain ⟨m, active⟩ := sound.layer inside sound.aligned.version_lt
  rw [isHidden?, isHidden?, hiddenMap_eq, hiddenMap_eq, version_toggle, Tree.toggle,
    layer?_setHidden]
  by_cases here : j = i
  · subst here
    by_cases same : other = id <;> simp [active, same]
  · simp [here]

theorem children_new (rootId : CellId) (i : Nat) : (new rootId).children i = .empty := by
  cases i <;> rfl

theorem new_sound (rootId : CellId) : (new rootId).Sound := by
  have only {i : Nat} {n : Node} (here : (new rootId).nodes[i]? = some n) :
      i = 0 ∧ n = { id := rootId, layers := #[.empty] } := by
    rw [new, List.getElem?_toArray, List.getElem?_singleton] at here
    split at here
    · rename_i zero
      exact ⟨zero, (Option.some.inj here).symm⟩
    · cases here
  refine ⟨⟨⟨_, rfl, rfl⟩, ?_, ?_, ?_, ?_⟩, ?_⟩
  · intro i n here positive
    exact absurd (only here).1 positive
  · intro i id c entry
    rw [children_new] at entry
    cases entry
  · intro i n k here link
    rw [(only here).2] at link
    simp at link
  · intro i n here
    rw [(only here).2]
    constructor <;> simp [OrderedMap.keys, OrderedMap.empty, OrderedMap.isEmpty]
  · have rooted : 0 < (new rootId).size := Nat.one_pos
    refine (Aligned.of_size 1 rooted ?_ Nat.one_pos (.inl rfl)).1
    intro i n here
    rw [(only here).2]
    rfl

end Tree
end LayeredTable
