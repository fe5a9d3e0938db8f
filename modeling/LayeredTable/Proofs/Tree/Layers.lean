import LayeredTable.OrderedMap.Lemmas
import LayeredTable.Tree.Visibility

/-! A tree falls into two parts: its frame, which is all but the hidden maps, and its layers, which
are the hidden maps by node and version. The operations on visibility keep the frame, and each
changes few layers. -/
namespace LayeredTable

namespace Node

def bare (n : Node) : Node := { n with layers := #[] }

theorem bare_fields {m n : Node} (same : m.bare = n.bare) : m.id = n.id ∧ m.type = n.type := by
  simp only [bare, mk.injEq] at same
  simp [same]

/-- Layers up to the given version stay, one is added, and later ones are dropped. -/
theorem getElem?_layers_fork {n : Node} {version : Nat} (there : version < n.layers.size)
    (w : Nat) : (n.fork version).layers[w]? =
      if w ≤ version then n.layers[w]?
      else if w = version + 1 then some ((n.layer version).map fun _ => true) else none := by
  have kept : (n.layers.extract 0 (version + 1)).size = version + 1 := by simp; omega
  rw [fork, Array.getElem?_push, kept]
  by_cases old : w ≤ version
  · have below : w < min (version + 1) n.layers.size := by omega
    have notNew : w ≠ version + 1 := by omega
    simp [old, notNew, below]
  · by_cases new : w = version + 1
    · subst new
      simp [old]
    · have above : ¬ w < min (version + 1) n.layers.size := by omega
      simp [old, new, above]

theorem size_layers_fork {n : Node} {version : Nat} (there : version < n.layers.size) :
    (n.fork version).layers.size = version + 2 := by
  simp [fork]
  omega

/-- Forking twice from one version is forking once. -/
theorem fork_fork {n : Node} {version : Nat} (there : version < n.layers.size) :
    (n.fork version).fork version = n.fork version := by
  have again : version < (n.fork version).layers.size := by
    rw [size_layers_fork there]
    omega
  have same : (n.fork version).layer version = n.layer version := by
    have kept := getElem?_layers_fork there version
    simp only [Nat.le_refl, if_true] at kept
    simp [layer, kept]
  have layers : ((n.fork version).fork version).layers = (n.fork version).layers := by
    apply Array.ext_getElem?
    intro w
    rw [getElem?_layers_fork again, same, getElem?_layers_fork there]
    split <;> simp_all
  calc (n.fork version).fork version
      = { n.fork version with layers := ((n.fork version).fork version).layers } := rfl
    _ = n.fork version := by rw [layers]

end Node

namespace Tree

variable {t u : Tree} {i j v w : Nat} {id other : CellId} {hidden : Bool}

/-- The nodes without their hidden maps. -/
def frame (t : Tree) : Array Node := t.nodes.map Node.bare

def layer? (t : Tree) (i version : Nat) : Option HiddenMap :=
  t.nodes[i]?.bind fun n => n.layers[version]?

@[simp] theorem size_frame (t : Tree) : t.frame.size = t.size := by simp [frame, size]

theorem size_eq_of_frame (same : u.frame = t.frame) : u.size = t.size := by
  rw [← size_frame, same, size_frame]

/-- A look at a node that does not touch its hidden maps sees its frame only. -/
theorem map_eq_of_frame {α : Type} (same : u.frame = t.frame) (i : Nat) (f : Node → α)
    (free : ∀ n : Node, f n.bare = f n) : u.nodes[i]?.map f = t.nodes[i]?.map f := by
  have bare := congrArg (fun nodes : Array Node => nodes[i]?.map f) same
  simpa [frame, Option.map_map, Function.comp_def, free] using bare

theorem node_of_frame {n : Node} (same : u.frame = t.frame) (here : u.nodes[i]? = some n) :
    ∃ m, t.nodes[i]? = some m ∧ m.bare = n.bare := by
  have bare := map_eq_of_frame same i Node.bare fun _ => rfl
  rw [here] at bare
  exact Option.map_eq_some_iff.mp bare.symm

theorem children_eq_of_frame (same : u.frame = t.frame) (i : Nat) :
    u.children i = t.children i := by
  rw [children, children, map_eq_of_frame same i (·.children) fun _ => rfl]

theorem hiddenMap_eq (t : Tree) (i : Nat) : t.hiddenMap i = (t.layer? i t.version).getD .empty := by
  rw [hiddenMap, layer?]
  cases t.nodes[i]? <;> simp [Node.layer]

@[simp] theorem version_setHidden : (t.setHidden i v id hidden).version = t.version := rfl

theorem getElem?_nodes_setHidden : (t.setHidden i v id hidden).nodes[j]? =
    if i = j then t.nodes[j]?.map fun n =>
      { n with layers := n.layers.modify v (·.insert id hidden) }
    else t.nodes[j]? := by
  rw [setHidden, Array.getElem?_modify]

@[simp] theorem frame_setHidden : (t.setHidden i v id hidden).frame = t.frame := by
  apply Array.ext_getElem?
  intro j
  rw [frame, frame, Array.getElem?_map, Array.getElem?_map, getElem?_nodes_setHidden]
  split
  · cases t.nodes[j]? <;> rfl
  · rfl

/-- Writing changes one layer of one node. -/
theorem layer?_setHidden : (t.setHidden i v id hidden).layer? j w =
    if j = i ∧ w = v then (t.layer? j w).map (·.insert id hidden) else t.layer? j w := by
  rw [layer?, layer?, getElem?_nodes_setHidden]
  by_cases node : i = j
  · cases t.nodes[j]? with
    | none => simp
    | some n =>
      by_cases version : v = w
      · simp [node, version, Array.getElem?_modify]
      · have other : ¬ w = v := fun same => version same.symm
        simp [node, version, other, Array.getElem?_modify]
  · have other : ¬ j = i := fun same => node same.symm
    simp [node, other]

theorem size_layers_setHidden {m : Node} (here : (t.setHidden i v id hidden).nodes[j]? = some m) :
    ∃ n, t.nodes[j]? = some n ∧ m.layers.size = n.layers.size := by
  rw [getElem?_nodes_setHidden] at here
  split at here
  · obtain ⟨n, there, rfl⟩ := Option.map_eq_some_iff.mp here
    exact ⟨n, there, Array.size_modify⟩
  · exact ⟨m, here, rfl⟩

@[simp] theorem version_toggle : (t.toggle i id hidden).version = t.version := rfl

@[simp] theorem frame_toggle : (t.toggle i id hidden).frame = t.frame := frame_setHidden

@[simp] theorem version_reset : t.reset.version = 0 := rfl

@[simp] theorem frame_reset : t.reset.frame = t.frame := rfl

@[simp] theorem layer?_reset : t.reset.layer? i v = t.layer? i v := rfl

/-- A handle writes to its layer as long as the layer is there. -/
theorem layerToggle_eq (t : Tree) (l : LayerHandle) (id : CellId) (hidden : Bool) :
    t.layerToggle l id hidden =
      if (t.layer? l.node l.version).isSome then .ok (t.setHidden l.node l.version id hidden)
      else .error (.staleLayer l.version) := by
  rw [layerToggle, layerSnapshot, layer?]
  cases t.nodes[l.node]?.bind fun n => n.layers[l.version]? <;> rfl

theorem layerToggle_ok {l : LayerHandle} (done : t.layerToggle l id hidden = .ok u) :
    (t.layer? l.node l.version).isSome ∧ u = t.setHidden l.node l.version id hidden := by
  rw [layerToggle_eq] at done
  split at done
  · rename_i there
    cases done
    exact ⟨there, rfl⟩
  · cases done

end Tree
end LayeredTable
