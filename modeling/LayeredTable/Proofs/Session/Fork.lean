import LayeredTable.Proofs.Session.Sound

/-! What a fork does to a tree in use. Resets leave layers behind that no version names any more,
and the walk over the tree drops layers of nodes while others still wait for it; every node is
forked from its own active layer all the same. -/
namespace LayeredTable

namespace Node

variable {n : Node} {version w : Nat}

/-- The layer that a fork of a node reads. -/
theorem getElem?_layers_active (there : version < n.layers.size) :
    n.layers[version]? = some (n.layer version) := by
  simp [layer, there]

/-- The layer that a fork of a node adds knows the same ids and hides them all. -/
theorem exists_fresh_layer (there : version < n.layers.size) :
    ∃ fresh, (n.fork version).layers[version + 1]? = some fresh ∧
      fresh.keys = (n.layer version).keys ∧ ∀ id ∈ fresh.keys, fresh.get? id = some true := by
  refine ⟨(n.layer version).map fun _ => true, ?_, OrderedMap.keys_map _ _, fun id known => ?_⟩
  · rw [getElem?_layers_fork there, if_neg (Nat.not_succ_le_self version), if_pos rfl]
  · rw [OrderedMap.keys_map] at known
    obtain ⟨hidden, found⟩ := OrderedMap.exists_get?_of_mem_keys known
    rw [OrderedMap.get?_map, found]
    rfl

end Node

namespace Tree

variable {t : Tree} {i : Nat}

/-- A fork of a tree in use, asked for at any of its nodes, opens the next version. Every node keeps
its maps up to the version that was active and gets one that knows the ids of its active map and
hides them all; later maps are gone, and nothing but maps changes. Which node was asked shows in the
handle alone. -/
theorem fork_exact (reachable : t.Reachable) (inside : i < t.size) :
    (t.fork i).1 = ⟨i, t.version + 1⟩ ∧ (t.fork i).2.version = t.version + 1 ∧
    (t.fork i).2.frame = t.frame ∧
    (∀ (j : Nat) (n : Node), t.nodes[j]? = some n →
      ∃ m active fresh, (t.fork i).2.nodes[j]? = some m ∧ n.layers[t.version]? = some active ∧
        m.layers[t.version + 1]? = some fresh ∧ fresh.keys = active.keys ∧
        (∀ id ∈ fresh.keys, fresh.get? id = some true) ∧
        (∀ w ≤ t.version, ∃ kept, n.layers[w]? = some kept ∧ m.layers[w]? = some kept) ∧
        ∀ w, t.version + 1 < w → m.layers[w]? = none) ∧
    ∀ k < t.size, (t.fork k).2 = (t.fork i).2 := by
  have sound := reachable.sound
  refine ⟨handle_fork, version_fork, frame_fork sound inside, fun j n here => ?_,
    fun k inside' => fork_snd_eq sound.shape inside inside'⟩
  have active : t.version < n.layers.size := by
    rw [sound.aligned.layers here]
    exact sound.aligned.version_lt
  obtain ⟨fresh, added, keys, hidden⟩ := Node.exists_fresh_layer active
  refine ⟨n.fork t.version, n.layer t.version, fresh, ?_, Node.getElem?_layers_active active, added,
    keys, hidden, fun w old => ?_, fun w later => ?_⟩
  · rw [getElem?_nodes_fork sound inside, here]
    rfl
  · have there : n.layers[w]? = some (n.layer w) :=
      Node.getElem?_layers_active (Nat.lt_of_le_of_lt old active)
    refine ⟨n.layer w, there, ?_⟩
    rw [Node.getElem?_layers_fork active, if_pos old, there]
  · rw [Array.getElem?_eq_none_iff, Node.size_layers_fork active]
    exact later

/-- A cell is asked in a tree that went back from version 2, whose layers are still there. -/
theorem fork_exact_after_reset :
    let t := ((Session.start (.new ⟨0⟩)).run
      [.add 0 (.column 1 "a" .bool {}) false, .add 1 (.cell (.of 1 1) (.bool true)) false,
        .fork 0, .toggle 1 (.of 1 1) false, .fork 1, .reset]).tree
    (t.layer? 1 2).isSome = true ∧ (t.fork 2).1 = ⟨2, 1⟩ ∧ (t.fork 2).2.version = 1 ∧
      (t.fork 2).2.isHidden? 1 (.of 1 1) = some true ∧ (t.fork 2).2.layer? 1 2 = none ∧
      (t.fork 2).2 = (t.fork 0).2 := by
  intro t
  have reachable : t.Reachable := ⟨⟨0⟩, _, rfl⟩
  obtain ⟨handle, version, -, nodes, anywhere⟩ :=
    fork_exact reachable (show 2 < t.size by decide +kernel)
  obtain ⟨n, here⟩ := exists_node (show 1 < t.size by decide +kernel)
  obtain ⟨m, active, fresh, there, known, added, keys, hidden, -, dropped⟩ := nodes 1 n here
  have start : t.version = 0 := by decide +kernel
  have ids : t.nodes[1]?.bind (fun n => n.layers[0]?.map (·.keys)) = some [.of 1 1] := by
    decide +kernel
  rw [start] at handle version known added dropped
  simp only [here, known, Option.bind_some, Option.map_some, Option.some.injEq] at ids
  have same : (t.fork 2).2.hiddenMap 1 = fresh := by
    rw [hiddenMap_eq, layer?, there, version, Option.bind_some, added]
    rfl
  refine ⟨by decide +kernel, handle, version, ?_, ?_, (anywhere 0 (by decide +kernel)).symm⟩
  · rw [isHidden?, same]
    exact hidden _ (by rw [keys, ids]; exact List.mem_singleton_self _)
  · rw [layer?, there]
    exact dropped 2 (by decide)

end Tree
end LayeredTable
