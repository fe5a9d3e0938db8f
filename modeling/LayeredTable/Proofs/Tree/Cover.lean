import LayeredTable.Proofs.Tree.Fork
import LayeredTable.Proofs.Tree.Growth

/-! Two ways to change a tree step by step, by growing it and by showing and hiding children, and
what the layers know of the children while that goes on. -/
namespace LayeredTable
namespace Tree

inductive Toggled (t : Tree) : Tree → Prop
  | refl : Toggled t t
  | step {u : Tree} {i : Nat} {id : CellId} {hidden : Bool} : Toggled t u →
      id ∈ (u.children i).keys → Toggled t (u.toggle i id hidden)

variable {t u m : Tree} {i j w : Nat} {id : CellId} {hidden : Bool}

namespace Toggled

theorem trans (first : Toggled t m) (second : Toggled m u) : Toggled t u := by
  induction second with
  | refl => exact first
  | step _ known ih => exact .step ih known

theorem frame (toggled : Toggled t u) : u.frame = t.frame := by
  induction toggled with
  | refl => rfl
  | step _ _ ih => rw [frame_toggle, ih]

theorem version (toggled : Toggled t u) : u.version = t.version := by
  induction toggled with
  | refl => rfl
  | step _ _ ih => rw [version_toggle, ih]

theorem layer? (toggled : Toggled t u) (other : w ≠ t.version) : u.layer? j w = t.layer? j w := by
  induction toggled with
  | refl => rfl
  | step before _ ih =>
    rw [toggle, layer?_setHidden, before.version]
    simp [other, ih]

theorem sound (toggled : Toggled t u) (sound : t.Sound) :
    u.Sound ∧ u.versionCount = t.versionCount := by
  induction toggled with
  | refl => exact ⟨sound, rfl⟩
  | step _ _ ih => exact ⟨ih.1.setHidden.1, ih.1.setHidden.2.trans ih.2⟩

end Toggled

inductive Grown (t : Tree) : Tree → Prop
  | refl : Grown t t
  | add {u v : Tree} {parent i : Nat} {spec : NodeSpec} {hidden : Bool} : Grown t u →
      u.add parent spec hidden = .ok (i, v) → Grown t v
  | linkNext {u v : Tree} {i k j : Nat} : Grown t u → u.linkNext i k = .ok (j, v) → Grown t v
  | linkPrev {u v : Tree} {i k j : Nat} : Grown t u → u.linkPrev i k = .ok (j, v) → Grown t v

theorem Grown.trans (first : Grown t m) (second : Grown m u) : Grown t u := by
  induction second with
  | refl => exact first
  | add _ added ih => exact ih.add added
  | linkNext _ linked ih => exact ih.linkNext linked
  | linkPrev _ linked ih => exact ih.linkPrev linked

/-- Every layer of a node knows all its children. -/
def Covers (t : Tree) : Prop := ∀ i w layer, t.layer? i w = some layer →
  ∀ id ∈ (t.children i).keys, id ∈ layer.keys

/-- No layer of a node knows anything but children. -/
def Confined (t : Tree) : Prop := ∀ i w layer, t.layer? i w = some layer →
  ∀ id ∈ layer.keys, id ∈ (t.children i).keys

theorem layer_of_setHidden {layer : HiddenMap}
    (here : (t.setHidden i w id hidden).layer? j v = some layer) :
    ∃ before, t.layer? j v = some before ∧
      (layer = before ∨ j = i ∧ layer = before.insert id hidden) := by
  rw [layer?_setHidden] at here
  split at here
  · rename_i same
    obtain ⟨before, there, rfl⟩ := Option.map_eq_some_iff.mp here
    exact ⟨before, there, .inr ⟨same.1, rfl⟩⟩
  · exact ⟨layer, here, .inl rfl⟩

theorem layer_of_fork (sound : t.Sound) (inside : i < t.size) {layer : HiddenMap}
    (here : (t.fork i).2.layer? j v = some layer) :
    ∃ w before, t.layer? j w = some before ∧ layer.keys = before.keys := by
  rw [layer?_fork sound inside] at here
  split at here
  · exact ⟨v, layer, here, rfl⟩
  · split at here
    · obtain ⟨before, there, rfl⟩ := Option.map_eq_some_iff.mp here
      exact ⟨t.version, before, there, OrderedMap.keys_map _ _⟩
    · cases here

theorem Covers.setHidden (covers : t.Covers) : (t.setHidden i w id hidden).Covers := by
  intro j v layer here other child
  rw [children_eq_of_frame frame_setHidden] at child
  rcases layer_of_setHidden here with ⟨before, there, rfl | ⟨-, rfl⟩⟩
  · exact covers j v _ there other child
  · exact OrderedMap.mem_keys_insert.mpr (.inr (covers j v before there other child))

theorem Confined.setHidden (confined : t.Confined) (known : id ∈ (t.children i).keys) :
    (t.setHidden i w id hidden).Confined := by
  intro j v layer here other listed
  rw [children_eq_of_frame frame_setHidden]
  rcases layer_of_setHidden here with ⟨before, there, rfl | ⟨rfl, rfl⟩⟩
  · exact confined j v _ there other listed
  · rcases OrderedMap.mem_keys_insert.mp listed with rfl | old
    · exact known
    · exact confined j v before there other old

theorem Covers.fork (covers : t.Covers) (sound : t.Sound) (inside : i < t.size) :
    (t.fork i).2.Covers := by
  intro j v layer here id child
  rw [children_eq_of_frame (frame_fork sound inside)] at child
  obtain ⟨w, before, there, keys⟩ := layer_of_fork sound inside here
  rw [keys]
  exact covers j w before there id child

theorem Confined.fork (confined : t.Confined) (sound : t.Sound) (inside : i < t.size) :
    (t.fork i).2.Confined := by
  intro j v layer here id listed
  rw [children_eq_of_frame (frame_fork sound inside)]
  obtain ⟨w, before, there, keys⟩ := layer_of_fork sound inside here
  rw [keys] at listed
  exact confined j w before there id listed

theorem Toggled.covers (toggled : Toggled t u) (covers : t.Covers) : u.Covers := by
  induction toggled with
  | refl => exact covers
  | step _ _ ih => exact ih.setHidden

theorem Toggled.confined (toggled : Toggled t u) (confined : t.Confined) : u.Confined := by
  induction toggled with
  | refl => exact confined
  | step _ known ih => exact ih.setHidden known

/-- In a layer that knows all children, each has a visibility. -/
theorem Covers.isHidden? (covers : t.Covers) (sound : t.Sound)
    (child : id ∈ (t.children i).keys) : ∃ hidden, t.isHidden? i id = some hidden := by
  obtain ⟨c, entry⟩ := OrderedMap.exists_get?_of_mem_keys child
  obtain ⟨below, within⟩ := sound.shape.lt_child entry
  have inside : i < t.size := by omega
  obtain ⟨layer, active⟩ := sound.layer inside sound.aligned.version_lt
  rw [Tree.isHidden?, hiddenMap_eq, active]
  exact OrderedMap.exists_get?_of_mem_keys (covers i t.version layer active id child)

theorem Confined.mem_of_hiddenMap (confined : t.Confined) (known : id ∈ (t.hiddenMap i).keys) :
    id ∈ (t.children i).keys := by
  rw [hiddenMap_eq] at known
  cases active : t.layer? i t.version with
  | none =>
    rw [active] at known
    cases known
  | some layer =>
    rw [active] at known
    exact confined i t.version layer active id known

/-- A tree that was never forked, in which each layer knows exactly the children. -/
structure Fresh (t : Tree) : Prop where
  sound : t.Sound
  version : t.version = 0
  single : t.versionCount = 1
  covers : t.Covers
  confined : t.Confined

theorem new_fresh (rootId : CellId) : (new rootId).Fresh := by
  refine ⟨new_sound rootId, rfl, rfl, ?_, ?_⟩
  · intro i w layer _ id child
    rw [children_new] at child
    cases child
  · intro i w layer here id listed
    have empty : layer = .empty := by
      cases i with
      | zero => cases w <;> simp_all [layer?, new]
      | succ i => simp [layer?, new] at here
    rw [empty] at listed
    cases listed

variable {parent k : Nat} {spec : NodeSpec}

theorem children_add (added : t.add parent spec hidden = .ok (i, u)) (j : Nat) : u.children j =
    if j = parent then (t.children parent).insert spec.id i else t.children j := by
  obtain ⟨rfl, inside, -, rfl⟩ := add_ok added
  rw [children_eq_of_frame frame_setHidden, children_attach inside]

theorem size_add (added : t.add parent spec hidden = .ok (i, u)) : u.size = t.size + 1 := by
  obtain ⟨-, -, -, rfl⟩ := add_ok added
  rw [size_setHidden, size_attach]

/-- The new node knows nothing, and of the others only the parent learns of it, in one layer. -/
theorem layer?_add (added : t.add parent spec hidden = .ok (i, u)) (j : Nat) : u.layer? j w =
    if j = i then (if w < t.versionCount then some .empty else none)
    else if j = parent ∧ w = t.version then (t.layer? j w).map (·.insert spec.id hidden)
    else t.layer? j w := by
  obtain ⟨rfl, inside, -, rfl⟩ := add_ok added
  have apart : ¬ t.size = parent := by omega
  rw [layer?_setHidden, layer?_attach]
  by_cases last : j = t.size
  · simp [last, apart]
  · simp [last]

theorem children_of_outside (outside : t.size ≤ i) : t.children i = .empty := by
  rw [children, Array.getElem?_eq_none outside]
  rfl

theorem Fresh.later (fresh : t.Fresh) (later : w ≠ t.version) : t.layer? i w = none := by
  cases here : t.nodes[i]? with
  | none => simp [layer?, here]
  | some n =>
    have size := fresh.sound.aligned.layers here
    have version := fresh.version
    have single := fresh.single
    have outside : ¬ w < n.layers.size := by omega
    simp [layer?, here, outside]

theorem Confined.add (confined : t.Confined) (added : t.add parent spec hidden = .ok (i, u)) :
    u.Confined := by
  intro j w layer here id listed
  rw [layer?_add added] at here
  rw [children_add added]
  by_cases new : j = i
  · rw [if_pos new] at here
    split at here
    · cases here
      cases listed
    · cases here
  · rw [if_neg new] at here
    split at here
    · rename_i active
      obtain ⟨before, there, rfl⟩ := Option.map_eq_some_iff.mp here
      rw [if_pos active.1, OrderedMap.mem_keys_insert, ← active.1]
      rw [OrderedMap.mem_keys_insert] at listed
      exact listed.imp_right (confined j w before there id)
    · have known := confined j w layer here id listed
      split
      · rename_i above
        rw [OrderedMap.mem_keys_insert, ← above]
        exact .inr known
      · exact known

/-- A parent has no other layer than the one that learns of the new child. -/
theorem Fresh.covers_add (fresh : t.Fresh) (added : t.add parent spec hidden = .ok (i, u)) :
    u.Covers := by
  obtain ⟨last, inside, -, -⟩ := add_ok added
  intro j w layer here id child
  rw [layer?_add added] at here
  rw [children_add added] at child
  by_cases new : j = i
  · have apart : ¬ j = parent := by omega
    rw [if_neg apart, children_of_outside (by omega)] at child
    cases child
  · rw [if_neg new] at here
    by_cases active : w = t.version
    · by_cases above : j = parent
      · subst above
        rw [if_pos ⟨rfl, active⟩] at here
        obtain ⟨before, there, rfl⟩ := Option.map_eq_some_iff.mp here
        rw [if_pos rfl, OrderedMap.mem_keys_insert] at child
        exact OrderedMap.mem_keys_insert.mpr (child.imp_right (fresh.covers j w before there id))
      · rw [if_neg fun both => above both.1] at here
        rw [if_neg above] at child
        exact fresh.covers j w layer here id child
    · rw [if_neg fun both => active both.2, fresh.later active] at here
      cases here

theorem Fresh.add (fresh : t.Fresh) (added : t.add parent spec hidden = .ok (i, u)) :
    u.Fresh := by
  obtain ⟨sound, count⟩ := fresh.sound.add added
  obtain ⟨-, -, -, grown⟩ := add_ok added
  have version : u.version = t.version := by
    rw [grown]
    rfl
  exact ⟨sound, version.trans fresh.version, count.trans fresh.single, fresh.covers_add added,
    fresh.confined.add added⟩

structure Relinked (t u : Tree) : Prop where
  children : ∀ i, u.children i = t.children i
  layers : ∀ i w, u.layer? i w = t.layer? i w
  version : u.version = t.version

theorem relinked_relink (f : Node → Node) (core : ∀ n, (f n).core = n.core)
    (layers : ∀ n, (f n).layers = n.layers) : t.Relinked (t.relink i f) := by
  refine ⟨fun j => ?_, fun j w => layer?_relink f layers j w, rfl⟩
  have kept (n : Node) : (f n).children = n.children := (Node.core_fields (core n)).2.2.1
  rw [Tree.children, Tree.children, relink, Array.getElem?_modify]
  split
  · cases t.nodes[j]? <;> simp [kept]
  · rfl

theorem relinked_linkNext (linked : t.linkNext i k = .ok (j, u)) : t.Relinked u := by
  rcases linkNext_ok linked with ⟨-, rfl | rfl⟩
  · exact ⟨fun _ => rfl, fun _ _ => rfl, rfl⟩
  · exact relinked_relink _ (fun _ => rfl) fun _ => rfl

theorem relinked_linkPrev (linked : t.linkPrev i k = .ok (j, u)) : t.Relinked u := by
  rcases linkPrev_ok linked with ⟨-, rfl | rfl⟩
  · exact ⟨fun _ => rfl, fun _ _ => rfl, rfl⟩
  · exact relinked_relink _ (fun _ => rfl) fun _ => rfl

theorem Fresh.relinked (fresh : t.Fresh) (relinked : t.Relinked u)
    (sound : u.Sound ∧ u.versionCount = t.versionCount) : u.Fresh := by
  refine ⟨sound.1, relinked.version.trans fresh.version, sound.2.trans fresh.single, ?_, ?_⟩
  · intro j w layer here
    rw [relinked.layers] at here
    rw [relinked.children]
    exact fresh.covers j w layer here
  · intro j w layer here
    rw [relinked.layers] at here
    rw [relinked.children]
    exact fresh.confined j w layer here

theorem Grown.fresh (grown : Grown t u) (fresh : t.Fresh) : u.Fresh := by
  induction grown with
  | refl => exact fresh
  | add _ added ih => exact ih.add added
  | linkNext _ linked ih => exact ih.relinked (relinked_linkNext linked) (ih.sound.linkNext linked)
  | linkPrev _ linked ih => exact ih.relinked (relinked_linkPrev linked) (ih.sound.linkPrev linked)

end Tree
end LayeredTable
