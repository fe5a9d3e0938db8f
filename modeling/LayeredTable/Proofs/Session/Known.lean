import LayeredTable.Proofs.Session.Versions
import LayeredTable.Proofs.View.Effect

/-! What the active layers know. A node learns of an id in the version that is active, and a reset
goes back to what version 0 has learned. So a child that was added in a later version is unknown
after a reset, until something is written under its id again. -/
namespace LayeredTable

namespace Tree

variable {t u : Tree} {i j k w : Nat} {id : CellId} {spec : NodeSpec} {hidden : Bool}

theorem excluded_eq_ok_iff : t.excluded i id = .ok hidden ↔ t.isHidden? i id = some hidden := by
  rw [excluded]
  cases t.isHidden? i id <;> simp

theorem excluded_eq_error_iff : t.excluded i id = .error (.unknownId id) ↔
    ¬ (t.isHidden? i id).isSome = true := by
  rw [excluded]
  cases t.isHidden? i id <;> simp

theorem hiddenIn?_new (rootId : CellId) (i w : Nat) (id : CellId) :
    (new rootId).hiddenIn? i w id = none := by
  rw [hiddenIn?]
  cases here : (new rootId).layer? i w with
  | none => rfl
  | some layer =>
    cases entry : layer.get? id with
    | none => exact entry
    | some hidden =>
      have child := (new_fresh rootId).confined i w layer here id
        (OrderedMap.mem_keys_of_get? entry)
      rw [children_new] at child
      cases child

theorem isSome_hiddenIn?_setHidden (other : CellId) :
    ((t.setHidden i k id hidden).hiddenIn? j w other).isSome = true ↔
      (j = i ∧ w = k ∧ other = id ∧ (t.layer? i k).isSome = true) ∨
        (t.hiddenIn? j w other).isSome = true := by
  by_cases there : (t.layer? i k).isSome = true
  · rw [hiddenIn?_setHidden there]
    split
    · rename_i here
      simp [here, there]
    · rename_i apart
      refine ⟨.inr, fun known => known.resolve_left ?_⟩
      exact fun here => apart ⟨here.1, here.2.1, here.2.2.1⟩
  · have absent : t.layer? i k = none := by simpa using there
    have same : (t.setHidden i k id hidden).layer? j w = t.layer? j w := by
      rw [layer?_setHidden]
      split
      · rename_i here
        rw [here.1, here.2, absent]
        rfl
      · rfl
    simp [hiddenIn?, same, there]

theorem hiddenIn?_add (sound : t.Sound) (added : t.add k spec hidden = .ok (i, u)) (j w : Nat)
    (id : CellId) : u.hiddenIn? j w id =
      if j = k ∧ w = t.version ∧ id = spec.id then some hidden else t.hiddenIn? j w id := by
  obtain ⟨last, inside, -, -⟩ := add_ok added
  rw [hiddenIn?, hiddenIn?, layer?_add added]
  by_cases new : j = i
  · have apart : ¬ j = k := by omega
    have unknown : t.layer? j w = none := by simp [layer?, new, last, size]
    have notParent : ¬ (j = k ∧ w = t.version ∧ id = spec.id) := fun here => apart here.1
    rw [if_pos new, if_neg notParent, unknown]
    split <;> rfl
  · rw [if_neg new]
    by_cases here : j = k ∧ w = t.version
    · obtain ⟨layer, active⟩ := sound.layer inside sound.aligned.version_lt
      by_cases same : id = spec.id <;> simp [here, active, same]
    · rw [if_neg here, if_neg fun all => here ⟨all.1, all.2.1⟩]

/-- Just the nodes that there are have an active layer. -/
theorem Sound.isSome_active_iff (sound : t.Sound) :
    (t.layer? i t.version).isSome = true ↔ i < t.size := by
  refine ⟨fun there => ?_, fun inside => (sound.isSome_layer?_iff inside).mpr ?_⟩
  · obtain ⟨layer, there⟩ := Option.isSome_iff_exists.mp there
    obtain ⟨n, here, -⟩ := Option.bind_eq_some_iff.mp there
    exact lt_size here
  · exact sound.aligned.version_lt

theorem Relinked.hiddenIn? (relinked : t.Relinked u) (i w : Nat) (id : CellId) :
    u.hiddenIn? i w id = t.hiddenIn? i w id := by
  rw [Tree.hiddenIn?, Tree.hiddenIn?, relinked.layers]

theorem excluded_fork (sound : t.Sound) (inside : j < t.size) (i : Nat) (id : CellId) :
    (t.fork j).2.excluded i id = (t.excluded i id).map fun _ => true := by
  rw [excluded, isHidden?_fork sound inside, excluded]
  cases t.isHidden? i id <;> rfl

end Tree

namespace Session

/-- Whether a step writes if a node hides an id, in the version that is active after the step. -/
def Records (s : Session) (i : Nat) (id : CellId) : Action → Prop
  | .add parent spec hidden =>
    i = parent ∧ id = spec.id ∧ ∃ j u, s.tree.add parent spec hidden = .ok (j, u)
  | .toggle j other _ => i = j ∧ id = other ∧ i < s.tree.size
  | .layerToggle k other _ => s.handles[k]? = some ⟨i, s.tree.version⟩ ∧ id = other
  | .view c p => ∃ v m, p.build c.policy ⟨s.tree, c.state⟩ = .ok v m ∧
    p.Writes c.policy ⟨s.tree, c.state⟩ v i id
  | .linkNext .. | .linkPrev .. | .fork _ | .reset | .evaluate .. => False

/-- In the course of a run an id was recorded, in version 0 or with no reset since. -/
def Learns (s : Session) (actions : List Action) (i : Nat) (id : CellId) : Prop :=
  ∃ before a after, actions = before ++ a :: after ∧ (s.run before).Records i id a ∧
    ((s.run (before ++ [a])).tree.version = 0 ∨ .reset ∉ after)

/-- No handle leads to version 0. -/
def HandlesLater (s : Session) : Prop := ∀ l ∈ s.handles, 0 < l.version

variable {s u : Session} {a : Action} {i w : Nat} {id : CellId}

theorem Change.handlesLater (change : Change s a u) (later : s.HandlesLater) : u.HandlesLater := by
  cases change with
  | fork =>
    intro l given
    rcases List.mem_append.mp given with old | new
    · exact later l old
    · cases List.mem_singleton.mp new
      exact Nat.succ_pos _
  | _ => exact later

/-- Version 0 is out of reach of a handle. It writes to the active version, as is recorded, or to
one in between, or it is stale. -/
theorem hiddenIn?_layerToggle (sound : s.tree.Sound) (inside : s.HandlesInside)
    (later : s.HandlesLater) (version : w = 0 ∨ w = s.tree.version) (k : Nat) (other : CellId)
    (hidden : Bool) :
    ((s.perform (.layerToggle k other hidden)).tree.hiddenIn? i w id).isSome = true ↔
      (w = s.tree.version ∧ s.Records i id (.layerToggle k other hidden)) ∨
        (s.tree.hiddenIn? i w id).isSome = true := by
  cases given : s.handles[k]? with
  | none => simp [perform, Records, given]
  | some l =>
    have member := List.mem_of_getElem? given
    have positive := later l member
    have place : (w = s.tree.version ∧ s.Records i id (.layerToggle k other hidden)) ↔
        (i = l.node ∧ w = l.version ∧ id = other) := by
      rw [Records, given, Option.some.injEq]
      constructor
      · rintro ⟨active, rfl, named⟩
        exact ⟨rfl, active, named⟩
      · rintro ⟨rfl, here, named⟩
        have active : w = s.tree.version := by
          rcases version with first | active
          · omega
          · exact active
        rw [← active, here]
        exact ⟨rfl, rfl, named⟩
    rw [place]
    cases written : s.tree.layerToggle l other hidden with
    | error e =>
      have stale : ¬ (i = l.node ∧ w = l.version ∧ id = other) := by
        rintro ⟨-, here, -⟩
        rw [Tree.layerToggle_eq, if_pos] at written
        · cases written
        · rw [sound.isSome_layer?_iff (inside l member)]
          have active := sound.aligned.version_lt
          omega
      have same : s.perform (.layerToggle k other hidden) = s := by
        simp [perform, given, written, keep]
      rw [same]
      exact ⟨.inr, fun known => known.resolve_left stale⟩
    | ok t =>
      obtain ⟨there, rfl⟩ := Tree.layerToggle_ok written
      have after : s.perform (.layerToggle k other hidden) =
          { s with tree := s.tree.setHidden l.node l.version other hidden } := by
        simp [perform, given, written, keep]
      rw [after, Tree.isSome_hiddenIn?_setHidden]
      simp [there]

/-- A step that opens no version adds what it records to the active version, and nothing to version
0 otherwise. -/
theorem hiddenIn?_perform (sound : s.tree.Sound) (inside : s.HandlesInside)
    (later : s.HandlesLater) (closed : s.opens a = false) (notReset : a ≠ .reset)
    (version : w = 0 ∨ w = s.tree.version) :
    ((s.perform a).tree.hiddenIn? i w id).isSome = true ↔
      (w = s.tree.version ∧ s.Records i id a) ∨ (s.tree.hiddenIn? i w id).isSome = true := by
  cases a with
  | add parent spec hidden =>
    cases added : s.tree.add parent spec hidden with
    | error e => simp [perform, Records, added, keep, Except.map]
    | ok grown =>
      obtain ⟨j, t⟩ := grown
      have recorded : s.Records i id (.add parent spec hidden) ↔ i = parent ∧ id = spec.id := by
        simp [Records, added]
      have after : s.perform (.add parent spec hidden) = { s with tree := t } := by
        simp [perform, added, keep, Except.map]
      rw [recorded, after, Tree.hiddenIn?_add sound added]
      split
      · rename_i here
        simp [here]
      · rename_i apart
        refine ⟨.inr, fun known => known.resolve_left ?_⟩
        exact fun here => apart ⟨here.2.1, here.1, here.2.2⟩
  | linkNext j k =>
    cases linked : s.tree.linkNext j k with
    | error e => simp [perform, Records, linked, keep, Except.map]
    | ok relinked =>
      simp [perform, Records, linked, keep, Except.map, (Tree.relinked_linkNext linked).hiddenIn?]
  | linkPrev j k =>
    cases linked : s.tree.linkPrev j k with
    | error e => simp [perform, Records, linked, keep, Except.map]
    | ok relinked =>
      simp [perform, Records, linked, keep, Except.map, (Tree.relinked_linkPrev linked).hiddenIn?]
  | toggle j other hidden =>
    rw [perform, Records, Tree.toggle, Tree.isSome_hiddenIn?_setHidden, sound.isSome_active_iff]
    have same : (i = j ∧ w = s.tree.version ∧ id = other ∧ j < s.tree.size) ↔
        (w = s.tree.version ∧ i = j ∧ id = other ∧ i < s.tree.size) := by
      constructor
      · rintro ⟨rfl, active, named, inside⟩
        exact ⟨active, rfl, named, inside⟩
      · rintro ⟨active, rfl, named, inside⟩
        exact ⟨rfl, active, named, inside⟩
    rw [same]
  | fork j =>
    have outside : ¬ j < s.tree.size := of_decide_eq_false closed
    simp [perform, Records, outside]
  | reset => exact absurd rfl notReset
  | layerToggle k other hidden =>
    exact hiddenIn?_layerToggle sound inside later version k other hidden
  | view c p =>
    have refused : ¬ ∃ v m, p.build c.policy ⟨s.tree, c.state⟩ = .ok v m := by
      rw [← opens_view_iff, closed]
      exact Bool.false_ne_true
    have silent : ¬ s.Records i id (.view c p) := by
      rintro ⟨v, m, built, -⟩
      exact refused ⟨v, m, built⟩
    rcases perform_view sound c p with ⟨-, same⟩ | ⟨made, -⟩
    · rw [same]
      exact ⟨.inr, fun known => known.resolve_left fun here => silent here.2⟩
    · exact absurd made refused
  | evaluate c e => simp [perform, Records]

/-- A new version knows what was known before it and what is recorded as it opens. Version 0 stays
as it is. -/
theorem known_of_opens (sound : s.tree.Sound) (opens : s.opens a = true) (i : Nat) (id : CellId) :
    (((s.perform a).tree.isHidden? i id).isSome = true ↔
      s.Records i id a ∨ (s.tree.isHidden? i id).isSome = true) ∧
    (s.perform a).tree.hiddenIn? i 0 id = s.tree.hiddenIn? i 0 id := by
  cases a with
  | fork j =>
    have inside : j < s.tree.size := of_decide_eq_true opens
    have after : s.perform (.fork j) = ⟨(s.tree.fork j).2, s.handles ++ [(s.tree.fork j).1]⟩ := by
      rw [perform, if_pos inside]
    rw [after, Tree.isHidden?_fork sound inside, Tree.hiddenIn?, Tree.layer?_fork sound inside]
    simp [Records, Tree.hiddenIn?]
  | view c p =>
    obtain ⟨v, m, built⟩ := opens_view_iff.mp opens
    have after : s.perform (.view c p) = { s with tree := m.tree } := by
      simp [perform, built, treeAfter]
    have recorded : s.Records i id (.view c p) ↔
        p.Writes c.policy ⟨s.tree, c.state⟩ v i id := by simp [Records, built]
    rw [after, recorded, Tree.hiddenIn?, ViewPlan.built_layer? sound built i (Nat.zero_le _)]
    exact ⟨ViewPlan.built_isSome_iff sound built i id, rfl⟩
  | _ => cases opens

structure Consistent (s : Session) : Prop where
  sound : s.tree.Sound
  inside : s.HandlesInside
  later : s.HandlesLater

theorem Consistent.perform (consistent : s.Consistent) (a : Action) :
    (s.perform a).Consistent := by
  have change := change_perform consistent.sound a
  exact ⟨change.sound consistent.sound, change.handlesInside consistent.sound consistent.inside,
    change.handlesLater consistent.later⟩

theorem consistent_run (rootId : CellId) (actions : List Action) :
    ((start (.new rootId)).run actions).Consistent :=
  run_invariant (fun _ a consistent => consistent.perform a)
    ⟨Tree.new_sound rootId, nofun, nofun⟩ actions

/-- The active layers come to know what a step records, and forget only by a reset. -/
theorem known_perform (consistent : s.Consistent) (notReset : a ≠ .reset) (i : Nat) (id : CellId) :
    ((s.perform a).tree.isHidden? i id).isSome = true ↔
      s.Records i id a ∨ (s.tree.isHidden? i id).isSome = true := by
  obtain ⟨sound, inside, later⟩ := consistent
  cases opens : s.opens a with
  | true => exact (known_of_opens sound opens i id).1
  | false =>
    have version := (perform_of_not_opens sound opens notReset).1
    rw [Tree.isHidden?_eq_hiddenIn?, Tree.isHidden?_eq_hiddenIn?, version,
      hiddenIn?_perform sound inside later opens notReset (.inr rfl)]
    simp

/-- Version 0 comes to know what is recorded while it is active. -/
theorem known_first_perform (consistent : s.Consistent) (a : Action) (i : Nat) (id : CellId) :
    ((s.perform a).tree.hiddenIn? i 0 id).isSome = true ↔
      (s.Records i id a ∧ (s.perform a).tree.version = 0) ∨
        (s.tree.hiddenIn? i 0 id).isSome = true := by
  obtain ⟨sound, inside, later⟩ := consistent
  by_cases reset : a = .reset
  · subst reset
    simp [Session.perform, Records, Tree.hiddenIn?]
  · cases opens : s.opens a with
    | true =>
      have version := (perform_of_opens sound opens).1
      rw [(known_of_opens sound opens i id).2, version]
      simp
    | false =>
      have version := (perform_of_not_opens sound opens reset).1
      rw [hiddenIn?_perform sound inside later opens reset (.inl rfl), version, and_comm, eq_comm]

/-- A run that grew at its end splits at its last step or before. -/
theorem exists_split_append {actions : List Action} {b : Action}
    {property : List Action → Action → List Action → Prop} :
    (∃ before a after, actions ++ [b] = before ++ a :: after ∧ property before a after) ↔
      property actions b [] ∨
        ∃ before a after, actions = before ++ a :: after ∧ property before a (after ++ [b]) := by
  constructor
  · rintro ⟨before, a, after, split, holds⟩
    rcases List.eq_nil_or_concat after with rfl | ⟨front, last, rfl⟩
    · obtain ⟨rfl, same⟩ := List.append_inj' split rfl
      cases same
      exact .inl holds
    · rw [List.concat_eq_append] at split holds
      have parts : actions ++ [b] = (before ++ a :: front) ++ [last] := by simpa using split
      obtain ⟨rfl, same⟩ := List.append_inj' parts rfl
      cases same
      exact .inr ⟨before, a, front, rfl, holds⟩
  · rintro (holds | ⟨before, a, after, rfl, holds⟩)
    · exact ⟨actions, b, [], rfl, holds⟩
    · exact ⟨before, a, after ++ [b], by simp, holds⟩

theorem run_append_singleton (s : Session) (actions : List Action) (a : Action) :
    s.run (actions ++ [a]) = (s.run actions).perform a := run_append s actions [a]

/-- Version 0 knows just what was recorded while it was active. -/
theorem known_first_iff (rootId : CellId) (actions : List Action) (i : Nat) (id : CellId) :
    (((start (.new rootId)).run actions).tree.hiddenIn? i 0 id).isSome = true ↔
      ∃ before a after, actions = before ++ a :: after ∧
        ((start (.new rootId)).run before).Records i id a ∧
        ((start (.new rootId)).run (before ++ [a])).tree.version = 0 := by
  induction actions using List.reverseRecOn with
  | nil =>
    have unknown : ((start (.new rootId)).run []).tree.hiddenIn? i 0 id = none :=
      Tree.hiddenIn?_new rootId i 0 id
    simp [unknown]
  | append_singleton actions a ih =>
    rw [run_append_singleton, known_first_perform (consistent_run rootId actions), ih,
      exists_split_append, run_append_singleton]

/-- What is known to the active version has been learned, and the other way round. -/
theorem known_iff (rootId : CellId) (actions : List Action) (i : Nat) (id : CellId) :
    (((start (.new rootId)).run actions).tree.isHidden? i id).isSome = true ↔
      (start (.new rootId)).Learns actions i id := by
  rw [Learns]
  induction actions using List.reverseRecOn with
  | nil =>
    have unknown : ((start (.new rootId)).run []).tree.isHidden? i id = none := by
      rw [Tree.isHidden?_eq_hiddenIn?]
      exact Tree.hiddenIn?_new rootId i 0 id
    simp [unknown]
  | append_singleton actions a ih =>
    rw [exists_split_append]
    by_cases reset : a = .reset
    · subst reset
      have first : (((start (.new rootId)).run (actions ++ [.reset])).tree.isHidden? i id) =
          ((start (.new rootId)).run actions).tree.hiddenIn? i 0 id := by
        rw [run_append_singleton, Tree.isHidden?_eq_hiddenIn?]
        rfl
      rw [first, known_first_iff]
      simp [Records]
    · have kept (after : List Action) : .reset ∉ after ++ [a] ↔ .reset ∉ after := by
        simp [Ne.symm reset]
      rw [run_append_singleton, known_perform (consistent_run rootId actions) reset, ih]
      simp only [kept, List.not_mem_nil, not_false_eq_true, or_true, and_true]

/-- A child was there before, or the step adds it. -/
theorem Change.mem_children (change : Change s a u) (sound : s.tree.Sound)
    (child : id ∈ (u.tree.children i).keys) :
    (∃ spec hidden, a = .add i spec hidden ∧ s.Records i id a) ∨
      id ∈ (s.tree.children i).keys := by
  by_cases keeps : a.KeepsNodes
  · rw [Tree.children_eq_of_frame (change.frame sound keeps)] at child
    exact .inr child
  · cases change with
    | same => exact .inr child
    | @add parent spec hidden j t added =>
      rw [Tree.children_add added] at child
      split at child
      · rename_i here
        subst here
        rcases OrderedMap.mem_keys_insert.mp child with named | old
        · exact .inl ⟨spec, hidden, rfl, rfl, named, j, t, added⟩
        · exact .inr old
      · exact .inr child
    | linkNext linked =>
      rw [(Tree.relinked_linkNext linked).children] at child
      exact .inr child
    | linkPrev linked =>
      rw [(Tree.relinked_linkPrev linked).children] at child
      exact .inr child
    | _ => exact absurd trivial keeps

/-- Every child was added at some point of the run, which recorded it. -/
theorem exists_add_of_child (rootId : CellId) (actions : List Action)
    (child : id ∈ (((start (.new rootId)).run actions).tree.children i).keys) :
    ∃ before a after, actions = before ++ a :: after ∧
      (∃ spec hidden, a = .add i spec hidden) ∧
      ((start (.new rootId)).run before).Records i id a := by
  induction actions using List.reverseRecOn with
  | nil =>
    have none : ((start (.new rootId)).run []).tree.children i = .empty :=
      Tree.children_new rootId i
    rw [none] at child
    cases child
  | append_singleton actions a ih =>
    rw [exists_split_append]
    rw [run_append_singleton] at child
    have sound := (consistent_run rootId actions).sound
    rcases (change_perform sound a).mem_children sound child with ⟨spec, hidden, rfl, records⟩ | old
    · exact .inl ⟨⟨spec, hidden, rfl⟩, records⟩
    · exact .inr (ih old)

/-- At every moment of a run the visibility of an id is known just if the run has learned of it.
Each child was recorded as it was added, so it is known if that was in version 0 or no reset came
after. A fork hides the known children and no others. -/
theorem run_knows (rootId : CellId) (actions : List Action) :
    let s := start (.new rootId)
    let t := (s.run actions).tree
    (∀ i id, (∃ hidden, t.excluded i id = .ok hidden) ↔ s.Learns actions i id) ∧
    (∀ i id, t.excluded i id = .error (.unknownId id) ↔ ¬ s.Learns actions i id) ∧
    (∀ i, ∀ id ∈ (t.children i).keys, ∃ before spec hidden after,
      actions = before ++ .add i spec hidden :: after ∧ id = spec.id ∧
      (∃ j u, (s.run before).tree.add i spec hidden = .ok (j, u)) ∧
      ((s.run before).tree.version = 0 ∨ .reset ∉ after →
        ∃ hidden, t.excluded i id = .ok hidden)) ∧
    ∀ j < t.size, ∀ i id,
      (t.fork j).2.excluded i id = (t.excluded i id).map fun _ => true := by
  intro s t
  have known (i : Nat) (id : CellId) :
      (∃ hidden, t.excluded i id = .ok hidden) ↔ s.Learns actions i id := by
    simp only [Tree.excluded_eq_ok_iff, ← Option.isSome_iff_exists]
    exact known_iff rootId actions i id
  refine ⟨known, fun i id => ?_, fun i id child => ?_, fun j inside i id => ?_⟩
  · rw [Tree.excluded_eq_error_iff]
    exact not_congr (known_iff rootId actions i id)
  · obtain ⟨before, _, after, split, ⟨spec, hidden, rfl⟩, records⟩ :=
      exists_add_of_child rootId actions child
    have ⟨_, named, added⟩ := records
    refine ⟨before, spec, hidden, after, split, named, added, fun lasting => ?_⟩
    refine (known i id).mpr ⟨before, _, after, split, records, ?_⟩
    have version : (s.run (before ++ [.add i spec hidden])).tree.version =
        (s.run before).tree.version := by
      have notReset : Action.add i spec hidden ≠ .reset := nofun
      rw [run_append_singleton]
      exact (perform_of_not_opens (consistent_run rootId before).sound rfl notReset).1
    rwa [version]
  · exact Tree.excluded_fork (consistent_run rootId actions).sound inside i id

/-- A cell that is added in version 1 is unknown after a reset, and no fork from there hides it. -/
theorem reset_forgets_child :
    let t := ((start (.new ⟨0⟩)).run [.add 0 (.column 1 "a" .unknown {}) false, .fork 0,
      .add 1 (.cell (.of 1 1) (.bool true)) false, .reset]).tree
    .of 1 1 ∈ (t.children 1).keys ∧
      t.excluded 1 (.of 1 1) = .error (.unknownId (.of 1 1)) ∧
      .of 1 1 ∈ ((t.fork 0).2.children 1).keys ∧ (t.fork 0).2.isHidden? 1 (.of 1 1) = none := by
  decide +kernel

end Session
end LayeredTable
