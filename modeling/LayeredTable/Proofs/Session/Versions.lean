import Mathlib.Data.List.Induction
import LayeredTable.Proofs.Session.Sound
import LayeredTable.Proofs.Tree.Child

/-! Versions and handles over whole runs. The active version counts the versions that were opened
since the last reset, and only opening one changes how many there are. A handle is stale exactly
while its version is beyond that number; otherwise it writes one entry of one layer. -/
namespace LayeredTable

namespace Tree

variable {t : Tree} {i v : Nat} {l : LayerHandle}

/-- Whether a node hides an id in a version, if its layer of that version knows the id. -/
def hiddenIn? (t : Tree) (i version : Nat) (id : CellId) : Option Bool :=
  (t.layer? i version).bind (·.get? id)

/-- What is seen of a node is its layer of the active version. -/
theorem isHidden?_eq_hiddenIn? (t : Tree) (i : Nat) (id : CellId) :
    t.isHidden? i id = t.hiddenIn? i t.version id := by
  rw [isHidden?, hiddenMap_eq, hiddenIn?]
  cases t.layer? i t.version <;> rfl

theorem hiddenIn?_setHidden (there : (t.layer? i v).isSome = true) (id : CellId) (hidden : Bool)
    (j w : Nat) (other : CellId) :
    (t.setHidden i v id hidden).hiddenIn? j w other =
      if j = i ∧ w = v ∧ other = id then some hidden else t.hiddenIn? j w other := by
  obtain ⟨m, layer⟩ := Option.isSome_iff_exists.mp there
  rw [hiddenIn?, layer?_setHidden, hiddenIn?]
  by_cases place : j = i ∧ w = v
  · by_cases same : other = id <;> simp [place, layer, same]
  · have apart : ¬ (j = i ∧ w = v ∧ other = id) := fun all => place ⟨all.1, all.2.1⟩
    rw [if_neg place, if_neg apart]

theorem Sound.isSome_layer?_iff (sound : t.Sound) (inside : i < t.size) :
    (t.layer? i v).isSome = true ↔ v < t.versionCount := by
  obtain ⟨n, here⟩ := exists_node inside
  simp [layer?, here, ← sound.aligned.layers here]

/-- A handle is stale exactly outside the versions that there are. -/
theorem layerToggle_stale_iff (sound : t.Sound) (inside : l.node < t.size) (id : CellId)
    (hidden : Bool) :
    t.layerToggle l id hidden = .error (.staleLayer l.version) ↔ t.versionCount ≤ l.version := by
  rw [← Nat.not_lt, ← sound.isSome_layer?_iff inside, layerToggle_eq]
  split
  · rename_i there
    exact ⟨nofun, fun gone => absurd there gone⟩
  · rename_i gone
    exact ⟨fun _ => gone, fun _ => rfl⟩

/-- A handle that is not stale writes one entry of one layer. -/
theorem layerToggle_of_live (sound : t.Sound) (inside : l.node < t.size)
    (live : l.version < t.versionCount) (id : CellId) (hidden : Bool) :
    ∃ u, t.layerToggle l id hidden = .ok u ∧ u.frame = t.frame ∧ u.version = t.version ∧
      u.versionCount = t.versionCount ∧
      (∀ j w other, u.hiddenIn? j w other =
        if j = l.node ∧ w = l.version ∧ other = id then some hidden
        else t.hiddenIn? j w other) ∧
      ∀ j other, u.isHidden? j other =
        if j = l.node ∧ t.version = l.version ∧ other = id then some hidden
        else t.isHidden? j other := by
  have there := (sound.isSome_layer?_iff inside).mpr live
  have entries := hiddenIn?_setHidden there id hidden
  refine ⟨t.setHidden l.node l.version id hidden, ?_, frame_setHidden, version_setHidden,
    sound.setHidden.2, entries, fun j other => ?_⟩
  · rw [layerToggle_eq, if_pos there]
  · rw [isHidden?_eq_hiddenIn?, isHidden?_eq_hiddenIn?, version_setHidden, entries]

theorem layerSnapshot_stale_iff (sound : t.Sound) (inside : l.node < t.size) :
    t.layerSnapshot l = .error (.staleLayer l.version) ↔ t.versionCount ≤ l.version := by
  rw [← Nat.not_lt, ← sound.isSome_layer?_iff inside, layerSnapshot, layer?]
  cases t.nodes[l.node]?.bind fun n => n.layers[l.version]? <;> simp

end Tree

namespace Session

/-- Whether a step opens a version: a fork of a node that exists, or a view that is made. -/
def opens (s : Session) : Action → Bool
  | .fork i => i < s.tree.size
  | .view c p =>
    match p.build c.policy ⟨s.tree, c.state⟩ with
    | .ok _ _ => true
    | .error _ _ => false
  | _ => false

/-- The steps of a run, each with the session that it is taken in. -/
def steps (s : Session) : List Action → List (Session × Action)
  | [] => []
  | a :: actions => (s, a) :: (s.perform a).steps actions

/-- How many versions a run has opened since its last reset, or since its start without one. -/
def openedSinceReset (s : Session) (actions : List Action) : Nat :=
  ((s.steps actions).reverse.takeWhile fun step => step.2 ≠ .reset).countP fun step =>
    step.1.opens step.2

variable {s u : Session} {a : Action}

theorem steps_append (s : Session) (actions : List Action) (a : Action) :
    s.steps (actions ++ [a]) = s.steps actions ++ [(s.run actions, a)] := by
  induction actions generalizing s with
  | nil => rfl
  | cons b actions ih =>
    rw [List.cons_append, steps, ih, steps]
    rfl

theorem openedSinceReset_append (s : Session) (actions : List Action) (a : Action) :
    s.openedSinceReset (actions ++ [a]) =
      if a = .reset then 0
      else s.openedSinceReset actions + if (s.run actions).opens a then 1 else 0 := by
  rw [openedSinceReset, steps_append, List.reverse_append, List.reverse_singleton,
    List.singleton_append, List.takeWhile_cons]
  by_cases reset : a = .reset
  · simp [reset]
  · simp [reset, List.countP_cons, openedSinceReset]

theorem opens_view_iff {c : EvalContext} {p : ViewPlan} : s.opens (.view c p) = true ↔
    ∃ v m, p.build c.policy ⟨s.tree, c.state⟩ = .ok v m := by
  rw [opens]
  cases p.build c.policy ⟨s.tree, c.state⟩ <;> simp

/-- Opening a version makes it the active and the last one. -/
theorem perform_of_opens (sound : s.tree.Sound) (opens : s.opens a = true) :
    (s.perform a).tree.version = s.tree.version + 1 ∧
      (s.perform a).tree.versionCount = s.tree.version + 2 := by
  cases a with
  | fork i =>
    have inside : i < s.tree.size := of_decide_eq_true opens
    rw [perform, if_pos inside]
    exact ⟨Tree.version_fork, (sound.fork inside).2⟩
  | view c p =>
    obtain ⟨v, m, built⟩ := opens_view_iff.mp opens
    rcases perform_view sound c p with ⟨⟨e, m', failed⟩, -⟩ | ⟨-, root, u, inside, toggled, made⟩
    · rw [failed] at built
      cases built
    · rw [made]
      have forked := sound.fork inside
      exact ⟨toggled.version, (toggled.sound forked.1).2.trans forked.2⟩
  | _ => cases opens

theorem keep_versions {result : Except TreeError (Nat × Tree)}
    (kept : ∀ i t, result = .ok (i, t) →
      t.version = s.tree.version ∧ t.versionCount = s.tree.versionCount) :
    (s.keep (result.map (·.2))).tree.version = s.tree.version ∧
      (s.keep (result.map (·.2))).tree.versionCount = s.tree.versionCount := by
  cases result with
  | error e => exact ⟨rfl, rfl⟩
  | ok grown => exact kept grown.1 grown.2 rfl

/-- All steps but resets and those that open a version leave the versions as they are. -/
theorem perform_of_not_opens (sound : s.tree.Sound) (closed : s.opens a = false)
    (notReset : a ≠ .reset) : (s.perform a).tree.version = s.tree.version ∧
      (s.perform a).tree.versionCount = s.tree.versionCount := by
  cases a with
  | add parent spec hidden =>
    apply keep_versions
    intro i t added
    refine ⟨?_, (sound.add added).2⟩
    obtain ⟨-, -, -, rfl⟩ := Tree.add_ok added
    rfl
  | linkNext i k =>
    apply keep_versions
    intro j t linked
    exact ⟨(Tree.relinked_linkNext linked).version, (sound.linkNext linked).2⟩
  | linkPrev i k =>
    apply keep_versions
    intro j t linked
    exact ⟨(Tree.relinked_linkPrev linked).version, (sound.linkPrev linked).2⟩
  | toggle i id hidden => exact ⟨Tree.version_toggle, sound.setHidden.2⟩
  | fork i =>
    have outside : ¬ i < s.tree.size := of_decide_eq_false closed
    rw [perform, if_neg outside]
    exact ⟨rfl, rfl⟩
  | reset => exact absurd rfl notReset
  | layerToggle k id hidden =>
    rw [perform]
    cases s.handles[k]? with
    | none => exact ⟨rfl, rfl⟩
    | some l =>
      cases written : s.tree.layerToggle l id hidden with
      | error e => simp [keep, written]
      | ok t =>
        obtain ⟨-, rfl⟩ := Tree.layerToggle_ok written
        simpa [keep, written] using sound.setHidden.2
  | view c p =>
    rcases perform_view sound c p with ⟨-, same⟩ | ⟨made, -⟩
    · rw [same]
      exact ⟨rfl, rfl⟩
    · rw [opens_view_iff.mpr made] at closed
      cases closed
  | evaluate c e => exact ⟨rfl, rfl⟩

/-- The active version of a run is the number of versions opened since the last reset. -/
theorem version_run (sound : s.tree.Sound) (initial : s.tree.version = 0) (actions : List Action) :
    (s.run actions).tree.version = s.openedSinceReset actions := by
  -- from the end of the run, since a reset there forgets all that came before
  induction actions using List.reverseRecOn with
  | nil => exact initial
  | append_singleton actions a ih =>
    have before : (s.run actions).tree.Sound := run_sound sound actions
    rw [run_append, openedSinceReset_append, ← ih]
    change ((s.run actions).perform a).tree.version = _
    by_cases reset : a = .reset
    · subst reset
      rfl
    · rw [if_neg reset]
      cases opens : (s.run actions).opens a with
      | true => exact (perform_of_opens before opens).1
      | false => exact (perform_of_not_opens before opens reset).1

/-- No step takes a node away. -/
theorem Change.size_le (change : Change s a u) (sound : s.tree.Sound) :
    s.tree.size ≤ u.tree.size := by
  cases change with
  | same | reset => exact Nat.le_refl _
  | add added =>
    rw [Tree.size_add added]
    exact Nat.le_succ _
  | linkNext linked => exact Nat.le_of_eq (Tree.linkNext_keeps linked).1.symm
  | linkPrev linked => exact Nat.le_of_eq (Tree.linkPrev_keeps linked).1.symm
  | toggle => exact Nat.le_of_eq Tree.size_setHidden.symm
  | layerToggle _ written =>
    obtain ⟨-, rfl⟩ := Tree.layerToggle_ok written
    exact Nat.le_of_eq Tree.size_setHidden.symm
  | view rooted toggled =>
    have frame := toggled.frame.trans (Tree.frame_fork sound rooted)
    exact Nat.le_of_eq (Tree.size_eq_of_frame frame).symm
  | fork here => exact Nat.le_of_eq (Tree.size_eq_of_frame (Tree.frame_fork sound here)).symm

theorem size_le_run (sound : s.tree.Sound) (actions : List Action) :
    s.tree.size ≤ (s.run actions).tree.size := by
  have kept (m : Session) (a : Action) (known : m.tree.Sound ∧ s.tree.size ≤ m.tree.size) :
      (m.perform a).tree.Sound ∧ s.tree.size ≤ (m.perform a).tree.size :=
    ⟨perform_sound known.1 a,
      Nat.le_trans known.2 ((change_perform known.1 a).size_le known.1)⟩
  exact (run_invariant kept ⟨sound, Nat.le_refl _⟩ actions).2

def HandlesInside (s : Session) : Prop := ∀ l ∈ s.handles, l.node < s.tree.size

theorem Change.handlesInside (change : Change s a u) (sound : s.tree.Sound)
    (inside : s.HandlesInside) : u.HandlesInside := by
  have size := change.size_le sound
  have old (l : LayerHandle) (given : l ∈ s.handles) : l.node < u.tree.size :=
    Nat.lt_of_lt_of_le (inside l given) size
  cases change with
  | @fork i here =>
    intro l given
    rcases List.mem_append.mp given with before | new
    · exact old l before
    · cases List.mem_singleton.mp new
      exact Nat.lt_of_lt_of_le here size
  | _ => exact old

/-- Versions and handles at every moment of every run with a new tree. -/
theorem run_versions (rootId : CellId) (actions : List Action) :
    let s := (start (.new rootId)).run actions
    s.tree.version = (start (.new rootId)).openedSinceReset actions ∧
    (∀ a, (s.perform a).tree.versionCount =
      if s.opens a then (s.perform a).tree.version + 1 else s.tree.versionCount) ∧
    (∀ i id, s.tree.isHidden? i id = s.tree.hiddenIn? i s.tree.version id) ∧
    ∀ (k : Nat) (l : LayerHandle), s.handles[k]? = some l →
      (s.tree.layerSnapshot l = .error (.staleLayer l.version) ↔
        s.tree.versionCount ≤ l.version) ∧
      ∀ (id : CellId) (hidden : Bool),
        (s.tree.layerToggle l id hidden = .error (.staleLayer l.version) ↔
          s.tree.versionCount ≤ l.version) ∧
        (s.tree.versionCount ≤ l.version → s.perform (.layerToggle k id hidden) = s) ∧
        (l.version < s.tree.versionCount → ∃ u, s.tree.layerToggle l id hidden = .ok u ∧
          s.perform (.layerToggle k id hidden) = { s with tree := u } ∧
          u.frame = s.tree.frame ∧ u.version = s.tree.version ∧
          u.versionCount = s.tree.versionCount ∧
          (∀ j w other, u.hiddenIn? j w other =
            if j = l.node ∧ w = l.version ∧ other = id then some hidden
            else s.tree.hiddenIn? j w other) ∧
          ∀ j other, u.isHidden? j other =
            if j = l.node ∧ s.tree.version = l.version ∧ other = id then some hidden
            else s.tree.isHidden? j other) := by
  intro s
  have sound : s.tree.Sound := run_sound (Tree.new_sound rootId) actions
  have kept (m : Session) (a : Action) (known : m.tree.Sound ∧ m.HandlesInside) :
      (m.perform a).tree.Sound ∧ (m.perform a).HandlesInside :=
    ⟨perform_sound known.1 a, (change_perform known.1 a).handlesInside known.1 known.2⟩
  have none : (start (.new rootId)).HandlesInside := by
    intro l given
    cases given
  have handles : s.HandlesInside := (run_invariant kept ⟨Tree.new_sound rootId, none⟩ actions).2
  refine ⟨version_run (Tree.new_sound rootId) rfl actions, ?_, s.tree.isHidden?_eq_hiddenIn?, ?_⟩
  · intro a
    split
    · rename_i opens
      obtain ⟨version, count⟩ := perform_of_opens sound opens
      rw [version, count]
    · rename_i closed
      by_cases reset : a = .reset
      · subst reset
        rfl
      · exact (perform_of_not_opens sound (Bool.eq_false_iff.mpr closed) reset).2
  · intro k l given
    have inside : l.node < s.tree.size := handles l (List.mem_of_getElem? given)
    refine ⟨Tree.layerSnapshot_stale_iff sound inside, fun id hidden => ?_⟩
    have step : s.perform (.layerToggle k id hidden) =
        s.keep (s.tree.layerToggle l id hidden) := by simp [perform, given]
    have staleIff := Tree.layerToggle_stale_iff sound inside id hidden
    refine ⟨staleIff, fun stale => ?_, fun live => ?_⟩
    · rw [step, staleIff.mpr stale]
      rfl
    · obtain ⟨u, written, exactly⟩ := Tree.layerToggle_of_live sound inside live id hidden
      refine ⟨u, written, ?_, exactly⟩
      rw [step, written]
      rfl

end Session
end LayeredTable
