import LayeredTable.Proofs.Tree.Growth
import LayeredTable.Proofs.View.Build

/-! A session is a tree in use, together with the layer handles that its forks gave out. Whatever is
done, in any order, one step changes the tree in one of few ways. -/
namespace LayeredTable

structure Session where
  tree : Tree
  handles : List LayerHandle := []
  deriving DecidableEq, Repr

/-- What can be done with a tree. A handle is named by its place among those given out; a view and
an evaluation come with a context in any state. -/
inductive Action
  | add (parent : Nat) (spec : NodeSpec) (hidden : Bool)
  | linkNext (node next : Nat)
  | linkPrev (node prev : Nat)
  | toggle (node : Nat) (id : CellId) (hidden : Bool)
  | fork (node : Nat)
  | reset
  | layerToggle (handle : Nat) (id : CellId) (hidden : Bool)
  | view (context : EvalContext) (plan : ViewPlan)
  | evaluate (context : EvalContext) (e : Expr)
  deriving DecidableEq, Repr

def Action.KeepsNodes : Action → Prop
  | .add .. | .linkNext .. | .linkPrev .. => False
  | .toggle .. | .fork _ | .reset | .layerToggle .. | .view .. | .evaluate .. => True

namespace Session

/-- The session after an operation on its tree, which if refused changes nothing. -/
def keep (s : Session) : Except TreeError Tree → Session
  | .ok tree => { s with tree }
  | .error _ => s

/-- The tree that building a view leaves behind, whether it succeeds or not. -/
def treeAfter : EStateM.Result ViewError ViewState View → Tree
  | .ok _ s | .error _ s => s.tree

/-- One step. Only nodes that exist can be forked, and only handles that were given out write. -/
def perform (s : Session) : Action → Session
  | .add parent spec hidden => s.keep ((s.tree.add parent spec hidden).map (·.2))
  | .linkNext i next => s.keep ((s.tree.linkNext i next).map (·.2))
  | .linkPrev i prev => s.keep ((s.tree.linkPrev i prev).map (·.2))
  | .toggle i id hidden => { s with tree := s.tree.toggle i id hidden }
  | .fork i =>
    if i < s.tree.size then ⟨(s.tree.fork i).2, s.handles ++ [(s.tree.fork i).1]⟩ else s
  | .reset => { s with tree := s.tree.reset }
  | .layerToggle k id hidden =>
    match s.handles[k]? with
    | some l => s.keep (s.tree.layerToggle l id hidden)
    | none => s
  | .view c p => { s with tree := treeAfter (p.build c.policy ⟨s.tree, c.state⟩) }
  | .evaluate _ _ => s

def run (s : Session) (actions : List Action) : Session := actions.foldl perform s

def start (t : Tree) : Session := { tree := t }

inductive Change (s : Session) : Action → Session → Prop
  | same {a : Action} : Change s a s
  | add {parent : Nat} {spec : NodeSpec} {hidden : Bool} {i : Nat} {u : Tree} :
    s.tree.add parent spec hidden = .ok (i, u) →
      Change s (.add parent spec hidden) { s with tree := u }
  | linkNext {i k j : Nat} {u : Tree} : s.tree.linkNext i k = .ok (j, u) →
      Change s (.linkNext i k) { s with tree := u }
  | linkPrev {i k j : Nat} {u : Tree} : s.tree.linkPrev i k = .ok (j, u) →
      Change s (.linkPrev i k) { s with tree := u }
  | toggle {i : Nat} {id : CellId} {hidden : Bool} :
      Change s (.toggle i id hidden) { s with tree := s.tree.toggle i id hidden }
  | fork {i : Nat} : i < s.tree.size →
      Change s (.fork i) ⟨(s.tree.fork i).2, s.handles ++ [(s.tree.fork i).1]⟩
  | reset : Change s .reset { s with tree := s.tree.reset }
  | layerToggle {k : Nat} {l : LayerHandle} {id : CellId} {hidden : Bool} {u : Tree} :
    s.handles[k]? = some l → s.tree.layerToggle l id hidden = .ok u →
      Change s (.layerToggle k id hidden) { s with tree := u }
  | view {c : EvalContext} {p : ViewPlan} {root : Nat} {u : Tree} : root < s.tree.size →
    (s.tree.fork root).2.Toggled u → Change s (.view c p) { s with tree := u }

/-- A view that is refused changes nothing, and one that is made forks the tree and then shows
children. -/
theorem perform_view {s : Session} (sound : s.tree.Sound) (c : EvalContext) (p : ViewPlan) :
    ((∃ e m, p.build c.policy ⟨s.tree, c.state⟩ = .error e m) ∧ s.perform (.view c p) = s) ∨
      (∃ v m, p.build c.policy ⟨s.tree, c.state⟩ = .ok v m) ∧ ∃ root u, root < s.tree.size ∧
        (s.tree.fork root).2.Toggled u ∧ s.perform (.view c p) = { s with tree := u } := by
  rcases ViewPlan.build_cases sound c.policy p c.state with
    ⟨e, eval, -, failed⟩ | ⟨root, rows, columns, eval, -, unnamed, -, found, built⟩
  · exact .inl ⟨⟨e, _, failed⟩, by simp [perform, failed, treeAfter]⟩
  · have inside := ViewPlan.source_inside unnamed found
    have toggled := ViewPlan.toggled_columns rows sound.shape (Tree.frame_fork sound inside)
      fun c member => ViewPlan.selected_child found member
    exact .inr ⟨⟨_, _, built⟩, root, _, inside, toggled, by simp [perform, built, treeAfter]⟩

theorem change_perform {s : Session} (sound : s.tree.Sound) (a : Action) :
    Change s a (s.perform a) := by
  cases a with
  | add parent spec hidden =>
    cases added : s.tree.add parent spec hidden with
    | error e => simpa [perform, added, keep, Except.map] using Change.same
    | ok result => simpa [perform, added, keep, Except.map] using Change.add added
  | linkNext i k =>
    cases linked : s.tree.linkNext i k with
    | error e => simpa [perform, linked, keep, Except.map] using Change.same
    | ok result => simpa [perform, linked, keep, Except.map] using Change.linkNext linked
  | linkPrev i k =>
    cases linked : s.tree.linkPrev i k with
    | error e => simpa [perform, linked, keep, Except.map] using Change.same
    | ok result => simpa [perform, linked, keep, Except.map] using Change.linkPrev linked
  | toggle i id hidden => exact .toggle
  | fork i =>
    rw [perform]
    split
    · rename_i inside
      exact .fork inside
    · exact .same
  | reset => exact .reset
  | layerToggle k id hidden =>
    cases handle : s.handles[k]? with
    | none => simpa [perform, handle] using Change.same
    | some l =>
      cases written : s.tree.layerToggle l id hidden with
      | error e => simpa [perform, handle, written, keep] using Change.same
      | ok u => simpa [perform, handle, written, keep] using Change.layerToggle handle written
  | view c p =>
    rcases perform_view sound c p with ⟨-, same⟩ | ⟨-, root, u, inside, toggled, made⟩
    · rw [same]
      exact .same
    · rw [made]
      exact .view inside toggled
  | evaluate c e => exact .same

inductive Reaches (allowed : Session → Action → Prop) (s : Session) : Session → Prop
  | refl : Reaches allowed s s
  | step {m : Session} {a : Action} : Reaches allowed s m → allowed m a →
      Reaches allowed s (m.perform a)

variable {s u : Session} {allowed : Session → Action → Prop}

/-- What every allowed step keeps holds after all of them. -/
theorem Reaches.invariant {property : Session → Prop}
    (kept : ∀ m a, allowed m a → property m → property (m.perform a))
    (run : Reaches allowed s u) (initial : property s) : property u := by
  induction run with
  | refl => exact initial
  | step _ admitted ih => exact kept _ _ admitted ih

theorem run_append (s : Session) (first rest : List Action) :
    s.run (first ++ rest) = (s.run first).run rest := List.foldl_append

theorem run_invariant {property : Session → Prop}
    (kept : ∀ m a, property m → property (m.perform a)) (initial : property s)
    (actions : List Action) : property (s.run actions) := by
  induction actions generalizing s with
  | nil => exact initial
  | cons a actions ih => exact ih (kept s a initial)

end Session
end LayeredTable
