import LayeredTable.Expr.Eval
import LayeredTable.Proofs.State
import LayeredTable.Proofs.Tree.Layers

/-! What an evaluation reads of a tree: the frame, the rows that are left out and the active hidden
maps of the nodes that the expression names. Layers of other versions cannot change a result. -/
namespace LayeredTable

def Operand.nodes : Operand → List Nat
  | column i => [i]
  | literal _ _ => []

namespace Expr

/-- The comparisons and sums of an expression, from left to right. -/
def binaries : Expr → List (BinaryOp × Operand × Operand)
  | constant _ => []
  | binary op left right => [(op, left, right)]
  | not inner => inner.binaries
  | logic _ left right => left.binaries ++ right.binaries
  | choice cond whenTrue otherwise => cond.binaries ++ whenTrue.binaries ++ otherwise.binaries

def nodes (e : Expr) : List Nat := e.binaries.flatMap fun b => b.2.1.nodes ++ b.2.2.nodes

@[simp] theorem nodes_binary (op : BinaryOp) (left right : Operand) :
    (binary op left right).nodes = left.nodes ++ right.nodes := by
  simp [nodes, binaries]

@[simp] theorem nodes_not (inner : Expr) : (not inner).nodes = inner.nodes := rfl

@[simp] theorem nodes_logic (op : Logic) (left right : Expr) :
    (logic op left right).nodes = left.nodes ++ right.nodes := by
  simp [nodes, binaries]

@[simp] theorem nodes_choice (cond whenTrue otherwise : Expr) :
    (choice cond whenTrue otherwise).nodes = cond.nodes ++ whenTrue.nodes ++ otherwise.nodes := by
  simp [nodes, binaries]

end Expr

namespace Tree

/-- Two trees with one frame that leave out the same rows and hide the same below some nodes. -/
structure AlikeOn (t : Tree) (nodes : List Nat) (u : Tree) : Prop where
  frame : u.frame = t.frame
  hidden : ∀ i ∈ nodes, u.hiddenMap i = t.hiddenMap i
  exclusions : ∀ i, u.exclusions i = t.exclusions i

structure Alike (t u : Tree) : Prop where
  frame : u.frame = t.frame
  hidden : ∀ i, u.hiddenMap i = t.hiddenMap i

variable {t u : Tree} {i : Nat} {policy : Policy}

theorem nodes_of_frame (same : u.frame = t.frame) (i : Nat) :
    (t.nodes[i]? = none ∧ u.nodes[i]? = none) ∨
      ∃ m n, t.nodes[i]? = some m ∧ u.nodes[i]? = some n ∧ m.bare = n.bare := by
  cases here : u.nodes[i]? with
  | none =>
    have none := map_eq_of_frame same i Node.bare fun _ => rfl
    rw [here] at none
    exact .inl ⟨Option.map_eq_none_iff.mp none.symm, rfl⟩
  | some n =>
    obtain ⟨m, there, bare⟩ := node_of_frame same here
    exact .inr ⟨m, n, there, rfl, bare⟩

theorem rootOf_eq_of_frame (same : u.frame = t.frame) (i : Nat) : u.rootOf i = t.rootOf i := by
  induction i using Nat.strongRecOn with
  | ind i ih =>
    have parents := congrArg (Option.bind · id) (map_eq_of_frame same i (·.parent) fun _ => rfl)
    simp only [Option.bind_map, Function.id_comp] at parents
    rw [rootOf, rootOf, show u.nodes[i]?.bind (·.parent) = t.nodes[i]?.bind (·.parent) from parents]
    cases t.nodes[i]?.bind (·.parent) with
    | none => rfl
    | some p =>
      by_cases before : p < i
      · simp only [before, if_true, ih p before]
      · simp only [before, if_false]

theorem maxRow_eq_of_frame (same : u.frame = t.frame) : u.maxRow = t.maxRow := by
  simp only [maxRow, children_eq_of_frame same,
    map_eq_of_frame same _ (·.greatestRow) fun _ => rfl]

/-- The rows left out are known from the frame, from which columns constrain the table and from the
hidden cells of those. -/
theorem exclusions_congr (same : u.frame = t.frame)
    (constrains : ∀ entry, u.constrains (t.rootOf i) entry = t.constrains (t.rootOf i) entry)
    (hidden : ∀ entry ∈ (t.children (t.rootOf i)).entries, t.constrains (t.rootOf i) entry = true →
      u.hiddenMap entry.2 = t.hiddenMap entry.2) : u.exclusions i = t.exclusions i := by
  have rows : ((t.children (t.rootOf i)).entries.filter (t.constrains (t.rootOf i))).map
      (fun entry => u.hiddenRows entry.2) = ((t.children (t.rootOf i)).entries.filter
        (t.constrains (t.rootOf i))).map (fun entry => t.hiddenRows entry.2) := by
    apply List.map_congr_left
    intro entry member
    obtain ⟨listed, constraining⟩ := List.mem_filter.mp member
    simp only [hiddenRows, children_eq_of_frame same, isHidden?, hidden entry listed constraining]
  simp only [exclusions, rootOf_eq_of_frame same, maxRow_eq_of_frame same,
    children_eq_of_frame same, funext constrains, List.flatMap_def, rows]

/-- Which columns constrain the table is known from the root's hidden map. -/
theorem constrains_congr {root : Nat} (same : u.frame = t.frame)
    (hidden : u.hiddenMap root = t.hiddenMap root) (entry : CellId × Nat) :
    u.constrains root entry = t.constrains root entry := by
  rw [constrains, isHidden?, hidden, map_eq_of_frame same _ (·.nullable.allowed) fun _ => rfl,
    constrains, isHidden?]

namespace AlikeOn

variable {nodes fewer : List Nat}

theorem children (alike : t.AlikeOn nodes u) (i : Nat) : u.children i = t.children i :=
  children_eq_of_frame alike.frame i

theorem isHidden? (alike : t.AlikeOn nodes u) (named : i ∈ nodes) (id : CellId) :
    u.isHidden? i id = t.isHidden? i id := by
  rw [Tree.isHidden?, alike.hidden i named, Tree.isHidden?]

theorem mono (alike : t.AlikeOn nodes u) (within : fewer ⊆ nodes) : t.AlikeOn fewer u :=
  ⟨alike.frame, fun i named => alike.hidden i (within named), alike.exclusions⟩

end AlikeOn

namespace Alike

theorem isHidden? (alike : t.Alike u) (i : Nat) (id : CellId) :
    u.isHidden? i id = t.isHidden? i id := by
  rw [Tree.isHidden?, alike.hidden, Tree.isHidden?]

theorem exclusions (alike : t.Alike u) (i : Nat) : u.exclusions i = t.exclusions i :=
  exclusions_congr alike.frame (constrains_congr alike.frame (alike.hidden _))
    fun entry _ _ => alike.hidden entry.2

theorem on (alike : t.Alike u) (nodes : List Nat) : t.AlikeOn nodes u :=
  ⟨alike.frame, fun i _ => alike.hidden i, alike.exclusions⟩

end Alike

end Tree

variable {t u : Tree} {policy : Policy}

theorem Operand.type_of_frame (same : u.frame = t.frame) (o : Operand) :
    o.type u = o.type t := by
  cases o with
  | literal v type => rfl
  | column i =>
    rcases Tree.nodes_of_frame same i with ⟨here, there⟩ | ⟨m, n, here, there, bare⟩
    · simp [type, Tree.node, here, there]
    · simp [type, Tree.node, here, there, Except.map, (Node.bare_fields bare).2]

theorem Partner.ofOperand_of_frame (same : u.frame = t.frame) (type : FieldType) (o : Operand) :
    ofOperand u type o = ofOperand t type o := by
  cases o with
  | literal v _ => rfl
  | column i =>
    rcases Tree.nodes_of_frame same i with ⟨here, there⟩ | ⟨m, n, here, there, -⟩
    · simp [ofOperand, Tree.node, here, there]
    · simp only [ofOperand, Tree.node, here, there]
      rfl

def Partner.nodes : Partner → List Nat
  | fixed _ => []
  | column i => [i]

theorem Partner.valueAt?_of_alikeOn {p : Partner} (alike : t.AlikeOn p.nodes u) (row : UInt32) :
    p.valueAt? u row = p.valueAt? t row := by
  cases p with
  | fixed v => rfl
  | column i =>
    have value (c : Nat) := Tree.map_eq_of_frame alike.frame c (·.value) fun _ => rfl
    rcases Tree.nodes_of_frame alike.frame i with ⟨here, there⟩ | ⟨m, n, here, there, bare⟩
    · simp [valueAt?, here, there]
    · have named : m.id = n.id := (Node.bare_fields bare).1
      simp only [valueAt?, here, there, Option.bind_eq_bind, Option.bind_some, named,
        alike.isHidden? (List.mem_singleton.mpr rfl), Tree.findById, alike.children, value]

theorem Scan.rows_of_alikeOn {s : Scan} (alike : t.AlikeOn (s.column :: s.partner.nodes) u) :
    s.rows u = s.rows t := by
  have partner := alike.mono (List.subset_cons_self s.column s.partner.nodes)
  have row : s.row u = s.row t := by
    funext excluded entry
    have value := Tree.map_eq_of_frame alike.frame entry.2 (·.value) fun _ => rfl
    simp only [Scan.row, Scan.operands?, alike.isHidden? List.mem_cons_self,
      Partner.valueAt?_of_alikeOn partner, value]
  rw [rows, rows, alike.children, alike.exclusions, row]

/-- Of the left column a scan reads the type alone. -/
theorem Scan.resolve_column (t : Tree) (op : BinaryOp) (i : Nat) (right : Operand) :
    resolve t op (.column i) right = (((Operand.column i).type t).mapError .tree).bind fun left =>
      ((right.type t).mapError .tree).bind fun other =>
        ((commonType op.allowed left other).mapError .resolve).bind fun type =>
          (Partner.ofOperand t type right).bind fun partner => .ok ⟨op, i, partner, type⟩ := by
  rw [resolve, Operand.type]
  cases t.node i <;> rfl

theorem Scan.resolve_of_frame (same : u.frame = t.frame) (op : BinaryOp) (left right : Operand) :
    resolve u op left right = resolve t op left right := by
  cases left with
  | literal v type => rfl
  | column i =>
    simp only [resolve_column, Operand.type_of_frame same, Partner.ofOperand_of_frame same]

/-- A scan reads the nodes that its operands name. -/
theorem Scan.nodes_of_resolve {op : BinaryOp} {left right : Operand} {s : Scan}
    (done : resolve t op left right = .ok s) :
    s.column :: s.partner.nodes = left.nodes ++ right.nodes := by
  cases left with
  | literal v type => cases done
  | column i =>
    rw [resolve_column] at done
    obtain ⟨own, -, done⟩ := exceptBind_ok done
    obtain ⟨other, -, done⟩ := exceptBind_ok done
    obtain ⟨type, -, done⟩ := exceptBind_ok done
    obtain ⟨partner, side, done⟩ := exceptBind_ok done
    cases done
    cases right with
    | literal v declared =>
      rw [Partner.ofOperand] at side
      cases cast : (v.cast type).mapError ExprError.resolve with
      | error e => simp [cast, Except.map] at side
      | ok w =>
        rw [cast] at side
        cases side
        rfl
    | column j =>
      obtain ⟨n, -, side⟩ := exceptBind_ok side
      cases side
      rfl

theorem hiddenCheck_of_alikeOn {left : Operand} (alike : t.AlikeOn left.nodes u) (op : BinaryOp)
    (wantHidden : Bool) : hiddenCheck u op wantHidden left = hiddenCheck t op wantHidden left := by
  cases left with
  | literal v type => rfl
  | column i =>
    have hidden := alike.hidden i (List.mem_singleton.mpr rfl)
    rcases Tree.nodes_of_frame alike.frame i with ⟨here, there⟩ | ⟨m, n, here, there, -⟩
    · simp only [hiddenCheck, Tree.node, here, there, hidden]
    · simp only [hiddenCheck, Tree.node, here, there, hidden]
      rfl

/-- What follows an answer matters for the answer itself only. -/
theorem Eval.ofExcept_bind_congr {α β : Type} {x : Except ExprError α} {first second : α → Eval β}
    (same : ∀ a, x = .ok a → first a = second a) :
    (ofExcept id x >>= first) = (ofExcept id x >>= second) := by
  cases x with
  | error e => rfl
  | ok a =>
    funext s
    exact congrFun (same a rfl) s

namespace Expr

theorem evalBinary_of_alikeOn {left right : Operand}
    (alike : t.AlikeOn (left.nodes ++ right.nodes) u) (op : BinaryOp) :
    evalBinary u policy op left right = evalBinary t policy op left right := by
  have scan (op : BinaryOp) : (do
      let scan ← Eval.ofExcept id (Scan.resolve t op left right)
      Eval.recordRows policy (scan.defects u)
      return scan.outcome u) = (do
      let scan ← Eval.ofExcept id (Scan.resolve t op left right)
      Eval.recordRows policy (scan.defects t)
      return scan.outcome t) := by
    apply Eval.ofExcept_bind_congr
    intro s resolved
    rw [← Scan.nodes_of_resolve resolved] at alike
    rw [Scan.defects, Scan.outcome, Scan.rows_of_alikeOn alike, Scan.defects, Scan.outcome]
  unfold evalBinary
  simp only [hiddenCheck_of_alikeOn (alike.mono (List.subset_append_left _ _)),
    Scan.resolve_of_frame alike.frame, scan]

/-- An expression reads the active hidden maps of the nodes that it names, and no others but through
the rows that are left out. -/
theorem eval_of_alikeOn {e : Expr} (alike : t.AlikeOn e.nodes u) :
    e.eval u policy = e.eval t policy := by
  induction e with
  | constant b => rfl
  | binary op left right =>
    rw [nodes_binary] at alike
    simp only [eval, evalBinary_of_alikeOn alike]
  | not inner ih => simp only [eval, ih alike]
  | logic op left right ihLeft ihRight =>
    rw [nodes_logic] at alike
    simp only [eval, ihLeft (alike.mono (List.subset_append_left _ _)),
      ihRight (alike.mono (List.subset_append_right _ _)), alike.exclusions]
  | choice cond whenTrue otherwise ihCond ihTrue ihOtherwise =>
    rw [nodes_choice] at alike
    have first := alike.mono (List.subset_append_left _ _)
    simp only [eval, ihCond (first.mono (List.subset_append_left _ _)),
      ihTrue (first.mono (List.subset_append_right _ _)),
      ihOtherwise (alike.mono (List.subset_append_right _ _))]

/-- Trees that are read alike give every expression the same results, defects and errors. -/
theorem eval_of_alike (alike : t.Alike u) (e : Expr) : e.eval u policy = e.eval t policy :=
  eval_of_alikeOn (alike.on e.nodes)

end Expr
end LayeredTable
