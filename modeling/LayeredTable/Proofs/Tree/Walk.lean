import Mathlib.Data.List.Chain
import Mathlib.Data.List.Perm.Subperm
import LayeredTable.Proofs.Tree.Shape

/-! Walks along links. Each node has one next and one previous node at most, and any of them: links
may run in circles or contradict each other. A walk stops at a bound, which no walk without a
circle reaches, so such a walk is complete. Main statement: `walk_complete`. -/
namespace LayeredTable

open Relation

def Leads (link : Nat → Option Nat) (i j : Nat) : Prop := link i = some j

/-- No node that links lead to from `i` on leads back to itself. -/
def Acyclic (link : Nat → Option Nat) (i : Nat) : Prop :=
  ∀ j, ReflTransGen (Leads link) i j → ¬ TransGen (Leads link) j j

/-- A node and those that links lead to from it, at most `limit` in all. -/
def walk (link : Nat → Option Nat) : (limit : Nat) → Nat → List Nat
  | 0, _ => []
  | limit + 1, i =>
    i :: match link i with
      | some j => walk link limit j
      | none => []

section Walk

variable {link : Nat → Option Nat} {limit size i j k : Nat}

theorem walk_of_leads (leads : link i = some j) (limit : Nat) :
    walk link (limit + 1) i = i :: walk link limit j := by
  rw [walk, leads]

theorem walk_of_end (ends : link i = none) (limit : Nat) : walk link (limit + 1) i = [i] := by
  rw [walk, ends]

theorem length_walk_le (limit i : Nat) : (walk link limit i).length ≤ limit := by
  induction limit generalizing i with
  | zero => exact Nat.le_refl 0
  | succ limit ih =>
    cases next : link i with
    | none => simp [walk_of_end next]
    | some j => simpa [walk_of_leads next] using ih j

theorem isChain_walk (limit i : Nat) : (walk link limit i).IsChain (Leads link) := by
  induction limit generalizing i with
  | zero => exact .nil
  | succ limit ih =>
    cases next : link i with
    | none =>
      rw [walk_of_end next]
      exact .singleton i
    | some j =>
      rw [walk_of_leads next]
      refine (ih j).cons fun k first => ?_
      cases limit with
      | zero => cases first
      | succ limit =>
        cases first
        exact next

theorem reaches_of_mem_walk (member : j ∈ walk link limit i) : ReflTransGen (Leads link) i j := by
  induction limit generalizing i with
  | zero => cases member
  | succ limit ih =>
    cases next : link i with
    | none =>
      rw [walk_of_end next, List.mem_singleton] at member
      exact member ▸ .refl
    | some k =>
      rw [walk_of_leads next, List.mem_cons] at member
      rcases member with rfl | later
      · exact .refl
      · exact .head next (ih later)

theorem pairwise_walk (limit i : Nat) : (walk link limit i).Pairwise (TransGen (Leads link)) :=
  List.isChain_iff_pairwise.mp ((isChain_walk limit i).imp fun _ _ => .single)

/-- A node that no link leads back to is met once. -/
theorem nodup_walk (acyclic : Acyclic link i) (limit : Nat) : (walk link limit i).Nodup := by
  refine (pairwise_walk limit i).imp_of_mem ?_
  rintro j _ member - circle rfl
  exact acyclic j (reaches_of_mem_walk member) circle

/-- A walk without a circle is no longer than there are nodes. -/
theorem length_walk_le_size (acyclic : Acyclic link i) (start : i < size)
    (inside : ∀ j k, link j = some k → k < size) (limit : Nat) :
    (walk link limit i).length ≤ size := by
  have below (j : Nat) (member : j ∈ walk link limit i) : j < size := by
    rcases ReflTransGen.cases_tail (reaches_of_mem_walk member) with rfl | ⟨k, -, leads⟩
    · exact start
    · exact inside k j leads
  have found := List.subperm_of_subset (nodup_walk acyclic limit)
    fun j member => List.mem_range.mpr (below j member)
  simpa using found.length_le

/-- A walk that stops before its bound has come to a node without a link. -/
theorem exists_end_of_length_lt (short : (walk link limit i).length < limit) :
    ∃ last, (walk link limit i).getLast? = some last ∧ link last = none := by
  induction limit generalizing i with
  | zero => exact absurd short (Nat.not_lt_zero _)
  | succ limit ih =>
    cases next : link i with
    | none => exact ⟨i, by rw [walk_of_end next]; rfl, next⟩
    | some j =>
      rw [walk_of_leads next] at short ⊢
      obtain ⟨last, ends, none⟩ := ih (Nat.lt_of_succ_lt_succ short)
      exact ⟨last, by rw [List.getLast?_cons, ends]; rfl, none⟩

theorem walk_of_length_le (short : (walk link (limit + 1) i).length ≤ limit) :
    walk link (limit + 1) i = walk link limit i := by
  induction limit generalizing i with
  | zero =>
    cases next : link i <;> simp [walk_of_end, walk_of_leads, next] at short
  | succ limit ih =>
    cases next : link i with
    | none => rw [walk_of_end next, walk_of_end next]
    | some j =>
      rw [walk_of_leads next] at short
      rw [walk_of_leads next, walk_of_leads next, ih (Nat.le_of_succ_le_succ short)]

theorem mem_walk_succ (member : j ∈ walk link limit i) (leads : link j = some k) :
    k ∈ walk link (limit + 1) i := by
  induction limit generalizing i with
  | zero => cases member
  | succ limit ih =>
    cases next : link i with
    | none =>
      rw [walk_of_end next, List.mem_singleton] at member
      rw [member, next] at leads
      cases leads
    | some m =>
      rw [walk_of_leads next, List.mem_cons] at member ⊢
      rcases member with rfl | later
      · rw [next] at leads
        cases leads
        exact .inr (by rw [walk]; exact List.mem_cons_self)
      · exact .inr (ih later)

/-- Without a circle a walk that is allowed as many nodes as there are is complete: it ends at a
node without a link and meets all nodes that links lead to. -/
theorem walk_complete (acyclic : Acyclic link i) (start : i < size)
    (inside : ∀ j k, link j = some k → k < size) (enough : size ≤ limit) :
    (∃ last, (walk link limit i).getLast? = some last ∧ link last = none) ∧
      ∀ j, j ∈ walk link limit i ↔ ReflTransGen (Leads link) i j := by
  have short := length_walk_le_size acyclic start inside (limit + 1)
  have same := walk_of_length_le (Nat.le_trans short enough)
  refine ⟨?_, fun j => ⟨reaches_of_mem_walk, fun reached => ?_⟩⟩
  · rw [← same]
    exact exists_end_of_length_lt (by omega)
  · induction reached with
    | refl =>
      rw [← same, walk]
      exact List.mem_cons_self
    | tail _ leads ih =>
      rw [← same]
      exact mem_walk_succ ih leads

end Walk

namespace Tree

variable {t u : Tree} {i : Nat}

def next? (t : Tree) (i : Nat) : Option Nat := t.nodes[i]?.bind (·.next)

def prev? (t : Tree) (i : Nat) : Option Nat := t.nodes[i]?.bind (·.prev)

theorem chainFrom_eq_walk (t : Tree) (limit i : Nat) :
    t.chainFrom limit i = walk t.next? limit i := by
  induction limit generalizing i with
  | zero => rfl
  | succ limit ih =>
    cases next : t.next? i with
    | none =>
      have none : t.nodes[i]?.bind (·.next) = none := next
      rw [walk_of_end next, chainFrom, none]
    | some j =>
      have some : t.nodes[i]?.bind (·.next) = some j := next
      rw [walk_of_leads next, chainFrom, some, ← ih]

/-- Going back is walking along the previous nodes and taking the last. -/
theorem getLast?_walk_prev (t : Tree) (steps i : Nat) :
    (walk t.prev? (steps + 1) i).getLast? = some (t.firstOf steps i) := by
  induction steps generalizing i with
  | zero => cases back : t.prev? i <;> simp [walk, firstOf, back]
  | succ steps ih =>
    cases back : t.prev? i with
    | none =>
      have none : t.nodes[i]?.bind (·.prev) = none := back
      simp [walk_of_end back, firstOf, none]
    | some j =>
      have some : t.nodes[i]?.bind (·.prev) = some j := back
      rw [walk_of_leads back, List.getLast?_cons, ih]
      simp [firstOf, some]

theorem Shape.next?_lt (shape : t.Shape) (i k : Nat) (link : t.next? i = some k) : k < t.size := by
  obtain ⟨n, here, next⟩ := Option.bind_eq_some_iff.mp link
  exact shape.links here (.inl next)

theorem Shape.prev?_lt (shape : t.Shape) (i k : Nat) (link : t.prev? i = some k) : k < t.size := by
  obtain ⟨n, here, prev⟩ := Option.bind_eq_some_iff.mp link
  exact shape.links here (.inr prev)

/-- Going back without a circle ends at a node before which there is none. -/
theorem Shape.firstOf_reached (shape : t.Shape) (inside : i < t.size)
    (acyclic : Acyclic t.prev? i) :
    ReflTransGen (Leads t.prev?) i (t.firstOf t.size i) ∧ t.prev? (t.firstOf t.size i) = none := by
  obtain ⟨⟨last, ends, none⟩, -⟩ :=
    walk_complete acyclic inside shape.prev?_lt (Nat.le_succ t.size)
  have same := t.getLast?_walk_prev t.size i
  rw [ends] at same
  cases same
  exact ⟨reaches_of_mem_walk (List.mem_of_getLast? ends), none⟩

theorem firstOf_lt (shape : t.Shape) (inside : i < t.size) (steps : Nat) :
    t.firstOf steps i < t.size := by
  induction steps generalizing i with
  | zero => exact inside
  | succ steps ih =>
    rw [firstOf]
    split
    · rename_i p back
      exact ih (shape.prev?_lt i p back)
    · exact inside

theorem rowCells_eq (inside : i < t.size) :
    t.rowCells i = .ok (walk t.next? t.size (t.firstOf t.size i)) := by
  obtain ⟨n, here⟩ := exists_node inside
  rw [← chainFrom_eq_walk, rowCells, node, here]
  rfl

end Tree
end LayeredTable
