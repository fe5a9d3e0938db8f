import LayeredTable.Expr.Behaviour

/-! Traces of workers: how they run over a shared state, how they mix, and which of them the steps
of an evaluation leave. -/
namespace LayeredTable

theorem forall_fin_three {p : Fin 3 → Prop} : (∀ i, p i) ↔ p 0 ∧ p 1 ∧ p 2 := by
  rw [Fin.forall_fin_succ, Fin.forall_fin_two]
  rfl

section Runs

variable {s after : Shared} {es front back : List Event}

namespace Shared

theorem run?_append : s.run? (front ++ back) = (s.run? front).bind (·.run? back) := by
  rw [run?, List.foldlM_append]
  rfl

theorem run?_cons_eq_some {e : Event} :
    s.run? (e :: es) = some after ↔ ∃ m, s.step? e = some m ∧ m.run? es = some after := by
  rw [run?, List.foldlM_cons]
  exact Option.bind_eq_some_iff

theorem run?_flag_false (live : s.cancelled = false) : s.run? (.flag false :: es) = s.run? es := by
  rw [run?, List.foldlM_cons, step?, if_pos live.symm]
  rfl

/-- What one event tells of a state, and what it makes of it. -/
theorem step?_cases {e : Event} (done : s.step? e = some after) :
    e = .flag s.cancelled ∧ after = s ∨
      (∃ late, e = .clock late ∧ (s.late = true → late = true) ∧ after = { s with late }) ∨
      e = .raise ∧ after = { s with cancelled := true } ∨
      ∃ d, e = .record d ∧ after = { s with defects := s.defects.log d } := by
  cases e with
  | flag up =>
    rw [step?] at done
    split at done <;> cases done
    rename_i same
    exact .inl ⟨by rw [same], rfl⟩
  | clock late =>
    rw [step?] at done
    split at done <;> cases done
    rename_i going
    exact .inr (.inl ⟨late, rfl, by simpa using going, rfl⟩)
  | raise =>
    cases done
    exact .inr (.inr (.inl ⟨rfl, rfl⟩))
  | record d =>
    cases done
    exact .inr (.inr (.inr ⟨d, rfl, rfl⟩))

/-- The flag is up after a run just if it was up before or has been raised. -/
theorem cancelled_of_run? (ran : s.run? es = some after) :
    after.cancelled = true ↔ s.cancelled = true ∨ .raise ∈ es := by
  induction es generalizing s with
  | nil =>
    cases ran
    simp
  | cons e es ih =>
    obtain ⟨m, first, rest⟩ := run?_cons_eq_some.mp ran
    rw [ih rest, List.mem_cons, ← or_assoc]
    refine or_congr_left ?_
    rcases step?_cases first with
      ⟨rfl, rfl⟩ | ⟨late, rfl, -, rfl⟩ | ⟨rfl, rfl⟩ | ⟨d, rfl, rfl⟩ <;> simp

/-- Once the flag is up, nothing changes when it is seen up or raised again. -/
theorem run?_of_cancelled (up : s.cancelled = true) (only : ∀ e ∈ es, e = .flag true ∨ e = .raise) :
    s.run? es = some s := by
  induction es with
  | nil => rfl
  | cons e es ih =>
    obtain ⟨head, rest⟩ := List.forall_mem_cons.mp only
    refine run?_cons_eq_some.mpr ⟨s, ?_, ih rest⟩
    rcases head with rfl | rfl
    · rw [step?, if_pos up.symm]
    · rw [step?, ← up]

end Shared

/-- Whether the flag is raised in a trace before it is seen up there. -/
def Raised (es : List Event) : Prop :=
  ∃ front back, es = front ++ .raise :: back ∧ .flag true ∉ front

/-- Whether the flag is neither raised in a trace nor seen up. -/
def Quiet (es : List Event) : Prop := .flag true ∉ es ∧ .raise ∉ es

/-- In a run that begins with the flag down, it is raised before it is seen up. -/
theorem raised_of_run? (live : s.cancelled = false) (ran : s.run? es = some after)
    (noisy : ¬ Quiet es) : Raised es := by
  induction es generalizing s with
  | nil => exact absurd ⟨List.not_mem_nil, List.not_mem_nil⟩ noisy
  | cons e es ih =>
    obtain ⟨m, first, rest⟩ := Shared.run?_cons_eq_some.mp ran
    have later (down : m.cancelled = false) (seen : e ≠ .flag true) (other : e ≠ .raise) :
        Raised (e :: es) := by
      have noisy' : ¬ Quiet es := by
        simpa [Quiet, seen.symm, other.symm] using noisy
      obtain ⟨front, back, rfl, unseen⟩ := ih down rest noisy'
      exact ⟨e :: front, back, rfl, by simp [seen.symm, unseen]⟩
    rcases Shared.step?_cases first with
      ⟨rfl, rfl⟩ | ⟨late, rfl, -, rfl⟩ | ⟨rfl, rfl⟩ | ⟨d, rfl, rfl⟩
    · exact later live (by simp [live]) (by simp)
    · exact later live (by simp) (by simp)
    · exact ⟨[], es, rfl, List.not_mem_nil⟩
    · exact later live (by simp) (by simp)

theorem Quiet.append (first : Quiet front) (second : Quiet back) : Quiet (front ++ back) :=
  ⟨by simp [first.1, second.1], by simp [first.2, second.2]⟩

theorem Raised.mem (raised : Raised es) : .raise ∈ es := by
  obtain ⟨front, back, rfl, -⟩ := raised
  simp

theorem Raised.of_append (raised : Raised (front ++ back)) (calm : .raise ∉ front) :
    Raised back := by
  obtain ⟨pre, post, split, unseen⟩ := raised
  rcases List.append_eq_append_iff.mp split with ⟨mid, rfl, rfl⟩ | ⟨mid, rfl, rest⟩
  · exact ⟨mid, post, rfl, fun seen => unseen (List.mem_append_right _ seen)⟩
  · cases mid with
    | nil => exact ⟨[], post, rest.symm, List.not_mem_nil⟩
    | cons e mid =>
      cases rest
      simp at calm

end Runs

/-- Of blocks that are empty but for one, that one is left. -/
theorem flatMap_ite {ι α : Type} [DecidableEq ι] {order : List ι} {i : ι} (distinct : order.Nodup)
    (listed : i ∈ order) (block : List α) :
    (order.flatMap fun j => if j = i then block else []) = block := by
  obtain ⟨early, late, rfl⟩ := List.append_of_mem listed
  obtain ⟨-, lateFresh, apart⟩ := List.nodup_append.mp distinct
  have earlyNone : (early.flatMap fun j => if j = i then block else []) = [] :=
    List.flatMap_eq_nil_iff.mpr fun j member =>
      if_neg (apart j member i List.mem_cons_self)
  have lateNone : (late.flatMap fun j => if j = i then block else []) = [] :=
    List.flatMap_eq_nil_iff.mpr fun j member =>
      if_neg fun (same : j = i) => (List.nodup_cons.mp lateFresh).1 (same ▸ member)
  rw [List.flatMap_append, List.flatMap_cons, earlyNone, lateNone, if_pos rfl]
  simp

namespace Interleaves

variable {ι α : Type} [DecidableEq ι] {traces : ι → List α} {es front back : List α} {x : α}

theorem mem_iff (mixed : Interleaves traces es) : x ∈ es ↔ ∃ i, x ∈ traces i := by
  obtain ⟨turns, rfl, own⟩ := mixed
  simp only [← own, List.mem_map, List.mem_filter, decide_eq_true_eq, Prod.exists]
  constructor
  · rintro ⟨i, y, turn, rfl⟩
    exact ⟨i, i, y, ⟨turn, rfl⟩, rfl⟩
  · rintro ⟨i, j, y, ⟨turn, -⟩, rfl⟩
    exact ⟨j, y, turn, rfl⟩

/-- Each element comes from one of the lists, and what stands before it there comes before it in
the mixture. -/
theorem exists_split (mixed : Interleaves traces (front ++ x :: back)) :
    ∃ i before later, traces i = before ++ x :: later ∧ before ⊆ front := by
  obtain ⟨turns, whole, own⟩ := mixed
  obtain ⟨early, late, rfl, rfl, rest⟩ := List.map_eq_append_iff.mp whole
  obtain ⟨⟨i, y⟩, late, rfl, rfl, rfl⟩ := List.map_eq_cons_iff.mp rest
  refine ⟨i, (early.filter (·.1 = i)).map (·.2), (late.filter (·.1 = i)).map (·.2), ?_, ?_⟩
  · rw [← own i]
    simp
  · exact List.map_subset _ List.filter_sublist.subset

/-- Lists one after the other, in any order. -/
theorem flatMap {order : List ι} (distinct : order.Nodup) (complete : ∀ i, i ∈ order)
    (traces : ι → List α) : Interleaves traces (order.flatMap traces) := by
  refine ⟨order.flatMap fun i => (traces i).map (i, ·), ?_, fun i => ?_⟩
  · simp [List.map_flatMap, Function.comp_def]
  · have block (j : ι) : (((traces j).map (j, ·)).filter (·.1 = i)).map (·.2) =
        if j = i then traces i else [] := by
      split
      · rename_i same
        subst same
        simp [List.filter_map, Function.comp_def]
      · rename_i other
        simp [List.filter_map, Function.comp_def, other]
    rw [List.filter_flatMap, List.map_flatMap]
    simp only [block]
    exact flatMap_ite distinct (complete i) (traces i)

/-- One list grows at its end. -/
theorem concat (mixed : Interleaves traces es) (i : ι) (x : α) :
    Interleaves (fun j => if j = i then traces j ++ [x] else traces j) (es ++ [x]) := by
  obtain ⟨turns, rfl, own⟩ := mixed
  refine ⟨turns ++ [(i, x)], by simp, fun j => ?_⟩
  rw [List.filter_append, List.map_append, own j]
  by_cases same : j = i
  · subst same
    simp
  · have other : i ≠ j := Ne.symm same
    simp [same, other]

/-- Mixtures of the same lists are the same up to order. -/
theorem perm [DecidableEq α] {traces' : ι → List α} {es' : List α} (mixed : Interleaves traces es)
    (mixed' : Interleaves traces' es') (each : ∀ i, (traces i).Perm (traces' i)) : es.Perm es' := by
  have count (turns : List (ι × α)) (i : ι) (x : α) :
      turns.count (i, x) = ((turns.filter (·.1 = i)).map (·.2)).count x := by
    induction turns with
    | nil => rfl
    | cons turn turns ih =>
      obtain ⟨j, y⟩ := turn
      by_cases same : j = i
      · simp [List.count_cons, ih, same]
      · simp [ih, same]
  obtain ⟨turns, rfl, own⟩ := mixed
  obtain ⟨turns', rfl, own'⟩ := mixed'
  refine List.Perm.map _ (List.perm_iff_count.mpr fun ⟨i, x⟩ => ?_)
  rw [count, count, own, own']
  exact (each i).count_eq x

end Interleaves
end LayeredTable
