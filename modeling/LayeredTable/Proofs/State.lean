/-! Steps that can fail, taken apart at their first part. Those with a state keep what they
changed when they fail. -/
namespace LayeredTable

section Answers

variable {ε ε' α β : Type} {x : Except ε α} {next : α → Except ε β}

theorem exceptBind_ok {b : β} (done : x.bind next = .ok b) : ∃ a, x = .ok a ∧ next a = .ok b := by
  cases x with
  | error e => cases done
  | ok a => exact ⟨a, rfl, done⟩

theorem ok_of_toOption {a : α} (found : x.toOption = some a) : x = .ok a := by
  cases x with
  | error e => cases found
  | ok b =>
    cases found
    rfl

theorem exceptBind_error {e : ε} (failed : x.bind next = .error e) :
    x = .error e ∨ ∃ a, x = .ok a ∧ next a = .error e := by
  cases x with
  | error e =>
    cases failed
    exact .inl rfl
  | ok a => exact .inr ⟨a, rfl, failed⟩

theorem mapError_of_ok (wrap : ε → ε') (a : α) : (Except.ok a).mapError wrap = .ok a := rfl

theorem mapError_ok {wrap : ε → ε'} {a : α} (done : x.mapError wrap = .ok a) : x = .ok a := by
  cases x with
  | error e => cases done
  | ok b =>
    cases done
    rfl

theorem mapError_error {wrap : ε → ε'} {e : ε'} (failed : x.mapError wrap = .error e) :
    ∃ cause, e = wrap cause := by
  cases x with
  | error cause =>
    cases failed
    exact ⟨cause, rfl⟩
  | ok a => cases failed

end Answers

section States

variable {ε σ α β : Type} {step : EStateM ε σ α} {next : α → EStateM ε σ β} {s m : σ}

theorem get_bind (next : σ → EStateM ε σ β) (s : σ) : (get >>= next) s = next s s := rfl

theorem modify_bind (f : σ → σ) (next : PUnit → EStateM ε σ β) (s : σ) :
    (modify f >>= next) s = next ⟨⟩ (f s) := rfl

theorem bind_of_ok {a : α} (done : step s = .ok a m) : (step >>= next) s = next a m := by
  simp only [bind, EStateM.bind, done]

theorem bind_of_error {e : ε} (failed : step s = .error e m) :
    (step >>= next) s = .error e m := by
  simp only [bind, EStateM.bind, failed]

theorem bind_of_eq {step' : EStateM ε σ α} (same : step s = step' m) :
    (step >>= next) s = (step' >>= next) m := by
  simp only [bind, EStateM.bind, same]

theorem bind_ok {b : β} (done : (step >>= next) s = .ok b m) :
    ∃ a k, step s = .ok a k ∧ next a k = .ok b m := by
  cases first : step s with
  | ok a k =>
    rw [bind_of_ok first] at done
    exact ⟨a, k, rfl, done⟩
  | error e k =>
    rw [bind_of_error first] at done
    cases done

/-- A value that a run is known to end with comes with some state. -/
theorem exists_ok {a : α} (ends : step.run' s = some a) : ∃ m, step s = .ok a m := by
  cases result : step s with
  | ok b m =>
    have same : step.run' s = some b := by
      delta EStateM.run' EStateM.run
      rw [result]
    rw [same] at ends
    cases ends
    exact ⟨m, rfl⟩
  | error e m =>
    have none : step.run' s = none := by
      delta EStateM.run' EStateM.run
      rw [result]
    rw [none] at ends
    cases ends

/-- A run that is known to end without a value failed. -/
theorem exists_error (fails : step.run' s = none) : ∃ e m, step s = .error e m := by
  cases result : step s with
  | error e m => exact ⟨e, m, rfl⟩
  | ok a m =>
    delta EStateM.run' EStateM.run at fails
    rw [result] at fails
    cases fails

end States
end LayeredTable
