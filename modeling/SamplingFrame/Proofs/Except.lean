/-!
# Computations in two steps

What a computation that can fail comes to when another one goes on from its value.
-/

namespace SamplingFrame

/-- A computation in two steps gives a value exactly if both steps do. -/
theorem bind_eq_ok {ε α β : Type} {x : Except ε α} {f : α → Except ε β} {b : β} :
    x >>= f = .ok b ↔ ∃ a, x = .ok a ∧ f a = .ok b := by
  cases x with
  | error e =>
    constructor
    · intro h
      cases h
    · rintro ⟨a, ha, -⟩
      cases ha
  | ok a =>
    constructor
    · intro h
      exact ⟨a, rfl, h⟩
    · rintro ⟨a', ha, h⟩
      cases ha
      exact h

/-- A computation in two steps fails exactly if one of its steps does. -/
theorem bind_eq_error {ε α β : Type} {x : Except ε α} {f : α → Except ε β} {e : ε} :
    x >>= f = .error e ↔ x = .error e ∨ ∃ a, x = .ok a ∧ f a = .error e := by
  cases x with
  | error e' =>
    constructor
    · intro h
      cases h
      exact .inl rfl
    · rintro (h | ⟨a, ha, -⟩)
      · cases h
        rfl
      · cases ha
  | ok a =>
    constructor
    · intro h
      exact .inr ⟨a, rfl, h⟩
    · rintro (h | ⟨a', ha, h⟩)
      · cases h
      · cases ha
        exact h

/-- Two changes to the value of a computation, one after the other. -/
theorem map_map {ε α β γ : Type} (x : Except ε α) (f : α → β) (g : β → γ) :
    (x.map f).map g = x.map (g ∘ f) := by
  cases x <;> rfl

/-! ### Faults -/

/-- What is wrong, if a result was not reached. -/
def faultOf {ε α : Type} : Except ε α → Option ε
  | .ok _ => none
  | .error fault => some fault

theorem faultOf_eq_some {ε α : Type} {x : Except ε α} {fault : ε} :
    faultOf x = some fault ↔ x = .error fault := by
  cases x <;> simp [faultOf]

theorem faultOf_eq_none {ε α : Type} {x : Except ε α} : faultOf x = none ↔ ∃ a, x = .ok a := by
  cases x <;> simp [faultOf]

/-- The fault of two steps is that of the first of them that fails. -/
theorem faultOf_bind {ε α β : Type} {x : Except ε α} {f : α → Except ε β} {rest : Option ε}
    (h : ∀ a, x = .ok a → faultOf (f a) = rest) : faultOf (x >>= f) = (faultOf x).or rest := by
  cases x with
  | error fault => rfl
  | ok a => exact h a rfl

/-- A computation whose fault is the first one that a list of checks finds fails with the fault of
the check that all passing ones stand before. -/
theorem eq_error_iff_of_faultOf {ε α κ : Type} {x : Except ε α} {checks : List κ}
    {fault? : κ → Option ε} (h : faultOf x = checks.findSome? fault?) {fault : ε} :
    x = .error fault ↔ ∃ check before after, checks = before ++ check :: after ∧
      (∀ c ∈ before, fault? c = none) ∧ fault? check = some fault := by
  rw [← faultOf_eq_some, h, List.findSome?_eq_some_iff]
  constructor
  · rintro ⟨before, check, after, hsplit, hfault, hbefore⟩
    exact ⟨check, before, after, hsplit, hbefore, hfault⟩
  · rintro ⟨check, before, after, hsplit, hbefore, hfault⟩
    exact ⟨before, check, after, hsplit, hfault, hbefore⟩

theorem faultOf_map {ε α β : Type} (f : α → β) (x : Except ε α) :
    faultOf (do return f (← x)) = faultOf x := by
  cases x <;> rfl

end SamplingFrame
