import Mathlib.Tactic.Common

/-!
When a computation in `Except` succeeds: the inversions of `map` and `bind`,
which take a success apart into the successes it is made of, and the step of a block
whose first computation succeeds; and where a block that fails has failed.
-/

variable {ε α β : Type*}

lemma except_map_eq_ok {x : Except ε α} {f : α → β} {b : β} :
    x.map f = .ok b ↔ ∃ a, x = .ok a ∧ f a = b := by
  cases x <;> simp [Except.map]

lemma except_bind_eq_ok {x : Except ε α} {f : α → Except ε β} {b : β} :
    x.bind f = .ok b ↔ ∃ a, x = .ok a ∧ f a = .ok b := by
  cases x <;> simp [Except.bind]

lemma except_ok_bind {a : α} {f : α → Except ε β} : (.ok a : Except ε α).bind f = f a := rfl

lemma except_toOption_eq_some {x : Except ε α} {a : α} : x.toOption = some a ↔ x = .ok a := by
  cases x <;> simp [Except.toOption]

section Block

universe u

variable {σ τ : Type u}

lemma except_do_eq_ok {x : Except ε σ} {f : σ → Except ε τ} {b : τ} :
    (x >>= f) = .ok b ↔ ∃ a, x = .ok a ∧ f a = .ok b := except_bind_eq_ok

lemma except_do_eq_error {x : Except ε σ} {f : σ → Except ε τ} {e : ε} :
    (x >>= f) = .error e ↔ x = .error e ∨ ∃ a, x = .ok a ∧ f a = .error e := by
  cases x <;> simp [bind, Except.bind]

@[simp] lemma except_ok_do {a : σ} {f : σ → Except ε τ} : ((.ok a : Except ε σ) >>= f) = f a := rfl

end Block
