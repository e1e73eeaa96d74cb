/-
# Computations that may fail

A computation ends with a result or with a fault.  Of two computations done one after the other, the
whole ends with a result exactly if both do.

* `bind_eq_ok` : the result of the whole is what the second makes of the result of the first;
* `Succeeds`, `succeeds_bind_iff` : the same, if it does not matter which result there is.
-/
import Mathlib.Tactic.Basic

namespace SolidityScan

variable {ε α β : Type}

/-- A sequence gives a result exactly if both of its computations do. -/
theorem bind_eq_ok {x : Except ε α} {f : α → Except ε β} {b : β} :
    (x >>= f) = .ok b ↔ ∃ a, x = .ok a ∧ f a = .ok b := by
  cases x with
  | ok a => simp [bind, Except.bind]
  | error e => simp [bind, Except.bind]

/-- The computation gives a result. -/
def Succeeds (x : Except ε α) : Prop :=
  ∃ a, x = .ok a

theorem succeeds_ok (a : α) : Succeeds (.ok a : Except ε α) :=
  ⟨a, rfl⟩

theorem not_succeeds_error (e : ε) : ¬ Succeeds (.error e : Except ε α) := by
  rintro ⟨a, ha⟩
  cases ha

instance (x : Except ε α) : Decidable (Succeeds x) :=
  match x with
  | .ok a => isTrue (succeeds_ok a)
  | .error e => isFalse (not_succeeds_error e)

/-- A sequence succeeds exactly if the first computation does, and the second on its result. -/
theorem succeeds_bind_iff {x : Except ε α} {f : α → Except ε β} :
    Succeeds (x >>= f) ↔ ∃ a, x = .ok a ∧ Succeeds (f a) := by
  constructor
  · rintro ⟨b, hb⟩
    obtain ⟨a, ha, hb⟩ := bind_eq_ok.1 hb
    exact ⟨a, ha, b, hb⟩
  · rintro ⟨a, ha, b, hb⟩
    exact ⟨b, bind_eq_ok.2 ⟨a, ha, hb⟩⟩

/-- If the second computation succeeds on every result, the first one decides. -/
theorem Succeeds.bind {x : Except ε α} {f : α → Except ε β} (hx : Succeeds x)
    (hf : ∀ a, Succeeds (f a)) : Succeeds (x >>= f) := by
  obtain ⟨a, ha⟩ := hx
  exact succeeds_bind_iff.2 ⟨a, ha, hf a⟩

/-- A choice succeeds if it does so either way. -/
theorem Succeeds.ite {c : Prop} [Decidable c] {x y : Except ε α} (hx : Succeeds x)
    (hy : Succeeds y) : Succeeds (if c then x else y) := by
  split
  · exact hx
  · exact hy

end SolidityScan
