import Mathlib.Data.List.Basic

/-!
Histories as lists, the latest event at the end.
-/

namespace ChipEight.History

variable {Event : Type}

/-- Where an event of a history stands that was made longer by one: at its end or before. -/
theorem concat_eq_append_cons_iff {events earlier later : List Event} {event middle : Event} :
    events ++ [event] = earlier ++ middle :: later ↔
      (events = earlier ∧ event = middle ∧ later = []) ∨
        ∃ rest, later = rest ++ [event] ∧ events = earlier ++ middle :: rest := by
  constructor
  · intro h
    rcases List.eq_nil_or_concat' later with rfl | ⟨rest, last, rfl⟩
    · have hsplit := List.append_inj' h rfl
      exact Or.inl ⟨hsplit.1, List.singleton_inj.mp hsplit.2, rfl⟩
    · rw [← List.cons_append, ← List.append_assoc] at h
      have hsplit := List.append_inj' h rfl
      exact Or.inr ⟨rest, by rw [hsplit.2], hsplit.1⟩
  · intro h
    rcases h with ⟨rfl, rfl, rfl⟩ | ⟨rest, rfl, rfl⟩
    · rfl
    · simp

end ChipEight.History
