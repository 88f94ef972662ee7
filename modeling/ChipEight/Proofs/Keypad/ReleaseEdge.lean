import ChipEight.Keypad
import ChipEight.Proofs.History
import Mathlib.Data.List.Basic
import Mathlib.Data.List.Induction

/-!
Which keys count as released after the events since the last latch. A key that is up and was
down at the latch or later counts, unless its last event released it once more while it was
up already: that event records the key as up and so takes the edge away. A new keypad is as
if it was just latched.
-/

namespace ChipEight.Keypad

/-- One key going down or up, possibly a repetition. -/
structure Event where
  key : Key
  isDown : Bool
  deriving DecidableEq, Repr

def perform (keypad : Keypad) (event : Event) : Keypad :=
  keypad.set event.key event.isDown

def performAll (keypad : Keypad) (events : List Event) : Keypad :=
  events.foldl perform keypad

theorem performAll_concat (keypad : Keypad) (events : List Event) (event : Event) :
    keypad.performAll (events ++ [event]) = (keypad.performAll events).perform event := by
  simp only [performAll, List.foldl_append, List.foldl_cons, List.foldl_nil]

/-- The key was down at the start or after one of the events. -/
def WasDown (start : Keypad) (events : List Event) (key : Key) : Prop :=
  ∃ earlier, earlier <+: events ∧ (start.performAll earlier).isDown key = true

/-- The last event of the key released it while it was up. -/
def RepeatsRelease (start : Keypad) (events : List Event) (key : Key) : Prop :=
  ∃ earlier later, events = earlier ++ ⟨key, false⟩ :: later ∧
    (∀ event ∈ later, event.key ≠ key) ∧ (start.performAll earlier).isDown key = false

@[simp]
theorem isDown_perform (keypad : Keypad) (event : Event) (key : Key) :
    (keypad.perform event).isDown key =
      if event.key = key then event.isDown else keypad.isDown key := by
  simp only [perform, set, isDown, Fin.getElem_fin, Vector.getElem_set, Fin.val_inj]

/-- An event of a key leaves an edge if the key was down and goes up. -/
@[simp]
theorem isReleased_perform (keypad : Keypad) (event : Event) (key : Key) :
    (keypad.perform event).isReleased key =
      if event.key = key then keypad.isDown key && !event.isDown else keypad.isReleased key := by
  by_cases h : event.key = key
  · subst h
    simp [perform, set, isReleased, isDown]
  · have hval : event.key.val ≠ key.val := fun hval => h (Fin.val_inj.mp hval)
    simp [perform, set, isReleased, h, hval]

/-- Before its first latch a keypad is as after one. -/
theorem latch_new : ({ } : Keypad).latch = { } := rfl

theorem isReleased_latch (keypad : Keypad) (key : Key) :
    keypad.latch.isReleased key = false := by
  simp [latch, isReleased]

theorem wasDown_of_isDown {start : Keypad} {events : List Event} {key : Key}
    (h : (start.performAll events).isDown key = true) : WasDown start events key :=
  ⟨events, List.prefix_rfl, h⟩

theorem wasDown_concat (start : Keypad) (events : List Event) (event : Event) (key : Key) :
    WasDown start (events ++ [event]) key ↔
      WasDown start events key ∨
        (start.performAll (events ++ [event])).isDown key = true := by
  constructor
  · intro h
    obtain ⟨earlier, hprefix, hdown⟩ := h
    rcases List.prefix_concat_iff.mp hprefix with rfl | hprefix
    · exact Or.inr hdown
    · exact Or.inl ⟨earlier, hprefix, hdown⟩
  · intro h
    rcases h with ⟨earlier, hprefix, hdown⟩ | hdown
    · exact ⟨earlier, hprefix.trans (List.prefix_append _ _), hdown⟩
    · exact wasDown_of_isDown hdown

/-- An event of another key adds no moment at which this key was down. -/
theorem wasDown_concat_other {start : Keypad} {events : List Event} {event : Event} {key : Key}
    (h : event.key ≠ key) :
    WasDown start (events ++ [event]) key ↔ WasDown start events key := by
  rw [wasDown_concat, performAll_concat, isDown_perform, if_neg h]
  exact or_iff_left_of_imp wasDown_of_isDown

theorem repeatsRelease_concat_other {start : Keypad} {events : List Event} {event : Event}
    {key : Key} (h : event.key ≠ key) :
    RepeatsRelease start (events ++ [event]) key ↔ RepeatsRelease start events key := by
  constructor
  · intro hrepeats
    obtain ⟨earlier, later, heq, hlater, hup⟩ := hrepeats
    rcases History.concat_eq_append_cons_iff.mp heq with ⟨-, hevent, -⟩ | ⟨rest, rfl, hinit⟩
    · exact absurd (congrArg Event.key hevent) h
    · exact ⟨earlier, rest, hinit, fun e he => hlater e (List.mem_append_left _ he), hup⟩
  · intro hrepeats
    obtain ⟨earlier, later, rfl, hlater, hup⟩ := hrepeats
    refine ⟨earlier, later ++ [event], by simp, ?_, hup⟩
    intro e he
    rcases List.mem_append.mp he with he | he
    · exact hlater e he
    · rw [List.mem_singleton.mp he]
      exact h

/-- A release is repeated if the key was up just before. -/
theorem repeatsRelease_concat_release (start : Keypad) (events : List Event) (key : Key) :
    RepeatsRelease start (events ++ [⟨key, false⟩]) key ↔
      (start.performAll events).isDown key = false := by
  constructor
  · intro h
    obtain ⟨earlier, later, heq, hlater, hup⟩ := h
    rcases History.concat_eq_append_cons_iff.mp heq with ⟨rfl, -, -⟩ | ⟨rest, rfl, -⟩
    · exact hup
    · exact absurd rfl (hlater ⟨key, false⟩ (by simp))
  · intro hup
    exact ⟨events, [], rfl, by simp, hup⟩

/-- The edge of one key after any events. -/
theorem isReleased_performAll_iff (start : Keypad) (events : List Event) (key : Key) :
    (start.latch.performAll events).isReleased key = true ↔
      (start.latch.performAll events).isDown key = false ∧
        WasDown start.latch events key ∧ ¬ RepeatsRelease start.latch events key := by
  -- From the end, since the last event of a key decides.
  induction events using List.reverseRecOn with
  | nil =>
    simp only [performAll, List.foldl_nil, isReleased_latch, Bool.false_eq_true, false_iff]
    intro h
    obtain ⟨hup, ⟨earlier, hprefix, hdown⟩, -⟩ := h
    rw [List.prefix_nil.mp hprefix] at hdown
    simp [performAll, hup] at hdown
  | append_singleton events event ih =>
    by_cases hkey : event.key = key
    · obtain ⟨eventKey, goesDown⟩ := event
      subst hkey
      cases goesDown with
      | true => simp [performAll_concat]
      | false =>
        rw [repeatsRelease_concat_release, wasDown_concat, performAll_concat]
        simp only [isReleased_perform, isDown_perform, if_true, Bool.not_false, Bool.and_true,
          Bool.false_eq_true, or_false, true_and, Bool.not_eq_false]
        exact ⟨fun h => ⟨wasDown_of_isDown h, h⟩, fun h => h.2⟩
    · rw [wasDown_concat_other hkey, repeatsRelease_concat_other hkey, performAll_concat,
        isReleased_perform, isDown_perform, if_neg hkey, if_neg hkey]
      exact ih

theorem released?_eq_some_iff (keypad : Keypad) (key : Key) :
    keypad.released? = some key ↔
      keypad.isReleased key = true ∧ ∀ lower < key, keypad.isReleased lower = false := by
  rw [released?, List.find?_eq_some_iff_getElem]
  simp only [List.getElem_finRange, List.length_finRange, Bool.not_eq_true']
  constructor
  · intro h
    obtain ⟨hkey, i, hi, rfl, hlower⟩ := h
    exact ⟨hkey, fun lower h => by simpa using hlower lower.val (Fin.lt_def.mp h)⟩
  · intro h
    obtain ⟨hkey, hlower⟩ := h
    exact ⟨hkey, key.val, key.isLt, by simp, fun j hj => hlower _ (Fin.lt_def.mpr hj)⟩

theorem released?_eq_none_iff (keypad : Keypad) :
    keypad.released? = none ↔ ∀ key, keypad.isReleased key = false := by
  simp [released?]

/-- After any events since a latch, the released keys are those that are up and were down at
the latch or since, without those whose last release was a repetition, and the lowest of
them is the one that is reported. -/
theorem release_edges_since_latch (start : Keypad) (events : List Event) :
    (∀ key, (start.latch.performAll events).isReleased key = true ↔
      ((start.latch.performAll events).isDown key = false ∧ WasDown start.latch events key) ∧
        ¬ RepeatsRelease start.latch events key) ∧
    (∀ key, (start.latch.performAll events).released? = some key ↔
      (start.latch.performAll events).isReleased key = true ∧
        ∀ lower < key, (start.latch.performAll events).isReleased lower = false) ∧
    ((start.latch.performAll events).released? = none ↔
      ∀ key, (start.latch.performAll events).isReleased key = false) := by
  refine ⟨?_, released?_eq_some_iff _, released?_eq_none_iff _⟩
  intro key
  rw [isReleased_performAll_iff, and_assoc]

/-- Without the exception the edge of key 7 would outlive its second release. -/
theorem repeated_release_loses_edge :
    ¬ ∀ (start : Keypad) (events : List Event) (key : Key),
      (start.latch.performAll events).isReleased key = true ↔
        (start.latch.performAll events).isDown key = false ∧ WasDown start.latch events key := by
  intro h
  have hedge := (h (press { } 7) [⟨7, false⟩, ⟨7, false⟩] 7).mpr
    ⟨by decide, [], List.nil_prefix, by decide⟩
  exact absurd hedge (by decide)

end ChipEight.Keypad
