/-
ParmeliaLinks/Lib/Machine.lean

Machines that take one event after the other.  Everything that can happen to a
component is an event: a request, a timer that fires, one step of a procedure that
is under way, a crash.  `step` says what an event does, and a history is a list of
events, so a statement about all lists is one about all interleavings.

An event that cannot happen in a state leaves it as it is.  `Along` says that each
event of a history meets a condition in the state in which it happens, and
`invariant` carries what every such event keeps through the history.
-/
import Mathlib.Logic.Basic

namespace ParmeliaLinks

/-- What each event does to the state. -/
structure Machine (Event State : Type) where
  step : Event → State → State

namespace Machine

variable {Event State : Type} (M : Machine Event State)

/-- A history, from a state. -/
def run : State → List Event → State
  | s, [] => s
  | s, e :: es => run (M.step e s) es

/-- Every event meets the condition when it happens. -/
def Along (C : Event → State → Prop) : State → List Event → Prop
  | _, [] => True
  | s, e :: es => C e s ∧ Along C (M.step e s) es

instance decidableAlong {C : Event → State → Prop} [∀ e s, Decidable (C e s)] :
    (s : State) → (es : List Event) → Decidable (M.Along C s es)
  | _, [] => isTrue trivial
  | s, e :: es =>
    have : Decidable (M.Along C (M.step e s) es) := decidableAlong _ es
    inferInstanceAs (Decidable (C e s ∧ M.Along C (M.step e s) es))

variable {M}

theorem run_append (s : State) (es fs : List Event) :
    M.run s (es ++ fs) = M.run (M.run s es) fs := by
  induction es generalizing s with
  | nil => rfl
  | cons e es ih => exact ih (M.step e s)

theorem along_append {C : Event → State → Prop} {s : State} {es fs : List Event} :
    M.Along C s (es ++ fs) ↔ M.Along C s es ∧ M.Along C (M.run s es) fs := by
  induction es generalizing s with
  | nil => simp [Along, run]
  | cons e es ih => simp only [List.cons_append, Along, run, ih, and_assoc]

theorem along_mono {C C' : Event → State → Prop} {s : State} {es : List Event}
    (weaker : ∀ e s, C e s → C' e s) (h : M.Along C s es) : M.Along C' s es := by
  induction es generalizing s with
  | nil => trivial
  | cons e es ih => exact ⟨weaker e s h.1, ih h.2⟩

/-- What every event keeps holds after every history. -/
theorem invariant {C : Event → State → Prop} {I : State → Prop}
    (keeps : ∀ e s, I s → C e s → I (M.step e s)) {s : State} {es : List Event} (start : I s)
    (h : M.Along C s es) : I (M.run s es) := by
  induction es generalizing s with
  | nil => exact start
  | cons e es ih => exact ih (keeps e s start h.1) h.2

/-- What every event demands of the state, in states that keep the invariant, is met along
the history. -/
theorem along_of_invariant {C C' : Event → State → Prop} {I : State → Prop}
    (keeps : ∀ e s, I s → C e s → I (M.step e s)) (demand : ∀ e s, I s → C e s → C' e s)
    {s : State} {es : List Event} (start : I s) (h : M.Along C s es) : M.Along C' s es := by
  induction es generalizing s with
  | nil => trivial
  | cons e es ih => exact ⟨demand e s start h.1, ih (keeps e s start h.1) h.2⟩

/-- States that every event relates are related by every history. -/
theorem related {C : Event → State → Prop} {I : State → Prop} {R : State → State → Prop}
    (refl : ∀ s, R s s) (trans : ∀ {s s' s''}, R s s' → R s' s'' → R s s'')
    (keeps : ∀ e s, I s → C e s → I (M.step e s) ∧ R s (M.step e s))
    {s : State} {es : List Event} (start : I s) (h : M.Along C s es) : R s (M.run s es) := by
  induction es generalizing s with
  | nil => exact refl s
  | cons e es ih =>
    obtain ⟨inv, rel⟩ := keeps e s start h.1
    exact trans rel (ih inv h.2)

/-- Every history meets the condition that is always met. -/
theorem along_true (s : State) (es : List Event) : M.Along (fun _ _ => True) s es := by
  induction es generalizing s with
  | nil => trivial
  | cons e es ih => exact ⟨trivial, ih _⟩

end Machine

end ParmeliaLinks
