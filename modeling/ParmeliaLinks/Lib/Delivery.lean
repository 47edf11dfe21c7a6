/-
ParmeliaLinks/Lib/Delivery.lean

Remote statements that may fail.  A statement sent to a database over a network is
answered, or lost before it took effect, or carried out without an answer.  The
caller sees an error in the last two cases and cannot tell them apart.
-/
import Mathlib.Data.List.Basic

namespace ParmeliaLinks

/-- What becomes of a statement. -/
inductive Delivery
  | done
  | lost (message : String)
  | unacknowledged (message : String)

namespace Delivery

variable {α W : Type}

/-- The reply that the caller gets and the world that is left, when the statement
yields `r` in the world `w`. -/
def deliver (x : Delivery) (w : W) (r : α × W) : Except String α × W :=
  match x with
  | .done => (.ok r.1, r.2)
  | .lost m => (.error m, w)
  | .unacknowledged m => (.error m, r.2)

/-- It has its effect. -/
def happens : Delivery → Bool
  | .lost _ => false
  | _ => true

/-- The caller knows whether it has its effect: an error means that it has none. -/
def known : Delivery → Bool
  | .unacknowledged _ => false
  | _ => true

/-- It is answered. -/
def answered : Delivery → Bool
  | .done => true
  | _ => false

@[simp] theorem deliver_done (w : W) (r : α × W) : done.deliver w r = (.ok r.1, r.2) := rfl

/-- The statement had its effect or none. -/
theorem deliver_world (x : Delivery) (w : W) (r : α × W) :
    (x.deliver w r).2 = w ∨ (x.deliver w r).2 = r.2 := by
  cases x with
  | done => exact .inr rfl
  | lost m => exact .inl rfl
  | unacknowledged m => exact .inr rfl

/-- What is answered has happened. -/
theorem of_deliver_ok {x : Delivery} {w : W} {r : α × W} {a : α}
    (h : (x.deliver w r).1 = .ok a) : r.1 = a ∧ (x.deliver w r).2 = r.2 := by
  cases x with
  | done => exact ⟨Except.ok.inj h, rfl⟩
  | lost m => cases h
  | unacknowledged m => cases h

/-- What holds without the statement and with it holds afterwards. -/
theorem deliver_induction {P : W → Prop} (x : Delivery) {w : W} {r : α × W} (before : P w)
    (after : P r.2) : P (x.deliver w r).2 := by
  rcases x.deliver_world w r with same | same
  · rw [same]
    exact before
  · rw [same]
    exact after

/-- A query leaves the world as it is. -/
@[simp] theorem deliver_query (x : Delivery) (w : W) (a : α) : (x.deliver w (a, w)).2 = w := by
  cases x <;> rfl

end Delivery

end ParmeliaLinks
