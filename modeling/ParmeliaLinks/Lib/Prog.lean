/-
ParmeliaLinks/Lib/Prog.lean

Interaction programs.  An asynchronous handler talks to the outside through a
fixed signature of operations: one statement or one batch against a database,
one remote call, one read of the clock.  Between two operations it only
computes.  `Prog Op Reply α` is the syntax of such a handler: a tree whose
nodes are operations and whose leaves are a returned value or a thrown error.

Every node is one await of the handler, and so one point where other handlers
may run in between; `Lib.System` gives the trees that meaning.  The monad
structure lets a handler be written with `do`, and `tryCatch` is the
`try`/`catch` of the source language.
-/
import Mathlib.Logic.Basic

namespace ParmeliaLinks

/-- A handler over the operations `Op`, where `Reply o` is what the operation
`o` answers. -/
inductive Prog (Op : Type) (Reply : Op → Type) (α : Type) : Type where
  | ret (a : α)
  | throw (message : String)
  | act (o : Op) (k : Reply o → Prog Op Reply α)

namespace Prog

variable {Op : Type} {Reply : Op → Type} {α β γ : Type}

/-! ### The monad -/

/-- Run the first handler, then the second on its value. -/
protected def bind : Prog Op Reply α → (α → Prog Op Reply β) → Prog Op Reply β
  | .ret a, f => f a
  | .throw m, _ => .throw m
  | .act o k, f => .act o fun r => (k r).bind f

/-- Run a handler and give a thrown error to `h`. -/
protected def tryCatch : Prog Op Reply α → (String → Prog Op Reply α) → Prog Op Reply α
  | .ret a, _ => .ret a
  | .throw m, h => h m
  | .act o k, h => .act o fun r => (k r).tryCatch h

instance : Monad (Prog Op Reply) where
  pure := .ret
  bind := .bind

instance : MonadExceptOf String (Prog Op Reply) where
  throw := .throw
  tryCatch := .tryCatch

/-- One operation. -/
def perform (o : Op) : Prog Op Reply (Reply o) := .act o .ret

/-- The value of a result, or its error. -/
def ofExcept : Except String α → Prog Op Reply α
  | .ok a => .ret a
  | .error m => .throw m

/-- A handler whose result nobody looks at. -/
def discard (p : Prog Op Reply α) : Prog Op Reply Unit := p.bind fun _ => .ret ()

/-- The outcome of a handler as a value. -/
def attempt : Prog Op Reply α → Prog Op Reply (Except String α)
  | .ret a => .ret (.ok a)
  | .throw m => .ret (.error m)
  | .act o k => .act o fun r => (k r).attempt

@[simp] theorem pure_eq (a : α) : (pure a : Prog Op Reply α) = .ret a := rfl

@[simp] theorem throw_eq (m : String) :
    (MonadExcept.throw m : Prog Op Reply α) = .throw m := rfl

@[simp] theorem bind_eq (p : Prog Op Reply α) (f : α → Prog Op Reply β) :
    p >>= f = p.bind f := rfl

@[simp] theorem ret_bind (a : α) (f : α → Prog Op Reply β) :
    (Prog.ret a).bind f = f a := rfl

@[simp] theorem throw_bind (m : String) (f : α → Prog Op Reply β) :
    (Prog.throw m).bind f = .throw m := rfl

@[simp] theorem act_bind (o : Op) (k : Reply o → Prog Op Reply α)
    (f : α → Prog Op Reply β) :
    (Prog.act o k).bind f = .act o fun r => (k r).bind f := rfl

theorem bind_assoc (p : Prog Op Reply α) (f : α → Prog Op Reply β)
    (g : β → Prog Op Reply γ) :
    (p.bind f).bind g = p.bind fun a => (f a).bind g := by
  induction p with
  | ret a => rfl
  | throw m => rfl
  | act o k ih => simp only [act_bind, ih]

/-! ### Handlers that use certain operations only -/

/-- Every operation that the handler may perform satisfies `P`. -/
def Uses (P : Op → Prop) : Prog Op Reply α → Prop
  | .ret _ => True
  | .throw _ => True
  | .act o k => P o ∧ ∀ r, (k r).Uses P

@[simp] theorem uses_ret (P : Op → Prop) (a : α) : (Prog.ret a : Prog Op Reply α).Uses P :=
  trivial

@[simp] theorem uses_throw (P : Op → Prop) (m : String) :
    (Prog.throw m : Prog Op Reply α).Uses P := trivial

@[simp] theorem uses_perform (P : Op → Prop) (o : Op) :
    (perform o : Prog Op Reply (Reply o)).Uses P ↔ P o := by
  simp [perform, Uses]

theorem uses_bind {P : Op → Prop} {p : Prog Op Reply α} {f : α → Prog Op Reply β}
    (hp : p.Uses P) (hf : ∀ a, (f a).Uses P) : (p.bind f).Uses P := by
  induction p with
  | ret a => exact hf a
  | throw m => trivial
  | act o k ih => exact ⟨hp.1, fun r => ih r (hp.2 r)⟩

theorem uses_ofExcept (P : Op → Prop) (r : Except String α) :
    (ofExcept r : Prog Op Reply α).Uses P := by
  cases r <;> trivial

theorem uses_tryCatch {P : Op → Prop} {p : Prog Op Reply α} {h : String → Prog Op Reply α}
    (hp : p.Uses P) (hh : ∀ m, (h m).Uses P) : (p.tryCatch h).Uses P := by
  induction p with
  | ret a => trivial
  | throw m => exact hh m
  | act o k ih => exact ⟨hp.1, fun r => ih r (hp.2 r)⟩

theorem uses_mono {P P' : Op → Prop} {p : Prog Op Reply α} (hp : p.Uses P)
    (h : ∀ o, P o → P' o) : p.Uses P' := by
  induction p with
  | ret a => trivial
  | throw m => trivial
  | act o k ih => exact ⟨h o hp.1, fun r => ih r (hp.2 r)⟩

theorem uses_attempt {P : Op → Prop} {p : Prog Op Reply α} (hp : p.Uses P) :
    p.attempt.Uses P := by
  induction p with
  | ret a => trivial
  | throw m => trivial
  | act o k ih => exact ⟨hp.1, fun r => ih r (hp.2 r)⟩

theorem uses_discard {P : Op → Prop} {p : Prog Op Reply α} (h : p.Uses P) :
    p.discard.Uses P :=
  uses_bind h fun _ => trivial

end Prog

end ParmeliaLinks
