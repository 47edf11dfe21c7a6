/-
ParmeliaLinks/Lib/System.lean

Handlers running side by side over one shared world.  A `System` says what
each operation does to the world, what the surroundings may do to it, and
which handler a call starts.  A pool is the world with the handlers under way;
a schedule is a list of labels, each starting a handler, letting one handler
perform its next operation, or letting the surroundings move.

* An operation is atomic.  Between two operations of one handler any number of
  other labels may occur, so each node of a handler is an interleaving point.
* A handler that crashes is one the schedule never picks again.
* An operation is told which handler performs it, so that history variables can
  record it.
* The answer carried by a step is what the outside contributes to it: the reply
  of a remote service, a fault.  Nothing restricts it except `Conditions`.

`run` is a function on schedules, so a single schedule can be evaluated, and a
statement about every schedule is a statement about every interleaving.
`Along` says that each step of a run meets given conditions in the state in
which it is taken.
-/
import ParmeliaLinks.Lib.Prog
import Mathlib.Data.List.Basic

namespace ParmeliaLinks

/-- What the operations, the surroundings and the calls of a component do. -/
structure System (Op : Type) (Reply : Op → Type) (World Answer Env Call Result : Type) where
  /-- One operation of a handler, with what the outside contributes to it. -/
  exec : Nat → (o : Op) → Answer → World → Reply o × World
  /-- One move of the surroundings. -/
  env : Env → World → World
  /-- The handler that a call starts. -/
  body : Call → Prog Op Reply Result

/-- One entry of a schedule. -/
inductive Label (Answer Env Call : Type) : Type where
  | spawn (c : Call)
  | step (i : Nat) (x : Answer)
  | env (e : Env)

/-- The shared world and the handlers started so far, in order of their start. -/
structure Pool (Op : Type) (Reply : Op → Type) (World Result : Type) where
  world : World
  threads : List (Prog Op Reply Result)

namespace System

variable {Op : Type} {Reply : Op → Type} {World Answer Env Call Result : Type}
variable (S : System Op Reply World Answer Env Call Result)

/-- One label.  A step of a handler that does not exist or has ended changes
nothing. -/
def next (p : Pool Op Reply World Result) : Label Answer Env Call → Pool Op Reply World Result
  | .spawn c => { p with threads := p.threads ++ [S.body c] }
  | .env e => { p with world := S.env e p.world }
  | .step i x =>
    match p.threads[i]? with
    | some (.act o k) =>
      { world := (S.exec i o x p.world).2
        threads := p.threads.set i (k (S.exec i o x p.world).1) }
    | _ => p

/-- A schedule, from a given pool. -/
def runFrom : Pool Op Reply World Result → List (Label Answer Env Call) →
    Pool Op Reply World Result
  | p, [] => p
  | p, l :: ls => runFrom (S.next p l) ls

/-- A schedule, from a world in which no handler has started. -/
def run (w : World) (ls : List (Label Answer Env Call)) : Pool Op Reply World Result :=
  S.runFrom ⟨w, []⟩ ls

@[simp] theorem runFrom_nil (p : Pool Op Reply World Result) : S.runFrom p [] = p := rfl

@[simp] theorem runFrom_cons (p : Pool Op Reply World Result) (l : Label Answer Env Call)
    (ls : List (Label Answer Env Call)) :
    S.runFrom p (l :: ls) = S.runFrom (S.next p l) ls := rfl

theorem runFrom_append (p : Pool Op Reply World Result) (ls ms : List (Label Answer Env Call)) :
    S.runFrom p (ls ++ ms) = S.runFrom (S.runFrom p ls) ms := by
  induction ls generalizing p with
  | nil => rfl
  | cons l ls ih => exact ih (S.next p l)

/-! ### The handlers of a pool -/

/-- The handlers after a call: those before it, and the new one. -/
theorem of_getElem?_concat {α : Type} {l : List α} {a b : α} {i : Nat}
    (h : (l ++ [a])[i]? = some b) : l[i]? = some b ∨ i = l.length ∧ b = a := by
  rw [List.getElem?_append] at h
  split at h
  · exact .inl h
  · rw [List.getElem?_singleton] at h
    split at h
    · exact .inr ⟨by omega, (Option.some.inj h).symm⟩
    · cases h

theorem getElem?_concat {α : Type} {l : List α} {a b : α} {i : Nat} (h : l[i]? = some b) :
    (l ++ [a])[i]? = some b := by
  obtain ⟨hi, -⟩ := List.getElem?_eq_some_iff.1 h
  rwa [List.getElem?_append_left hi]

theorem getElem?_set_of_some {α : Type} {l : List α} {a b : α} {i : Nat} (h : l[i]? = some b) :
    (l.set i a)[i]? = some a := by
  obtain ⟨hi, -⟩ := List.getElem?_eq_some_iff.1 h
  exact List.getElem?_set_self hi

/-! ### The calls of a schedule -/

/-- The calls of a schedule, in order; the handler `i` is that of the call `i`. -/
def calls : List (Label Answer Env Call) → List Call
  | [] => []
  | .spawn c :: ls => c :: calls ls
  | _ :: ls => calls ls

/-- The handlers are what is left of those of the calls `cs`, and perform what those may. -/
structure Started (P : Call → Op → Prop) (cs : List Call) (p : Pool Op Reply World Result) :
    Prop where
  length : p.threads.length = cs.length
  thread : ∀ (i : Nat) (t : Prog Op Reply Result), p.threads[i]? = some t →
    ∃ c, cs[i]? = some c ∧ t.Uses (P c)

variable {S}

theorem started_spawn {P : Call → Op → Prop} (body : ∀ c, (S.body c).Uses (P c))
    {p : Pool Op Reply World Result} {cs : List Call} (h : Started P cs p) (c : Call) :
    Started P (cs ++ [c]) (S.next p (.spawn c)) where
  length := by simp [next, h.length]
  thread i t ht := by
    rcases of_getElem?_concat ht with ht | ⟨hi, rfl⟩
    · obtain ⟨c', hc', uses⟩ := h.thread i t ht
      exact ⟨c', getElem?_concat hc', uses⟩
    · exact ⟨c, by rw [hi, h.length, List.getElem?_concat_length], body c⟩

theorem started_step {P : Call → Op → Prop} {p : Pool Op Reply World Result} {cs : List Call}
    (h : Started P cs p) (i : Nat) (x : Answer) : Started P cs (S.next p (.step i x)) := by
  simp only [next]
  split
  · rename_i o k hi
    refine ⟨by simp [h.length], fun j t ht => ?_⟩
    by_cases hj : j = i
    · subst hj
      obtain rfl := Option.some.inj ((getElem?_set_of_some hi).symm.trans ht)
      obtain ⟨c, hc, uses⟩ := h.thread j _ hi
      exact ⟨c, hc, uses.2 _⟩
    · rw [List.getElem?_set_ne (Ne.symm hj)] at ht
      exact h.thread j t ht
  · exact h

theorem started_runFrom {P : Call → Op → Prop} (body : ∀ c, (S.body c).Uses (P c))
    {p : Pool Op Reply World Result} {cs : List Call} (h : Started P cs p)
    (ls : List (Label Answer Env Call)) : Started P (cs ++ calls ls) (S.runFrom p ls) := by
  induction ls generalizing p cs with
  | nil => simpa [calls] using h
  | cons l ls ih =>
    cases l with
    | spawn c =>
      have rest := ih (started_spawn body h c)
      rwa [List.append_assoc] at rest
    | env e => exact ih ⟨h.length, h.thread⟩
    | step i x => exact ih (started_step h i x)

/-- What a handler of a run has left it may perform for the call that started it. -/
theorem uses_run {P : Call → Op → Prop} (body : ∀ c, (S.body c).Uses (P c)) (w : World)
    (ls : List (Label Answer Env Call)) {i : Nat} {t : Prog Op Reply Result}
    (ht : (S.run w ls).threads[i]? = some t) : ∃ c, (calls ls)[i]? = some c ∧ t.Uses (P c) := by
  have start : Started P [] (⟨w, []⟩ : Pool Op Reply World Result) :=
    ⟨rfl, fun i t ht => by simp at ht⟩
  have started := started_runFrom body start ls
  exact started.thread i t ht

variable (S)

/-! ### Conditions on the steps of a run -/

/-- A condition on each kind of label, in the state in which it is taken. -/
structure Conditions (Op World Answer Env Call : Type) where
  op : Nat → Op → Answer → World → Prop := fun _ _ _ _ => True
  env : Env → World → Prop := fun _ _ => True
  call : Call → World → Prop := fun _ _ => True

/-- The label meets the conditions in the pool. -/
def Meets (C : Conditions Op World Answer Env Call) (p : Pool Op Reply World Result) :
    Label Answer Env Call → Prop
  | .spawn c => C.call c p.world
  | .env e => C.env e p.world
  | .step i x => ∀ o k, p.threads[i]? = some (.act o k) → C.op i o x p.world

/-- Every step of the run meets the conditions. -/
def Along (C : Conditions Op World Answer Env Call) :
    Pool Op Reply World Result → List (Label Answer Env Call) → Prop
  | _, [] => True
  | p, l :: ls => Meets C p l ∧ Along C (S.next p l) ls

/-- The conditions that every step meets. -/
def Conditions.any : Conditions Op World Answer Env Call := {}

theorem along_any (p : Pool Op Reply World Result) (ls : List (Label Answer Env Call)) :
    S.Along Conditions.any p ls := by
  induction ls generalizing p with
  | nil => trivial
  | cons l ls ih =>
    refine ⟨?_, ih (S.next p l)⟩
    cases l with
    | spawn c => trivial
    | env e => trivial
    | step i x => exact fun _ _ _ => trivial

variable {S}

theorem along_append {C : Conditions Op World Answer Env Call} {p : Pool Op Reply World Result}
    {ls ms : List (Label Answer Env Call)} :
    S.Along C p (ls ++ ms) ↔ S.Along C p ls ∧ S.Along C (S.runFrom p ls) ms := by
  induction ls generalizing p with
  | nil => simp [Along]
  | cons l ls ih => simp only [List.cons_append, Along, runFrom_cons, ih, and_assoc]

/-- Worlds that every step relates are related by every run. -/
theorem related {C : Conditions Op World Answer Env Call} {R : World → World → Prop}
    (refl : ∀ w, R w w) (trans : ∀ {w₁ w₂ w₃}, R w₁ w₂ → R w₂ w₃ → R w₁ w₃)
    (op : ∀ i o x w, C.op i o x w → R w (S.exec i o x w).2)
    (env : ∀ e w, C.env e w → R w (S.env e w))
    {p : Pool Op Reply World Result} {ls : List (Label Answer Env Call)} (h : S.Along C p ls) :
    R p.world (S.runFrom p ls).world := by
  induction ls generalizing p with
  | nil => exact refl p.world
  | cons l ls ih =>
    refine trans ?_ (ih h.2)
    cases l with
    | spawn c => exact refl p.world
    | env e => exact env e p.world h.1
    | step i x =>
      simp only [next]
      split
      · rename_i o k hi
        exact op i o x p.world (h.1 o k hi)
      · exact refl p.world

/-! Conditions that can be computed can be computed along a run. -/

instance {C : Conditions Op World Answer Env Call} {p : Pool Op Reply World Result}
    [∀ i o x w, Decidable (C.op i o x w)] [∀ e w, Decidable (C.env e w)]
    [∀ c w, Decidable (C.call c w)] : (l : Label Answer Env Call) → Decidable (Meets C p l)
  | .spawn c => inferInstanceAs (Decidable (C.call c p.world))
  | .env e => inferInstanceAs (Decidable (C.env e p.world))
  | .step i x =>
    match h : p.threads[i]? with
    | some (.act o k) =>
      if hC : C.op i o x p.world then
        isTrue fun o' k' h' => by rw [h] at h'; cases h'; exact hC
      else isFalse fun hm => hC (hm o k h)
    | some (.ret _) => isTrue fun _ _ h' => by rw [h] at h'; cases h'
    | some (.throw _) => isTrue fun _ _ h' => by rw [h] at h'; cases h'
    | none => isTrue fun _ _ h' => by rw [h] at h'; cases h'

instance decidableAlong {C : Conditions Op World Answer Env Call}
    [∀ i o x w, Decidable (C.op i o x w)] [∀ e w, Decidable (C.env e w)]
    [∀ c w, Decidable (C.call c w)] : (p : Pool Op Reply World Result) →
    (ls : List (Label Answer Env Call)) → Decidable (S.Along C p ls)
  | _, [] => isTrue trivial
  | p, l :: ls =>
    have : Decidable (S.Along C (S.next p l) ls) := decidableAlong _ ls
    inferInstanceAs (Decidable (Meets C p l ∧ S.Along C (S.next p l) ls))

end System

end ParmeliaLinks
