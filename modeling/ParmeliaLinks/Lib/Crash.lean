/-
ParmeliaLinks/Lib/Crash.lean

Handlers that may die.  In `Lib.System` a handler that crashes is one that is never picked
again, and cannot be told from one that takes its time.  Where a statement is about what is
left when nothing is under way any more, a crash has to be an event of its own: the handler
ends, between two of its operations (`System.mortal`).

`Discipline.Lives` says what the surroundings, the handlers and the crashes have to keep, and
`upright_run` that then every handler goes on following the discipline.  The statement about
the outcome depends on the handler here, so it may be about what the world says of it: what
it has taken and not given back, say.  `Fresh` is what holds of a handler that has not begun.
-/
import ParmeliaLinks.Lib.Machine
import ParmeliaLinks.Lib.RelyGuarantee

namespace ParmeliaLinks

variable {Op : Type} {Reply : Op → Type} {World Answer Env Call Result : Type}

/-- A label, or the end of a handler. -/
inductive Happening (Answer Env Call : Type)
  | label (l : Label Answer Env Call)
  | crash (i : Nat)

namespace System

variable (S : System Op Reply World Answer Env Call Result)

def happen : Happening Answer Env Call → Pool Op Reply World Result → Pool Op Reply World Result
  | .label l, p => S.next p l
  | .crash i, p =>
    match p.threads[i]? with
    | some (.act _ _) => { p with threads := p.threads.set i (.throw "crashed") }
    | _ => p

/-- The handlers of a system, which may die. -/
def mortal : Machine (Happening Answer Env Call) (Pool Op Reply World Result) where
  step := S.happen

/-- The label meets the conditions, the handler may die here. -/
def Bears (C : Conditions Op World Answer Env Call) (fatal : Nat → World → Prop) :
    Happening Answer Env Call → Pool Op Reply World Result → Prop
  | .label l, p => Meets C p l
  | .crash i, p => fatal i p.world

instance {C : Conditions Op World Answer Env Call} {fatal : Nat → World → Prop}
    [∀ i o x w, Decidable (C.op i o x w)] [∀ e w, Decidable (C.env e w)]
    [∀ c w, Decidable (C.call c w)] [∀ i w, Decidable (fatal i w)] :
    (h : Happening Answer Env Call) → (p : Pool Op Reply World Result) →
      Decidable (Bears C fatal h p)
  | .label l, p => inferInstanceAs (Decidable (Meets C p l))
  | .crash i, p => inferInstanceAs (Decidable (fatal i p.world))

/-- The handler has operations left. -/
def Running (i : Nat) (p : Pool Op Reply World Result) : Prop :=
  ∃ o k, p.threads[i]? = some (.act o k)

end System

namespace Discipline

variable (D : Discipline Op World Answer Env Call)
variable (S : System Op Reply World Answer Env Call Result)

/-- The surroundings, the calls and the crashes follow the discipline. -/
structure Lives (fatal : Nat → World → Prop) (Fresh : Nat → World → Prop)
    (Q : Nat → Except String Result → World → Prop) : Prop where
  env : ∀ e w, D.Inv w → D.allowed.env e w → D.Moves w (S.env e w)
  call : ∀ c i w, D.Inv w → D.allowed.call c w → Fresh i w → D.Stands S i (S.body c) (Q i) w
  crash : ∀ i w w' m, D.Inv w → fatal i w → D.Later i w w' → Q i (.error m) w'
  fresh : ∀ i w w', Fresh i w → D.rely i w w' → Fresh i w'

/-- The invariant holds, each handler stands, and those to come are fresh. -/
structure Upright (Fresh : Nat → World → Prop)
    (Q : Nat → Except String Result → World → Prop) (p : Pool Op Reply World Result) : Prop where
  inv : D.Inv p.world
  threads : ∀ i t, p.threads[i]? = some t → D.Stands S i t (Q i) p.world
  fresh : ∀ i, p.threads.length ≤ i → Fresh i p.world

variable {D S} {fatal : Nat → World → Prop} {Fresh : Nat → World → Prop}
  {Q : Nat → Except String Result → World → Prop}

theorem upright_empty {w : World} (inv : D.Inv w) (fresh : ∀ i, Fresh i w) :
    D.Upright S Fresh Q ⟨w, []⟩ where
  inv := inv
  threads i t ht := by simp at ht
  fresh i _ := fresh i

/-- A step of the handler `i`. -/
theorem upright_step (lives : D.Lives S fatal Fresh Q) {p : Pool Op Reply World Result} {i : Nat}
    {x : Answer} (h : D.Upright S Fresh Q p)
    (hl : System.Meets D.allowed p (.step i x : Label Answer Env Call)) :
    D.Upright S Fresh Q (S.next p (.step i x)) := by
  simp only [System.next]
  split
  · rename_i o k hi
    obtain ⟨performs, rest⟩ := h.threads i _ hi p.world (D.later_refl h.inv) x (hl o k hi)
    refine ⟨performs.inv, fun j t ht => ?_, fun j hj => ?_⟩
    · by_cases hj : j = i
      · subst hj
        obtain rfl := Option.some.inj ((System.getElem?_set_of_some hi).symm.trans ht)
        exact rest
      · rw [List.getElem?_set_ne (Ne.symm hj)] at ht
        exact (h.threads j t ht).later (performs.later hj)
    · rw [List.length_set] at hj
      obtain ⟨started, -⟩ := List.getElem?_eq_some_iff.1 hi
      have other : j ≠ i := by omega
      exact lives.fresh j _ _ (h.fresh j hj) (performs.relied j other)
  · exact h

theorem upright_happen (lives : D.Lives S fatal Fresh Q) {p : Pool Op Reply World Result}
    {e : Happening Answer Env Call} (h : D.Upright S Fresh Q p)
    (he : System.Bears D.allowed fatal e p) : D.Upright S Fresh Q (S.happen e p) := by
  cases e with
  | crash i =>
    simp only [System.happen]
    split
    · refine ⟨h.inv, fun j t ht => ?_, fun j hj => ?_⟩
      · by_cases hj : j = i
        · subst hj
          obtain ⟨started, same⟩ := List.getElem?_eq_some_iff.1 ht
          rw [List.getElem_set_self] at same
          subst same
          exact fun w later => lives.crash j _ _ _ h.inv he later
        · rw [List.getElem?_set_ne (Ne.symm hj)] at ht
          exact h.threads j t ht
      · rw [List.length_set] at hj
        exact h.fresh j hj
    · exact h
  | label l =>
    cases l with
    | step i x => exact upright_step lives h he
    | env e =>
      have moves := lives.env e p.world h.inv he
      exact ⟨moves.inv, fun i t ht => (h.threads i t ht).later (moves.later i),
        fun i hi => lives.fresh i _ _ (h.fresh i hi) (moves.relied i)⟩
    | spawn c =>
      refine ⟨h.inv, fun i t ht => ?_, fun i hi => ?_⟩
      · rcases System.of_getElem?_concat ht with ht | ⟨rfl, rfl⟩
        · exact h.threads i t ht
        · exact lives.call c _ p.world h.inv he (h.fresh _ (Nat.le_refl _))
      · refine h.fresh i (Nat.le_trans ?_ hi)
        show p.threads.length ≤ (p.threads ++ [_]).length
        rw [List.length_append]
        exact Nat.le_add_right _ _

/-- Every handler of every history follows the discipline, and ends with what it has to. -/
theorem upright_run (lives : D.Lives S fatal Fresh Q) {p : Pool Op Reply World Result}
    {es : List (Happening Answer Env Call)} (h : D.Upright S Fresh Q p)
    (along : S.mortal.Along (System.Bears D.allowed fatal) p es) :
    D.Upright S Fresh Q (S.mortal.run p es) :=
  Machine.invariant (I := D.Upright S Fresh Q) (fun _ _ h he => upright_happen lives h he) h along

/-- A handler of which the outcome does not hold is running. -/
theorem running_of_not {p : Pool Op Reply World Result} (h : D.Upright S Fresh Q p) {i : Nat}
    (fresh : ¬ Fresh i p.world) (outcome : ∀ r, ¬ Q i r p.world) : System.Running i p := by
  rcases started : p.threads[i]? with - | t
  · exact absurd (h.fresh i (List.getElem?_eq_none_iff.1 started)) fresh
  · cases t with
    | ret a => exact absurd (h.threads i _ started p.world (D.later_refl h.inv)) (outcome _)
    | throw m => exact absurd (h.threads i _ started p.world (D.later_refl h.inv)) (outcome _)
    | act o k => exact ⟨o, k, started⟩

end Discipline

end ParmeliaLinks
