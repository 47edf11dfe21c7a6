/-
ParmeliaLinks/Lib/Alone.lean

A handler that runs with nothing in between.  `Prog.alone` takes a handler from its
first operation to its end against a world of its own; it is what the handler does in
a system in which no other label comes between its steps.
-/
import ParmeliaLinks.Lib.System

namespace ParmeliaLinks

variable {Op : Type} {Reply : Op → Type} {W α β : Type}

namespace Prog

/-- The outcome of a handler and the world that it leaves. -/
def alone (exec : (o : Op) → W → Reply o × W) : Prog Op Reply α → W → Except String α × W
  | .ret a, w => (.ok a, w)
  | .throw m, w => (.error m, w)
  | .act o k, w => (k (exec o w).1).alone exec (exec o w).2

variable {exec : (o : Op) → W → Reply o × W} {p : Prog Op Reply α} {f : α → Prog Op Reply β}
  {w w' : W}

@[simp] theorem alone_ret (a : α) : (Prog.ret a : Prog Op Reply α).alone exec w = (.ok a, w) :=
  rfl

@[simp] theorem alone_throw (m : String) :
    (Prog.throw m : Prog Op Reply α).alone exec w = (.error m, w) := rfl

@[simp] theorem alone_act (o : Op) (k : Reply o → Prog Op Reply α) :
    (Prog.act o k).alone exec w = (k (exec o w).1).alone exec (exec o w).2 := rfl

/-- The second handler starts where the first one ends. -/
theorem alone_bind {a : α} (h : p.alone exec w = (.ok a, w')) :
    (p.bind f).alone exec w = (f a).alone exec w' := by
  induction p generalizing w with
  | ret b =>
    cases h
    rfl
  | throw m => cases h
  | act o k ih => exact ih (exec o w).1 h

/-- A handler that fails leaves the second one out. -/
theorem alone_bind_error {m : String} (h : p.alone exec w = (.error m, w')) :
    (p.bind f).alone exec w = (.error m, w') := by
  induction p generalizing w with
  | ret b => cases h
  | throw m =>
    cases h
    rfl
  | act o k ih => exact ih (exec o w).1 h

/-- A handler that ends well needs no recovery. -/
theorem alone_tryCatch {a : α} {recover : String → Prog Op Reply α}
    (h : p.alone exec w = (.ok a, w')) : (p.tryCatch recover).alone exec w = (.ok a, w') := by
  induction p generalizing w with
  | ret b => exact h
  | throw m => cases h
  | act o k ih => exact ih (exec o w).1 h

/-- The recovery starts where the handler fails. -/
theorem alone_tryCatch_error {m : String} {recover : String → Prog Op Reply α}
    (h : p.alone exec w = (.error m, w')) :
    (p.tryCatch recover).alone exec w = (recover m).alone exec w' := by
  induction p generalizing w with
  | ret b => cases h
  | throw m =>
    cases h
    rfl
  | act o k ih => exact ih (exec o w).1 h

/-! ### Handlers that end with a value -/

/-- The handler ends with a value that satisfies `Q` in the world that it leaves. -/
def Ends (exec : (o : Op) → W → Reply o × W) (p : Prog Op Reply α) (w : W) (Q : α → W → Prop) :
    Prop :=
  ∃ a w', p.alone exec w = (.ok a, w') ∧ Q a w'

variable {Q R : α → W → Prop}

theorem ends_ret {a : α} (h : Q a w) : (Prog.ret a : Prog Op Reply α).Ends exec w Q :=
  ⟨a, w, rfl, h⟩

theorem ends_act {o : Op} {k : Reply o → Prog Op Reply α}
    (h : (k (exec o w).1).Ends exec (exec o w).2 Q) : (Prog.act o k).Ends exec w Q :=
  h

theorem ends_bind {Q : β → W → Prop} (first : p.Ends exec w R)
    (rest : ∀ a w', R a w' → (f a).Ends exec w' Q) : (p.bind f).Ends exec w Q := by
  obtain ⟨a, w', run, h⟩ := first
  obtain ⟨b, w'', run', h'⟩ := rest a w' h
  exact ⟨b, w'', (alone_bind run).trans run', h'⟩

theorem ends_ofExcept {a : α} {Q : β → W → Prop} (h : (f a).Ends exec w Q) :
    ((ofExcept (.ok a)).bind f).Ends exec w Q :=
  h

theorem Ends.mono (h : p.Ends exec w Q) (imp : ∀ a w', Q a w' → R a w') : p.Ends exec w R := by
  obtain ⟨a, w', run, h⟩ := h
  exact ⟨a, w', run, imp a w' h⟩

/-- The handler throws no error, whatever it is answered. -/
def Returns : Prog Op Reply α → Prop
  | .ret _ => True
  | .throw _ => False
  | .act _ k => ∀ r, (k r).Returns

theorem returns_bind (hp : p.Returns) (hf : ∀ a, (f a).Returns) : (p.bind f).Returns := by
  induction p with
  | ret a => exact hf a
  | throw m => exact hp.elim
  | act o k ih => exact fun r => ih r (hp r)

/-- A handler that throws nothing ends, and keeps what its operations keep. -/
theorem Returns.ends (h : p.Returns) {P : Op → Prop} (uses : p.Uses P) {I : W → Prop}
    (keeps : ∀ o w, P o → I w → I (exec o w).2) (hw : I w) : p.Ends exec w fun _ => I := by
  induction p generalizing w with
  | ret a => exact ⟨a, w, rfl, hw⟩
  | throw m => exact h.elim
  | act o k ih => exact ih (exec o w).1 (h _) (uses.2 _) (keeps o w uses.1 hw)

/-! ### Handlers that leave the world as it is -/

/-- The handler changes nothing, and what it may end with satisfies `R`. -/
def Leaves (exec : (o : Op) → W → Reply o × W) (p : Prog Op Reply α) (w : W) (R : α → Prop) :
    Prop :=
  (p.alone exec w).2 = w ∧ ∀ a, (p.alone exec w).1 = .ok a → R a

theorem leaves_ret {R : α → Prop} {a : α} (h : R a) :
    (Prog.ret a : Prog Op Reply α).Leaves exec w R := by
  refine ⟨rfl, fun b same => ?_⟩
  cases same
  exact h

theorem leaves_throw (R : α → Prop) (m : String) :
    (Prog.throw m : Prog Op Reply α).Leaves exec w R := by
  refine ⟨rfl, fun b same => ?_⟩
  cases same

/-- The reply of an operation that only reads. -/
theorem leaves_perform {o : Op} {R : Reply o → Prop} (reads : (exec o w).2 = w)
    (h : R (exec o w).1) : (Prog.perform o).Leaves exec w R := by
  refine ⟨reads, fun b same => ?_⟩
  cases same
  exact h

theorem leaves_ofExcept {R : α → Prop} {r : Except String α} (h : ∀ a, r = .ok a → R a) :
    (ofExcept r : Prog Op Reply α).Leaves exec w R := by
  cases r with
  | ok a => exact leaves_ret (h a rfl)
  | error m => exact leaves_throw R m

theorem leaves_bind {R : α → Prop} {S : β → Prop} (first : p.Leaves exec w R)
    (rest : ∀ a, R a → (f a).Leaves exec w S) : (p.bind f).Leaves exec w S := by
  obtain ⟨stays, ends⟩ := first
  rcases run : p.alone exec w with ⟨m | a, w'⟩
  · rw [run] at stays
    obtain rfl : w' = w := stays
    unfold Leaves
    rw [alone_bind_error run]
    exact ⟨rfl, fun b same => by cases same⟩
  · rw [run] at stays ends
    obtain rfl : w' = w := stays
    unfold Leaves
    rw [alone_bind run]
    exact rest a (ends a rfl)

end Prog

theorem set_of_getElem? {l : List α} {i : Nat} {a : α} (h : l[i]? = some a) : l.set i a = l := by
  obtain ⟨hi, rfl⟩ := List.getElem?_eq_some_iff.1 h
  exact List.set_getElem_self hi

/-- The steps of one handler in a row take it to its end. -/
theorem System.runFrom_alone {Answer Env Call Result : Type}
    (S : System Op Reply W Answer Env Call Result) (i : Nat) (x : Answer)
    (t : Prog Op Reply Result) {p : Pool Op Reply W Result} (h : p.threads[i]? = some t) :
    ∃ n, S.runFrom p (List.replicate n (.step i x)) =
      { world := (t.alone (fun o => S.exec i o x) p.world).2
        threads := p.threads.set i
          (.ofExcept (t.alone (fun o => S.exec i o x) p.world).1) } := by
  induction t generalizing p with
  | ret a =>
    refine ⟨0, ?_⟩
    show p = { world := p.world, threads := p.threads.set i (.ret a) }
    rw [set_of_getElem? h]
  | throw m =>
    refine ⟨0, ?_⟩
    show p = { world := p.world, threads := p.threads.set i (.throw m) }
    rw [set_of_getElem? h]
  | act o k ih =>
    have next : S.next p (.step i x) =
        { world := (S.exec i o x p.world).2
          threads := p.threads.set i (k (S.exec i o x p.world).1) } := by
      simp only [next, h]
    obtain ⟨n, run⟩ := ih (S.exec i o x p.world).1 (p := S.next p (.step i x)) (by
      rw [next]
      exact getElem?_set_of_some h)
    refine ⟨n + 1, ?_⟩
    rw [List.replicate_succ, runFrom_cons, run, next, List.set_set]
    rfl

/-- The steps of one handler in a row take it to its end, each with the answer of an outside
that knows the operation and the world. -/
theorem System.runFrom_alone_answered {Answer Env Call Result : Type}
    (S : System Op Reply W Answer Env Call Result) (i : Nat) (answer : Op → W → Answer)
    (t : Prog Op Reply Result) {p : Pool Op Reply W Result} (h : p.threads[i]? = some t) :
    ∃ xs : List Answer, S.runFrom p (xs.map fun x => .step i x) =
      { world := (t.alone (fun o w => S.exec i o (answer o w) w) p.world).2
        threads := p.threads.set i
          (.ofExcept (t.alone (fun o w => S.exec i o (answer o w) w) p.world).1) } := by
  induction t generalizing p with
  | ret a =>
    refine ⟨[], ?_⟩
    show p = { world := p.world, threads := p.threads.set i (.ret a) }
    rw [set_of_getElem? h]
  | throw m =>
    refine ⟨[], ?_⟩
    show p = { world := p.world, threads := p.threads.set i (.throw m) }
    rw [set_of_getElem? h]
  | act o k ih =>
    have next : S.next p (.step i (answer o p.world)) =
        { world := (S.exec i o (answer o p.world) p.world).2
          threads := p.threads.set i (k (S.exec i o (answer o p.world) p.world).1) } := by
      simp only [next, h]
    obtain ⟨xs, run⟩ := ih (S.exec i o (answer o p.world) p.world).1
      (p := S.next p (.step i (answer o p.world))) (by
        rw [next]
        exact getElem?_set_of_some h)
    refine ⟨answer o p.world :: xs, ?_⟩
    rw [List.map_cons, runFrom_cons, run, next, List.set_set]
    rfl

end ParmeliaLinks
