/-
ParmeliaLinks/Lib/Watched.lean

A system in which somebody writes down what each handler changes.  `System.watched` keeps, beside
the world, a history of the steps of all handlers: who took the step, and what a view of the
world showed before it and after it.  No handler reads the history, so a watched run is the run
itself (`watched_runFrom`).

With it a statement about the steps of one handler is a statement about a world, and the rules of
`Lib.RelyGuarantee` apply to it: `Watched.Idle i` says that the handler `i` has changed nothing
that the view shows, and the steps of others keep it so (`Idle.concat`).
-/
import ParmeliaLinks.Lib.RelyGuarantee

namespace ParmeliaLinks

/-- A world and the steps that led to it: the handler, the view before, the view after. -/
structure Watched (World View : Type) where
  world : World
  changes : List (Nat × View × View)

variable {Op : Type} {Reply : Op → Type} {World View Answer Env Call Result : Type}

namespace Watched

/-- The handler `i` has changed nothing that the view shows. -/
def Idle (i : Nat) (v : Watched World View) : Prop := ∀ c ∈ v.changes, c.1 = i → c.2.2 = c.2.1

variable {i j : Nat} {v v' : Watched World View} {before after : View}

/-- The step of another handler. -/
theorem Idle.other (h : v.Idle i) (changes : v'.changes = v.changes ++ [(j, before, after)])
    (hj : j ≠ i) : v'.Idle i := by
  intro c hc own
  rw [changes, List.mem_append, List.mem_singleton] at hc
  rcases hc with hc | rfl
  · exact h c hc own
  · exact (hj own).elim

/-- A step of its own that the view does not show. -/
theorem Idle.same (h : v.Idle i) (changes : v'.changes = v.changes ++ [(j, before, after)])
    (same : after = before) : v'.Idle i := by
  intro c hc own
  rw [changes, List.mem_append, List.mem_singleton] at hc
  rcases hc with hc | rfl
  · exact h c hc own
  · exact same

end Watched

namespace System

variable (S : System Op Reply World Answer Env Call Result) (view : World → View)

/-- The system with its history. -/
def watched : System Op Reply (Watched World View) Answer Env Call Result where
  exec i o x v :=
    ((S.exec i o x v.world).1,
      { world := (S.exec i o x v.world).2
        changes := v.changes ++ [(i, view v.world, view (S.exec i o x v.world).2)] })
  env e v := { v with world := S.env e v.world }
  body := S.body

/-- The pool without the history. -/
def unwatched (p : Pool Op Reply (Watched World View) Result) : Pool Op Reply World Result :=
  ⟨p.world.world, p.threads⟩

variable {S view}

theorem watched_next (p : Pool Op Reply (Watched World View) Result)
    (l : Label Answer Env Call) :
    unwatched ((S.watched view).next p l) = S.next (unwatched p) l := by
  cases l with
  | spawn c => rfl
  | env e => rfl
  | step i x =>
    simp only [next, unwatched]
    split <;> rfl

/-- A watched run is a run. -/
theorem watched_runFrom (p : Pool Op Reply (Watched World View) Result)
    (ls : List (Label Answer Env Call)) :
    unwatched ((S.watched view).runFrom p ls) = S.runFrom (unwatched p) ls := by
  induction ls generalizing p with
  | nil => rfl
  | cons l ls ih => rw [runFrom_cons, ih, watched_next, runFrom_cons]

/-- Conditions that do not ask for the history. -/
def Conditions.watched (C : Conditions Op World Answer Env Call) :
    Conditions Op (Watched World View) Answer Env Call where
  op i o x v := C.op i o x v.world
  env e v := C.env e v.world
  call c v := C.call c v.world

theorem along_watched {C : Conditions Op World Answer Env Call}
    {p : Pool Op Reply (Watched World View) Result} {ls : List (Label Answer Env Call)} :
    (S.watched view).Along C.watched p ls ↔ S.Along C (unwatched p) ls := by
  induction ls generalizing p with
  | nil => rfl
  | cons l ls ih =>
    rw [Along, Along, ih, watched_next]
    cases l <;> rfl

/-! ### Before a handler starts -/

/-- Every step that was written down is one of a handler that has started. -/
def ChangesStarted (p : Pool Op Reply (Watched World View) Result) : Prop :=
  ∀ c ∈ p.world.changes, c.1 < p.threads.length

theorem changesStarted_next {p : Pool Op Reply (Watched World View) Result}
    (h : ChangesStarted p) (l : Label Answer Env Call) :
    ChangesStarted ((S.watched view).next p l) := by
  cases l with
  | spawn c =>
    intro e he
    exact Nat.lt_of_lt_of_le (h e he) (by simp [next])
  | env e => exact h
  | step i x =>
    simp only [next]
    split
    · rename_i o k hi
      intro e he
      show e.1 < (p.threads.set i _).length
      rw [List.length_set]
      rcases List.mem_append.1 he with he | he
      · exact h e he
      · rw [List.mem_singleton.1 he]
        exact (List.getElem?_eq_some_iff.1 hi).1
    · exact h

theorem changesStarted_runFrom {p : Pool Op Reply (Watched World View) Result}
    (h : ChangesStarted p) (ls : List (Label Answer Env Call)) :
    ChangesStarted ((S.watched view).runFrom p ls) := by
  induction ls generalizing p with
  | nil => exact h
  | cons l ls ih => exact ih (changesStarted_next h l)

/-- A handler that has not started has changed nothing. -/
theorem idle_of_not_started {p : Pool Op Reply (Watched World View) Result}
    (h : ChangesStarted p) : p.world.Idle p.threads.length := by
  intro c hc own
  have started := h c hc
  omega

/-! ### The call of a handler -/

/-- One handler for each call. -/
theorem length_threads (p : Pool Op Reply World Result) (ls : List (Label Answer Env Call)) :
    (S.runFrom p ls).threads.length = p.threads.length + (calls ls).length := by
  induction ls generalizing p with
  | nil => rfl
  | cons l ls ih =>
    rw [runFrom_cons, ih]
    cases l with
    | spawn c =>
      simp only [next, calls, List.length_append, List.length_cons, List.length_nil]
      omega
    | env e => rfl
    | step i x =>
      simp only [next, calls]
      split
      · rw [List.length_set]
      · rfl

/-- The label of a call. -/
theorem exists_spawn {ls : List (Label Answer Env Call)} {i : Nat} {c : Call}
    (h : (calls ls)[i]? = some c) :
    ∃ before after, ls = before ++ .spawn c :: after ∧ (calls before).length = i := by
  induction ls generalizing i with
  | nil => simp [calls] at h
  | cons l ls ih =>
    cases l with
    | spawn d =>
      cases i with
      | zero =>
        obtain rfl : d = c := by simpa [calls] using h
        exact ⟨[], ls, rfl, rfl⟩
      | succ i =>
        obtain ⟨before, after, rfl, length⟩ := ih (by simpa [calls] using h)
        exact ⟨.spawn d :: before, after, rfl, congrArg (· + 1) length⟩
    | env e =>
      obtain ⟨before, after, rfl, length⟩ := ih h
      exact ⟨.env e :: before, after, rfl, length⟩
    | step j x =>
      obtain ⟨before, after, rfl, length⟩ := ih h
      exact ⟨.step j x :: before, after, rfl, length⟩

end System

/-- The outcome of a call in a watched run.  The handler is verified from a world in which it has
changed nothing so far. -/
theorem Discipline.outcome_of_watched {S : System Op Reply World Answer Env Call Result}
    {view : World → View} {D : Discipline Op (Watched World View) Answer Env Call}
    {Q R : Except String Result → Watched World View → Prop} (obeys : D.Obeys (S.watched view) Q)
    {w : World} {ls : List (Label Answer Env Call)} (hw : D.Inv ⟨w, []⟩)
    (allowed : (S.watched view).Along D.allowed ⟨⟨w, []⟩, []⟩ ls) {i : Nat} {c : Call}
    (call : (System.calls ls)[i]? = some c)
    (relied : ∀ v v', D.rely i v v' → v.Idle i → v'.Idle i)
    (body : ∀ v, D.Inv v → v.Idle i → D.wp (S.watched view) i (S.body c) R v) {a : Result}
    (ended : ((S.watched view).run ⟨w, []⟩ ls).threads[i]? = some (.ret a)) :
    R (.ok a) ((S.watched view).run ⟨w, []⟩ ls).world := by
  obtain ⟨before, after, rfl, rfl⟩ := System.exists_spawn call
  obtain ⟨earlier, later⟩ := System.along_append.1 allowed
  have sound := D.pool_sound obeys hw earlier
  have started : System.ChangesStarted ((S.watched view).run ⟨w, []⟩ before) :=
    System.changesStarted_runFrom (fun c hc => by cases hc) before
  have length : ((S.watched view).run ⟨w, []⟩ before).threads.length =
      (System.calls before).length := by
    rw [System.run, System.length_threads]
    exact Nat.zero_add _
  have idle := System.idle_of_not_started started
  rw [System.run, System.runFrom_append] at ended ⊢
  rw [← length] at relied body ended
  refine Discipline.outcome_of_call obeys sound later (fun v since => ?_) ended
  exact body v since.inv (relied _ v since.relied idle)

end ParmeliaLinks
