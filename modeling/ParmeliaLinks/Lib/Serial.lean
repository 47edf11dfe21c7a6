/-
ParmeliaLinks/Lib/Serial.lean

A handler that runs one call at a time.  The next call may come when the last one has
ended, or at any point before: then the last one was killed, and nothing that it had
still to do is done.  Between two operations of a call the surroundings may move.

A serial component is a machine (`Serial.machine`) whose state is the world and what is
left of the call under way.  `Serial.wp` is what a call keeps and ends with, whatever of
the given moves the surroundings make.  It gives what holds in every state
(`Serial.holds`), and the outcome of a call that has the world to itself
(`Serial.outcome`).
-/
import ParmeliaLinks.Lib.Machine
import ParmeliaLinks.Lib.Prog

namespace ParmeliaLinks

/-- What the operations and the surroundings do, and the handler. -/
structure Serial (Op : Type) (Reply : Op → Type) (World Answer Env Result : Type) where
  exec : (o : Op) → Answer → World → Reply o × World
  env : Env → World → World
  body : Prog Op Reply Result

namespace Serial

variable {Op : Type} {Reply : Op → Type} {World Answer Env Result α β : Type}

/-- What may happen: a new call, after the last one or in its place, the next operation of
the call under way, a move of the surroundings. -/
inductive Event (Answer Env : Type)
  | start
  | step (x : Answer)
  | env (e : Env)

structure State (Op : Type) (Reply : Op → Type) (World Result : Type) where
  world : World
  running : Prog Op Reply Result

variable (S : Serial Op Reply World Answer Env Result)

def next : Event Answer Env → State Op Reply World Result → State Op Reply World Result
  | .start, s => { s with running := S.body }
  | .env e, s => { s with world := S.env e s.world }
  | .step x, s =>
    match s.running with
    | .act o k => ⟨(S.exec o x s.world).2, k (S.exec o x s.world).1⟩
    | _ => s

def machine : Machine (Event Answer Env) (State Op Reply World Result) where
  step := S.next

/-! ### Rules -/

variable (rely : World → World → Prop) (Inv : World → Prop)

/-- Each operation of the handler keeps the invariant, in any world that the surroundings
may leave, and `Q` holds of its outcome. -/
def wp : Prog Op Reply α → (Except String α → World → Prop) → World → Prop
  | .ret a, Q, w => Q (.ok a) w
  | .throw m, Q, w => Q (.error m) w
  | .act o k, Q, w => ∀ w', rely w w' → ∀ x, Inv (S.exec o x w').2 ∧
      wp (k (S.exec o x w').1) Q (S.exec o x w').2

variable {S rely Inv} {w w' : World}

/-- The rule of an operation. -/
theorem wp_act {o : Op} {k : Reply o → Prog Op Reply α} {Q : Except String α → World → Prop}
    (rule : ∀ w', rely w w' → ∀ x, Inv (S.exec o x w').2 ∧
      S.wp rely Inv (k (S.exec o x w').1) Q (S.exec o x w').2) :
    S.wp rely Inv (.act o k) Q w := rule

/-- A weaker statement about the outcome. -/
theorem wp_mono {p : Prog Op Reply α} {Q R : Except String α → World → Prop}
    (h : S.wp rely Inv p Q w) (imp : ∀ r w', Q r w' → R r w') : S.wp rely Inv p R w := by
  induction p generalizing w with
  | ret a => exact imp _ _ h
  | throw m => exact imp _ _ h
  | act o k ih =>
    intro w' moved x
    obtain ⟨inv, rest⟩ := h w' moved x
    exact ⟨inv, ih _ rest⟩

/-- A handler and what comes after it. -/
theorem wp_bind {p : Prog Op Reply α} {f : α → Prog Op Reply β}
    {Q : Except String β → World → Prop} {R : Except String α → World → Prop}
    (first : S.wp rely Inv p R w) (ok : ∀ a w', R (.ok a) w' → S.wp rely Inv (f a) Q w')
    (error : ∀ m w', R (.error m) w' → Q (.error m) w') : S.wp rely Inv (p.bind f) Q w := by
  induction p generalizing w with
  | ret a => exact ok a w first
  | throw m => exact error m w first
  | act o k ih =>
    intro w' moved x
    obtain ⟨inv, rest⟩ := first w' moved x
    exact ⟨inv, ih _ rest⟩

/-- A handler and what catches its errors. -/
theorem wp_tryCatch {p : Prog Op Reply α} {f : String → Prog Op Reply α}
    {Q : Except String α → World → Prop} {R : Except String α → World → Prop}
    (first : S.wp rely Inv p R w) (ok : ∀ a w', R (.ok a) w' → Q (.ok a) w')
    (error : ∀ m w', R (.error m) w' → S.wp rely Inv (f m) Q w') :
    S.wp rely Inv (p.tryCatch f) Q w := by
  induction p generalizing w with
  | ret a => exact ok a w first
  | throw m => exact error m w first
  | act o k ih =>
    intro w' moved x
    obtain ⟨inv, rest⟩ := first w' moved x
    exact ⟨inv, ih _ rest⟩

/-- The result of a statement, or its error. -/
theorem wp_ofExcept {r : Except String α} {Q : Except String α → World → Prop} (h : Q r w) :
    S.wp rely Inv (Prog.ofExcept r) Q w := by
  cases r <;> exact h

/-! ### Histories -/

/-- The surroundings may move before a handler goes on. -/
theorem wp_later (trans : ∀ w₁ w₂ w₃, rely w₁ w₂ → rely w₂ w₃ → rely w₁ w₃)
    {p : Prog Op Reply α} (h : S.wp rely Inv p (fun _ _ => True) w) (moved : rely w w') :
    S.wp rely Inv p (fun _ _ => True) w' := by
  cases p with
  | ret a => trivial
  | throw m => trivial
  | act o k => exact fun v hv x => h v (trans _ _ _ moved hv) x

/-- The invariant holds, and what is left of the call keeps it. -/
def Sound (S : Serial Op Reply World Answer Env Result) (rely : World → World → Prop)
    (Inv : World → Prop) (s : State Op Reply World Result) : Prop :=
  Inv s.world ∧ S.wp rely Inv s.running (fun _ _ => True) s.world

/-- The invariant holds in every state of every history. -/
theorem holds (refl : ∀ w, rely w w)
    (trans : ∀ w₁ w₂ w₃, rely w₁ w₂ → rely w₂ w₃ → rely w₁ w₃)
    (env : ∀ e w, Inv w → Inv (S.env e w) ∧ rely w (S.env e w))
    (body : ∀ w, Inv w → S.wp rely Inv S.body (fun _ _ => True) w)
    {s : State Op Reply World Result} (sound : Sound S rely Inv s)
    (es : List (Event Answer Env)) : Sound S rely Inv (S.machine.run s es) := by
  refine Machine.invariant ?_ sound (Machine.along_true s es)
  rintro e ⟨w, p⟩ ⟨inv, left⟩ -
  cases e with
  | start => exact ⟨inv, body w inv⟩
  | env e =>
    obtain ⟨inv', moved⟩ := env e w inv
    exact ⟨inv', wp_later trans left moved⟩
  | step x =>
    cases p with
    | ret a => exact ⟨inv, left⟩
    | throw m => exact ⟨inv, left⟩
    | act o k => exact left w (refl w) x

/-- What a call ends with when nothing comes in between. -/
theorem outcome (refl : ∀ w, rely w w) {Q : Except String Result → World → Prop}
    {xs : List Answer} {p : Prog Op Reply Result} {a : Result} (h : S.wp rely Inv p Q w)
    (ended : (S.machine.run ⟨w, p⟩ (xs.map .step)).running = .ret a) :
    Q (.ok a) (S.machine.run ⟨w, p⟩ (xs.map .step)).world := by
  induction xs generalizing w p with
  | nil =>
    cases p with
    | ret b =>
      cases ended
      exact h
    | throw m => cases ended
    | act o k => cases ended
  | cons x xs ih =>
    cases p with
    | ret b => exact ih h ended
    | throw m => exact ih h ended
    | act o k => exact ih (h w (refl w) x).2 ended

end Serial

end ParmeliaLinks
