/-
ParmeliaLinks/Lib/RelyGuarantee.lean

Proof rules for handlers that run side by side (`Lib.System`).  A `Discipline`
is an invariant of the world together with a preorder that every step follows:
`Evolves w w'` says what a later world has kept of an earlier one.  In addition
`rely i` says what the steps of all others keep for the handler `i`.

A handler is verified alone: `wp i p Q w` says that each operation of `p`, in any
world that the others may have brought about in the meantime, keeps the invariant
and follows the preorders, and that `Q` holds of the outcome.

`pool_sound` is the rule that puts handlers together: if the surroundings and
every handler follow the discipline, then the invariant holds in every
reachable pool, under every interleaving.  A discipline may also demand
something of each single operation in the world in which it is performed
(`ensures`); `along_ensures` says that every step of every run meets it.  What a
call establishes once it has ended is `outcome_of_call`.
-/
import ParmeliaLinks.Lib.System

namespace ParmeliaLinks

/-- An invariant, the preorders on worlds, and what each operation ensures, for
runs whose steps meet the conditions `allowed`. -/
structure Discipline (Op World Answer Env Call : Type) where
  Inv : World → Prop
  Evolves : World → World → Prop
  rely : Nat → World → World → Prop := fun _ _ _ => True
  allowed : System.Conditions Op World Answer Env Call := {}
  ensures : Op → Answer → World → Prop := fun _ _ _ => True
  refl : ∀ w, Evolves w w
  trans : ∀ {w₁ w₂ w₃}, Evolves w₁ w₂ → Evolves w₂ w₃ → Evolves w₁ w₃
  rely_refl : ∀ i w, rely i w w := by exact fun _ _ => trivial
  rely_trans : ∀ {i w₁ w₂ w₃}, rely i w₁ w₂ → rely i w₂ w₃ → rely i w₁ w₃ := by
    exact fun _ _ => trivial

namespace Discipline

variable {Op : Type} {Reply : Op → Type} {World Answer Env Call Result α β : Type}
variable (D : Discipline Op World Answer Env Call)
variable (S : System Op Reply World Answer Env Call Result)

/-- The step from `w` to `w'` keeps the invariant and follows the preorder. -/
structure Keeps (w w' : World) : Prop where
  inv : D.Inv w'
  evolves : D.Evolves w w'

/-- A step of the surroundings, on which every handler relies. -/
structure Moves (w w' : World) : Prop extends D.Keeps w w' where
  relied : ∀ j, D.rely j w w'

/-- The operation follows the discipline when the handler `i` performs it in `w`. -/
structure Performs (i : Nat) (o : Op) (x : Answer) (w : World) : Prop
    extends D.Keeps w (S.exec i o x w).2 where
  relied : ∀ j, j ≠ i → D.rely j w (S.exec i o x w).2
  ensured : D.ensures o x w

/-- The world `w'` is one in which the handler `i` may find itself after `w`. -/
structure Later (i : Nat) (w w' : World) : Prop where
  inv : D.Inv w'
  evolves : D.Evolves w w'
  relied : D.rely i w w'

theorem later_trans {i : Nat} {w₁ w₂ w₃ : World} (h : D.Later i w₁ w₂) (h' : D.Later i w₂ w₃) :
    D.Later i w₁ w₃ :=
  ⟨h'.inv, D.trans h.evolves h'.evolves, D.rely_trans h.relied h'.relied⟩

theorem later_refl {i : Nat} {w : World} (h : D.Inv w) : D.Later i w w :=
  ⟨h, D.refl w, D.rely_refl i w⟩

/-- The handler `i` follows the discipline from `w` on, and its outcome satisfies
`Q` in the world in which it ends. -/
def wp (i : Nat) : Prog Op Reply α → (Except String α → World → Prop) → World → Prop
  | .ret a, Q, w => Q (.ok a) w
  | .throw m, Q, w => Q (.error m) w
  | .act o k, Q, w => ∀ x, D.allowed.op i o x w →
      D.Performs S i o x w ∧
        ∀ w', D.Later i (S.exec i o x w).2 w' → wp i (k (S.exec i o x w).1) Q w'

variable {i : Nat}

/-! ### Rules -/

@[simp] theorem wp_ret (a : α) (Q : Except String α → World → Prop) (w : World) :
    D.wp S i (.ret a) Q w ↔ Q (.ok a) w := Iff.rfl

@[simp] theorem wp_throw (m : String) (Q : Except String α → World → Prop) (w : World) :
    D.wp S i (.throw m) Q w ↔ Q (.error m) w := Iff.rfl

/-- The rule of an operation. -/
theorem wp_act {o : Op} {k : Reply o → Prog Op Reply α}
    {Q : Except String α → World → Prop} {w : World}
    (performs : ∀ x, D.allowed.op i o x w → D.Performs S i o x w)
    (rest : ∀ x, D.allowed.op i o x w → ∀ w', D.Later i (S.exec i o x w).2 w' →
      D.wp S i (k (S.exec i o x w).1) Q w') :
    D.wp S i (.act o k) Q w :=
  fun x hx => ⟨performs x hx, rest x hx⟩

theorem wp_perform {o : Op} {Q : Except String (Reply o) → World → Prop} {w : World}
    (performs : ∀ x, D.allowed.op i o x w → D.Performs S i o x w)
    (post : ∀ x, D.allowed.op i o x w → ∀ w', D.Later i (S.exec i o x w).2 w' →
      Q (.ok (S.exec i o x w).1) w') :
    D.wp S i (.perform o) Q w :=
  D.wp_act S performs post

/-- A handler whose operations each follow the discipline follows it. -/
theorem wp_of_uses {P : Op → Prop} {w : World}
    (safe : ∀ o, P o → ∀ x w', D.Evolves w w' → D.Inv w' → D.allowed.op i o x w' →
      D.Performs S i o x w')
    {p : Prog Op Reply α} (hp : p.Uses P) (hw : D.Inv w) :
    D.wp S i p (fun _ w' => D.Inv w' ∧ D.Evolves w w') w := by
  have run : ∀ v, D.Inv v → D.Evolves w v →
      D.wp S i p (fun _ w' => D.Inv w' ∧ D.Evolves w w') v := by
    induction p with
    | ret a => exact fun v hv hev => ⟨hv, hev⟩
    | throw m => exact fun v hv hev => ⟨hv, hev⟩
    | act o k ih =>
      intro v hv hev
      have performs := fun x hx => safe o hp.1 x v hev hv hx
      refine D.wp_act S performs fun x hx v' later => ?_
      exact ih _ (hp.2 _) v' later.inv
        (D.trans (D.trans hev (performs x hx).evolves) later.evolves)
  exact run w hw (D.refl w)

/-- A weaker statement about the outcome. -/
theorem wp_mono {p : Prog Op Reply α} {Q R : Except String α → World → Prop} {w : World}
    (h : D.wp S i p Q w) (hQR : ∀ r w', Q r w' → R r w') : D.wp S i p R w := by
  induction p generalizing w with
  | ret a => exact hQR _ _ h
  | throw m => exact hQR _ _ h
  | act o k ih =>
    intro x hx
    obtain ⟨performs, rest⟩ := h x hx
    exact ⟨performs, fun w' later => ih _ (rest w' later)⟩

/-- A handler ends in a world that keeps the invariant and has evolved from the one in
which it started. -/
theorem wp_evolves {p : Prog Op Reply α} {Q : Except String α → World → Prop} {w : World}
    (hw : D.Inv w) (h : D.wp S i p Q w) :
    D.wp S i p (fun r w' => Q r w' ∧ D.Inv w' ∧ D.Evolves w w') w := by
  have run : ∀ v, D.Inv v → D.Evolves w v → D.wp S i p Q v →
      D.wp S i p (fun r w' => Q r w' ∧ D.Inv w' ∧ D.Evolves w w') v := by
    clear h
    induction p with
    | ret a => exact fun v hv hev h => ⟨h, hv, hev⟩
    | throw m => exact fun v hv hev h => ⟨h, hv, hev⟩
    | act o k ih =>
      intro v hv hev h
      refine D.wp_act S (fun x hx => (h x hx).1) fun x hx v' later => ?_
      have since := D.trans (D.trans hev (h x hx).1.evolves) later.evolves
      exact ih _ v' later.inv since ((h x hx).2 v' later)
  exact run w hw (D.refl w) h

/-- What a sequence needs of its first part. -/
def Then (i : Nat) (f : α → Prog Op Reply β) (Q : Except String β → World → Prop) :
    Except String α → World → Prop
  | .ok a, w => D.wp S i (f a) Q w
  | .error m, w => Q (.error m) w

@[simp] theorem then_ok (f : α → Prog Op Reply β) (Q : Except String β → World → Prop) (a : α)
    (w : World) : D.Then S i f Q (.ok a) w ↔ D.wp S i (f a) Q w := Iff.rfl

@[simp] theorem then_error (f : α → Prog Op Reply β) (Q : Except String β → World → Prop)
    (m : String) (w : World) : D.Then S i f Q (.error m) w ↔ Q (.error m) w := Iff.rfl

theorem wp_bind (p : Prog Op Reply α) (f : α → Prog Op Reply β)
    (Q : Except String β → World → Prop) (w : World) :
    D.wp S i (p.bind f) Q w ↔ D.wp S i p (D.Then S i f Q) w := by
  induction p generalizing w with
  | ret a => rfl
  | throw m => rfl
  | act o k ih =>
    constructor
    · intro h x hx
      obtain ⟨performs, rest⟩ := h x hx
      exact ⟨performs, fun w' later => (ih _ w').1 (rest w' later)⟩
    · intro h x hx
      obtain ⟨performs, rest⟩ := h x hx
      exact ⟨performs, fun w' later => (ih _ w').2 (rest w' later)⟩

/-- What a `try` needs of its body. -/
def Catch (i : Nat) (h : String → Prog Op Reply α) (Q : Except String α → World → Prop) :
    Except String α → World → Prop
  | .ok a, w => Q (.ok a) w
  | .error m, w => D.wp S i (h m) Q w

theorem wp_tryCatch (p : Prog Op Reply α) (h : String → Prog Op Reply α)
    (Q : Except String α → World → Prop) (w : World) :
    D.wp S i (p.tryCatch h) Q w ↔ D.wp S i p (D.Catch S i h Q) w := by
  induction p generalizing w with
  | ret a => rfl
  | throw m => rfl
  | act o k ih =>
    constructor
    · intro hp x hx
      obtain ⟨performs, rest⟩ := hp x hx
      exact ⟨performs, fun w' later => (ih _ w').1 (rest w' later)⟩
    · intro hp x hx
      obtain ⟨performs, rest⟩ := hp x hx
      exact ⟨performs, fun w' later => (ih _ w').2 (rest w' later)⟩

/-- An outcome taken as a value. -/
theorem wp_attempt (p : Prog Op Reply α) (Q : Except String (Except String α) → World → Prop)
    (w : World) :
    D.wp S i p.attempt Q w ↔ D.wp S i p (fun r => Q (.ok r)) w := by
  induction p generalizing w with
  | ret a => rfl
  | throw m => rfl
  | act o k ih =>
    constructor
    · intro h x hx
      obtain ⟨performs, rest⟩ := h x hx
      exact ⟨performs, fun w' later => (ih _ w').1 (rest w' later)⟩
    · intro h x hx
      obtain ⟨performs, rest⟩ := h x hx
      exact ⟨performs, fun w' later => (ih _ w').2 (rest w' later)⟩

/-- A part of a handler, and the rest. -/
theorem wp_seq {p : Prog Op Reply α} {f : α → Prog Op Reply β}
    {Q : Except String β → World → Prop} {R : Except String α → World → Prop} {w : World}
    (first : D.wp S i p R w) (ok : ∀ a w', R (.ok a) w' → D.wp S i (f a) Q w')
    (error : ∀ m w', R (.error m) w' → Q (.error m) w') : D.wp S i (p.bind f) Q w := by
  refine (D.wp_bind S _ _ _ _).2 (D.wp_mono S first fun r w' hr => ?_)
  cases r with
  | ok a => exact ok a w' hr
  | error m => exact error m w' hr

/-- A part of a handler whose error is a value like any other, and the rest. -/
theorem wp_attempt_seq {p : Prog Op Reply α} {f : Except String α → Prog Op Reply β}
    {Q : Except String β → World → Prop} {R : Except String α → World → Prop} {w : World}
    (first : D.wp S i p R w) (rest : ∀ r w', R r w' → D.wp S i (f r) Q w') :
    D.wp S i (p.attempt.bind f) Q w := by
  refine (D.wp_bind S _ _ _ _).2 ((D.wp_attempt S _ _ _).2 ?_)
  exact D.wp_mono S first rest

/-- An operation that leaves the world as it is, and the rest. -/
theorem wp_query {o : Op} {k : Reply o → Prog Op Reply α} {Q : Except String α → World → Prop}
    {w : World} (hw : D.Inv w) (same : ∀ x, (S.exec i o x w).2 = w)
    (ensured : ∀ x, D.ensures o x w)
    (rest : ∀ x w', D.Later i w w' → D.wp S i (k (S.exec i o x w).1) Q w') :
    D.wp S i (.act o k) Q w := by
  refine D.wp_act S (fun x _ => ?_) fun x _ w' later => ?_
  · refine ⟨⟨?_, ?_⟩, fun j _ => ?_, ensured x⟩
    · rw [same x]
      exact hw
    · rw [same x]
      exact D.refl w
    · rw [same x]
      exact D.rely_refl j w
  · rw [same x] at later
    exact rest x w' later

/-- A result, or its error. -/
theorem wp_ofExcept {r : Except String α} {Q : Except String α → World → Prop} {w : World}
    (h : Q r w) : D.wp S i (Prog.ofExcept r) Q w := by
  cases r <;> exact h

/-! ### Handlers side by side -/

/-- The handler `i` follows the discipline from any world that the others may
leave behind. -/
def Stands (i : Nat) (t : Prog Op Reply Result) (Q : Except String Result → World → Prop)
    (w : World) : Prop :=
  ∀ w', D.Later i w w' → D.wp S i t Q w'

/-- The invariant holds, and each handler stands. -/
structure Sound (Q : Except String Result → World → Prop) (p : Pool Op Reply World Result) :
    Prop where
  inv : D.Inv p.world
  threads : ∀ i t, p.threads[i]? = some t → D.Stands S i t Q p.world

/-- The surroundings and the handlers of all calls follow the discipline. -/
structure Obeys (Q : Except String Result → World → Prop) : Prop where
  env : ∀ e w, D.Inv w → D.allowed.env e w → D.Moves w (S.env e w)
  call : ∀ c i w w', D.Inv w → D.allowed.call c w → D.Later i w w' → D.wp S i (S.body c) Q w'

variable {D S}

theorem Stands.later {t : Prog Op Reply Result} {Q : Except String Result → World → Prop}
    {w w' : World} (h : D.Stands S i t Q w) (later : D.Later i w w') : D.Stands S i t Q w' :=
  fun v hv => h v (D.later_trans later hv)

theorem sound_empty {Q : Except String Result → World → Prop} {w : World} (h : D.Inv w) :
    D.Sound S Q ⟨w, []⟩ :=
  ⟨h, fun i t ht => by simp at ht⟩

theorem Moves.later {w w' : World} (moves : D.Moves w w') (i : Nat) : D.Later i w w' :=
  ⟨moves.inv, moves.evolves, moves.relied i⟩

theorem Performs.later {o : Op} {x : Answer} {w : World} (performs : D.Performs S i o x w)
    {j : Nat} (hj : j ≠ i) : D.Later j w (S.exec i o x w).2 :=
  ⟨performs.inv, performs.evolves, performs.relied j hj⟩

/-- One label keeps a pool sound. -/
theorem sound_next {Q : Except String Result → World → Prop} (obeys : D.Obeys S Q)
    {p : Pool Op Reply World Result} {l : Label Answer Env Call} (h : D.Sound S Q p)
    (hl : System.Meets D.allowed p l) : D.Sound S Q (S.next p l) := by
  cases l with
  | spawn c =>
    refine ⟨h.inv, fun i t ht w later => ?_⟩
    rcases System.of_getElem?_concat ht with ht | ⟨-, rfl⟩
    · exact h.threads i t ht w later
    · exact obeys.call c i p.world w h.inv hl later
  | env e =>
    have moves := obeys.env e p.world h.inv hl
    exact ⟨moves.inv, fun i t ht => (h.threads i t ht).later (moves.later i)⟩
  | step i x =>
    simp only [System.next]
    split
    · rename_i o k hi
      obtain ⟨performs, rest⟩ := h.threads i _ hi p.world (D.later_refl h.inv) x (hl o k hi)
      refine ⟨performs.inv, fun j t ht => ?_⟩
      -- the thread that moved goes on with the rest of its tree
      by_cases hj : j = i
      · subst hj
        obtain rfl := Option.some.inj ((System.getElem?_set_of_some hi).symm.trans ht)
        exact rest
      · rw [List.getElem?_set_ne (Ne.symm hj)] at ht
        exact (h.threads j t ht).later (performs.later hj)
    · exact h

theorem sound_runFrom {Q : Except String Result → World → Prop} (obeys : D.Obeys S Q)
    {p : Pool Op Reply World Result} {ls : List (Label Answer Env Call)}
    (h : D.Sound S Q p) (hls : S.Along D.allowed p ls) : D.Sound S Q (S.runFrom p ls) := by
  induction ls generalizing p with
  | nil => exact h
  | cons l ls ih => exact ih (sound_next obeys h hls.1) hls.2

/-- Every reachable pool is sound: the invariant holds in it, whatever the
interleaving. -/
theorem pool_sound {Q : Except String Result → World → Prop} (obeys : D.Obeys S Q)
    {w : World} {ls : List (Label Answer Env Call)} (h : D.Inv w)
    (hls : S.Along D.allowed ⟨w, []⟩ ls) : D.Sound S Q (S.run w ls) :=
  sound_runFrom obeys (sound_empty h) hls

/-- One label follows the preorder. -/
theorem evolves_next {Q : Except String Result → World → Prop} (obeys : D.Obeys S Q)
    {p : Pool Op Reply World Result} {l : Label Answer Env Call} (h : D.Sound S Q p)
    (hl : System.Meets D.allowed p l) : D.Evolves p.world (S.next p l).world := by
  cases l with
  | spawn c => exact D.refl _
  | env e => exact (obeys.env e p.world h.inv hl).evolves
  | step i x =>
    simp only [System.next]
    split
    · rename_i o k hi
      exact (h.threads i _ hi p.world (D.later_refl h.inv) x (hl o k hi)).1.evolves
    · exact D.refl _

/-- A run follows the preorder. -/
theorem evolves_runFrom {Q : Except String Result → World → Prop} (obeys : D.Obeys S Q)
    {p : Pool Op Reply World Result} {ls : List (Label Answer Env Call)}
    (h : D.Sound S Q p) (hls : S.Along D.allowed p ls) :
    D.Evolves p.world (S.runFrom p ls).world := by
  induction ls generalizing p with
  | nil => exact D.refl _
  | cons l ls ih =>
    exact D.trans (evolves_next obeys h hls.1) (ih (sound_next obeys h hls.1) hls.2)

/-- Every step of a run meets what the discipline demands of it. -/
theorem along_ensures {Q : Except String Result → World → Prop} (obeys : D.Obeys S Q)
    {p : Pool Op Reply World Result} {ls : List (Label Answer Env Call)}
    (h : D.Sound S Q p) (hls : S.Along D.allowed p ls) :
    S.Along { op := fun _ => D.ensures } p ls := by
  induction ls generalizing p with
  | nil => trivial
  | cons l ls ih =>
    refine ⟨?_, ih (sound_next obeys h hls.1) hls.2⟩
    cases l with
    | spawn c => trivial
    | env e => trivial
    | step i x =>
      intro o k hi
      exact (h.threads i _ hi p.world (D.later_refl h.inv) x (hls.1 o k hi)).1.ensured

/-! ### The outcome of one call -/

/-- A handler that stands goes on standing, with its own statement about the outcome. -/
theorem stands_next {Q R : Except String Result → World → Prop} (obeys : D.Obeys S Q)
    {p : Pool Op Reply World Result} {l : Label Answer Env Call} (h : D.Sound S Q p)
    (hl : System.Meets D.allowed p l) {t : Prog Op Reply Result}
    (ht : p.threads[i]? = some t) (stands : D.Stands S i t R p.world) :
    ∃ t', (S.next p l).threads[i]? = some t' ∧ D.Stands S i t' R (S.next p l).world := by
  cases l with
  | spawn c => exact ⟨t, System.getElem?_concat ht, stands⟩
  | env e => exact ⟨t, ht, stands.later ((obeys.env e p.world h.inv hl).later i)⟩
  | step j x =>
    simp only [System.next]
    split
    · rename_i o k hj
      by_cases hij : i = j
      · subst hij
        obtain rfl : Prog.act o k = t := Option.some.inj (hj.symm.trans ht)
        have rest := (stands p.world (D.later_refl h.inv) x (hl o k hj)).2
        exact ⟨_, System.getElem?_set_of_some ht, rest⟩
      · have performs := (h.threads j _ hj p.world (D.later_refl h.inv) x (hl o k hj)).1
        refine ⟨t, ?_, stands.later (performs.later hij)⟩
        rw [List.getElem?_set_ne (Ne.symm hij)]
        exact ht
    · exact ⟨t, ht, stands⟩

theorem stands_runFrom {Q R : Except String Result → World → Prop} (obeys : D.Obeys S Q)
    {p : Pool Op Reply World Result} {ls : List (Label Answer Env Call)} (h : D.Sound S Q p)
    (hls : S.Along D.allowed p ls) {t : Prog Op Reply Result}
    (ht : p.threads[i]? = some t) (stands : D.Stands S i t R p.world) :
    ∃ t', (S.runFrom p ls).threads[i]? = some t' ∧ D.Stands S i t' R (S.runFrom p ls).world := by
  induction ls generalizing p t with
  | nil => exact ⟨t, ht, stands⟩
  | cons l ls ih =>
    obtain ⟨t', ht', stands'⟩ := stands_next obeys h hls.1 ht stands
    exact ih (sound_next obeys h hls.1) hls.2 ht' stands'

/-- What a call establishes, once its handler has ended: the call is made in the pool
`p`, and `ls` is what happens then. -/
theorem outcome_of_call {Q R : Except String Result → World → Prop} (obeys : D.Obeys S Q)
    {p : Pool Op Reply World Result} {c : Call} {ls : List (Label Answer Env Call)}
    (h : D.Sound S Q p) (hls : S.Along D.allowed p (.spawn c :: ls))
    (body : D.Stands S p.threads.length (S.body c) R p.world) {a : Result}
    (ended : (S.runFrom p (.spawn c :: ls)).threads[p.threads.length]? = some (.ret a)) :
    R (.ok a) (S.runFrom p (.spawn c :: ls)).world := by
  have started : (S.next p (.spawn c)).threads[p.threads.length]? = some (S.body c) := by
    simp [System.next]
  have sound := sound_next obeys h hls.1
  obtain ⟨t, ht, stands⟩ := stands_runFrom obeys sound hls.2 started body
  obtain rfl : t = .ret a := Option.some.inj (ht.symm.trans ended)
  have last := sound_runFrom obeys sound hls.2
  exact stands _ (D.later_refl last.inv)

end Discipline

end ParmeliaLinks
