/-
ParmeliaLinks/Lib/Embed.lean

Handlers inside a larger component.  `Prog.inl` turns a handler over some
operations into one over more of them, and `wp_inl` carries over what was proved
of it: if the larger world contains the smaller one (`Embeds`), and a step that
follows the discipline of the smaller component follows that of the larger one,
then so does every handler, with the same statement about its outcome.
-/
import ParmeliaLinks.Lib.RelyGuarantee

namespace ParmeliaLinks

namespace Prog

variable {Op Op' : Type} {Reply : Op → Type} {Reply' : Op' → Type} {α β : Type}

/-- A handler that uses the operations on the left. -/
protected def inl : Prog Op Reply α → Prog (Op ⊕ Op') (Sum.elim Reply Reply') α
  | .ret a => .ret a
  | .throw m => .throw m
  | .act o k => .act (.inl o) fun r => (k r).inl

/-- A handler that uses the operations on the right. -/
protected def inr : Prog Op' Reply' α → Prog (Op ⊕ Op') (Sum.elim Reply Reply') α
  | .ret a => .ret a
  | .throw m => .throw m
  | .act o k => .act (.inr o) fun r => (k r).inr

theorem uses_inl {P : Op ⊕ Op' → Prop} {p : Prog Op Reply α} (h : p.Uses fun o => P (.inl o)) :
    (p.inl : Prog (Op ⊕ Op') (Sum.elim Reply Reply') α).Uses P := by
  induction p with
  | ret a => trivial
  | throw m => trivial
  | act o k ih => exact ⟨h.1, fun r => ih r (h.2 r)⟩

theorem uses_inr {P : Op ⊕ Op' → Prop} {p : Prog Op' Reply' α} (h : p.Uses fun o => P (.inr o)) :
    (p.inr : Prog (Op ⊕ Op') (Sum.elim Reply Reply') α).Uses P := by
  induction p with
  | ret a => trivial
  | throw m => trivial
  | act o k ih => exact ⟨h.1, fun r => ih r (h.2 r)⟩

theorem inl_bind (p : Prog Op Reply α) (f : α → Prog Op Reply β) :
    ((p.bind f).inl : Prog (Op ⊕ Op') (Sum.elim Reply Reply') β) = p.inl.bind fun a => (f a).inl := by
  induction p with
  | ret a => rfl
  | throw m => rfl
  | act o k ih =>
    show Prog.act _ _ = Prog.act _ _
    congr 1
    funext r
    exact ih r

theorem inr_bind (p : Prog Op' Reply' α) (f : α → Prog Op' Reply' β) :
    ((p.bind f).inr : Prog (Op ⊕ Op') (Sum.elim Reply Reply') β) = p.inr.bind fun a => (f a).inr := by
  induction p with
  | ret a => rfl
  | throw m => rfl
  | act o k ih =>
    show Prog.act _ _ = Prog.act _ _
    congr 1
    funext r
    exact ih r

/-- Every handler uses some operations. -/
theorem uses_of_forall {P : Op → Prop} (h : ∀ o, P o) (p : Prog Op Reply α) : p.Uses P := by
  induction p with
  | ret a => trivial
  | throw m => trivial
  | act o k ih => exact ⟨h o, ih⟩

end Prog

namespace Discipline

variable {Op Op' : Type} {Reply : Op → Type} {Reply' : Op' → Type}
variable {W A E C Res W' A' E' C' Res' α : Type}

/-- The component `S` is part of the component `S'`: its world is the part `part` of
the larger one, and its operations do there what they do alone. -/
structure Embeds (D : Discipline Op W A E C) (S : System Op Reply W A E C Res)
    (D' : Discipline (Op ⊕ Op') W' A' E' C')
    (S' : System (Op ⊕ Op') (Sum.elim Reply Reply') W' A' E' C' Res')
    (part : W' → W) (answer : A' → A) : Prop where
  reply : ∀ i (o : Op) x w,
    ((S'.exec i (.inl o) x w).1 : Reply o) = (S.exec i o (answer x) (part w)).1
  world : ∀ i o x w, part (S'.exec i (.inl o) x w).2 = (S.exec i o (answer x) (part w)).2
  allowed : ∀ i o x w, D'.allowed.op i (.inl o) x w → D.allowed.op i o (answer x) (part w)
  later : ∀ i w w', D'.Later i w w' → D.Later i (part w) (part w')
  performs : ∀ i o x w, D'.Inv w → D'.allowed.op i (.inl o) x w →
    D.Performs S i o (answer x) (part w) → D'.Performs S' i (.inl o) x w

variable {D : Discipline Op W A E C} {S : System Op Reply W A E C Res}
  {D' : Discipline (Op ⊕ Op') W' A' E' C'}
  {S' : System (Op ⊕ Op') (Sum.elim Reply Reply') W' A' E' C' Res'}
  {part : W' → W} {answer : A' → A} {i : Nat}

/-- The same, for handlers whose operations are guarded: `guard` says what the larger world
has to provide for an operation, and goes on providing. -/
structure EmbedsUnder (guard : Op → W' → Prop) (D : Discipline Op W A E C)
    (S : System Op Reply W A E C Res) (D' : Discipline (Op ⊕ Op') W' A' E' C')
    (S' : System (Op ⊕ Op') (Sum.elim Reply Reply') W' A' E' C' Res')
    (part : W' → W) (answer : A' → A) : Prop where
  reply : ∀ i (o : Op) x w,
    ((S'.exec i (.inl o) x w).1 : Reply o) = (S.exec i o (answer x) (part w)).1
  world : ∀ i o x w, part (S'.exec i (.inl o) x w).2 = (S.exec i o (answer x) (part w)).2
  allowed : ∀ i o x w, D'.allowed.op i (.inl o) x w → D.allowed.op i o (answer x) (part w)
  later : ∀ i w w', D'.Later i w w' → D.Later i (part w) (part w')
  performs : ∀ i o x w, D'.Inv w → guard o w → D'.allowed.op i (.inl o) x w →
    D.Performs S i o (answer x) (part w) → D'.Performs S' i (.inl o) x w
  stable : ∀ o w w', D'.Evolves w w' → guard o w → guard o w'

/-- What a handler establishes alone it establishes in the larger component, if its operations
are guarded there. -/
theorem EmbedsUnder.wp_inl {guard : Op → W' → Prop} (e : EmbedsUnder guard D S D' S' part answer)
    {p : Prog Op Reply α} {Q : Except String α → W → Prop} {w : W'} (hw : D'.Inv w)
    (guarded : p.Uses fun o => guard o w) (h : D.wp S i p Q (part w)) :
    D'.wp S' i p.inl (fun r w' => Q r (part w')) w := by
  induction p generalizing w with
  | ret a => exact h
  | throw m => exact h
  | act o k ih =>
    refine D'.wp_act S' (fun x hx => ?_) fun x hx w' later => ?_
    · exact e.performs i o x w hw guarded.1 hx (h _ (e.allowed i o x w hx)).1
    · have performs := e.performs i o x w hw guarded.1 hx (h _ (e.allowed i o x w hx)).1
      have rest := (h _ (e.allowed i o x w hx)).2 (part w')
      rw [← e.world i o x w, ← e.reply i o x w] at rest
      refine ih _ later.inv (Prog.uses_mono (guarded.2 _) fun o' g => ?_)
        (rest (e.later i _ _ later))
      exact e.stable o' w w' (D'.trans performs.evolves later.evolves) g

theorem Embeds.under (e : Embeds D S D' S' part answer) :
    EmbedsUnder (fun _ _ => True) D S D' S' part answer where
  reply := e.reply
  world := e.world
  allowed := e.allowed
  later := e.later
  performs i o x w hw _ := e.performs i o x w hw
  stable _ _ _ _ _ := trivial

/-- What a handler establishes alone it establishes in the larger component. -/
theorem Embeds.wp_inl (e : Embeds D S D' S' part answer) {p : Prog Op Reply α}
    {Q : Except String α → W → Prop} {w : W'} (hw : D'.Inv w) (h : D.wp S i p Q (part w)) :
    D'.wp S' i p.inl (fun r w' => Q r (part w')) w :=
  e.under.wp_inl hw (Prog.uses_of_forall (fun _ => trivial) p) h

end Discipline

end ParmeliaLinks
