/-
ParmeliaLinks/Lib/Invariant.lean

More invariants for handlers that follow a discipline.  A discipline is proved
once, by going through every handler; what a step is known to do from then on is
in `Performs`.  An invariant that each such step keeps, for runs under further
conditions (`Invariant`), then needs no second look at the handlers: it can be
added to the discipline (`adding`), and everything proved of the handlers holds
of the discipline with it (`Invariant.wp`, `Invariant.sound`, `Invariant.obeys`).
-/
import ParmeliaLinks.Lib.RelyGuarantee

namespace ParmeliaLinks

variable {Op : Type} {Reply : Op → Type} {World Answer Env Call Result α : Type}

namespace System

/-- Both conditions on each kind of label. -/
def Conditions.and (C C' : Conditions Op World Answer Env Call) :
    Conditions Op World Answer Env Call where
  op i o x w := C.op i o x w ∧ C'.op i o x w
  env e w := C.env e w ∧ C'.env e w
  call c w := C.call c w ∧ C'.call c w

variable {S : System Op Reply World Answer Env Call Result}

theorem meets_and {C C' : Conditions Op World Answer Env Call} {p : Pool Op Reply World Result}
    {l : Label Answer Env Call} : Meets (C.and C') p l ↔ Meets C p l ∧ Meets C' p l := by
  cases l with
  | spawn c => rfl
  | env e => rfl
  | step i x =>
    constructor
    · intro h
      exact ⟨fun o k hi => (h o k hi).1, fun o k hi => (h o k hi).2⟩
    · intro h o k hi
      exact ⟨h.1 o k hi, h.2 o k hi⟩

theorem along_and {C C' : Conditions Op World Answer Env Call} {p : Pool Op Reply World Result}
    {ls : List (Label Answer Env Call)} :
    S.Along (C.and C') p ls ↔ S.Along C p ls ∧ S.Along C' p ls := by
  induction ls generalizing p with
  | nil => simp [Along]
  | cons l ls ih =>
    simp only [Along, meets_and, ih]
    constructor
    · rintro ⟨⟨hl, hl'⟩, hls, hls'⟩
      exact ⟨⟨hl, hls⟩, ⟨hl', hls'⟩⟩
    · rintro ⟨⟨hl, hls⟩, ⟨hl', hls'⟩⟩
      exact ⟨⟨hl, hl'⟩, hls, hls'⟩

/-- A run under some conditions is one under weaker conditions. -/
theorem along_mono {C C' : Conditions Op World Answer Env Call} {p : Pool Op Reply World Result}
    {ls : List (Label Answer Env Call)} (op : ∀ i o x w, C.op i o x w → C'.op i o x w)
    (env : ∀ e w, C.env e w → C'.env e w) (call : ∀ c w, C.call c w → C'.call c w)
    (h : S.Along C p ls) : S.Along C' p ls := by
  induction ls generalizing p with
  | nil => trivial
  | cons l ls ih =>
    refine ⟨?_, ih h.2⟩
    cases l with
    | spawn c => exact call c _ h.1
    | env e => exact env e _ h.1
    | step i x => exact fun o k hi => op i o x _ (h.1 o k hi)

end System

namespace Discipline

variable (D : Discipline Op World Answer Env Call)
variable (S : System Op Reply World Answer Env Call Result)

/-- Under the conditions `C`, every step that follows the discipline keeps `I`. -/
structure Invariant (I : World → Prop) (C : System.Conditions Op World Answer Env Call) :
    Prop where
  op : ∀ i o x w, D.Inv w → I w → C.op i o x w → D.Performs S i o x w → I (S.exec i o x w).2
  env : ∀ e w, D.Inv w → I w → C.env e w → D.Moves w (S.env e w) → I (S.env e w)

/-- The discipline with one more invariant, for runs under the conditions `C`. -/
def adding (I : World → Prop) (C : System.Conditions Op World Answer Env Call) :
    Discipline Op World Answer Env Call where
  Inv w := D.Inv w ∧ I w
  Evolves := D.Evolves
  rely := D.rely
  allowed := D.allowed.and C
  ensures := D.ensures
  refl := D.refl
  trans := D.trans
  rely_refl := D.rely_refl
  rely_trans := D.rely_trans

variable {D S} {I : World → Prop} {C : System.Conditions Op World Answer Env Call} {i : Nat}

theorem Later.of_adding {w w' : World} (h : (D.adding I C).Later i w w') : D.Later i w w' :=
  ⟨h.inv.1, h.evolves, h.relied⟩

namespace Invariant

variable (inv : D.Invariant S I C)

include inv

theorem performs {o : Op} {x : Answer} {w : World} (hw : (D.adding I C).Inv w)
    (hC : C.op i o x w) (h : D.Performs S i o x w) : (D.adding I C).Performs S i o x w where
  inv := ⟨h.inv, inv.op i o x w hw.1 hw.2 hC h⟩
  evolves := h.evolves
  relied := h.relied
  ensured := h.ensured

/-- What was proved of a handler holds of it under the stronger discipline. -/
theorem wp {p : Prog Op Reply α} {Q : Except String α → World → Prop} {w : World}
    (hw : (D.adding I C).Inv w) (h : D.wp S i p Q w) : (D.adding I C).wp S i p Q w := by
  induction p generalizing w with
  | ret a => exact h
  | throw m => exact h
  | act o k ih =>
    refine wp_act _ S (fun x hx => ?_) fun x hx w' later => ?_
    · exact inv.performs hw hx.2 (h x hx.1).1
    · exact ih _ later.inv ((h x hx.1).2 w' later.of_adding)

theorem stands {t : Prog Op Reply Result} {Q : Except String Result → World → Prop} {w : World}
    (h : D.Stands S i t Q w) : (D.adding I C).Stands S i t Q w := by
  intro w' later
  exact inv.wp later.inv (h w' later.of_adding)

theorem sound {Q : Except String Result → World → Prop} {p : Pool Op Reply World Result}
    (h : D.Sound S Q p) (hI : I p.world) : (D.adding I C).Sound S Q p where
  inv := ⟨h.inv, hI⟩
  threads j t ht := inv.stands (h.threads j t ht)

theorem obeys {Q : Except String Result → World → Prop} (h : D.Obeys S Q) :
    (D.adding I C).Obeys S Q where
  env e w hw hC := by
    have moves := h.env e w hw.1 hC.1
    exact ⟨⟨⟨moves.inv, inv.env e w hw.1 hw.2 hC.2 moves⟩, moves.evolves⟩, moves.relied⟩
  call c j w w' hw hC later := inv.wp later.inv (h.call c j w w' hw.1 hC.1 later.of_adding)

/-- The invariant holds at the end of every run under the conditions. -/
theorem holds {Q : Except String Result → World → Prop} (obeys : D.Obeys S Q)
    {p : Pool Op Reply World Result} {ls : List (Label Answer Env Call)} (h : D.Sound S Q p)
    (hI : I p.world) (hD : S.Along D.allowed p ls) (hC : S.Along C p ls) :
    I (S.runFrom p ls).world := by
  have sound := sound_runFrom (inv.obeys obeys) (inv.sound h hI) (System.along_and.2 ⟨hD, hC⟩)
  exact sound.inv.2

end Invariant

end Discipline

end ParmeliaLinks
