/-
ParmeliaLinks/Accounts/FaucetAccounting.lean

What the faucet owes to whom (`Accounted`).  The steps of a start and of a compensation hand
tokens on, if each statement that takes one or gives one back does what its caller is told, if
a submission that throws has left no operation that has ended in the meantime, if the window
of a claim is still open when it is refunded, and if no handler dies that has a token
(`Orderly`, `Empty`).
-/
import ParmeliaLinks.Accounts.FaucetTokens

namespace ParmeliaLinks.Faucet

/-! ### What is required -/

/-- Nobody gets the transfer twice, and who is funded has a start or a compensation under way, or
an operation that is active or was confirmed.  The unrefunded claims of a window stay in the
limit; they are those of the handlers under way and of the operations that did not fail. -/
structure Accounted (limit : Nat) (p : Pool FaucetOp FaucetOp.Reply World Unit) : Prop where
  once : ∀ u, p.world.confirmed.countP (fun c => c.1 == u) ≤ 1
  funded : ∀ u, p.world.fundedAt u ≠ none →
    (∃ i, System.Running i p ∧ (i, u) ∈ p.world.marks) ∨
      (∃ r ∈ p.world.operations, r.uid = u ∧ r.active = true) ∨ ∃ v, (u, v) ∈ p.world.confirmed
  underway : ∀ c ∈ p.world.claims, System.Running c.1 p
  balanced : ∀ v, p.world.granted v = p.world.refunded v +
    (p.world.claims.countP (fun c => c.2 == v) + p.world.notFailed v)
  within : ∀ v, p.world.granted v ≤ p.world.refunded v + limit

/-! ### When it holds -/

/-- A statement that takes a token tells its caller so, one that gives it back takes effect.
Where a submission has thrown, the handler learns whether it has left an operation, and that
one is still active.  A claim is refunded in its window.  The id of an operation is new. -/
def FaucetOp.Orderly (i : Nat) (o : FaucetOp) (x : Answer) (w : World) : Prop :=
  match o with
  | .claimFaucet uid => w.fundedAt uid = none → x.statement.known = true
  | .consume limit => w.nextCount ≤ limit → x.statement.known = true
  | .finish id status _ =>
    status = .failed → (w.selectPending id).isSome = true → x.statement.known = true
  | .releaseFaucetClaim _ => x.statement.happens = true
  | .refund => x.statement.happens = true ∧ ∀ c ∈ w.claims, c.1 = i → c.2 = w.window
  | .selectDurable uid =>
    if (i, uid) ∈ w.marks then x.statement.answered = true
    else x.statement.answered = true → (w.selectActive uid).isSome = true
  | .insertOperation id _ _ _ => ∀ c ∈ w.created, c.1 ≠ id
  | _ => True

/-- The handler holds no token. -/
def Empty (i : Nat) (w : World) : Prop :=
  (∀ m ∈ w.marks, m.1 ≠ i) ∧ ∀ c ∈ w.claims, c.1 ≠ i

abbrev orderly : System.Conditions FaucetOp World Answer Surroundings Call where
  op := FaucetOp.Orderly

instance (i : Nat) (o : FaucetOp) (x : Answer) (w : World) : Decidable (o.Orderly i x w) :=
  match o with
  | .claimFaucet _ => inferInstanceAs (Decidable (_ → _))
  | .consume _ => inferInstanceAs (Decidable (_ → _))
  | .finish _ _ _ => inferInstanceAs (Decidable (_ → _ → _))
  | .releaseFaucetClaim _ => inferInstanceAs (Decidable (_ = _))
  | .refund => inferInstanceAs (Decidable (_ ∧ ∀ c ∈ w.claims, _ → _))
  | .selectDurable _ => inferInstanceAs (Decidable (ite _ _ _))
  | .insertOperation _ _ _ _ => inferInstanceAs (Decidable (∀ c ∈ w.created, _))
  | .selectActive _ | .randomUUID | .clock | .updateLease _ | .insertLease _
  | .deleteLease _ | .selectBlocker | .prepareTransaction _ | .scheduleReconciler
  | .selectOperation _ | .sendRawTransaction _ | .recordAttempt _
  | .markSubmitted _ | .getTransactionReceipt _ | .getTransactionCount | .finalize _
  | .listActive _ | .sweep => .isTrue trivial

instance (i : Nat) (w : World) : Decidable (Empty i w) :=
  inferInstanceAs (Decidable ((∀ m ∈ w.marks, m.1 ≠ i) ∧ ∀ c ∈ w.claims, c.1 ≠ i))

open World

theorem empty_iff {i : Nat} {w : World} :
    Empty i w ↔ w.marks.filter (·.1 == i) = [] ∧ w.claims.filter (·.1 == i) = [] := by
  rw [List.filter_eq_nil_iff, List.filter_eq_nil_iff]
  simp only [Empty, beq_iff_eq]

theorem World.SameHeld.empty {i : Nat} {w w' : World} (same : SameHeld i w w') (h : Empty i w) :
    Empty i w' := by
  rw [empty_iff] at h ⊢
  rwa [same.marks, same.claims]

/-! ### Handlers -/

/-- The statements that move tokens. -/
def FaucetOp.Moves : FaucetOp → Prop
  | .claimFaucet _ | .releaseFaucetClaim _ | .consume _ | .refund | .insertOperation _ _ _ _ => True
  | .finish _ status _ => status = .failed
  | _ => False

def discipline (limit : Nat) : Discipline FaucetOp World Answer Surroundings Call where
  Inv := World.Sane limit
  Evolves w w' := w.created ⊆ w'.created
  rely := SameHeld
  allowed := orderly
  refl _ := List.Subset.refl _
  trans := List.Subset.trans
  rely_refl := SameHeld.rfl
  rely_trans := SameHeld.trans

section Handlers

variable {policy : FaucetPolicy} {w w' : World} {i : Nat}

theorem deliver_sane {α : Type} {limit : Nat} (x : Delivery) {r : α × World} (sane : w.Sane limit)
    (after : r.2.Sane limit) (same : ∀ j, SameHeld j w r.2) :
    (x.deliver w r).2.Sane limit ∧ ∀ j, SameHeld j w (x.deliver w r).2 :=
  x.deliver_induction (P := fun v => v.Sane limit ∧ ∀ j, SameHeld j w v)
    ⟨sane, fun j => .rfl j w⟩ ⟨after, same⟩

theorem World.Sane.of_lease {limit : Nat} (h : w.Sane limit) (lease : Option Lease) :
    ({ w with lease } : World).Sane limit :=
  ⟨h.listed, h.token, h.balance, h.past, h.counted, h.within⟩

/-- A statement that moves no token, and the answers of the chain. -/
theorem exec_plain {limit : Nat} {o : FaucetOp} (plain : ¬ o.Moves) (x : Answer)
    (h : w.Sane limit) :
    (o.exec i x w).2.Sane limit ∧ ∀ j, SameHeld j w (o.exec i x w).2 := by
  have still : ∀ j, SameHeld j w w := fun j => .rfl j w
  cases o with
  | claimFaucet | releaseFaucetClaim | consume | refund | insertOperation =>
    exact absurd trivial plain
  | selectActive | selectDurable | selectBlocker | scheduleReconciler | selectOperation | finalize
  | listActive => exact deliver_sane x.statement h h still
  | randomUUID | clock | prepareTransaction | sendRawTransaction | getTransactionReceipt
  | getTransactionCount => exact ⟨h, still⟩
  | updateLease owner =>
    refine deliver_sane x.statement h ?_ fun j => ?_
    · unfold World.updateLease
      split
      · split
        · exact h.of_lease _
        · exact h
      · exact h
    · unfold World.updateLease
      split
      · split
        · exact .of_eq j rfl rfl rfl
        · exact still j
      · exact still j
  | insertLease owner =>
    refine deliver_sane x.statement h ?_ fun j => ?_
    · unfold World.insertLease
      split
      · exact h.of_lease _
      · exact h
    · unfold World.insertLease
      split
      · exact .of_eq j rfl rfl rfl
      · exact still j
  | deleteLease owner =>
    exact deliver_sane x.statement h (h.of_lease _) fun j => .of_eq j rfl rfl rfl
  | recordAttempt id =>
    exact deliver_sane x.statement h (recordAttempt_sane h id) fun j => .of_eq j rfl rfl rfl
  | markSubmitted id =>
    exact deliver_sane x.statement h (markSubmitted_sane h id) fun j => .of_eq j rfl rfl rfl
  | sweep => exact deliver_sane x.statement h (sweep_sane h) fun j => .of_eq j rfl rfl rfl
  | finish id status errorCode =>
    refine deliver_sane x.statement h (finish_sane h i id status errorCode) fun j => ?_
    unfold World.finish
    split
    · exact still j
    · cases status with
      | failed => exact absurd rfl plain
      | prepared | submitted | confirmed | needsReview => exact .of_eq j rfl rfl rfl

/-- What a statement that moves no token leaves. -/
theorem wp_plain {α : Type} {p : Handler α} (uses : p.Uses fun o => ¬ o.Moves)
    (sane : w.Sane policy.dailyClaims) :
    (discipline policy.dailyClaims).wp (faucet policy) i p
      (fun _ w' => w'.Sane policy.dailyClaims ∧ SameHeld i w w') w := by
  induction p generalizing w with
  | ret a => exact ⟨sane, .rfl i w⟩
  | throw m => exact ⟨sane, .rfl i w⟩
  | act o k ih =>
    refine Discipline.wp_act _ _ (fun x _ => ?_) fun x _ w₁ later => ?_
    · obtain ⟨after, same⟩ := exec_plain (i := i) uses.1 x sane
      exact ⟨⟨after, (same i).created⟩, fun j _ => same j, trivial⟩
    · have same := (exec_plain (i := i) uses.1 x sane).2 i
      exact Discipline.wp_mono _ _ (ih _ (uses.2 _) later.inv) fun _ _ h =>
        ⟨h.1, (same.trans later.relied).trans h.2⟩

/-- The rule of a statement. -/
theorem wp_tryOp {α : Type} {o : FaucetOp} {reply : o.Reply = Except String α}
    {Q : Except String α → World → Prop} (f : Answer → α × World)
    (sane : w.Sane policy.dailyClaims)
    (is : ∀ x, (cast reply (o.exec i x w).1, (o.exec i x w).2) = x.statement.deliver w (f x))
    (keeps : ∀ x, o.Orderly i x w → x.statement.happens = true →
      (f x).2.Sane policy.dailyClaims)
    (others : ∀ x j, j ≠ i → SameHeld j w (f x).2)
    (ok : ∀ x w', o.Orderly i x w → x.statement = .done → w'.Sane policy.dailyClaims →
      SameHeld i (f x).2 w' → Q (.ok (f x).1) w')
    (lost : ∀ x m w', o.Orderly i x w → x.statement = .lost m → w'.Sane policy.dailyClaims →
      SameHeld i w w' → Q (.error m) w')
    (unknown : ∀ x m w', o.Orderly i x w → x.statement = .unacknowledged m →
      w'.Sane policy.dailyClaims → SameHeld i (f x).2 w' → Q (.error m) w') :
    (discipline policy.dailyClaims).wp (faucet policy) i (tryOp o reply) Q w := by
  refine Discipline.wp_act _ _ (fun x hx => ?_) fun x hx w' later => ?_
  · have world : (o.exec i x w).2 = (x.statement.deliver w (f x)).2 := congrArg Prod.snd (is x)
    show (discipline policy.dailyClaims).Performs (faucet policy) i o x w
    constructor
    · show (discipline policy.dailyClaims).Keeps w (o.exec i x w).2
      rw [world]
      refine ⟨?_, ?_⟩
      rotate_left
      · have other : i + 1 ≠ i := Nat.succ_ne_self i
        exact x.statement.deliver_induction (P := fun v : World => w.created ⊆ v.created)
          (List.Subset.refl _) (others x (i + 1) other).created
      cases e : x.statement with
      | lost m => exact sane
      | done => exact keeps x hx (by rw [e]; rfl)
      | unacknowledged m => exact keeps x hx (by rw [e]; rfl)
    · intro j other
      show SameHeld j w (o.exec i x w).2
      rw [world]
      exact x.statement.deliver_induction (P := SameHeld j w) (.rfl j w) (others x j other)
    · trivial
  · have answer : cast reply (o.exec i x w).1 = (x.statement.deliver w (f x)).1 :=
      congrArg Prod.fst (is x)
    have world : (o.exec i x w).2 = (x.statement.deliver w (f x)).2 := congrArg Prod.snd (is x)
    show (discipline policy.dailyClaims).wp (faucet policy) i
      (Prog.ofExcept (cast reply (o.exec i x w).1)) Q w'
    obtain ⟨inv, -, same⟩ := later
    change SameHeld i (o.exec i x w).2 w' at same
    rw [answer]
    rw [world] at same
    refine Discipline.wp_ofExcept _ _ ?_
    cases e : x.statement with
    | done =>
      rw [e] at same
      exact ok x w' hx e inv same
    | lost m =>
      rw [e] at same
      exact lost x m w' hx e inv same
    | unacknowledged m =>
      rw [e] at same
      exact unknown x m w' hx e inv same

/-- The mark is given back. -/
theorem wp_releaseFaucetClaim {u : Uid} (sane : w.Sane policy.dailyClaims) (mark : HasMark i u w) :
    (discipline policy.dailyClaims).wp (faucet policy) i
      (tryOp (.releaseFaucetClaim u) rfl : Handler Unit)
      (fun _ w' => w'.Sane policy.dailyClaims ∧ w'.marks.filter (·.1 == i) = [] ∧
        w'.claims.filter (·.1 == i) = w.claims.filter (·.1 == i)) w := by
  have given : ∀ w', SameHeld i (w.releaseFaucetClaim i u) w' →
      w'.marks.filter (·.1 == i) = [] ∧
        w'.claims.filter (·.1 == i) = w.claims.filter (·.1 == i) := by
    intro w' same
    exact ⟨same.marks.trans (filter_own_self w.marks i), same.claims⟩
  refine wp_tryOp (fun _ => ((), w.releaseFaucetClaim i u)) sane (fun _ => rfl)
    (fun _ _ _ => releaseFaucetClaim_sane sane mark) (fun _ j other => ?_) ?_ ?_ ?_
  · exact ⟨filter_own_of_other other, rfl, List.Subset.refl _⟩
  · exact fun _ w' _ _ sane' same => ⟨sane', given w' same⟩
  · intro x m w' happens lost _ _
    change x.statement.happens = true at happens
    rw [lost] at happens
    cases happens
  · exact fun _ _ w' _ _ sane' same => ⟨sane', given w' same⟩

/-- The claim is refunded. -/
theorem wp_refund {v : Window} (sane : w.Sane policy.dailyClaims)
    (given : w.marks.filter (·.1 == i) = []) (claim : HasClaim i v w) :
    (discipline policy.dailyClaims).wp (faucet policy) i
      (tryOp .refund rfl : Handler Unit)
      (fun _ w' => w'.Sane policy.dailyClaims ∧ Empty i w') w := by
  have marks : (w.refund i).marks = w.marks := by
    unfold World.refund
    split
    · split <;> rfl
    · rfl
  have claims : (w.refund i).claims = w.claims.filter (·.1 != i) := by
    unfold World.refund
    split
    · split <;> rfl
    · rfl
  have empty : ∀ w', SameHeld i (w.refund i) w' → Empty i w' := by
    intro w' same
    rw [empty_iff, same.marks, same.claims, marks, claims]
    exact ⟨given, filter_own_self w.claims i⟩
  refine wp_tryOp (fun _ => ((), w.refund i)) sane (fun _ => rfl) (fun x inTime _ => ?_)
    (fun _ j other => ?_) ?_ ?_ ?_
  · -- the window of the claim is open
    have mem : (i, v) ∈ w.claims.filter (·.1 == i) := by
      rw [show w.claims.filter (·.1 == i) = _ from claim]
      exact List.mem_cons_self
    have is : v = w.window := inTime.2 (i, v) (List.mem_filter.1 mem).1 rfl
    rw [is] at claim
    exact refund_sane sane claim
  · have created : (w.refund i).created = w.created := by
      unfold World.refund
      split
      · split <;> rfl
      · rfl
    constructor
    · rw [marks]
    · rw [claims]
      exact filter_own_of_other other
    · rw [created]
      exact List.Subset.refl _
  · exact fun _ w' _ _ sane' same => ⟨sane', empty w' same⟩
  · intro x m w' happens lost _ _
    have happens : x.statement.happens = true := happens.1
    rw [lost] at happens
    cases happens
  · exact fun _ _ w' _ _ sane' same => ⟨sane', empty w' same⟩

/-! The parts of a handler that move no token. -/

theorem uses_tryOp {α : Type} {o : FaucetOp} {reply : o.Reply = Except String α}
    (plain : ¬ o.Moves) : (tryOp o reply).Uses fun o => ¬ o.Moves :=
  ⟨plain, fun _ => Prog.uses_ofExcept _ _⟩

theorem uses_acquireLease : acquireLease.Uses fun o => ¬ o.Moves := by
  refine Prog.uses_bind ⟨id, fun _ => trivial⟩ fun owner => ?_
  refine Prog.uses_bind (uses_tryOp id) fun updated => ?_
  cases updated with
  | true => trivial
  | false =>
    refine Prog.uses_bind (uses_tryOp id) fun inserted => ?_
    cases inserted <;> trivial

theorem uses_sendOperation (operation : AccountOperation) :
    (sendOperation operation).Uses fun o => ¬ o.Moves := by
  refine Prog.uses_tryCatch ?_ fun _ => uses_tryOp id
  refine Prog.uses_bind (uses_tryOp id) fun sentHash => ?_
  dsimp only
  split
  · trivial
  · exact Prog.uses_bind (uses_tryOp id) fun _ => uses_tryOp id

theorem uses_broadcastPersistedOperation (operation : AccountOperation) :
    (broadcastPersistedOperation operation).Uses fun o => ¬ o.Moves :=
  Prog.uses_bind (uses_sendOperation operation) fun _ =>
    Prog.uses_bind (uses_tryOp id) fun _ => trivial

theorem uses_withSignerLease {α : Type} (operationId : Option Nat) {action : Handler α}
    (h : action.Uses fun o => ¬ o.Moves) :
    (withSignerLease operationId action).Uses fun o => ¬ o.Moves := by
  refine Prog.uses_bind uses_acquireLease fun owner => ?_
  cases owner with
  | none => trivial
  | some owner =>
    refine Prog.uses_bind (Prog.uses_attempt ?_) fun result => ?_
    · refine Prog.uses_bind (uses_tryOp id) fun blocker => ?_
      dsimp only
      split
      · trivial
      · exact h
    · exact Prog.uses_bind (Prog.uses_attempt (uses_tryOp id)) fun _ => Prog.uses_ofExcept _ _

/-- An action under the lease; what it comes to is still so when the lease is given back. -/
theorem wp_withSignerLease {α : Type} {operationId : Option Nat} {action : Handler α}
    {R : Except String α → World → Prop} (sane : w.Sane policy.dailyClaims)
    (later : ∀ r v v', R r v → SameHeld i v v' → R r v')
    (busy : ∀ m v, SameHeld i w v → R (.error m) v)
    (acts : ∀ v, v.Sane policy.dailyClaims → SameHeld i w v →
      (discipline policy.dailyClaims).wp (faucet policy) i action R v) :
    (discipline policy.dailyClaims).wp (faucet policy) i (withSignerLease operationId action) R w := by
  refine Discipline.wp_seq _ _ (wp_plain uses_acquireLease sane) ?_ fun m v h => busy m v h.2
  rintro owner v ⟨sane₁, same₁⟩
  cases owner with
  | none => exact busy _ v same₁
  | some owner =>
    refine Discipline.wp_attempt_seq _ _ (Discipline.wp_evolves _ _ sane₁ (Q := R) ?_) ?_
    · refine Discipline.wp_seq _ _ (wp_plain (uses_tryOp id) sane₁) ?_
        fun m v' h => busy m v' (same₁.trans h.2)
      rintro blocker v' ⟨sane₂, same₂⟩
      dsimp only
      split
      · exact busy _ v' (same₁.trans same₂)
      · exact acts v' sane₂ (same₁.trans same₂)
    · rintro result v' ⟨reached, sane₂, -⟩
      refine Discipline.wp_attempt_seq _ _ (wp_plain (uses_tryOp id) sane₂) fun _ v'' given => ?_
      exact Discipline.wp_ofExcept _ _ (later _ _ _ reached given.2)

/-- The handler has the mark of the user, and no claim. -/
def World.Marked (i : Nat) (u : Uid) (w : World) : Prop :=
  HasMark i u w ∧ w.claims.filter (·.1 == i) = []

/-- The handler has the mark of the user and a claim. -/
def World.Holds (i : Nat) (u : Uid) (w : World) : Prop := HasMark i u w ∧ ∃ v, HasClaim i v w

theorem World.Marked.held {u : Uid} (h : Marked i u w) (same : SameHeld i w w') : Marked i u w' :=
  ⟨same.hasMark h.1, same.claims.trans h.2⟩

theorem World.Holds.held {u : Uid} (h : Holds i u w) (same : SameHeld i w w') : Holds i u w' := by
  obtain ⟨mark, v, claim⟩ := h
  exact ⟨same.hasMark mark, v, same.hasClaim claim⟩

theorem filter_cons_own {α : Type} (l : List (Nat × α)) (i : Nat) (a : α)
    (none : l.filter (·.1 == i) = []) : ((i, a) :: l).filter (·.1 == i) = [(i, a)] := by
  rw [List.filter_cons, none]
  exact if_pos (beq_self_eq_true i)

theorem filter_cons_other {α : Type} (l : List (Nat × α)) {i j : Nat} (other : j ≠ i) (a : α) :
    ((i, a) :: l).filter (·.1 == j) = l.filter (·.1 == j) := by
  refine List.filter_cons_of_neg ?_
  rw [beq_iff_eq]
  exact Ne.symm other

/-- The rule of a statement that takes a token, or is refused. -/
theorem wp_take {α : Type} {o : FaucetOp} {reply : o.Reply = Except String α} (f : α × World)
    (took : α → Prop) (sane : w.Sane policy.dailyClaims)
    (is : ∀ x, (cast reply (o.exec i x w).1, (o.exec i x w).2) = x.statement.deliver w f)
    (keeps : f.2.Sane policy.dailyClaims) (others : ∀ j, j ≠ i → SameHeld j w f.2)
    (told : ∀ x, o.Orderly i x w → took f.1 → x.statement.known = true)
    (refused : ¬ took f.1 → SameHeld i w f.2) :
    (discipline policy.dailyClaims).wp (faucet policy) i (tryOp o reply)
      (fun r w' => w'.Sane policy.dailyClaims ∧
        ((r = .ok f.1 ∧ took f.1 ∧ SameHeld i f.2 w') ∨
          ((∀ a, r = .ok a → ¬ took a) ∧ SameHeld i w w'))) w := by
  refine wp_tryOp (fun _ => f) sane is (fun _ _ _ => keeps) (fun _ => others) ?_ ?_ ?_
  · intro x w' _ _ sane' same
    refine ⟨sane', ?_⟩
    by_cases taken : took f.1
    · exact .inl ⟨rfl, taken, same⟩
    · refine .inr ⟨fun a is => ?_, (refused taken).trans same⟩
      rwa [← Except.ok.inj is]
  · exact fun x m w' _ _ sane' same => ⟨sane', .inr ⟨fun a is => (by cases is), same⟩⟩
  · intro x m w' orderly is sane' same
    have taken : ¬ took f.1 := by
      intro taken
      have known := told x orderly taken
      rw [is] at known
      cases known
    exact ⟨sane', .inr ⟨fun a is => (by cases is), (refused taken).trans same⟩⟩

/-- The mark is taken. -/
theorem wp_claimFaucet {u : Uid} (sane : w.Sane policy.dailyClaims) (empty : Empty i w) :
    (discipline policy.dailyClaims).wp (faucet policy) i (tryOp (.claimFaucet u) rfl)
      (fun r w' => w'.Sane policy.dailyClaims ∧
        ((r = .ok true ∧ Marked i u w') ∨ (r ≠ .ok true ∧ Empty i w'))) w := by
  obtain ⟨noMark, noClaim⟩ := empty_iff.1 empty
  refine Discipline.wp_mono _ _ (wp_take (w.claimFaucet i u) (· = true) sane (fun _ => rfl)
    (claimFaucet_sane sane i u) (fun j other => ?_) (fun x orderly taken => ?_) fun left => ?_) ?_
  · unfold World.claimFaucet
    split
    · exact ⟨filter_cons_other w.marks other u, rfl, List.Subset.refl _⟩
    · exact .rfl j w
  · refine orderly ?_
    unfold World.claimFaucet at taken
    split at taken
    · assumption
    · cases taken
  · unfold World.claimFaucet at left ⊢
    split
    · rename_i free
      rw [if_pos free] at left
      exact absurd rfl left
    · exact .rfl i w
  · rintro r w' ⟨sane', ⟨rfl, taken, same⟩ | ⟨no, same⟩⟩
    · refine ⟨sane', .inl ⟨congrArg _ taken, World.Marked.held ?_ same⟩⟩
      unfold World.claimFaucet at taken ⊢
      split
      · exact ⟨filter_cons_own w.marks i u noMark, noClaim⟩
      · rename_i funded
        rw [if_neg funded] at taken
        cases taken
    · exact ⟨sane', .inr ⟨fun is => no true is rfl, same.empty empty⟩⟩

/-- A claim is taken. -/
theorem wp_claimDailyFaucetBudget {u : Uid} (sane : w.Sane policy.dailyClaims)
    (marked : Marked i u w) :
    (discipline policy.dailyClaims).wp (faucet policy) i (claimDailyFaucetBudget policy)
      (fun r w' => w'.Sane policy.dailyClaims ∧
        ((r = .ok true ∧ Holds i u w') ∨ (r = .ok false ∧ Marked i u w'))) w := by
  unfold claimDailyFaucetBudget
  split
  · exact ⟨sane, .inr ⟨rfl, marked⟩⟩
  · refine (Discipline.wp_tryCatch _ _ _ _ _ _).2 ?_
    have consumed : (discipline policy.dailyClaims).wp (faucet policy) i
        (tryOp (.consume policy.dailyClaims) rfl) (fun r w' => w'.Sane policy.dailyClaims ∧
          ((r = .ok (w.consume i policy.dailyClaims).1 ∧
              (w.consume i policy.dailyClaims).1 ≤ policy.dailyClaims ∧
                SameHeld i (w.consume i policy.dailyClaims).2 w') ∨
            ((∀ a, r = .ok a → ¬ a ≤ policy.dailyClaims) ∧ SameHeld i w w'))) w := by
      refine wp_take (w.consume i policy.dailyClaims) (· ≤ policy.dailyClaims) sane (fun _ => rfl)
        (consume_sane sane i) (fun j other => ?_) (fun x orderly => orderly) fun left => ?_
      · unfold World.consume
        dsimp only
        split
        · exact ⟨rfl, filter_cons_other w.claims other w.window, List.Subset.refl _⟩
        · exact .of_eq j rfl rfl rfl
      · have left : ¬ w.nextCount ≤ policy.dailyClaims := left
        unfold World.consume
        dsimp only
        rw [if_neg left]
        exact .of_eq i rfl rfl rfl
    refine Discipline.wp_seq _ _ consumed ?_ ?_
    · rintro count w' ⟨sane', ⟨is, free, same⟩ | ⟨no, same⟩⟩
      · cases is
        refine ⟨sane', .inl ⟨congrArg _ (decide_eq_true free), ?_⟩⟩
        refine World.Holds.held ?_ same
        have free : w.nextCount ≤ policy.dailyClaims := free
        unfold World.consume
        dsimp only
        rw [if_pos free]
        exact ⟨marked.1, w.window, filter_cons_own w.claims i w.window marked.2⟩
      · exact ⟨sane', .inr ⟨congrArg _ (decide_eq_false (no count rfl)), marked.held same⟩⟩
    · rintro m w' ⟨sane', ⟨is, -⟩ | ⟨-, same⟩⟩
      · cases is
      · exact ⟨sane', .inr ⟨rfl, marked.held same⟩⟩

/-- The operation is created, and has mark and claim, or not. -/
theorem wp_createAccountOperation {u : Uid} (id txHash nonce : Nat)
    (sane : w.Sane policy.dailyClaims) (holds : Holds i u w) :
    (discipline policy.dailyClaims).wp (faucet policy) i
      (createAccountOperation id u txHash nonce)
      (fun r w' => w'.Sane policy.dailyClaims ∧
        ((r ≠ .ok true ∧ Holds i u w') ∨ (r ≠ .ok false ∧ Empty i w'))) w := by
  refine Discipline.wp_seq _ _ (wp_plain (uses_tryOp fun moves => moves) sane) ?_
    fun m v h => ⟨h.1, .inl ⟨fun is => (by cases is), holds.held h.2⟩⟩
  rintro - v ⟨sane₁, same₁⟩
  obtain ⟨mark, c, claim⟩ := holds.held same₁
  have created : (v.insertOperation i id u txHash nonce).1 = true ∧
        Empty i (v.insertOperation i id u txHash nonce).2 ∨
      v.insertOperation i id u txHash nonce = (false, v) := by
    unfold World.insertOperation
    split
    · exact .inl ⟨rfl, empty_iff.2 ⟨filter_own_self _ _, filter_own_self _ _⟩⟩
    · exact .inr rfl
  refine wp_tryOp (fun _ => v.insertOperation i id u txHash nonce) sane₁ (fun _ => rfl)
    (fun x new _ => insertOperation_sane sane₁ mark claim new txHash nonce)
    (fun _ j other => ?_) ?_ ?_ ?_
  · unfold World.insertOperation
    split
    · exact ⟨filter_own_of_other other, filter_own_of_other other, List.subset_cons_self _ _⟩
    · exact .rfl j v
  · intro x w' _ _ sane' same
    rcases created with ⟨inserted, empty⟩ | ignored
    · refine ⟨sane', .inr ⟨fun is => ?_, same.empty empty⟩⟩
      rw [inserted] at is
      cases is
    · rw [ignored] at same
      refine ⟨sane', .inl ⟨fun is => ?_, World.Holds.held ⟨mark, c, claim⟩ same⟩⟩
      rw [ignored] at is
      cases is
  · exact fun x m w' _ _ sane' same =>
      ⟨sane', .inl ⟨fun is => (by cases is), World.Holds.held ⟨mark, c, claim⟩ same⟩⟩
  · intro x m w' _ _ sane' same
    rcases created with ⟨-, empty⟩ | ignored
    · exact ⟨sane', .inr ⟨fun is => (by cases is), same.empty empty⟩⟩
    · rw [ignored] at same
      exact ⟨sane', .inl ⟨fun is => (by cases is), World.Holds.held ⟨mark, c, claim⟩ same⟩⟩

/-- The holder of a mark finds no active operation of the user. -/
theorem wp_selectActive {u : Uid} (sane : w.Sane policy.dailyClaims) (mark : HasMark i u w) :
    (discipline policy.dailyClaims).wp (faucet policy) i (tryOp (.selectActive u) rfl)
      (fun r w' => w'.Sane policy.dailyClaims ∧ SameHeld i w w' ∧ ∀ a, r = .ok a → a = none) w :=
  wp_tryOp (fun _ => (w.selectActive u, w)) sane (fun _ => rfl) (fun _ _ _ => sane)
    (fun _ j _ => .rfl j w)
    (fun _ _ _ _ sane' same => ⟨sane', same, fun _ is => Except.ok.inj is ▸ sane.none_active mark⟩)
    (fun _ _ _ _ _ sane' same => ⟨sane', same, fun _ is => by cases is⟩)
    fun _ _ _ _ _ sane' same => ⟨sane', same, fun _ is => by cases is⟩

/-- A part that moves no token, of a handler that has none. -/
theorem wp_plain_empty {α : Type} {p : Handler α} (uses : p.Uses fun o => ¬ o.Moves)
    (sane : w.Sane policy.dailyClaims) (empty : Empty i w) :
    (discipline policy.dailyClaims).wp (faucet policy) i p
      (fun _ w' => w'.Sane policy.dailyClaims ∧ Empty i w') w :=
  Discipline.wp_mono _ _ (wp_plain uses sane) fun _ _ h => ⟨h.1, h.2.empty empty⟩

/-- What a submission may come to: mark and claim are with an operation, or still with the
handler, who gets an error. -/
def World.Submitted {α : Type} (i : Nat) (u : Uid) (r : Except String α) (w : World) : Prop :=
  (∃ m, r = .error m ∧ Holds i u w) ∨ Empty i w

theorem World.Submitted.held {α : Type} {u : Uid} {r : Except String α} (h : Submitted i u r w)
    (same : SameHeld i w w') : Submitted i u r w' := by
  rcases h with ⟨m, is, holds⟩ | empty
  · exact .inl ⟨m, is, holds.held same⟩
  · exact .inr (same.empty empty)

theorem World.Holds.submitted {α : Type} {u : Uid} (h : Holds i u w) (m : String) :
    Submitted i u (.error m : Except String α) w := .inl ⟨m, rfl, h⟩

theorem wp_submitAccountOperation {u : Uid} (sane : w.Sane policy.dailyClaims)
    (holds : Holds i u w) :
    (discipline policy.dailyClaims).wp (faucet policy) i (submitAccountOperation u)
      (fun r w' => Submitted i u r w') w := by
  refine Discipline.wp_seq _ _ (wp_selectActive sane holds.1) ?_
    fun m v h => (holds.held h.2.1).submitted m
  rintro existing v ⟨sane₁, same₁, none⟩
  obtain rfl := none existing rfl
  refine wp_withSignerLease sane₁ (fun r v v' reached same => reached.held same)
    (fun m v' same => ((holds.held same₁).held same).submitted m) fun v' sane₂ same₂ => ?_
  have holds₂ := (holds.held same₁).held same₂
  refine Discipline.wp_seq _ _ (wp_selectActive sane₂ holds₂.1) ?_
    fun m v h => (holds₂.held h.2.1).submitted m
  rintro raced v₃ ⟨sane₃, same₃, none⟩
  obtain rfl := none raced rfl
  refine Discipline.wp_seq _ _ (wp_plain (uses_tryOp id) sane₃) ?_
    fun m v h => ((holds₂.held same₃).held h.2).submitted m
  rintro ⟨nonce, txHash⟩ v₄ ⟨sane₄, same₄⟩
  have holds₄ := (holds₂.held same₃).held same₄
  refine Discipline.wp_seq _ _ (wp_plain ⟨id, fun _ => trivial⟩ sane₄) ?_
    fun m v h => (holds₄.held h.2).submitted m
  rintro id v₅ ⟨sane₅, same₅⟩
  refine Discipline.wp_seq _ _ (wp_createAccountOperation id txHash nonce sane₅
    (holds₄.held same₅)) ?_ ?_
  · rintro created v₆ ⟨sane₆, ⟨no, holds₆⟩ | ⟨no, empty₆⟩⟩
    · cases created with
      | true => exact absurd rfl no
      | false =>
        refine Discipline.wp_seq _ _ (wp_selectActive sane₆ holds₆.1) ?_
          fun m v h => (holds₆.held h.2.1).submitted m
        rintro winner v₇ ⟨-, same₇, none⟩
        obtain rfl := none winner rfl
        exact (holds₆.held same₇).submitted _
    · cases created with
      | false => exact absurd rfl no
      | true =>
        refine Discipline.wp_mono _ _ (wp_plain_empty ?_ sane₆ empty₆) fun _ _ h => .inr h.2
        refine Prog.uses_bind (uses_tryOp fun moves => moves) fun operation => ?_
        cases operation with
        | none => trivial
        | some operation =>
          exact Prog.uses_bind (uses_broadcastPersistedOperation operation) fun _ => trivial
  · rintro m v₆ ⟨-, ⟨-, holds₆⟩ | ⟨-, empty₆⟩⟩
    · exact holds₆.submitted m
    · exact .inr empty₆

/-- Mark and claim are given back. -/
theorem wp_giveBack {α : Type} {u : Uid} {rest : Handler α} (sane : w.Sane policy.dailyClaims)
    (holds : Holds i u w) (uses : rest.Uses fun o => ¬ o.Moves) :
    (discipline policy.dailyClaims).wp (faucet policy) i
      (Prog.bind (Prog.attempt (tryOp (.releaseFaucetClaim u) rfl : Handler Unit)) fun _ =>
        Prog.bind (Prog.attempt (tryOp .refund rfl : Handler Unit)) fun _ => rest)
      (fun _ w' => w'.Sane policy.dailyClaims ∧ Empty i w') w := by
  obtain ⟨mark, v, claim⟩ := holds
  refine Discipline.wp_attempt_seq _ _ (wp_releaseFaucetClaim sane mark) ?_
  rintro - w₁ ⟨sane₁, given, kept⟩
  refine Discipline.wp_attempt_seq _ _ (wp_refund sane₁ given (kept.trans claim)) ?_
  rintro - w₂ ⟨sane₂, empty⟩
  exact wp_plain_empty uses sane₂ empty

/-- The lookup after a submission that has thrown. -/
theorem wp_selectDurable {u : Uid} (sane : w.Sane policy.dailyClaims)
    (after : Holds i u w ∨ Empty i w) :
    (discipline policy.dailyClaims).wp (faucet policy) i (tryOp (.selectDurable u) rfl)
      (fun r w' => w'.Sane policy.dailyClaims ∧
        ((r = .ok none ∧ Holds i u w') ∨ (r ≠ .ok none ∧ Empty i w'))) w := by
  have mine : Holds i u w → (i, u) ∈ w.marks := fun holds => holds.1.mem
  have notMine : Empty i w → (i, u) ∉ w.marks := fun empty mem => empty.1 _ mem rfl
  refine wp_tryOp (fun _ => (w.selectActive u, w)) sane (fun _ => rfl) (fun _ _ _ => sane)
    (fun _ j _ => .rfl j w) ?_ ?_ ?_
  · intro x w' told is sane' same
    refine ⟨sane', ?_⟩
    rcases after with holds | empty
    · exact .inl ⟨congrArg _ (sane.none_active holds.1), holds.held same⟩
    · refine .inr ⟨fun none => ?_, same.empty empty⟩
      change if (i, u) ∈ w.marks then _ else _ at told
      rw [if_neg (notMine empty), is] at told
      have found : (w.selectActive u).isSome = true := told rfl
      rw [show w.selectActive u = Option.none from Except.ok.inj none] at found
      cases found
  all_goals
    intro x m w' told is sane' same
    rcases after with holds | empty
    · change if (i, u) ∈ w.marks then _ else _ at told
      rw [if_pos (mine holds), is] at told
      cases told
    · exact ⟨sane', .inr ⟨fun none => (by cases none), same.empty empty⟩⟩

theorem wp_startFaucetOperation {u : Uid} (sane : w.Sane policy.dailyClaims) (empty : Empty i w) :
    (discipline policy.dailyClaims).wp (faucet policy) i (startFaucetOperation policy u)
      (fun _ w' => Empty i w') w := by
  refine Discipline.wp_seq _ _ (wp_plain_empty (uses_tryOp fun moves => moves) sane empty) ?_
    fun _ _ h => h.2
  rintro active w₁ ⟨sane₁, empty₁⟩
  cases active with
  | some active => exact empty₁
  | none =>
    dsimp only
    split
    · exact empty₁
    refine Discipline.wp_seq _ _ (wp_claimFaucet sane₁ empty₁) ?_ ?_
    · rintro claimed w₂ ⟨sane₂, ⟨is, marked⟩ | ⟨no, empty₂⟩⟩
      · cases is
        refine Discipline.wp_seq _ _ (wp_claimDailyFaucetBudget sane₂ marked) ?_ ?_
        · rintro granted w₃ ⟨sane₃, ⟨is, holds⟩ | ⟨is, marked₃⟩⟩
          · cases is
            refine (Discipline.wp_tryCatch _ _ _ _ _ _).2 ?_
            refine Discipline.wp_seq _ _ (Discipline.wp_evolves _ _ sane₃
              (wp_submitAccountOperation sane₃ holds)) ?_ ?_
            · rintro result w₄ ⟨⟨m, is, -⟩ | empty₄, -⟩
              · cases is
              · exact empty₄
            · -- the submission has thrown
              rintro m w₄ ⟨reached, sane₄, -⟩
              have after : Holds i u w₄ ∨ Empty i w₄ := by
                rcases reached with ⟨-, -, holds₄⟩ | empty₄
                · exact .inl holds₄
                · exact .inr empty₄
              refine Discipline.wp_attempt_seq _ _ (wp_selectDurable sane₄ after) ?_
              rintro durable w₅ ⟨sane₅, ⟨rfl, holds₅⟩ | ⟨no, empty₅⟩⟩
              · exact Discipline.wp_mono _ _ (wp_giveBack sane₅ holds₅ trivial) fun _ _ h => h.2
              · rcases durable with - | - | durable
                · exact empty₅
                · exact absurd rfl no
                · exact empty₅
          · cases is
            refine Discipline.wp_attempt_seq _ _ (wp_releaseFaucetClaim sane₃ marked₃.1) ?_
            rintro - w₄ ⟨-, given, kept⟩
            exact empty_iff.2 ⟨given, kept.trans marked₃.2⟩
        · rintro m w₃ ⟨-, ⟨is, -⟩ | ⟨is, -⟩⟩ <;> cases is
      · cases claimed with
        | true => exact absurd rfl no
        | false => exact empty₂
    · rintro m w₂ ⟨-, ⟨is, -⟩ | ⟨-, empty₂⟩⟩
      · cases is
      · exact empty₂

/-- An operation that has failed leaves its mark and its claim to the handler. -/
theorem wp_finishFailed {operation : AccountOperation} (errorCode : Option String)
    (sane : w.Sane policy.dailyClaims) (empty : Empty i w)
    (known : (operation.id, operation.uid) ∈ w.created) :
    (discipline policy.dailyClaims).wp (faucet policy) i
      (tryOp (.finish operation.id .failed errorCode) rfl)
      (fun r w' => w'.Sane policy.dailyClaims ∧
        ((r = .ok true ∧ Holds i operation.uid w') ∨ (r ≠ .ok true ∧ Empty i w'))) w := by
  obtain ⟨noMark, noClaim⟩ := empty_iff.1 empty
  refine Discipline.wp_mono _ _ (wp_take (w.finish i operation.id .failed errorCode) (· = true)
    sane (fun _ => rfl) (finish_sane sane i operation.id .failed errorCode) (fun j other => ?_)
    (fun x orderly taken => orderly rfl ?_) fun left => ?_) ?_
  · unfold World.finish
    split
    · exact .rfl j w
    · exact ⟨filter_cons_other w.marks other _, filter_cons_other w.claims other _,
        List.Subset.refl _⟩
  · unfold World.finish at taken
    split at taken
    · cases taken
    · rename_i found
      rw [found]
      rfl
  · unfold World.finish at left ⊢
    split
    · exact .rfl i w
    · rename_i found
      rw [found] at left
      exact absurd rfl left
  · rintro r w' ⟨sane', ⟨rfl, taken, same⟩ | ⟨no, same⟩⟩
    · refine ⟨sane', .inl ⟨congrArg _ taken, World.Holds.held ?_ same⟩⟩
      unfold World.finish at taken ⊢
      split
      · rename_i found
        rw [found] at taken
        cases taken
      · rename_i r found
        -- the operation is the one that the handler knows
        have matched := Table.of_find? found
        rw [Bool.and_eq_true, beq_iff_eq] at matched
        have listed := sane.listed.listed r (Table.mem_of_find? found)
        have user : r.uid = operation.uid := sane.listed.unique _ listed _ known matched.1
        refine ⟨?_, r.startedIn, filter_cons_own w.claims i _ noClaim⟩
        rw [← user]
        exact filter_cons_own w.marks i _ noMark
    · exact ⟨sane', .inr ⟨fun is => no true is rfl, same.empty empty⟩⟩

theorem wp_finishByReceipt {operation : AccountOperation} (sane : w.Sane policy.dailyClaims)
    (empty : Empty i w) (known : (operation.id, operation.uid) ∈ w.created) :
    (discipline policy.dailyClaims).wp (faucet policy) i (finishByReceipt operation)
      (fun _ w' => w'.Sane policy.dailyClaims ∧ Empty i w') w := by
  refine Discipline.wp_attempt_seq _ _ (wp_plain (uses_tryOp id) sane) ?_
  rintro receipt w₁ ⟨sane₁, same₁⟩
  have empty₁ := same₁.empty empty
  rcases receipt with m | - | -
  · refine wp_plain_empty ?_ sane₁ empty₁
    refine Prog.uses_bind (uses_tryOp id) fun _ => ?_
    refine Prog.uses_bind ⟨id, fun _ => trivial⟩ fun now => ?_
    dsimp only
    split
    · refine Prog.uses_bind (Prog.uses_attempt (uses_tryOp id)) fun nonce => ?_
      refine Prog.uses_bind (uses_tryOp fun moves => by cases moves) fun _ => uses_tryOp id
    · exact uses_tryOp id
  · refine wp_plain_empty ?_ sane₁ empty₁
    refine Prog.uses_bind (Prog.uses_tryCatch ?_ fun _ => uses_tryOp id) fun _ => uses_tryOp id
    refine Prog.uses_bind (uses_tryOp id) fun _ => ?_
    exact Prog.uses_bind (uses_tryOp fun moves => by cases moves) fun _ => trivial
  · refine Discipline.wp_seq _ _ (wp_finishFailed _ sane₁ empty₁ (same₁.created known)) ?_ ?_
    · rintro failed w₂ ⟨sane₂, ⟨is, holds⟩ | ⟨no, empty₂⟩⟩
      · cases is
        refine Discipline.wp_seq _ _ (wp_giveBack sane₂ holds trivial) ?_ fun _ _ h => h
        exact fun _ w₃ h => wp_plain_empty (uses_tryOp id) h.1 h.2
      · cases failed with
        | true => exact absurd rfl no
        | false => exact wp_plain_empty (uses_tryOp id) sane₂ empty₂
    · rintro m w₂ ⟨sane₂, ⟨is, -⟩ | ⟨-, empty₂⟩⟩
      · cases is
      · exact ⟨sane₂, empty₂⟩

/-- The rows that a query returns were created. -/
theorem wp_selectOperation {id : Nat} (sane : w.Sane policy.dailyClaims) :
    (discipline policy.dailyClaims).wp (faucet policy) i (tryOp (.selectOperation id) rfl)
      (fun r w' => w'.Sane policy.dailyClaims ∧ SameHeld i w w' ∧
        ∀ o, r = .ok (some o) → (o.id, o.uid) ∈ w'.created) w := by
  refine wp_tryOp (fun _ => (w.selectOperation id, w)) sane (fun _ => rfl) (fun _ _ _ => sane)
    (fun _ j _ => .rfl j w) (fun _ w' _ _ sane' same => ⟨sane', same, fun o is => ?_⟩)
    (fun _ _ _ _ _ sane' same => ⟨sane', same, fun _ is => by cases is⟩)
    fun _ _ _ _ _ sane' same => ⟨sane', same, fun _ is => by cases is⟩
  exact same.created (sane.listed.listed o (Table.mem_of_find? (Except.ok.inj is)))

/-- The operation that a broadcast returns was created, too. -/
theorem wp_broadcastPersistedOperation {operation : AccountOperation}
    (sane : w.Sane policy.dailyClaims) (known : (operation.id, operation.uid) ∈ w.created) :
    (discipline policy.dailyClaims).wp (faucet policy) i (broadcastPersistedOperation operation)
      (fun r w' => SameHeld i w w' ∧ ∀ o, r = .ok o → (o.id, o.uid) ∈ w'.created) w := by
  refine Discipline.wp_seq _ _ (wp_plain (uses_sendOperation operation) sane) ?_
    fun m v h => ⟨h.2, fun o is => by cases is⟩
  rintro - w₁ ⟨sane₁, same₁⟩
  refine Discipline.wp_seq _ _ (wp_selectOperation sane₁) ?_
    fun m v h => ⟨same₁.trans h.2.1, fun o is => by cases is⟩
  rintro found w₂ ⟨-, same₂, created⟩
  refine ⟨same₁.trans same₂, fun o is => ?_⟩
  obtain rfl := Except.ok.inj is
  cases found with
  | none => exact same₂.created (same₁.created known)
  | some o => exact created o rfl

theorem wp_reconcileAccountOperation {operation : AccountOperation}
    (sane : w.Sane policy.dailyClaims) (empty : Empty i w)
    (known : (operation.id, operation.uid) ∈ w.created) :
    (discipline policy.dailyClaims).wp (faucet policy) i (reconcileAccountOperation operation)
      (fun _ w' => w'.Sane policy.dailyClaims ∧ Empty i w') w := by
  unfold reconcileAccountOperation
  split
  · exact ⟨sane, empty⟩
  split
  · have under : (discipline policy.dailyClaims).wp (faucet policy) i
        (withSignerLease (some operation.id) (broadcastPersistedOperation operation))
        (fun r w' => SameHeld i w w' ∧ ∀ o, r = .ok o → (o.id, o.uid) ∈ w'.created) w := by
      refine wp_withSignerLease sane (fun r v v' reached same => ?_) (fun m v same => ?_)
        fun v sane₁ same₁ => ?_
      · exact ⟨reached.1.trans same, fun o is => same.created (reached.2 o is)⟩
      · exact ⟨same, fun o is => by cases is⟩
      · refine Discipline.wp_mono _ _ (wp_broadcastPersistedOperation sane₁
          (same₁.created known)) ?_
        exact fun r v' h => ⟨same₁.trans h.1, h.2⟩
    refine Discipline.wp_attempt_seq _ _ (Discipline.wp_evolves _ _ sane under) ?_
    rintro result w₁ ⟨⟨same₁, created⟩, sane₁, -⟩
    cases result with
    | error m =>
      dsimp only
      split <;> exact ⟨sane₁, same₁.empty empty⟩
    | ok operation => exact wp_finishByReceipt sane₁ (same₁.empty empty) (created operation rfl)
  · exact wp_finishByReceipt sane empty known

theorem wp_reconcileAll {operations : List AccountOperation} (sane : w.Sane policy.dailyClaims)
    (empty : Empty i w) (known : ∀ o ∈ operations, (o.id, o.uid) ∈ w.created) :
    (discipline policy.dailyClaims).wp (faucet policy) i (reconcileAll operations)
      (fun _ w' => w'.Sane policy.dailyClaims ∧ Empty i w') w := by
  induction operations generalizing w with
  | nil => exact ⟨sane, empty⟩
  | cons operation operations ih =>
    have first := wp_reconcileAccountOperation sane empty (known operation List.mem_cons_self)
    refine Discipline.wp_attempt_seq _ _ (Discipline.wp_evolves _ _ sane first) ?_
    rintro - w₁ ⟨⟨sane₁, empty₁⟩, -, grown⟩
    exact ih sane₁ empty₁ fun o ho => grown (known o (List.mem_cons_of_mem _ ho))

theorem mem_listActive {limit : Nat} {o : AccountOperation} (h : o ∈ w.listActive limit) :
    o ∈ w.operations := by
  have sorted := List.mem_of_mem_take h
  rw [List.mem_insertionSort] at sorted
  exact (List.mem_filter.1 sorted).1

theorem wp_listActive {limit : Nat} (sane : w.Sane policy.dailyClaims) (empty : Empty i w) :
    (discipline policy.dailyClaims).wp (faucet policy) i (tryOp (.listActive limit) rfl)
      (fun r w' => (w'.Sane policy.dailyClaims ∧ Empty i w') ∧
        ∀ l, r = .ok l → ∀ o ∈ l, (o.id, o.uid) ∈ w'.created) w := by
  refine wp_tryOp (fun _ => (w.listActive limit, w)) sane (fun _ => rfl) (fun _ _ _ => sane)
    (fun _ j _ => .rfl j w)
    (fun _ w' _ _ sane' same => ⟨⟨sane', same.empty empty⟩, fun l is o ho => ?_⟩)
    (fun _ _ _ _ _ sane' same => ⟨⟨sane', same.empty empty⟩, fun _ is => by cases is⟩)
    fun _ _ _ _ _ sane' same => ⟨⟨sane', same.empty empty⟩, fun _ is => by cases is⟩
  rw [← Except.ok.inj is] at ho
  exact same.created (sane.listed.listed o (mem_listActive ho))

theorem wp_runAccountOperationReconciler {limit : Nat} (sane : w.Sane policy.dailyClaims)
    (empty : Empty i w) :
    (discipline policy.dailyClaims).wp (faucet policy) i (runAccountOperationReconciler limit)
      (fun _ w' => w'.Sane policy.dailyClaims ∧ Empty i w') w := by
  refine (Discipline.wp_tryCatch _ _ _ _ _ _).2 ?_
  refine Discipline.wp_mono (Q := fun _ w' => w'.Sane policy.dailyClaims ∧ Empty i w') _ _ ?_ ?_
  · refine Discipline.wp_seq _ _ (wp_listActive sane empty) ?_ fun _ _ h => h.1
    rintro operations w₁ ⟨⟨sane₁, empty₁⟩, created⟩
    refine Discipline.wp_seq _ _ (wp_reconcileAll sane₁ empty₁ (created operations rfl)) ?_
      fun _ _ h => h
    rintro - w₂ ⟨sane₂, empty₂⟩
    exact wp_plain_empty (uses_tryOp id) sane₂ empty₂
  · intro r w' h
    cases r <;> exact h

/-- A handler that starts without a token ends without one. -/
theorem wp_body (c : Call) (sane : w.Sane policy.dailyClaims) (empty : Empty i w) :
    (discipline policy.dailyClaims).wp (faucet policy) i (c.body policy)
      (fun _ w' => Empty i w') w := by
  cases c with
  | start uid =>
    refine Discipline.wp_seq _ _ (wp_startFaucetOperation sane empty) ?_ fun _ _ h => h
    exact fun _ _ h => h
  | reconcile id =>
    refine Discipline.wp_seq _ _ (wp_selectOperation sane) ?_ fun _ _ h => h.2.1.empty empty
    rintro found w₁ ⟨sane₁, same₁, created⟩
    cases found with
    | none => exact same₁.empty empty
    | some operation =>
      refine Discipline.wp_seq _ _ (wp_reconcileAccountOperation sane₁ (same₁.empty empty)
        (created operation rfl)) ?_ fun _ _ h => h.2
      exact fun _ _ h => h.2
  | runReconciler limit =>
    exact Discipline.wp_mono _ _ (wp_runAccountOperationReconciler sane empty) fun _ _ h => h.2

end Handlers

/-! ### Runs -/

theorem initial_sane (limit : Nat) (now : Timestamp) : (World.initial now).Sane limit where
  listed := ⟨fun r hr => absurd hr (Table.not_mem_empty r), fun c hc => by cases hc⟩
  token _ := rfl
  balance _ := rfl
  past _ _ := rfl
  counted := Nat.zero_le _
  within _ := Nat.zero_le _

theorem initial_empty (now : Timestamp) (i : Nat) : Empty i (World.initial now) :=
  ⟨fun m hm => (by cases hm), fun c hc => (by cases hc)⟩

/-- Nobody has two transfers. -/
theorem World.Sane.confirmed_le {limit : Nat} {w : World} (h : w.Sane limit) (u : Uid) :
    w.confirmed.countP (fun c => c.1 == u) ≤ 1 := by
  have tokens := h.token u
  unfold World.tokens at tokens
  cases is : w.fundedAt u with
  | none =>
    rw [is, Option.elim_none] at tokens
    omega
  | some since =>
    rw [is, Option.elim_some] at tokens
    omega

/-- Somebody has the mark of a user who is funded. -/
theorem World.Sane.mark_of_funded {limit : Nat} {w : World} (h : w.Sane limit) {u : Uid}
    (funded : w.fundedAt u ≠ none) :
    (∃ i, (i, u) ∈ w.marks) ∨ (∃ r ∈ w.operations, r.uid = u ∧ r.active = true) ∨
      ∃ v, (u, v) ∈ w.confirmed := by
  have tokens := h.token u
  obtain ⟨since, is⟩ := Option.ne_none_iff_exists'.1 funded
  rw [is, Option.elim_some] at tokens
  unfold World.tokens at tokens
  have some : 0 < w.marks.countP (fun m => m.2 == u) ∨
      0 < w.operations.rows.countP (fun r => r.active && r.uid == u) ∨
        0 < w.confirmed.countP fun c => c.1 == u := by omega
  rcases some with held | live | done
  · obtain ⟨⟨i, u'⟩, mem, same⟩ := List.countP_pos_iff.1 held
    obtain rfl : u' = u := beq_iff_eq.1 same
    exact .inl ⟨i, mem⟩
  · obtain ⟨r, mem, same⟩ := List.countP_pos_iff.1 live
    rw [Bool.and_eq_true, beq_iff_eq] at same
    exact .inr (.inl ⟨r, mem, same.2, same.1⟩)
  · obtain ⟨⟨u', v⟩, mem, same⟩ := List.countP_pos_iff.1 done
    obtain rfl : u' = u := beq_iff_eq.1 same
    exact .inr (.inr ⟨v, mem⟩)

theorem lives (policy : FaucetPolicy) :
    (discipline policy.dailyClaims).Lives (faucet policy) Empty Empty fun i _ w => Empty i w where
  env e w sane _ := by
    refine ⟨⟨apply_sane sane e, ?_⟩, fun j => ?_⟩ <;> cases e
    · exact List.Subset.refl _
    · exact List.Subset.refl _
    · exact .of_eq j rfl rfl rfl
    · exact .of_eq j rfl rfl rfl
  call c i w _ _ empty w' later := wp_body c later.inv (later.relied.empty empty)
  crash _ _ _ _ _ empty later := later.relied.empty empty
  fresh _ _ _ empty relied := relied.empty empty

variable {policy : FaucetPolicy} {p : Pool FaucetOp FaucetOp.Reply World Unit}

/-- A handler that has a token is under way. -/
theorem running_of_not_empty
    (h : (discipline policy.dailyClaims).Upright (faucet policy) Empty (fun i _ w => Empty i w) p)
    {i : Nat} (holds : ¬ Empty i p.world) : System.Running i p :=
  Discipline.running_of_not h holds fun _ => holds

/-- If the statements are in order, and no handler dies that has a mark or a claim, then the
faucet is accounted for after every history. -/
theorem accounted_in_order (policy : FaucetPolicy) (now : Timestamp)
    (es : List (Happening Answer Surroundings Call))
    (along : (faucet policy).mortal.Along (System.Bears orderly Empty) ⟨World.initial now, []⟩ es) :
    Accounted policy.dailyClaims ((faucet policy).mortal.run ⟨World.initial now, []⟩ es) := by
  have upright := Discipline.upright_run (lives policy) (Discipline.upright_empty
    (D := discipline policy.dailyClaims) (initial_sane _ now) (initial_empty now)) along
  have sane : World.Sane policy.dailyClaims _ := upright.inv
  refine ⟨sane.confirmed_le, fun u funded => ?_, fun c hc => ?_, sane.balance, sane.within⟩
  · rcases sane.mark_of_funded funded with ⟨i, held⟩ | other
    · exact .inl ⟨i, running_of_not_empty upright fun empty => empty.1 _ held rfl, held⟩
    · exact .inr other
  · exact running_of_not_empty upright fun empty => empty.2 c hc rfl

/-! ### Histories -/

abbrev Event := Happening Answer Surroundings Call

def after (es : List Event) : Pool FaucetOp FaucetOp.Reply World Unit :=
  (faucet ⟨true, 10⟩).mortal.run ⟨World.initial 0, []⟩ es

def steps (i : Nat) (xs : List Answer) : List Event := xs.map fun x => .label (.step i x)

def fine (n : Nat) : List Answer := List.replicate n { statement := .done }

/-- A start up to the broadcast of the operation `id` with the hash `txHash`. -/
def starting (i id uid txHash : Nat) : List Event :=
  .label (.spawn (.start uid)) ::
    steps i (fine 4 ++ [{ uuid := 100 + i }] ++ fine 4 ++ [{ transaction := .ok (0, txHash) },
      { uuid := id }] ++ fine 3 ++ [{ sent := .ok txHash }] ++ fine 2)

/-- The reconciler finds the transaction mined. -/
def reconciled (i : Nat) (reverted : Bool) : List Event :=
  .label (.spawn (.runReconciler 10)) ::
    steps i (fine 1 ++ [{ receipt := .ok reverted }] ++ fine (if reverted then 5 else 4))

/-- The transfer of one user is confirmed, that of another fails. -/
def regular : List Event :=
  starting 0 1 7 51 ++ steps 0 (fine 2) ++ reconciled 1 false ++
    starting 2 2 8 52 ++ steps 2 (fine 2) ++ reconciled 3 true

theorem accounted_regular : Accounted 10 (after regular) :=
  accounted_in_order ⟨true, 10⟩ 0 regular (by decide)

/-- The last query of a submission fails; the transfer is confirmed before the handler looks for
an active operation.  The user asks again. -/
def twice : List Event :=
  starting 0 1 7 51 ++ steps 0 ({ statement := .lost "timeout" } :: fine 1) ++
    reconciled 1 false ++ steps 0 (fine 3) ++
      starting 2 2 7 52 ++ steps 2 (fine 2) ++ reconciled 3 false

/-- A handler dies that has marked the user. -/
def died : List Event := .label (.spawn (.start 7)) :: steps 0 (fine 2) ++ [.crash 0]

/-- A transfer fails the day after. -/
def nextDay : List Event :=
  starting 0 1 7 51 ++ steps 0 (fine 2) ++ ([.label (.env (.wait 86400000))] : List Event) ++
    reconciled 1 true

set_option maxRecDepth 4000 in
/-- There are histories after which somebody has two transfers, or is funded for nothing, or a
claim is missing. -/
theorem not_accounted :
    ¬ Accounted 10 (after twice) ∧ ¬ Accounted 10 (after died) ∧
      ¬ Accounted 10 (after nextDay) := by
  refine ⟨fun h => ?_, fun h => ?_, fun h => ?_⟩
  · have two : ((after twice).world.confirmed.countP fun c => c.1 == 7) = 2 := by decide
    have once := h.once 7
    rw [two] at once
    exact absurd once (by decide)
  · have marks : (after died).world.marks = [(0, 7)] := by decide
    have none : (after died).world.operations.rows = [] ∧ (after died).world.confirmed = [] := by
      decide
    have ended : (after died).threads = [.throw "crashed"] := rfl
    rcases h.funded 7 (by decide) with ⟨i, ⟨o, k, runs⟩, mem⟩ | ⟨r, mem, -⟩ | ⟨v, mem⟩
    · rw [marks, List.mem_singleton] at mem
      cases mem
      rw [ended] at runs
      cases runs
    · rw [← Table.mem_rows, none.1] at mem
      cases mem
    · rw [none.2] at mem
      cases mem
  · have unbalanced : (after nextDay).world.granted 0 = 1 ∧ (after nextDay).world.refunded 0 = 0 ∧
        (after nextDay).world.claims = [] ∧ (after nextDay).world.notFailed 0 = 0 := by decide
    have balanced := h.balanced 0
    rw [unbalanced.1, unbalanced.2.1, unbalanced.2.2.1, unbalanced.2.2.2] at balanced
    cases balanced

end ParmeliaLinks.Faucet
