/-
ParmeliaLinks/Lib/Contract.lean

Smart contracts.  A call of a contract either answers a new state or reverts,
and a transaction that reverts leaves the state as it was (`transact`).  Every
transaction is atomic, so a history is a list of calls (`run`).

The body of a function is a sequence of checks and of calls of other contracts:
`revertIf` is `if (…) revert …`, and `orRevert` passes on the failure of another
contract.  Their rules take a body that went through apart, step by step.

`SigningScheme` is what a contract relies on when it recovers the signer of
typed data: the recovered account has signed these data, for this domain.
-/
import Mathlib.Data.List.Basic

namespace ParmeliaLinks

/-! ### Bodies of functions -/

section Body

variable {Error α β : Type}

/-- `if (c) revert e`. -/
def revertIf (c : Prop) [Decidable c] (e : Error) : Except Error Unit :=
  if c then .error e else .ok ()

/-- What another contract answered, or the error of a call that failed. -/
def orRevert (e : Error) : Option α → Except Error α
  | some a => .ok a
  | none => .error e

theorem bind_eq_ok {x : Except Error α} {f : α → Except Error β} {b : β} :
    x >>= f = .ok b ↔ ∃ a, x = .ok a ∧ f a = .ok b := by
  cases x with
  | error e =>
    constructor
    · intro h
      cases h
    · rintro ⟨a, h, -⟩
      cases h
  | ok a =>
    constructor
    · intro h
      exact ⟨a, rfl, h⟩
    · rintro ⟨a', h, hf⟩
      cases h
      exact hf

@[simp] theorem revertIf_eq_ok {c : Prop} [Decidable c] {e : Error} {u : Unit} :
    revertIf c e = .ok u ↔ ¬ c := by
  unfold revertIf
  split <;> simp [*]

@[simp] theorem orRevert_eq_ok {e : Error} {o : Option α} {a : α} :
    orRevert e o = .ok a ↔ o = some a := by
  cases o <;> simp [orRevert]

/-- A check in front of the rest of a body. -/
theorem revertIf_bind_eq_ok {c : Prop} [Decidable c] {e : Error} {f : Unit → Except Error β}
    {b : β} : revertIf c e >>= f = .ok b ↔ ¬ c ∧ f () = .ok b := by
  rw [bind_eq_ok]
  constructor
  · rintro ⟨u, h, hf⟩
    exact ⟨revertIf_eq_ok.1 h, hf⟩
  · rintro ⟨h, hf⟩
    exact ⟨(), revertIf_eq_ok.2 h, hf⟩

/-- A check that the body passes. -/
theorem revertIf_bind_of_not {c : Prop} [Decidable c] {e : Error} {f : Unit → Except Error β}
    (h : ¬ c) : revertIf c e >>= f = f () := by
  rw [revertIf, if_neg h]
  rfl

/-- A check that stops the body. -/
theorem revertIf_bind_of {c : Prop} [Decidable c] {e : Error} {f : Unit → Except Error β}
    (h : c) : revertIf c e >>= f = .error e := by
  rw [revertIf, if_pos h]
  rfl

/-- What every step of a loop keeps, in relation to the elements it has gone through, holds
after the loop. -/
theorem foldlM_ok_invariant {f : β → α → Except Error β} {I : List α → β → Prop}
    (step : ∀ done a b b', I done b → f b a = .ok b' → I (done ++ [a]) b') {as : List α}
    {b b' : β} (start : I [] b) (h : as.foldlM f b = .ok b') : I as b' := by
  have go : ∀ (as done : List α) (b : β), I done b → as.foldlM f b = .ok b' → I (done ++ as) b' := by
    intro as
    induction as with
    | nil =>
      intro done b start h
      rw [List.append_nil]
      cases h
      exact start
    | cons a as ih =>
      intro done b start h
      rw [List.foldlM_cons] at h
      obtain ⟨b₁, first, h⟩ := bind_eq_ok.1 h
      have rest := ih (done ++ [a]) b₁ (step done a b b₁ start first) h
      rwa [List.append_assoc] at rest
  exact go as [] b start h

/-- A loop fails where one of its steps does. -/
theorem of_foldlM_error {f : β → α → Except Error β} {as : List α} {b : β} {e : Error}
    (h : as.foldlM f b = .error e) : ∃ a ∈ as, ∃ b', f b' a = .error e := by
  induction as generalizing b with
  | nil => cases h
  | cons a as ih =>
    rw [List.foldlM_cons] at h
    cases first : f b a with
    | error e' =>
      rw [first] at h
      cases h
      exact ⟨a, List.mem_cons_self, b, first⟩
    | ok b₁ =>
      rw [first] at h
      obtain ⟨a', mem, found⟩ := ih h
      exact ⟨a', List.mem_cons_of_mem a mem, found⟩

/-- A sequence fails in its first part or in the rest. -/
theorem bind_eq_error {x : Except Error α} {f : α → Except Error β} {e : Error} :
    x >>= f = .error e ↔ x = .error e ∨ ∃ a, x = .ok a ∧ f a = .error e := by
  cases x with
  | error e' =>
    constructor
    · intro h
      cases h
      exact .inl rfl
    · rintro (h | ⟨a, h, -⟩)
      · cases h
        rfl
      · cases h
  | ok a =>
    constructor
    · intro h
      exact .inr ⟨a, rfl, h⟩
    · rintro (h | ⟨a', h, hf⟩)
      · cases h
      · cases h
        exact hf

theorem revertIf_eq_error {c : Prop} [Decidable c] {e e' : Error} :
    revertIf c e = .error e' ↔ c ∧ e = e' := by
  unfold revertIf
  split <;> simp [*]

theorem orRevert_eq_error {e e' : Error} {o : Option α} :
    orRevert e o = .error e' ↔ o = none ∧ e = e' := by
  cases o <;> simp [orRevert]

end Body

/-! ### Transactions -/

/-- What a call does: a new state, or an error. -/
structure Contract (State Call Error : Type) where
  exec : Call → State → Except Error State

namespace Contract

variable {State Call Error : Type} (C : Contract State Call Error)

/-- One transaction; an error reverts it. -/
def transact (c : Call) (s : State) : State :=
  match C.exec c s with
  | .ok s' => s'
  | .error _ => s

/-- A history of transactions. -/
def run (s : State) : List Call → State
  | [] => s
  | c :: cs => run (C.transact c s) cs

variable {C} {s s' : State} {c : Call} {cs : List Call}

theorem transact_of_ok (h : C.exec c s = .ok s') : C.transact c s = s' := by
  unfold transact
  rw [h]

theorem transact_of_error {e : Error} (h : C.exec c s = .error e) : C.transact c s = s := by
  unfold transact
  rw [h]

theorem run_append (s : State) (cs ds : List Call) :
    C.run s (cs ++ ds) = C.run (C.run s cs) ds := by
  induction cs generalizing s with
  | nil => rfl
  | cons c cs ih => exact ih (C.transact c s)

/-- What every successful call keeps holds after every history. -/
theorem run_invariant {I : State → Prop}
    (step : ∀ c s s', I s → C.exec c s = .ok s' → I s') (h : I s) : I (C.run s cs) := by
  induction cs generalizing s with
  | nil => exact h
  | cons c cs ih =>
    apply ih
    cases hc : C.exec c s with
    | ok s' =>
      rw [transact_of_ok hc]
      exact step c s s' h hc
    | error e =>
      rw [transact_of_error hc]
      exact h

/-! ### Conditions on the calls of a history -/

variable (C) in
/-- Every call of a history meets a condition, in the state in which it is made. -/
def Along (P : Call → State → Prop) : State → List Call → Prop
  | _, [] => True
  | s, c :: cs => P c s ∧ Along P (C.transact c s) cs

/-- What every successful call keeps under a condition holds after every history whose calls
meet it. -/
theorem run_invariant_along {P : Call → State → Prop} {I : State → Prop}
    (step : ∀ c s s', P c s → I s → C.exec c s = .ok s' → I s') (along : C.Along P s cs)
    (h : I s) : I (C.run s cs) := by
  induction cs generalizing s with
  | nil => exact h
  | cons c cs ih =>
    apply ih along.2
    cases hc : C.exec c s with
    | ok s' =>
      rw [transact_of_ok hc]
      exact step c s s' along.1 h hc
    | error e =>
      rw [transact_of_error hc]
      exact h

/-! ### Accepted calls -/

variable (C) in
/-- The calls of a history that went through, in order. -/
def accepted (s : State) : List Call → List Call
  | [] => []
  | c :: cs =>
    match C.exec c s with
    | .ok s' => c :: accepted s' cs
    | .error _ => accepted s cs

/-- What every successful call keeps, in relation to the calls that went through, holds
after every history. -/
theorem accepted_invariant {I : List Call → State → Prop}
    (step : ∀ done c s s', I done s → C.exec c s = .ok s' → I (done ++ [c]) s') (h : I [] s) :
    I (C.accepted s cs) (C.run s cs) := by
  have go : ∀ (cs done : List Call) (s : State), I done s →
      I (done ++ C.accepted s cs) (C.run s cs) := by
    intro cs
    induction cs with
    | nil =>
      intro done s h
      rw [accepted, List.append_nil]
      exact h
    | cons c cs ih =>
      intro done s h
      rw [accepted, run]
      cases hc : C.exec c s with
      | ok s' =>
        rw [transact_of_ok hc]
        have rest := ih (done ++ [c]) s' (step done c s s' h hc)
        rwa [List.append_assoc] at rest
      | error e =>
        rw [transact_of_error hc]
        exact ih done s h
  exact go cs [] s h

end Contract

/-! ### Signatures over typed data -/

/-- Recovering the signer of typed data: a signature from which an account is
recovered was made by that account, for this domain and these data. -/
structure SigningScheme (Account Domain Data Signature : Type) where
  Digest : Type
  hashTypedData : Domain → Data → Digest
  tryRecover : Digest → Signature → Option Account
  Signed : Account → Domain → Data → Prop
  genuine : ∀ {domain : Domain} {data : Data} {signature : Signature} {account : Account},
    tryRecover (hashTypedData domain data) signature = some account → Signed account domain data

/-- A scheme in which a signature is the place of an entry in a register of all that was
signed. -/
def SigningScheme.register {Account Domain Data : Type} [DecidableEq Domain] [DecidableEq Data]
    (signed : List (Account × Domain × Data)) : SigningScheme Account Domain Data Nat where
  Digest := Domain × Data
  hashTypedData domain data := (domain, data)
  tryRecover digest place :=
    match signed[place]? with
    | some entry => if entry.2 = digest then some entry.1 else none
    | none => none
  Signed account domain data := (account, domain, data) ∈ signed
  genuine := by
    intro domain data place account h
    split at h
    · rename_i entry found
      split at h
      · rename_i same
        cases h
        rw [← same]
        exact List.mem_of_getElem? found
      · cases h
    · cases h

end ParmeliaLinks
