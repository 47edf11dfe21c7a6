/-
ParmeliaLinks/Lib/Erc20.lean

A standard token, as another contract sees it.  `Moves` says what a transfer
does to the balances: what one account loses another one gains.  It is stated
for all accounts at once, so that it holds whether or not the accounts are
different, and so that two transfers compose (`Moves.and_then`).

`Erc20` collects what is known of the operations of a token when they succeed.
Nothing is said about when they do: a token may refuse a transfer for reasons of
its own.  `Erc20.plain` is a token.
-/
import Mathlib.Algebra.Group.Pi.Lemmas
import Mathlib.Algebra.Group.Nat.Defs
import Mathlib.Tactic.Abel

namespace ParmeliaLinks

variable {Account : Type} [DecidableEq Account]

/-! ### Balances -/

/-- `source` has the amount, loses it, and `target` gains it. -/
structure Moves (b b' : Account → Nat) (source target : Account) (amount : Nat) : Prop where
  covered : amount ≤ b source
  moved : b' + Pi.single source amount = b + Pi.single target amount

/-- Move an amount that the source has. -/
def moveBalance (b : Account → Nat) (source target : Account) (amount : Nat) : Account → Nat :=
  b - Pi.single source amount + Pi.single target amount

theorem moves_moveBalance {b : Account → Nat} {source target : Account} {amount : Nat}
    (h : amount ≤ b source) : Moves b (moveBalance b source target amount) source target amount := by
  refine ⟨h, ?_⟩
  funext x
  have covered : (Pi.single source amount : Account → Nat) x ≤ b x := by
    by_cases hx : x = source
    · subst hx
      simpa using h
    · simp [Pi.single_eq_of_ne hx]
  simp only [moveBalance, Pi.add_apply, Pi.sub_apply]
  omega

variable {b b₁ b₂ : Account → Nat} {source target target' : Account} {amount amount' : Nat}

/-- Two transfers from one account. -/
theorem Moves.and_then (h : Moves b b₁ source target amount)
    (h' : Moves b₁ b₂ source target' amount') :
    b₂ + Pi.single source (amount + amount') =
      b + Pi.single target amount + Pi.single target' amount' := by
  calc b₂ + Pi.single source (amount + amount')
      = (b₂ + Pi.single source amount') + Pi.single source amount := by
        rw [Pi.single_add]; abel
    _ = (b₁ + Pi.single source amount) + Pi.single target' amount' := by
        rw [h'.moved]; abel
    _ = b + Pi.single target amount + Pi.single target' amount' := by rw [h.moved]

/-- An account that is neither the source nor the target keeps its balance. -/
theorem Moves.frame (h : Moves b b₁ source target amount) {x : Account} (hs : x ≠ source)
    (ht : x ≠ target) : b₁ x = b x := by
  have moved := congrFun h.moved x
  simpa [Pi.single_eq_of_ne hs, Pi.single_eq_of_ne ht] using moved

/-- The source does not gain. -/
theorem Moves.source_le (h : Moves b b₁ source target amount) : b₁ source ≤ b source := by
  have moved := congrFun h.moved source
  by_cases same : source = target
  · subst same
    simp only [Pi.add_apply, Pi.single_eq_same] at moved
    omega
  · simp only [Pi.add_apply, Pi.single_eq_same, Pi.single_eq_of_ne same] at moved
    omega

/-! ### Tokens -/

/-- The arguments of a permit apart from its owner, spender and value. -/
structure PermitArgs where
  deadline : Nat
  v : Nat
  r : Nat
  s : Nat

/-- The operations of a token, and what is known of them when they succeed. -/
structure Erc20 (Account Token : Type) [DecidableEq Account] where
  balanceOf : Token → Account → Nat
  allowance : Token → Account → Account → Nat
  transfer (caller target : Account) (amount : Nat) (t : Token) : Option Token
  transferFrom (caller source target : Account) (amount : Nat) (t : Token) : Option Token
  forceApprove (caller spender : Account) (amount : Nat) (t : Token) : Option Token
  permit (owner spender : Account) (amount : Nat) (args : PermitArgs) (t : Token) : Option Token
  transfer_spec : ∀ {caller target : Account} {amount : Nat} {t t' : Token},
    transfer caller target amount t = some t' →
      Moves (balanceOf t) (balanceOf t') caller target amount ∧ allowance t' = allowance t
  transferFrom_spec : ∀ {caller source target : Account} {amount : Nat} {t t' : Token},
    transferFrom caller source target amount t = some t' →
      Moves (balanceOf t) (balanceOf t') source target amount
  forceApprove_spec : ∀ {caller spender : Account} {amount : Nat} {t t' : Token},
    forceApprove caller spender amount t = some t' →
      balanceOf t' = balanceOf t ∧ allowance t' caller spender = amount
  permit_spec : ∀ {owner spender : Account} {amount : Nat} {args : PermitArgs} {t t' : Token},
    permit owner spender amount args t = some t' → balanceOf t' = balanceOf t

/-- `try token.permit(…) {} catch {}`. -/
def Erc20.tryPermit {Token : Type} (token : Erc20 Account Token) (owner spender : Account)
    (amount : Nat) (args : PermitArgs) (t : Token) : Token :=
  (token.permit owner spender amount args t).getD t

@[simp] theorem Erc20.balanceOf_tryPermit {Token : Type} (token : Erc20 Account Token)
    (owner spender : Account) (amount : Nat) (args : PermitArgs) (t : Token) :
    token.balanceOf (token.tryPermit owner spender amount args t) = token.balanceOf t := by
  unfold Erc20.tryPermit
  cases h : token.permit owner spender amount args t with
  | none => rfl
  | some t' => exact token.permit_spec h

/-- The state of a token that does nothing else. -/
structure PlainToken (Account : Type) where
  balances : Account → Nat
  allowances : Account → Account → Nat

namespace PlainToken

def transfer (caller target : Account) (amount : Nat) (t : PlainToken Account) :
    Option (PlainToken Account) :=
  if amount ≤ t.balances caller then
    some { t with balances := moveBalance t.balances caller target amount }
  else none

/-- A transfer out of an allowance, which it uses up. -/
def transferFrom (caller source target : Account) (amount : Nat) (t : PlainToken Account) :
    Option (PlainToken Account) :=
  if amount ≤ t.balances source ∧ amount ≤ t.allowances source caller then
    some
      { balances := moveBalance t.balances source target amount
        allowances := Function.update t.allowances source
          (Function.update (t.allowances source) caller (t.allowances source caller - amount)) }
  else none

def forceApprove (caller spender : Account) (amount : Nat) (t : PlainToken Account) :
    PlainToken Account :=
  { t with
    allowances := Function.update t.allowances caller
      (Function.update (t.allowances caller) spender amount) }

end PlainToken

/-- A token without permits. -/
def Erc20.plain (Account : Type) [DecidableEq Account] : Erc20 Account (PlainToken Account) where
  balanceOf := PlainToken.balances
  allowance := PlainToken.allowances
  transfer := PlainToken.transfer
  transferFrom := PlainToken.transferFrom
  forceApprove caller spender amount t := some (t.forceApprove caller spender amount)
  permit _ _ _ _ _ := none
  transfer_spec := by
    intro caller target amount t t' h
    simp only [PlainToken.transfer] at h
    split at h
    · rename_i covered
      cases h
      exact ⟨moves_moveBalance covered, rfl⟩
    · cases h
  transferFrom_spec := by
    intro caller source target amount t t' h
    simp only [PlainToken.transferFrom] at h
    split at h
    · rename_i covered
      cases h
      exact moves_moveBalance covered.1
    · cases h
  forceApprove_spec := by
    intro caller spender amount t t' h
    cases h
    exact ⟨rfl, by simp [PlainToken.forceApprove]⟩
  permit_spec := by
    intro owner spender amount args t t' h
    cases h

end ParmeliaLinks
