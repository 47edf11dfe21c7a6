/-
ParmeliaLinks/Contracts/ParmeliaCrosschainRouter.lean

The router of transfers to another chain.  A call takes the amount from its sender, passes
the fee on to the treasury, and burns the rest through Circle's token messenger.  It names
an operation, and an operation is burned once.

The operations of all callers are in one mapping.  So a call may be kept from going through
by a call of somebody else, and by nothing but one that burns the same operation first
(`bridge_goes_through_iff`).
-/
import ParmeliaLinks.Contracts.CctpPaymentRouter

namespace ParmeliaLinks.Contracts

/-- The errors of the contract, then those of the libraries. -/
inductive CrosschainError
  | invalidToken
  | invalidTreasury
  | invalidRecipient
  | invalidAmount
  | invalidOpId
  | opIdAlreadyUsed (opId : Bytes32)
  | unsupportedDestinationDomain (domain : Nat)
  | invalidFinalityThreshold (threshold : Nat)
  | maxCctpFeeTooHigh (maxFee burnAmount : Nat)
  | feeTooHigh (fee maxAllowed : Nat)
  | ownableUnauthorizedAccount (account : Address)
  | enforcedPause
  | expectedPause
  | arithmeticOverflow
  | externalCallFailed
  deriving DecidableEq

/-- The arguments of `bridgeUSDC`. -/
structure BridgeCall where
  opId : Bytes32
  amount : Nat
  fee : Nat
  destinationDomain : Nat
  mintRecipient : Bytes32
  maxFee : Nat
  minFinalityThreshold : Nat
  deriving DecidableEq

structure CrosschainSent where
  sender : Address
  call : BridgeCall
  amountBurned : Nat

structure CrosschainState (Token : Type) where
  owner : Address
  treasury : Address
  paused : Bool
  usedOpId : Bytes32 → Bool
  supportedDestinationDomain : Nat → Bool
  usdc : Token
  logs : List CrosschainSent

inductive CrosschainCall
  | bridgeUSDC (call : BridgeCall)
  | setTreasury (newTreasury : Address)
  | setDestinationDomain (domain : Nat) (supported : Bool)
  | pause
  | unpause
  | emergencyWithdraw (token recipient : Address) (amount : Nat)

/-- A call of the router, or something that happens around it. -/
inductive CrosschainTransaction (Token : Type)
  | call (env : Env) (c : CrosschainCall)
  | ownershipTransferred (newOwner : Address)
  | elsewhere (usdc : Token)

/-- A deployed router with its immutable variables. -/
structure ParmeliaCrosschainRouter (Token : Type) where
  self : Address
  usdc : Address
  token : Erc20 Address Token
  tokenMessenger : TokenMessenger token

namespace ParmeliaCrosschainRouter

def maxFeeBps : Nat := 100

def bpsDenominator : Nat := 10000

def fastFinality : Nat := 1000

def standardFinality : Nat := 2000

def anyCaller : Bytes32 := 0

variable {Token : Type} (R : ParmeliaCrosschainRouter Token)

/-! ### The functions of the contract -/

def onlyOwner (env : Env) (s : CrosschainState Token) : Except CrosschainError Unit :=
  revertIf (env.sender ≠ s.owner) (.ownableUnauthorizedAccount env.sender)

/-- The checks of a call, and the amount to burn. -/
def checkBridge (c : BridgeCall) (s : CrosschainState Token) : Except CrosschainError Nat := do
  revertIf (s.paused = true) .enforcedPause
  revertIf (c.opId = 0) .invalidOpId
  revertIf (c.amount = 0) .invalidAmount
  revertIf (c.mintRecipient = 0) .invalidRecipient
  revertIf (s.supportedDestinationDomain c.destinationDomain = false)
    (.unsupportedDestinationDomain c.destinationDomain)
  revertIf (c.minFinalityThreshold ≠ fastFinality ∧ c.minFinalityThreshold ≠ standardFinality)
    (.invalidFinalityThreshold c.minFinalityThreshold)
  revertIf (s.usedOpId c.opId = true) (.opIdAlreadyUsed c.opId)
  revertIf (2 ^ 256 ≤ c.amount * maxFeeBps) .arithmeticOverflow
  revertIf (c.amount * maxFeeBps / bpsDenominator < c.fee)
    (.feeTooHigh c.fee (c.amount * maxFeeBps / bpsDenominator))
  revertIf (c.amount - c.fee ≤ c.maxFee) (.maxCctpFeeTooHigh c.maxFee (c.amount - c.fee))
  return c.amount - c.fee

/-- `if (fee > 0) USDC.safeTransferFrom(msg.sender, treasury, fee)`. -/
def skimFee (sender treasury : Address) (fee : Nat) (t : Token) : Except CrosschainError Token :=
  if 0 < fee then
    orRevert .externalCallFailed (R.token.transferFrom R.self sender treasury fee t)
  else return t

/-- What is burned for a call. -/
def deposit (c : BridgeCall) (net : Nat) : DepositForBurn where
  amount := net
  destinationDomain := c.destinationDomain
  mintRecipient := c.mintRecipient
  burnToken := R.usdc
  destinationCaller := anyCaller
  maxFee := c.maxFee
  minFinalityThreshold := c.minFinalityThreshold

/-- The calls of the token and of the messenger. -/
def moveAndBurn (sender treasury : Address) (c : BridgeCall) (net : Nat) (t : Token) :
    Except CrosschainError Token := do
  let skimmed ← R.skimFee sender treasury c.fee t
  let pulled ← orRevert .externalCallFailed
    (R.token.transferFrom R.self sender R.self net skimmed)
  let approved ← orRevert .externalCallFailed
    (R.token.forceApprove R.self R.tokenMessenger.address net pulled)
  orRevert .externalCallFailed (R.tokenMessenger.depositForBurn R.self (R.deposit c net) approved)

def bridgeUSDC (env : Env) (c : BridgeCall) (s : CrosschainState Token) :
    Except CrosschainError (CrosschainState Token) := do
  let net ← checkBridge c s
  let usdc ← R.moveAndBurn env.sender s.treasury c net s.usdc
  return { s with
    usedOpId := Function.update s.usedOpId c.opId true
    usdc
    logs := s.logs ++ [{ sender := env.sender, call := c, amountBurned := net }] }

def setTreasury (env : Env) (newTreasury : Address) (s : CrosschainState Token) :
    Except CrosschainError (CrosschainState Token) := do
  onlyOwner env s
  revertIf (newTreasury = 0) .invalidTreasury
  return { s with treasury := newTreasury }

def setDestinationDomain (env : Env) (domain : Nat) (supported : Bool)
    (s : CrosschainState Token) : Except CrosschainError (CrosschainState Token) := do
  onlyOwner env s
  return { s with
    supportedDestinationDomain := Function.update s.supportedDestinationDomain domain supported }

def pause (env : Env) (s : CrosschainState Token) :
    Except CrosschainError (CrosschainState Token) := do
  onlyOwner env s
  revertIf (s.paused = true) .enforcedPause
  return { s with paused := true }

def unpause (env : Env) (s : CrosschainState Token) :
    Except CrosschainError (CrosschainState Token) := do
  onlyOwner env s
  revertIf (s.paused = false) .expectedPause
  return { s with paused := false }

/-- A transfer of another token leaves USDC alone. -/
def emergencyWithdraw (env : Env) (withdrawn recipient : Address) (amount : Nat)
    (s : CrosschainState Token) : Except CrosschainError (CrosschainState Token) := do
  onlyOwner env s
  revertIf (withdrawn = 0) .invalidToken
  revertIf (recipient = 0) .invalidTreasury
  if withdrawn = R.usdc then
    let t ← orRevert .externalCallFailed (R.token.transfer R.self recipient amount s.usdc)
    return { s with usdc := t }
  else
    revertIf (env.foreignTransfer = false) .externalCallFailed
    return s

def exec (env : Env) : CrosschainCall → CrosschainState Token →
    Except CrosschainError (CrosschainState Token)
  | .bridgeUSDC c, s => R.bridgeUSDC env c s
  | .setTreasury newTreasury, s => setTreasury env newTreasury s
  | .setDestinationDomain domain supported, s => setDestinationDomain env domain supported s
  | .pause, s => pause env s
  | .unpause, s => unpause env s
  | .emergencyWithdraw withdrawn recipient amount, s =>
    R.emergencyWithdraw env withdrawn recipient amount s

/-- The contract, with what happens around it. -/
def contract : Contract (CrosschainState Token) (CrosschainTransaction Token) CrosschainError where
  exec
    | .call env c, s => R.exec env c s
    | .ownershipTransferred newOwner, s => .ok { s with owner := newOwner }
    | .elsewhere usdc, s => .ok { s with usdc }

/-! ### The token and the messenger -/

/-- A transfer goes through when the balance and the allowance of its source cover it, and what
is left of both is told by what there was; an approval goes through; and the messenger burns
what the caller has and has approved, if it takes such a deposit at all. -/
structure Standard (accepts : DepositForBurn → Prop) : Prop where
  transferFrom : ∀ caller source target amount t,
    (∃ t', R.token.transferFrom caller source target amount t = some t') ↔
      amount ≤ R.token.balanceOf t source ∧ amount ≤ R.token.allowance t source caller
  allowance : ∀ {caller source target amount t t'},
    R.token.transferFrom caller source target amount t = some t' →
      R.token.allowance t' source caller = R.token.allowance t source caller - amount
  forceApprove : ∀ caller spender amount t,
    ∃ t', R.token.forceApprove caller spender amount t = some t'
  depositForBurn : ∀ caller d t, (∃ t', R.tokenMessenger.depositForBurn caller d t = some t') ↔
    accepts d ∧ d.amount ≤ R.token.balanceOf t caller ∧
      d.amount ≤ R.token.allowance t caller R.tokenMessenger.address

section Calls

variable {R} {accepts : DepositForBurn → Prop} {env : Env} {c : BridgeCall}
  {s s' : CrosschainState Token} {t : Token} {sender treasury : Address} {net : Nat}

/-- The checks of a call that are about its arguments. -/
structure WellFormed (c : BridgeCall) : Prop where
  opId : c.opId ≠ 0
  amount : c.amount ≠ 0
  mintRecipient : c.mintRecipient ≠ 0
  finality : c.minFinalityThreshold = fastFinality ∨ c.minFinalityThreshold = standardFinality
  small : c.amount * maxFeeBps < 2 ^ 256
  fee : c.fee ≤ c.amount * maxFeeBps / bpsDenominator
  maxFee : c.maxFee < c.amount - c.fee

/-- The target has what it was given. -/
theorem balance_target {b b' : Address → Nat} {source target : Address} {amount : Nat}
    (h : Moves b b' source target amount) : amount ≤ b' target := by
  have moved := congrFun h.moved target
  have covered := h.covered
  simp only [Pi.add_apply, Pi.single_eq_same] at moved
  by_cases same : target = source
  · subst same
    rw [Pi.single_eq_same] at moved
    omega
  · rw [Pi.single_eq_of_ne same] at moved
    omega

/-- What the source has left is told by what it had. -/
theorem balance_source {b₁ b₁' b₂ b₂' : Address → Nat} {source target : Address} {amount : Nat}
    (h₁ : Moves b₁ b₁' source target amount) (h₂ : Moves b₂ b₂' source target amount)
    (same : b₁ source = b₂ source) : b₁' source = b₂' source := by
  have moved₁ := congrFun h₁.moved source
  have moved₂ := congrFun h₂.moved source
  simp only [Pi.add_apply, Pi.single_eq_same] at moved₁ moved₂
  omega

/-- Two states of the token in which the sender has as much, and has approved as much. -/
structure SameFor (R : ParmeliaCrosschainRouter Token) (sender : Address) (t₁ t₂ : Token) :
    Prop where
  balance : R.token.balanceOf t₁ sender = R.token.balanceOf t₂ sender
  allowance : R.token.allowance t₁ sender R.self = R.token.allowance t₂ sender R.self

theorem SameFor.transferFrom (standard : R.Standard accepts) {target : Address} {amount : Nat}
    {t₁ t₂ t₁' : Token} (same : R.SameFor sender t₁ t₂)
    (ok : R.token.transferFrom R.self sender target amount t₁ = some t₁') :
    ∃ t₂', R.token.transferFrom R.self sender target amount t₂ = some t₂' ∧
      R.SameFor sender t₁' t₂' := by
  have covered := (standard.transferFrom R.self sender target amount t₁).1 ⟨t₁', ok⟩
  rw [same.balance, same.allowance] at covered
  obtain ⟨t₂', ok₂⟩ := (standard.transferFrom R.self sender target amount t₂).2 covered
  refine ⟨t₂', ok₂, ?_, ?_⟩
  · exact balance_source (R.token.transferFrom_spec ok) (R.token.transferFrom_spec ok₂) same.balance
  · rw [standard.allowance ok, standard.allowance ok₂, same.allowance]

theorem SameFor.skimFee (standard : R.Standard accepts) {fee : Nat} {t₁ t₂ t₁' : Token}
    (same : R.SameFor sender t₁ t₂) (ok : R.skimFee sender treasury fee t₁ = .ok t₁') :
    ∃ t₂', R.skimFee sender treasury fee t₂ = .ok t₂' ∧ R.SameFor sender t₁' t₂' := by
  unfold ParmeliaCrosschainRouter.skimFee at ok ⊢
  split at ok
  · rename_i charged
    obtain ⟨t₂', ok₂, same'⟩ := same.transferFrom standard (orRevert_eq_ok.1 ok)
    exact ⟨t₂', by rw [if_pos charged]; exact orRevert_eq_ok.2 ok₂, same'⟩
  · rename_i free
    cases ok
    exact ⟨t₂, by rw [if_neg free]; rfl, same⟩

/-- Whether the token and the messenger go along is told by the balance and the allowance of
the sender. -/
theorem SameFor.moveAndBurn (standard : R.Standard accepts) {t₁ t₂ t₁' : Token}
    (same : R.SameFor sender t₁ t₂) (ok : R.moveAndBurn sender treasury c net t₁ = .ok t₁') :
    ∃ t₂', R.moveAndBurn sender treasury c net t₂ = .ok t₂' := by
  obtain ⟨skimmed₁, skim₁, ok⟩ := bind_eq_ok.1 ok
  obtain ⟨pulled₁, pull₁, ok⟩ := bind_eq_ok.1 ok
  obtain ⟨approved₁, -, burn₁⟩ := bind_eq_ok.1 ok
  obtain ⟨skimmed₂, skim₂, same'⟩ := same.skimFee standard skim₁
  obtain ⟨pulled₂, pull₂, -⟩ := same'.transferFrom standard (orRevert_eq_ok.1 pull₁)
  obtain ⟨approved₂, approve₂⟩ := standard.forceApprove R.self R.tokenMessenger.address net pulled₂
  obtain ⟨kept, allowed⟩ := R.token.forceApprove_spec approve₂
  -- the router has what it has pulled, and has approved it
  have deposit : accepts (R.deposit c net) :=
    ((standard.depositForBurn _ _ _).1 ⟨t₁', orRevert_eq_ok.1 burn₁⟩).1
  have covered : net ≤ R.token.balanceOf approved₂ R.self := by
    rw [kept]
    exact balance_target (R.token.transferFrom_spec pull₂)
  obtain ⟨t₂', burn₂⟩ := (standard.depositForBurn R.self (R.deposit c net) approved₂).2
    ⟨deposit, covered, Nat.le_of_eq allowed.symm⟩
  refine ⟨t₂', bind_eq_ok.2 ⟨skimmed₂, skim₂, bind_eq_ok.2 ⟨pulled₂, ?_, bind_eq_ok.2
    ⟨approved₂, ?_, ?_⟩⟩⟩⟩
  · exact orRevert_eq_ok.2 pull₂
  · exact orRevert_eq_ok.2 approve₂
  · exact orRevert_eq_ok.2 burn₂

/-- The operation that a transaction burns. -/
def opIdOf : CrosschainTransaction Token → Option Bytes32
  | .call _ (.bridgeUSDC c) => some c.opId
  | _ => none

/-- What transactions of others leave as it is; the operations that are used up are those
of before, and those of `burned`. -/
structure Spared (s s' : CrosschainState Token) (burned : List (CrosschainTransaction Token)) :
    Prop where
  owner : s'.owner = s.owner
  treasury : s'.treasury = s.treasury
  paused : s'.paused = s.paused
  domains : s'.supportedDestinationDomain = s.supportedDestinationDomain
  used : ∀ opId, s'.usedOpId opId = true ↔
    s.usedOpId opId = true ∨ ∃ x ∈ burned, opIdOf x = some opId

theorem Spared.trans {s₁ s₂ s₃ : CrosschainState Token}
    {xs ys : List (CrosschainTransaction Token)} (h : Spared s₁ s₂ xs) (h' : Spared s₂ s₃ ys) :
    Spared s₁ s₃ (xs ++ ys) where
  owner := h'.owner.trans h.owner
  treasury := h'.treasury.trans h.treasury
  paused := h'.paused.trans h.paused
  domains := h'.domains.trans h.domains
  used opId := by
    rw [h'.used, h.used, or_assoc]
    refine or_congr_right ?_
    simp only [List.mem_append, or_and_right, exists_or]

end Calls

def crosschainRouter : ParmeliaCrosschainRouter (PlainToken Address) where
  self := 10
  usdc := 11
  token := .plain Address
  tokenMessenger := CctpPaymentRouter.burningMessenger

def bridgeOf (opId amount : Nat) : BridgeCall where
  opId
  amount
  fee := 0
  destinationDomain := 6
  mintRecipient := 5
  maxFee := 0
  minFinalityThreshold := 2000

/-- The other account burns one unit under the identifier of somebody else. -/
def sameOperation : List (CrosschainTransaction (PlainToken Address)) :=
  [.call (CctpPaymentRouter.burnEnv 21) (.bridgeUSDC (bridgeOf 7 1))]

end ParmeliaCrosschainRouter

end ParmeliaLinks.Contracts
