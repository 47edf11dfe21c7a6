/-
ParmeliaLinks/Contracts/Router.lean

What the two payment routers share: the roles, the pause, the identifiers that
are used up, USDC, and the administration.  The functions of the administration
are the same in both contracts, word for word but for the prefix of the errors.

Two things around a router are not written out.  `Ownable2Step` hands the owner
on, and nothing else: `ownershipTransferred` puts any owner in the place of any
other.  And everybody uses USDC in between: `elsewhere` leaves it in any state.
-/
import Mathlib.Logic.Function.Basic
import ParmeliaLinks.Lib.Contract
import ParmeliaLinks.Lib.Erc20

namespace ParmeliaLinks.Contracts

abbrev Address := Nat
abbrev Bytes32 := Nat

/-- The errors of both routers, without the name of the contract in front, then those
of the libraries. -/
inductive RouterError
  | invalidToken
  | invalidMessenger
  | invalidTreasury
  | invalidAuthorizationSigner
  | invalidPauseGuardian
  | invalidSettlementChain
  | invalidPlatformFeeCap (feeBps : Nat)
  | invalidIntentId
  | invalidAttemptId
  | invalidPayer
  | invalidMerchant
  | invalidAmount
  | invalidAuthorizationWindow
  | authorizationNotActive (validAfter : Nat)
  | authorizationExpired (validUntil : Nat)
  | unauthorizedPayer (caller payer : Address)
  | invalidDestination (chainId domain : Nat)
  | invalidFinalityThreshold (threshold : Nat)
  | fastTransferUnavailable
  | platformFeeTooHigh (fee maximum : Nat)
  | cctpFeeTooHigh (maxFee burnAmount : Nat)
  | settlementAmountNotGuaranteed (minimum guaranteed : Nat)
  | attemptAlreadyUsed (attemptId : Bytes32)
  | intentAlreadyPaid (intentId : Bytes32)
  | invalidAuthorization
  | unauthorizedPause (caller : Address)
  | invalidRescueRecipient
  | ownableInvalidOwner
  | ownableUnauthorizedAccount (account : Address)
  | enforcedPause
  | expectedPause
  | arithmeticOverflow
  | externalCallFailed
  deriving DecidableEq

/-- What a transaction finds: `msg.sender`, `block.timestamp`, `block.chainid`, which
addresses have code, and whether a transfer of another token than USDC goes through. -/
structure Env where
  sender : Address
  timestamp : Nat
  chainid : Nat
  hasCode : Address → Bool
  foreignTransfer : Bool

structure Eip712Domain where
  name : String
  version : String
  chainId : Nat
  verifyingContract : Address
  deriving DecidableEq

/-- The storage of a router, with its token, and its log of payments. -/
structure RouterState (Token Event : Type) where
  owner : Address
  treasury : Address
  authorizationSigner : Address
  pauseGuardian : Address
  paused : Bool
  usedAttempt : Bytes32 → Bool
  paidIntent : Bytes32 → Bool
  usdc : Token
  logs : List Event

inductive AdminCall
  | setTreasury (newTreasury : Address)
  | setAuthorizationSigner (newSigner : Address)
  | setPauseGuardian (newGuardian : Address)
  | pause
  | unpause
  | rescueToken (token recipient : Address) (amount : Nat)

inductive RouterCall (Authorization Signature : Type)
  | pay (authorization : Authorization) (signature : Signature)
  | payWithPermit (authorization : Authorization) (signature : Signature) (permit : PermitArgs)
  | admin (c : AdminCall)

/-- A call of the router, or something that happens around it. -/
inductive Transaction (Authorization Signature Token : Type)
  | call (env : Env) (c : RouterCall Authorization Signature)
  | ownershipTransferred (newOwner : Address)
  | elsewhere (usdc : Token)

/-- The authorization of a call that pays. -/
def RouterCall.payment {Authorization Signature : Type} :
    RouterCall Authorization Signature → Option (Authorization × Signature)
  | .pay authorization signature => some (authorization, signature)
  | .payWithPermit authorization signature _ => some (authorization, signature)
  | .admin _ => none

variable {Token Event : Type}

/-! ### Administration -/

section Admin

variable (token : Erc20 Address Token) (router usdc : Address)

def onlyOwner (env : Env) (s : RouterState Token Event) : Except RouterError Unit :=
  revertIf (env.sender ≠ s.owner) (.ownableUnauthorizedAccount env.sender)

def whenNotPaused (s : RouterState Token Event) : Except RouterError Unit :=
  revertIf (s.paused = true) .enforcedPause

def setTreasury (env : Env) (newTreasury : Address) (s : RouterState Token Event) :
    Except RouterError (RouterState Token Event) := do
  onlyOwner env s
  revertIf (newTreasury = 0) .invalidTreasury
  return { s with treasury := newTreasury }

def setAuthorizationSigner (env : Env) (newSigner : Address) (s : RouterState Token Event) :
    Except RouterError (RouterState Token Event) := do
  onlyOwner env s
  revertIf (newSigner = 0) .invalidAuthorizationSigner
  return { s with authorizationSigner := newSigner }

def setPauseGuardian (env : Env) (newGuardian : Address) (s : RouterState Token Event) :
    Except RouterError (RouterState Token Event) := do
  onlyOwner env s
  revertIf (newGuardian = 0) .invalidPauseGuardian
  return { s with pauseGuardian := newGuardian }

def pause (env : Env) (s : RouterState Token Event) :
    Except RouterError (RouterState Token Event) := do
  revertIf (env.sender ≠ s.owner ∧ env.sender ≠ s.pauseGuardian) (.unauthorizedPause env.sender)
  whenNotPaused s
  return { s with paused := true }

def unpause (env : Env) (s : RouterState Token Event) :
    Except RouterError (RouterState Token Event) := do
  onlyOwner env s
  revertIf (s.paused = false) .expectedPause
  return { s with paused := false }

/-- A transfer of another token leaves USDC alone. -/
def rescueToken (env : Env) (rescued recipient : Address) (amount : Nat)
    (s : RouterState Token Event) : Except RouterError (RouterState Token Event) := do
  onlyOwner env s
  revertIf (env.hasCode rescued = false) .invalidToken
  revertIf (recipient = 0) .invalidRescueRecipient
  if rescued = usdc then
    let t ← orRevert .externalCallFailed (token.transfer router recipient amount s.usdc)
    return { s with usdc := t }
  else
    revertIf (env.foreignTransfer = false) .externalCallFailed
    return s

def admin (env : Env) : AdminCall → RouterState Token Event →
    Except RouterError (RouterState Token Event)
  | .setTreasury newTreasury, s => setTreasury env newTreasury s
  | .setAuthorizationSigner newSigner, s => setAuthorizationSigner env newSigner s
  | .setPauseGuardian newGuardian, s => setPauseGuardian env newGuardian s
  | .pause, s => pause env s
  | .unpause, s => unpause env s
  | .rescueToken rescued recipient amount, s =>
    rescueToken token router usdc env rescued recipient amount s

/-- The administration uses up no identifier, logs no payment, and moves no USDC but
that of the router. -/
structure Administers (s s' : RouterState Token Event) : Prop where
  usedAttempt : s'.usedAttempt = s.usedAttempt
  paidIntent : s'.paidIntent = s.paidIntent
  logs : s'.logs = s.logs
  balance : token.balanceOf s'.usdc router ≤ token.balanceOf s.usdc router
  allowance : token.allowance s'.usdc = token.allowance s.usdc

theorem administers_of_usdc {s s' : RouterState Token Event}
    (usedAttempt : s'.usedAttempt = s.usedAttempt) (paidIntent : s'.paidIntent = s.paidIntent)
    (logs : s'.logs = s.logs) (h : s'.usdc = s.usdc) : Administers token router s s' := by
  refine ⟨usedAttempt, paidIntent, logs, ?_, ?_⟩
  · rw [h]
  · rw [h]

theorem admin_ok {env : Env} {c : AdminCall} {s s' : RouterState Token Event}
    (h : admin token router usdc env c s = .ok s') : Administers token router s s' := by
  cases c with
  | setTreasury newTreasury =>
    simp only [admin, setTreasury, onlyOwner, revertIf_bind_eq_ok] at h
    obtain ⟨-, -, h⟩ := h
    cases h
    exact administers_of_usdc token router rfl rfl rfl rfl
  | setAuthorizationSigner newSigner =>
    simp only [admin, setAuthorizationSigner, onlyOwner, revertIf_bind_eq_ok] at h
    obtain ⟨-, -, h⟩ := h
    cases h
    exact administers_of_usdc token router rfl rfl rfl rfl
  | setPauseGuardian newGuardian =>
    simp only [admin, setPauseGuardian, onlyOwner, revertIf_bind_eq_ok] at h
    obtain ⟨-, -, h⟩ := h
    cases h
    exact administers_of_usdc token router rfl rfl rfl rfl
  | pause =>
    simp only [admin, pause, whenNotPaused, revertIf_bind_eq_ok] at h
    obtain ⟨-, -, h⟩ := h
    cases h
    exact administers_of_usdc token router rfl rfl rfl rfl
  | unpause =>
    simp only [admin, unpause, onlyOwner, revertIf_bind_eq_ok] at h
    obtain ⟨-, -, h⟩ := h
    cases h
    exact administers_of_usdc token router rfl rfl rfl rfl
  | rescueToken rescued recipient amount =>
    simp only [admin, rescueToken, onlyOwner, revertIf_bind_eq_ok] at h
    obtain ⟨-, -, -, h⟩ := h
    split at h
    · obtain ⟨t, ht, h⟩ := bind_eq_ok.1 h
      cases h
      obtain ⟨moves, allowance⟩ := token.transfer_spec (orRevert_eq_ok.1 ht)
      exact ⟨rfl, rfl, rfl, moves.source_le, allowance⟩
    · obtain ⟨-, h⟩ := revertIf_bind_eq_ok.1 h
      cases h
      exact administers_of_usdc token router rfl rfl rfl rfl

end Admin

/-! ### The platform fee -/

section PlatformFee

variable (token : Erc20 Address Token) (router : Address)

/-- Transfer the platform fee, if there is one. -/
def transferPlatformFee (payer treasury : Address) (platformFee : Nat) (t : Token) :
    Except RouterError Token :=
  if 0 < platformFee then
    orRevert .externalCallFailed (token.transferFrom router payer treasury platformFee t)
  else return t

theorem transferPlatformFee_ok {payer treasury : Address} {platformFee : Nat} {t t' : Token}
    (h : transferPlatformFee token router payer treasury platformFee t = .ok t') :
    Moves (token.balanceOf t) (token.balanceOf t') payer treasury platformFee := by
  unfold transferPlatformFee at h
  split at h
  · exact token.transferFrom_spec (orRevert_eq_ok.1 h)
  · cases h
    -- without a fee nothing moves
    obtain rfl : platformFee = 0 := by omega
    refine ⟨Nat.zero_le _, ?_⟩
    rw [Pi.single_zero, Pi.single_zero]

end PlatformFee

/-! ### Identifiers that are used up -/

/-- Use up the identifiers of a payment, and log it. -/
def consume (attemptId intentId : Bytes32) (e : Event) (s : RouterState Token Event) :
    RouterState Token Event :=
  { s with
    usedAttempt := Function.update s.usedAttempt attemptId true
    paidIntent := Function.update s.paidIntent intentId true
    logs := s.logs ++ [e] }

/-- No attempt and no intent was paid twice: the identifiers of every logged payment are
used up. -/
structure Consumed (attemptId intentId : Event → Bytes32) (s : RouterState Token Event) :
    Prop where
  used : ∀ e ∈ s.logs, s.usedAttempt (attemptId e) = true
  paid : ∀ e ∈ s.logs, s.paidIntent (intentId e) = true
  attempts : (s.logs.map attemptId).Nodup
  intents : (s.logs.map intentId).Nodup

variable {attemptId intentId : Event → Bytes32} {s s' : RouterState Token Event}

theorem consumed_of_nil (h : s.logs = []) : Consumed attemptId intentId s := by
  constructor <;> simp [h]

/-- A step that leaves the identifiers and the log alone. -/
theorem Consumed.same (h : Consumed attemptId intentId s) (used : s'.usedAttempt = s.usedAttempt)
    (paid : s'.paidIntent = s.paidIntent) (logs : s'.logs = s.logs) :
    Consumed attemptId intentId s' := by
  refine ⟨?_, ?_, ?_, ?_⟩
  · rw [used, logs]
    exact h.used
  · rw [paid, logs]
    exact h.paid
  · rw [logs]
    exact h.attempts
  · rw [logs]
    exact h.intents

theorem nodup_map_concat {α β : Type} {f : α → β} {l : List α} {a : α} (h : (l.map f).Nodup)
    (fresh : ∀ b ∈ l, f b ≠ f a) : ((l ++ [a]).map f).Nodup := by
  rw [List.map_append, List.nodup_append]
  refine ⟨h, by simp, ?_⟩
  intro x hx y hy
  obtain ⟨b, hb, rfl⟩ := List.mem_map.1 hx
  obtain rfl : y = f a := by simpa using hy
  exact fresh b hb

/-- A payment of identifiers that were not used up. -/
theorem Consumed.consume (h : Consumed attemptId intentId s) {e : Event}
    (fresh : s.usedAttempt (attemptId e) = false) (unpaid : s.paidIntent (intentId e) = false) :
    Consumed attemptId intentId (consume (attemptId e) (intentId e) e s) := by
  have keeps : ∀ (used : Bytes32 → Bool) (new : Bytes32) {id : Bytes32}, used id = true →
      Function.update used new true id = true := by
    intro used new id hid
    by_cases same : id = new
    · rw [same, Function.update_self]
    · rw [Function.update_of_ne same, hid]
  refine ⟨?_, ?_, ?_, ?_⟩
  · intro d hd
    rcases List.mem_append.1 hd with hd | hd
    · exact keeps _ _ (h.used d hd)
    · obtain rfl := List.mem_singleton.1 hd
      exact Function.update_self _ _ _
  · intro d hd
    rcases List.mem_append.1 hd with hd | hd
    · exact keeps _ _ (h.paid d hd)
    · obtain rfl := List.mem_singleton.1 hd
      exact Function.update_self _ _ _
  · refine nodup_map_concat h.attempts fun d hd same => ?_
    rw [← same, h.used d hd] at fresh
    cases fresh
  · refine nodup_map_concat h.intents fun d hd same => ?_
    rw [← same, h.paid d hd] at unpaid
    cases unpaid

end ParmeliaLinks.Contracts
