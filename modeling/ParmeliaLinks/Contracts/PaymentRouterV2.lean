/-
ParmeliaLinks/Contracts/PaymentRouterV2.lean

The router of payments on the chain of the merchant.  A payment needs an
authorization that the signer of the moment has signed for this chain and this
router; it uses up the attempt and the intent, and moves the settlement amount
to the merchant and the platform fee to the treasury.

`local_router_conservation` is about every history: whoever calls, whoever the
payer, the merchant and the treasury are, and whatever the administration did in
between.
-/
import ParmeliaLinks.Contracts.Router

namespace ParmeliaLinks.Contracts

structure PaymentAuthorization where
  intentId : Bytes32
  attemptId : Bytes32
  payer : Address
  merchant : Address
  settlementAmount : Nat
  platformFee : Nat
  validAfter : Nat
  validUntil : Nat
  metadataHash : Bytes32
  deriving DecidableEq

structure PaymentSettled where
  intentId : Bytes32
  attemptId : Bytes32
  payer : Address
  merchant : Address
  settlementAmount : Nat
  platformFee : Nat
  metadataHash : Bytes32

/-- The event of a payment. -/
def PaymentAuthorization.settled (a : PaymentAuthorization) : PaymentSettled where
  intentId := a.intentId
  attemptId := a.attemptId
  payer := a.payer
  merchant := a.merchant
  settlementAmount := a.settlementAmount
  platformFee := a.platformFee
  metadataHash := a.metadataHash

/-- A deployed router: its address, its token, and how signers are recovered. -/
structure PaymentRouterV2 (Token Signature : Type) where
  self : Address
  usdc : Address
  token : Erc20 Address Token
  scheme : SigningScheme Address Eip712Domain PaymentAuthorization Signature

namespace PaymentRouterV2

def maxPlatformFeeBps : Nat := 100

def bpsDenominator : Nat := 10000

variable {Token Signature : Type} (R : PaymentRouterV2 Token Signature)

abbrev State (Token : Type) := RouterState Token PaymentSettled

/-! ### The functions of the contract -/

/-- The constructor. -/
def deploy (env : Env) (initialOwner initialTreasury initialAuthorizationSigner
    initialPauseGuardian : Address) (usdc : Token) : Except RouterError (State Token) := do
  revertIf (initialOwner = 0) .ownableInvalidOwner
  revertIf (env.hasCode R.usdc = false) .invalidToken
  revertIf (initialTreasury = 0) .invalidTreasury
  revertIf (initialAuthorizationSigner = 0) .invalidAuthorizationSigner
  revertIf (initialPauseGuardian = 0) .invalidPauseGuardian
  return {
    owner := initialOwner
    treasury := initialTreasury
    authorizationSigner := initialAuthorizationSigner
    pauseGuardian := initialPauseGuardian
    paused := false
    usedAttempt := fun _ => false
    paidIntent := fun _ => false
    usdc
    logs := [] }

def domain (env : Env) : Eip712Domain where
  name := "GatoPago Payment Router"
  version := "2"
  chainId := env.chainid
  verifyingContract := R.self

def authorizationDigest (env : Env) (a : PaymentAuthorization) : R.scheme.Digest :=
  R.scheme.hashTypedData (R.domain env) a

def validateAuthorization (env : Env) (a : PaymentAuthorization) (signature : Signature)
    (s : State Token) : Except RouterError Unit := do
  revertIf (a.intentId = 0) .invalidIntentId
  revertIf (a.attemptId = 0) .invalidAttemptId
  revertIf (a.payer = 0) .invalidPayer
  revertIf (a.merchant = 0) .invalidMerchant
  revertIf (a.settlementAmount = 0) .invalidAmount
  revertIf (a.validUntil = 0 ∨ a.validUntil < a.validAfter) .invalidAuthorizationWindow
  revertIf (env.sender ≠ a.payer) (.unauthorizedPayer env.sender a.payer)
  revertIf (env.timestamp < a.validAfter) (.authorizationNotActive a.validAfter)
  revertIf (a.validUntil < env.timestamp) (.authorizationExpired a.validUntil)
  let maximumPlatformFee := a.settlementAmount * maxPlatformFeeBps / bpsDenominator
  revertIf (maximumPlatformFee < a.platformFee)
    (.platformFeeTooHigh a.platformFee maximumPlatformFee)
  revertIf (s.usedAttempt a.attemptId = true) (.attemptAlreadyUsed a.attemptId)
  revertIf (s.paidIntent a.intentId = true) (.intentAlreadyPaid a.intentId)
  revertIf (R.scheme.tryRecover (R.authorizationDigest env a) signature ≠
    some s.authorizationSigner) .invalidAuthorization

def settle (env : Env) (a : PaymentAuthorization) (signature : Signature) (s : State Token) :
    Except RouterError (State Token) := do
  R.validateAuthorization env a signature s
  let settlement ← orRevert .externalCallFailed
    (R.token.transferFrom R.self env.sender a.merchant a.settlementAmount s.usdc)
  let usdc ← transferPlatformFee R.token R.self env.sender s.treasury a.platformFee settlement
  return { consume a.attemptId a.intentId a.settled s with usdc }

def pay (env : Env) (a : PaymentAuthorization) (signature : Signature) (s : State Token) :
    Except RouterError (State Token) := do
  whenNotPaused s
  R.settle env a signature s

/-- A permit that fails is tolerated. -/
def payWithPermit (env : Env) (a : PaymentAuthorization) (signature : Signature)
    (permit : PermitArgs) (s : State Token) : Except RouterError (State Token) := do
  whenNotPaused s
  let totalPayerAmount := a.settlementAmount + a.platformFee
  revertIf (2 ^ 256 ≤ totalPayerAmount) .arithmeticOverflow
  let usdc := R.token.tryPermit env.sender R.self totalPayerAmount permit s.usdc
  R.settle env a signature { s with usdc }

/-- The contract, with what happens around it. -/
def contract : Contract (State Token) (Transaction PaymentAuthorization Signature Token)
    RouterError where
  exec
    | .call env (.pay a signature), s => R.pay env a signature s
    | .call env (.payWithPermit a signature permit), s => R.payWithPermit env a signature permit s
    | .call env (.admin c), s => admin R.token R.self R.usdc env c s
    | .ownershipTransferred newOwner, s => .ok { s with owner := newOwner }
    | .elsewhere usdc, s => .ok { s with usdc }

/-! ### What a payment does -/

/-- The checks of the amounts. -/
structure Economical (a : PaymentAuthorization) : Prop where
  positive : 0 < a.settlementAmount
  feeCap : a.platformFee ≤ a.settlementAmount * maxPlatformFeeBps / bpsDenominator

/-- The other checks of an authorization. -/
structure Admissible (env : Env) (a : PaymentAuthorization) (signature : Signature)
    (s : State Token) : Prop where
  identified : a.intentId ≠ 0 ∧ a.attemptId ≠ 0 ∧ a.payer ≠ 0 ∧ a.merchant ≠ 0
  payer : env.sender = a.payer
  window : 0 < a.validUntil ∧ a.validAfter ≤ env.timestamp ∧ env.timestamp ≤ a.validUntil
  fresh : s.usedAttempt a.attemptId = false ∧ s.paidIntent a.intentId = false
  recovered : R.scheme.tryRecover (R.authorizationDigest env a) signature =
    some s.authorizationSigner

variable {R} {env : Env} {a : PaymentAuthorization} {signature : Signature}
variable {s s' : State Token}

theorem validateAuthorization_eq_ok {u : Unit} :
    R.validateAuthorization env a signature s = .ok u ↔
      R.Admissible env a signature s ∧ Economical a := by
  simp only [validateAuthorization, revertIf_bind_eq_ok, revertIf_eq_ok, not_or, not_lt, not_not,
    Bool.not_eq_true, ne_eq]
  constructor
  · rintro ⟨intent, attempt, payer, merchant, amount, ⟨until_, -⟩, sender, after, before, fee, used,
      paid, recovered⟩
    exact ⟨⟨⟨intent, attempt, payer, merchant⟩, sender, ⟨Nat.pos_of_ne_zero until_, after, before⟩,
      ⟨used, paid⟩, recovered⟩, ⟨Nat.pos_of_ne_zero amount, fee⟩⟩
  · rintro ⟨⟨⟨intent, attempt, payer, merchant⟩, sender, ⟨until_, after, before⟩, ⟨used, paid⟩,
      recovered⟩, ⟨amount, fee⟩⟩
    exact ⟨intent, attempt, payer, merchant, by omega, ⟨by omega, by omega⟩, sender, after, before,
      fee, used, paid, recovered⟩

/-- A payment: what was checked, what it uses up, and what it moves. -/
structure Pays (R : PaymentRouterV2 Token Signature) (env : Env) (a : PaymentAuthorization)
    (s s' : State Token) : Prop where
  payer : env.sender = a.payer
  window : a.validAfter ≤ env.timestamp ∧ env.timestamp ≤ a.validUntil
  authorized : R.scheme.Signed s.authorizationSigner (R.domain env) a
  feeCap : a.platformFee ≤ a.settlementAmount * maxPlatformFeeBps / bpsDenominator
  fresh : s.usedAttempt a.attemptId = false ∧ s.paidIntent a.intentId = false
  logged : s'.logs = s.logs ++ [a.settled]
  balances : R.token.balanceOf s'.usdc +
      Pi.single env.sender (a.settlementAmount + a.platformFee) =
    R.token.balanceOf s.usdc + Pi.single a.merchant a.settlementAmount +
      Pi.single s.treasury a.platformFee
  custody : R.self ≠ env.sender → R.self ≠ a.merchant → R.self ≠ s.treasury →
    R.token.balanceOf s'.usdc R.self = R.token.balanceOf s.usdc R.self

theorem settle_ok (h : R.settle env a signature s = .ok s') :
    R.Pays env a s s' ∧
      ∃ usdc, s' = { consume a.attemptId a.intentId a.settled s with usdc := usdc } := by
  unfold settle at h
  obtain ⟨u, valid, h⟩ := bind_eq_ok.1 h
  obtain ⟨admissible, economical⟩ := validateAuthorization_eq_ok.1 valid
  obtain ⟨settlement, toMerchant, h⟩ := bind_eq_ok.1 h
  obtain ⟨usdc, toTreasury, h⟩ := bind_eq_ok.1 h
  cases h
  have first := R.token.transferFrom_spec (orRevert_eq_ok.1 toMerchant)
  have second := transferPlatformFee_ok _ _ toTreasury
  refine ⟨⟨admissible.payer, admissible.window.2, R.scheme.genuine admissible.recovered,
    economical.feeCap, admissible.fresh, rfl, first.and_then second, ?_⟩, usdc, rfl⟩
  intro notPayer notMerchant notTreasury
  exact (second.frame notPayer notTreasury).trans (first.frame notPayer notMerchant)

/-- A call that pays is a payment, whatever its permit did. -/
theorem pays_of_exec {c : RouterCall PaymentAuthorization Signature}
    (payment : c.payment = some (a, signature))
    (h : R.contract.exec (.call env c) s = .ok s') : R.Pays env a s s' := by
  cases c with
  | pay b signature' =>
    cases payment
    obtain ⟨-, h⟩ := revertIf_bind_eq_ok.1 h
    exact (settle_ok h).1
  | payWithPermit b signature' permit =>
    cases payment
    obtain ⟨-, h⟩ := revertIf_bind_eq_ok.1 h
    obtain ⟨-, h⟩ := revertIf_bind_eq_ok.1 h
    obtain ⟨payer, window, authorized, feeCap, fresh, logged, balances, custody⟩ :=
      (settle_ok h).1
    -- the balances are those before the permit
    simp only [Erc20.balanceOf_tryPermit] at balances custody
    exact ⟨payer, window, authorized, feeCap, fresh, logged, balances, custody⟩
  | admin c => cases payment

/-! ### Every history -/

theorem consumed_settle (h : Consumed PaymentSettled.attemptId PaymentSettled.intentId s)
    (settled : R.settle env a signature s = .ok s') :
    Consumed PaymentSettled.attemptId PaymentSettled.intentId s' := by
  obtain ⟨pays, usdc, rfl⟩ := settle_ok settled
  have consumed := h.consume (e := a.settled) pays.fresh.1 pays.fresh.2
  exact consumed.same rfl rfl rfl

/-- One transaction keeps the identifiers of the payments used up. -/
theorem consumed_exec (t : Transaction PaymentAuthorization Signature Token)
    (h : Consumed PaymentSettled.attemptId PaymentSettled.intentId s)
    (ok : R.contract.exec t s = .ok s') :
    Consumed PaymentSettled.attemptId PaymentSettled.intentId s' := by
  cases t with
  | call env c =>
    cases c with
    | pay a signature =>
      obtain ⟨-, ok⟩ := revertIf_bind_eq_ok.1 ok
      exact consumed_settle h ok
    | payWithPermit a signature permit =>
      obtain ⟨-, ok⟩ := revertIf_bind_eq_ok.1 ok
      obtain ⟨-, ok⟩ := revertIf_bind_eq_ok.1 ok
      have permitted : ∀ t : Token, Consumed PaymentSettled.attemptId PaymentSettled.intentId
          { s with usdc := t } := fun _ => h.same rfl rfl rfl
      exact consumed_settle (permitted _) ok
    | admin c =>
      have administers := admin_ok _ _ _ ok
      exact h.same administers.usedAttempt administers.paidIntent administers.logs
  | ownershipTransferred newOwner =>
    cases ok
    exact h.same rfl rfl rfl
  | elsewhere usdc =>
    cases ok
    exact h.same rfl rfl rfl

theorem consumed_run {owner treasury signer guardian : Address} {usdc : Token} {s₀ : State Token}
    (deployed : R.deploy env owner treasury signer guardian usdc = .ok s₀)
    (ts : List (Transaction PaymentAuthorization Signature Token)) :
    Consumed PaymentSettled.attemptId PaymentSettled.intentId (R.contract.run s₀ ts) := by
  have start : s₀.logs = [] := by
    simp only [deploy, revertIf_bind_eq_ok] at deployed
    obtain ⟨-, -, -, -, -, deployed⟩ := deployed
    cases deployed
    rfl
  exact Contract.run_invariant (fun t s s' h ok => consumed_exec t h ok) (consumed_of_nil start)

/-- After every history no attempt and no intent was settled twice; a call that pays
moves exactly what its authorization says, and a call that fails changes nothing. -/
theorem local_router_conservation (R : PaymentRouterV2 Token Signature) {env : Env}
    {owner treasury signer guardian : Address} {usdc : Token} {s₀ : State Token}
    (deployed : R.deploy env owner treasury signer guardian usdc = .ok s₀)
    (ts : List (Transaction PaymentAuthorization Signature Token)) :
    ((R.contract.run s₀ ts).logs.map (·.attemptId)).Nodup ∧
    ((R.contract.run s₀ ts).logs.map (·.intentId)).Nodup ∧
    ∀ env c, match R.contract.exec (.call env c) (R.contract.run s₀ ts) with
      | .ok s' => ∀ a signature, c.payment = some (a, signature) →
          R.Pays env a (R.contract.run s₀ ts) s'
      | .error _ => R.contract.run s₀ (ts ++ [.call env c]) = R.contract.run s₀ ts := by
  have consumed := consumed_run deployed ts
  refine ⟨consumed.attempts, consumed.intents, fun env c => ?_⟩
  split
  · rename_i s' ok
    intro a signature payment
    exact pays_of_exec payment ok
  · rename_i e failed
    rw [Contract.run_append]
    exact Contract.transact_of_error failed

/-! A payment of `700` with a fee of `7`. -/

def checkoutAuthorization : PaymentAuthorization where
  intentId := 1
  attemptId := 2
  payer := 20
  merchant := 21
  settlementAmount := 700
  platformFee := 7
  validAfter := 0
  validUntil := 100
  metadataHash := 0

def checkoutDomain : Eip712Domain where
  name := "GatoPago Payment Router"
  version := "2"
  chainId := 4
  verifyingContract := 10

def checkoutRouter : PaymentRouterV2 (PlainToken Address) Nat where
  self := 10
  usdc := 11
  token := .plain Address
  scheme := .register [(31, checkoutDomain, checkoutAuthorization)]

/-- The sender on chain `4`, where the token has code. -/
def checkoutEnv (sender : Address) : Env where
  sender
  timestamp := 50
  chainid := 4
  hasCode := fun a => a == 11
  foreignTransfer := false

def checkoutToken : PlainToken Address where
  balances := fun a => if a = 20 then 1000 else 0
  allowances := fun a b => if a = 20 ∧ b = 10 then 1000 else 0

def checkoutState : State (PlainToken Address) where
  owner := 30
  treasury := 22
  authorizationSigner := 31
  pauseGuardian := 32
  paused := false
  usedAttempt := fun _ => false
  paidIntent := fun _ => false
  usdc := checkoutToken
  logs := []

theorem local_router_conservation_checkout :
    ∃ s', checkoutRouter.contract.exec
        (.call (checkoutEnv 20) (.pay checkoutAuthorization 0)) checkoutState = .ok s' ∧
      checkoutRouter.Pays (checkoutEnv 20) checkoutAuthorization checkoutState s' := by
  have deployed : checkoutRouter.deploy (checkoutEnv 30) 30 22 31 32 checkoutToken =
      .ok checkoutState := by rfl
  have outcome := (local_router_conservation checkoutRouter deployed []).2.2 (checkoutEnv 20)
    (.pay checkoutAuthorization 0)
  have succeeds : (checkoutRouter.contract.exec
      (.call (checkoutEnv 20) (.pay checkoutAuthorization 0)) checkoutState).isOk = true := by
    decide
  cases h : checkoutRouter.contract.exec
      (.call (checkoutEnv 20) (.pay checkoutAuthorization 0)) checkoutState with
  | error e =>
    rw [h] at succeeds
    cases succeeds
  | ok s' =>
    rw [show checkoutRouter.contract.run checkoutState [] = checkoutState from rfl, h] at outcome
    exact ⟨s', rfl, outcome checkoutAuthorization 0 rfl⟩

end PaymentRouterV2

end ParmeliaLinks.Contracts
