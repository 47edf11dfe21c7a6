/-
ParmeliaLinks/Contracts/CctpPaymentRouter.lean

The router of payments from another chain.  It takes the gross amount from the
payer, passes the platform fee on to the treasury, and burns the rest for the
merchant through Circle's token messenger.  The messenger is not part of the
repository: `TokenMessenger` is what is assumed of it, namely that it burns the
amount that it is approved for and nothing else.

The router keeps nothing of a payment, with one exception: nothing keeps the
owner from making the router its own treasury, and then it keeps the platform fee
(`cctp_router_conservation`).
-/
import ParmeliaLinks.Contracts.Router

namespace ParmeliaLinks.Contracts

structure CctpPaymentAuthorization where
  intentId : Bytes32
  attemptId : Bytes32
  payer : Address
  merchant : Address
  settlementChainId : Nat
  destinationDomain : Nat
  settlementAmount : Nat
  grossPayerAmount : Nat
  platformFee : Nat
  maxCctpFee : Nat
  minFinalityThreshold : Nat
  validAfter : Nat
  validUntil : Nat
  metadataHash : Bytes32
  deriving DecidableEq

structure CctpPaymentBurned where
  intentId : Bytes32
  attemptId : Bytes32
  payer : Address
  merchant : Address
  settlementChainId : Nat
  destinationDomain : Nat
  settlementAmount : Nat
  grossPayerAmount : Nat
  platformFee : Nat
  amountBurned : Nat
  maxCctpFee : Nat
  minFinalityThreshold : Nat
  metadataHash : Bytes32

/-- The event of a payment. -/
def CctpPaymentAuthorization.burned (a : CctpPaymentAuthorization) (amountBurned : Nat) :
    CctpPaymentBurned where
  intentId := a.intentId
  attemptId := a.attemptId
  payer := a.payer
  merchant := a.merchant
  settlementChainId := a.settlementChainId
  destinationDomain := a.destinationDomain
  settlementAmount := a.settlementAmount
  grossPayerAmount := a.grossPayerAmount
  platformFee := a.platformFee
  amountBurned := amountBurned
  maxCctpFee := a.maxCctpFee
  minFinalityThreshold := a.minFinalityThreshold
  metadataHash := a.metadataHash

/-- The arguments of `depositForBurn`. -/
structure DepositForBurn where
  amount : Nat
  destinationDomain : Nat
  mintRecipient : Bytes32
  burnToken : Address
  destinationCaller : Bytes32
  maxFee : Nat
  minFinalityThreshold : Nat

/-- The token messenger: a deposit burns the amount out of the balance of the caller,
and uses up that much of its allowance. -/
structure TokenMessenger {Token : Type} (token : Erc20 Address Token) where
  address : Address
  depositForBurn (caller : Address) (deposit : DepositForBurn) (t : Token) : Option Token
  burns : ∀ {caller : Address} {deposit : DepositForBurn} {t t' : Token},
    depositForBurn caller deposit t = some t' →
      token.balanceOf t' + Pi.single caller deposit.amount = token.balanceOf t ∧
        token.allowance t' caller address + deposit.amount = token.allowance t caller address

/-- A deployed router with its immutable variables. -/
structure CctpPaymentRouter (Token Signature : Type) where
  self : Address
  usdc : Address
  token : Erc20 Address Token
  tokenMessenger : TokenMessenger token
  settlementChainId : Nat
  fastTransferEnabled : Bool
  maxPlatformFeeBps : Nat
  scheme : SigningScheme Address Eip712Domain CctpPaymentAuthorization Signature

namespace CctpPaymentRouter

def maxAllowedPlatformFeeBps : Nat := 100

def bpsDenominator : Nat := 10000

def arbitrumDomain : Nat := 3

def fastFinality : Nat := 1000

def standardFinality : Nat := 2000

def anyDestinationCaller : Bytes32 := 0

variable {Token Signature : Type} (R : CctpPaymentRouter Token Signature)

abbrev State (Token : Type) := RouterState Token CctpPaymentBurned

/-! ### The functions of the contract -/

/-- The constructor. -/
def deploy (env : Env) (initialOwner initialTreasury initialAuthorizationSigner
    initialPauseGuardian : Address) (usdc : Token) : Except RouterError (State Token) := do
  revertIf (initialOwner = 0) .ownableInvalidOwner
  revertIf (env.hasCode R.usdc = false) .invalidToken
  revertIf (env.hasCode R.tokenMessenger.address = false) .invalidMessenger
  revertIf (initialTreasury = 0) .invalidTreasury
  revertIf (initialAuthorizationSigner = 0) .invalidAuthorizationSigner
  revertIf (initialPauseGuardian = 0) .invalidPauseGuardian
  revertIf (R.settlementChainId = 0 ∨ R.settlementChainId = env.chainid) .invalidSettlementChain
  revertIf (maxAllowedPlatformFeeBps < R.maxPlatformFeeBps)
    (.invalidPlatformFeeCap R.maxPlatformFeeBps)
  return {
    owner := initialOwner
    treasury := initialTreasury
    authorizationSigner := initialAuthorizationSigner
    pauseGuardian := initialPauseGuardian
    paused := false
    usedAttempt := fun _ => false
    paidIntent := fun _ => false
    usdc
    logs := [] }

def domain (env : Env) : Eip712Domain where
  name := "GatoPago CCTP Payment Router"
  version := "1"
  chainId := env.chainid
  verifyingContract := R.self

def authorizationDigest (env : Env) (a : CctpPaymentAuthorization) : R.scheme.Digest :=
  R.scheme.hashTypedData (R.domain env) a

/-- The checks of an authorization, and the amount to burn. -/
def validateAuthorization (env : Env) (a : CctpPaymentAuthorization) (signature : Signature)
    (s : State Token) : Except RouterError Nat := do
  revertIf (a.intentId = 0) .invalidIntentId
  revertIf (a.attemptId = 0) .invalidAttemptId
  revertIf (a.payer = 0) .invalidPayer
  revertIf (a.merchant = 0) .invalidMerchant
  revertIf (a.settlementAmount = 0 ∨ a.grossPayerAmount = 0) .invalidAmount
  revertIf (a.validUntil = 0 ∨ a.validUntil < a.validAfter) .invalidAuthorizationWindow
  revertIf (env.sender ≠ a.payer) (.unauthorizedPayer env.sender a.payer)
  revertIf (a.settlementChainId ≠ R.settlementChainId ∨ a.destinationDomain ≠ arbitrumDomain)
    (.invalidDestination a.settlementChainId a.destinationDomain)
  revertIf (a.minFinalityThreshold ≠ fastFinality ∧ a.minFinalityThreshold ≠ standardFinality)
    (.invalidFinalityThreshold a.minFinalityThreshold)
  revertIf (a.minFinalityThreshold = fastFinality ∧ R.fastTransferEnabled = false)
    .fastTransferUnavailable
  revertIf (env.timestamp < a.validAfter) (.authorizationNotActive a.validAfter)
  revertIf (a.validUntil < env.timestamp) (.authorizationExpired a.validUntil)
  let maximumPlatformFee := a.settlementAmount * R.maxPlatformFeeBps / bpsDenominator
  revertIf (maximumPlatformFee < a.platformFee)
    (.platformFeeTooHigh a.platformFee maximumPlatformFee)
  revertIf (a.grossPayerAmount ≤ a.platformFee) .invalidAmount
  let burnAmount := a.grossPayerAmount - a.platformFee
  revertIf (burnAmount ≤ a.maxCctpFee) (.cctpFeeTooHigh a.maxCctpFee burnAmount)
  let guaranteedSettlement := burnAmount - a.maxCctpFee
  revertIf (guaranteedSettlement < a.settlementAmount)
    (.settlementAmountNotGuaranteed a.settlementAmount guaranteedSettlement)
  revertIf (s.usedAttempt a.attemptId = true) (.attemptAlreadyUsed a.attemptId)
  revertIf (s.paidIntent a.intentId = true) (.intentAlreadyPaid a.intentId)
  revertIf (R.scheme.tryRecover (R.authorizationDigest env a) signature ≠
    some s.authorizationSigner) .invalidAuthorization
  return burnAmount

def burnForSettlement (env : Env) (a : CctpPaymentAuthorization) (signature : Signature)
    (s : State Token) : Except RouterError (State Token) := do
  let burnAmount ← R.validateAuthorization env a signature s
  let afterFee ← transferPlatformFee R.token R.self env.sender s.treasury a.platformFee s.usdc
  let pulled ← orRevert .externalCallFailed
    (R.token.transferFrom R.self env.sender R.self burnAmount afterFee)
  let approved ← orRevert .externalCallFailed
    (R.token.forceApprove R.self R.tokenMessenger.address burnAmount pulled)
  let usdc ← orRevert .externalCallFailed (R.tokenMessenger.depositForBurn R.self
    { amount := burnAmount, destinationDomain := arbitrumDomain, mintRecipient := a.merchant
      burnToken := R.usdc, destinationCaller := anyDestinationCaller, maxFee := a.maxCctpFee
      minFinalityThreshold := a.minFinalityThreshold } approved)
  return { consume a.attemptId a.intentId (a.burned burnAmount) s with usdc }

def pay (env : Env) (a : CctpPaymentAuthorization) (signature : Signature) (s : State Token) :
    Except RouterError (State Token) := do
  whenNotPaused s
  R.burnForSettlement env a signature s

/-- A permit that fails is tolerated. -/
def payWithPermit (env : Env) (a : CctpPaymentAuthorization) (signature : Signature)
    (permit : PermitArgs) (s : State Token) : Except RouterError (State Token) := do
  whenNotPaused s
  let usdc := R.token.tryPermit env.sender R.self a.grossPayerAmount permit s.usdc
  R.burnForSettlement env a signature { s with usdc }

/-- The contract, with what happens around it. -/
def contract : Contract (State Token) (Transaction CctpPaymentAuthorization Signature Token)
    RouterError where
  exec
    | .call env (.pay a signature), s => R.pay env a signature s
    | .call env (.payWithPermit a signature permit), s => R.payWithPermit env a signature permit s
    | .call env (.admin c), s => admin R.token R.self R.usdc env c s
    | .ownershipTransferred newOwner, s => .ok { s with owner := newOwner }
    | .elsewhere usdc, s => .ok { s with usdc }

/-! ### What a payment does -/

/-- The checks of the amounts. -/
structure Economical (a : CctpPaymentAuthorization) : Prop where
  positive : 0 < a.settlementAmount
  feeCap : a.platformFee ≤ a.settlementAmount * R.maxPlatformFeeBps / bpsDenominator
  burns : a.platformFee < a.grossPayerAmount
  cctpFee : a.maxCctpFee < a.grossPayerAmount - a.platformFee
  guaranteed : a.settlementAmount ≤ a.grossPayerAmount - a.platformFee - a.maxCctpFee

/-- The other checks of an authorization. -/
structure Admissible (env : Env) (a : CctpPaymentAuthorization) (signature : Signature)
    (s : State Token) : Prop where
  identified : a.intentId ≠ 0 ∧ a.attemptId ≠ 0 ∧ a.payer ≠ 0 ∧ a.merchant ≠ 0
  payer : env.sender = a.payer
  destination : a.settlementChainId = R.settlementChainId ∧ a.destinationDomain = arbitrumDomain
  finality : a.minFinalityThreshold = standardFinality ∨
    (a.minFinalityThreshold = fastFinality ∧ R.fastTransferEnabled = true)
  window : 0 < a.validUntil ∧ a.validAfter ≤ env.timestamp ∧ env.timestamp ≤ a.validUntil
  fresh : s.usedAttempt a.attemptId = false ∧ s.paidIntent a.intentId = false
  recovered : R.scheme.tryRecover (R.authorizationDigest env a) signature =
    some s.authorizationSigner

variable {R} {env : Env} {a : CctpPaymentAuthorization} {signature : Signature}
variable {s s' : State Token}

theorem validateAuthorization_eq_ok {burnAmount : Nat} :
    R.validateAuthorization env a signature s = .ok burnAmount ↔
      R.Admissible env a signature s ∧ R.Economical a ∧
        burnAmount = a.grossPayerAmount - a.platformFee := by
  simp only [validateAuthorization, revertIf_bind_eq_ok, not_or, not_lt, not_le, not_not,
    not_and_or, Bool.not_eq_true, Bool.not_eq_false, ne_eq]
  have result : ∀ n : Nat, (pure n : Except RouterError Nat) = .ok burnAmount ↔ burnAmount = n := by
    intro n
    constructor
    · intro h
      exact (Except.ok.inj h).symm
    · rintro rfl
      rfl
  rw [result]
  constructor
  · rintro ⟨intent, attempt, payer, merchant, ⟨amount, -⟩, ⟨until_, -⟩, sender, destination,
      threshold, fast, after, before, fee, burns, cctpFee, guaranteed, used, paid, recovered, burn⟩
    refine ⟨⟨⟨intent, attempt, payer, merchant⟩, sender, destination, ?_,
      ⟨Nat.pos_of_ne_zero until_, after, before⟩, ⟨used, paid⟩, recovered⟩,
      ⟨Nat.pos_of_ne_zero amount, fee, burns, cctpFee, guaranteed⟩, burn⟩
    rcases threshold with isFast | isStandard
    · exact .inr ⟨isFast, fast.resolve_left (not_not_intro isFast)⟩
    · exact .inl isStandard
  · rintro ⟨⟨⟨intent, attempt, payer, merchant⟩, sender, destination, finality, ⟨until_, after,
      before⟩, ⟨used, paid⟩, recovered⟩, ⟨amount, fee, burns, cctpFee, guaranteed⟩, burn⟩
    refine ⟨intent, attempt, payer, merchant, ⟨by omega, by omega⟩, ⟨by omega, by omega⟩, sender,
      destination, ?_, ?_, after, before, fee, burns, cctpFee, guaranteed, used, paid, recovered,
      burn⟩
    · rcases finality with isStandard | isFast
      · exact .inr isStandard
      · exact .inl isFast.1
    · rcases finality with isStandard | isFast
      · refine .inl ?_
        rw [isStandard]
        decide
      · exact .inr isFast.2

/-- A payment: what was checked, what it uses up, and what it moves. -/
structure Pays (R : CctpPaymentRouter Token Signature) (env : Env) (a : CctpPaymentAuthorization)
    (s s' : State Token) : Prop where
  payer : env.sender = a.payer
  window : a.validAfter ≤ env.timestamp ∧ env.timestamp ≤ a.validUntil
  authorized : R.scheme.Signed s.authorizationSigner (R.domain env) a
  fresh : s.usedAttempt a.attemptId = false ∧ s.paidIntent a.intentId = false
  logged : ∃ amountBurned, s'.logs = s.logs ++ [a.burned amountBurned] ∧
    amountBurned + a.platformFee = a.grossPayerAmount ∧
    a.settlementAmount + a.maxCctpFee ≤ amountBurned
  positive : 0 < a.settlementAmount
  balances : R.token.balanceOf s'.usdc + Pi.single env.sender a.grossPayerAmount =
    R.token.balanceOf s.usdc + Pi.single s.treasury a.platformFee
  allowance : R.token.allowance s'.usdc R.self R.tokenMessenger.address = 0

theorem burnForSettlement_ok (h : R.burnForSettlement env a signature s = .ok s') :
    R.Pays env a s s' ∧ ∃ amountBurned usdc,
      s' = { consume a.attemptId a.intentId (a.burned amountBurned) s with usdc := usdc } := by
  unfold burnForSettlement at h
  obtain ⟨burnAmount, valid, h⟩ := bind_eq_ok.1 h
  obtain ⟨admissible, economical, rfl⟩ := validateAuthorization_eq_ok.1 valid
  obtain ⟨afterFee, toTreasury, h⟩ := bind_eq_ok.1 h
  obtain ⟨pulled, toRouter, h⟩ := bind_eq_ok.1 h
  obtain ⟨approved, approval, h⟩ := bind_eq_ok.1 h
  obtain ⟨usdc, burn, h⟩ := bind_eq_ok.1 h
  cases h
  have first := transferPlatformFee_ok _ _ toTreasury
  have second := R.token.transferFrom_spec (orRevert_eq_ok.1 toRouter)
  obtain ⟨kept, allowed⟩ := R.token.forceApprove_spec (orRevert_eq_ok.1 approval)
  obtain ⟨burned, used⟩ := R.tokenMessenger.burns (orRevert_eq_ok.1 burn)
  have gross : a.platformFee + (a.grossPayerAmount - a.platformFee) = a.grossPayerAmount := by
    have := economical.burns
    omega
  -- what the router pulls it burns
  have balances : R.token.balanceOf usdc + Pi.single env.sender a.grossPayerAmount =
      R.token.balanceOf s.usdc + Pi.single s.treasury a.platformFee := by
    have moved := first.and_then second
    rw [gross, ← kept, ← burned] at moved
    apply add_right_cancel (b := (Pi.single R.self (a.grossPayerAmount - a.platformFee)))
    rw [← moved]
    abel
  have allowance : R.token.allowance usdc R.self R.tokenMessenger.address = 0 := by
    dsimp only at used
    omega
  have bounds : a.grossPayerAmount - a.platformFee + a.platformFee = a.grossPayerAmount ∧
      a.settlementAmount + a.maxCctpFee ≤ a.grossPayerAmount - a.platformFee := by
    have := economical.cctpFee
    have := economical.guaranteed
    omega
  exact ⟨⟨admissible.payer, admissible.window.2, R.scheme.genuine admissible.recovered,
    admissible.fresh, ⟨_, rfl, bounds⟩, economical.positive, balances, allowance⟩, _, usdc, rfl⟩

/-- A call that pays is a payment, whatever its permit did. -/
theorem pays_of_exec {c : RouterCall CctpPaymentAuthorization Signature}
    (payment : c.payment = some (a, signature))
    (h : R.contract.exec (.call env c) s = .ok s') : R.Pays env a s s' := by
  cases c with
  | pay b signature' =>
    cases payment
    obtain ⟨-, h⟩ := revertIf_bind_eq_ok.1 h
    exact (burnForSettlement_ok h).1
  | payWithPermit b signature' permit =>
    cases payment
    obtain ⟨-, h⟩ := revertIf_bind_eq_ok.1 h
    obtain ⟨payer, window, authorized, fresh, logged, positive, balances, allowance⟩ :=
      (burnForSettlement_ok h).1
    -- the balances are those before the permit
    simp only [Erc20.balanceOf_tryPermit] at balances
    exact ⟨payer, window, authorized, fresh, logged, positive, balances, allowance⟩
  | admin c => cases payment

/-! ### Every history -/

theorem consumed_burn (h : Consumed CctpPaymentBurned.attemptId CctpPaymentBurned.intentId s)
    (burned : R.burnForSettlement env a signature s = .ok s') :
    Consumed CctpPaymentBurned.attemptId CctpPaymentBurned.intentId s' := by
  obtain ⟨pays, amountBurned, usdc, rfl⟩ := burnForSettlement_ok burned
  have consumed := h.consume (e := a.burned amountBurned) pays.fresh.1 pays.fresh.2
  exact consumed.same rfl rfl rfl

/-- One transaction keeps the identifiers of the payments used up. -/
theorem consumed_exec (t : Transaction CctpPaymentAuthorization Signature Token)
    (h : Consumed CctpPaymentBurned.attemptId CctpPaymentBurned.intentId s)
    (ok : R.contract.exec t s = .ok s') :
    Consumed CctpPaymentBurned.attemptId CctpPaymentBurned.intentId s' := by
  cases t with
  | call env c =>
    cases c with
    | pay a signature =>
      obtain ⟨-, ok⟩ := revertIf_bind_eq_ok.1 ok
      exact consumed_burn h ok
    | payWithPermit a signature permit =>
      obtain ⟨-, ok⟩ := revertIf_bind_eq_ok.1 ok
      have permitted : ∀ t : Token, Consumed CctpPaymentBurned.attemptId
          CctpPaymentBurned.intentId { s with usdc := t } := fun _ => h.same rfl rfl rfl
      exact consumed_burn (permitted _) ok
    | admin c =>
      have administers := admin_ok _ _ _ ok
      exact h.same administers.usedAttempt administers.paidIntent administers.logs
  | ownershipTransferred newOwner =>
    cases ok
    exact h.same rfl rfl rfl
  | elsewhere usdc =>
    cases ok
    exact h.same rfl rfl rfl

theorem consumed_run {owner treasury signer guardian : Address} {usdc : Token} {s₀ : State Token}
    (deployed : R.deploy env owner treasury signer guardian usdc = .ok s₀)
    (ts : List (Transaction CctpPaymentAuthorization Signature Token)) :
    Consumed CctpPaymentBurned.attemptId CctpPaymentBurned.intentId (R.contract.run s₀ ts) := by
  have start : s₀.logs = [] := by
    simp only [deploy, revertIf_bind_eq_ok] at deployed
    obtain ⟨-, -, -, -, -, -, -, -, deployed⟩ := deployed
    cases deployed
    rfl
  exact Contract.run_invariant (fun t s s' h ok => consumed_exec t h ok) (consumed_of_nil start)

/-- What a call leaves in the router when the router is its own treasury: the platform
fee. -/
def ownFee (R : CctpPaymentRouter Token Signature) (s : State Token)
    (c : RouterCall CctpPaymentAuthorization Signature) : Nat :=
  match c.payment with
  | some (a, _) => if s.treasury = R.self then a.platformFee else 0
  | none => 0

/-- The router holds no USDC that it did not hold before, but for `fee`, and the
messenger no allowance. -/
structure NoResidue (R : CctpPaymentRouter Token Signature) (fee : Nat) (s s' : State Token) :
    Prop where
  balance : R.token.balanceOf s'.usdc R.self ≤ R.token.balanceOf s.usdc R.self + fee
  allowance : R.token.allowance s'.usdc R.self R.tokenMessenger.address ≤
    R.token.allowance s.usdc R.self R.tokenMessenger.address

theorem Pays.noResidue (h : R.Pays env a s s') :
    R.NoResidue (if s.treasury = R.self then a.platformFee else 0) s s' := by
  refine ⟨?_, ?_⟩
  · have balance := congrFun h.balances R.self
    simp only [Pi.add_apply] at balance
    split
    · rename_i own
      rw [own, Pi.single_eq_same] at balance
      omega
    · rename_i other
      rw [Pi.single_eq_of_ne (Ne.symm other)] at balance
      omega
  · rw [h.allowance]
    exact Nat.zero_le _

theorem noResidue_of_exec {c : RouterCall CctpPaymentAuthorization Signature}
    (h : R.contract.exec (.call env c) s = .ok s') : R.NoResidue (R.ownFee s c) s s' := by
  cases c with
  | pay a signature =>
    have payment : (RouterCall.pay a signature).payment = some (a, signature) := rfl
    exact (pays_of_exec payment h).noResidue
  | payWithPermit a signature permit =>
    have payment : (RouterCall.payWithPermit a signature permit).payment =
      some (a, signature) := rfl
    exact (pays_of_exec payment h).noResidue
  | admin c =>
    have administers := admin_ok _ _ _ h
    refine ⟨administers.balance, ?_⟩
    rw [administers.allowance]

/-- After every history no attempt and no intent was settled twice; a call that pays
moves and burns what its authorization says; no call leaves anything in the router but
the platform fee of a router that is its own treasury, and a call that fails changes
nothing. -/
theorem cctp_router_conservation (R : CctpPaymentRouter Token Signature) {env : Env}
    {owner treasury signer guardian : Address} {usdc : Token} {s₀ : State Token}
    (deployed : R.deploy env owner treasury signer guardian usdc = .ok s₀)
    (ts : List (Transaction CctpPaymentAuthorization Signature Token)) :
    ((R.contract.run s₀ ts).logs.map (·.attemptId)).Nodup ∧
    ((R.contract.run s₀ ts).logs.map (·.intentId)).Nodup ∧
    ∀ env c, match R.contract.exec (.call env c) (R.contract.run s₀ ts) with
      | .ok s' =>
        R.NoResidue (R.ownFee (R.contract.run s₀ ts) c) (R.contract.run s₀ ts) s' ∧
          ∀ a signature, c.payment = some (a, signature) →
            R.Pays env a (R.contract.run s₀ ts) s'
      | .error _ => R.contract.run s₀ (ts ++ [.call env c]) = R.contract.run s₀ ts := by
  have consumed := consumed_run deployed ts
  refine ⟨consumed.attempts, consumed.intents, fun env c => ?_⟩
  split
  · rename_i s' ok
    refine ⟨noResidue_of_exec ok, ?_⟩
    intro a signature payment
    exact pays_of_exec payment ok
  · rename_i e failed
    rw [Contract.run_append]
    exact Contract.transact_of_error failed

/-! A payment of `700` with a fee of `7`, of which at most `5` are Circle's. -/

def burnAuthorization : CctpPaymentAuthorization where
  intentId := 1
  attemptId := 2
  payer := 20
  merchant := 21
  settlementChainId := 42161
  destinationDomain := 3
  settlementAmount := 700
  grossPayerAmount := 712
  platformFee := 7
  maxCctpFee := 5
  minFinalityThreshold := 1000
  validAfter := 0
  validUntil := 100
  metadataHash := 0

def burnDomain : Eip712Domain where
  name := "GatoPago CCTP Payment Router"
  version := "1"
  chainId := 8453
  verifyingContract := 10

/-- A messenger with the address `12`. -/
def burningMessenger : TokenMessenger (Erc20.plain Address) where
  address := 12
  depositForBurn caller deposit t :=
    if deposit.amount ≤ t.balances caller ∧ deposit.amount ≤ t.allowances caller 12 then
      some
        { balances := t.balances - Pi.single caller deposit.amount
          allowances := Function.update t.allowances caller
            (Function.update (t.allowances caller) 12 (t.allowances caller 12 - deposit.amount)) }
    else none
  burns := by
    intro caller deposit t t' h
    split at h
    · rename_i covered
      cases h
      refine ⟨?_, ?_⟩
      · funext x
        simp only [Erc20.plain, Pi.add_apply, Pi.sub_apply]
        by_cases hx : x = caller
        · subst hx
          rw [Pi.single_eq_same]
          omega
        · rw [Pi.single_eq_of_ne hx]
          omega
      · simp only [Erc20.plain, Function.update_self]
        omega
    · cases h

def burnRouter : CctpPaymentRouter (PlainToken Address) Nat where
  self := 10
  usdc := 11
  token := .plain Address
  tokenMessenger := burningMessenger
  settlementChainId := 42161
  fastTransferEnabled := true
  maxPlatformFeeBps := 100
  scheme := .register [(31, burnDomain, burnAuthorization)]

/-- The sender on chain `8453`, where the token and the messenger have code. -/
def burnEnv (sender : Address) : Env where
  sender
  timestamp := 50
  chainid := 8453
  hasCode := fun a => a == 11 || a == 12
  foreignTransfer := false

def burnToken : PlainToken Address where
  balances := fun a => if a = 20 then 1000 else 0
  allowances := fun a b => if a = 20 ∧ b = 10 then 1000 else 0

def burnState (treasury : Address) : State (PlainToken Address) where
  owner := 30
  treasury
  authorizationSigner := 31
  pauseGuardian := 32
  paused := false
  usedAttempt := fun _ => false
  paidIntent := fun _ => false
  usdc := burnToken
  logs := []

/-- The payment from a router with this treasury. -/
def burnPayment (treasury : Address) : Except RouterError (State (PlainToken Address)) :=
  burnRouter.contract.exec (.call (burnEnv 20) (.pay burnAuthorization 0)) (burnState treasury)

theorem cctp_router_conservation_burn :
    ∃ s', burnPayment 22 = .ok s' ∧ burnRouter.NoResidue 0 (burnState 22) s' ∧
      burnRouter.Pays (burnEnv 20) burnAuthorization (burnState 22) s' := by
  have deployed : burnRouter.deploy (burnEnv 30) 30 22 31 32 burnToken = .ok (burnState 22) := by
    rfl
  have outcome := (cctp_router_conservation burnRouter deployed []).2.2 (burnEnv 20)
    (.pay burnAuthorization 0)
  have succeeds : (burnPayment 22).isOk = true := by decide
  cases h : burnPayment 22 with
  | error e =>
    rw [h] at succeeds
    cases succeeds
  | ok s' =>
    rw [show burnRouter.contract.run (burnState 22) [] = burnState 22 from rfl,
      show burnRouter.contract.exec (.call (burnEnv 20) (.pay burnAuthorization 0))
        (burnState 22) = .ok s' from h] at outcome
    exact ⟨s', rfl, outcome.1, outcome.2 burnAuthorization 0 rfl⟩

/-- A router that is its own treasury: it is deployed, and a payment leaves the platform
fee in it. -/
theorem cctp_router_keeps_fee :
    burnRouter.deploy (burnEnv 30) 30 10 31 32 burnToken = .ok (burnState 10) ∧
      ∃ s', burnPayment 10 = .ok s' ∧
        burnRouter.token.balanceOf (burnState 10).usdc burnRouter.self = 0 ∧
        burnRouter.token.balanceOf s'.usdc burnRouter.self = 7 := by
  refine ⟨rfl, ?_⟩
  have balance : (burnPayment 10).map (fun s' => burnRouter.token.balanceOf s'.usdc 10) =
      .ok 7 := by decide
  cases h : burnPayment 10 with
  | error e =>
    rw [h] at balance
    cases balance
  | ok s' =>
    rw [h] at balance
    exact ⟨s', rfl, rfl, Except.ok.inj balance⟩

end CctpPaymentRouter

end ParmeliaLinks.Contracts
