/-
ParmeliaLinks/Payments/QuoteEngine.lean

Quotes, and the authorizations that are signed from them.  A quote adds to the
amount of the intent the fee of the platform and, on the way through Circle, a
ceiling for what Circle will take: its live rate on the amount, rounded up, and a
fifth more.  The authorization repeats the numbers of the quote, and the router
checks them again in its own arithmetic.

Before a signature the worker looks at the router: a quote that takes a fee is
only signed for a router that was found to have the declared cap.
-/
import ParmeliaLinks.Contracts.CctpPaymentRouter
import ParmeliaLinks.Contracts.PaymentRouterV2
import ParmeliaLinks.Lib.Binary64
import ParmeliaLinks.Payments.FeePolicy

namespace ParmeliaLinks.Payments.QuoteEngine

open Contracts (Bytes32 Eip712Domain PaymentAuthorization CctpPaymentAuthorization
  PaymentRouterV2 CctpPaymentRouter)

/-! ### Networks -/

structure PaymentNetworkCapabilities where
  chainId : ChainId
  isHomeChain : Bool
  settlementChainId : ChainId
  cctpDomain : Nat
  paymentSource : Bool
  cctpStandard : Bool
  cctpFast : Bool
  localPaymentRouter : Option Address
  cctpPaymentRouter : Option Address
  localPaymentMaxPlatformFeeBps : Option Nat
  cctpPaymentMaxPlatformFeeBps : Option Nat
  usdc : Address
  tokenMessenger : Address
  deriving DecidableEq

/-- The manifest of networks. -/
abbrev Networks := List PaymentNetworkCapabilities

def cctpV2TokenMessenger : Address := 0x8FE6B999Dc680CcFDD5Bf7EB0974218be2542DAA

/-- The networks of the manifest that payments can come from. -/
def paymentNetworks : Networks := [
  { chainId := 421614
    isHomeChain := true
    settlementChainId := 421614
    cctpDomain := 3
    paymentSource := true
    cctpStandard := true
    cctpFast := true
    localPaymentRouter := some 0x64e0B48A4D360B235C3fEDe2431D79413aebb7A4
    cctpPaymentRouter := none
    localPaymentMaxPlatformFeeBps := some 100
    cctpPaymentMaxPlatformFeeBps := none
    usdc := 0x75faf114eafb1BDbe2F0316DF893fd58CE46AA4d
    tokenMessenger := cctpV2TokenMessenger },
  { chainId := 84532
    isHomeChain := false
    settlementChainId := 421614
    cctpDomain := 6
    paymentSource := true
    cctpStandard := true
    cctpFast := true
    localPaymentRouter := none
    cctpPaymentRouter := some 0x961C08Bd5a11EFB7264B06d7f14a44FB4d9958Ba
    localPaymentMaxPlatformFeeBps := none
    cctpPaymentMaxPlatformFeeBps := some 0
    usdc := 0x036CbD53842c5426634e7929541eC2318f3dCF7e
    tokenMessenger := cctpV2TokenMessenger },
  { chainId := 43113
    isHomeChain := false
    settlementChainId := 421614
    cctpDomain := 1
    paymentSource := true
    cctpStandard := true
    cctpFast := false
    localPaymentRouter := none
    cctpPaymentRouter := some 0xd8289B87b155e8691Da192b12E12E2b592fE7D1E
    localPaymentMaxPlatformFeeBps := none
    cctpPaymentMaxPlatformFeeBps := some 0
    usdc := 0x5425890298aed601595a70AB815c96711a31Bc65
    tokenMessenger := cctpV2TokenMessenger }]

def getPaymentNetworkCapabilities (networks : Networks) (chainId : ChainId) :
    Option PaymentNetworkCapabilities :=
  networks.find? (·.chainId == chainId)

/-! ### The fee of Circle -/

/-- A number in a reply: JSON has numbers beyond the finite ones. -/
inductive JsonNumber
  | finite (x : Binary64)
  | infinite

/-- An entry of the reply; a field is absent when it is not a number. -/
structure CircleFee where
  finalityThreshold : Option JsonNumber
  minimumFee : Option JsonNumber

/-- What the fee API answered. -/
inductive CircleReply
  | unreachable
  | status (code : Nat)
  | malformed
  | fees (entries : List CircleFee)

/-- The rate of an entry, in hundredths of a percent, if it can be used. -/
def CircleFee.accepted (finalityThreshold : Nat) (candidate : CircleFee) : Option Binary64 :=
  match candidate.finalityThreshold, candidate.minimumFee with
  | some (.finite threshold), some (.finite fee) =>
    if threshold.value = finalityThreshold ∧ 0 ≤ fee.value ∧ fee.value ≤ 100 then some fee
    else none
  | _, _ => none

structure LiveCctpFee where
  minimumFeeBps : Binary64
  maxFeeAtomic : Nat

/-- `Math.ceil(fee.minimumFee * 100)`. -/
def hundredthsOfBps (minimumFee : Binary64) : Nat :=
  ⌈roundToBinary64 (minimumFee.value * 100)⌉.toNat

/-- What is kept for Circle: the rate on the amount, rounded up, and a fifth more. -/
def maxFeeAtomic (minimumFee : Binary64) (settlementAmountAtomic : Nat) : Nat :=
  let denominator := 1000000
  let protocolFee :=
    (settlementAmountAtomic * hundredthsOfBps minimumFee + denominator - 1) / denominator
  (protocolFee * 120 + 99) / 100

def getLiveCctpFee (reply : CircleReply) (finalityThreshold settlementAmountAtomic : Nat) :
    Except String LiveCctpFee :=
  match reply with
  | .unreachable => .error "fetch failed"
  | .status code => .error s!"Circle fee API returned {code}"
  | .malformed => .error "Circle fee response is malformed"
  | .fees entries =>
    match entries.findSome? (·.accepted finalityThreshold) with
    | none => .error "Circle did not return the requested finality fee"
    | some fee => .ok
      { minimumFeeBps := fee, maxFeeAtomic := maxFeeAtomic fee settlementAmountAtomic }

/-! ### Quotes -/

inductive QuoteErrorCode
  | chainDisabled | routeUnavailable | intentNotPayable | intentExpired | feeUnavailable
  | feePolicy (code : FeePolicyErrorCode)
  | quoteStale | signerUnavailable | invalidTtlConfig | routerPreflightFailed
  deriving DecidableEq

/-- `QuoteError`, or what the encoder of typed data throws. -/
inductive EngineError
  | quoteError (code : QuoteErrorCode) (message : String)
  | integerOutOfRange
  deriving DecidableEq

/-- The environment of the worker. -/
structure Bindings where
  networks : Networks
  enabledChains : List ChainId
  fees : FeeSettings
  authorizationTtlSeconds : Option Nat
  /-- The account of the configured key. -/
  signer : Option Address

inductive RequestedRoute | fast | standard | auto
  deriving DecidableEq

structure QuoteRequest where
  intent : PaymentIntent
  payer : Address
  sourceChainId : ChainId
  requestedRoute : RequestedRoute

structure PaymentQuote where
  intentId : IntentId
  payer : Address
  sourceChainId : ChainId
  route : PaymentRoute
  settlementAmountAtomic : Nat
  platformFeeAtomic : Nat
  cctpFeeAtomic : Nat
  grossPayerAmountAtomic : Nat
  feePolicyId : String
  feePolicyVersion : Nat
  feeRuleId : String
  platformFeeBps : Nat
  platformFeeBearer : FeeBearer
  platformFeeRecipient : Option Address
  routeFeeCapBps : Nat
  expiresAt : Timestamp

/-- The route of a quote. -/
def selectRoute (source : PaymentNetworkCapabilities) (requestedRoute : RequestedRoute) :
    Except EngineError PaymentRoute :=
  if source.isHomeChain then .ok .sameChain
  else
    match requestedRoute with
    | .fast =>
      if source.cctpFast then .ok .cctpFast
      else .error (.quoteError .routeUnavailable "Fast transfer is unavailable on this chain")
    | .standard =>
      if source.cctpStandard then .ok .cctpStandard
      else .error (.quoteError .routeUnavailable "Standard transfer is unavailable on this chain")
    | .auto => .ok (if source.cctpFast then .cctpFast else .cctpStandard)

/-- The finality that a route waits for. -/
def finalityThreshold (route : PaymentRoute) : Nat := if route = .cctpFast then 1000 else 2000

/-- The platform fee, its errors under the name of the quote. -/
def quotedFee (env : Bindings) (input : FeeInput) : Except EngineError ResolvedPaymentFee :=
  match resolvePaymentFee env.fees input with
  | .ok fee => .ok fee
  | .error e => .error (.quoteError (.feePolicy e.code) e.message)

/-- What is kept for Circle on a route. -/
def quotedCctpFee (reply : CircleReply) (route : PaymentRoute) (settlementAmount : Nat) :
    Except EngineError Nat :=
  if route = .sameChain then .ok 0
  else
    match getLiveCctpFee reply (finalityThreshold route) settlementAmount with
    | .ok live => .ok live.maxFeeAtomic
    | .error _ => .error
      (.quoteError .feeUnavailable "Live CCTP fee is unavailable; no fallback fee was used")

def buildQuote (env : Bindings) (now : Timestamp) (reply : CircleReply) (input : QuoteRequest) :
    Except EngineError PaymentQuote := do
  revertIf (input.sourceChainId ∉ env.enabledChains)
    (.quoteError .chainDisabled "Payment source chain is disabled")
  let source ← orRevert (.quoteError .chainDisabled "Payment source chain is unavailable")
    (getPaymentNetworkCapabilities env.networks input.sourceChainId)
  let settlement ← orRevert (.quoteError .chainDisabled "Payment source chain is unavailable")
    (getPaymentNetworkCapabilities env.networks input.intent.settlementChainId)
  revertIf (source.paymentSource = false ∨ settlement.paymentSource = false)
    (.quoteError .chainDisabled "Payment source chain is unavailable")
  revertIf (source.settlementChainId ≠ input.intent.settlementChainId)
    (.quoteError .routeUnavailable "Source cannot settle to this merchant chain")
  revertIf (input.intent.status ≠ .awaitingPayment)
    (.quoteError .intentNotPayable "Payment intent is not payable")
  revertIf (input.intent.expiresAt.any (· ≤ now) = true)
    (.quoteError .intentExpired "Payment intent is expired")
  let route ← selectRoute source input.requestedRoute
  let settlementAmount := input.intent.amountAtomic
  let routeFeeCapBps ← orRevert
    (.quoteError .routeUnavailable "Payment route has no economic capability declaration")
    (if route = .sameChain then source.localPaymentMaxPlatformFeeBps
      else source.cctpPaymentMaxPlatformFeeBps)
  let fee ← quotedFee env { intent := input.intent, sourceChainId := input.sourceChainId
                            route := route, routeFeeCapBps := routeFeeCapBps }
  let cctpFeeAtomic ← quotedCctpFee reply route settlementAmount
  return {
    intentId := input.intent.id
    payer := input.payer
    sourceChainId := input.sourceChainId
    route := route
    settlementAmountAtomic := settlementAmount
    platformFeeAtomic := fee.platformFeeAtomic
    cctpFeeAtomic := cctpFeeAtomic
    grossPayerAmountAtomic := settlementAmount + fee.platformFeeAtomic + cctpFeeAtomic
    feePolicyId := fee.policyId
    feePolicyVersion := fee.policyVersion
    feeRuleId := fee.ruleId
    platformFeeBps := fee.platformFeeBps
    platformFeeBearer := fee.platformFeeBearer
    platformFeeRecipient := fee.platformFeeRecipient
    routeFeeCapBps := routeFeeCapBps
    expiresAt := now + 2 * 60000 }

/-! ### The preflight of the router -/

inductive PaymentRouterKind | onchain | cctp
  deriving DecidableEq

structure PaymentRouterTarget where
  chainId : ChainId
  kind : PaymentRouterKind
  address : Address
  declaredMaxPlatformFeeBps : Nat
  usdc : Address
  tokenMessenger : Option Address
  settlementChainId : ChainId
  fastTransferEnabled : Option Bool

structure PaymentRouterObservation where
  codePresent : Bool
  maxPlatformFeeBps : Option Nat
  usdc : Option Address
  treasury : Option Address
  authorizationSigner : Option Address
  paused : Option Bool
  tokenMessenger : Option Address
  settlementChainId : Option ChainId
  fastTransferEnabled : Option Bool

/-- What a router can be found to differ in. -/
inductive PaymentRouterIssue
  | preflightRequired
  | capabilityMissing
  | rpcUnavailable
  | codeMissing
  | feeCapMismatch
  | configuredFeeExceedsCap
  | authorizationSignerMismatch
  | treasuryMismatch
  | usdcMismatch
  | paused
  | tokenMessengerMismatch
  | settlementChainMismatch
  | fastTransferMismatch
  deriving DecidableEq

def targetFor (network : PaymentNetworkCapabilities) : Option PaymentRouterTarget :=
  if network.isHomeChain then do
    let address ← network.localPaymentRouter
    let declaredMaxPlatformFeeBps ← network.localPaymentMaxPlatformFeeBps
    return { chainId := network.chainId, kind := .onchain, address, declaredMaxPlatformFeeBps
             usdc := network.usdc, tokenMessenger := none
             settlementChainId := network.settlementChainId, fastTransferEnabled := none }
  else do
    let address ← network.cctpPaymentRouter
    let declaredMaxPlatformFeeBps ← network.cctpPaymentMaxPlatformFeeBps
    return { chainId := network.chainId, kind := .cctp, address, declaredMaxPlatformFeeBps
             usdc := network.usdc, tokenMessenger := some network.tokenMessenger
             settlementChainId := network.settlementChainId
             fastTransferEnabled := some network.cctpFast }

/-- An issue, if its condition holds. -/
def issueIf (c : Bool) (issue : PaymentRouterIssue) : List PaymentRouterIssue :=
  if c then [issue] else []

/-- An address was read, and it is the expected one. -/
def sameAddress (observed expected : Option Address) : Bool :=
  expected.isSome && observed == expected

def evaluatePaymentRouterObservation (target : PaymentRouterTarget)
    (observation : PaymentRouterObservation)
    (expectedAuthorizationSigner expectedTreasury : Option Address) (configuredMaxFeeBps : Nat) :
    List PaymentRouterIssue :=
  issueIf (!observation.codePresent) .codeMissing ++
  issueIf (observation.maxPlatformFeeBps != some target.declaredMaxPlatformFeeBps)
    .feeCapMismatch ++
  issueIf (target.declaredMaxPlatformFeeBps < configuredMaxFeeBps) .configuredFeeExceedsCap ++
  issueIf (!sameAddress observation.authorizationSigner expectedAuthorizationSigner)
    .authorizationSignerMismatch ++
  issueIf (0 < configuredMaxFeeBps && !sameAddress observation.treasury expectedTreasury)
    .treasuryMismatch ++
  issueIf (!sameAddress observation.usdc (some target.usdc)) .usdcMismatch ++
  issueIf (observation.paused != some false) .paused ++
  if target.kind = .cctp then
    issueIf (!sameAddress observation.tokenMessenger target.tokenMessenger)
      .tokenMessengerMismatch ++
    issueIf (observation.settlementChainId != some target.settlementChainId)
      .settlementChainMismatch ++
    issueIf (observation.fastTransferEnabled != target.fastTransferEnabled) .fastTransferMismatch
  else []

/-- The issues that keep an authorization from being signed. -/
def preflightIssues (env : Bindings)
    (observe : PaymentRouterTarget → Option PaymentRouterObservation) (chainId : ChainId)
    (quote : PaymentQuote) : List PaymentRouterIssue :=
  if env.fees.routerPreflightEnabled = false then
    issueIf (0 < quote.platformFeeBps) .preflightRequired
  else
    match (getPaymentNetworkCapabilities env.networks chainId).bind targetFor with
    | none => [.capabilityMissing]
    | some target =>
      if (quote.route == .sameChain) != (target.kind == .onchain) then [.capabilityMissing]
      else
        match observe target with
        | none => [.rpcUnavailable]
        | some observation => evaluatePaymentRouterObservation target observation env.signer
            quote.platformFeeRecipient quote.platformFeeBps

/-! ### Authorizations -/

/-- What the encoder of typed data can encode. -/
def Encodable (a : PaymentAuthorization) : Prop :=
  a.settlementAmount < 2 ^ 256 ∧ a.platformFee < 2 ^ 256 ∧ a.validAfter < 2 ^ 48 ∧
    a.validUntil < 2 ^ 48

/-- What the encoder of typed data can encode. -/
def CctpEncodable (a : CctpPaymentAuthorization) : Prop :=
  a.settlementChainId < 2 ^ 256 ∧ a.destinationDomain < 2 ^ 32 ∧ a.settlementAmount < 2 ^ 256 ∧
    a.grossPayerAmount < 2 ^ 256 ∧ a.platformFee < 2 ^ 256 ∧ a.maxCctpFee < 2 ^ 256 ∧
    a.minFinalityThreshold < 2 ^ 32 ∧ a.validAfter < 2 ^ 48 ∧ a.validUntil < 2 ^ 48

instance (a : PaymentAuthorization) : Decidable (Encodable a) := by
  unfold Encodable
  infer_instance

instance (a : CctpPaymentAuthorization) : Decidable (CctpEncodable a) := by
  unfold CctpEncodable
  infer_instance

/-- The hashes and the signatures of the worker's library, and what the routers answer
when they are read.  Signing fails on a number that its type does not hold. -/
structure Outside (Signature : Type) where
  uuidHash : String × Nat → Bytes32
  stableMetadataHash : String → Bytes32
  signPayment : Address → Eip712Domain → PaymentAuthorization → Option Signature
  signCctpPayment : Address → Eip712Domain → CctpPaymentAuthorization → Option Signature
  observe : PaymentRouterTarget → Option PaymentRouterObservation
  encodable : ∀ {account domain a signature},
    signPayment account domain a = some signature → Encodable a
  cctpEncodable : ∀ {account domain a signature},
    signCctpPayment account domain a = some signature → CctpEncodable a

inductive SignedAuthorization
  | onchain (a : PaymentAuthorization)
  | cctp (a : CctpPaymentAuthorization)

structure PaymentAttempt (Signature : Type) where
  intentId : IntentId
  payerAddress : Address
  sourceChainId : ChainId
  route : PaymentRoute
  routerAddress : Address
  authorization : SignedAuthorization
  signature : Signature
  validAfter : Nat
  validUntil : Nat
  settlementAmountAtomic : Nat
  platformFeeAtomic : Nat
  cctpFeeAtomic : Nat
  grossPayerAmountAtomic : Nat

/-- `validAfter` and `validUntil`, in seconds. -/
def authorizationWindow (env : Bindings) (now : Timestamp) (intent : PaymentIntent)
    (quoteExpiresAt : Timestamp) : Except EngineError (Nat × Nat) := do
  let seconds := now / 1000
  let ttl ← orRevert (.quoteError .invalidTtlConfig "Payment authorization TTL is invalid")
    env.authorizationTtlSeconds
  revertIf (ttl < 60 ∨ 3600 < ttl)
    (.quoteError .invalidTtlConfig "Payment authorization TTL is invalid")
  let limit := min (seconds + ttl) (quoteExpiresAt / 1000)
  let validUntil := (intent.expiresAt.map fun expiresAt => min limit (expiresAt / 1000)).getD limit
  revertIf (validUntil ≤ seconds + 15) (.quoteError .intentExpired "Payment intent is expired")
  return (seconds - 15, validUntil)

variable {Signature : Type}

/-- The authorization for the local router. -/
def authorizeLocal (outside : Outside Signature) (account : Address)
    (source : PaymentNetworkCapabilities) (a : PaymentAuthorization) :
    Except EngineError (Address × SignedAuthorization × Signature) := do
  let routerAddress ← orRevert
    (.quoteError .routeUnavailable "Local payment router is unavailable")
    source.localPaymentRouter
  let signature ← orRevert .integerOutOfRange (outside.signPayment account
    { name := "GatoPago Payment Router", version := "2", chainId := source.chainId
      verifyingContract := routerAddress } a)
  return (routerAddress, .onchain a, signature)

/-- The authorization for the router in front of Circle. -/
def authorizeCctp (outside : Outside Signature) (account : Address)
    (source : PaymentNetworkCapabilities) (a : CctpPaymentAuthorization) :
    Except EngineError (Address × SignedAuthorization × Signature) := do
  let routerAddress ← orRevert
    (.quoteError .routeUnavailable "CCTP payment router is unavailable")
    source.cctpPaymentRouter
  let signature ← orRevert .integerOutOfRange (outside.signCctpPayment account
    { name := "GatoPago CCTP Payment Router", version := "1", chainId := source.chainId
      verifyingContract := routerAddress } a)
  return (routerAddress, .cctp a, signature)

/-- The router and the signed authorization of a quote. -/
def signQuote (env : Bindings) (outside : Outside Signature) (account : Address)
    (source : PaymentNetworkCapabilities) (id : AttemptId) (intent : PaymentIntent)
    (quote : PaymentQuote) (window : Nat × Nat) :
    Except EngineError (Address × SignedAuthorization × Signature) :=
  if quote.route = .sameChain then
    authorizeLocal outside account source
      { intentId := outside.uuidHash ("pi_", intent.id)
        attemptId := outside.uuidHash ("pa_", id)
        payer := quote.payer
        merchant := intent.settlementWallet
        settlementAmount := quote.settlementAmountAtomic
        platformFee := quote.platformFeeAtomic
        validAfter := window.1
        validUntil := window.2
        metadataHash := outside.stableMetadataHash intent.metadata }
  else do
    let settlement ← orRevert (.quoteError .chainDisabled "Settlement chain is unavailable")
      ((getPaymentNetworkCapabilities env.networks intent.settlementChainId).filter
        (·.paymentSource))
    authorizeCctp outside account source
      { intentId := outside.uuidHash ("pi_", intent.id)
        attemptId := outside.uuidHash ("pa_", id)
        payer := quote.payer
        merchant := intent.settlementWallet
        settlementChainId := intent.settlementChainId
        destinationDomain := settlement.cctpDomain
        settlementAmount := quote.settlementAmountAtomic
        grossPayerAmount := quote.grossPayerAmountAtomic
        platformFee := quote.platformFeeAtomic
        maxCctpFee := quote.cctpFeeAtomic
        minFinalityThreshold := finalityThreshold quote.route
        validAfter := window.1
        validUntil := window.2
        metadataHash := outside.stableMetadataHash intent.metadata }

def authorizeAttempt (env : Bindings) (outside : Outside Signature) (now : Timestamp)
    (id : AttemptId) (intent : PaymentIntent) (quote : PaymentQuote) :
    Except EngineError (PaymentAttempt Signature) := do
  revertIf (quote.expiresAt ≤ now) (.quoteError .quoteStale "Quote is stale")
  let source ← orRevert (.quoteError .chainDisabled "Payment source chain is disabled")
    ((getPaymentNetworkCapabilities env.networks quote.sourceChainId).filter (·.paymentSource))
  let window ← authorizationWindow env now intent quote.expiresAt
  let account ← orRevert
    (.quoteError .signerUnavailable "Payment authorization signer is not configured") env.signer
  revertIf (preflightIssues env outside.observe source.chainId quote ≠ [])
    (.quoteError .routerPreflightFailed "Payment router preflight failed")
  let signed ← signQuote env outside account source id intent quote window
  return {
    intentId := intent.id
    payerAddress := quote.payer
    sourceChainId := source.chainId
    route := quote.route
    routerAddress := signed.1
    authorization := signed.2.1
    signature := signed.2.2
    validAfter := window.1
    validUntil := window.2
    settlementAmountAtomic := quote.settlementAmountAtomic
    platformFeeAtomic := quote.platformFeeAtomic
    cctpFeeAtomic := quote.cctpFeeAtomic
    grossPayerAmountAtomic := quote.grossPayerAmountAtomic }

end ParmeliaLinks.Payments.QuoteEngine
