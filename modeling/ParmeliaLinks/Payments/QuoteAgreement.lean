/-
ParmeliaLinks/Payments/QuoteAgreement.lean

Quotes, authorizations and routers agree.  What is signed from a quote passes
every check of amounts of the router that it is signed for, and the ceiling for
Circle covers the live rate on what is really burned, which is the amount together
with the ceiling itself (`quote_authorization_router_agree`).

The numbers of a quote have no bound: an amount of any length is accepted.  Those
of a signed authorization fit their types, since nothing else can be encoded.
-/
import ParmeliaLinks.Payments.QuoteEngine

namespace ParmeliaLinks.Payments.QuoteEngine

open Contracts (Bytes32 Eip712Domain PaymentAuthorization CctpPaymentAuthorization
  PaymentRouterV2 CctpPaymentRouter)

variable {Signature : Type}

/-! ### The ceiling for Circle -/

theorem hundredthsOfBps_le {fee : Binary64} (nonneg : 0 ≤ fee.value) (le : fee.value ≤ 100) :
    hundredthsOfBps fee ≤ 10000 := by
  have rounded : roundToBinary64 (fee.value * 100) ≤ (10000 : ℕ) := by
    apply roundToBinary64_le
    · positivity
    · norm_num
    · push_cast
      linarith
  rw [hundredthsOfBps, Int.toNat_le]
  exact Int.ceil_le.2 (by exact_mod_cast rounded)

/-- The integer rate is at most a tiny part below the rate of Circle. -/
theorem le_hundredthsOfBps {fee : Binary64} (nonneg : 0 ≤ fee.value) :
    fee.value * 100 * (1 - 1 / 2 ^ 53) ≤ hundredthsOfBps fee := by
  rcases nonneg.eq_or_lt with zero | pos
  · rw [← zero]
    simp
  · have least := fee.least pos
    have ceil := le_ceil_round (q := fee.value * 100) (by linarith)
    have natural : (⌈roundToBinary64 (fee.value * 100)⌉ : ℚ) ≤ hundredthsOfBps fee := by
      exact_mod_cast Int.self_le_toNat _
    exact ceil.trans natural

/-- The ceiling is a fifth more than the rate on the amount. -/
theorem rate_le_maxFeeAtomic (fee : Binary64) (amount : Nat) :
    amount * hundredthsOfBps fee * 120 ≤ maxFeeAtomic fee amount * 100000000 := by
  unfold maxFeeAtomic
  dsimp only
  omega

/-- What is kept for Circle covers the rate on what is burned, the ceiling included. -/
theorem maxFeeAtomic_covers {fee : Binary64} (nonneg : 0 ≤ fee.value) (le : fee.value ≤ 100)
    (amount : Nat) :
    ⌈((amount + maxFeeAtomic fee amount : Nat) : ℚ) * fee.value / 10000⌉ ≤
      maxFeeAtomic fee amount := by
  have rate : (hundredthsOfBps fee : ℚ) ≤ 10000 := by exact_mod_cast hundredthsOfBps_le nonneg le
  have below := le_hundredthsOfBps nonneg
  have fifth : (amount : ℚ) * hundredthsOfBps fee * 120 ≤ maxFeeAtomic fee amount * 100000000 := by
    exact_mod_cast rate_le_maxFeeAtomic fee amount
  -- a hundredth of the ceiling is all that the rate can add on the ceiling
  have own : (maxFeeAtomic fee amount : ℚ) * hundredthsOfBps fee ≤
      maxFeeAtomic fee amount * 10000 := mul_le_mul_of_nonneg_left rate (by positivity)
  have burned : (0 : ℚ) ≤ amount + maxFeeAtomic fee amount := by positivity
  have scaled := mul_le_mul_of_nonneg_left below burned
  have total : ((amount : ℚ) + maxFeeAtomic fee amount) * hundredthsOfBps fee ≤
      maxFeeAtomic fee amount * 900000 := by linarith
  have ceiling : (0 : ℚ) ≤ maxFeeAtomic fee amount := by positivity
  rw [Int.ceil_le]
  push_cast
  have product : ((amount : ℚ) + maxFeeAtomic fee amount) * fee.value * 100 * (1 - 1 / 2 ^ 53) ≤
      maxFeeAtomic fee amount * 900000 := by linarith
  linarith

/-! ### What a quote promises -/

theorem getLiveCctpFee_ok {reply : CircleReply} {threshold amount : Nat} {live : LiveCctpFee}
    (h : getLiveCctpFee reply threshold amount = .ok live) :
    0 ≤ live.minimumFeeBps.value ∧ live.minimumFeeBps.value ≤ 100 ∧
      live.maxFeeAtomic = maxFeeAtomic live.minimumFeeBps amount := by
  cases reply with
  | unreachable => cases h
  | status code => cases h
  | malformed => cases h
  | fees entries =>
    unfold getLiveCctpFee at h
    dsimp only at h
    split at h
    · cases h
    · rename_i fee found
      cases h
      obtain ⟨candidate, -, accepted⟩ := List.exists_of_findSome?_eq_some found
      unfold CircleFee.accepted at accepted
      split at accepted
      · rename_i threshold' fee' _ _
        split at accepted
        · rename_i usable
          cases accepted
          exact ⟨usable.2.1, usable.2.2, rfl⟩
        · cases accepted
      · cases accepted

/-- How the numbers of a quote come from the intent, the policy and the reply. -/
structure PaymentQuote.Of (quote : PaymentQuote) (reply : CircleReply) (amount : Nat) : Prop where
  settlement : quote.settlementAmountAtomic = amount
  gross : quote.grossPayerAmountAtomic =
    quote.settlementAmountAtomic + quote.platformFeeAtomic + quote.cctpFeeAtomic
  fee : quote.platformFeeAtomic = amount * quote.platformFeeBps / 10000
  cap : quote.platformFeeBps ≤ 100
  cctpFee : quotedCctpFee reply quote.route amount = .ok quote.cctpFeeAtomic

theorem buildQuote_ok {env : Bindings} {now : Timestamp} {reply : CircleReply}
    {input : QuoteRequest} {quote : PaymentQuote}
    (h : buildQuote env now reply input = .ok quote) :
    quote.Of reply input.intent.amountAtomic := by
  unfold buildQuote at h
  obtain ⟨-, h⟩ := revertIf_bind_eq_ok.1 h
  obtain ⟨source, -, h⟩ := bind_eq_ok.1 h
  obtain ⟨settlement, -, h⟩ := bind_eq_ok.1 h
  obtain ⟨-, h⟩ := revertIf_bind_eq_ok.1 h
  obtain ⟨-, h⟩ := revertIf_bind_eq_ok.1 h
  obtain ⟨-, h⟩ := revertIf_bind_eq_ok.1 h
  obtain ⟨-, h⟩ := revertIf_bind_eq_ok.1 h
  obtain ⟨route, -, h⟩ := bind_eq_ok.1 h
  obtain ⟨cap, -, h⟩ := bind_eq_ok.1 h
  obtain ⟨fee, quoted, h⟩ := bind_eq_ok.1 h
  obtain ⟨cctpFee, kept, h⟩ := bind_eq_ok.1 h
  cases h
  have resolved : fee.Of { intent := input.intent, sourceChainId := input.sourceChainId
                           route := route, routeFeeCapBps := cap } := by
    unfold quotedFee at quoted
    split at quoted
    · rename_i fee' resolved
      cases quoted
      exact resolvePaymentFee_ok resolved
    · cases quoted
  exact ⟨rfl, rfl, resolved.atomic, resolved.cap.trans resolved.capBound, kept⟩

/-! ### What an authorization says -/

variable {env : Bindings} {outside : Outside Signature} {now : Timestamp} {id : AttemptId}
variable {intent : PaymentIntent} {quote : PaymentQuote} {attempt : PaymentAttempt Signature}

/-- The numbers of a quote in an authorization that was signed for a network. -/
def SignedAuthorization.Repeats (signed : SignedAuthorization) (quote : PaymentQuote)
    (source : PaymentNetworkCapabilities) (routerAddress : Address) : Prop :=
  match signed with
  | .onchain a =>
    quote.route = .sameChain ∧ source.localPaymentRouter = some routerAddress ∧ Encodable a ∧
      a.settlementAmount = quote.settlementAmountAtomic ∧ a.platformFee = quote.platformFeeAtomic
  | .cctp a =>
    quote.route ≠ .sameChain ∧ source.cctpPaymentRouter = some routerAddress ∧ CctpEncodable a ∧
      a.settlementAmount = quote.settlementAmountAtomic ∧
      a.grossPayerAmount = quote.grossPayerAmountAtomic ∧
      a.platformFee = quote.platformFeeAtomic ∧ a.maxCctpFee = quote.cctpFeeAtomic

theorem signQuote_ok {account : Address} {source : PaymentNetworkCapabilities}
    {window : Nat × Nat} {signed : Address × SignedAuthorization × Signature}
    (h : signQuote env outside account source id intent quote window = .ok signed) :
    signed.2.1.Repeats quote source signed.1 := by
  unfold signQuote at h
  split at h
  · rename_i sameChain
    obtain ⟨routerAddress, router, h⟩ := bind_eq_ok.1 h
    obtain ⟨signature, signing, h⟩ := bind_eq_ok.1 h
    cases h
    exact ⟨sameChain, orRevert_eq_ok.1 router, outside.encodable (orRevert_eq_ok.1 signing),
      rfl, rfl⟩
  · rename_i otherChain
    obtain ⟨settlement, -, h⟩ := bind_eq_ok.1 h
    obtain ⟨routerAddress, router, h⟩ := bind_eq_ok.1 h
    obtain ⟨signature, signing, h⟩ := bind_eq_ok.1 h
    cases h
    exact ⟨otherChain, orRevert_eq_ok.1 router,
      outside.cctpEncodable (orRevert_eq_ok.1 signing), rfl, rfl, rfl, rfl⟩

theorem getPaymentNetworkCapabilities_chainId {networks : Networks} {chainId : ChainId}
    {network : PaymentNetworkCapabilities}
    (h : getPaymentNetworkCapabilities networks chainId = some network) :
    network.chainId = chainId := by
  have := List.find?_some h
  exact beq_iff_eq.1 this

/-- An authorization comes from a network that passed the preflight. -/
theorem authorizeAttempt_ok (h : authorizeAttempt env outside now id intent quote = .ok attempt) :
    ∃ source, getPaymentNetworkCapabilities env.networks attempt.sourceChainId = some source ∧
      source.chainId = attempt.sourceChainId ∧
      preflightIssues env outside.observe attempt.sourceChainId quote = [] ∧
      attempt.authorization.Repeats quote source attempt.routerAddress := by
  unfold authorizeAttempt at h
  obtain ⟨-, h⟩ := revertIf_bind_eq_ok.1 h
  obtain ⟨source, found, h⟩ := bind_eq_ok.1 h
  obtain ⟨window, -, h⟩ := bind_eq_ok.1 h
  obtain ⟨account, -, h⟩ := bind_eq_ok.1 h
  obtain ⟨preflight, h⟩ := revertIf_bind_eq_ok.1 h
  obtain ⟨signed, signing, h⟩ := bind_eq_ok.1 h
  cases h
  have network := (Option.filter_eq_some_iff.1 (orRevert_eq_ok.1 found)).1
  have chainId := getPaymentNetworkCapabilities_chainId network
  refine ⟨source, ?_, rfl, not_not.1 preflight, signQuote_ok signing⟩
  show getPaymentNetworkCapabilities env.networks source.chainId = some source
  rw [chainId]
  exact network

/-! ### The preflight -/

@[simp] theorem issueIf_eq_nil {c : Bool} {issue : PaymentRouterIssue} :
    issueIf c issue = [] ↔ c = false := by
  cases c <;> simp [issueIf]

/-- No issue: the router has the declared cap, and the fee is below it. -/
theorem cap_of_evaluate {target : PaymentRouterTarget} {observation : PaymentRouterObservation}
    {signer treasury : Option Address} {feeBps : Nat}
    (h : evaluatePaymentRouterObservation target observation signer treasury feeBps = []) :
    ∃ cap, observation.maxPlatformFeeBps = some cap ∧ feeBps ≤ cap := by
  unfold evaluatePaymentRouterObservation at h
  simp only [List.append_eq_nil_iff, issueIf_eq_nil] at h
  obtain ⟨⟨⟨⟨⟨⟨⟨-, cap⟩, below⟩, -⟩, -⟩, -⟩, -⟩, -⟩ := h
  refine ⟨target.declaredMaxPlatformFeeBps, ?_, ?_⟩
  · simpa using cap
  · simpa using below

/-- The router of a network is its local one or the one in front of Circle. -/
theorem targetFor_ok {network : PaymentNetworkCapabilities} {target : PaymentRouterTarget}
    (h : targetFor network = some target) :
    target.chainId = network.chainId ∧
      ((target.kind = .onchain ∧ network.localPaymentRouter = some target.address) ∨
        (target.kind = .cctp ∧ network.cctpPaymentRouter = some target.address)) := by
  unfold targetFor at h
  split at h
  · obtain ⟨address, found, h⟩ := Option.bind_eq_some_iff.1 h
    obtain ⟨declared, -, h⟩ := Option.bind_eq_some_iff.1 h
    cases h
    exact ⟨rfl, .inl ⟨rfl, found⟩⟩
  · obtain ⟨address, found, h⟩ := Option.bind_eq_some_iff.1 h
    obtain ⟨declared, -, h⟩ := Option.bind_eq_some_iff.1 h
    cases h
    exact ⟨rfl, .inr ⟨rfl, found⟩⟩

/-- What is observed of the router of a chain is what the router says. -/
def Outside.Reads {Token Scheme : Type} (outside : Outside Signature) (chainId : ChainId)
    (R : CctpPaymentRouter Token Scheme) : Prop :=
  ∀ target observation, target.chainId = chainId → target.address = R.self →
    outside.observe target = some observation →
    observation.maxPlatformFeeBps = some R.maxPlatformFeeBps

/-- A quote that passed the preflight takes no more than the router allows. -/
theorem feeBps_le_cap {Token Scheme : Type} {R : CctpPaymentRouter Token Scheme}
    {source : PaymentNetworkCapabilities}
    (network : getPaymentNetworkCapabilities env.networks source.chainId = some source)
    (passed : preflightIssues env outside.observe source.chainId quote = [])
    (route : quote.route ≠ .sameChain) (router : source.cctpPaymentRouter = some R.self)
    (reads : outside.Reads source.chainId R) : quote.platformFeeBps ≤ R.maxPlatformFeeBps := by
  unfold preflightIssues at passed
  split at passed
  · have free : quote.platformFeeBps = 0 := by simpa using passed
    omega
  · rw [network, Option.bind_some] at passed
    cases targeted : targetFor source with
    | none =>
      rw [targeted] at passed
      cases passed
    | some target =>
      rw [targeted] at passed
      dsimp only at passed
      split at passed
      · cases passed
      · rename_i kind
        cases observed : outside.observe target with
        | none =>
          rw [observed] at passed
          cases passed
        | some observation =>
          rw [observed] at passed
          obtain ⟨cap, caps, le⟩ := cap_of_evaluate passed
          -- the target is the router of the authorization: the kinds agree
          obtain ⟨chainId, address⟩ := targetFor_ok targeted
          have same : target.address = R.self := by
            rcases address with ⟨isLocal, -⟩ | ⟨-, address⟩
            · simp [route, isLocal] at kind
            · rw [router] at address
              exact (Option.some.inj address).symm
          rw [reads target observation chainId same observed] at caps
          cases caps
          exact le

/-! ### Agreement -/

/-- The numbers of a quote. -/
def PaymentQuote.integers (quote : PaymentQuote) : List Nat :=
  [quote.settlementAmountAtomic, quote.platformFeeAtomic, quote.cctpFeeAtomic,
    quote.grossPayerAmountAtomic]

theorem PaymentQuote.Of.integers_lt {reply : CircleReply} {amount : Nat}
    (h : quote.Of reply amount) :
    (∀ n ∈ quote.integers, n < 2 ^ 256) ↔ quote.grossPayerAmountAtomic < 2 ^ 256 := by
  have gross := h.gross
  simp only [PaymentQuote.integers, List.forall_mem_cons, List.not_mem_nil, false_imp_iff,
    implies_true, and_true]
  omega

/-- A fee within a cap is below the cap on the amount. -/
theorem fee_le_cap {reply : CircleReply} {amount cap : Nat} (h : quote.Of reply amount)
    (le : quote.platformFeeBps ≤ cap) :
    quote.platformFeeAtomic ≤ quote.settlementAmountAtomic * cap / 10000 := by
  rw [h.fee, h.settlement]
  exact Nat.div_le_div_right (Nat.mul_le_mul_left amount le)

/-- What is kept for Circle on a route of Circle covers its live rate on the burn. -/
theorem cctpFee_covers {reply : CircleReply} {route : PaymentRoute} {amount cctpFee : Nat}
    (other : route ≠ .sameChain) (h : quotedCctpFee reply route amount = .ok cctpFee) :
    ∃ live, getLiveCctpFee reply (finalityThreshold route) amount = .ok live ∧
      ⌈((amount + cctpFee : Nat) : ℚ) * live.minimumFeeBps.value / 10000⌉ ≤ cctpFee := by
  unfold quotedCctpFee at h
  rw [if_neg other] at h
  split at h
  · rename_i live found
    cases h
    obtain ⟨nonneg, le, atomic⟩ := getLiveCctpFee_ok found
    refine ⟨live, found, ?_⟩
    rw [atomic]
    exact maxFeeAtomic_covers nonneg le amount
  · cases h

/-- What is signed from a quote passes the checks of amounts of its router, fits its
types, and covers what Circle takes at its live rate.  The numbers of the quote itself
are as large as the amount makes them. -/
theorem quote_authorization_router_agree {Token Scheme : Type} {env' : Bindings}
    {now' : Timestamp} {reply : CircleReply} {input : QuoteRequest}
    (built : buildQuote env now reply input = .ok quote)
    (payable : 0 < input.intent.amountAtomic)
    (authorized : authorizeAttempt env' outside now' id intent quote = .ok attempt) :
    ((∀ n ∈ quote.integers, n < 2 ^ 256) ↔ quote.grossPayerAmountAtomic < 2 ^ 256) ∧
    match attempt.authorization with
    | .onchain a =>
      a.settlementAmount = input.intent.amountAtomic ∧ Encodable a ∧
        PaymentRouterV2.Economical a ∧
        quote.grossPayerAmountAtomic = a.settlementAmount + a.platformFee
    | .cctp a =>
      a.settlementAmount = input.intent.amountAtomic ∧ CctpEncodable a ∧
        (∀ R : CctpPaymentRouter Token Scheme, R.self = attempt.routerAddress →
          outside.Reads attempt.sourceChainId R → R.Economical a) ∧
        ∃ live, getLiveCctpFee reply (finalityThreshold quote.route) a.settlementAmount =
            .ok live ∧
          ⌈((a.grossPayerAmount - a.platformFee : Nat) : ℚ) * live.minimumFeeBps.value / 10000⌉ ≤
            a.maxCctpFee := by
  have of := buildQuote_ok built
  obtain ⟨source, network, chainId, passed, repeats⟩ := authorizeAttempt_ok authorized
  refine ⟨of.integers_lt, ?_⟩
  have settlement := of.settlement
  have gross := of.gross
  split
  · rename_i a signed
    rw [signed] at repeats
    obtain ⟨sameChain, -, encodable, amount, fee⟩ := repeats
    have kept : quote.cctpFeeAtomic = 0 := by
      have := of.cctpFee
      rw [sameChain] at this
      exact (Except.ok.inj this).symm
    refine ⟨amount.trans settlement, encodable, ⟨?_, ?_⟩, ?_⟩
    · omega
    · rw [fee, amount]
      exact fee_le_cap of of.cap
    · omega
  · rename_i a signed
    rw [signed] at repeats
    obtain ⟨other, router, encodable, amount, grossAmount, fee, cctpFee⟩ := repeats
    refine ⟨amount.trans settlement, encodable, ?_, ?_⟩
    · intro R address reads
      rw [← chainId] at network passed reads
      rw [← address] at router
      have cap := feeBps_le_cap network passed other router reads
      refine ⟨by omega, ?_, by omega, by omega, by omega⟩
      rw [fee, amount]
      exact fee_le_cap of cap
    · obtain ⟨live, found, covers⟩ := cctpFee_covers other of.cctpFee
      have burned : a.grossPayerAmount - a.platformFee =
          input.intent.amountAtomic + quote.cctpFeeAtomic := by omega
      refine ⟨live, ?_, ?_⟩
      · rw [amount, settlement]
        exact found
      · rw [burned, cctpFee]
        exact covers

/-! A payment of ten dollars from Base Sepolia, at the live rate `1.3`. -/

def onePointThree : Binary64 where
  value := 5854679515581645 / 2 ^ 52
  rounded := by decide +kernel

def fastFinality : Binary64 where
  value := 1000
  rounded := by decide +kernel

def liveReply : CircleReply :=
  .fees [{ finalityThreshold := some (.finite fastFinality)
           minimumFee := some (.finite onePointThree) }]

def sepoliaBindings : Bindings where
  networks := paymentNetworks
  enabledChains := [421614, 84532, 43113]
  fees := { paymentFeePolicy := .ok freePolicy, platformFeeRecipient := none
            routerPreflightEnabled := true }
  authorizationTtlSeconds := some 600
  signer := some 31

def openIntent (requested : RequestedAmount) : PaymentIntent where
  id := 1
  merchantId := 2
  linkId := none
  idempotencyKey := none
  amountMode := .fixed
  reference := "Fee test"
  metadata := "{}"
  mode := .test
  settlementWallet := 0xa1
  settlementChainId := 421614
  settlementAccountVersion := 1
  expiresAt := none
  createdAt := 0
  amount := requested.decimal
  amountAtomic := requested.atomic
  status := .awaitingPayment
  paidAmountAtomic := 0
  paidTxHash := none
  paidAt := none

/-- A request to pay an amount from a chain. -/
def requestFrom (sourceChainId : ChainId) (requested : RequestedAmount) : QuoteRequest where
  intent := openIntent requested
  payer := 0xb2
  sourceChainId := sourceChainId
  requestedRoute := .auto

/-- The router of Base Sepolia. -/
def baseSepoliaRouter : CctpPaymentRouter (PlainToken Contracts.Address) Nat :=
  { CctpPaymentRouter.burnRouter with
    self := 0x961C08Bd5a11EFB7264B06d7f14a44FB4d9958Ba
    settlementChainId := 421614
    maxPlatformFeeBps := 0 }

/-- Signatures that are numbers, and routers that answer what the manifest says. -/
def testOutside : Outside Nat where
  uuidHash id := id.2
  stableMetadataHash _ := 0
  signPayment _ _ a := if Encodable a then some 0 else none
  signCctpPayment _ _ a := if CctpEncodable a then some 0 else none
  observe target := some
    { codePresent := true
      maxPlatformFeeBps := some 0
      usdc := some target.usdc
      treasury := none
      authorizationSigner := some 31
      paused := some false
      tokenMessenger := target.tokenMessenger
      settlementChainId := some target.settlementChainId
      fastTransferEnabled := target.fastTransferEnabled }
  encodable := by
    intro account domain a signature h
    exact (Option.ite_none_right_eq_some.1 h).1
  cctpEncodable := by
    intro account domain a signature h
    exact (Option.ite_none_right_eq_some.1 h).1

/-- Ten dollars. -/
def tenDollars : RequestedAmount where
  decimal := ⟨10, []⟩
  atomic := 10000000
  mode := .fixed
  parsed := by decide
  fixed_pos _ := by decide
  payerDefined_zero := nofun

/-- The quote of the payment. -/
def tenDollarQuote : Except EngineError PaymentQuote :=
  buildQuote sepoliaBindings 0 liveReply (requestFrom 84532 tenDollars)

/-- The attempt that is signed from a quote. -/
def tenDollarAttempt (quote : PaymentQuote) : Except EngineError (PaymentAttempt Nat) :=
  authorizeAttempt sepoliaBindings testOutside 1000 3 (openIntent tenDollars) quote

theorem quote_authorization_router_agree_baseSepolia :
    ∃ quote attempt a, tenDollarQuote = .ok quote ∧ tenDollarAttempt quote = .ok attempt ∧
      attempt.authorization = .cctp a ∧ a.maxCctpFee = 1560 ∧ baseSepoliaRouter.Economical a := by
  have quoted : (tenDollarQuote.map (·.cctpFeeAtomic)) = .ok 1560 := by decide +kernel
  have signed : (tenDollarQuote.bind fun quote => (tenDollarAttempt quote).map fun attempt =>
      (attempt.routerAddress, match attempt.authorization with
        | .onchain _ => none
        | .cctp a => some a.maxCctpFee)) =
      .ok (baseSepoliaRouter.self, some 1560) := by decide +kernel
  cases built : tenDollarQuote with
  | error e =>
    rw [built] at quoted
    cases quoted
  | ok quote =>
    rw [built] at signed
    cases authorized : tenDollarAttempt quote with
    | error e =>
      simp [Except.bind, Except.map, authorized] at signed
    | ok attempt =>
      have agree := @quote_authorization_router_agree _ _ _ _ _ _ _ _
        (PlainToken Contracts.Address) Nat _ _ _ _ built (by decide) authorized
      simp only [Except.bind, Except.map, authorized, Except.ok.injEq, Prod.mk.injEq] at signed
      cases authorization : attempt.authorization with
      | onchain a =>
        rw [authorization] at signed
        cases signed.2
      | cctp a =>
        rw [authorization] at signed agree
        refine ⟨quote, attempt, a, rfl, authorized, authorization, Option.some.inj signed.2, ?_⟩
        refine agree.2.2.2.1 baseSepoliaRouter signed.1.symm ?_
        intro target observation chainId address observed
        cases observed
        rfl

/-- An amount of eighty-one digits. -/
def longAmount : RequestedAmount where
  decimal := ⟨10 ^ 80, []⟩
  atomic := 10 ^ 86
  mode := .fixed
  parsed := by norm_num [parseUnits]
  fixed_pos _ := by positivity
  payerDefined_zero := nofun

/-- An amount of any length is accepted and quoted. -/
theorem quote_exceeds_uint256 :
    amount ⟨10 ^ 80, []⟩ = .ok longAmount ∧
      ∃ quote, buildQuote sepoliaBindings 0 .unreachable (requestFrom 421614 longAmount) =
        .ok quote ∧ 2 ^ 256 ≤ quote.grossPayerAmountAtomic := by
  refine ⟨by norm_num [amount, longAmount, parseUnits], ?_⟩
  have built : (buildQuote sepoliaBindings 0 .unreachable (requestFrom 421614 longAmount)).map
      (·.grossPayerAmountAtomic) = .ok (10 ^ 86) := by decide +kernel
  cases quoted : buildQuote sepoliaBindings 0 .unreachable (requestFrom 421614 longAmount) with
  | error e =>
    rw [quoted] at built
    cases built
  | ok quote =>
    rw [quoted] at built
    refine ⟨quote, rfl, ?_⟩
    rw [show quote.grossPayerAmountAtomic = 10 ^ 86 from Except.ok.inj built]
    norm_num

end ParmeliaLinks.Payments.QuoteEngine
