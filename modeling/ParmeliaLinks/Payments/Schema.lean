/-
ParmeliaLinks/Payments/Schema.lean

The tables of the payments database, as the migrations declare them.  Every
row type is paired with its uniqueness constraints (`Row`), so a `Table` of
rows is one the database engine would accept.

Identifiers, addresses and hashes are numbers: the worker only compares them,
and always after lowering their case.  Identifiers that the worker derives from
others (`evt_<attempt>`, `settlement:<attempt>`, `sandbox_<intent>`) are
constructors applied to the identifier they contain.  Intents, links and attempts
keep what they were created with (`IntentTerms`, `LinkTerms`, `AttemptTerms`)
apart from the columns that their life cycle changes.
-/
import ParmeliaLinks.Lib.Table
import ParmeliaLinks.Payments.Amounts

namespace ParmeliaLinks.Payments

abbrev MerchantId := Nat
abbrev IntentId := Nat
abbrev LinkId := Nat
abbrev QuoteId := Nat
abbrev AttemptId := Nat
abbrev CommitId := Nat
abbrev EndpointId := Nat
abbrev CommandId := Nat
abbrev Uid := Nat
abbrev ChainId := Nat
abbrev Address := Nat
abbrev Hash := Nat
/-- Milliseconds since the epoch. -/
abbrev Timestamp := Nat

/-! ### Enumerations -/

inductive Mode | test | live
  deriving DecidableEq

inductive IntentStatus
  | awaitingPayment | processing | paid | overpaid | canceled | expired | failed
  deriving DecidableEq

inductive LinkStatus | pending | paid | canceled | expired
  deriving DecidableEq

inductive PaymentRoute | sameChain | cctpFast | cctpStandard
  deriving DecidableEq

inductive AttemptStatus
  | reserved | submitted | processing | paid | overpaid | failed | expired | canceled
  deriving DecidableEq

inductive FeeBearer | none | payer
  deriving DecidableEq

inductive FeeType | platform | network
  deriving DecidableEq

inductive FeeStatus | quoted | waived | charged
  deriving DecidableEq

inductive EventType | paymentCreated | paymentPaid | paymentOverpaid
  deriving DecidableEq

inductive EndpointStatus | active | disabled
  deriving DecidableEq

/-- The text of a route, as stored in the `route` columns. -/
def PaymentRoute.text : PaymentRoute → String
  | .sameChain => "local"
  | .cctpFast => "cctp_fast"
  | .cctpStandard => "cctp_standard"

/-- `status IN ('reserved','submitted','processing')`. -/
def AttemptStatus.active : AttemptStatus → Bool
  | .reserved | .submitted | .processing => true
  | _ => false

/-- `status IN ('paid','overpaid')`. -/
def AttemptStatus.settled : AttemptStatus → Bool
  | .paid | .overpaid => true
  | _ => false

/-! ### Derived identifiers -/

/-- `evt_created_<intent>`, `evt_<attempt>`, `evt_sandbox_<intent>`. -/
inductive EventId
  | created (intent : IntentId)
  | settlement (attempt : AttemptId)
  | sandbox (intent : IntentId)
  deriving DecidableEq

/-- `intent:<intent>:created`, `settlement:<attempt>`, `sandbox:<intent>:paid`. -/
inductive DedupeKey
  | intentCreated (intent : IntentId)
  | settlement (attempt : AttemptId)
  | sandboxPaid (intent : IntentId)
  deriving DecidableEq

/-- The transaction that paid: one on a chain, or `sandbox_<intent>`. -/
inductive PaidTx
  | onchain (hash : Hash)
  | sandbox (intent : IntentId)
  deriving DecidableEq

/-- Who paid: an address, or `sandbox`. -/
inductive PaidBy
  | payer (address : Address)
  | sandbox
  deriving DecidableEq

/-! ### Intents and links -/

/-- What an intent was created with.  No statement writes these columns again. -/
structure IntentTerms where
  id : IntentId
  merchantId : MerchantId
  linkId : Option LinkId
  idempotencyKey : Option String
  amountMode : AmountMode
  reference : String
  metadata : String
  mode : Mode
  settlementWallet : Address
  settlementChainId : ChainId
  settlementAccountVersion : Nat
  expiresAt : Option Timestamp
  createdAt : Timestamp

structure PaymentIntent extends IntentTerms where
  amount : DecimalText
  amountAtomic : Nat
  status : IntentStatus
  paidAmountAtomic : Nat
  paidTxHash : Option PaidTx
  paidAt : Option Timestamp

/-- Primary key, `idx_intents_link_id` and `idx_intents_merchant_idempotency`. -/
instance : Row PaymentIntent where
  clash r r' := r.id == r'.id || sameValue r.linkId r'.linkId ||
    (r.merchantId == r'.merchantId && sameValue r.idempotencyKey r'.idempotencyKey)
  clash_comm r r' := by
    simp only [Bool.beq_comm (a := r.id), Bool.beq_comm (a := r.merchantId),
      sameValue_comm r.linkId, sameValue_comm r.idempotencyKey]

/-- What a link was created with.  No statement writes these columns again. -/
structure LinkTerms where
  id : LinkId
  intentId : IntentId
  merchantId : MerchantId
  ownerUid : Uid
  wallet : Address
  reference : String
  createdAt : Timestamp

structure PaymentLink extends LinkTerms where
  amount : DecimalText
  status : LinkStatus
  txHash : Option PaidTx
  paidAt : Option Timestamp
  paidBy : Option PaidBy

instance : Row PaymentLink where
  clash r r' := r.id == r'.id || r.intentId == r'.intentId
  clash_comm r r' := by
    simp only [Bool.beq_comm (a := r.id), Bool.beq_comm (a := r.intentId)]

/-! ### Quotes and attempts -/

structure PaymentQuote where
  id : QuoteId
  intentId : IntentId
  quoteHash : Hash

instance : Row PaymentQuote where
  clash r r' := r.id == r'.id || r.quoteHash == r'.quoteHash
  clash_comm r r' := by
    simp only [Bool.beq_comm (a := r.id), Bool.beq_comm (a := r.quoteHash)]

/-- What an attempt was created with.  No statement writes these columns again. -/
structure AttemptTerms where
  id : AttemptId
  attemptHash : Hash
  intentId : IntentId
  quoteId : QuoteId
  payerUid : Option Uid
  payerAddress : Address
  idempotencyKey : String
  sourceChainId : ChainId
  route : PaymentRoute
  routerAddress : Address
  authorizationHash : Hash
  /-- The field `intentId` of the signed authorization. -/
  authorizationIntentId : Hash
  signature : Hash
  checkoutCapabilityHash : Option Hash
  payerProofSignature : Option Hash
  payerProofMessageHash : Option Hash
  /-- Seconds, as on chain. -/
  validAfter : Nat
  /-- Seconds, as on chain. -/
  validUntil : Nat
  settlementAmountAtomic : Nat
  platformFeeAtomic : Nat
  cctpFeeAtomic : Nat
  grossPayerAmountAtomic : Nat
  feePolicyId : String
  feePolicyVersion : Nat
  feeRuleId : String
  platformFeeBps : Nat
  platformFeeBearer : FeeBearer
  platformFeeRecipient : Option Address
  routeFeeCapBps : Nat
  createdAt : Timestamp

structure PaymentAttempt extends AttemptTerms where
  status : AttemptStatus
  userOpHash : Option Hash
  sourceTxHash : Option Hash
  destinationTxHash : Option Hash
  settledAmountAtomic : Nat
  lastErrorCode : Option String

/-- Primary key, the unique hashes, `idx_attempts_user_op_hash`,
`idx_attempts_source_tx_hash` and `idx_attempts_request_idempotency`. -/
instance : Row PaymentAttempt where
  clash r r' := r.id == r'.id || r.attemptHash == r'.attemptHash ||
    r.authorizationHash == r'.authorizationHash || sameValue r.userOpHash r'.userOpHash ||
    (r.sourceChainId == r'.sourceChainId && sameValue r.sourceTxHash r'.sourceTxHash) ||
    (r.intentId == r'.intentId && r.payerAddress == r'.payerAddress &&
      r.sourceChainId == r'.sourceChainId && r.idempotencyKey == r'.idempotencyKey)
  clash_comm r r' := by
    simp only [Bool.beq_comm (a := r.id), Bool.beq_comm (a := r.attemptHash),
      Bool.beq_comm (a := r.authorizationHash), sameValue_comm r.userOpHash,
      Bool.beq_comm (a := r.sourceChainId), sameValue_comm r.sourceTxHash,
      Bool.beq_comm (a := r.intentId), Bool.beq_comm (a := r.payerAddress),
      Bool.beq_comm (a := r.idempotencyKey)]

/-- `app_execution_commands`. -/
structure ExecutionCommand where
  commandId : CommandId
  attemptId : AttemptId
  userOpHash : Hash
  createdAt : Timestamp

instance : Row ExecutionCommand where
  clash r r' := r.commandId == r'.commandId
  clash_comm _ _ := Bool.beq_comm

/-! ### Settlement commits -/

/-- `payment_settlement_commits`: one row per accounted payment. -/
structure SettlementCommit where
  commitId : CommitId
  attemptId : AttemptId
  intentId : IntentId
  previousPaidAmountAtomic : Nat
  settledAmountAtomic : Nat
  resultingPaidAmountAtomic : Nat
  expectedAmountAtomic : Nat
  /-- `paid` or `overpaid`. -/
  overpaid : Bool
  createdAt : Timestamp

instance : Row SettlementCommit where
  clash r r' := r.commitId == r'.commitId || r.attemptId == r'.attemptId
  clash_comm r r' := by
    simp only [Bool.beq_comm (a := r.commitId), Bool.beq_comm (a := r.attemptId)]

/-- `length(…) BETWEEN 1 AND 78` on every amount column of a commit. -/
def SettlementCommit.checked (c : SettlementCommit) : Bool :=
  c.previousPaidAmountAtomic < 10 ^ 78 && c.settledAmountAtomic < 10 ^ 78 &&
    c.resultingPaidAmountAtomic < 10 ^ 78 && c.expectedAmountAtomic < 10 ^ 78

/-! ### Fees -/

/-- One line of a fee breakdown, and the columns of `payment_fee_ledger` it is read from. -/
structure PaymentFeeLine where
  type : FeeType
  bearer : FeeBearer
  quotedAmountAtomic : Nat
  actualAmountAtomic : Option Nat
  recipient : Option Address
  status : FeeStatus
  policyId : String
  policyVersion : Nat
  ruleId : String

structure PaymentFeeBreakdown where
  platform : PaymentFeeLine
  network : PaymentFeeLine
  totalQuotedAtomic : Nat
  totalActualAtomic : Option Nat

structure FeeLedgerRow extends PaymentFeeLine where
  attemptId : AttemptId
  intentId : IntentId
  sourceChainId : ChainId
  route : PaymentRoute
  chargedTxHash : Option Hash
  createdAt : Timestamp

/-- The identifier `fee_<attempt>_<type>` and `idx_payment_fee_ledger_attempt_type`
are one key. -/
instance : Row FeeLedgerRow where
  clash r r' := r.attemptId == r'.attemptId && r.type == r'.type
  clash_comm r r' := by
    simp only [Bool.beq_comm (a := r.attemptId), Bool.beq_comm (a := r.type)]

/-! ### Events, outbox and webhook deliveries -/

/-- What the public interface shows of an intent. -/
structure PublicIntent where
  id : IntentId
  amount : DecimalText
  amountAtomic : Nat
  amountMode : AmountMode
  reference : String
  metadata : String
  status : IntentStatus
  mode : Mode
  txHash : Option PaidTx
  paidAt : Option Timestamp
  paidAmountAtomic : Nat
  overpaidAmountAtomic : Nat
  settlementChainId : ChainId
  expiresAt : Option Timestamp
  createdAt : Timestamp

/-- The payload of a settlement event. -/
structure SettlementPayload where
  id : IntentId
  status : IntentStatus
  amount : DecimalText
  reference : String
  metadata : String
  expectedAmountAtomic : Nat
  settledAmountAtomic : Nat
  paidAmountAtomic : Nat
  overpaidAmountAtomic : Nat
  sourceTxHash : Hash
  destinationTxHash : Option Hash
  feeBreakdown : PaymentFeeBreakdown

inductive EventPayload
  | created (intent : PublicIntent)
  | settlement (payload : SettlementPayload)
  | sandbox (intent : PublicIntent) (feeBreakdown : PaymentFeeBreakdown)

structure EventRow where
  id : EventId
  merchantId : MerchantId
  type : EventType
  objectId : IntentId
  dedupeKey : Option DedupeKey
  mode : Mode
  payload : EventPayload
  createdAt : Timestamp

instance : Row EventRow where
  clash r r' := r.id == r'.id ||
    (r.merchantId == r'.merchantId && sameValue r.dedupeKey r'.dedupeKey)
  clash_comm r r' := by
    simp only [Bool.beq_comm (a := r.id), Bool.beq_comm (a := r.merchantId),
      sameValue_comm r.dedupeKey]

/-- `payment_outbox`, topic `webhook_delivery`: the row `out_<event>` for the
event, so that its identifier and its logical key are one key. -/
structure OutboxRow where
  resourceId : EventId
  nextAttemptAt : Timestamp
  createdAt : Timestamp

instance : Row OutboxRow where
  clash r r' := r.resourceId == r'.resourceId
  clash_comm _ _ := Bool.beq_comm

structure WebhookEndpoint where
  id : EndpointId
  merchantId : MerchantId
  mode : Mode
  /-- `NULL` enables every event. -/
  enabledEvents : Option (List EventType)
  status : EndpointStatus

instance : Row WebhookEndpoint where
  clash r r' := r.id == r'.id
  clash_comm _ _ := Bool.beq_comm

/-- The endpoint takes events of this merchant, mode and type. -/
def WebhookEndpoint.subscribed (e : WebhookEndpoint) (merchantId : MerchantId) (mode : Mode)
    (type : EventType) : Bool :=
  e.merchantId == merchantId && e.status == .active && e.mode == mode &&
    (match e.enabledEvents with
      | none => true
      | some types => types.contains type)

/-- `webhook_deliveries`: the row `whd_<event>_<endpoint>`. -/
structure DeliveryRow where
  eventId : EventId
  endpointId : EndpointId
  nextRetryAt : Timestamp
  createdAt : Timestamp

instance : Row DeliveryRow where
  clash r r' := r.eventId == r'.eventId && r.endpointId == r'.endpointId
  clash_comm r r' := by
    simp only [Bool.beq_comm (a := r.eventId), Bool.beq_comm (a := r.endpointId)]

/-! ### The database -/

structure Db where
  intents : Table PaymentIntent
  links : Table PaymentLink
  quotes : Table PaymentQuote
  attempts : Table PaymentAttempt
  commands : Table ExecutionCommand
  commits : Table SettlementCommit
  feeLedger : Table FeeLedgerRow
  events : Table EventRow
  outbox : Table OutboxRow
  endpoints : Table WebhookEndpoint
  deliveries : Table DeliveryRow

/-- The database before any request. -/
def Db.initial : Db where
  intents := .empty
  links := .empty
  quotes := .empty
  attempts := .empty
  commands := .empty
  commits := .empty
  feeLedger := .empty
  events := .empty
  outbox := .empty
  endpoints := .empty
  deliveries := .empty

end ParmeliaLinks.Payments
