/-
ParmeliaLinks/Payments/Settlement.lean

The batches that pay an intent.  `Settlement.compute` is what `settleAttempt`
works out from the attempt and the intent it has read: the expected amount, the
new total, the status, the event.  `Db.settleAttempt` is the batch it then
submits.  Its first statement inserts the commit row, under the condition that
the intent still has the total that was read and the attempt is still open;
every later statement runs only if that row exists, so the row is the marker of
a successful compare-and-set.

`Db.simulatePaymentIntent` is the batch of the sandbox: it pays an intent that
awaits payment without an attempt.
-/
import ParmeliaLinks.Payments.Statements

namespace ParmeliaLinks.Payments

/-! ### Fee breakdowns -/

/-- The fees that were actually charged for an attempt. -/
def actualFeeBreakdown (attempt : AttemptTerms) (platformActual networkActual : Nat) :
    PaymentFeeBreakdown where
  platform :=
    { type := .platform, bearer := attempt.platformFeeBearer
      quotedAmountAtomic := attempt.platformFeeAtomic
      actualAmountAtomic := some platformActual
      recipient := attempt.platformFeeRecipient
      status := if platformActual = 0 then .waived else .charged
      policyId := attempt.feePolicyId, policyVersion := attempt.feePolicyVersion
      ruleId := attempt.feeRuleId }
  network :=
    { type := .network, bearer := if networkActual = 0 then .none else .payer
      quotedAmountAtomic := attempt.cctpFeeAtomic
      actualAmountAtomic := some networkActual
      recipient := none
      status := if networkActual = 0 then .waived else .charged
      policyId := "circle-cctp-v2", policyVersion := 1, ruleId := attempt.route.text }
  totalQuotedAtomic := attempt.platformFeeAtomic + attempt.cctpFeeAtomic
  totalActualAtomic := some (platformActual + networkActual)

/-- The fees of a sandbox payment. -/
def freeFeeBreakdown : PaymentFeeBreakdown :=
  let freeLine (type : FeeType) (policyId : String) : PaymentFeeLine :=
    { type, bearer := .none, quotedAmountAtomic := 0, actualAmountAtomic := some 0
      recipient := none, status := .waived, policyId, policyVersion := 1
      ruleId := "free-default" }
  { platform := freeLine .platform "free-default", network := freeLine .network "sandbox"
    totalQuotedAtomic := 0, totalActualAtomic := some 0 }

/-- What the public interface shows of an intent: an open amount stays hidden
until it is paid. -/
def publicIntent (intent : PaymentIntent) : PublicIntent :=
  let unconfirmedOpenAmount := intent.amountMode == .payerDefined && intent.paidAmountAtomic == 0
  let publicAmountAtomic := if unconfirmedOpenAmount then 0 else intent.amountAtomic
  { id := intent.id
    amount := if unconfirmedOpenAmount then .zero else intent.amount
    amountAtomic := publicAmountAtomic
    amountMode := intent.amountMode
    reference := intent.reference, metadata := intent.metadata
    status := intent.status, mode := intent.mode
    txHash := intent.paidTxHash, paidAt := intent.paidAt
    paidAmountAtomic := intent.paidAmountAtomic
    overpaidAmountAtomic := intent.paidAmountAtomic - publicAmountAtomic
    settlementChainId := intent.settlementChainId
    expiresAt := intent.expiresAt, createdAt := intent.createdAt }

/-! ### What a settlement writes -/

/-- The evidence handed to `settleAttempt`. -/
structure SettleInput where
  attemptId : AttemptId
  sourceTxHash : Hash
  destinationTxHash : Option Hash
  settledAmountAtomic : Nat
  payerAddress : Address
  platformFeeAtomic : Option Nat
  networkFeeAtomic : Option Nat

/-- The values bound to the statements of a settlement batch. -/
structure Settlement where
  attempt : PaymentAttempt
  intent : PaymentIntent
  previousPaid : Nat
  settledAmount : Nat
  expected : Nat
  paid : Nat
  /-- The status is `overpaid` when this holds, and `paid` otherwise. -/
  exceeds : Bool
  canonicalAmount : DecimalText
  sourceTxHash : Hash
  destinationTxHash : Option Hash
  payerAddress : Address
  fees : PaymentFeeBreakdown

namespace Settlement

variable (s : Settlement)

/-- What `settleAttempt` works out from the rows it has read.  The first payment
of an open amount is expected to be what its attempt was signed for. -/
def compute (input : SettleInput) (attempt : PaymentAttempt) (intent : PaymentIntent)
    (fees : PaymentFeeBreakdown) : Settlement :=
  let previousPaid := intent.paidAmountAtomic
  let firstOpenSettlement := intent.amountMode == .payerDefined && previousPaid == 0
  let expected :=
    if firstOpenSettlement then attempt.settlementAmountAtomic else intent.amountAtomic
  let paid := previousPaid + input.settledAmountAtomic
  { attempt, intent, previousPaid, settledAmount := input.settledAmountAtomic, expected, paid
    exceeds := expected < paid
    canonicalAmount := if firstOpenSettlement then formatUnits expected 6 else intent.amount
    sourceTxHash := input.sourceTxHash, destinationTxHash := input.destinationTxHash
    payerAddress := input.payerAddress, fees }

def attemptStatus : AttemptStatus := if s.exceeds then .overpaid else .paid

def intentStatus : IntentStatus := if s.exceeds then .overpaid else .paid

def eventType : EventType := if s.exceeds then .paymentOverpaid else .paymentPaid

def eventId : EventId := .settlement s.attempt.id

def settlementTxHash : Hash := s.destinationTxHash.getD s.sourceTxHash

/-- The row of `payment_settlement_commits`. -/
def commit (commitId : CommitId) (timestamp : Timestamp) : SettlementCommit where
  commitId := commitId
  attemptId := s.attempt.id
  intentId := s.intent.id
  previousPaidAmountAtomic := s.previousPaid
  settledAmountAtomic := s.settledAmount
  resultingPaidAmountAtomic := s.paid
  expectedAmountAtomic := s.expected
  overpaid := s.exceeds
  createdAt := timestamp

def payload : SettlementPayload where
  id := s.intent.id
  status := s.intentStatus
  amount := s.canonicalAmount
  reference := s.intent.reference
  metadata := s.intent.metadata
  expectedAmountAtomic := s.expected
  settledAmountAtomic := s.settledAmount
  paidAmountAtomic := s.paid
  overpaidAmountAtomic := s.paid - s.expected
  sourceTxHash := s.sourceTxHash
  destinationTxHash := s.destinationTxHash
  feeBreakdown := s.fees

def event (timestamp : Timestamp) : EventRow where
  id := s.eventId
  merchantId := s.intent.merchantId
  type := s.eventType
  objectId := s.intent.id
  dedupeKey := some (.settlement s.attempt.id)
  mode := s.intent.mode
  payload := .settlement s.payload
  createdAt := timestamp

/-- `status = ?, source_tx_hash = COALESCE(…), destination_tx_hash = COALESCE(…),
settled_amount_atomic = ?`. -/
def settleAttemptRow (a : PaymentAttempt) : PaymentAttempt :=
  { a with
    status := s.attemptStatus
    sourceTxHash := a.sourceTxHash <|> some s.sourceTxHash
    destinationTxHash := a.destinationTxHash <|> s.destinationTxHash
    settledAmountAtomic := s.settledAmount }

def settleIntentRow (timestamp : Timestamp) (i : PaymentIntent) : PaymentIntent :=
  { i with
    amount := s.canonicalAmount
    amountAtomic := s.expected
    status := s.intentStatus
    paidAmountAtomic := s.paid
    paidTxHash := i.paidTxHash <|> some (.onchain s.settlementTxHash)
    paidAt := i.paidAt <|> some timestamp }

def settleLinkRow (timestamp : Timestamp) (l : PaymentLink) : PaymentLink :=
  { l with
    amount := if l.amount = .zero then s.canonicalAmount else l.amount
    status := .paid
    txHash := l.txHash <|> some (.onchain s.settlementTxHash)
    paidAt := l.paidAt <|> some timestamp
    paidBy := l.paidBy <|> some (.payer s.payerAddress) }

end Settlement

namespace Db

variable (db : Db)

/-- The intent statuses under which a payment is accounted. -/
def accountable : IntentStatus → Bool
  | .awaitingPayment | .processing | .paid | .overpaid | .canceled => true
  | _ => false

/-- The condition of the first statement: the intent has the total that was
read, and the attempt belongs to it and is still open. -/
def settleable (s : Settlement) : Bool :=
  (db.intents.any fun i => i.id == s.intent.id && i.paidAmountAtomic == s.previousPaid &&
    accountable i.status) &&
  (db.attempts.any fun a => a.id == s.attempt.id && a.intentId == s.intent.id && a.status.active)

/-- `INSERT OR IGNORE INTO payment_settlement_commits … WHERE EXISTS …`. -/
def insertCommit (s : Settlement) (commitId : CommitId) (timestamp : Timestamp) :
    Table SettlementCommit :=
  if db.settleable s && (s.commit commitId timestamp).checked then
    db.commits.insertOrIgnore (s.commit commitId timestamp)
  else db.commits

/-- The batch of `settleAttempt`, and whether its first statement inserted a row. -/
def settleAttempt (s : Settlement) (commitId : CommitId) (timestamp : Timestamp)
    (endpoints : List EndpointId) : Option (Bool × Db) := do
  let commits := db.insertCommit s commitId timestamp
  let commitExists := commits.any (·.commitId == commitId)
  let attempts ← db.attempts.update (fun a => a.id == s.attempt.id && commitExists)
    s.settleAttemptRow
  let intents := db.intents.modify (fun i => i.id == s.intent.id && commitExists)
    (s.settleIntentRow timestamp) ⟨fun _ _ => rfl⟩
  let links := db.links.modify (fun l => l.intentId == s.intent.id && commitExists)
    (s.settleLinkRow timestamp) ⟨fun _ _ => rfl⟩
  let events := if commitExists then db.events.insertOrIgnore (s.event timestamp) else db.events
  let outbox := if commitExists then
      db.outbox.insertOrIgnore
        { resourceId := s.eventId, nextAttemptAt := timestamp, createdAt := timestamp }
    else db.outbox
  let deliveries := if commitExists then deliver db.deliveries s.eventId timestamp endpoints
    else db.deliveries
  return (db.commits.rows.length < commits.rows.length,
    { db with commits, attempts, intents, links, events, outbox, deliveries })

/-- An intent that the sandbox may pay. -/
def simulatable (merchantId : MerchantId) (id : IntentId) (i : PaymentIntent) : Bool :=
  i.id == id && i.merchantId == merchantId && i.mode == .test && i.status == .awaitingPayment

/-- The batch of `simulatePaymentIntent` for the intent that was read, and whether
its first statement found the intent.  The statements after the first two do not
depend on it. -/
def simulatePaymentIntent (merchantId : MerchantId) (intent : PaymentIntent)
    (timestamp : Timestamp) (endpoints : List EndpointId) : Bool × Db :=
  let txHash := PaidTx.sandbox intent.id
  let intents := db.intents.modify (simulatable merchantId intent.id)
    (fun i => { i with
      status := .paid, paidAmountAtomic := i.amountAtomic
      paidTxHash := some txHash, paidAt := some timestamp }) ⟨fun _ _ => rfl⟩
  let links := db.links.modify (fun l => l.intentId == intent.id && l.status == .pending)
    (fun l => { l with
      status := .paid, txHash := some txHash, paidAt := some timestamp
      paidBy := some .sandbox }) ⟨fun _ _ => rfl⟩
  let eventId := EventId.sandbox intent.id
  let payload := { publicIntent intent with
    status := .paid, txHash := some txHash, paidAmountAtomic := intent.amountAtomic
    paidAt := some timestamp }
  let events := db.events.insertOrIgnore
    { id := eventId, merchantId, type := .paymentPaid, objectId := intent.id
      dedupeKey := some (.sandboxPaid intent.id), mode := .test
      payload := .sandbox payload freeFeeBreakdown, createdAt := timestamp }
  let outbox := db.outbox.insertOrIgnore
    { resourceId := eventId, nextAttemptAt := timestamp, createdAt := timestamp }
  let deliveries := deliver db.deliveries eventId timestamp endpoints
  (0 < db.intents.changes (simulatable merchantId intent.id),
    { db with intents, links, events, outbox, deliveries })

end Db

end ParmeliaLinks.Payments
