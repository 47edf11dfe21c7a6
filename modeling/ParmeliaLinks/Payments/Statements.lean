/-
ParmeliaLinks/Payments/Statements.lean

The writes of the payments repository, as functions on the database.  Each one
is a single statement or a single batch, and so one atomic step.  A batch runs
its statements in order, each on the tables that the previous one left; a
constraint violation aborts the whole batch, which is `none` here.  The
functions are named after the repository function they belong to.

Where an update touches no unique key the statement cannot fail, and the table
says so (`Table.modify`); the two columns under a unique index that are written
later, `source_tx_hash` and `user_op_hash`, go through `Table.update`.
-/
import ParmeliaLinks.Payments.Schema

namespace ParmeliaLinks.Payments

/-! ### New intents -/

structure Merchant where
  id : MerchantId
  ownerUid : Uid
  settlementWallet : Address
  settlementChainId : ChainId
  accountVersion : Nat

structure CreateIntentInput where
  merchant : Merchant
  amount : RequestedAmount
  reference : String
  metadata : String
  expiresAt : Timestamp
  idempotencyKey : Option String
  mode : Mode
  intentId : Option IntentId
  linkId : Option LinkId

/-- What `createIntentAndLink` inserts. -/
structure NewIntent where
  intent : PaymentIntent
  link : PaymentLink
  event : EventRow

/-- The rows of a new intent. -/
def CreateIntentInput.rows (input : CreateIntentInput) (intentId : IntentId) (linkId : LinkId)
    (timestamp : Timestamp) : NewIntent :=
  let intent : PaymentIntent :=
    { id := intentId, merchantId := input.merchant.id, linkId := some linkId
      idempotencyKey := input.idempotencyKey
      amount := input.amount.decimal, amountAtomic := input.amount.atomic
      amountMode := input.amount.mode
      reference := input.reference, metadata := input.metadata, mode := input.mode
      status := .awaitingPayment
      settlementWallet := input.merchant.settlementWallet
      settlementChainId := input.merchant.settlementChainId
      settlementAccountVersion := input.merchant.accountVersion
      paidAmountAtomic := 0, paidTxHash := none, paidAt := none
      expiresAt := some input.expiresAt, createdAt := timestamp }
  { intent
    link :=
      { id := linkId, intentId := intentId, merchantId := input.merchant.id
        ownerUid := input.merchant.ownerUid, wallet := input.merchant.settlementWallet
        amount := input.amount.decimal, reference := input.reference, status := .pending
        txHash := none, paidAt := none, paidBy := none, createdAt := timestamp }
    event :=
      { id := .created intentId, merchantId := input.merchant.id, type := .paymentCreated
        objectId := intentId, dedupeKey := some (.intentCreated intentId), mode := input.mode
        payload := .created
          { id := intentId, amount := input.amount.decimal, amountAtomic := input.amount.atomic
            amountMode := input.amount.mode, reference := input.reference
            metadata := input.metadata, status := .awaitingPayment, mode := input.mode
            txHash := none, paidAt := none, paidAmountAtomic := 0, overpaidAmountAtomic := 0
            settlementChainId := input.merchant.settlementChainId
            expiresAt := some input.expiresAt, createdAt := timestamp }
        createdAt := timestamp } }

namespace Db

variable (db : Db)

/-! ### Intents and links -/

/-- Deliver an event to the endpoints, skipping the ones that have it. -/
def deliver (deliveries : Table DeliveryRow) (event : EventId) (timestamp : Timestamp)
    (endpoints : List EndpointId) : Table DeliveryRow :=
  endpoints.foldl
    (fun t e => t.insertOrIgnore
      { eventId := event, endpointId := e, nextRetryAt := timestamp, createdAt := timestamp })
    deliveries

/-- Insert the intent, its link, its event, the outbox row and one delivery for
each endpoint that takes the event. -/
def createIntentAndLink (n : NewIntent) : Option Db := do
  let intents ← db.intents.insert n.intent
  let links ← db.links.insert n.link
  let events ← db.events.insert n.event
  let outbox ← db.outbox.insert
    { resourceId := n.event.id, nextAttemptAt := n.event.createdAt, createdAt := n.event.createdAt }
  let endpoints := db.endpoints.filter fun e =>
    e.subscribed n.intent.merchantId n.intent.mode .paymentCreated
  let deliveries := deliver db.deliveries n.event.id n.event.createdAt (endpoints.map (·.id))
  return { db with intents, links, events, outbox, deliveries }

/-- Cancel an intent that still awaits payment, and its link with it. -/
def cancelPaymentIntent (merchantId : MerchantId) (id : IntentId) : Bool × Db :=
  let awaiting (i : PaymentIntent) :=
    i.id == id && i.merchantId == merchantId && i.status == .awaitingPayment
  let intents := db.intents.modify awaiting ({ · with status := .canceled }) ⟨fun _ _ => rfl⟩
  let canceled := intents.any fun i => i.id == id && i.status == .canceled
  let links := db.links.modify (fun l => l.intentId == id && canceled)
    ({ · with status := .canceled }) ⟨fun _ _ => rfl⟩
  (0 < db.intents.changes awaiting, { db with intents, links })

/-! ### Attempts -/

/-- `payment_attempt_matches_payable_intent`: the intent of a new attempt must
await payment and, when its amount is fixed, match it. -/
def matchesPayableIntent (a : AttemptTerms) : Bool :=
  db.intents.any fun i => i.id == a.intentId && i.status == .awaitingPayment &&
    ((i.amountMode == .fixed && i.amountAtomic == a.settlementAmountAtomic) ||
      (i.amountMode == .payerDefined && i.paidAmountAtomic == 0))

/-- The two fee lines of a new attempt. -/
def feeLedgerRows (a : AttemptTerms) : List FeeLedgerRow :=
  [{ type := .platform, bearer := a.platformFeeBearer
     quotedAmountAtomic := a.platformFeeAtomic
     actualAmountAtomic := if a.platformFeeAtomic = 0 then some 0 else none
     recipient := a.platformFeeRecipient
     status := if a.platformFeeAtomic = 0 then .waived else .quoted
     policyId := a.feePolicyId, policyVersion := a.feePolicyVersion, ruleId := a.feeRuleId
     attemptId := a.id, intentId := a.intentId, sourceChainId := a.sourceChainId
     route := a.route, chargedTxHash := none, createdAt := a.createdAt },
   { type := .network, bearer := if a.cctpFeeAtomic = 0 then .none else .payer
     quotedAmountAtomic := a.cctpFeeAtomic
     actualAmountAtomic := if a.cctpFeeAtomic = 0 then some 0 else none
     recipient := none
     status := if a.cctpFeeAtomic = 0 then .waived else .quoted
     policyId := "circle-cctp-v2", policyVersion := 1, ruleId := a.route.text
     attemptId := a.id, intentId := a.intentId, sourceChainId := a.sourceChainId
     route := a.route, chargedTxHash := none, createdAt := a.createdAt }]

/-- `INSERT INTO payment_quotes`; the intent must exist. -/
def insertQuote (q : PaymentQuote) : Option Db := do
  guard (db.intents.any (·.id == q.intentId))
  let quotes ← db.quotes.insert q
  return { db with quotes }

/-- Insert an attempt with its fee lines; its quote must exist. -/
def insertAttempt (a : AttemptTerms) : Option Db := do
  guard (db.matchesPayableIntent a)
  guard (db.quotes.any (·.id == a.quoteId))
  let attempts ← db.attempts.insert
    { toAttemptTerms := a, status := .reserved, userOpHash := none, sourceTxHash := none
      destinationTxHash := none, settledAmountAtomic := 0, lastErrorCode := none }
  let feeLedger := (feeLedgerRows a).foldl Table.insertOrIgnore db.feeLedger
  return { db with attempts, feeLedger }

/-- The batch of `insertQuoteAndAttempt`. -/
def insertQuoteAndAttempt (q : PaymentQuote) (a : AttemptTerms) : Option Db := do
  let db ← db.insertQuote q
  db.insertAttempt a

/-- Start processing an attempt that is still open, and keep its source transaction. -/
def markAttemptProcessing (id : AttemptId) (sourceTxHash : Hash) : Option Db := do
  let attempts ← db.attempts.update (fun a => a.id == id) fun a =>
    { a with
      status := if a.status == .reserved || a.status == .submitted then .processing else a.status
      sourceTxHash := a.sourceTxHash <|> some sourceTxHash }
  return { db with attempts }

/-- The batch of `registerAppExecution`. -/
def registerAppExecution (id : AttemptId) (command : ExecutionCommand) : Option Db := do
  let attempts ← db.attempts.update
    (fun a => a.id == id && (a.status == .reserved || a.status == .submitted ||
      a.status == .processing || a.status == .paid))
    fun a => { a with
      status := if a.status == .reserved then .submitted else a.status
      userOpHash := a.userOpHash <|> some command.userOpHash }
  let commands ← db.commands.insert command
  return { db with attempts, commands }

/-- The attempts that a payer may still report a source transaction for. -/
def reportable (id : AttemptId) (capabilityHash txHash : Hash) (a : PaymentAttempt) : Bool :=
  a.id == id && a.checkoutCapabilityHash == some capabilityHash &&
    (a.status.active || a.status.settled) &&
    (a.sourceTxHash == none || a.sourceTxHash == some txHash)

/-- The update of `registerSourceTransaction`, and whether it found the attempt. -/
def registerSourceTransaction (id : AttemptId) (capabilityHash txHash : Hash) :
    Option (Bool × Db) := do
  let attempts ← db.attempts.update (reportable id capabilityHash txHash) fun a =>
    { a with
      sourceTxHash := a.sourceTxHash <|> some txHash
      status := if a.status == .reserved then .submitted else a.status }
  return (0 < db.attempts.changes (reportable id capabilityHash txHash), { db with attempts })

/-- An attempt that its payer may still cancel. -/
def cancelable (id : AttemptId) (capabilityHash : Hash) (a : PaymentAttempt) : Bool :=
  a.id == id && a.checkoutCapabilityHash == some capabilityHash && a.status == .reserved &&
    a.sourceTxHash == none && a.userOpHash == none

/-- The update of `cancelAttempt`, and whether it found the attempt. -/
def cancelAttempt (id : AttemptId) (capabilityHash : Hash) : Bool × Db :=
  let attempts := db.attempts.modify (cancelable id capabilityHash)
    ({ · with status := .canceled }) ⟨fun _ _ => rfl⟩
  (0 < db.attempts.changes (cancelable id capabilityHash), { db with attempts })

/-- `ATTEMPT_EVIDENCE_GRACE_SECONDS`. -/
def attemptEvidenceGraceSeconds : Nat := 15 * 60

/-- An attempt without evidence in time. -/
def timedOut (intentId : IntentId) (nowSeconds : Nat) (a : PaymentAttempt) : Bool :=
  a.intentId == intentId && (a.status == .reserved || a.status == .submitted) &&
    a.validUntil + attemptEvidenceGraceSeconds < nowSeconds

/-- Expire the attempts without evidence, then take back an open amount that no
active attempt needs. -/
def releaseExpiredPayerDefinedAmount (intentId : IntentId) (nowSeconds : Nat) : Db :=
  let attempts := db.attempts.modify (timedOut intentId nowSeconds)
    ({ · with status := .expired, lastErrorCode := some "PAYMENT_EVIDENCE_TIMEOUT" })
    ⟨fun _ _ => rfl⟩
  let idle := !(attempts.any fun a => a.intentId == intentId && a.status.active)
  let intents := db.intents.modify
    (fun i => i.id == intentId && i.amountMode == .payerDefined &&
      i.status == .awaitingPayment && idle)
    ({ · with amount := .zero, amountAtomic := 0 }) ⟨fun _ _ => rfl⟩
  let unset := intents.any fun i =>
    i.id == intentId && i.amountMode == .payerDefined && i.amountAtomic == 0
  let links := db.links.modify (fun l => l.intentId == intentId && unset)
    ({ · with amount := .zero }) ⟨fun _ _ => rfl⟩
  { db with attempts, intents, links }

/-- The batch of `recordAttemptFeeEvidence`: what was actually charged. -/
def recordAttemptFeeEvidence (attemptId : AttemptId) (platformActual : Nat)
    (networkActual : Option Nat) (chargedTxHash : Hash) : Db :=
  let charge (type : FeeType) (actual : Nat) (ledger : Table FeeLedgerRow) :=
    ledger.modify (fun r => r.attemptId == attemptId && r.type == type)
      (fun r => { r with
        actualAmountAtomic := some actual
        status := if actual = 0 then .waived else .charged
        chargedTxHash := some chargedTxHash })
      ⟨fun _ _ => rfl⟩
  let ledger := charge .platform platformActual db.feeLedger
  { db with
    feeLedger := match networkActual with
      | none => ledger
      | some actual => charge .network actual ledger }

end Db

end ParmeliaLinks.Payments
