/-
ParmeliaLinks/Payments/Repository.lean

The payments repository as handlers over the database.  A handler awaits one
query, one statement or one batch at a time (`RepositoryOp`); between two of
them any other handler may run.  `RepositoryOp.exec` is what an operation does
to the world: the database, the clock and the source of fresh identifiers.

The world also keeps one history variable, `simulations`: the amount that each
successful `simulatePaymentIntent` recorded.  No handler reads it.

A settlement draws its `stc_<uuid>` in the step that uses it: the identifier is
known to nobody before, so the moment of drawing it cannot be observed.
-/
import ParmeliaLinks.Lib.System
import ParmeliaLinks.Payments.Settlement

namespace ParmeliaLinks.Payments

/-- The database, the clock, the next fresh identifier, and the simulations that
have succeeded. -/
structure World where
  db : Db
  clock : Timestamp
  uuid : Nat
  simulations : List (IntentId × Nat)

/-! ### Operations -/

inductive RepositoryOp
  -- local reads of the outside
  | now
  | randomUUID
  -- queries
  | selectIntentByKey (merchantId : MerchantId) (idempotencyKey : String)
  | selectIntent (id : IntentId)
  | selectLink (id : LinkId)
  | selectAttempt (id : AttemptId)
  | selectCheckoutAttempt (id : AttemptId) (capabilityHash : Hash)
  | selectAttemptByKey (intentId : IntentId) (payer : Address) (chainId : ChainId) (key : String)
  | selectCommand (commandId : CommandId)
  | selectEndpoints (merchantId : MerchantId) (mode : Mode) (type : EventType)
  -- statements and batches
  | createIntentAndLink (input : CreateIntentInput) (intentId : IntentId) (linkId : LinkId)
      (timestamp : Timestamp)
  | cancelPaymentIntent (merchantId : MerchantId) (id : IntentId)
  | insertQuote (q : PaymentQuote)
  | insertAttempt (a : AttemptTerms)
  | insertQuoteAndAttempt (q : PaymentQuote) (a : AttemptTerms)
  | markAttemptProcessing (id : AttemptId) (sourceTxHash : Hash)
  | registerAppExecution (id : AttemptId) (command : ExecutionCommand)
  | registerSourceTransaction (id : AttemptId) (capabilityHash txHash : Hash)
  | cancelAttempt (id : AttemptId) (capabilityHash : Hash)
  | releaseExpiredPayerDefinedAmount (intentId : IntentId) (nowSeconds : Nat)
  | recordAttemptFeeEvidence (attemptId : AttemptId) (platformActual : Nat)
      (networkActual : Option Nat) (chargedTxHash : Hash)
  | settleAttempt (s : Settlement) (timestamp : Timestamp) (endpoints : List EndpointId)
  | simulatePaymentIntent (merchantId : MerchantId) (intent : PaymentIntent)
      (timestamp : Timestamp) (endpoints : List EndpointId)

namespace RepositoryOp

/-- What an operation answers.  A write answers `none` or `false` as its
statement or batch does: aborted, or no row changed. -/
abbrev Reply : RepositoryOp → Type
  | .now => Timestamp
  | .randomUUID => Nat
  | .selectIntentByKey .. => Option PaymentIntent
  | .selectIntent _ => Option PaymentIntent
  | .selectLink _ => Option PaymentLink
  | .selectAttempt _ => Option PaymentAttempt
  | .selectCheckoutAttempt .. => Option PaymentAttempt
  | .selectAttemptByKey .. => Option PaymentAttempt
  | .selectCommand _ => Option ExecutionCommand
  | .selectEndpoints .. => List EndpointId
  | .createIntentAndLink .. => Option Unit
  | .cancelPaymentIntent .. => Bool
  | .insertQuote _ => Option Unit
  | .insertAttempt _ => Option Unit
  | .insertQuoteAndAttempt .. => Option Unit
  | .markAttemptProcessing .. => Option Unit
  | .registerAppExecution .. => Option Unit
  | .registerSourceTransaction .. => Option Bool
  | .cancelAttempt .. => Bool
  | .releaseExpiredPayerDefinedAmount .. => Unit
  | .recordAttemptFeeEvidence .. => Unit
  | .settleAttempt .. => Option Bool
  | .simulatePaymentIntent .. => Bool

/-- Put the outcome of a batch into the world; an aborted one changes nothing. -/
def commitBatch (w : World) : Option Db → Option Unit × World
  | some db => (some (), { w with db })
  | none => (none, w)

/-- The same for a batch whose first statement reports whether it changed a row. -/
def commitReport (w : World) : Option (Bool × Db) → Option Bool × World
  | some (changed, db) => (some changed, { w with db })
  | none => (none, w)

/-- The amount that a simulation of the intent would record, as history. -/
def recordSimulation (w : World) (intent : PaymentIntent) (merchantId : MerchantId) :
    List (IntentId × Nat) :=
  match w.db.intents.find? (Db.simulatable merchantId intent.id) with
  | some i => w.simulations ++ [(i.id, i.amountAtomic)]
  | none => w.simulations

/-- One operation. -/
def exec (w : World) : (o : RepositoryOp) → Reply o × World
  | .now => (w.clock, w)
  | .randomUUID => (w.uuid, { w with uuid := w.uuid + 1 })
  | .selectIntentByKey merchantId key =>
    (w.db.intents.find? fun i => i.merchantId == merchantId && i.idempotencyKey == some key, w)
  | .selectIntent id => (w.db.intents.find? (·.id == id), w)
  | .selectLink id => (w.db.links.find? (·.id == id), w)
  | .selectAttempt id => (w.db.attempts.find? (·.id == id), w)
  | .selectCheckoutAttempt id capabilityHash =>
    (w.db.attempts.find? fun a => a.id == id && a.checkoutCapabilityHash == some capabilityHash, w)
  | .selectAttemptByKey intentId payer chainId key =>
    (w.db.attempts.find? fun a => a.intentId == intentId && a.payerAddress == payer &&
      a.sourceChainId == chainId && a.idempotencyKey == key, w)
  | .selectCommand commandId => (w.db.commands.find? (·.commandId == commandId), w)
  | .selectEndpoints merchantId mode type =>
    ((w.db.endpoints.filter (·.subscribed merchantId mode type)).map (·.id), w)
  | .createIntentAndLink input intentId linkId timestamp =>
    commitBatch w (w.db.createIntentAndLink (input.rows intentId linkId timestamp))
  | .cancelPaymentIntent merchantId id =>
    let (changed, db) := w.db.cancelPaymentIntent merchantId id
    (changed, { w with db })
  | .insertQuote q => commitBatch w (w.db.insertQuote q)
  | .insertAttempt a => commitBatch w (w.db.insertAttempt a)
  | .insertQuoteAndAttempt q a => commitBatch w (w.db.insertQuoteAndAttempt q a)
  | .markAttemptProcessing id tx => commitBatch w (w.db.markAttemptProcessing id tx)
  | .registerAppExecution id command => commitBatch w (w.db.registerAppExecution id command)
  | .registerSourceTransaction id capabilityHash tx =>
    commitReport w (w.db.registerSourceTransaction id capabilityHash tx)
  | .cancelAttempt id capabilityHash =>
    let (changed, db) := w.db.cancelAttempt id capabilityHash
    (changed, { w with db })
  | .releaseExpiredPayerDefinedAmount intentId nowSeconds =>
    ((), { w with db := w.db.releaseExpiredPayerDefinedAmount intentId nowSeconds })
  | .recordAttemptFeeEvidence id platform network tx =>
    ((), { w with db := w.db.recordAttemptFeeEvidence id platform network tx })
  | .settleAttempt s timestamp endpoints =>
    commitReport { w with uuid := w.uuid + 1 } (w.db.settleAttempt s w.uuid timestamp endpoints)
  | .simulatePaymentIntent merchantId intent timestamp endpoints =>
    let (changed, db) := w.db.simulatePaymentIntent merchantId intent timestamp endpoints
    (changed, { w with db, simulations := recordSimulation w intent merchantId })

end RepositoryOp

/-- A repository function. -/
abbrev Repository := Prog RepositoryOp RepositoryOp.Reply

/-! ### Queries -/

def nowIso : Repository Timestamp := .perform RepositoryOp.now

def getPaymentIntent (id : IntentId) : Repository (Option PaymentIntent) :=
  .perform (RepositoryOp.selectIntent id)

def getPaymentLink (id : LinkId) : Repository (Option PaymentLink) :=
  .perform (RepositoryOp.selectLink id)

def getAttempt (id : AttemptId) : Repository (Option PaymentAttempt) :=
  .perform (RepositoryOp.selectAttempt id)

def getCheckoutAttempt (id : AttemptId) (capabilityHash : Hash) :
    Repository (Option PaymentAttempt) :=
  .perform (RepositoryOp.selectCheckoutAttempt id capabilityHash)

def getAttemptByIdempotency (intentId : IntentId) (payerAddress : Address)
    (sourceChainId : ChainId) (idempotencyKey : String) : Repository (Option PaymentAttempt) :=
  .perform (RepositoryOp.selectAttemptByKey intentId payerAddress sourceChainId idempotencyKey)

/-! ### Creating intents -/

structure CreatedIntent where
  intent : PaymentIntent
  link : PaymentLink
  replay : Bool

/-- The intent that an idempotency key already stands for; an empty key is no key. -/
def existingIntent (input : CreateIntentInput) : Repository (Option PaymentIntent) :=
  match input.idempotencyKey with
  | none => pure none
  | some key =>
    if key = "" then pure none
    else .perform (RepositoryOp.selectIntentByKey input.merchant.id key)

/-- The link of an intent, if it has one. -/
def linkOf (intent : PaymentIntent) : Repository (Option PaymentLink) :=
  match intent.linkId with
  | none => pure none
  | some id => getPaymentLink id

def idOrFresh : Option Nat → Repository Nat
  | some id => pure id
  | none => .perform RepositoryOp.randomUUID

def createIntentAndLink (input : CreateIntentInput) : Repository CreatedIntent := do
  match ← existingIntent input with
  | some intent =>
    match ← linkOf intent with
    | some link => return { intent, link, replay := true }
    | none => throw "Idempotent intent is missing its checkout link"
  | none =>
    let intentId ← idOrFresh input.intentId
    let linkId ← idOrFresh input.linkId
    let timestamp ← nowIso
    match ← .perform (RepositoryOp.createIntentAndLink input intentId linkId timestamp) with
    | none =>
      -- another request may have committed the same idempotency key since
      let some intent ← existingIntent input | throw "D1 batch aborted"
      let some link ← linkOf intent | throw "D1 batch aborted"
      return { intent, link, replay := true }
    | some () =>
      let some intent ← getPaymentIntent intentId
        | throw "Payment intent creation was not durable"
      let some link ← getPaymentLink linkId | throw "Payment intent creation was not durable"
      return { intent, link, replay := false }

def cancelPaymentIntent (merchantId : MerchantId) (id : IntentId) : Repository Bool :=
  .perform (RepositoryOp.cancelPaymentIntent merchantId id)

/-! ### Creating and registering attempts -/

structure CheckoutAccess where
  capabilityHash : Hash
  payerProofSignature : Hash
  payerProofMessageHash : Hash

def insertQuote (quote : PaymentQuote) : Repository Unit := do
  let some () ← .perform (RepositoryOp.insertQuote quote) | throw "D1 statement aborted"
  return ()

/-- The columns bound by the insert: the key and the access of the request. -/
def AttemptTerms.requested (attempt : AttemptTerms) (idempotencyKey : String)
    (access : Option CheckoutAccess) : AttemptTerms :=
  { attempt with
    idempotencyKey
    checkoutCapabilityHash := access.map (·.capabilityHash)
    payerProofSignature := access.map (·.payerProofSignature)
    payerProofMessageHash := access.map (·.payerProofMessageHash) }

def insertAttempt (attempt : AttemptTerms) (idempotencyKey : String)
    (checkoutAccess : Option CheckoutAccess) : Repository PaymentAttempt := do
  let some () ← .perform
      (RepositoryOp.insertAttempt (attempt.requested idempotencyKey checkoutAccess))
    | throw "D1 batch aborted"
  let some stored ← getAttempt attempt.id | throw "Payment attempt creation was not durable"
  return stored

def insertQuoteAndAttempt (quote : PaymentQuote) (attempt : AttemptTerms)
    (idempotencyKey : String) : Repository PaymentAttempt := do
  match ← .perform (RepositoryOp.insertQuoteAndAttempt quote
      (attempt.requested idempotencyKey none)) with
  | none =>
    let some replay ← getAttemptByIdempotency attempt.intentId attempt.payerAddress
        attempt.sourceChainId idempotencyKey
      | throw "D1 batch aborted"
    return replay
  | some () =>
    let some stored ← getAttempt attempt.id | throw "Payment attempt creation was not durable"
    return stored

def markAttemptProcessing (attemptId : AttemptId) (sourceTxHash : Hash) : Repository Unit := do
  let some () ← .perform (RepositoryOp.markAttemptProcessing attemptId sourceTxHash)
    | throw "UNIQUE constraint failed: payment_attempts.source_tx_hash"
  return ()

structure ExecutionInput where
  commandId : CommandId
  attemptId : AttemptId
  sourceChainId : ChainId
  userOpHash : Hash

structure RegisteredExecution where
  attemptId : AttemptId
  status : AttemptStatus
  userOpHash : Hash
  idempotentReplay : Bool

/-- The status shown for an execution: a reservation counts as submitted. -/
def executionStatus (s : AttemptStatus) : AttemptStatus :=
  if s = .reserved then .submitted else s

def registerAppExecution (command : ExecutionInput) :
    Repository (Option RegisteredExecution) := do
  match ← .perform (RepositoryOp.selectCommand command.commandId) with
  | some replay =>
    let some attempt ← getAttempt replay.attemptId | return none
    return some { attemptId := attempt.id, status := executionStatus attempt.status
                  userOpHash := replay.userOpHash, idempotentReplay := true }
  | none =>
    let some attempt ← getAttempt command.attemptId | return none
    if attempt.sourceChainId ≠ command.sourceChainId then return none else
    if attempt.userOpHash.any (· ≠ command.userOpHash) then return none else
    let timestamp ← nowIso
    let some () ← .perform (RepositoryOp.registerAppExecution attempt.id
        { commandId := command.commandId, attemptId := attempt.id
          userOpHash := command.userOpHash, createdAt := timestamp })
      | throw "D1 batch aborted"
    let some stored ← getAttempt attempt.id | return none
    return some { attemptId := stored.id, status := executionStatus stored.status
                  userOpHash := command.userOpHash, idempotentReplay := false }

def registerSourceTransaction (attemptId : AttemptId) (capabilityHash txHash : Hash) :
    Repository (Option PaymentAttempt) := do
  let some changed ← .perform
      (RepositoryOp.registerSourceTransaction attemptId capabilityHash txHash)
    | throw "UNIQUE constraint failed: payment_attempts.source_tx_hash"
  if changed then getCheckoutAttempt attemptId capabilityHash else return none

def cancelAttempt (attemptId : AttemptId) (capabilityHash : Hash) : Repository Bool :=
  .perform (RepositoryOp.cancelAttempt attemptId capabilityHash)

def releaseExpiredPayerDefinedAmount (intentId : IntentId) : Repository Unit := do
  let now ← nowIso
  .perform (RepositoryOp.releaseExpiredPayerDefinedAmount intentId (now / 1000))

/-! ### Settling -/

structure SettleResult where
  applied : Bool
  intent : Option PaymentIntent
  eventId : Option EventId

def recordAttemptFeeEvidence (attemptId : AttemptId) (platformFeeAtomic : Nat)
    (networkFeeAtomic : Option Nat) (chargedTxHash : Hash) : Repository Unit := do
  let some attempt ← getAttempt attemptId | throw "Payment attempt is missing for fee evidence"
  if platformFeeAtomic ≠ attempt.platformFeeAtomic then
    throw "Actual platform fee does not match the signed attempt" else
  if networkFeeAtomic.any (attempt.cctpFeeAtomic < ·) then
    throw "Actual network fee exceeds the signed quote" else
  .perform (RepositoryOp.recordAttemptFeeEvidence attempt.id platformFeeAtomic networkFeeAtomic
    chargedTxHash)

/-- The compare-and-set loop of `settleAttempt`, with the retries that are left. -/
def settleRetries (input : SettleInput) (eventId : EventId) (fees : PaymentFeeBreakdown) :
    Nat → Repository SettleResult
  | 0 => do
    let latestAttempt ← getAttempt input.attemptId
    let latestIntent ← match latestAttempt with
      | some a => getPaymentIntent a.intentId
      | none => pure none
    if latestAttempt.any (·.status.settled) then
      return { applied := false, intent := latestIntent, eventId := some eventId }
    else throw "Payment settlement compare-and-set retries were exhausted"
  | retries + 1 => do
    let some attempt ← getAttempt input.attemptId
      | return { applied := false, intent := none, eventId := none }
    let some intent ← getPaymentIntent attempt.intentId
      | return { applied := false, intent := none, eventId := none }
    if !attempt.status.active then
      return { applied := false, intent := some intent, eventId := some eventId } else
    let s := Settlement.compute input attempt intent fees
    let timestamp ← nowIso
    let endpoints ← .perform
      (RepositoryOp.selectEndpoints intent.merchantId intent.mode s.eventType)
    let some changed ← .perform (RepositoryOp.settleAttempt s timestamp endpoints)
      | throw "UNIQUE constraint failed: payment_attempts.source_tx_hash"
    if changed then
      let intent ← getPaymentIntent intent.id
      return { applied := true, intent, eventId := some eventId }
    else settleRetries input eventId fees retries

def settleAttempt (input : SettleInput) : Repository SettleResult := do
  let some initialAttempt ← getAttempt input.attemptId
    | return { applied := false, intent := none, eventId := none }
  let eventId := EventId.settlement initialAttempt.id
  let some initialIntent ← getPaymentIntent initialAttempt.intentId
    | return { applied := false, intent := none, eventId := none }
  if initialAttempt.status.settled then
    return { applied := false, intent := some initialIntent, eventId := some eventId } else
  if input.settledAmountAtomic = 0 then throw "Settled amount must be positive" else
  if initialAttempt.route ≠ .sameChain ∧ input.networkFeeAtomic = none then
    throw "Actual CCTP network fee is required before settlement" else
  let platformFeeAtomic := input.platformFeeAtomic.getD initialAttempt.platformFeeAtomic
  let networkFeeAtomic := input.networkFeeAtomic.getD 0
  recordAttemptFeeEvidence initialAttempt.id platformFeeAtomic (some networkFeeAtomic)
    input.sourceTxHash
  let fees := actualFeeBreakdown initialAttempt.toAttemptTerms platformFeeAtomic networkFeeAtomic
  settleRetries input eventId fees 5

def simulatePaymentIntent (merchantId : MerchantId) (id : IntentId) :
    Repository (Option PaymentIntent) := do
  let some intent ← getPaymentIntent id | return none
  if intent.merchantId ≠ merchantId ∨ intent.mode ≠ .test ∨ intent.status ≠ .awaitingPayment then
    return none else
  let timestamp ← nowIso
  let endpoints ← .perform (RepositoryOp.selectEndpoints merchantId .test .paymentPaid)
  let changed ← .perform
    (RepositoryOp.simulatePaymentIntent merchantId intent timestamp endpoints)
  if changed then getPaymentIntent intent.id else return none

end ParmeliaLinks.Payments
